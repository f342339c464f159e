import ResilientCalls.Requester.Spawn

/-!
# What a thread has afterwards

Code `Restores` if, whenever it comes to an end, its thread has the context that it had before. This
passes from parts to wholes, and `withContext` gives it to any code at all, since its release puts
back what was there and does not look at what the code left. So all entry points that run client code
under a context restore (`restores_entryPoint`), whatever the client code does to the thread, and
tasks that follow one another on one thread all find what the first one found.
-/

namespace ResilientCalls

open Program

variable {σ α β η : Type} {others : Others σ} {limit : Moment}

/-- Whenever the code comes to an end, its thread has the context that it had before. -/
def Program.Restores (others : Others σ) (limit : Moment) (p : Program σ α) : Prop :=
  ∀ h w, (p.run others limit h w).exit.isEnd = true → (p.run others limit h w).holder = h

/-! ## From parts to wholes -/

theorem restores_done (a : α) : (done a : Program σ α).Restores others limit := fun _ _ _ => rfl

theorem restores_unwind (p : Payload) : (unwind p : Program σ α).Restores others limit :=
  fun _ _ _ => rfl

theorem restores_bind {p : Program σ α} {g : α → Program σ β} (hp : p.Restores others limit)
    (hg : ∀ a, (g a).Restores others limit) : (p.bind g).Restores others limit := by
  intro h w hend
  have hfirst := hp h w
  rw [run_bind] at hend ⊢
  generalize p.run others limit h w = f at hend hfirst ⊢
  obtain ⟨exit, holder, world⟩ := f
  cases exit with
  | value a =>
    obtain rfl : holder = h := hfirst rfl
    exact hg a _ _ hend
  | unwound payload => exact hfirst rfl
  | pending rest => simp [Final.andThen, Exit.isEnd] at hend

theorem restores_caught {p : Program σ α} (hp : p.Restores others limit) :
    p.caught.Restores others limit := by
  intro h w hend
  have hfirst := hp h w
  rw [run_caught] at hend ⊢
  generalize p.run others limit h w = f at hend hfirst ⊢
  obtain ⟨exit, holder, world⟩ := f
  cases exit with
  | value a => exact hfirst rfl
  | unwound payload => exact hfirst rfl
  | pending rest => simp [Final.caught, Exit.isEnd] at hend

theorem restores_perform {a : Action σ β} (ha : ∀ h w, (a.step h w).2.1 = h) :
    (perform a).Restores others limit :=
  fun h w _ => ha h w

theorem restores_record (e : Entry) : (record e : Program σ Unit).Restores others limit :=
  restores_perform fun _ _ => rfl

theorem restores_current : (current : Program σ (Option Context)).Restores others limit :=
  restores_perform fun _ _ => rfl

theorem restores_settle (i : FutureId) (outcome : Reply) :
    (perform (.settle i outcome) : Program σ Bool).Restores others limit := by
  refine restores_perform fun h w => ?_
  rw [Action.step]
  cases w.futures i <;> rfl

theorem restores_withContext (c : Context) (body : Program σ α) :
    (withContext c body).Restores others limit :=
  fun h w hend => holder_withContext c body h w hend

/-! ## Entry points -/

/-- The places at which the library runs client code with a context attached. -/
inductive EntryPoint (σ : Type) : Type → Type 1
  /-- Code run under a context. -/
  | runWith {α : Type} (c : Context) (body : Program σ α) : EntryPoint σ α
  /-- A request. -/
  | request (r : Requester σ) (inv : Invocation σ) : EntryPoint σ (Except RpcError String)
  /-- The end of a chain with a raw value. -/
  | chainSuccess {η : Type} (convert : η → String → Program σ Reply) (c : Chain η) (raw : String) :
      EntryPoint σ Unit
  /-- The end of a chain with a failure. -/
  | chainFailure {η : Type} (c : Chain η) (cause : Failure) : EntryPoint σ Unit
  /-- The task of a request on another thread. -/
  | task (r : Requester σ) (inv : Invocation σ) (t : Task) : EntryPoint σ Unit

/-- The code of an entry point. -/
def EntryPoint.code (net : Network σ) : EntryPoint σ α → Program σ α
  | .runWith c body => withContext c body
  | .request r inv => r.request net inv
  | .chainSuccess convert c raw => c.succeed convert raw
  | .chainFailure c cause => c.fail cause
  | .task r inv t => r.runTask net inv t

theorem restores_base (r : Requester σ) : r.base.Restores others limit := by
  refine restores_bind restores_current fun c => ?_
  cases c with
  | some c => exact restores_done c
  | none => exact restores_perform fun _ _ => rfl

theorem restores_request (net : Network σ) (r : Requester σ) (inv : Invocation σ) :
    (r.request net inv).Restores others limit :=
  restores_bind (restores_base r) fun _ => restores_withContext _ _

theorem restores_chainDrop (c : Chain η) : (c.drop : Program σ Unit).Restores others limit := by
  refine restores_bind (restores_record _) fun _ => restores_bind (restores_record _) fun _ => ?_
  exact restores_bind (restores_settle _ _) fun _ => restores_done ()

theorem restores_listen (convert : η → String → Program σ Reply) (c : Chain η)
    {work : Program σ Reply} (hwork : work.Restores others limit) :
    (c.listen convert work).Restores others limit := by
  refine restores_bind (restores_caught hwork) fun outcome => ?_
  match outcome with
  | .ok (.ok raw) => exact restores_withContext _ _
  | .ok (.error e) => exact restores_withContext _ _
  | .error p => exact restores_bind (restores_chainDrop c) fun _ => restores_unwind p

theorem restores_taskWork (net : Network σ) (r : Requester σ) (inv : Invocation σ) (t : Task) :
    (r.taskWork net inv t).Restores others limit := by
  refine restores_bind (restores_withContext _ _) fun result => ?_
  cases result with
  | ok v => exact restores_done _
  | error e => exact restores_done _

theorem restores_entryPoint (net : Network σ) (e : EntryPoint σ α) :
    (e.code net).Restores others limit := by
  cases e with
  | runWith c body => exact restores_withContext c body
  | request r inv => exact restores_request net r inv
  | chainSuccess convert c raw => exact restores_withContext _ _
  | chainFailure c cause => exact restores_withContext _ _
  | task r inv t => exact restores_listen _ _ (restores_taskWork net r inv t)

/-! ## One thread, many tasks -/

/-- What the thread has when each of its tasks starts, one task after the other. A panic ends only
the task that panics; behind a task that never ends no other starts. -/
def startHolders (others : Others σ) (limit : Moment) (net : Network σ) :
    List ((α : Type) × EntryPoint σ α) → Option Context → World σ → List (Option Context)
  | [], _, _ => []
  | ⟨_, e⟩ :: tasks, h, w =>
      let f := (e.code net).run others limit h w
      h :: if f.exit.isEnd then startHolders others limit net tasks f.holder f.world else []

theorem startHolders_eq (net : Network σ) (tasks : List ((α : Type) × EntryPoint σ α)) (h : Option Context)
    (w : World σ) : ∀ x ∈ startHolders others limit net tasks h w, x = h := by
  induction tasks generalizing w with
  | nil =>
    intro x hx
    cases hx
  | cons task tasks ih =>
    obtain ⟨α, e⟩ := task
    intro x hx
    rcases List.mem_cons.1 hx with rfl | hx
    · rfl
    · split at hx
      · rename_i hend
        rw [restores_entryPoint net e h w hend] at hx
        exact ih _ x hx
      · cases hx

/-- **Restoration.** When an entry point returns or unwinds, the thread has what it had at entry. So
however many tasks one thread runs one after another, each of them finds what the first one found. -/
theorem holder_after_entryPoints (net : Network σ) :
    (∀ {α : Type} (e : EntryPoint σ α) (h : Option Context) (w : World σ),
      ((e.code net).run others limit h w).exit.isEnd = true →
        ((e.code net).run others limit h w).holder = h) ∧
      ∀ (tasks : List ((α : Type) × EntryPoint σ α)) (h : Option Context) (w : World σ),
        ∀ x ∈ startHolders others limit net tasks h w, x = h :=
  ⟨fun e h w => restores_entryPoint net e h w, startHolders_eq net⟩

/-- Client code that attaches a context, leaks its guard and panics. -/
def leakAndPanic : Program σ α := do
  let _ ← attach ⟨"leaked", []⟩
  unwind (.text "decoder bug")

/-- A success handler that leaks and panics, and a thread on which such code runs three times. -/
theorem holder_after_leaks :
    let net : Network Unit := fun _ => ⟨return true, fun _ => return .ok ()⟩
    let handler : Unit → String → Program Unit Reply := fun _ _ => leakAndPanic
    let success := EntryPoint.chainSuccess handler ⟨0, ⟨"getBlock", []⟩, some ()⟩ "0xzz"
    let run := (success.code net).run nobody none (some ⟨"client", []⟩) (World.start ())
    (run.exit.isEnd = true ∧ run.holder = some ⟨"client", []⟩) ∧
      startHolders nobody none net [⟨Unit, success⟩, ⟨Unit, .runWith ⟨"task", []⟩ leakAndPanic⟩, ⟨Unit, success⟩]
        none (World.start ()) ≠ [] ∧
      ∀ x ∈ startHolders nobody none net
        [⟨Unit, success⟩, ⟨Unit, .runWith ⟨"task", []⟩ leakAndPanic⟩, ⟨Unit, success⟩] none (World.start ()),
        x = none := by
  intro net handler success run
  have hend : run.exit.isEnd = true := rfl
  refine ⟨⟨hend, (holder_after_entryPoints net).1 success _ _ hend⟩, List.cons_ne_nil _ _, ?_⟩
  exact (holder_after_entryPoints net).2 _ none (World.start ())

end ResilientCalls
