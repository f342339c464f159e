import ResilientCalls.Proofs.ChainEndings
import ResilientCalls.Proofs.FirstWrite
import ResilientCalls.Proofs.Stretches
import ResilientCalls.Requester.Spawn

/-!
# A spawned request ends as the request does

The task of a spawned request goes through the very code of the request, with the context of the spawn
attached, and does nothing else but attach, restore and end its chain (`goes_runTask`). Its future shows
how the request ended, and a task that is dropped cancels it (`Requester.spawn_as_request`).
-/

namespace ResilientCalls

open Program

variable {σ : Type} {h h' : Option Context} {L : List (Deed σ)}

/-! ## The task and the request -/

/-- How a request ends: with a value or one error, or with a panic of client code. -/
abbrev Requester.Result := Except Payload (Except RpcError String)

theorem RpcError.settled_toFailure (e : RpcError) : e.toFailure.settled = .failed e.toFailure := by
  obtain ⟨kind, m, cause⟩ := e
  cases cause <;> rfl

namespace Requester.Result

/-- The outcome of a future whose request ended like this. -/
def shown : Result → Reply
  | .ok (.ok v) => .ok v
  | .ok (.error e) => .error (.failed e.toFailure)
  | .error _ => .error .cancelled

variable {q : Result}

theorem shown_eq_ok {v : String} : shown q = .ok v ↔ q = .ok (.ok v) := by
  match q with
  | .ok (.ok _) => simp [shown]
  | .ok (.error _) => simp [shown]
  | .error _ => simp [shown]

/-- The error of the request is in the future as it was, so another error shows otherwise. -/
theorem shown_eq_failed {e : RpcError} : shown q = .error (.failed e.toFailure) ↔ q = .ok (.error e) := by
  match q with
  | .ok (.ok _) => simp [shown]
  | .ok (.error e') =>
    refine ⟨fun heq => ?_, fun heq => by cases heq; rfl⟩
    obtain heq : e'.toFailure = e.toFailure := by simpa [shown] using heq
    rw [← RpcError.ofFailure_toFailure e', heq, RpcError.ofFailure_toFailure]
  | .error _ => simp [shown]

theorem shown_eq_cancelled : shown q = .error .cancelled ↔ ∃ p, q = .error p := by
  match q with
  | .ok (.ok _) => simp [shown]
  | .ok (.error _) => simp [shown]
  | .error _ => simp [shown]

end Requester.Result

namespace Task

/-- The task that a spawn makes for a future under a context. -/
def forFuture (i : FutureId) (c : Context) : Task := ⟨c, ⟨i, c, some ()⟩⟩

/-- What a task does when its request has ended. -/
def finish (t : Task) : Requester.Result → Program σ Unit
  | .ok (.ok v) => t.chain.succeed (fun _ raw => return .ok raw) v
  | .ok (.error e) => t.chain.fail e.toFailure
  | .error p => do
      t.chain.drop
      .unwind p

/-- The deeds of that on a thread with `h` attached. -/
def finishing (t : Task) (h : Option Context) (q : Requester.Result) (won : Bool) : List (Deed σ) :=
  match q with
  | .ok (.ok v) =>
      attaching t.context h ++
        (t.chain.closing .converted .success (.ok v) (some t.context) won ++ releasing h (some t.context))
  | .ok (.error e) => attaching t.context h ++ t.chain.failing e.toFailure h won
  | .error _ => t.chain.dropping won

variable {i : FutureId} {c : Context}

theorem goes_finish [Inhabited σ] {q : Requester.Result} {r : Except Payload Unit} :
    ((forFuture i c).finish q).Goes h L r h' ↔
      ∃ won, L = (forFuture i c).finishing h q won ∧ r = q.map (fun _ => ()) ∧ h' = h := by
  match q with
  | .ok (.ok v) =>
    refine goes_withContext.trans ⟨?_, ?_⟩
    · rintro ⟨L₁, h₁, rfl, hbody, rfl⟩
      obtain ⟨won, rfl, rfl, rfl⟩ := Chain.goes_closing.1 hbody
      exact ⟨won, rfl, rfl, rfl⟩
    · rintro ⟨won, rfl, rfl, rfl⟩
      exact ⟨_, _, rfl, Chain.goes_closing.2 ⟨won, rfl, rfl, rfl⟩, rfl⟩
  | .ok (.error e) => exact Chain.goes_failure
  | .error p =>
    refine goes_bind.trans ⟨?_, ?_⟩
    · rintro (⟨u, h₁, L₁, L₂, rfl, hdrop, hunwind⟩ | ⟨e, -, hdrop⟩)
      · obtain ⟨rfl, rfl, rfl⟩ := goes_unwind.1 hunwind
        obtain ⟨won, rfl, -, rfl⟩ := Chain.goes_drop.1 hdrop
        exact ⟨won, List.append_nil _, rfl, rfl⟩
      · obtain ⟨won, -, hwon, -⟩ := Chain.goes_drop.1 hdrop
        cases hwon
    · rintro ⟨won, rfl, rfl, rfl⟩
      exact .inl ⟨(), _, _, [], (List.append_nil _).symm, Chain.goes_drop.2 ⟨won, rfl, rfl, rfl⟩,
        goes_unwind.2 ⟨rfl, rfl, rfl⟩⟩

theorem finishing_eq (h : Option Context) (q : Requester.Result) (won : Bool) :
    ∃ pre post, ((forFuture i c).finishing h q won : List (Deed σ)) = pre ++ .did (.settle i q.shown) won :: post := by
  have hclosing : ∀ (trace : String → Trace) (result : CompletionResult) (outcome : Reply) (rest : List (Deed σ)),
      ∃ pre post, attaching c h ++ ((forFuture i c).chain.closing trace result outcome (some c) won ++ rest) =
        pre ++ .did (.settle i outcome) won :: post := fun _ _ _ _ => ⟨[_, _, _, _, _], _, rfl⟩
  match q with
  | .ok (.ok v) => exact hclosing ..
  | .ok (.error e) =>
    rw [Requester.Result.shown, ← e.settled_toFailure]
    exact hclosing ..
  | .error p => exact ⟨[_, _], _, rfl⟩

end Task

namespace Requester

variable {net : Network σ} {r : Requester σ} {inv : Invocation σ}

theorem runTask_eq (t : Task) :
    r.runTask net inv t = (withContext t.context (r.request net inv)).caught.bind t.finish := by
  show (r.taskWork net inv t).caught.bind _ = _
  rw [taskWork, bind_eq, bind_eq_caught_bind (withContext ..), caught_bind_caught_bind]
  congr 1
  funext q
  rcases q with p | (e | v) <;> rfl

/-- **A task is a request.** What a task can do is what the request can do on a thread with the context
attached, between the attaching and the end of the chain. -/
theorem goes_runTask [Inhabited σ] {i : FutureId} {c : Context} {res : Except Payload Unit} :
    (r.runTask net inv (.forFuture i c)).Goes h L res h' ↔
      ∃ R q h₁ won, (r.request net inv).Goes (some c) R q h₁ ∧ res = q.map (fun _ => ()) ∧ h' = h ∧
        L = attaching c h ++ (R ++ releasing h h₁) ++ (Task.forFuture i c).finishing h q won := by
  rw [runTask_eq, goes_caught_bind]
  constructor
  · rintro ⟨q, h₂, L₁, L₂, rfl, hrequest, hfinish⟩
    obtain ⟨R, h₁, rfl, hgoes, rfl⟩ := goes_withContext.1 hrequest
    obtain ⟨won, rfl, rfl, rfl⟩ := Task.goes_finish.1 hfinish
    exact ⟨R, q, h₁, won, hgoes, rfl, rfl, rfl⟩
  · rintro ⟨R, q, h₁, won, hgoes, rfl, rfl, rfl⟩
    exact ⟨q, _, _, _, rfl, goes_withContext.2 ⟨R, h₁, rfl, hgoes, rfl⟩, Task.goes_finish.2 ⟨won, rfl, rfl, rfl⟩⟩

/-! ## The spawn -/

/-- The deeds of finding the context for a request on a thread with `h` attached. -/
def basing (r : Requester σ) (h : Option Context) (c : Context) : List (Deed σ) :=
  .did (.holder id) h ::
    match h with
    | some _ => []
    | none => [.did (.storage r.storage id) c]

theorem goes_base [Inhabited σ] {res : Except Payload Context} (hgoes : r.base.Goes h L res h') :
    ∃ c, L = r.basing h c ∧ res = .ok c ∧ h' = h ∧ ∀ c', h = some c' → c' = c := by
  obtain ⟨L₂, rfl, hrest⟩ := makes_current.bind.1 hgoes
  cases h with
  | some c =>
    obtain ⟨rfl, rfl, rfl⟩ := goes_done.1 hrest
    exact ⟨c, rfl, rfl, rfl, fun _ hc => (Option.some.inj hc).symm⟩
  | none =>
    obtain ⟨c, w, w', hstep, rfl, rfl⟩ := (goes_perform fun _ => rfl).1 hrest
    cases hstep
    exact ⟨_, rfl, rfl, rfl, nofun⟩

theorem goes_spawn [Inhabited σ] {res : Except Payload Spawned} (hgoes : r.spawn.Goes h L res h') :
    ∃ i c found rest, L = .did .newFuture i :: (r.basing h c ++ .did (.peek i) found :: rest) ∧
      (∀ c', h = some c' → c' = c) ∧ h' = h ∧
      res = .ok ⟨i, match found with
        | none => some (.forFuture i c)
        | some _ => none⟩ := by
  rcases goes_bind.1 hgoes with ⟨i, h₁, L₁, L₂, rfl, hnew, hrest⟩ | ⟨e, -, hnew⟩
  · obtain ⟨i, w, w', hstep, rfl, hi⟩ := (goes_perform fun _ => rfl).1 hnew
    cases hstep
    cases hi
    rcases goes_bind.1 hrest with ⟨c, h₂, L₃, L₄, rfl, hbase, hnext⟩ | ⟨e, -, hbase⟩
    · obtain ⟨c, rfl, hc, rfl, hattached⟩ := goes_base hbase
      cases hc
      rcases goes_bind.1 hnext with ⟨made, h₃, L₅, L₆, rfl, hmake, hlast⟩ | ⟨e, -, hmake⟩
      · obtain ⟨found, rfl, rfl, hmade⟩ := Chain.goes_make hmake
        cases hmade
        cases found with
        | none =>
          obtain ⟨rfl, rfl, rfl⟩ := goes_done.1 hlast
          exact ⟨_, c, none, [], rfl, hattached, rfl, rfl⟩
        | some outcome =>
          obtain ⟨won, rfl, rfl, rfl⟩ := goes_settle_bind.1 hlast
          exact ⟨_, c, some outcome, _, rfl, hattached, rfl, rfl⟩
      · obtain ⟨found, -, -, hmade⟩ := Chain.goes_make hmake
        cases hmade
    · obtain ⟨c, -, hc, -⟩ := goes_base hbase
      cases hc
  · obtain ⟨i, w, w', hstep, -, hi⟩ := (goes_perform fun _ => rfl).1 hnew
    cases hi

end Requester

/-! ## In a pool -/

namespace Pool

variable {P Q R : Pool σ} {t : Nat} {i : FutureId} {es : List (Nat × Deed σ)} {outcome : Reply}

theorem Step.newFuture (hstep : P.Step t (.did .newFuture i) Q) :
    i = P.world.nextId ∧ Q.world.nextId = i + 1 := by
  cases hstep with
  | does _ _ hallows =>
    cases hallows with
    | did hact =>
      cases hact
      exact ⟨rfl, rfl⟩

theorem Step.stored {s : StorageId} {c : Context} (hstep : P.Step t (.did (.storage s id) c) Q) :
    P.world.storages s = c := by
  cases hstep with
  | does _ _ hallows =>
    cases hallows with
    | did hact =>
      cases hact
      rfl

theorem Runs.kept (hrun : P.Runs es Q) (hi : i < P.world.nextId) (hcomplete : P.future i = some outcome) :
    Q.future i = some outcome := by
  rw [hrun.future hi, hcomplete, Option.some_or]

/-- In this run thread `t` offers an outcome to a future, which has that outcome then unless it was
complete before, and is complete for good. -/
structure Completes (P : Pool σ) (t : Nat) (i : FutureId) (es : List (Nat × Deed σ)) (outcome : Reply)
    (Q : Pool σ) : Prop where
  offered : ∃ before won after P₁, es = before ++ (t, .did (.settle i outcome) won) :: after ∧
    P.Runs before P₁ ∧ Q.future i = (P₁.future i).or (some outcome)
  complete : Q.future i ≠ none
  kept : ∀ {es' : List (Nat × Deed σ)} {R : Pool σ}, Q.Runs es' R → R.future i = Q.future i

theorem Runs.completes (hrun : P.Runs es Q) (hi : i < P.world.nextId) {L L' : List (Deed σ)} {won : Bool}
    (hdeeds : deedsOf t es = L ++ .did (.settle i outcome) won :: L') : P.Completes t i es outcome Q := by
  obtain ⟨before, after, rfl, -, -⟩ := deedsOf_eq_append_cons hdeeds
  obtain ⟨P₁, P₂, hbefore, hstep, hafter⟩ := hrun.step_of_mem
  have hi₁ : i < P₁.world.nextId := Nat.lt_of_lt_of_le hi hbefore.nextId_le
  have hwrite : (Deed.did (.settle i outcome) won : Deed σ).write? i = some outcome := by
    simp [Deed.write?, Deed.offer?]
  have hP₂ : P₂.future i = (P₁.future i).or (some outcome) := by rw [hstep.future hi₁, hwrite]
  obtain ⟨o, ho⟩ : ∃ o, (P₁.future i).or (some outcome) = some o := by cases P₁.future i <;> exact ⟨_, rfl⟩
  have hQ : Q.future i = some o := hafter.kept (Nat.lt_of_lt_of_le hi₁ hstep.nextId_le) (hP₂.trans ho)
  refine ⟨⟨before, won, after, P₁, rfl, hbefore, hQ.trans ho.symm⟩, by simp [hQ], fun hmore => ?_⟩
  rw [hQ]
  exact hmore.kept (Nat.lt_of_lt_of_le hi hrun.nextId_le) hQ

end Pool

namespace Requester

variable {net : Network σ} {r : Requester σ} {inv : Invocation σ} {P Q : Pool σ} {t : Nat} {i : FutureId}
  {c : Context} {es : List (Nat × Deed σ)}

/-- The context in force when a thread with `h` attached spawns a request: the attached one, or the stored
one at the moment of the spawn if there is none. -/
def Captures (r : Requester σ) (P : Pool σ) (t : Nat) (h : Option Context) (es : List (Nat × Deed σ))
    (c : Context) : Prop :=
  h = some c ∨ h = none ∧ ∃ before after P₁, es = before ++ (t, .did (.storage r.storage id) c) :: after ∧
    P.Runs before P₁ ∧ P₁.world.storages r.storage = c

theorem captures_of_deeds {L L' : List (Deed σ)} (hrun : P.Runs es Q) (hattached : ∀ c', h = some c' → c' = c)
    (hdeeds : Pool.deedsOf t es = L ++ (r.basing h c ++ L')) : r.Captures P t h es c := by
  cases h with
  | some c' => exact .inl (congrArg some (hattached c' rfl))
  | none =>
    rw [basing, List.cons_append, List.singleton_append, List.append_cons] at hdeeds
    obtain ⟨before, after, rfl, -, -⟩ := Pool.deedsOf_eq_append_cons hdeeds
    obtain ⟨P₁, P₂, hbefore, hstep, -⟩ := hrun.step_of_mem
    exact .inr ⟨rfl, before, after, P₁, rfl, hbefore, hstep.stored⟩

/-- The future of a spawn is new, and so is pending when the spawn looks at it, unless a thread has made up
its name. -/
theorem through_spawn {res : Except Payload Spawned} (hspawn : P.Through t r.spawn h es res h' Q) :
    h' = h ∧ ∃ i c task, res = .ok ⟨i, task⟩ ∧ i < Q.world.nextId ∧ r.Captures P t h es c ∧
      (task = some (.forFuture i c) ∨
        task = none ∧ ∃ o, .did (.peek i) (some o) ∈ Pool.deedsOf t es ∧ Q.future i = some o) := by
  have : Inhabited σ := ⟨P.world.user⟩
  obtain ⟨i, c, found, rest, hdeeds, hattached, rfl, rfl⟩ := goes_spawn hspawn.goes
  have hcaptures := captures_of_deeds (L := [.did .newFuture i]) hspawn.run hattached hdeeds
  -- The future has its name from its first deed on.
  have hnew : ∃ (before after : List (Nat × Deed σ)) (P₁ : Pool σ), es = before ++ after ∧
      i < P₁.world.nextId ∧ P₁.Runs after Q ∧
      Pool.deedsOf t after = r.basing h' c ++ .did (.peek i) found :: rest := by
    obtain ⟨before, after, rfl, -, hafter⟩ := Pool.deedsOf_eq_append_cons (L := []) hdeeds
    obtain ⟨P₁, P₂, -, hstep, hruns⟩ := hspawn.run.step_of_mem
    refine ⟨before ++ [(t, .did .newFuture i)], after, P₂, by simp, ?_, hruns, hafter⟩
    rw [hstep.newFuture.2]
    exact Nat.lt_succ_self i
  obtain ⟨before, after, P₁, rfl, hi, hruns, hafter⟩ := hnew
  refine ⟨rfl, i, c, _, rfl, Nat.lt_of_lt_of_le hi hruns.nextId_le, hcaptures, ?_⟩
  cases found with
  | none => exact .inl rfl
  | some o =>
    refine .inr ⟨rfl, o, by simp [hafter], ?_⟩
    obtain ⟨skipped, more, rfl, -, -⟩ := Pool.deedsOf_eq_append_cons hafter
    obtain ⟨P₂, P₃, hskipped, hstep, hmore⟩ := hruns.step_of_mem
    have hi₂ : i < P₂.world.nextId := Nat.lt_of_lt_of_le hi hskipped.nextId_le
    exact ((Pool.Runs.refl.step hstep).append hmore).kept hi₂ hstep.peek.symm

theorem ends_runTask {others : Others σ} (hrequest : (r.request net inv).Ends others) (t : Task) :
    (r.runTask net inv t).Ends others := by
  rw [runTask_eq]
  refine ends_bind (ends_caught (ends_withContext _ hrequest)) fun q => ?_
  match q with
  | .ok (.ok v) =>
    show (t.chain.succeed (fun _ raw => done (.ok raw)) v).Ends others
    exact Chain.ends_success (fun _ _ _ _ _ => rfl) v
  | .ok (.error e) => exact ends_withContext _ (Chain.ends_closing t.chain _ _ _)
  | .error p => exact ends_bind (Chain.ends_drop _) fun _ _ _ => rfl

/-- In this run thread `u`, with `g` attached, goes through the request with `c` attached, and completes the
future with how that ended; it has nothing else to do. -/
def RunsTask (net : Network σ) (r : Requester σ) (inv : Invocation σ) (i : FutureId) (c : Context) (P : Pool σ)
    (u : Nat) (g : Option Context) (es : List (Nat × Deed σ)) (Q : Pool σ) : Prop :=
  ∃ before within after P₁ P₂ q h₁ won, es = before ++ (within ++ after) ∧
    P.Runs before P₁ ∧ Pool.deedsOf u before = attaching c g ∧
    P₁.Through u (r.request net inv) (some c) within q h₁ P₂ ∧
    P₂.Runs after Q ∧ Pool.deedsOf u after = releasing g h₁ ++ (Task.forFuture i c).finishing g q won ∧
    P₂.Completes u i after (Result.shown q) Q

/-- What holds from then on of a future whose request was spawned under `c`. -/
structure SpawnedUnder (net : Network σ) (r : Requester σ) (inv : Invocation σ) (i : FutureId) (c : Context)
    (Q : Pool σ) : Prop where
  /-- The task is the request on a thread with the context attached, which has at the end what it had. -/
  run : ∀ {es es' : List (Nat × Deed σ)} {P₁ Q₁ : Pool σ} {u : Nat} {g g' : Option Context}
    {res : Except Payload Unit}, Q.Runs es P₁ → P₁.Through u (r.runTask net inv (.forFuture i c)) g es' res g' Q₁ →
      g' = g ∧ r.RunsTask net inv i c P₁ u g es' Q₁
  /-- What the task can do is what the request can do on such a thread. -/
  same : ∀ {g g' : Option Context} {L : List (Deed σ)} {res : Except Payload Unit},
    (r.runTask net inv (.forFuture i c)).Goes g L res g' ↔
      ∃ R q h₁ won, (r.request net inv).Goes (some c) R q h₁ ∧ res = q.map (fun _ => ()) ∧ g' = g ∧
        L = attaching c g ++ (R ++ releasing g h₁) ++ (Task.forFuture i c).finishing g q won
  /-- A value is that of the request, a failure is its error, and a request that panics leaves the future
  cancelled. -/
  shows : ∀ q : Result, (∀ v, q.shown = .ok v ↔ q = .ok (.ok v)) ∧
    (∀ e : RpcError, q.shown = .error (.failed e.toFailure) ↔ q = .ok (.error e)) ∧
    (q.shown = .error .cancelled ↔ ∃ p, q = .error p)
  /-- A task that is dropped cancels the future. -/
  dropped : ∀ {es es' : List (Nat × Deed σ)} {P₁ Q₁ : Pool σ} {u : Nat} {g g' : Option Context}
    {res : Except Payload Unit}, Q.Runs es P₁ → P₁.Through u (Task.forFuture i c).drop g es' res g' Q₁ →
      g' = g ∧ P₁.Completes u i es' (.error .cancelled) Q₁
  /-- The task ends if the request does. -/
  ends : ∀ others : Others σ, (r.request net inv).Ends others →
    (r.runTask net inv (.forFuture i c)).Ends others ∧ (Task.forFuture i c).drop.Ends others

theorem through_runTask {u : Nat} {g g' : Option Context} {res : Except Payload Unit} (hi : i < P.world.nextId)
    (htask : P.Through u (r.runTask net inv (.forFuture i c)) g es res g' Q) :
    g' = g ∧ r.RunsTask net inv i c P u g es Q := by
  have : Inhabited σ := ⟨P.world.user⟩
  rw [runTask_eq] at htask
  obtain ⟨request, finish, q, h₂, P₄, rfl, hrequest, hfinish⟩ := htask.caught_bind
  obtain ⟨before, within, released, P₂, P₃, h₁, rfl, hbefore, hattaching, hwithin, hreleased, hreleasing, rfl⟩ :=
    hrequest.withContext
  obtain ⟨won, hfinishing, rfl, rfl⟩ := Task.goes_finish.1 hfinish.goes
  obtain ⟨pre, post, hwrite⟩ := Task.finishing_eq (σ := σ) (i := i) (c := c) g' q won
  have hafter : P₃.Runs (released ++ finish) Q := hreleased.append hfinish.run
  have hi₃ : i < P₃.world.nextId := Nat.lt_of_lt_of_le hi (hbefore.append hwithin.run).nextId_le
  have hdeeds : Pool.deedsOf u (released ++ finish) = releasing g' h₁ ++ (Task.forFuture i c).finishing g' q won := by
    rw [Pool.deedsOf_append, hreleasing, hfinishing]
  refine ⟨rfl, before, within, released ++ finish, P₂, P₃, q, h₁, won, by simp, hbefore, hattaching, hwithin,
    hafter, hdeeds, ?_⟩
  rw [hwrite, ← List.append_assoc] at hdeeds
  exact hafter.completes hi₃ hdeeds

/-- **A spawned request ends as the request does.** The spawn leaves its thread as it was, and takes the
context that is in force. Whatever other threads do from then on, the future of the spawn shows how the
request under that context ended, unless somebody completed it before. -/
theorem spawn_as_request (net : Network σ) (r : Requester σ) (inv : Invocation σ) {res : Except Payload Spawned}
    (hspawn : P.Through t r.spawn h es res h' Q) :
    h' = h ∧ ∃ i c task, res = .ok ⟨i, task⟩ ∧ r.Captures P t h es c ∧ SpawnedUnder net r inv i c Q ∧
      (task = some (.forFuture i c) ∨ task = none ∧ ∃ o, .did (.peek i) (some o) ∈ Pool.deedsOf t es ∧
        ∀ {es' : List (Nat × Deed σ)} {R : Pool σ}, Q.Runs es' R → R.future i = some o) := by
  have : Inhabited σ := ⟨P.world.user⟩
  obtain ⟨rfl, i, c, task, rfl, hi, hcaptures, htask⟩ := through_spawn hspawn
  refine ⟨rfl, i, c, task, rfl, hcaptures, ⟨?_, goes_runTask, ?_, ?_, ?_⟩, ?_⟩
  · intro es₁ es₂ P₁ Q₁ u g g' res hruns htask
    exact through_runTask (Nat.lt_of_lt_of_le hi hruns.nextId_le) htask
  · exact fun q => ⟨fun v => Result.shown_eq_ok, fun e => Result.shown_eq_failed, Result.shown_eq_cancelled⟩
  · intro es₁ es₂ P₁ Q₁ u g g' res hruns hdrop
    obtain ⟨won, hdeeds, -, rfl⟩ := Chain.goes_drop.1 hdrop.goes
    exact ⟨rfl, hdrop.run.completes (L := [_, _]) (Nat.lt_of_lt_of_le hi hruns.nextId_le) hdeeds⟩
  · exact fun others hrequest => ⟨ends_runTask hrequest _, Chain.ends_drop _⟩
  · rcases htask with rfl | ⟨rfl, o, hfound, hcomplete⟩
    · exact .inl rfl
    · exact .inr ⟨rfl, o, hfound, fun hruns => hruns.kept hi hcomplete⟩

/-- A requester that keeps failures as they are. -/
def plain : Requester Unit := ⟨"requester", 0, convertPlainly, []⟩

/-- A network that needs no connecting. -/
def connected : Network Unit := fun _ => ⟨return true, fun _ => return .ok ()⟩

/-- A call whose value is the scope it is made under. -/
def askScope : Invocation Unit := ⟨"getChainInfo", [], (currentScope "").bind fun scope => done (.ok scope)⟩

/-- The context of a caller. -/
def caller : Context := ⟨"client", []⟩

/-- A caller with a context attached spawns a request, and another thread makes it. -/
theorem spawn_as_request_scoped :
    let task := plain.runTask connected askScope (.forFuture 0 caller)
    let P := Pool.start (World.start ()) [⟨Spawned, plain.spawn, some caller⟩, ⟨Unit, task, none⟩]
    ∃ es Q es' Q', P.Through 0 plain.spawn (some caller) es (.ok ⟨0, some (.forFuture 0 caller)⟩) (some caller) Q ∧
      Q.Through 1 task none es' (.ok ()) none Q' ∧ plain.RunsTask connected askScope 0 caller Q 1 none es' Q' ∧
      Q'.future 0 = some (.ok "getChainInfo") := by
  intro task P
  obtain ⟨es, Q, hspawn, halike, hkeeps⟩ :=
    Pool.exists_through (P := P) (t := 0) (p := plain.spawn) rfl (alike_refl (World.start ())) rfl
  have hspawned : World.Alike
      { World.start () with futures := fun j => if j = 0 then none else none, nextId := 1 } Q.world := halike
  have hthread : Q.threads[1]? = some ⟨Unit, none, .fresh task none⟩ := hkeeps.threads 1 _ (by decide) rfl
  obtain ⟨es', Q', htask, hdone, -⟩ := Pool.exists_through hthread hspawned (r := .ok ()) rfl
  obtain ⟨-, i, c', made, hi, hcaptures, hunder, -⟩ := spawn_as_request connected plain askScope hspawn
  cases hi
  rcases hcaptures with hc | ⟨hc, -⟩
  · cases hc
    exact ⟨es, Q, es', Q', hspawn, htask, (hunder.run .refl htask).2, congrFun hdone.futures 0⟩
  · cases hc

end Requester

end ResilientCalls
