import ResilientCalls.Attachment
import Mathlib.Data.List.Induction

/-!
# Guards released in any order

A guard is a plain value, so a thread may release its guards in an order of its own. `perform` runs
any sequence of attaches and releases; `apply` says what one step does to what is attached and to
what the guards remember, and `holder_perform` joins the two.

A release puts back what was attached when its guard was obtained, so one looks at the last release,
then at what stood before the attach that gave its guard, and so on back. This ends at the beginning
exactly if the sequence falls into stretches, each from an attach to the release of its own guard
(`Stretches`), as it does if the newest guard is always released first. Any other order leaves the
thread with a context whose guard was released before (`content_cases`).
-/

namespace ResilientCalls

open Program

variable {σ : Type} {others : Others σ} {limit : Moment}

/-- What a thread does with contexts and guards. Guards are numbered from zero in the order in which
the thread obtains them. -/
inductive GuardStep
  /-- Attaches a context and keeps the guard. -/
  | attach (c : Context)
  /-- Releases the guard of that number. -/
  | release (k : Nat)
deriving DecidableEq

namespace GuardStep

/-- Performs the steps in order, with the guards that were obtained before. -/
def perform : List GuardStep → List Guard → Program σ Unit
  | [], _ => pure ()
  | attach c :: steps, guards => do
      let guard ← ResilientCalls.attach c
      perform steps (guards ++ [guard])
  | release k :: steps, guards => do
      if let some guard := guards[k]? then guard.release
      perform steps guards

/-- Whether a guard is obtained. -/
def isAttach : GuardStep → Bool
  | attach _ => true
  | release _ => false

/-- The number of the guard that is released, if one is. -/
def released? : GuardStep → Option Nat
  | attach _ => none
  | release k => some k

/-- How many guards the steps obtain. -/
def obtained (steps : List GuardStep) : Nat := steps.countP isAttach

/-- The guards that the steps release, in order. -/
def released (steps : List GuardStep) : List Nat := steps.filterMap released?

/-- No guard is released before it is obtained; `n` guards were obtained before. -/
def ReleasesObtained : Nat → List GuardStep → Prop
  | _, [] => True
  | n, attach _ :: steps => ReleasesObtained (n + 1) steps
  | n, release k :: steps => k < n ∧ ReleasesObtained n steps

/-- Every guard that the steps obtain is released once, after it was obtained. -/
structure EachReleasedOnce (steps : List GuardStep) : Prop where
  /-- The releases are those of all guards obtained, each once. -/
  once : (released steps).Perm (List.range (obtained steps))
  /-- No guard is released before it is obtained. -/
  inOrder : ReleasesObtained 0 steps

/-- The steps fall into stretches, each from an attach to the release of the guard that it gave. -/
inductive Stretches : List GuardStep → Prop
  | nil : Stretches []
  | stretch {before : List GuardStep} (c : Context) (inside : List GuardStep) :
      Stretches before → Stretches (before ++ attach c :: inside ++ [release (obtained before)])

/-- Each release is of the newest guard that is still held, and none is held at the end. `held` are
the guards held before, the newest first, and `n` is the number of guards obtained before. -/
def NewestFirst : List Nat → Nat → List GuardStep → Prop
  | held, _, [] => held = []
  | held, n, attach _ :: steps => NewestFirst (n :: held) (n + 1) steps
  | [], _, release _ :: _ => False
  | newest :: held, n, release k :: steps => k = newest ∧ NewestFirst held n steps

/-! ## What the steps do to the thread -/

/-- One step: what is attached, and what each guard remembers. -/
def apply : Option Context × List (Option Context) → GuardStep → Option Context × List (Option Context)
  | (x, remembered), attach c => (some c, remembered ++ [x])
  | (x, remembered), release k => ((remembered[k]?).getD x, remembered)

/-- What is attached after the steps, and what their guards remember. -/
def trail (steps : List GuardStep) (h : Option Context) : Option Context × List (Option Context) :=
  steps.foldl apply (h, [])

/-- What is attached after the steps. -/
def content (steps : List GuardStep) (h : Option Context) : Option Context := (trail steps h).1

@[simp] theorem obtained_nil : obtained [] = 0 := rfl

@[simp] theorem obtained_attach (c : Context) (steps : List GuardStep) :
    obtained (attach c :: steps) = obtained steps + 1 :=
  List.countP_cons_of_pos rfl

@[simp] theorem obtained_release (k : Nat) (steps : List GuardStep) :
    obtained (release k :: steps) = obtained steps :=
  List.countP_cons_of_neg (by simp [isAttach])

@[simp] theorem obtained_append (before after : List GuardStep) :
    obtained (before ++ after) = obtained before + obtained after :=
  List.countP_append

theorem holder_perform (steps : List GuardStep) (guards : List Guard) (h : Option Context) (w : World σ) :
    ((perform steps guards).run others limit h w).exit = .value () ∧
      ((perform steps guards).run others limit h w).holder =
        (steps.foldl apply (h, guards.map Guard.previous)).1 := by
  induction steps generalizing guards h w with
  | nil => exact ⟨rfl, rfl⟩
  | cons step steps ih =>
    cases step with
    | attach c =>
      have hstep := ih (guards ++ [⟨h⟩]) (some c)
        { w with journal := w.journal ++ [.traced (.attached c.scope)] }
      rw [List.map_append] at hstep
      exact hstep
    | release k =>
      rw [List.foldl_cons, apply, List.getElem?_map]
      simp only [perform]
      cases hk : guards[k]? with
      | none => exact ih guards h w
      | some guard =>
        simp only [bind_eq, run_bind, Final.andThen, exit_release, holder_release, Option.map_some,
          Option.getD_some]
        exact ih guards guard.previous _

theorem trail_append (before after : List GuardStep) (h : Option Context) :
    trail (before ++ after) h = after.foldl apply (trail before h) :=
  List.foldl_append ..

theorem length_foldl_apply (steps : List GuardStep) (x : Option Context)
    (remembered : List (Option Context)) :
    (steps.foldl apply (x, remembered)).2.length = remembered.length + obtained steps := by
  induction steps generalizing x remembered with
  | nil => rfl
  | cons step steps ih =>
    cases step with
    | attach c =>
      rw [List.foldl_cons, apply, ih, List.length_append, List.length_singleton, obtained_attach]
      omega
    | release k => rw [List.foldl_cons, apply, ih, obtained_release]

theorem prefix_foldl_apply (steps : List GuardStep) (x : Option Context)
    (remembered : List (Option Context)) :
    remembered <+: (steps.foldl apply (x, remembered)).2 := by
  induction steps generalizing x remembered with
  | nil => exact List.prefix_refl _
  | cons step steps ih =>
    cases step with
    | attach c => exact (List.prefix_append _ _).trans (ih _ _)
    | release k => exact ih _ _

theorem remembered_attach (before inside : List GuardStep) (c : Context) (h : Option Context) :
    (trail (before ++ attach c :: inside) h).2[obtained before]? = some (content before h) := by
  have hlength : (trail before h).2.length = obtained before := by
    rw [trail, length_foldl_apply, List.length_nil, Nat.zero_add]
  rw [trail_append, List.foldl_cons, apply]
  obtain ⟨more, hmore⟩ := prefix_foldl_apply inside (some c) ((trail before h).2 ++ [(trail before h).1])
  rw [← hmore, ← hlength]
  simp [content]

theorem content_stretch (before inside : List GuardStep) (c : Context) (h : Option Context) :
    content (before ++ attach c :: inside ++ [release (obtained before)]) h = content before h := by
  have hremembered := remembered_attach before inside c h
  rw [content, trail_append, List.foldl_cons, List.foldl_nil]
  simp only [apply, hremembered, Option.getD_some]

/-! ## Where the last release leads back to -/

theorem releasesObtained_append (n : Nat) (before after : List GuardStep) :
    ReleasesObtained n (before ++ after) ↔
      ReleasesObtained n before ∧ ReleasesObtained (n + obtained before) after := by
  induction before generalizing n with
  | nil => simp [ReleasesObtained]
  | cons step before ih =>
    cases step with
    | attach c =>
      rw [List.cons_append, ReleasesObtained, ReleasesObtained, ih, obtained_attach,
        Nat.add_assoc, Nat.add_comm 1]
    | release k => rw [List.cons_append, ReleasesObtained, ReleasesObtained, ih, obtained_release, and_assoc]

theorem lt_of_releasesObtained {n k : Nat} {steps : List GuardStep} (hs : ReleasesObtained n steps)
    (hk : release k ∈ steps) : k < n + obtained steps := by
  obtain ⟨before, after, rfl⟩ := List.append_of_mem hk
  have hafter := ((releasesObtained_append n before _).1 hs).2
  have hlt : k < n + obtained before := hafter.1
  rw [obtained_append]
  omega

theorem exists_attach {k : Nat} {steps : List GuardStep} (hk : k < obtained steps) :
    ∃ before c inside, steps = before ++ attach c :: inside ∧ obtained before = k := by
  induction steps generalizing k with
  | nil => exact absurd hk (Nat.not_lt_zero k)
  | cons step steps ih =>
    cases step with
    | attach c =>
      cases k with
      | zero => exact ⟨[], c, steps, rfl, rfl⟩
      | succ k =>
        rw [obtained_attach] at hk
        obtain ⟨before, c', inside, rfl, hbefore⟩ := ih (Nat.lt_of_succ_lt_succ hk)
        exact ⟨attach c :: before, c', inside, rfl, by rw [obtained_attach, hbefore]⟩
    | release j =>
      rw [obtained_release] at hk
      obtain ⟨before, c', inside, rfl, hbefore⟩ := ih hk
      exact ⟨release j :: before, c', inside, rfl, by rw [obtained_release, hbefore]⟩

theorem eq_of_attach_eq {before before' inside inside' : List GuardStep} {c c' : Context}
    (h : before ++ attach c :: inside = before' ++ attach c' :: inside')
    (hn : obtained before = obtained before') : before = before' := by
  induction before generalizing before' with
  | nil =>
    cases before' with
    | nil => rfl
    | cons step before' =>
      obtain ⟨rfl, -⟩ := List.cons.inj h
      simp at hn
  | cons step before ih =>
    cases before' with
    | nil =>
      obtain ⟨rfl, -⟩ := List.cons.inj h
      simp at hn
    | cons step' before' =>
      obtain ⟨rfl, htail⟩ := List.cons.inj h
      rw [ih htail (by cases step <;> simpa using hn)]

theorem stretches_release_iff {before inside : List GuardStep} {c : Context} :
    Stretches (before ++ attach c :: inside ++ [release (obtained before)]) ↔ Stretches before := by
  constructor
  · intro h
    generalize hsteps : before ++ attach c :: inside ++ [release (obtained before)] = steps at h
    cases h with
    | nil => simp at hsteps
    | @stretch before' c' inside' hbefore' =>
      obtain ⟨hinit, hlast⟩ := List.append_inj' hsteps rfl
      have hn : obtained before = obtained before' := by simpa using hlast
      rw [eq_of_attach_eq hinit hn]
      exact hbefore'
  · exact Stretches.stretch c inside

theorem content_of_stretches {steps : List GuardStep} (hs : Stretches steps) (h : Option Context) :
    content steps h = h := by
  induction hs with
  | nil => rfl
  | stretch c inside _ ih => rw [content_stretch, ih]

/-- Steps that do not fall into stretches leave one of their own contexts attached. -/
theorem content_of_not_stretches {steps : List GuardStep} (hs : ReleasesObtained 0 steps)
    (hn : ¬ Stretches steps) (h : Option Context) :
    ∃ before c after, steps = before ++ attach c :: after ∧ content steps h = some c := by
  -- The last step decides; a release leads back to the steps before its attach, which are fewer.
  induction hlen : steps.length using Nat.strongRecOn generalizing steps with
  | ind n ih =>
    rcases List.eq_nil_or_concat steps with rfl | ⟨init, last, rfl⟩
    · exact absurd Stretches.nil hn
    · rw [List.concat_eq_append] at *
      cases last with
      | attach c => exact ⟨init, c, [], rfl, by rw [content, trail_append]; rfl⟩
      | release k =>
        have hinit := (releasesObtained_append 0 init _).1 hs
        have hk : k < obtained init := by simpa using hinit.2.1
        obtain ⟨before, c, inside, rfl, rfl⟩ := exists_attach hk
        have hbefore := ((releasesObtained_append 0 before _).1 hinit.1).1
        obtain ⟨front, c', back, rfl, hcontent⟩ :=
          ih before.length (by simp at hlen; omega) hbefore (fun h => hn (stretches_release_iff.2 h)) rfl
        refine ⟨front, c',
          back ++ attach c :: inside ++ [release (obtained (front ++ attach c' :: back))], ?_, ?_⟩
        · simp
        · rw [content_stretch, hcontent]

/-- Releasing the guards that are held, the newest first, leads back to `h`; `x` is attached now. -/
def LeadsBack (h : Option Context) (remembered : List (Option Context)) : List Nat → Option Context → Prop
  | [], x => x = h
  | k :: held, _ => ∃ y, remembered[k]? = some y ∧ LeadsBack h remembered held y

theorem LeadsBack.append {h x : Option Context} {remembered more : List (Option Context)} {held : List Nat}
    (hb : LeadsBack h remembered held x) : LeadsBack h (remembered ++ more) held x := by
  induction held generalizing x with
  | nil => exact hb
  | cons k held ih =>
    obtain ⟨y, hy, hb⟩ := hb
    exact ⟨y, by rw [List.getElem?_append_left (List.getElem?_eq_some_iff.1 hy).1, hy], ih hb⟩

theorem foldl_apply_of_newestFirst {steps : List GuardStep} {held : List Nat} {h x : Option Context}
    {remembered : List (Option Context)} (hs : NewestFirst held remembered.length steps)
    (hb : LeadsBack h remembered held x) : (steps.foldl apply (x, remembered)).1 = h := by
  induction steps generalizing held x remembered with
  | nil =>
    cases hs
    exact hb
  | cons step steps ih =>
    cases step with
    | attach c =>
      have hheld : NewestFirst (remembered.length :: held) (remembered ++ [x]).length steps := by
        simpa [NewestFirst] using hs
      exact ih hheld ⟨x, by simp, hb.append⟩
    | release k =>
      cases held with
      | nil => exact absurd hs id
      | cons newest held =>
        obtain ⟨rfl, hs⟩ := hs
        obtain ⟨y, hy, hb⟩ := hb
        rw [List.foldl_cons, apply, hy, Option.getD_some]
        exact ih hs hb

theorem NewestFirst.stretches {steps : List GuardStep} (hs : ReleasesObtained 0 steps)
    (hn : NewestFirst [] 0 steps) : Stretches steps := by
  by_contra hnot
  obtain ⟨-, c, -, -, hcontent⟩ := content_of_not_stretches hs hnot none
  have hnone : content steps none = none := foldl_apply_of_newestFirst (h := none) hn rfl
  rw [hnone] at hcontent
  cases hcontent

/-! ## Every guard released once -/

theorem EachReleasedOnce.release_mem {before after : List GuardStep} {c : Context}
    (hs : EachReleasedOnce (before ++ attach c :: after)) : release (obtained before) ∈ after := by
  have hmem : obtained before ∈ released (before ++ attach c :: after) := by
    rw [hs.once.mem_iff, List.mem_range, obtained_append, obtained_attach]
    omega
  obtain ⟨step, hstep, hk⟩ := List.mem_filterMap.1 hmem
  cases step with
  | attach c' => simp [released?] at hk
  | release k =>
    obtain rfl : k = obtained before := by simpa [released?] using hk
    rcases List.mem_append.1 hstep with hstep | hstep
    · have hbefore := ((releasesObtained_append 0 before _).1 hs.inOrder).1
      have hlt := lt_of_releasesObtained hbefore hstep
      omega
    · exact (List.mem_cons.1 hstep).resolve_left (by simp)

/-- **Guards released in any order.** The steps end, and the thread has what it had before them if
they fall into stretches. If they do not, it has a context that one of them attached, although the
guard of that context was released. Releasing the newest guard first keeps to stretches. -/
theorem holder_after_guards {steps : List GuardStep} (hs : EachReleasedOnce steps) (h : Option Context)
    (w : World σ) :
    ((perform steps []).run others limit h w).exit = .value () ∧
      (Stretches steps → ((perform steps []).run others limit h w).holder = h) ∧
      (¬ Stretches steps → ∃ before c after, steps = before ++ attach c :: after ∧
        release (obtained before) ∈ after ∧
          ((perform steps []).run others limit h w).holder = some c) ∧
      (NewestFirst [] 0 steps → Stretches steps) := by
  have hexit : ((perform steps []).run others limit h w).exit = .value () :=
    (holder_perform steps [] h w).1
  have hcontent : ((perform steps []).run others limit h w).holder = content steps h :=
    (holder_perform steps [] h w).2
  refine ⟨hexit, fun hstretches => ?_, fun hnot => ?_, NewestFirst.stretches hs.inOrder⟩
  · rw [hcontent, content_of_stretches hstretches]
  · obtain ⟨before, c, after, rfl, hc⟩ := content_of_not_stretches hs.inOrder hnot h
    exact ⟨before, c, after, rfl, hs.release_mem, hcontent.trans hc⟩

/-- Three guards, of which the outermost is released last and the innermost is not released first. -/
theorem holder_after_crossed_guards :
    EachReleasedOnce [attach ⟨"outer", []⟩, attach ⟨"middle", []⟩, attach ⟨"inner", []⟩, release 1,
        release 2, release 0] ∧
      ((perform [attach ⟨"outer", []⟩, attach ⟨"middle", []⟩, attach ⟨"inner", []⟩, release 1,
        release 2, release 0] []).run nobody none (some ⟨"client", []⟩) (World.start ())).holder =
          some ⟨"client", []⟩ := by
  have hs : EachReleasedOnce [attach ⟨"outer", []⟩, attach ⟨"middle", []⟩, attach ⟨"inner", []⟩,
      release 1, release 2, release 0] :=
    ⟨by decide, by decide, by decide, by decide, trivial⟩
  refine ⟨hs, (holder_after_guards hs _ _).2.1 ?_⟩
  exact Stretches.stretch ⟨"outer", []⟩
    [attach ⟨"middle", []⟩, attach ⟨"inner", []⟩, release 1, release 2] Stretches.nil

/-- Releasing the outer of two guards first leaves the outer context attached. -/
theorem holder_after_oldest_first :
    ¬ ∀ (steps : List GuardStep) (h : Option Context) (w : World Unit), EachReleasedOnce steps →
      ((perform steps []).run nobody none h w).holder = h := by
  intro hall
  have h := hall [attach ⟨"outer", []⟩, attach ⟨"inner", []⟩, release 0, release 1] none (World.start ())
    ⟨by decide, by decide, by decide, trivial⟩
  have hleft : some ⟨"outer", []⟩ = (none : Option Context) := h
  cases hleft

end GuardStep

end ResilientCalls
