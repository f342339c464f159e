import ResilientCalls.Future.Cell
import ResilientCalls.Proofs.Passages
import ResilientCalls.Proofs.Sleepers

/-!
# The first write wins

Threads call what they like on one future, in any interleaving. Each call has one locked section, and
its answer tells what it found there (`Call.Shows`); what it finds is the first outcome that was
offered (`Pool.first_write_wins`).
-/

namespace ResilientCalls

open Program

variable {σ α β : Type} {P Q R : Pool σ} {t : Nat} {i : FutureId} {es : List (Nat × Deed σ)}

/-- The failures that this library raises itself. -/
inductive Failure.Core : Failure → Prop
  | timeout (after : Duration) : Core (.timeout after)
  | noSuccessHandler : Core .noSuccessHandler
  | configuration (message : String) : Core (.configuration message)
  | invalidArgument (message : String) : Core (.invalidArgument message)
  | connect (endpoint : String) (attempts : Nat) (cause : Failure) : Core (.connect endpoint attempts cause)
  | failed (cause : Failure) : Core (.failed cause)
  | cancelled : Core .cancelled

theorem Failure.isCore_iff {e : Failure} : e.isCore = true ↔ e.Core := by
  constructor
  · intro he
    cases e <;> first | constructor | cases he
  · rintro ⟨⟩ <;> rfl

namespace Future

/-- The calls on a future, with what each one answers. -/
inductive Call : Type → Type
  | succeed (value : String) : Call Bool
  | fail (e : Failure) : Call Bool
  | cancel : Call Bool
  | isDone : Call Bool
  | tryGet : Call (Option Reply)
  | get : Call Reply
  | getWithin (bound : Duration) : Call Reply

namespace Call

/-- The code of a call. -/
def code (i : FutureId) : Call α → Program σ α
  | succeed value => Future.succeed i value
  | fail e => Future.fail i e
  | cancel => Future.cancel i
  | isDone => Future.isDone i
  | tryGet => Future.tryGet i
  | get => Future.get i
  | getWithin bound => Future.getWithin i (some bound)

/-- The locked section that decides the answer. -/
inductive Section (i : FutureId) : {α : Type} → Call α → Deed σ → α → Prop
  | succeed (value : String) (won : Bool) :
      Section i (.succeed value) (.did (.settle i (.ok value)) won) won
  /-- A failure of this library is written as it is given. -/
  | failCore {e : Failure} (won : Bool) : e.Core → Section i (.fail e) (.did (.settle i (.error e)) won) won
  /-- Any other failure is wrapped once. -/
  | failOther {e : Failure} (won : Bool) : ¬ e.Core →
      Section i (.fail e) (.did (.settle i (.error (.failed e))) won) won
  | cancel (won : Bool) : Section i .cancel (.did (.settle i (.error .cancelled)) won) won
  | isDone (found : Option Reply) : Section i .isDone (.did (.peek i) found) found.isSome
  | tryGet (found : Option Reply) : Section i .tryGet (.did (.peek i) found) found
  | get (outcome : Reply) : Section i .get (.awaited i none (some outcome)) outcome
  | inTime (bound : Duration) (outcome : Reply) :
      Section i (.getWithin bound) (.awaited i (some bound) (some outcome)) outcome
  | late (bound : Duration) :
      Section i (.getWithin bound) (.awaited i (some bound) none) (.error (.timeout bound))

/-- What a call answers if its locked section finds this outcome, or none. -/
def Shows (found : Option Reply) : {α : Type} → Call α → α → Prop
  | _, succeed _, won | _, fail _, won | _, cancel, won => won = found.isNone
  | _, isDone, complete => complete = found.isSome
  | _, tryGet, answer => answer = found
  | _, get, outcome => found = some outcome
  | _, getWithin bound, answer => found = some answer ∨ found = none ∧ answer = .error (.timeout bound)

end Call

end Future

open Future (Call)

/-! ## Calls on one thread -/

theorem goes_getWithin {h h' : Option Context} {bound : Option Duration} {L : List (Deed σ)}
    {r : Except Payload Reply} (hgoes : (Future.getWithin i bound).Goes h L r h') :
    ∃ pre seen, L = pre ++ [.awaited i bound seen] ∧ (seen = none → bound ≠ none) ∧
      r = .ok (seen.getD (.error (Future.unfinished bound))) ∧ h' = h := by
  rcases Thread.path_await (Thread.sound_fresh (Future.getWithin i bound) h) hgoes with
    ⟨stage, hend⟩ | ⟨pre, seen, post, rfl, hseen, hrest⟩
  · have hover := congrArg Thread.over? hend
    rw [Thread.over?_rethrow] at hover
    cases stage <;> cases hover
  · cases seen with
    | none =>
      obtain ⟨rfl, rfl, rfl⟩ := goes_done.1 hrest
      exact ⟨pre, none, rfl, hseen, rfl, rfl⟩
    | some outcome =>
      obtain ⟨rfl, rfl, rfl⟩ := goes_done.1 hrest
      exact ⟨pre, some outcome, rfl, hseen, rfl, rfl⟩

theorem section_of_goes [Inhabited σ] {c : Call α} {h h' : Option Context} {L : List (Deed σ)}
    {r : Except Payload α} (hgoes : (c.code i).Goes h L r h') :
    ∃ pre e post answer, L = pre ++ e :: post ∧ c.Section i e answer ∧ r = .ok answer ∧ h' = h := by
  cases c with
  | succeed value =>
    obtain ⟨won, rfl, rfl, rfl⟩ := goes_settle.1 hgoes
    exact ⟨[], _, _, won, rfl, .succeed value won, rfl, rfl⟩
  | fail e =>
    obtain ⟨won, rfl, rfl, rfl⟩ := goes_settle.1 hgoes
    by_cases he : e.Core
    · rw [Failure.settled, if_pos (Failure.isCore_iff.2 he)]
      exact ⟨[], _, _, won, rfl, .failCore won he, rfl, rfl⟩
    · rw [Failure.settled, if_neg (mt Failure.isCore_iff.1 he)]
      exact ⟨[], _, _, won, rfl, .failOther won he, rfl, rfl⟩
  | cancel =>
    obtain ⟨won, rfl, rfl, rfl⟩ := goes_settle.1 hgoes
    exact ⟨[], _, _, won, rfl, .cancel won, rfl, rfl⟩
  | isDone =>
    obtain ⟨found, rfl, rfl, rfl⟩ := goes_isDone hgoes
    exact ⟨[], _, _, _, rfl, .isDone found, rfl, rfl⟩
  | tryGet =>
    obtain ⟨found, rfl, rfl, rfl⟩ := goes_tryGet hgoes
    exact ⟨[], _, _, _, rfl, .tryGet found, rfl, rfl⟩
  | get =>
    obtain ⟨pre, seen, rfl, hseen, rfl, rfl⟩ := goes_getWithin hgoes
    cases seen with
    | none => exact absurd rfl (hseen rfl)
    | some outcome => exact ⟨pre, _, [], outcome, rfl, .get outcome, rfl, rfl⟩
  | getWithin bound =>
    obtain ⟨pre, seen, rfl, -, rfl, rfl⟩ := goes_getWithin hgoes
    cases seen with
    | none => exact ⟨pre, _, [], _, rfl, .late bound, rfl, rfl⟩
    | some outcome => exact ⟨pre, _, [], outcome, rfl, .inTime bound outcome, rfl, rfl⟩

/-! ## Locked sections -/

namespace Pool

theorem Step.settle {outcome : Reply} {won : Bool} (hstep : P.Step t (.did (.settle i outcome) won) Q) :
    won = (P.future i).isNone := by
  cases hstep with
  | does _ _ hallows =>
    cases hallows with
    | did hact =>
      simp only [Action.step] at hact
      show won = (P.shared.world.futures i).isNone
      cases hw : P.shared.world.futures i <;> rw [hw] at hact <;> cases hact <;> rfl

theorem Step.peek {found : Option Reply} (hstep : P.Step t (.did (.peek i) found) Q) :
    found = P.future i := by
  cases hstep with
  | does _ _ hallows =>
    cases hallows with
    | did hact =>
      cases hact
      rfl

theorem Step.awaited {bound : Option Duration} {seen : Option Reply}
    (hstep : P.Step t (.awaited i bound seen) Q) : seen = P.future i := by
  cases hstep with
  | does _ _ hallows =>
    cases hallows
    rfl

theorem Step.shows {c : Call α} {e : Deed σ} {answer : α} (hsection : c.Section i e answer)
    (hstep : P.Step t e Q) : c.Shows (P.future i) answer := by
  cases hsection with
  | succeed | failCore | failOther | cancel => exact hstep.settle
  | isDone => exact congrArg Option.isSome hstep.peek
  | tryGet => exact hstep.peek
  | get => exact hstep.awaited.symm
  | inTime => exact .inl hstep.awaited.symm
  | late => exact .inr ⟨hstep.awaited.symm, rfl⟩

/-! ## All threads -/

theorem Step.offer? {e : Deed σ} (hstep : P.Step t e Q) :
    e.offer? i = none ∨ ∃ outcome, e.offer? i = some (outcome, (P.future i).isNone) := by
  cases e with
  | @did β a b =>
    cases a with
    | settle j outcome =>
      by_cases hj : j = i
      · subst hj
        have hwon := hstep.settle
        exact .inr ⟨outcome, by simp [Deed.offer?, hwon]⟩
      · exact .inl (by simp [Deed.offer?, hj])
    | _ => exact .inl rfl
  | _ => exact .inl rfl

theorem Through.call {es₁ es₂ : List (Nat × Deed σ)} {P₁ P₂ : Pool σ} {c : Call α} {h h' : Option Context}
    {r : Except Payload α} (hpending : P.future i = none) (hi : i < P.world.nextId) (hbefore : P.Runs es₁ P₁)
    (hcall : P₁.Through t (c.code i) h es₂ r h' P₂) :
    ∃ before e after answer, es₂ = before ++ (t, e) :: after ∧ c.Section i e answer ∧
      c.Shows (firstWrite i (es₁ ++ before)) answer ∧ r = .ok answer ∧ h' = h := by
  have : Inhabited σ := ⟨P.world.user⟩
  obtain ⟨pre, e, post, answer, hdeeds, hsection, rfl, rfl⟩ := section_of_goes hcall.goes
  obtain ⟨before, after, rfl, -, -⟩ := deedsOf_eq_append_cons hdeeds
  obtain ⟨Q₁, Q₂, hruns, hstep, -⟩ := hcall.run.step_of_mem
  have hfuture := (hbefore.append hruns).future hi
  rw [hpending, Option.none_or] at hfuture
  exact ⟨before, e, after, answer, rfl, hsection, hfuture ▸ hstep.shows hsection, rfl, rfl⟩

/-- One pending future. -/
def onePending : World Unit := { World.start () with nextId := 1 }

end Pool

end ResilientCalls
