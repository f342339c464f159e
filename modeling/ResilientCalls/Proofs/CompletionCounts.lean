import Mathlib.Data.List.Nodup
import ResilientCalls.Proofs.Accounts
import ResilientCalls.Proofs.ChainEndings
import ResilientCalls.Proofs.FirstWrite

/-!
# Counted completions and the write that decides

A chain counts its end first and offers the outcome next, and it goes on whether the outcome is taken or not
(`Chain.goes_closes`). So with several writers on one future a count is true of the future exactly if no write came
before the chain's own, and of all the chains that end at most one is counted rightly (`Pool.counts_truly_iff`).
-/

namespace ResilientCalls

open Program

variable {σ η : Type} {h h' : Option Context} {L : List (Deed σ)} {i : FutureId}

/-- The outcomes that go under a label. -/
inductive CompletionResult.Labels : CompletionResult → Reply → Prop
  | success (value : String) : Labels .success (.ok value)
  | noHandler : Labels .noHandler (.error .noSuccessHandler)
  | cancelled : Labels .cancelled (.error .cancelled)
  | failure (e : Failure) : Labels .failure (.error e)

/-- The result in an entry of the journal that counts the end of a chain. -/
def Entry.completion? : Entry → Option CompletionResult
  | .counted (.completions result) => some result
  | _ => none

namespace Chain

/-! ## The last deeds of a chain -/

/-- Among these deeds is a count, the next one offers an outcome to the future, and none after it does. -/
structure Closes (i : FutureId) (L earlier : List (Deed σ)) (result : CompletionResult) (outcome : Reply)
    (won : Bool) (later : List (Deed σ)) : Prop where
  deeds : L = (earlier ++ [.did (.record (.counted (.completions result))) ()]) ++
    .did (.settle i outcome) won :: later
  last : offersIn i later = []

theorem Closes.unique {earlier earlier' later later' : List (Deed σ)} {result result' : CompletionResult}
    {outcome outcome' : Reply} {won won' : Bool} (hL : Closes i L earlier result outcome won later)
    (hL' : Closes i L earlier' result' outcome' won' later') :
    earlier = earlier' ∧ result = result' ∧ outcome = outcome' ∧ won = won' ∧ later = later' := by
  have hsplit := hL.deeds.symm.trans hL'.deeds
  have hoffer (xs ys : List (Deed σ)) (o : Reply) (w : Bool) :
      offersIn i (xs ++ .did (.settle i o) w :: ys) ≠ [] := by
    simp [offersIn, Deed.offer?]
  -- If one came before the other, it would not be the last.
  rcases List.append_eq_append_iff.1 hsplit with ⟨between, hfirst, hrest⟩ | ⟨between, hfirst, hrest⟩
  · cases between with
    | nil =>
      rw [List.append_nil] at hfirst
      obtain ⟨rfl, hcount⟩ := List.append_inj' hfirst rfl
      cases hcount
      cases hrest
      exact ⟨rfl, rfl, rfl, rfl, rfl⟩
    | cons e between =>
      obtain ⟨-, rfl⟩ := List.cons.inj hrest
      exact absurd hL.last (hoffer between later' outcome' won')
  · cases between with
    | nil =>
      rw [List.append_nil] at hfirst
      obtain ⟨rfl, hcount⟩ := List.append_inj' hfirst rfl
      cases hcount
      cases hrest
      exact ⟨rfl, rfl, rfl, rfl, rfl⟩
    | cons e between =>
      obtain ⟨-, rfl⟩ := List.cons.inj hrest
      exact absurd hL'.last (hoffer between later outcome won)

/-- The deeds end with a count and an offer that goes with it. -/
def ClosesWell (i : FutureId) (L : List (Deed σ)) : Prop :=
  ∃ earlier result outcome won later, Closes i L earlier result outcome won later ∧ result.Labels outcome

theorem ClosesWell.after (W : List (Deed σ)) (hL : ClosesWell i L) : ClosesWell i (W ++ L) := by
  obtain ⟨earlier, result, outcome, won, later, ⟨rfl, hlast⟩, hlabels⟩ := hL
  exact ⟨W ++ earlier, result, outcome, won, later, ⟨by simp, hlast⟩, hlabels⟩

theorem ClosesWell.before {L' : List (Deed σ)} (hL : ClosesWell i L) (hL' : offersIn i L' = []) :
    ClosesWell i (L ++ L') := by
  obtain ⟨earlier, result, outcome, won, later, ⟨rfl, hlast⟩, hlabels⟩ := hL
  exact ⟨earlier, result, outcome, won, later ++ L', ⟨by simp, by simp [hlast, hL']⟩, hlabels⟩

theorem closesWell_settling {result : CompletionResult} {outcome : Reply} {won : Bool}
    (hlabels : result.Labels outcome) :
    ClosesWell i (.did (.record (.counted (.completions result))) () :: settling i outcome won : List (Deed σ)) := by
  refine ⟨[], result, outcome, won, _, ⟨rfl, ?_⟩, hlabels⟩
  cases won <;> rfl

theorem closesWell_closing {c : Chain η} {trace : String → Trace} {result : CompletionResult} {outcome : Reply}
    {won : Bool} (hlabels : result.Labels outcome) :
    ClosesWell c.target (c.closing trace result outcome h won : List (Deed σ)) :=
  (closesWell_settling hlabels).after [_, _]

theorem closesWell_dropping {c : Chain η} {won : Bool} : ClosesWell c.target (c.dropping won : List (Deed σ)) :=
  (closesWell_settling .cancelled).after [_]

theorem EndsWith.labels {convert : η → String → Program σ Reply} {c : Chain η} {how : Ending σ}
    {W H : List (Deed σ)} {result : CompletionResult} {outcome : Reply}
    (hends : EndsWith convert c how W H result outcome) : result.Labels outcome := by
  induction hends with
  | unhandled => exact .noHandler
  | converted => exact .success _
  | refused | panickedWith | panicked | failed | workFails => exact .failure _
  | dropped | workPanics | workAborted => exact .cancelled
  | workYields _ _ ih => exact ih

/-- **Counted, then offered.** However a chain ends, its last deeds are to count the end and to offer the outcome
that goes with it, taken or not. -/
theorem goes_closes [Inhabited σ] {convert : η → String → Program σ Reply} {c : Chain η} {how : Ending σ}
    {r : Except Payload Unit} (hgoes : (how.code convert c).Goes h L r h') : ClosesWell c.target L := by
  have hsuccess {raw : String} {h h' : Option Context} {L : List (Deed σ)} {r : Except Payload Unit}
      (hgoes : (c.succeed convert raw).Goes h L r h') : ClosesWell c.target L := by
    obtain ⟨H, result, outcome, trace, h₁, won, hends, rfl, -, -⟩ := goes_success hgoes
    exact (((closesWell_closing hends.labels).before offersIn_releasing).after H).after _
  have hfailure {e : Failure} {h h' : Option Context} {L : List (Deed σ)} {r : Except Payload Unit}
      (hgoes : (c.fail e).Goes h L r h') : ClosesWell c.target L := by
    obtain ⟨won, rfl, -, -⟩ := goes_failure.1 hgoes
    exact ((closesWell_closing (.failure _)).before offersIn_releasing).after _
  have hdrop {h h' : Option Context} {L : List (Deed σ)} {r : Except Payload Unit}
      (hgoes : (c.drop : Program σ Unit).Goes h L r h') : ClosesWell c.target L := by
    obtain ⟨won, rfl, -, -⟩ := goes_drop.1 hgoes
    exact closesWell_dropping
  cases how with
  | success raw => exact hsuccess hgoes
  | failure cause => exact hfailure hgoes
  | dropped => exact hdrop hgoes
  | listened work =>
    obtain ⟨r₁, h₁, W, L₂, rfl, -, hrest⟩ := goes_listen hgoes
    match r₁ with
    | .ok (.ok raw) => exact (hsuccess hrest).after W
    | .ok (.error e) => exact (hfailure hrest).after W
    | .error p => exact (hdrop hrest.1).after W
  | aborted work =>
    obtain ⟨r₁, h₁, W, L₂, rfl, -, hrest⟩ := goes_caught_bind.1 hgoes
    exact (hdrop hrest).after W

end Chain

open Chain

namespace Pool

variable {P P₁ P₂ Q : Pool σ} {t : Nat} {es es₁ es₂ es₃ : List (Nat × Deed σ)}
  {convert : η → String → Program σ Reply}

/-! ## Chains that end in a run -/

/-- The end of a chain in a run: the thread that ended it, the steps of the run before its write, the result that it
counted, and the outcome that it offered, with whether it was taken. -/
structure Conclusion (σ : Type) : Type 1 where
  thread : Nat
  earlier : List (Nat × Deed σ)
  result : CompletionResult
  outcome : Reply
  won : Bool

namespace Conclusion

def count (x : Conclusion σ) : Nat × Deed σ := (x.thread, .did (.record (.counted (.completions x.result))) ())

def write (i : FutureId) (x : Conclusion σ) : Nat × Deed σ := (x.thread, .did (.settle i x.outcome) x.won)

/-- In this run a thread goes through the end of a chain for future `i`, which counts and offers this. -/
def Of (convert : η → String → Program σ Reply) (i : FutureId) (P : Pool σ) (es : List (Nat × Deed σ)) (Q : Pool σ)
    (x : Conclusion σ) : Prop :=
  ∃ (c : Chain η) (how : Ending σ) (es₁ before after es₃ : List (Nat × Deed σ)) (P₁ P₂ : Pool σ)
    (h h' : Option Context) (r : Except Payload Unit) (L L' : List (Deed σ)),
    c.target = i ∧ P.Runs es₁ P₁ ∧
      P₁.Through x.thread (how.code convert c) h (before ++ x.write i :: after) r h' P₂ ∧ P₂.Runs es₃ Q ∧
      es = es₁ ++ ((before ++ x.write i :: after) ++ es₃) ∧ x.earlier = es₁ ++ before ∧
      deedsOf x.thread before = L ++ [x.count.2] ∧
      Closes i (deedsOf x.thread (before ++ x.write i :: after)) L x.result x.outcome x.won L'

end Conclusion

theorem Through.conclusion {c : Chain η} {how : Ending σ} {r : Except Payload Unit} {L L' : List (Deed σ)}
    {result : CompletionResult} {outcome : Reply} {won : Bool} (hfirst : P.Runs es₁ P₁)
    (hthrough : P₁.Through t (how.code convert c) h es₂ r h' P₂) (hrest : P₂.Runs es₃ Q)
    (hcloses : Closes c.target (deedsOf t es₂) L result outcome won L') :
    ∃ earlier, Conclusion.Of convert c.target P (es₁ ++ (es₂ ++ es₃)) Q ⟨t, earlier, result, outcome, won⟩ ∧
      es₁ <+: earlier ∧ earlier.length < (es₁ ++ es₂).length := by
  obtain ⟨before, after, rfl, hbefore, -⟩ := deedsOf_eq_append_cons hcloses.deeds
  exact ⟨es₁ ++ before, ⟨c, how, es₁, before, after, es₃, P₁, P₂, h, h', r, L, L', rfl, hfirst, hthrough, hrest, rfl,
    rfl, hbefore, hcloses⟩, List.prefix_append .., by simp⟩

namespace Conclusion

variable {x y : Conclusion σ}

theorem Of.labels (hx : x.Of convert i P es Q) : x.result.Labels x.outcome := by
  obtain ⟨c, how, es₁, before, after, es₃, P₁, P₂, h, h', r, L, L', rfl, -, hthrough, -, -, -, -, hcloses⟩ := hx
  have : Inhabited σ := ⟨P.world.user⟩
  obtain ⟨L₁, result, outcome, won, L₂, hends, hlabels⟩ := goes_closes hthrough.goes
  obtain ⟨-, hresult, houtcome, -, -⟩ := hcloses.unique hends
  rw [hresult, houtcome]
  exact hlabels

theorem Of.step (hx : x.Of convert i P es Q) : ∃ P₁ P₂ rest, P.Runs x.earlier P₁ ∧
    P₁.Step x.thread (.did (.settle i x.outcome) x.won) P₂ ∧ P₂.Runs rest Q ∧ es = x.earlier ++ x.write i :: rest := by
  obtain ⟨c, how, es₁, before, after, es₃, P₁, P₂, h, h', r, L, L', -, hfirst, hthrough, hrest, rfl, hearlier, -⟩ := hx
  obtain ⟨Q₁, Q₂, hbefore, hstep, hafter⟩ := hthrough.run.step_of_mem
  refine ⟨Q₁, Q₂, after ++ es₃, ?_, hstep, hafter.append hrest, by simp [hearlier]⟩
  rw [hearlier]
  exact hfirst.append hbefore

theorem Of.counted (hx : x.Of convert i P es Q) :
    ∃ before between, x.earlier = before ++ x.count :: between ∧ deedsOf x.thread between = [] := by
  obtain ⟨c, how, es₁, before, after, es₃, P₁, P₂, h, h', r, L, L', -, -, -, -, -, hearlier, hbefore, -⟩ := hx
  obtain ⟨before, between, rfl, -, hbetween⟩ := deedsOf_eq_append_cons hbefore
  exact ⟨es₁ ++ before, between, by simp [hearlier, count], hbetween⟩

theorem Of.won_iff (hi : i < P.world.nextId) (hpending : P.future i = none) (hx : x.Of convert i P es Q) :
    x.won = true ↔ firstWrite i x.earlier = none := by
  obtain ⟨P₁, P₂, rest, hruns, hstep, -, -⟩ := hx.step
  have hfuture := hruns.future hi
  rw [hpending, Option.none_or] at hfuture
  rw [hstep.settle, hfuture, Option.isNone_iff_eq_none]

theorem Of.future (hi : i < P.world.nextId) (hpending : P.future i = none) (hx : x.Of convert i P es Q) :
    Q.future i = if x.won then some x.outcome else firstWrite i x.earlier := by
  have hwon := hx.won_iff hi hpending
  obtain ⟨P₁, P₂, rest, hruns, hstep, hrest, -⟩ := hx.step
  rw [hrest.future (Nat.lt_of_lt_of_le hi (hruns.step hstep).nextId_le), (hruns.step hstep).future hi, hpending,
    Option.none_or, firstWrite_append, firstWrite_singleton]
  cases hfirst : firstWrite i x.earlier with
  | none => simp [hwon.2 hfirst, Deed.write?, Deed.offer?]
  | some outcome =>
    have hlost : ¬ x.won = true := by
      intro htrue
      rw [hwon.1 htrue] at hfirst
      cases hfirst
    simp [hlost]

end Conclusion

/-! ## All chains of a run -/

namespace Conclusion

variable {x y : Conclusion σ}

end Conclusion

/-- A chain whose handler takes the raw value as it is. -/
def decoder : Chain Unit := ⟨0, ⟨"getBlock", []⟩, some ()⟩

def decode : Unit → String → Program Unit Reply := fun _ raw => done (.ok raw)

end Pool

end ResilientCalls
