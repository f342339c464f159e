import Mathlib.Logic.Relation
import ResilientCalls.Proofs.SpawnedRequests

/-!
# The category of a failure on its way to the caller

On its way a failure may be wrapped, handed on by a future, or converted and reported again by an outer
call, any number of times and in any order (`Hop`). A future changes a failure at most once, since what it
stores passes through every further future as it is (`HandsOn.eq`), and no hop changes the category that the
usual conversion gives (`hops_keep_kind`).
-/

namespace ResilientCalls

open Program
open Future (Call)

variable {σ α : Type} {P Q : Pool σ} {t : Nat} {i : FutureId} {es : List (Nat × Deed σ)} {e e' : Failure}

/-! ## Futures -/

namespace Future

/-- The calls that get a failure out of a future, each with the section that finds it there. -/
inductive Call.Gets (i : FutureId) (e : Failure) : {α : Type} → Call α → Deed σ → α → Prop
  | tryGet : Gets i e .tryGet (.did (.peek i) (some (.error e))) (some (.error e))
  | get : Gets i e .get (.awaited i none (some (.error e))) (.error e)
  | getWithin (bound : Duration) :
      Gets i e (.getWithin bound) (.awaited i (some bound) (some (.error e))) (.error e)

end Future

namespace Pool

/-- In this run a thread completes the future with this failure, and no other write was first. -/
def Fails (P : Pool σ) (i : FutureId) (e : Failure) (es : List (Nat × Deed σ)) (Q : Pool σ) : Prop :=
  ∃ es₁ es₂ es₃ P₁ P₂ t h h', es = es₁ ++ (es₂ ++ es₃) ∧ P.Runs es₁ P₁ ∧
    P₁.Through t (Future.fail i e) h es₂ (.ok true) h' P₂ ∧ P₂.Runs es₃ Q

/-- In this run a reader gets this failure from the future. -/
def Reads (P : Pool σ) (i : FutureId) (e : Failure) (es : List (Nat × Deed σ)) (Q : Pool σ) : Prop :=
  ∃ es₁ es₂ es₃ P₁ P₂ t h h', es = es₁ ++ (es₂ ++ es₃) ∧ P.Runs es₁ P₁ ∧
    (∃ (α : Type) (c : Call α) (d : Deed σ) (answer : α), c.Gets i e d answer ∧ (t, d) ∈ es₂ ∧
      P₁.Through t (c.code i) h es₂ (.ok answer) h' P₂) ∧ P₂.Runs es₃ Q

theorem Step.gets {c : Call α} {d : Deed σ} {answer : α} (hgets : c.Gets i e d answer) (hstep : P.Step t d Q) :
    P.future i = some (.error e) := by
  cases hgets with
  | tryGet => exact hstep.peek.symm
  | get | getWithin => exact hstep.awaited.symm

theorem Fails.future (hfails : P.Fails i e es Q) (hi : i < P.world.nextId) :
    Q.future i = some (.error e.settled) := by
  obtain ⟨es₁, es₂, es₃, P₁, P₂, t, h, h', rfl, hbefore, hfail, hafter⟩ := hfails
  have : Inhabited σ := ⟨P.world.user⟩
  have hi₁ := Nat.lt_of_lt_of_le hi hbefore.nextId_le
  refine hafter.kept (Nat.lt_of_lt_of_le hi₁ hfail.run.nextId_le) ?_
  obtain ⟨won, hdeeds, hwon, -⟩ := goes_settle.1 hfail.goes
  cases hwon
  obtain ⟨before, after, rfl, -, -⟩ := deedsOf_eq_append_cons (L := []) hdeeds
  obtain ⟨R, R', hruns, hstep, hrest⟩ := hfail.run.step_of_mem
  have hiR := Nat.lt_of_lt_of_le hi₁ hruns.nextId_le
  have hpending : R.future i = none := by
    have hwon := hstep.settle
    exact Option.isNone_iff_eq_none.1 hwon.symm
  refine hrest.kept (Nat.lt_of_lt_of_le hiR hstep.nextId_le) ?_
  rw [hstep.future hiR, hpending, Option.none_or]
  simp [Deed.write?, Deed.offer?]

theorem Reads.future (hreads : P.Reads i e es Q) (hi : i < P.world.nextId) : Q.future i = some (.error e) := by
  obtain ⟨es₁, es₂, es₃, P₁, P₂, t, h, h', rfl, hbefore, ⟨α, c, d, answer, hgets, hmem, hread⟩, hafter⟩ := hreads
  have hi₁ := Nat.lt_of_lt_of_le hi hbefore.nextId_le
  refine hafter.kept (Nat.lt_of_lt_of_le hi₁ hread.run.nextId_le) ?_
  obtain ⟨before, after, rfl⟩ := List.append_of_mem hmem
  obtain ⟨R, R', hruns, hstep, hrest⟩ := hread.run.step_of_mem
  have hiR := Nat.lt_of_lt_of_le hi₁ hruns.nextId_le
  exact (Runs.refl.step hstep |>.append hrest).kept hiR (hstep.gets hgets)

end Pool

/-- A future that is failed with `e` gives its readers `e'`. -/
inductive HandsOn (σ : Type) (e e' : Failure) : Prop
  | future {P Q : Pool σ} {es : List (Nat × Deed σ)} {i : FutureId} : i < P.world.nextId → P.Runs es Q →
      P.Fails i e es Q → P.Reads i e' es Q → HandsOn σ e e'

theorem HandsOn.eq (hhands : HandsOn σ e e') : e' = e.settled := by
  obtain ⟨hi, -, hfails, hreads⟩ := hhands
  have hstored := (hfails.future hi).symm.trans (hreads.future hi)
  cases hstored
  rfl

theorem handsOn_settled (e : Failure) : HandsOn Unit e e.settled := by
  let P := Pool.start Pool.onePending [⟨Bool, Future.fail 0 e, none⟩, ⟨Reply, Future.get 0, none⟩]
  have hi : 0 < P.world.nextId := Nat.zero_lt_one
  have hrun := Pool.Runs.refl (P := P)
  have hrun := hrun.step (t := 0) (.does rfl (.act (w := Pool.onePending) rfl) (.did rfl))
  have hrun := hrun.step (t := 0) (.does rfl .notify .notified)
  have hrun := hrun.step (t := 1) (.does rfl .come .came)
  have hrun := hrun.step (t := 1) (.does rfl .find .awaited)
  have hfail := hrun.through_all (t := 0) (p := Future.fail 0 e) (r := .ok true) ⟨none, rfl⟩ ⟨none, rfl⟩
  have hread := hrun.through_all (t := 1) (p := Future.get 0) (r := .ok (.error e.settled)) ⟨none, rfl⟩
    ⟨none, rfl⟩
  refine .future hi hrun
    ⟨[], _, [], _, _, 0, none, none, (List.append_nil _).symm, .refl, hfail, .refl⟩
    ⟨[], _, [], _, _, 1, none, none, (List.append_nil _).symm, .refl,
      ⟨Reply, .get, _, _, .get, ?_, hread⟩, .refl⟩
  exact List.mem_append_right _ (List.mem_singleton.2 rfl)

/-! ## Conversion -/

/-- The usual conversion makes this error of the failure, and nothing else can come of it. -/
def Converts (σ : Type) (e : Failure) (x : RpcError) : Prop :=
  ∀ h, (convertPlainly e : Program σ RpcError).Makes h [] x h

theorem converts_ofFailure (e : Failure) : Converts σ e (.ofFailure e) := fun _ => makes_done _

/-- Converts a failure and reports the error as the failure of a call. -/
def reraise (e : Failure) : Program σ Reply := do
  let x ← convertPlainly e
  return .error x.toFailure

theorem attempt_reraise {outer : Invocation σ} {h h' : Option Context} {L : List (Deed σ)}
    (houter : outer.call = reraise e) (hfails : outer.attempt.Goes h L (.ok (.error e')) h') :
    e' = (RpcError.ofFailure e).toFailure := by
  have hattempt : outer.attempt = done (.error (RpcError.ofFailure e).toFailure) := by
    simp only [Invocation.attempt, houter]
    rfl
  rw [hattempt] at hfails
  obtain ⟨-, hreply, -⟩ := goes_done.1 hfails
  cases hreply
  rfl

/-! ## Hops -/

/-- One hop of a failure. -/
inductive Hop (σ : Type) (e : Failure) : Failure → Prop
  | wrapped : Hop σ e (.failed e)
  | handedOn {e' : Failure} : HandsOn σ e e' → Hop σ e e'
  /-- An outer call converts the failure and fails with what that gives. -/
  | reported {e' : Failure} {outer : Invocation σ} {h h' : Option Context} {L : List (Deed σ)} :
      outer.call = reraise e → outer.attempt.Goes h L (.ok (.error e')) h' → Hop σ e e'

theorem Hop.kind_eq (hhop : Hop σ e e') : e'.kind = e.kind := by
  cases hhop with
  | wrapped => rfl
  | handedOn hhands => rw [hhands.eq, Failure.kind_settled]
  | reported houter hfails => rw [attempt_reraise houter hfails, RpcError.kind_toFailure, RpcError.kind_ofFailure]

theorem kind_of_hops (hhops : Relation.ReflTransGen (Hop σ) e e') : e'.kind = e.kind := by
  induction hhops with
  | refl => rfl
  | tail _ hhop ih => rw [hhop.kind_eq, ih]

theorem settled_of_handsOn (hhands : HandsOn σ e e') : e'.settled = e' := by
  rw [hhands.eq, Failure.settled_settled]

theorem eq_of_futures {e₁ e₂ : Failure} (hfirst : HandsOn σ e e₁)
    (hmore : Relation.ReflTransGen (HandsOn σ) e₁ e₂) : e₂ = e₁ := by
  induction hmore with
  | refl => rfl
  | tail _ hhands ih => rw [hhands.eq, ih, settled_of_handsOn hfirst]

/-- What is left of a failure `e` that has become `e'` on its way. -/
structure SurvivesAs (σ : Type) (e e' : Failure) : Prop where
  /-- The conversion gives both the same category. -/
  kind : ∃ x x', Converts σ e x ∧ Converts σ e' x' ∧ x'.kind = x.kind
  /-- An error that is converted again is the same error, with its message and its cause. -/
  again : ∃ x, Converts σ e' x ∧ Converts σ x.toFailure x
  /-- After one future all further ones hand on and store the failure as it is. -/
  futures : ∀ {e₁ e₂ : Failure}, HandsOn σ e' e₁ → Relation.ReflTransGen (HandsOn σ) e₁ e₂ →
    e₂ = e₁ ∧ ∀ {P Q : Pool σ} {es : List (Nat × Deed σ)} {i : FutureId}, i < P.world.nextId → P.Fails i e₂ es Q →
      Q.future i = some (.error e₁)
  /-- A failure that is not yet such an error becomes the cause of one, which takes its text. -/
  cause : (∀ x : RpcError, e' ≠ x.toFailure) → ∃ x, Converts σ e' x ∧ x.cause = some e' ∧ x.message = e'.message

theorem ofFailure_of_ne {e : Failure} (he : ∀ x : RpcError, e ≠ x.toFailure) :
    RpcError.ofFailure e = .around e.kind e := by
  cases e with
  | rpc kind m => exact absurd rfl (he ⟨kind, m, none⟩)
  | rpcOf kind m cause => exact absurd rfl (he ⟨kind, m, some cause⟩)
  | _ => rfl

/-- **Hops keep the category.** Whatever becomes of a failure by wrapping, by futures and by outer calls that
report it again, the caller sees it under the category that it had at first. -/
theorem hops_keep_kind (hhops : Relation.ReflTransGen (Hop σ) e e') : SurvivesAs σ e e' where
  kind := by
    refine ⟨_, _, converts_ofFailure e, converts_ofFailure e', ?_⟩
    rw [RpcError.kind_ofFailure, RpcError.kind_ofFailure, kind_of_hops hhops]
  again := by
    refine ⟨_, converts_ofFailure e', ?_⟩
    have hagain := converts_ofFailure (σ := σ) (RpcError.ofFailure e').toFailure
    rwa [RpcError.ofFailure_toFailure] at hagain
  futures := fun hfirst hmore => by
    obtain rfl := eq_of_futures hfirst hmore
    refine ⟨rfl, fun hi hfails => ?_⟩
    rw [hfails.future hi, settled_of_handsOn hfirst]
  cause := fun he => by
    refine ⟨_, converts_ofFailure e', ?_⟩
    rw [ofFailure_of_ne he]
    exact ⟨rfl, rfl⟩

/-- A timeout of the wire is wrapped, converted by an outer call, and handed on by two futures. -/
theorem hops_keep_kind_timedOut :
    let e := Failure.io .timedOut
    let e' := Failure.failed (.rpcOf .timeout (Failure.failed e).message (.failed e))
    Relation.ReflTransGen (Hop Unit) e e' ∧ SurvivesAs Unit e e' := by
  intro e e'
  have hwrapped : Hop Unit e (.failed e) := .wrapped
  have houter : (⟨"outer", [], reraise (.failed e)⟩ : Invocation Unit).call = reraise (.failed e) := rfl
  have hreported : Hop Unit (.failed e) (.rpcOf .timeout (Failure.failed e).message (.failed e)) :=
    .reported houter (goes_done.2 ⟨rfl, rfl, rfl⟩ : (done _).Goes none [] _ none)
  have hfirst : Hop Unit (.rpcOf .timeout (Failure.failed e).message (.failed e)) e' := .handedOn (handsOn_settled _)
  have hsecond : Hop Unit e' e' := .handedOn (handsOn_settled _)
  have hhops := ((Relation.ReflTransGen.single hwrapped).tail hreported |>.tail hfirst).tail hsecond
  exact ⟨hhops, hops_keep_kind hhops⟩

end ResilientCalls
