import ResilientCalls.Future.Chain
import ResilientCalls.Proofs.RunInPool
import ResilientCalls.Proofs.Sleepers

/-!
# A chain ends once

Whichever way a chain ends, it counts one completion and offers its future one outcome, and its handler
runs at most once, under the context of the chain (`goes_ending`). So afterwards the future is complete,
and if nobody else wrote to it, it has the outcome that was counted (`Chain.ends_once`). Making a chain
counts and writes nothing.
-/

namespace ResilientCalls

open Program

variable {σ η : Type} {h h' : Option Context} {L : List (Deed σ)}

/-- The result under which a chain counts its end. -/
def Deed.completion? : Deed σ → Option CompletionResult
  | .did (.record (.counted (.completions result))) _ => some result
  | _ => none

/-- The ends of chains that were counted. -/
def completionsIn (L : List (Deed σ)) : List CompletionResult := L.filterMap Deed.completion?

namespace Chain

/-! ## Making a chain -/

/-- The ways to make a chain. -/
inductive Creation
  | make (context : Context)
  /-- With the context attached to the thread. -/
  | capture

def Creation.code (target : FutureId) : Creation → Program σ (Except Failure (Chain η))
  | make context => Chain.make target context
  | capture => Chain.capture target

/-- The context for a chain that is made on a thread with `h` attached. -/
def Creation.context? (h : Option Context) : Creation → Option Context
  | make context => some context
  | capture => h

theorem goes_make {target : FutureId} {context : Context} {r : Except Payload (Except Failure (Chain η))}
    (hgoes : (Chain.make target context).Goes h L r h') :
    ∃ found, L = [.did (.peek target) found] ∧ h' = h ∧
      r = .ok (match found with
        | none => .ok ⟨target, context, none⟩
        | some _ => .error (.invalidArgument "target future is already complete")) := by
  rcases goes_bind.1 hgoes with ⟨complete, h₁, L₁, L₂, rfl, hdone, hrest⟩ | ⟨e, -, hdone⟩
  · obtain ⟨found, rfl, hcomplete, rfl⟩ := goes_isDone hdone
    cases hcomplete
    cases found with
    | none =>
      obtain ⟨rfl, rfl, rfl⟩ := goes_done.1 hrest
      exact ⟨none, rfl, rfl, rfl⟩
    | some outcome =>
      obtain ⟨rfl, rfl, rfl⟩ := goes_done.1 hrest
      exact ⟨some outcome, rfl, rfl, rfl⟩
  · obtain ⟨found, -, hcomplete, -⟩ := goes_isDone hdone
    cases hcomplete

theorem goes_creation [Inhabited σ] {target : FutureId} {creation : Creation}
    {r : Except Payload (Except Failure (Chain η))} (hgoes : (creation.code target).Goes h L r h') :
    h' = h ∧ offersIn target L = [] ∧ completionsIn L = [] ∧
      ((∃ context, creation.context? h = some context ∧ .did (.peek target) none ∈ L ∧
          r = .ok (.ok ⟨target, context, none⟩)) ∨ ∃ e, r = .ok (.error e)) := by
  cases creation with
  | make context =>
    obtain ⟨found, rfl, rfl, rfl⟩ := goes_make hgoes
    refine ⟨rfl, rfl, rfl, ?_⟩
    cases found with
    | none => exact .inl ⟨context, rfl, List.mem_singleton_self _, rfl⟩
    | some outcome => exact .inr ⟨_, rfl⟩
  | capture =>
    obtain ⟨L₂, rfl, hrest⟩ := makes_current.bind.1 hgoes
    cases h with
    | none =>
      obtain ⟨rfl, rfl, rfl⟩ := goes_done.1 hrest
      exact ⟨rfl, rfl, rfl, .inr ⟨_, rfl⟩⟩
    | some context =>
      obtain ⟨found, rfl, rfl, rfl⟩ := goes_make hrest
      refine ⟨rfl, rfl, rfl, ?_⟩
      cases found with
      | none => exact .inl ⟨context, rfl, by simp, rfl⟩
      | some outcome => exact .inr ⟨_, rfl⟩

/-! ## Ending a chain -/

/-- How a chain ends. -/
inductive Ending (σ : Type) : Type 1
  | success (raw : String)
  | failure (cause : Failure)
  | dropped
  /-- With asynchronous work that comes to an end. -/
  | listened (work : Program σ Reply)
  /-- With asynchronous work that is given up when so much of it is done. -/
  | aborted (work : Program σ Unit)

def Ending.code (convert : η → String → Program σ Reply) (c : Chain η) : Ending σ → Program σ Unit
  | success raw => c.succeed convert raw
  | failure cause => c.fail cause
  | dropped => c.drop
  | listened work => c.listen convert work
  | aborted work => work.caught.bind fun _ => c.drop

/-- What there is at the end: the deeds of the asynchronous work and of the handler, the result that is
counted, and the outcome for the future. -/
inductive EndsWith (convert : η → String → Program σ Reply) (c : Chain η) :
    Ending σ → List (Deed σ) → List (Deed σ) → CompletionResult → Reply → Prop
  | unhandled {raw : String} : c.handler = none →
      EndsWith convert c (.success raw) [] [] .noHandler (.error .noSuccessHandler)
  | converted {raw value : String} {handler : η} {H : List (Deed σ)} {h₁ : Option Context} :
      c.handler = some handler →
      (convert handler raw).Goes (some c.context) H (.ok (.ok value)) h₁ →
      EndsWith convert c (.success raw) [] H .success (.ok value)
  | refused {raw : String} {handler : η} {e : Failure} {H : List (Deed σ)} {h₁ : Option Context} :
      c.handler = some handler →
      (convert handler raw).Goes (some c.context) H (.ok (.error e)) h₁ →
      EndsWith convert c (.success raw) [] H .failure (.error e.settled)
  | panickedWith {raw detail : String} {handler : η} {H : List (Deed σ)} {h₁ : Option Context} :
      c.handler = some handler →
      (convert handler raw).Goes (some c.context) H (.error (.text detail)) h₁ →
      EndsWith convert c (.success raw) [] H .failure
        (.error (.failed (.text ("success handler panicked: " ++ detail))))
  | panicked {raw : String} {handler : η} {H : List (Deed σ)} {h₁ : Option Context} :
      c.handler = some handler →
      (convert handler raw).Goes (some c.context) H (.error .other) h₁ →
      EndsWith convert c (.success raw) [] H .failure (.error (.failed (.text "success handler panicked")))
  | failed {cause : Failure} : EndsWith convert c (.failure cause) [] [] .failure (.error cause.settled)
  | dropped : EndsWith convert c .dropped [] [] .cancelled (.error .cancelled)
  | workYields {work : Program σ Reply} {raw : String} {W H : List (Deed σ)} {result : CompletionResult}
      {outcome : Reply} {h₁ h₂ : Option Context} : work.Goes h₁ W (.ok (.ok raw)) h₂ →
      EndsWith convert c (.success raw) [] H result outcome →
      EndsWith convert c (.listened work) W H result outcome
  | workFails {work : Program σ Reply} {e : Failure} {W : List (Deed σ)} {h₁ h₂ : Option Context} :
      work.Goes h₁ W (.ok (.error e)) h₂ →
      EndsWith convert c (.listened work) W [] .failure (.error e.settled)
  | workPanics {work : Program σ Reply} {p : Payload} {W : List (Deed σ)} {h₁ h₂ : Option Context} :
      work.Goes h₁ W (.error p) h₂ →
      EndsWith convert c (.listened work) W [] .cancelled (.error .cancelled)
  | workAborted {work : Program σ Unit} {r : Except Payload Unit} {W : List (Deed σ)} {h₁ h₂ : Option Context} :
      work.Goes h₁ W r h₂ → EndsWith convert c (.aborted work) W [] .cancelled (.error .cancelled)

/-- The deeds of the end itself: the trace, the counter, and the write. -/
def closing (c : Chain η) (trace : String → Trace) (result : CompletionResult) (outcome : Reply)
    (h : Option Context) (won : Bool) : List (Deed σ) :=
  .did (.holder id) h :: .did (.record (.traced (trace ((h.map Context.scope).getD "")))) () ::
    .did (.record (.counted (.completions result))) () :: settling c.target outcome won

section Code

variable [Inhabited σ]

theorem goes_closing {c : Chain η} {trace : String → Trace} {result : CompletionResult} {outcome : Reply}
    {r : Except Payload Unit} :
    ((currentScope "").bind fun scope => (log (trace scope)).bind fun _ =>
      (count (.completions result)).bind fun _ => (perform (.settle c.target outcome)).bind fun _ =>
        done ()).Goes h L r h' ↔ ∃ won, L = c.closing trace result outcome h won ∧ r = .ok () ∧ h' = h := by
  rw [(makes_currentScope "").bind]
  constructor
  · rintro ⟨L₂, rfl, hlog⟩
    obtain ⟨L₃, rfl, hcount⟩ := (makes_log _).bind.1 hlog
    obtain ⟨L₄, rfl, hsettle⟩ := (makes_count _).bind.1 hcount
    obtain ⟨won, rfl, rfl, rfl⟩ := goes_settle_bind.1 hsettle
    exact ⟨won, rfl, rfl, rfl⟩
  · rintro ⟨won, rfl, rfl, rfl⟩
    refine ⟨_, rfl, (makes_log _).bind.2 ⟨_, rfl, (makes_count _).bind.2 ⟨_, rfl, ?_⟩⟩⟩
    exact goes_settle_bind.2 ⟨won, rfl, rfl, rfl⟩

theorem goes_success {convert : η → String → Program σ Reply} {c : Chain η} {raw : String}
    {r : Except Payload Unit} (hgoes : (c.succeed convert raw).Goes h L r h') :
    ∃ H result outcome trace h₁ won, EndsWith convert c (.success raw) [] H result outcome ∧
      L = attaching c.context h ++ (H ++ (c.closing trace result outcome h₁ won ++ releasing h h₁)) ∧
        r = .ok () ∧ h' = h := by
  obtain ⟨L₁, h₁, rfl, hbody, rfl⟩ := goes_withContext.1 hgoes
  cases hhandler : c.handler with
  | none =>
    simp only [hhandler] at hbody
    obtain ⟨won, rfl, rfl, rfl⟩ := goes_closing.1 hbody
    exact ⟨[], _, _, _, _, won, .unhandled hhandler, rfl, rfl, rfl⟩
  | some handler =>
    simp only [hhandler] at hbody
    obtain ⟨r₁, h₂, H, L₂, rfl, hconvert, hrest⟩ := goes_caught_bind.1 hbody
    match r₁ with
    | .ok (.ok value) =>
      obtain ⟨won, rfl, rfl, rfl⟩ := goes_closing.1 hrest
      exact ⟨H, _, _, _, _, won, .converted hhandler hconvert, congrArg _ (List.append_assoc ..), rfl, rfl⟩
    | .ok (.error e) =>
      obtain ⟨won, rfl, rfl, rfl⟩ := goes_closing.1 hrest
      exact ⟨H, _, _, _, _, won, .refused hhandler hconvert, congrArg _ (List.append_assoc ..), rfl, rfl⟩
    | .error (.text detail) =>
      obtain ⟨won, rfl, rfl, rfl⟩ := goes_closing.1 hrest
      exact ⟨H, _, _, _, _, won, .panickedWith hhandler hconvert, congrArg _ (List.append_assoc ..), rfl, rfl⟩
    | .error .other =>
      obtain ⟨won, rfl, rfl, rfl⟩ := goes_closing.1 hrest
      exact ⟨H, _, _, _, _, won, .panicked hhandler hconvert, congrArg _ (List.append_assoc ..), rfl, rfl⟩

/-- The deeds of the end with a failure, once the context is attached. -/
def failing (c : Chain η) (cause : Failure) (h : Option Context) (won : Bool) : List (Deed σ) :=
  c.closing (Trace.completedWithFailure · cause) .failure (.error cause.settled) (some c.context) won ++
    releasing h (some c.context)

theorem goes_failure {c : Chain η} {cause : Failure} {r : Except Payload Unit} :
    (c.fail cause).Goes h L r h' ↔
      ∃ won, L = attaching c.context h ++ c.failing cause h won ∧ r = .ok () ∧ h' = h := by
  refine goes_withContext.trans ⟨?_, ?_⟩
  · rintro ⟨L₁, h₁, rfl, hbody, rfl⟩
    obtain ⟨won, rfl, rfl, rfl⟩ := goes_closing.1 hbody
    exact ⟨won, rfl, rfl, rfl⟩
  · rintro ⟨won, rfl, rfl, rfl⟩
    exact ⟨_, _, rfl, goes_closing.2 ⟨won, rfl, rfl, rfl⟩, rfl⟩

/-- The deeds of a chain that is dropped. -/
def dropping (c : Chain η) (won : Bool) : List (Deed σ) :=
  .did (.record (.traced .dropped)) () :: .did (.record (.counted (.completions .cancelled))) () ::
    settling c.target (.error .cancelled) won

theorem goes_drop {c : Chain η} {r : Except Payload Unit} :
    (c.drop : Program σ Unit).Goes h L r h' ↔ ∃ won, L = c.dropping won ∧ r = .ok () ∧ h' = h := by
  have hcode : (c.drop : Program σ Unit) = (log .dropped).bind fun _ =>
      (count (.completions .cancelled)).bind fun _ =>
        (perform (.settle c.target (.error .cancelled))).bind fun _ => done () := rfl
  rw [hcode, (makes_log _).bind]
  constructor
  · rintro ⟨L₂, rfl, hcount⟩
    obtain ⟨L₃, rfl, hsettle⟩ := (makes_count _).bind.1 hcount
    obtain ⟨won, rfl, rfl, rfl⟩ := goes_settle_bind.1 hsettle
    exact ⟨won, rfl, rfl, rfl⟩
  · rintro ⟨won, rfl, rfl, rfl⟩
    exact ⟨_, rfl, (makes_count _).bind.2 ⟨_, rfl, goes_settle_bind.2 ⟨won, rfl, rfl, rfl⟩⟩⟩

theorem goes_listen {convert : η → String → Program σ Reply} {c : Chain η} {work : Program σ Reply}
    {r : Except Payload Unit} (hgoes : (c.listen convert work).Goes h L r h') :
    ∃ r₁ h₁ W L₂, L = W ++ L₂ ∧ work.Goes h W r₁ h₁ ∧
      match r₁ with
      | .ok (.ok raw) => (c.succeed convert raw).Goes h₁ L₂ r h'
      | .ok (.error e) => (c.fail e).Goes h₁ L₂ r h'
      | .error p => (c.drop : Program σ Unit).Goes h₁ L₂ (.ok ()) h' ∧ r = .error p := by
  obtain ⟨r₁, h₁, W, L₂, rfl, hwork, hrest⟩ := goes_caught_bind.1 hgoes
  refine ⟨r₁, h₁, W, L₂, rfl, hwork, ?_⟩
  match r₁ with
  | .ok (.ok raw) => exact hrest
  | .ok (.error e) => exact hrest
  | .error p =>
    rcases goes_bind.1 hrest with ⟨u, h₂, L₃, L₄, rfl, hdrop, hunwind⟩ | ⟨e, -, hdrop⟩
    · obtain ⟨rfl, rfl, rfl⟩ := goes_unwind.1 hunwind
      exact ⟨by rwa [List.append_nil], rfl⟩
    · obtain ⟨won, -, hwon, -⟩ := goes_drop.1 hdrop
      cases hwon

end Code

/-! ## What an ending counts and offers -/

@[simp]
theorem completionsIn_append (L L' : List (Deed σ)) :
    completionsIn (L ++ L') = completionsIn L ++ completionsIn L' :=
  List.filterMap_append

section Counts

variable {c : Chain η} {i : FutureId} {outcome : Reply} {won : Bool}

@[simp]
theorem completionsIn_attaching (context : Context) :
    completionsIn (attaching context h : List (Deed σ)) = [] := rfl

@[simp]
theorem offersIn_attaching (context : Context) : offersIn i (attaching context h : List (Deed σ)) = [] := rfl

@[simp]
theorem completionsIn_releasing : completionsIn (releasing h h' : List (Deed σ)) = [] := by
  cases h' <;> rfl

@[simp]
theorem offersIn_releasing : offersIn i (releasing h h' : List (Deed σ)) = [] := by
  cases h' <;> rfl

@[simp]
theorem completionsIn_closing (trace : String → Trace) (result : CompletionResult) :
    completionsIn (c.closing trace result outcome h won : List (Deed σ)) = [result] := by
  cases won <;> rfl

@[simp]
theorem offersIn_closing (trace : String → Trace) (result : CompletionResult) :
    offersIn c.target (c.closing trace result outcome h won : List (Deed σ)) = [(outcome, won)] :=
  offersIn_settling

@[simp]
theorem completionsIn_failing (cause : Failure) :
    completionsIn (c.failing cause h won : List (Deed σ)) = [.failure] := by
  simp [failing]

@[simp]
theorem offersIn_failing (cause : Failure) :
    offersIn c.target (c.failing cause h won : List (Deed σ)) = [(.error cause.settled, won)] := by
  simp [failing]

@[simp]
theorem completionsIn_dropping : completionsIn (c.dropping won : List (Deed σ)) = [.cancelled] := by
  cases won <;> rfl

@[simp]
theorem offersIn_dropping : offersIn c.target (c.dropping won : List (Deed σ)) = [(.error .cancelled, won)] :=
  offersIn_settling

end Counts

/-- An account of the end of a chain. -/
structure Account (σ : Type) : Type 1 where
  /-- What the asynchronous work did. -/
  work : List (Deed σ)
  /-- What the chain did itself before the handler. -/
  before : List (Deed σ)
  handled : List (Deed σ)
  /-- What the chain did itself after the handler. -/
  after : List (Deed σ)
  result : CompletionResult
  outcome : Reply
  /-- Whether the outcome was taken. -/
  won : Bool

namespace Account

def deeds (a : Account σ) : List (Deed σ) := a.work ++ (a.before ++ (a.handled ++ a.after))

/-- The deeds of the chain itself. -/
def own (a : Account σ) : List (Deed σ) := a.before ++ a.after

/-- The chain ended like this: it counted one result and offered the outcome that goes with it. -/
structure Holds (convert : η → String → Program σ Reply) (c : Chain η) (how : Ending σ) (a : Account σ) : Prop where
  ends : EndsWith convert c how a.work a.handled a.result a.outcome
  counted : completionsIn a.own = [a.result]
  offered : offersIn c.target a.own = [(a.outcome, a.won)]

theorem Holds.offer_mem {convert : η → String → Program σ Reply} {c : Chain η} {how : Ending σ} {a : Account σ}
    (ha : a.Holds convert c how) : (a.outcome, a.won) ∈ offersIn c.target a.deeds := by
  have hown : (a.outcome, a.won) ∈ offersIn c.target a.own := by simp [ha.offered]
  rw [own, offersIn_append, List.mem_append] at hown
  simp only [deeds, offersIn_append, List.mem_append]
  exact hown.elim (fun h => .inr (.inl h)) fun h => .inr (.inr (.inr h))

end Account

theorem goes_ending [Inhabited σ] {convert : η → String → Program σ Reply} {c : Chain η} {how : Ending σ}
    {r : Except Payload Unit} (hgoes : (how.code convert c).Goes h L r h') :
    ∃ a : Account σ, a.deeds = L ∧ a.Holds convert c how := by
  cases how with
  | success raw =>
    obtain ⟨H, result, outcome, trace, h₁, won, hends, rfl, -, -⟩ := goes_success hgoes
    exact ⟨⟨[], attaching c.context h, H, c.closing trace result outcome h₁ won ++ releasing h h₁, result,
      outcome, won⟩, rfl, hends, by simp [Account.own], by simp [Account.own]⟩
  | failure cause =>
    obtain ⟨won, rfl, -, -⟩ := goes_failure.1 hgoes
    exact ⟨⟨[], attaching c.context h, [], c.failing cause h won, _, _, won⟩, rfl, .failed,
      by simp [Account.own], by simp [Account.own]⟩
  | dropped =>
    obtain ⟨won, rfl, -, -⟩ := goes_drop.1 hgoes
    exact ⟨⟨[], [], [], c.dropping won, _, _, won⟩, rfl, .dropped, by simp [Account.own], by simp [Account.own]⟩
  | listened work =>
    obtain ⟨r₁, h₁, W, L₂, rfl, hwork, hrest⟩ := goes_listen hgoes
    match r₁ with
    | .ok (.ok raw) =>
      obtain ⟨H, result, outcome, trace, h₂, won, hends, rfl, -, -⟩ := goes_success hrest
      exact ⟨⟨W, attaching c.context h₁, H, c.closing trace result outcome h₂ won ++ releasing h₁ h₂, result,
        outcome, won⟩, rfl, .workYields hwork hends, by simp [Account.own], by simp [Account.own]⟩
    | .ok (.error e) =>
      obtain ⟨won, rfl, -, -⟩ := goes_failure.1 hrest
      exact ⟨⟨W, attaching c.context h₁, [], c.failing e h₁ won, _, _, won⟩, rfl, .workFails hwork,
        by simp [Account.own], by simp [Account.own]⟩
    | .error p =>
      obtain ⟨won, rfl, -, -⟩ := goes_drop.1 hrest.1
      exact ⟨⟨W, [], [], c.dropping won, _, _, won⟩, rfl, .workPanics hwork, by simp [Account.own],
        by simp [Account.own]⟩
  | aborted work =>
    obtain ⟨r₁, h₁, W, L₂, rfl, hwork, hrest⟩ := goes_caught_bind.1 hgoes
    obtain ⟨won, rfl, -, -⟩ := goes_drop.1 hrest
    exact ⟨⟨W, [], [], c.dropping won, _, _, won⟩, rfl, .workAborted hwork, by simp [Account.own],
      by simp [Account.own]⟩

/-! ## Every ending comes to its end -/

section Ends

variable {others : Others σ}

theorem ends_closing (c : Chain η) (trace : String → Trace) (result : CompletionResult) (outcome : Reply) :
    ((currentScope "").bind fun scope => (log (trace scope)).bind fun _ =>
      (count (.completions result)).bind fun _ => (perform (.settle c.target outcome)).bind fun _ =>
        done () : Program σ Unit).Ends others := by
  refine ends_bind (ends_bind (ends_perform _) fun _ _ _ => rfl) fun scope => ?_
  refine ends_bind (ends_perform _) fun _ => ends_bind (ends_perform _) fun _ => ?_
  exact ends_bind (ends_perform _) fun _ _ _ => rfl

theorem ends_drop (c : Chain η) : (c.drop : Program σ Unit).Ends others := by
  refine ends_bind (ends_perform _) fun _ => ends_bind (ends_perform _) fun _ => ?_
  exact ends_bind (ends_perform _) fun _ _ _ => rfl

theorem ends_success {convert : η → String → Program σ Reply} {c : Chain η}
    (hconvert : ∀ handler raw, c.handler = some handler → (convert handler raw).Ends others) (raw : String) :
    (c.succeed convert raw).Ends others := by
  refine ends_withContext _ ?_
  cases hhandler : c.handler with
  | none => exact ends_closing c _ _ _
  | some handler =>
    refine ends_bind (ends_caught (hconvert handler raw hhandler)) fun r => ?_
    match r with
    | .ok (.ok value) => exact ends_closing c _ _ _
    | .ok (.error e) => exact ends_closing c _ _ _
    | .error p => exact ends_closing c _ _ _

/-- The asynchronous work comes to an end, if there is any. -/
def Ending.WorkEnds (others : Others σ) : Ending σ → Prop
  | listened work => work.Ends others
  | aborted work => work.Ends others
  | _ => True

theorem ends_ending {convert : η → String → Program σ Reply} {c : Chain η} {how : Ending σ}
    (hconvert : ∀ handler raw, c.handler = some handler → (convert handler raw).Ends others)
    (hwork : how.WorkEnds others) : (how.code convert c).Ends others := by
  cases how with
  | success raw => exact ends_success hconvert raw
  | failure cause => exact ends_withContext _ (ends_closing c _ _ _)
  | dropped => exact ends_drop c
  | listened work =>
    refine ends_bind (ends_caught hwork) fun r => ?_
    match r with
    | .ok (.ok raw) => exact ends_success hconvert raw
    | .ok (.error e) => exact ends_withContext _ (ends_closing c _ _ _)
    | .error p => exact ends_bind (ends_drop c) fun _ _ _ => rfl
  | aborted work => exact ends_bind (ends_caught hwork) fun _ => ends_drop c

end Ends

/-! ## In a pool -/

/-- **A chain ends once.** Whatever other threads do meanwhile, making a chain writes and counts nothing.
However a chain ends, it counts one completion; its future is complete afterwards, for good, and frees
whoever waits for it; its outcome is the one that was counted if nobody else offers one. And it ends if
the client code in it does. -/
theorem ends_once (convert : η → String → Program σ Reply) {w : World σ}
    {threads : List ((α : Type) × Program σ α × Option Context)} {es₀ : List (Nat × Deed σ)} {P : Pool σ}
    (hreach : (Pool.start w threads).Runs es₀ P) :
    (∀ {target : FutureId} {creation : Creation} {t : Nat} {h h' : Option Context} {es : List (Nat × Deed σ)}
        {r : Except Payload (Except Failure (Chain η))} {Q : Pool σ},
        P.Through t (creation.code target) h es r h' Q →
          h' = h ∧ offersIn target (Pool.deedsOf t es) = [] ∧ completionsIn (Pool.deedsOf t es) = [] ∧
            ((∃ context, creation.context? h = some context ∧ .did (.peek target) none ∈ Pool.deedsOf t es ∧
              r = .ok (.ok ⟨target, context, none⟩)) ∨ ∃ e, r = .ok (.error e))) ∧
      (∀ {c : Chain η} {how : Ending σ} {t : Nat} {h h' : Option Context} {es : List (Nat × Deed σ)}
        {r : Except Payload Unit} {Q : Pool σ}, c.target < P.world.nextId →
        P.Through t (how.code convert c) h es r h' Q →
          ∃ (a : Account σ) (outcome : Reply), a.deeds = Pool.deedsOf t es ∧ a.Holds convert c how ∧
            (P.future c.target = none → Pool.offers c.target es = [(a.outcome, a.won)] → outcome = a.outcome) ∧
            ∀ es' R, Q.Runs es' R → R.future c.target = some outcome ∧
              ∀ {u : Nat} {α : Type} {h : Option Context} {bound : Option Duration}
                {k : Option Reply → Program σ α} {stage : Stage}, R.Has u ⟨h, .await c.target bound k, stage⟩ →
                  R.Frees c.target u (.fresh (k (some outcome)) h)) ∧
      ∀ (others : Others σ) (c : Chain η) (how : Ending σ),
        (∀ handler raw, c.handler = some handler → (convert handler raw).Ends others) →
          how.WorkEnds others → (how.code convert c).Ends others := by
  have : Inhabited σ := ⟨P.world.user⟩
  refine ⟨fun hthrough => goes_creation hthrough.goes, ?_, fun others c how => ends_ending⟩
  intro c how t h h' es r Q hi hthrough
  obtain ⟨a, hdeeds, ha⟩ := goes_ending hthrough.goes
  have hcomplete : Q.future c.target ≠ none :=
    hthrough.run.complete_of_offer hi (hdeeds ▸ ha.offer_mem)
  obtain ⟨outcome, houtcome⟩ := Option.ne_none_iff_exists'.1 hcomplete
  refine ⟨a, outcome, hdeeds, ha, fun hpending honly => ?_, fun es' R hrest => ?_⟩
  · rw [hthrough.run.future_of_only_offer hi hpending honly] at houtcome
    exact (Option.some.inj houtcome).symm
  · have hkept : R.future c.target = some outcome := by
      rw [hrest.future (Nat.lt_of_lt_of_le hi hthrough.run.nextId_le), houtcome, Option.some_or]
    have hall := (hreach.append hthrough.run).append hrest
    have hrousing : R.Rousing c.target := hall.rousing fun _ hwaiters => absurd rfl hwaiters
    exact ⟨hkept, fun hu => Pool.frees_waiting (hall.sound (Pool.sound_start w threads)) hrousing hkept hu⟩

/-- A chain with a handler that panics, on a thread of its own. -/
theorem ends_once_panicking :
    let c : Chain Unit := ⟨0, ⟨"getBlock", []⟩, some ()⟩
    let convert : Unit → String → Program Unit Reply := fun _ _ => unwind (.text "decoder bug")
    let P := Pool.start { World.start () with nextId := 1 } [⟨Unit, c.succeed convert "0xzz", none⟩]
    ∃ es Q, P.Through 0 ((Ending.success "0xzz").code convert c) none es (.ok ()) none Q ∧
      (∃ a : Account Unit, a.deeds = Pool.deedsOf 0 es ∧ a.Holds convert c (.success "0xzz")) ∧
      Q.future 0 = some (.error (.failed (.text "success handler panicked: decoder bug"))) := by
  intro c convert P
  obtain ⟨es, Q, hthrough, halike, -⟩ :=
    Pool.exists_through (P := P) (t := 0) (p := (Ending.success "0xzz").code convert c) rfl (alike_refl _) rfl
  obtain ⟨a, outcome, hdeeds, ha, -, -⟩ := (ends_once convert .refl).2.1 (by decide) hthrough
  exact ⟨es, Q, hthrough, ⟨a, hdeeds, ha⟩, congrFun halike.futures 0⟩

end Chain

end ResilientCalls
