import Mathlib.Algebra.Group.Nat.Defs
import ResilientCalls.Proofs.ContextSnapshot
import ResilientCalls.Proofs.EndingRequest
import ResilientCalls.Proofs.ExhaustedRequest

/-!
# Requests inside requests

The body of a call may itself be a request, whose call is a request again. All of them work from the context that
the outermost one found, so each level makes as many attempts as that context allows, and the calls at the bottom
multiply (`nested_requests`). The induction is on the levels: a body at one level is one request of the next
level with the derived context attached, which it leaves attached.
-/

namespace ResilientCalls

open Program
open Piece

variable {σ : Type}

/-! ## Levels -/

/-- What a call reports of a request that it made. -/
def reported : Except RpcError String → Reply
  | .ok v => .ok v
  | .error e => .error e.toFailure

/-- A request around another one: who makes it, and what its call does before and after the inner request. -/
structure Layer (σ : Type) where
  requester : Requester σ
  name : String
  parameters : List Text.Layout
  before : Program σ Unit
  after : Except RpcError String → Program σ Unit

/-- The call of a request around another one. -/
def Layer.around (l : Layer σ) (inner : Program σ (Except RpcError String)) : Invocation σ :=
  ⟨l.name, l.parameters, do
    l.before
    let q ← inner
    l.after q
    return reported q⟩

/-- Who makes the outermost request; `r` makes the innermost one. -/
def outermost (r : Requester σ) : List (Layer σ) → Requester σ
  | [] => r
  | l :: _ => l.requester

/-- The call of the outermost request; `inv` is the call of the innermost one. -/
def nested (net : Network σ) (r : Requester σ) (inv : Invocation σ) : List (Layer σ) → Invocation σ
  | [] => inv
  | l :: ls => l.around ((outermost r ls).request net (nested net r inv ls))

/-- One of the innermost requests: the executions of its call, and the error that it returned. -/
structure Innermost (σ : Type) : Type 1 where
  bodies : List (Body σ)
  error : RpcError

/-- The body of a level with the context `c` makes one request, which does what `inner` says and returns `z`; the
context is attached before and after it. -/
def Layer.Passes (l : Layer σ) (c : Context) (inner : List (Deed σ) → Prop) (b : Body σ) (z : RpcError) : Prop :=
  ∃ L₁ L₂ L₃, b.deeds = L₁ ++ (.did (.holder id) (some c) :: L₂ ++ L₃) ∧
    l.before.Goes (some c) L₁ (.ok ()) (some c) ∧ inner L₂ ∧
    (l.after (.error z)).Goes (some c) L₃ (.ok ()) (some c) ∧ b.outcome = .ok (.error z.toFailure) ∧ b.left = some c

/-- The requests that a thread with `h` attached goes through by the deeds `L` from where it has found `base`, with
all their attempts and the requests inside these. They return `y`, and `qs` are the innermost ones in order. -/
def Unfolds (net : Network σ) (r : Requester σ) (inv : Invocation σ) (Q : Pool σ) (es₀ es : List (Nat × Deed σ)) :
    List (Layer σ) → Context → Nat → Option Context → List (Deed σ) → RpcError → List (Innermost σ) → Prop
  | [], base, t, h, L, y, qs => ∃ x : Course σ, ∃ bodies : List (Body σ),
      x.Tells net r inv base h L (.ok (.error y)) ∧
      List.Forall₂ (fun a b => a.Calls net Q es₀ es t (base.withScope inv.name) inv b) x.trials bodies ∧
      qs = [⟨bodies, y⟩]
  | l :: ls, base, t, h, L, y, qs =>
      let c := base.withScope l.name
      ∃ x : Course σ, ∃ (bodies : List (Body σ)) (parts : List (List (Innermost σ))),
        x.Tells net l.requester (nested net r inv (l :: ls)) base h L (.ok (.error y)) ∧
        List.Forall₂ (fun a b => a.Calls net Q es₀ es t c (nested net r inv (l :: ls)) b) x.trials bodies ∧
        List.Forall₂ (fun b part => ∃ z,
          l.Passes c (fun L => Unfolds net r inv Q es₀ es ls c b.thread (some c) L z part) b z) bodies parts ∧
        qs = parts.flatten

/-- What is asked of the client code in a run with the steps `es`, as far as it is run for thread `t`. -/
structure Calm (net : Network σ) (r : Requester σ) (inv : Invocation σ) (ls : List (Layer σ)) (base : Context)
    (P : Pool σ) (t : Nat) (es : List (Nat × Deed σ)) : Prop where
  /-- Errors are converted as usual. -/
  converts : r.convert = convertPlainly ∧ ∀ l ∈ ls, l.requester.convert = convertPlainly
  /-- No connect stage fails. -/
  connects : ∀ {u : Nat} {scope : String} {L : List (Deed σ)} {q : Except Payload (Except Failure Unit)}
    {h' : Option Context}, P.Since t u → L <:+: Pool.deedsOf u es →
      (base.connectStage net).Goes (some (base.withScope scope)) L q h' →
        q = .ok (.ok ()) ∧ h' = some (base.withScope scope)
  /-- No timeout fires. -/
  inTime : ∀ {u : Nat} {m : ChannelId}, P.Since t u → base.timeout?.isSome = true →
    (u, .answered m (.elapsed : Delivery Reply)) ∉ es
  /-- The innermost call always fails, and leaves the context of its thread as it was. -/
  fails : ∀ {u : Nat} {L : List (Deed σ)} {o : Except Payload Reply} {h' : Option Context}, P.Since t u →
    L <:+: Pool.deedsOf u es → inv.call.Goes (some (base.withScope inv.name)) L o h' →
      (∃ e, inv.reply o = .error e) ∧ h' = some (base.withScope inv.name)
  /-- What stands around an inner request comes to its end, and leaves the context of its thread as it was. -/
  around : ∀ l ∈ ls, ∀ p : Program σ Unit, (p = l.before ∨ ∃ q, p = l.after q) →
    ∀ {u : Nat} {L : List (Deed σ)} {o : Except Payload Unit} {h' : Option Context}, P.Since t u →
      L <:+: Pool.deedsOf u es → p.Goes (some (base.withScope l.name)) L o h' →
        o = .ok () ∧ h' = some (base.withScope l.name)

/-! ## Lists side by side -/

section Lists

variable {α β γ : Type*} {R : α → β → Prop} {as : List α} {bs : List β}

theorem exists_forall₂ (h : ∀ a ∈ as, ∃ b, R a b) : ∃ bs, List.Forall₂ R as bs := by
  induction as with
  | nil => exact ⟨[], .nil⟩
  | cons a as ih =>
    obtain ⟨b, hb⟩ := h a (List.mem_cons_self ..)
    obtain ⟨bs, hbs⟩ := ih fun a' ha' => h a' (List.mem_cons_of_mem a ha')
    exact ⟨b :: bs, .cons hb hbs⟩

theorem exists_of_mem_right (h : List.Forall₂ R as bs) : ∀ b ∈ bs, ∃ a, R a b := by
  induction h with
  | nil => exact nofun
  | @cons a b as bs hfirst _ ih =>
    intro b' hb'
    rcases List.mem_cons.1 hb' with rfl | hb'
    · exact ⟨a, hfirst⟩
    · exact ih b' hb'

theorem getLast?_of_forall₂ {a : α} (h : List.Forall₂ R as bs) (ha : as.getLast? = some a) :
    ∃ b, bs.getLast? = some b ∧ R a b := by
  induction h with
  | nil => cases ha
  | @cons a' b as bs hfirst hrest ih =>
    cases hrest with
    | nil =>
      cases ha
      exact ⟨b, rfl, hfirst⟩
    | cons =>
      rw [List.getLast?_cons_cons] at ha ⊢
      exact ih ha

theorem map_eq_map {f : α → γ} {g : β → γ} (h : List.Forall₂ (fun a b => f a = g b) as bs) :
    as.map f = bs.map g := by
  rwa [← List.forall₂_eq_eq_eq, List.forall₂_map_left_iff, List.forall₂_map_right_iff]

theorem length_flatten_of_const {f : γ → List β} {n : Nat} {parts : List (List γ)}
    (h : ∀ part ∈ parts, (part.flatMap f).length = n) : (parts.flatten.flatMap f).length = parts.length * n := by
  induction parts with
  | nil => simp
  | cons part parts ih =>
    rw [List.flatten_cons, List.flatMap_append, List.length_append, h part (List.mem_cons_self ..),
      ih fun part' h' => h part' (List.mem_cons_of_mem part h'), List.length_cons, Nat.succ_mul, Nat.add_comm]

theorem getLast?_flatten {parts : List (List γ)} {part : List γ} {x : γ} (hparts : parts.getLast? = some part)
    (hpart : part.getLast? = some x) : parts.flatten.getLast? = some x := by
  obtain ⟨init, rfl⟩ := List.getLast?_eq_some_iff.1 hparts
  rw [List.flatten_append, List.flatten_singleton, List.getLast?_append, hpart, Option.some_or]

end Lists

section Levels

variable {net : Network σ} {r : Requester σ} {inv : Invocation σ} {l : Layer σ} {ls : List (Layer σ)}
  {P Q : Pool σ} {t : Nat} {es₀ es : List (Nat × Deed σ)} {base c : Context} {h h' : Option Context}
  {L : List (Deed σ)}

theorem Calm.tail (hcalm : Calm net r inv (l :: ls) base P t es) : Calm net r inv ls base P t es :=
  ⟨⟨hcalm.converts.1, fun l' hl' => hcalm.converts.2 l' (List.mem_cons_of_mem l hl')⟩, hcalm.connects, hcalm.inTime,
    hcalm.fails, fun l' hl' => hcalm.around l' (List.mem_cons_of_mem l hl')⟩

theorem Calm.convert_outermost (hcalm : Calm net r inv ls base P t es) :
    (outermost r ls).convert = convertPlainly := by
  cases ls with
  | nil => exact hcalm.converts.1
  | cons l ls => exact hcalm.converts.2 l (List.mem_cons_self ..)

theorem goes_around {inner : Program σ (Except RpcError String)} {o : Except Payload Reply}
    (hgoes : (l.around inner).call.Goes (some c) L o h')
    (hclient : ∀ p : Program σ Unit, (p = l.before ∨ ∃ q, p = l.after q) →
      ∀ {L' : List (Deed σ)} {o : Except Payload Unit} {h' : Option Context}, L' <:+: L →
        p.Goes (some c) L' o h' → o = .ok () ∧ h' = some c)
    (hinner : ∀ {L' : List (Deed σ)} {q : Requester.Result} {h' : Option Context}, L' <:+: L →
      inner.Goes (some c) L' q h' → ∃ z, q = .ok (.error z) ∧ h' = some c) :
    ∃ L₁ L₂ L₃ z, L = L₁ ++ (L₂ ++ L₃) ∧ l.before.Goes (some c) L₁ (.ok ()) (some c) ∧
      inner.Goes (some c) L₂ (.ok (.error z)) (some c) ∧ (l.after (.error z)).Goes (some c) L₃ (.ok ()) (some c) ∧
      o = .ok (.error z.toFailure) ∧ h' = some c := by
  rcases goes_bind.1 hgoes with ⟨u, h₁, L₁, rest, rfl, hbefore, hrest⟩ | ⟨p, rfl, hbefore⟩
  · obtain ⟨-, rfl⟩ := hclient _ (.inl rfl) (List.prefix_append _ _).isInfix hbefore
    rcases goes_bind.1 hrest with ⟨q, h₂, L₂, rest, rfl, hrequest, hlast⟩ | ⟨p, rfl, hrequest⟩
    · obtain ⟨z, hq, rfl⟩ := hinner ⟨L₁, rest, by rw [List.append_assoc]⟩ hrequest
      cases hq
      rcases goes_bind.1 hlast with ⟨u', h₃, L₃, L₄, rfl, hafter, hend⟩ | ⟨p, rfl, hafter⟩
      · obtain ⟨rfl, rfl, rfl⟩ := goes_done.1 hend
        obtain ⟨-, rfl⟩ := hclient _ (.inr ⟨_, rfl⟩) ⟨L₁ ++ L₂, [], by simp⟩ hafter
        exact ⟨L₁, L₂, L₃, z, by rw [List.append_nil], hbefore, hrequest, hafter, rfl, rfl⟩
      · obtain ⟨ho, -⟩ := hclient _ (.inr ⟨_, rfl⟩) ⟨L₁ ++ L₂, [], by simp⟩ hafter
        cases ho
    · obtain ⟨z, hq, -⟩ := hinner ⟨L₁, [], by simp⟩ hrequest
      cases hq
  · obtain ⟨ho, -⟩ := hclient _ (.inl rfl) (List.infix_refl _) hbefore
    cases ho

/-! ## One level -/

theorem Pool.Since.trans {u v : Nat} (hu : P.Since t u) (hv : P.Since u v) : P.Since t v := by
  rcases hv with rfl | hv
  · exact hu
  · exact .inr hv

section Run

variable {w : World σ} {threads : List ((α : Type) × Program σ α × Option Context)} {u : Nat} {scope : String}
  {res : Requester.Result}

/-- On every thread that works for `t` the call fails under the context, and leaves it attached. -/
def FailsAlways (inv : Invocation σ) (c : Context) (P : Pool σ) (t : Nat) (es : List (Nat × Deed σ)) : Prop :=
  ∀ (u : Nat) (L : List (Deed σ)) (o : Except Payload Reply) (h' : Option Context), P.Since t u →
    L <:+: Pool.deedsOf u es → inv.call.Goes (some c) L o h' → (∃ e, inv.reply o = .error e) ∧ h' = some c

theorem Calm.calls [Inhabited σ] (hcalm : Calm net r inv ls base P t es)
    (hbefore : (Pool.start w threads).Runs es₀ P) (hrun : P.Runs es Q) {inv' : Invocation σ} (hu : P.Since t u)
    (hfails : FailsAlways inv' (base.withScope inv'.name) P t es) {a : Trial σ}
    (ha : a.Of net (base.withScope inv'.name) inv') (hheld : a.holder = some (base.withScope inv'.name))
    (hdeeds : a.deeds <:+: Pool.deedsOf u es) :
    ∃ b : Body σ, a.Calls net Q es₀ es u (base.withScope inv'.name) inv' b ∧ a.reply = inv'.reply b.outcome ∧
      P.Since t b.thread ∧ b.deeds <:+: Pool.deedsOf b.thread es ∧
      inv'.call.Goes (some (base.withScope inv'.name)) b.deeds b.outcome b.left ∧
      (∃ e, a.reply = .error e) ∧ a.left = some (base.withScope inv'.name) := by
  obtain ⟨b, hcalls, hreply, hsince, hinside, hbody, hleft⟩ := ha.calls hbefore hrun hheld hdeeds
    (fun hstage hgoes => hcalm.connects hu hstage hgoes) fun m hbounded => hcalm.inTime hu hbounded
  obtain ⟨⟨e, he⟩, hkept⟩ := hfails _ _ _ _ (hu.trans hsince) hinside hbody
  exact ⟨b, hcalls, hreply, hu.trans hsince, hinside, hbody, ⟨e, hreply.trans he⟩, hleft hkept⟩

theorem Calm.exhausts [Inhabited σ] (hcalm : Calm net r inv ls base P t es)
    (hbefore : (Pool.start w threads).Runs es₀ P) (hrun : P.Runs es Q) {r' : Requester σ} {inv' : Invocation σ}
    (hu : P.Since t u) (hconvert : r'.convert = convertPlainly)
    (hattached : ∀ c, h = some c → c = base.withScope scope) (hL : L <:+: Pool.deedsOf u es)
    (hgoes : (r'.under net (base.withScope scope) inv').Goes h L res h')
    (hfails : FailsAlways inv' (base.withScope inv'.name) P t es) :
    ∃ x : Course σ, ∃ (bodies : List (Body σ)) (e : Failure),
      x.Tells net r' inv' (base.withScope scope) h L (.ok (.error (.ofFailure e))) ∧
      res = .ok (.error (.ofFailure e)) ∧ h' = h ∧
      List.Forall₂ (fun a b => a.Calls net Q es₀ es u (base.withScope inv'.name) inv' b) x.trials bodies ∧
      bodies.length = 1 + base.budget ∧
      (bodies.map fun b => inv'.reply b.outcome).getLast? = some (.error e) ∧
      ∀ b ∈ bodies, P.Since t b.thread ∧ b.deeds <:+: Pool.deedsOf b.thread es ∧
        inv'.call.Goes (some (base.withScope inv'.name)) b.deeds b.outcome b.left := by
  obtain ⟨x, hx, hbase, hholder, rfl, hdeeds, rfl⟩ := course_of_under hattached hgoes
  have hderived : x.base.withScope inv'.name = base.withScope inv'.name := by
    rw [hbase]
    rfl
  have hdone : ∀ a ∈ x.trials, a.deeds <:+: Pool.deedsOf u es := fun a ha => by
    have hworked := Piece.infix_deedsIn (Course.infix_worked hx ha)
    rw [hdeeds] at hworked
    exact hworked.trans hL
  have hfailing : ∀ a ∈ x.trials, a.Of net (x.base.withScope inv'.name) inv' →
      a.FailsUnder (x.base.withScope inv'.name) := by
    rw [hderived]
    intro a ha hof hheld
    obtain ⟨-, -, -, -, -, -, hfailed⟩ := hcalm.calls hbefore hrun hu hfails hof hheld (hdone a ha)
    exact hfailed
  obtain ⟨hlength, hall, e, hlast, hconclude⟩ := Course.exhausted hx hfailing
  rw [hderived] at hall hconclude
  obtain ⟨bodies, hbodies⟩ := exists_forall₂ fun a ha =>
    hcalm.calls hbefore hrun hu hfails (hall a ha).1 (hall a ha).2 (hdone a ha)
  have hresult := hconclude.of_plain hconvert
  refine ⟨x, bodies, e, ⟨hx, hbase, hholder, hresult, hdeeds, Course.touched hx⟩, hresult, rfl,
    hbodies.imp fun _ _ hb => hb.1, ?_, ?_, fun b hb => ?_⟩
  · rw [← hbodies.length_eq, hlength, hbase]
    rfl
  · rw [← hlast, map_eq_map (hbodies.imp fun _ _ hb => hb.2.1)]
  · obtain ⟨a, -, -, hsince, hdeeds, hbody, -⟩ := exists_of_mem_right hbodies b hb
    exact ⟨hsince, hdeeds, hbody⟩

/-! ## All levels -/

/-- The requests of these levels fail, and what they do unfolds, on every thread that works for `t` and finds no
other context than the derived one. -/
def UnfoldAll (net : Network σ) (r : Requester σ) (inv : Invocation σ) (base : Context) (P Q : Pool σ) (t : Nat)
    (es₀ es : List (Nat × Deed σ)) (ls : List (Layer σ)) : Prop :=
  ∀ (u : Nat) (scope : String) (h h' : Option Context) (L : List (Deed σ)) (res : Requester.Result),
    P.Since t u → (∀ c, h = some c → c = base.withScope scope) → L <:+: Pool.deedsOf u es →
    ((outermost r ls).under net (base.withScope scope) (nested net r inv ls)).Goes h L res h' →
    ∃ y qs, res = .ok (.error y) ∧ h' = h ∧ Unfolds net r inv Q es₀ es ls (base.withScope scope) u h L y qs ∧
      (qs.flatMap Innermost.bodies).length = (1 + base.budget) ^ (ls.length + 1) ∧
      ∃ q, qs.getLast? = some q ∧ q.error = y

theorem UnfoldAll.request [Inhabited σ] (hall : UnfoldAll net r inv base P Q t es₀ es ls) (hu : P.Since t u)
    (hL : L <:+: Pool.deedsOf u es)
    (hgoes : ((outermost r ls).request net (nested net r inv ls)).Goes (some (base.withScope scope)) L res h') :
    ∃ L' z part, L = .did (.holder id) (some (base.withScope scope)) :: L' ∧ res = .ok (.error z) ∧
      h' = some (base.withScope scope) ∧
      Unfolds net r inv Q es₀ es ls (base.withScope scope) u (some (base.withScope scope)) L' z part ∧
      (part.flatMap Innermost.bodies).length = (1 + base.budget) ^ (ls.length + 1) ∧
      ∃ q, part.getLast? = some q ∧ q.error = z := by
  rw [Requester.request_eq] at hgoes
  rcases goes_bind.1 hgoes with ⟨c, h₁, L₁, L₂, rfl, hfound, hunder⟩ | ⟨p, -, hfound⟩
  · obtain ⟨c, rfl, heq, rfl, hc⟩ := Requester.goes_base hfound
    cases heq
    obtain rfl := hc _ rfl
    obtain ⟨z, part, rfl, rfl, hunfolds, hlength, hlast⟩ := hall u scope _ _ _ _ hu
      (fun _ hc => (Option.some.inj hc).symm) ((List.suffix_append _ _).isInfix.trans hL) hunder
    exact ⟨L₂, z, part, rfl, rfl, rfl, hunfolds, hlength, hlast⟩
  · obtain ⟨c, -, heq, -⟩ := Requester.goes_base hfound
    cases heq

theorem Calm.body [Inhabited σ] (hcalm : Calm net r inv (l :: ls) base P t es)
    (hall : UnfoldAll net r inv base P Q t es₀ es ls) {o : Except Payload Reply} (hu : P.Since t u)
    (hL : L <:+: Pool.deedsOf u es)
    (hgoes : (nested net r inv (l :: ls)).call.Goes (some (base.withScope l.name)) L o h') :
    ∃ z part, (part.flatMap Innermost.bodies).length = (1 + base.budget) ^ (ls.length + 1) ∧
      (∃ q, part.getLast? = some q ∧ q.error = z) ∧
      l.Passes (base.withScope l.name) (fun L => Unfolds net r inv Q es₀ es ls (base.withScope l.name) u
        (some (base.withScope l.name)) L z part) ⟨u, L, o, h'⟩ z := by
  obtain ⟨L₁, L₂, L₃, z, rfl, hbefore, hrequest, hafter, rfl, rfl⟩ := goes_around hgoes
    (fun p hp L' o h' hL' => hcalm.around l (List.mem_cons_self ..) p hp hu (hL'.trans hL))
    fun hL' hrequest => by
      obtain ⟨-, z, -, -, hq, hkept, -⟩ := hall.request hu (hL'.trans hL) hrequest
      exact ⟨z, hq, hkept⟩
  have hmiddle : L₂ <:+: Pool.deedsOf u es := List.IsInfix.trans ⟨L₁, L₃, List.append_assoc ..⟩ hL
  obtain ⟨L₄, z', part, rfl, hz, -, hunfolds, hlength, hlast⟩ := hall.request hu hmiddle hrequest
  cases hz
  exact ⟨z, part, hlength, hlast, L₁, L₄, L₃, rfl, hbefore, hunfolds, hafter, rfl, rfl⟩

theorem Calm.unfolds_cons [Inhabited σ] (hcalm : Calm net r inv (l :: ls) base P t es)
    (hbefore : (Pool.start w threads).Runs es₀ P) (hrun : P.Runs es Q)
    (hall : UnfoldAll net r inv base P Q t es₀ es ls) : UnfoldAll net r inv base P Q t es₀ es (l :: ls) := by
  intro u scope h h' L res hu hattached hL hgoes
  obtain ⟨x, bodies, e, htells, rfl, rfl, hcalls, hlength, hlast, hbodies⟩ :=
    hcalm.exhausts hbefore hrun hu hcalm.convert_outermost hattached hL hgoes fun v L o h' hv hL hgoes => by
      obtain ⟨z, -, -, -, -, -, -, -, -, -, -, rfl, hkept⟩ := hcalm.body hall hv hL hgoes
      exact ⟨⟨z.toFailure, rfl⟩, hkept⟩
  obtain ⟨parts, hparts⟩ := exists_forall₂ (R := fun b part => ∃ z,
      (part.flatMap Innermost.bodies).length = (1 + base.budget) ^ (ls.length + 1) ∧
        (∃ q, part.getLast? = some q ∧ q.error = z) ∧ l.Passes (base.withScope l.name) (fun L => Unfolds net r inv Q
          es₀ es ls (base.withScope l.name) b.thread (some (base.withScope l.name)) L z part) b z) fun b hb => by
    obtain ⟨hv, hinside, hbody⟩ := hbodies b hb
    obtain ⟨z, part, hfacts⟩ := hcalm.body hall hv hinside hbody
    exact ⟨part, z, hfacts⟩
  refine ⟨_, parts.flatten, rfl, rfl,
    ⟨x, bodies, parts, htells, hcalls, hparts.imp fun _ _ ⟨z, _, _, hpasses⟩ => ⟨z, hpasses⟩, rfl⟩, ?_, ?_⟩
  · rw [length_flatten_of_const (n := (1 + base.budget) ^ (ls.length + 1)), ← hparts.length_eq, hlength,
      List.length_cons, pow_succ' _ (ls.length + 1)]
    intro part hpart
    obtain ⟨b, z, hcount, -⟩ := exists_of_mem_right hparts part hpart
    exact hcount
  · rw [List.getLast?_map, Option.map_eq_some_iff] at hlast
    obtain ⟨b, hb, hreply⟩ := hlast
    obtain ⟨part, hpart, z, -, ⟨q, hq, rfl⟩, L₁, L₂, L₃, -, -, -, -, ho, -⟩ := getLast?_of_forall₂ hparts hb
    refine ⟨q, getLast?_flatten hpart hq, ?_⟩
    rw [ho] at hreply
    cases hreply
    exact (RpcError.ofFailure_toFailure _).symm

theorem Calm.unfolds (hcalm : Calm net r inv ls base P t es) (hbefore : (Pool.start w threads).Runs es₀ P)
    (hrun : P.Runs es Q) : UnfoldAll net r inv base P Q t es₀ es ls := by
  have : Inhabited σ := ⟨w.user⟩
  induction ls with
  | nil =>
    intro u scope h h' L res hu hattached hL hgoes
    obtain ⟨x, bodies, e, htells, rfl, rfl, hbodies, hlength, -, -⟩ :=
      hcalm.exhausts hbefore hrun hu hcalm.converts.1 hattached hL hgoes fun _ _ _ _ => hcalm.fails
    refine ⟨_, [⟨bodies, .ofFailure e⟩], rfl, rfl, ⟨x, bodies, htells, hbodies, rfl⟩, ?_, _, rfl, rfl⟩
    rw [List.flatMap_singleton, hlength, List.length_nil, Nat.zero_add, pow_one]
  | cons l ls ih => exact hcalm.unfolds_cons hbefore hrun (ih hcalm.tail)

end Run

/-- The client code of all levels comes to its end. -/
structure ClientEnds (others : Others σ) (net : Network σ) (r : Requester σ) (inv : Invocation σ)
    (ls : List (Layer σ)) : Prop where
  network : NetworkEnds others net
  call : inv.call.Ends others
  around : ∀ l ∈ ls, l.before.Ends others ∧ ∀ q, (l.after q).Ends others
  listeners : r.ListenersEnd others ∧ ∀ l ∈ ls, l.requester.ListenersEnd others

variable {others : Others σ}

theorem ClientEnds.tail (hends : ClientEnds others net r inv (l :: ls)) : ClientEnds others net r inv ls :=
  ⟨hends.network, hends.call, fun l' hl' => hends.around l' (List.mem_cons_of_mem l hl'), hends.listeners.1,
    fun l' hl' => hends.listeners.2 l' (List.mem_cons_of_mem l hl')⟩

theorem ends_nested (hconvert : r.convert = convertPlainly ∧ ∀ l ∈ ls, l.requester.convert = convertPlainly)
    (hends : ClientEnds others net r inv ls) :
    ((outermost r ls).request net (nested net r inv ls)).Ends others := by
  induction ls with
  | nil =>
    refine ends_request hends.network hends.call (fun e => ?_) hends.listeners.1
    rw [outermost, hconvert.1]
    exact ends_done _
  | cons l ls ih =>
    obtain ⟨hbefore, hafter⟩ := hends.around l (List.mem_cons_self ..)
    have hinner := ih ⟨hconvert.1, fun l' hl' => hconvert.2 l' (List.mem_cons_of_mem l hl')⟩ hends.tail
    refine ends_request hends.network ?_ (fun e => ?_) (hends.listeners.2 l (List.mem_cons_self ..))
    · exact ends_bind hbefore fun _ => ends_bind hinner fun q => ends_bind (hafter q) fun _ => ends_done _
    · rw [outermost, hconvert.2 l (List.mem_cons_self ..)]
      exact ends_done _

/-- **Requests inside requests.** If the calls at the bottom always fail, and nothing else goes wrong, then each
level makes as many attempts as the context allows that the outermost request has found, and the calls at the bottom
are as many as these multiply to. Each body has the context of its level attached before and after the request that
it makes. The outermost request returns just the error that the last one at the bottom has returned, and it comes to
its end if the client code does. -/
theorem nested_requests {w : World σ} {threads : List ((α : Type) × Program σ α × Option Context)}
    {res : Requester.Result} (hbefore : (Pool.start w threads).Runs es₀ P)
    (hthrough : P.Through t ((outermost r ls).request net (nested net r inv ls)) h es res h' Q)
    (hbase : (outermost r ls).Resolves P t h es base) (hcalm : Calm net r inv ls base P t es) :
    (∃ y L qs, res = .ok (.error y) ∧ h' = h ∧
      Pool.deedsOf t es = (outermost r ls).basing h base ++ L ∧ Unfolds net r inv Q es₀ es ls base t h L y qs ∧
      (qs.flatMap Innermost.bodies).length = (1 + base.budget) ^ (ls.length + 1) ∧
      ∃ q, qs.getLast? = some q ∧ q.error = y) ∧
    ∀ others : Others σ, ClientEnds others net r inv ls →
      ((outermost r ls).request net (nested net r inv ls)).Ends others := by
  have : Inhabited σ := ⟨w.user⟩
  refine ⟨?_, fun others => ends_nested hcalm.converts⟩
  have hgoes := hthrough.goes
  rw [Requester.request_eq] at hgoes
  rcases goes_bind.1 hgoes with ⟨c, h₁, L₁, L₂, hdeeds, hfound, hunder⟩ | ⟨p, -, hfound⟩
  · obtain ⟨c, rfl, heq, rfl, hattached⟩ := Requester.goes_base hfound
    cases heq
    obtain rfl := hbase.eq hattached hdeeds
    have hL : L₂ <:+: Pool.deedsOf t es := hdeeds ▸ (List.suffix_append _ _).isInfix
    obtain ⟨y, qs, rfl, rfl, hunfolds, hlength, hlast⟩ :=
      hcalm.unfolds hbefore hthrough.run t base.scope _ _ _ _ (.inl rfl) hattached hL hunder
    exact ⟨y, L₂, qs, rfl, rfl, hdeeds, hunfolds, hlength, hlast⟩
  · obtain ⟨c, -, heq, -⟩ := Requester.goes_base hfound
    cases heq

end Levels

/-- A request from a storage that asks for more retries than the attached context. -/
theorem nested_requests_twice :
    let eager : Context := ⟨"", [.retry ⟨5, .zero, by decide⟩]⟩
    let r : Requester Unit := ⟨"inner", 0, convertPlainly, []⟩
    let inv : Invocation Unit := ⟨"ping", [], done (.error (.text "down"))⟩
    let l : Layer Unit := ⟨Requester.plain, "outer", [], done (), fun _ => done ()⟩
    let p := (outermost r [l]).request Requester.connected (nested Requester.connected r inv [l])
    let w : World Unit := { World.start () with storages := fun _ => eager }
    let P := Pool.start w [⟨_, p, some Requester.patient⟩]
    ∃ es Q y L qs, P.Through 0 p (some Requester.patient) es (.ok (.error y)) (some Requester.patient) Q ∧
      Unfolds Requester.connected r inv Q [] es [l] Requester.patient 0 (some Requester.patient) L y qs ∧
      (qs.flatMap Innermost.bodies).length = 4 := by
  intro eager r inv l p w P
  have hnet : NetworkEnds nobody Requester.connected := fun _ => ⟨fun _ _ => rfl, fun _ _ _ => rfl⟩
  have hconvert : r.convert = convertPlainly ∧ ∀ l' ∈ [l], l'.requester.convert = convertPlainly :=
    ⟨rfl, fun l' hl' => by rw [List.mem_singleton.1 hl']; rfl⟩
  have hends : ClientEnds nobody Requester.connected r inv [l] :=
    ⟨hnet, ends_done _, fun l' hl' => by rw [List.mem_singleton.1 hl']; exact ⟨ends_done _, fun _ => ends_done _⟩,
      nofun, fun l' hl' => by rw [List.mem_singleton.1 hl']; exact nofun⟩
  obtain ⟨res, hres⟩ := end?_of_isEnd (ends_nested hconvert hends (some Requester.patient) w)
  obtain ⟨es, Q, hthrough, -, -⟩ := Pool.exists_through (P := P) (t := 0) rfl (alike_refl w) hres
  have hcalm : Calm Requester.connected r inv [l] Requester.patient P 0 es := by
    refine ⟨hconvert, fun _ _ hgoes => ?_, fun _ htimeout => ?_, fun _ _ hgoes => ?_,
      fun l' hl' p hp _ _ _ _ _ _ hgoes => ?_⟩
    · obtain ⟨-, rfl, rfl⟩ := goes_done.1 hgoes
      exact ⟨rfl, rfl⟩
    · cases htimeout
    · obtain ⟨-, rfl, rfl⟩ := goes_done.1 hgoes
      exact ⟨⟨_, rfl⟩, rfl⟩
    · rw [List.mem_singleton.1 hl'] at hp hgoes ⊢
      obtain rfl : p = done () := hp.elim id fun ⟨_, hp⟩ => hp
      obtain ⟨-, rfl, rfl⟩ := goes_done.1 hgoes
      exact ⟨rfl, rfl⟩
  obtain ⟨⟨y, L, qs, rfl, hleft, -, hunfolds, hlength, -⟩, -⟩ :=
    nested_requests .refl hthrough (.inl rfl) hcalm
  rw [hleft] at hthrough
  exact ⟨es, Q, y, L, qs, hthrough, hunfolds, hlength⟩

end ResilientCalls
