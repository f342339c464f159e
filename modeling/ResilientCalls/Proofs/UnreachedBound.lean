import Mathlib.Data.List.Forall2
import ResilientCalls.Proofs.NestedRequests
import ResilientCalls.Proofs.Receipts
import ResilientCalls.Proofs.RunInPool

/-!
# A bound that no attempt reaches

With a timeout strategy in the context the calls of a request are made on workers. As long as no worker is late
that makes no difference (`Pool.bound_unnoticed`): two requests, one with the strategy and one without, whose
client code is consistent, make the same attempts with the same pauses and end the same way. They are compared
step by step, each stretch of client code of the one with its counterpart in the other, wherever that runs.
-/

namespace ResilientCalls

open Program
open Piece

variable {σ : Type} {net : Network σ} {r : Requester σ} {inv : Invocation σ} {c c' : Context}
  {h h' h₁ h₁' : Option Context} {t t' : Nat} {es es' : List (Nat × Deed σ)} {Q Q' : Pool σ}

/-! ## Lists in lockstep -/

section Lockstep

variable {α : Type*} {A R : α → α → Prop} {x x' : α} {xs xs' ys ys' : List α}

/-- Entries at one place of two lists fit together, if those before are alike. -/
def Lockstep (A R : α → α → Prop) (xs xs' : List α) : Prop :=
  ∀ ⦃before before' : List α⦄ ⦃x x' : α⦄ ⦃after after' : List α⦄, xs = before ++ x :: after →
    xs' = before' ++ x' :: after' → List.Forall₂ R before before' → A x x'

namespace Lockstep

theorem head (h : Lockstep A R (x :: xs) (x' :: xs')) : A x x' := @h [] [] x x' xs xs' rfl rfl .nil

theorem tail (h : Lockstep A R (x :: xs) (x' :: xs')) (hx : R x x') : Lockstep A R xs xs' := by
  rintro before before' y y' after after' rfl rfl hbefore
  exact h rfl rfl (.cons hx hbefore)

theorem left (h : Lockstep A R (xs ++ ys) (xs' ++ ys')) : Lockstep A R xs xs' := by
  rintro before before' y y' after after' rfl rfl hbefore
  exact h (List.append_assoc ..) (List.append_assoc ..) hbefore

theorem right (h : Lockstep A R (xs ++ ys) (xs' ++ ys')) (hxs : List.Forall₂ R xs xs') : Lockstep A R ys ys' := by
  rintro before before' y y' after after' rfl rfl hbefore
  exact h (List.append_assoc ..).symm (List.append_assoc ..).symm (List.rel_append hxs hbefore)

theorem of_forall (h : ∀ x ∈ xs, ∀ x' ∈ xs', A x x') : Lockstep A R xs xs' := by
  rintro before before' x x' after after' rfl rfl -
  exact h x (by simp) x' (by simp)

end Lockstep

end Lockstep

/-! ## Client code that is consistent -/

/-- The same scope is visible, or none in both. -/
def SameScope (h h' : Option Context) : Prop := h.map Context.scope = h'.map Context.scope

namespace Part

/-- The same code is run under the same scope, and it comes to the same end. -/
inductive Alike : Part σ → Part σ → Prop
  | same {β : Type} {p : Program σ β} {h h' h₁ h₁' : Option Context} {L L' : List (Deed σ)} {o : Except Payload β} :
      SameScope h h' → SameScope h₁ h₁' → Alike ⟨β, p, h, L, o, h₁⟩ ⟨β, p, h', L', o, h₁'⟩

/-- If the same code is run under the same scope, it comes to the same end. -/
def Consistent (y y' : Part σ) : Prop :=
  ∀ ⦃β : Type⦄ ⦃p : Program σ β⦄ ⦃h h' h₁ h₁' : Option Context⦄ ⦃L L' : List (Deed σ)⦄ ⦃o o' : Except Payload β⦄,
    y = ⟨β, p, h, L, o, h₁⟩ → y' = ⟨β, p, h', L', o', h₁'⟩ → SameScope h h' → o = o' ∧ SameScope h₁ h₁'

theorem Consistent.alike {β : Type} {p : Program σ β} {L L' : List (Deed σ)} {o o' : Except Payload β}
    (hy : Consistent ⟨β, p, h, L, o, h₁⟩ ⟨β, p, h', L', o', h₁'⟩) (hscope : SameScope h h') :
    o = o' ∧ SameScope h₁ h₁' ∧ Alike ⟨β, p, h, L, o, h₁⟩ ⟨β, p, h', L', o', h₁'⟩ := by
  obtain ⟨rfl, hleft⟩ := hy rfl rfl hscope
  exact ⟨rfl, hleft, .same hscope hleft⟩

end Part

/-- What client code does in the one attempt it does in the other, as long as it has done so before. -/
abbrev InStep (xs xs' : List (Part σ)) : Prop := Lockstep Part.Consistent Part.Alike xs xs'

namespace Piece

variable {ps qs : List (Piece σ)} {L : List (Deed σ)}

@[simp] theorem partsIn_append : partsIn (ps ++ qs) = partsIn ps ++ partsIn qs := List.filterMap_append

@[simp] theorem partsIn_nil : partsIn ([] : List (Piece σ)) = [] := rfl

@[simp] theorem partsIn_owns : partsIn (owns L : List (Piece σ)) = [] := by
  induction L with
  | nil => rfl
  | cons e L ih => exact ih

end Piece

/-! ## The connect stage -/

theorem ConnectStrategy.Connecting.alike {s : ConnectStrategy} {left attempt : Nat} {last : Failure}
    {ps ps' : List (Piece σ)} {q q' : Except Payload (Except Failure Unit)}
    (hps : s.Connecting net left attempt last h ps q h₁) (hps' : s.Connecting net left attempt last h' ps' q' h₁')
    (hscope : SameScope h h') (hstep : InStep (partsIn ps) (partsIn ps')) :
    q = q' ∧ SameScope h₁ h₁' ∧ List.Forall₂ Part.Alike (partsIn ps) (partsIn ps') ∧ pausesIn ps = pausesIn ps' := by
  -- The connectors are asked to connect under one scope, so both are refused or neither is.
  induction hps generalizing h' ps' q' with
  | gaveUp =>
    cases hps'
    exact ⟨rfl, hscope, .nil, rfl⟩
  | connected =>
    simp only [partsIn_own, partsIn_client, partsIn_owns] at hstep ⊢
    cases hps' with
    | connected =>
      obtain ⟨-, hleft, hfirst⟩ := hstep.head.alike hscope
      exact ⟨rfl, hleft, .cons hfirst .nil, rfl⟩
    | failed | panicked => cases (hstep.head.alike hscope).1
  | @failed left attempt last e h h₁ h₂ L ps q _ _ ih =>
    simp only [partsIn_own, partsIn_client, partsIn_append, partsIn_owns, List.nil_append] at hstep ⊢
    cases hps' with
    | connected | panicked => cases (hstep.head.alike hscope).1
    | failed _ hrest' =>
      simp only [partsIn_own, partsIn_client, partsIn_append, partsIn_owns, List.nil_append] at hstep ⊢
      obtain ⟨heq, hleft, hfirst⟩ := hstep.head.alike hscope
      cases heq
      obtain ⟨rfl, hlast, hparts, hpauses⟩ := ih hrest' hleft (hstep.tail hfirst)
      exact ⟨rfl, hlast, .cons hfirst hparts, by simp [hpauses]⟩
  | panicked =>
    cases hps' with
    | connected | failed => cases (hstep.head.alike hscope).1
    | panicked =>
      obtain ⟨heq, hleft, hfirst⟩ := hstep.head.alike hscope
      cases heq
      exact ⟨rfl, hleft, .cons hfirst .nil, rfl⟩

theorem Context.Connecting.alike {ps ps' : List (Piece σ)} {q q' : Except Payload (Except Failure Unit)}
    (hconnect : c'.connect? = c.connect?) (hps : c.Connecting net h ps q h₁) (hps' : c'.Connecting net h' ps' q' h₁')
    (hscope : SameScope h h') (hstep : InStep (partsIn ps) (partsIn ps')) :
    q = q' ∧ SameScope h₁ h₁' ∧ List.Forall₂ Part.Alike (partsIn ps) (partsIn ps') ∧ pausesIn ps = pausesIn ps' := by
  cases hps with
  | unasked hc =>
    cases hps' with
    | unasked => exact ⟨rfl, hscope, .nil, rfl⟩
    | standing hs | asked hs | panicked hs => cases (hc.symm.trans hconnect.symm).trans hs
  | standing hs =>
    cases hps' with
    | unasked hc => cases (hc.symm.trans hconnect).trans hs
    | standing hs' =>
      cases (hs.symm.trans hconnect.symm).trans hs'
      obtain ⟨-, hleft, hfirst⟩ := hstep.head.alike hscope
      exact ⟨rfl, hleft, .cons hfirst .nil, rfl⟩
    | asked hs' | panicked hs' =>
      cases (hs.symm.trans hconnect.symm).trans hs'
      cases (hstep.head.alike hscope).1
  | asked hs _ hloop =>
    cases hps' with
    | unasked hc => cases (hc.symm.trans hconnect).trans hs
    | standing hs' | panicked hs' =>
      cases (hs.symm.trans hconnect.symm).trans hs'
      cases (hstep.head.alike hscope).1
    | asked hs' _ hloop' =>
      cases (hs.symm.trans hconnect.symm).trans hs'
      obtain ⟨-, hleft, hfirst⟩ := hstep.head.alike hscope
      obtain ⟨rfl, hlast, hparts, hpauses⟩ := hloop.alike hloop' hleft (hstep.tail hfirst)
      exact ⟨rfl, hlast, .cons hfirst hparts, by simp [hpauses]⟩
  | panicked hs =>
    cases hps' with
    | unasked hc => cases (hc.symm.trans hconnect).trans hs
    | standing hs' | asked hs' =>
      cases (hs.symm.trans hconnect.symm).trans hs'
      cases (hstep.head.alike hscope).1
    | panicked hs' =>
      cases (hs.symm.trans hconnect.symm).trans hs'
      obtain ⟨heq, hleft, hfirst⟩ := hstep.head.alike hscope
      cases heq
      exact ⟨rfl, hleft, .cons hfirst .nil, rfl⟩

/-! ## Attempts -/

/-- What follows the connect stage of an attempt on thread `t`, with the call that is made, there or on a worker
that is heard of. -/
inductive Context.Calls (c : Context) (inv : Invocation σ) (Q : Pool σ) (es : List (Nat × Deed σ)) (t : Nat)
    (h : Option Context) : Except Payload (Except Failure Unit) → List (Piece σ) → List (Part σ) → Reply →
      Option Context → Prop
  | refused {e : Failure} : Calls c inv Q es t h (.ok (.error e)) [] [] (.error e) h
  | crashed {p : Payload} :
      Calls c inv Q es t h (.error p) [] [] (.error (.text ("invocation " ++ inv.name ++ " panicked"))) h
  | here {L : List (Deed σ)} {o : Except Payload Reply} {h' : Option Context} : c.timeout? = none →
      inv.call.Goes h L o h' →
        Calls c inv Q es t h (.ok (.ok ())) [through inv.call h L o h'] [⟨Reply, inv.call, h, L, o, h'⟩]
          (inv.reply o) h'
  /-- The worker makes the call with the same context attached. -/
  | onWorker {s : TimeoutStrategy} {m : ChannelId} {n : Nat} {L : List (Deed σ)} {o : Except Payload Reply}
      {h' : Option Context} : c.timeout? = some s →
      (⟨t, n, inv.job s.timeout h, some o, some (.ofEnd o)⟩ : Errand σ).Stands Q es m →
      Pool.deedsOf n es = entering h ++ (L ++ leaving h h') → inv.call.Goes h L o h' →
        Calls c inv Q es t h (.ok (.ok ())) (owns [.did (.holder id) h, .started m (inv.job s.timeout h),
          .answered m (Delivery.ofEnd o)]) [⟨Reply, inv.call, h, L, o, h'⟩] (inv.reply o) h

/-- All client code that is run for an attempt on thread `t`, on a worker too, in order. -/
inductive Trial.Shows (net : Network σ) (c : Context) (inv : Invocation σ) (Q : Pool σ) (es : List (Nat × Deed σ))
    (t : Nat) : Trial σ → List (Part σ) → Prop
  | stages {h h₁ h' : Option Context} {ps qs : List (Piece σ)} {q : Except Payload (Except Failure Unit)}
      {ys : List (Part σ)} {reply : Reply} : c.Connecting net h ps q h₁ → c.Calls inv Q es t h₁ q qs ys reply h' →
        Shows net c inv Q es t ⟨h, ps ++ qs, reply, h'⟩ (partsIn ps ++ ys)

/-- A call leaves its thread as it found it. -/
def Part.Leaves (inv : Invocation σ) (y : Part σ) : Prop :=
  ∀ ⦃h h' : Option Context⦄ ⦃L : List (Deed σ)⦄ ⦃o : Except Payload Reply⦄, y = ⟨Reply, inv.call, h, L, o, h'⟩ → h' = h

theorem Context.Calls.alike {q : Except Payload (Except Failure Unit)} {qs qs' : List (Piece σ)}
    {ys ys' : List (Part σ)} {reply reply' : Reply} (hc : c.timeout? = none) {s : TimeoutStrategy}
    (hc' : c'.timeout? = some s) (hqs : c.Calls inv Q es t h q qs ys reply h₁)
    (hqs' : c'.Calls inv Q' es' t' h' q qs' ys' reply' h₁') (hscope : SameScope h h') (hstep : InStep ys ys')
    (hleaves : ∀ y ∈ ys, y.Leaves inv) :
    reply = reply' ∧ SameScope h₁ h₁' ∧ List.Forall₂ Part.Alike ys ys' ∧ pausesIn qs = pausesIn qs' := by
  cases hqs with
  | refused =>
    cases hqs'
    exact ⟨rfl, hscope, .nil, rfl⟩
  | crashed =>
    cases hqs'
    exact ⟨rfl, hscope, .nil, rfl⟩
  | onWorker hs => cases hc.symm.trans hs
  | here =>
    cases hqs' with
    | here hs => cases hc'.symm.trans hs
    | onWorker =>
      obtain ⟨rfl, hleft, hfirst⟩ := hstep.head.alike hscope
      obtain rfl := hleaves _ (List.mem_singleton_self _) rfl
      exact ⟨rfl, hscope, .cons hfirst .nil, rfl⟩

theorem Trial.Shows.alike {a a' : Trial σ} {ys ys' : List (Part σ)} {s : TimeoutStrategy}
    (hconnect : c'.connect? = c.connect?) (hc : c.timeout? = none) (hc' : c'.timeout? = some s)
    (ha : a.Shows net c inv Q es t ys) (ha' : a'.Shows net c' inv Q' es' t' ys')
    (hscope : SameScope a.holder a'.holder) (hstep : InStep ys ys') (hleaves : ∀ y ∈ ys, y.Leaves inv) :
    a.Like a' ∧ SameScope a.left a'.left ∧ List.Forall₂ Part.Alike ys ys' := by
  obtain ⟨hps, hqs⟩ := ha
  obtain ⟨hps', hqs'⟩ := ha'
  obtain ⟨rfl, hconnected, hasked, hpauses⟩ := hps.alike hconnect hps' hscope hstep.left
  obtain ⟨rfl, hleft, hcalled, hpauses'⟩ :=
    hqs.alike hc hc' hqs' hconnected (hstep.right hasked) fun y hy => hleaves y (List.mem_append_right _ hy)
  exact ⟨⟨rfl, by rw [pausesIn_append, pausesIn_append, hpauses, hpauses']⟩, hleft, List.rel_append hasked hcalled⟩

/-! ## Attempts in a row -/

/-- The attempts of two requests keep in step, as long as they have done so before. -/
abbrev AttemptsInStep (yss yss' : List (List (Part σ))) : Prop := Lockstep InStep (List.Forall₂ Part.Alike) yss yss'

theorem exists_append_of_forall₂ {α β : Type*} {R : α → β → Prop} {as as' : List α} {bs : List β}
    (h : List.Forall₂ R (as ++ as') bs) :
    ∃ bs₁ bs₂, bs = bs₁ ++ bs₂ ∧ List.Forall₂ R as bs₁ ∧ List.Forall₂ R as' bs₂ :=
  ⟨_, _, (List.take_append_drop as.length bs).symm, by simpa using List.forall₂_take as.length h,
    by simpa using List.forall₂_drop as.length h⟩

section Rows

variable {s : TimeoutStrategy} (hconnect : c'.connect? = c.connect?) (hc : c.timeout? = none)
  (hc' : c'.timeout? = some s)
include hconnect hc hc'

theorem Retried.alike {n : Nat} {e : Failure} {as as' : List (Trial σ)} {reply reply' : Reply}
    {yss yss' : List (List (Part σ))} (has : Retried net c inv n e h as reply h₁)
    (has' : Retried net c' inv n e h' as' reply' h₁') (hyss : List.Forall₂ (Trial.Shows net c inv Q es t) as yss)
    (hyss' : List.Forall₂ (Trial.Shows net c' inv Q' es' t') as' yss') (hscope : SameScope h h')
    (hstep : AttemptsInStep yss yss') (hleaves : ∀ ys ∈ yss, ∀ y ∈ ys, y.Leaves inv) :
    reply = reply' ∧ SameScope h₁ h₁' ∧ List.Forall₂ (List.Forall₂ Part.Alike) yss yss' ∧
      List.Forall₂ Trial.Like as as' := by
  -- An attempt that comes to the same reply is followed by another one in both, or in neither.
  induction has generalizing as' h' yss yss' with
  | spent =>
    cases has'
    cases hyss
    cases hyss'
    exact ⟨rfl, hscope, .nil, .nil⟩
  | success ha hv =>
    obtain _ | ⟨hys, hmore⟩ := hyss
    cases hmore
    cases has' with
    | success ha' hv' =>
      obtain _ | ⟨hys', hmore'⟩ := hyss'
      cases hmore'
      obtain ⟨hlike, hleft, hparts⟩ :=
        hys.alike hconnect hc hc' hys' hscope hstep.head (hleaves _ (List.mem_singleton_self _))
      exact ⟨by rw [← hv, hlike.1, hv'], hleft, .cons hparts .nil, .cons hlike .nil⟩
    | failure ha' he' =>
      obtain _ | ⟨hys', hmore'⟩ := hyss'
      obtain ⟨hlike, -⟩ := hys.alike hconnect hc hc' hys' hscope hstep.head (hleaves _ (List.mem_singleton_self _))
      cases hv.symm.trans (hlike.1.trans he')
  | failure ha he hrest ih =>
    obtain _ | ⟨hys, hmore⟩ := hyss
    have hfirst := hleaves _ (List.mem_cons_self ..)
    cases has' with
    | success ha' hv' =>
      obtain _ | ⟨hys', hmore'⟩ := hyss'
      obtain ⟨hlike, -⟩ := hys.alike hconnect hc hc' hys' hscope hstep.head hfirst
      cases he.symm.trans (hlike.1.trans hv')
    | failure ha' he' hrest' =>
      obtain _ | ⟨hys', hmore'⟩ := hyss'
      obtain ⟨hlike, hleft, hparts⟩ := hys.alike hconnect hc hc' hys' hscope hstep.head hfirst
      cases he.symm.trans (hlike.1.trans he')
      obtain ⟨rfl, hlast, hpartss, hlikes⟩ :=
        ih hrest' hmore hmore' hleft (hstep.tail hparts) fun zs hzs => hleaves zs (List.mem_cons_of_mem _ hzs)
      exact ⟨rfl, hlast, .cons hparts hpartss, .cons hlike hlikes⟩

theorem Recovered.alike {ps : List RetryPolicy} {first reply reply' : Reply} {ss ss' : List (Spell σ)}
    {yss yss' : List (List (Part σ))} (hss : Recovered net c inv ps first h ss reply h₁)
    (hss' : Recovered net c' inv ps first h' ss' reply' h₁')
    (hyss : List.Forall₂ (Trial.Shows net c inv Q es t) (ss.flatMap Spell.trials) yss)
    (hyss' : List.Forall₂ (Trial.Shows net c' inv Q' es' t') (ss'.flatMap Spell.trials) yss')
    (hscope : SameScope h h') (hstep : AttemptsInStep yss yss') (hleaves : ∀ ys ∈ yss, ∀ y ∈ ys, y.Leaves inv) :
    reply = reply' ∧ SameScope h₁ h₁' ∧ List.Forall₂ (List.Forall₂ Part.Alike) yss yss' ∧
      List.Forall₂ Spell.Like ss ss' := by
  induction hss generalizing ss' h' yss yss' with
  | spent =>
    cases hss'
    cases hyss
    cases hyss'
    exact ⟨rfl, hscope, .nil, .nil⟩
  | stop =>
    cases hss'
    cases hyss
    cases hyss'
    exact ⟨rfl, hscope, .nil, .nil⟩
  | @spell ps e s ss reply h₁ h₂ has hrest ih =>
    generalize hp : s.policy = p at hss'
    cases hss' with
    | @spell _ _ s' _ _ _ _ has' hrest' =>
      rw [hp] at has
      rw [List.flatMap_cons] at hyss hyss'
      obtain ⟨zss, yss, rfl, hzss, hyss⟩ := exists_append_of_forall₂ hyss
      obtain ⟨zss', yss', rfl, hzss', hyss'⟩ := exists_append_of_forall₂ hyss'
      obtain ⟨hreply, hleft, hparts, htrials⟩ := has.alike hconnect hc hc' has' hzss hzss' hscope hstep.left
        fun ys hys => hleaves ys (List.mem_append_left _ hys)
      rw [hreply] at ih
      obtain ⟨rfl, hlast, hmore, hspells⟩ := ih hrest' hyss hyss' hleft (hstep.right hparts)
        fun ys hys => hleaves ys (List.mem_append_right _ hys)
      exact ⟨rfl, hlast, List.rel_append hparts hmore, .cons ⟨hp, htrials, hreply⟩ hspells⟩

end Rows

/-! ## Requests -/

theorem Requester.Concludes.alike {scope : String} {outcome : Outcome} {ps ps' : List (Piece σ)} {q q' : Result}
    {event event' : Option RequestEvent} (hps : r.Concludes scope h outcome ps q event h₁)
    (hps' : r.Concludes scope h' outcome ps' q' event' h₁')
    (hconvert : ∀ {e : Failure} {g g' : Option Context} {L L' : List (Deed σ)} {o o' : Except Payload RpcError},
      through (r.convert e) h L o g ∈ ps → through (r.convert e) h' L' o' g' ∈ ps' → o = o') :
    q = q' ∧ event = event' := by
  cases hps with
  | success | recovered =>
    cases hps'
    exact ⟨rfl, rfl⟩
  | failed =>
    cases hps' with
    | failed =>
      cases hconvert (List.mem_cons_self ..) (List.mem_cons_self ..)
      exact ⟨rfl, rfl⟩
    | panicked => cases hconvert (List.mem_cons_self ..) (List.mem_cons_self ..)
  | panicked =>
    cases hps' with
    | failed => cases hconvert (List.mem_cons_self ..) (List.mem_cons_self ..)
    | panicked =>
      cases hconvert (List.mem_cons_self ..) (List.mem_cons_self ..)
      exact ⟨rfl, rfl⟩

namespace Course

/-- The course of a request that thread `t` makes, with `h` attached, in a run with the steps `es`. -/
structure Taken (net : Network σ) (r : Requester σ) (inv : Invocation σ) (t : Nat) (h : Option Context)
    (es : List (Nat × Deed σ)) (x : Course σ) : Prop where
  of : x.Of net r inv
  holder : x.holder = h
  deeds : deedsIn (x.pieces r inv) = Pool.deedsOf t es

/-- Such a course with all client code that is run for each of its attempts; `es₀` are the steps before. -/
structure Recounted (net : Network σ) (r : Requester σ) (inv : Invocation σ) (t : Nat) (h : Option Context)
    (es₀ es : List (Nat × Deed σ)) (Q : Pool σ) (x : Course σ) (yss : List (List (Part σ))) : Prop where
  taken : x.Taken net r inv t h es
  shows : List.Forall₂ (Trial.Shows net (x.base.withScope inv.name) inv Q (es₀ ++ es) t) x.trials yss

/-- The client code of two requests is consistent: each piece of it comes to the same end in both, as long as all
before was alike and the same scope is visible. The calls of the first request leave their thread as they find it. -/
structure Consistent (r : Requester σ) (inv : Invocation σ) (x : Course σ) (yss : List (List (Part σ)))
    (x' : Course σ) (yss' : List (List (Part σ))) : Prop where
  attempts : AttemptsInStep yss yss'
  leaves : ∀ ys ∈ yss, ∀ y ∈ ys, y.Leaves inv
  conversion : ∀ ⦃e : Failure⦄ ⦃h h₁ h' h₁' : Option Context⦄ ⦃L L' : List (Deed σ)⦄ ⦃o o' : Except Payload RpcError⦄,
    through (r.convert e) h L o h₁ ∈ x.conclusion → through (r.convert e) h' L' o' h₁' ∈ x'.conclusion →
      SameScope h h' → o = o'

/-- Two requests that a caller cannot tell apart. -/
structure Indistinct (r : Requester σ) (inv : Invocation σ) (x : Course σ) (yss : List (List (Part σ)))
    (x' : Course σ) (yss' : List (List (Part σ))) : Prop where
  result : x'.result = x.result
  event : x'.event = x.event
  /-- In each attempt the same client code is run, under the same scope, and comes to the same end. -/
  client : List.Forall₂ (List.Forall₂ Part.Alike) yss yss'
  /-- Each attempt comes to the same reply, with the same pauses on the way. -/
  attempts : List.Forall₂ Trial.Like x.trials x'.trials
  /-- The handlers that are called in, each with the number of its retries. -/
  handlers : x'.spells.map (fun s => (s.policy, s.trials.length)) = x.spells.map fun s => (s.policy, s.trials.length)
  pauses : pausesIn (x'.pieces r inv) = pausesIn (x.pieces r inv)

theorem pausesIn_recovery_of_like {ss ss' : List (Spell σ)} {reply : Reply} (hlike : List.Forall₂ Spell.Like ss ss') :
    pausesIn (recovery r c inv ss reply) = pausesIn (recovery r c' inv ss' reply) := by
  rw [← pausesIn_recovery hlike]
  have hannouncing : ∀ (c : Context) (e : Failure), pausesIn (owns (announcing r c e) : List (Piece σ)) = [] :=
    fun c e => by unfold announcing; split <;> rfl
  cases reply with
  | ok v => rfl
  | error e => rw [recovery, recovery, pausesIn_append, pausesIn_append, hannouncing, hannouncing]

section Bounded

variable {x x' : Course σ} {s : TimeoutStrategy} {es₀ es₀' : List (Nat × Deed σ)} {yss yss' : List (List (Part σ))}

/-- **Attempt by attempt.** The courses of a request under a context without a timeout strategy and under the same
context with one cannot be told apart, if the client code in them is consistent. -/
theorem alike (hx : x.Recounted net r inv t h es₀ es Q yss) (hx' : x'.Recounted net r inv t' h' es₀' es' Q' yss')
    (hc : x.base.timeout? = none) (hbase : x'.base = x.base.withStrategy (.timeout s))
    (hclient : Consistent r inv x yss x' yss') : Indistinct r inv x yss x' yss' := by
  obtain ⟨⟨hof, -, -⟩, hshows⟩ := hx
  obtain ⟨⟨hof', -, -⟩, hshows'⟩ := hx'
  obtain ⟨h₂, hrecovered, hconclude⟩ := hof.rest
  obtain ⟨h₂', hrecovered', hconclude'⟩ := hof'.rest
  have hconnect : (x'.base.withScope inv.name).connect? = (x.base.withScope inv.name).connect? := by
    simp [hbase, Context.connect?, Context.get?_withStrategy, Strategy.kind]
  have hbound : (x'.base.withScope inv.name).timeout? = some s := by
    simp [hbase, Context.timeout?, Context.get?_withStrategy, Strategy.kind]
  have hordered :
      FailoverChain.ordered (x'.base.withScope inv.name) = FailoverChain.ordered (x.base.withScope inv.name) := by
    simp [hbase, FailoverChain.ordered, FailoverChain.policies, Context.retry?, Context.failover?,
      Context.get?_withStrategy, Strategy.kind]
  rw [hordered] at hrecovered'
  obtain _ | @⟨_, ys, _, yss, hfirst, hmore⟩ := hshows
  obtain _ | @⟨_, ys', _, yss', hfirst', hmore'⟩ := hshows'
  have hscope : SameScope x.first.holder x'.first.holder := by
    rw [hof.holder, hof'.holder]
    rfl
  obtain ⟨hlike, hleft, hparts⟩ := hfirst.alike hconnect hc hbound hfirst' hscope hclient.attempts.head
    (hclient.leaves ys (List.mem_cons_self ..))
  rw [← hlike.1] at hrecovered'
  obtain ⟨hlast, hleft', hpartss, hspells⟩ := hrecovered.alike hconnect hc hbound hrecovered' hmore hmore' hleft
    (hclient.attempts.tail hparts) fun zs hzs => hclient.leaves zs (List.mem_cons_of_mem ys hzs)
  obtain ⟨hlength, hhandlers⟩ := length_trials hspells
  have houtcome : x'.outcome = x.outcome := by rw [outcome, outcome, retries, retries, hlength, hlast]
  rw [houtcome] at hconclude'
  obtain ⟨hresult, hevent⟩ := hconclude.alike hconclude' fun hconvert hconvert' =>
    hclient.conversion hconvert hconvert' hleft'
  have htrials : List.Forall₂ Trial.Like (x.spells.flatMap Spell.trials) (x'.spells.flatMap Spell.trials) :=
    List.rel_flatMap hspells fun _ _ hspell => hspell.2.1
  refine ⟨hresult.symm, hevent.symm, .cons hparts hpartss, .cons hlike htrials, hhandlers.symm, ?_⟩
  rw [pausesIn_pieces hof, pausesIn_pieces hof', hlike.2, hlike.1, pausesIn_recovery_of_like hspells]

end Bounded

end Course

/-! ## How long a worker is waited for -/

section Waiting

variable {α β : Type}

theorem Thread.Does.deadline {x y : Thread σ α} {now : Nat} {e : Deed σ} {h c : Option Context} {body : Program σ β}
    {bound : Option Duration} {k : Delivery β → Program σ α} {m : ChannelId} {deadline : Moment}
    (hdoes : x.Does now e y) (hy : y = ⟨h, .worker c body bound k, .receiving m deadline⟩) :
    deadline = .afterWait now bound := by
  cases hdoes with
  | start =>
    cases hy
    rfl
  | @act β h h' a b k w w' hstep =>
    have hstage : a.stageAfter b = .receiving m deadline := congrArg Thread.stage hy
    rcases stageAfter_cases a b with hready | ⟨i, hwaking⟩
    · cases hready.symm.trans hstage
    · cases hwaking.symm.trans hstage
  | _ => cases congrArg Thread.stage hy

namespace Pool

variable {P Q : Pool σ} {t : Nat} {es : List (Nat × Deed σ)} {w : World σ}
  {threads : List ((α : Type) × Program σ α × Option Context)}

theorem Step.clock_le {e : Deed σ} (hstep : P.Step t e Q) : P.world.clock ≤ Q.world.clock := by
  cases hstep with
  | does ht hdoes hallows =>
    cases hallows with
    | @did β a b h' w' hact =>
      cases a with
      | settle i outcome =>
        simp only [Action.step] at hact
        split at hact <;> cases hact <;> exact Nat.le_refl _
      | _ =>
        cases hact
        exact Nat.le_refl _
    | _ => exact Nat.le_refl _
  | finishes => exact Nat.le_refl _

theorem Runs.clock_le (hrun : P.Runs es Q) : P.world.clock ≤ Q.world.clock := by
  induction hrun with
  | refl => exact Nat.le_refl _
  | step _ hstep ih => exact Nat.le_trans ih hstep.clock_le
  | wait n _ ih => exact Nat.le_trans ih (Nat.le_add_right _ n)

theorem Runs.deadline {h c : Option Context} {body : Program σ β} {bound : Option Duration}
    {k : Delivery β → Program σ α} {m : ChannelId} {deadline : Moment} {sender : Option ChannelId}
    (hrun : (start w threads).Runs es Q)
    (ht : Q.threads[t]? = some ⟨α, sender, ⟨h, .worker c body bound k, .receiving m deadline⟩⟩) :
    ∃ now, w.clock ≤ now ∧ deadline = .afterWait now bound := by
  induction hrun generalizing sender with
  | refl =>
    obtain ⟨x, -, hx⟩ := getElem?_start ht
    cases congrArg (fun m : Member σ => m.thread.stage) hx
  | @step es P Q u e hrun hstep ih =>
    cases hstep with
    | does hu hdoes hallows =>
      rcases getElem?_of_set_append ht with ⟨rfl, heq⟩ | ⟨-, ht⟩ | ⟨-, hoff⟩
      · cases heq
        exact ⟨P.world.clock, hrun.clock_le, hdoes.deadline rfl⟩
      · exact ih ht
      · obtain ⟨-, m', job', -, heq⟩ := Deed.getElem?_offspring hoff
        cases congrArg (fun x : Member σ => x.thread.stage) heq
    | finishes hu hover =>
      rcases getElem?_of_set ht with ⟨rfl, heq⟩ | ⟨-, ht⟩
      · cases heq
        cases hover
      · exact ih ht
  | wait n _ ih => exact ih ht

theorem Runs.bound_le {job : Job σ} {d : Duration} {m : ChannelId} (hrun : (start w threads).Runs es Q)
    (hstarted : (t, .started m job) ∈ es) (hanswered : (t, .answered m (.elapsed : Delivery β)) ∈ es)
    (hbound : job.bound = some d) : w.clock + d.nanos ≤ Q.world.clock := by
  -- The deadline was set with the bound of the job that this channel was opened for, and there is one such job only.
  have hjob : ∀ job', (t, .started m job') ∈ es → job' = job := fun job' hstarted' => by
    have hmem : ∀ j, (t, .started m j) ∈ es → (t, .started m j) ∈ stepsOn m es := fun j hj =>
      List.mem_filter.2 ⟨hj, by simp [Deed.channel?]⟩
    rcases hrun.errand m with hunused | ⟨l, hl⟩
    · have hnone := hmem _ hstarted
      rw [hunused.steps] at hnone
      cases hnone
    · have hfirst : job = l.job := (Errand.mem_steps_started (hl.steps ▸ hmem _ hstarted)).2
      have hother : job' = l.job := (Errand.mem_steps_started (hl.steps ▸ hmem _ hstarted')).2
      rw [hfirst, hother]
  obtain ⟨before, after, rfl⟩ := List.append_of_mem hanswered
  obtain ⟨P₁, P₂, hbefore, hstep, hafter⟩ := hrun.step_of_mem
  have hwaited : P₁.Receives t m job := by
    obtain ⟨job', -, hreceives, -⟩ := hstep.answered
    rcases hbefore.errand m with hunused | ⟨l, hl⟩
    · exact absurd hreceives hunused.receiver
    · obtain ⟨rfl, rfl, -⟩ := hl.receiver hreceives
      have hstart : (l.caller, .started m l.job) ∈ before := by
        refine (List.mem_filter.1 (?_ : _ ∈ stepsOn m before)).1
        rw [hl.steps]
        exact List.mem_cons_self ..
      rwa [← hjob _ (List.mem_append_left _ hstart)]
  obtain ⟨α, sender, h, k, deadline, ht⟩ := hwaited
  obtain ⟨now, hnow, rfl⟩ := hbefore.deadline ht
  have hpassed : (Moment.afterWait now job.bound).Passed P₁.world.clock := by
    cases hstep with
    | does hu hdoes hallows =>
      cases ht.symm.trans hu
      cases hdoes with
      | receive hlate => exact hlate rfl
  obtain ⟨T, hT, hle⟩ := hpassed
  have hlast : P₁.world.clock ≤ Q.world.clock := Nat.le_trans hstep.clock_le hafter.clock_le
  obtain ⟨-, hdeadline⟩ : d.elapses = true ∧ now + d.nanos = T := by simpa [hbound, Moment.afterWait] using hT
  omega

end Pool
end Waiting

/-! ## In a pool -/

section Runs

variable {P P' : Pool σ} {w w' : World σ} {threads threads' : List ((α : Type) × Program σ α × Option Context)}
  {es₀ es₀' : List (Nat × Deed σ)} {res res' : Requester.Result}

/-- No attempt of the request is given up for being late. -/
def Course.InTime (x : Course σ) : Prop :=
  ∀ a ∈ x.trials, ∀ m, own (.answered m (.elapsed : Delivery Reply)) ∉ a.pieces

theorem Trial.Of.exists_shows {a : Trial σ} (hbefore : (Pool.start w threads).Runs es₀ P) (hrun : P.Runs es Q)
    (ha : a.Of net c inv) (hdeeds : a.deeds <:+: Pool.deedsOf t es)
    (hintime : c.timeout? = none ∨ ∀ m, own (.answered m (.elapsed : Delivery Reply)) ∉ a.pieces) :
    ∃ ys, a.Shows net c inv Q (es₀ ++ es) t ys := by
  have : Inhabited σ := ⟨w.user⟩
  obtain @⟨h, h₁, h', ps, qs, q, reply, hps, -, hqs⟩ := ha
  cases hqs with
  | refused => exact ⟨_, .stages hps .refused⟩
  | crashed => exact ⟨_, .stages hps .crashed⟩
  | called hs hgoes => exact ⟨_, .stages hps (.here hs hgoes)⟩
  | @bounded s m d hs =>
    have hmem : ∀ e ∈ [.did (.holder id) h₁, .started m (inv.job s.timeout h₁), .answered m d], (t, e) ∈ es := by
      refine fun e he => Pool.mem_of_mem_deedsOf (hdeeds.mem ?_)
      rw [Trial.deeds, deedsIn_append, deedsIn_owns]
      exact List.mem_append_right _ (List.mem_append_left _ he)
    have hd : d ≠ .elapsed := by
      rintro rfl
      rcases hintime with hnone | hintime
      · cases hnone.symm.trans hs
      · exact hintime m (List.mem_append_right _ (List.mem_map_of_mem (by simp)))
    obtain ⟨n, o, g, rfl, hsince, hl, hworked⟩ := hbefore.exists_worker hrun
      (hmem (.started m (inv.job s.timeout h₁)) (by simp)) (hmem (.answered m d) (by simp)) hd
    obtain ⟨L, h₂, hdeeds', hcall⟩ := goes_underContext hworked
    have hworker : Pool.deedsOf n (es₀ ++ es) = entering h₁ ++ (L ++ leaving h₁ h₂) := by
      rw [Pool.deedsOf_append, hbefore.deedsOf_eq_nil hsince, List.nil_append, hdeeds']
    have hcalls := Context.Calls.onWorker (t := t) hs hl hworker hcall
    cases o <;> exact ⟨_, .stages hps hcalls⟩

theorem Course.Taken.infix_deeds {x : Course σ} {a : Trial σ} (hx : x.Taken net r inv t h es) (ha : a ∈ x.trials) :
    a.deeds <:+: Pool.deedsOf t es := by
  rw [← hx.deeds]
  exact Piece.infix_deedsIn ((Course.infix_worked hx.of ha).trans (List.suffix_append _ _).isInfix)

theorem Course.Taken.exists_recounted {x : Course σ} (hbefore : (Pool.start w threads).Runs es₀ P)
    (hrun : P.Runs es Q) (hx : x.Taken net r inv t h es) (hintime : x.base.timeout? = none ∨ x.InTime) :
    ∃ yss, x.Recounted net r inv t h es₀ es Q yss := by
  have hall : ∀ a ∈ x.trials, ∃ ys, a.Shows net (x.base.withScope inv.name) inv Q (es₀ ++ es) t ys := fun a ha =>
    (hx.of.of_mem_trials a ha).exists_shows hbefore hrun (hx.infix_deeds ha) (hintime.imp_right fun h => h a ha)
  obtain ⟨yss, hyss⟩ := exists_forall₂ hall
  exact ⟨yss, hx, hyss⟩

/-- The request that does `L` on a thread with `h` attached starts from the context `c`. -/
structure Requester.Finds (r : Requester σ) (h : Option Context) (L : List (Deed σ)) (c : Context) : Prop where
  attached : ∀ c', h = some c' → c' = c
  begins : r.basing h c <+: L

theorem Course.Taken.base_eq {x : Course σ} (hx : x.Taken net r inv t h es)
    (hfinds : r.Finds h (Pool.deedsOf t es) c) : x.base = c := by
  obtain ⟨hof, rfl, hdeeds⟩ := hx
  cases hh : x.holder with
  | some c' => rw [← hof.base c' hh, hfinds.attached c' hh]
  | none =>
    obtain ⟨rest, hrest⟩ := hfinds.begins
    rw [← hdeeds, Course.pieces, deedsIn_append, deedsIn_owns, hh] at hrest
    cases hrest
    rfl

theorem ConnectStrategy.Connecting.channel?_eq_none {s : ConnectStrategy} {left attempt : Nat} {last : Failure}
    {ps : List (Piece σ)} {q : Except Payload (Except Failure Unit)}
    (hps : s.Connecting net left attempt last h ps q h₁) : ∀ e, own e ∈ ps → e.channel? = none := by
  have hpausing : ∀ (d : Duration) (e : Deed σ), own e ∈ owns d.pausing → e.channel? = none := fun d e he => by
    unfold Duration.pausing at he
    split at he <;> simp at he
    rcases he with rfl | rfl | rfl <;> rfl
  induction hps with
  | gaveUp | connected | panicked => simp [Deed.channel?]
  | @failed left attempt last e' _ _ _ _ _ _ _ _ ih =>
    intro e he
    simp only [List.mem_cons, owns_cons, List.cons_append, List.mem_append, reduceCtorEq, false_or, own.injEq] at he
    rcases he with rfl | rfl | he | he
    · rfl
    · rfl
    · split at he
      · exact hpausing _ e he
      · cases he
    · exact ih e he

theorem Trial.Of.exists_started {a : Trial σ} {m : ChannelId} {d : Delivery Reply} (ha : a.Of net c inv)
    (hd : own (.answered m d) ∈ a.pieces) :
    ∃ s h, c.timeout? = some s ∧ own (.started m (inv.job s.timeout h)) ∈ a.pieces := by
  obtain @⟨h, h₁, h', ps, qs, q, reply, hps, -, hqs⟩ := ha
  have hquiet : ∀ e, own e ∈ ps → e.channel? = none := by
    cases hps with
    | unasked | standing | panicked => simp
    | asked _ _ hloop => simpa using hloop.channel?_eq_none
  have hcalling : own (.answered m d) ∈ qs := (List.mem_append.1 hd).resolve_left fun hps => by cases hquiet _ hps
  clear hd
  cases hqs with
  | refused | crashed => cases hcalling
  | called => simp at hcalling
  | @bounded s m' d' hs =>
    refine ⟨s, h₁, hs, List.mem_append_right _ ?_⟩
    obtain rfl : m = m' := by
      cases d' <;> simp [Invocation.reporting] at hcalling <;> exact hcalling.1
    simp

theorem Course.Taken.inTime {x : Course σ} {s : TimeoutStrategy} (hrun : (Pool.start w threads).Runs es Q)
    (hx : x.Taken net r inv t h es) (hs : x.base.timeout? = some s)
    (hclock : Q.world.clock < w.clock + s.timeout.nanos) : x.InTime := by
  intro a ha m hlate
  have hmem : ∀ e, own e ∈ a.pieces → (t, e) ∈ es := fun e he =>
    Pool.mem_of_mem_deedsOf ((hx.infix_deeds ha).mem (List.mem_flatMap.2 ⟨_, he, List.mem_singleton_self e⟩))
  obtain ⟨s', h', hs', hstarted⟩ := (hx.of.of_mem_trials a ha).exists_started hlate
  cases hs'.symm.trans hs
  exact absurd (hrun.bound_le (hmem _ hstarted) (hmem _ hlate) rfl) (Nat.not_le.2 hclock)

theorem Course.Taken.finds {x : Course σ} (hx : x.Taken net r inv t h es) : r.Finds h (Pool.deedsOf t es) x.base := by
  obtain ⟨hof, rfl, hdeeds⟩ := hx
  refine ⟨hof.base, ?_⟩
  rw [← hdeeds, Course.pieces, deedsIn_append, deedsIn_owns]
  exact List.prefix_append _ _

namespace Pool

/-- **A bound that no attempt reaches.** A request under a context without a timeout strategy and one under the same
context with one, in whatever runs: if the client code of both is consistent and no attempt of the second is given
up, both have the same result; they make the same attempts, each with the same client code under the same scope and
with the same reply, and take the same pauses. Both come to an end if the client code does. -/
theorem bound_unnoticed {s : TimeoutStrategy} (hbefore : (start w threads).Runs es₀ P)
    (hbefore' : (start w' threads').Runs es₀' P') (hrequest : P.Through t (r.request net inv) h es res h₁ Q)
    (hrequest' : P'.Through t' (r.request net inv) h' es' res' h₁' Q') (hfinds : r.Finds h (deedsOf t es) c)
    (hfinds' : r.Finds h' (deedsOf t' es') (c.withStrategy (.timeout s))) (hnone : c.timeout? = none)
    (hintime : ∀ x', Course.Taken net r inv t' h' es' x' → x'.InTime)
    (hclient : ∀ x yss x' yss', Course.Recounted net r inv t h es₀ es Q x yss →
      Course.Recounted net r inv t' h' es₀' es' Q' x' yss' → Course.Consistent r inv x yss x' yss') :
    ∃ x yss x' yss', Course.Recounted net r inv t h es₀ es Q x yss ∧
      Course.Recounted net r inv t' h' es₀' es' Q' x' yss' ∧ x.result = res ∧ res' = res ∧ h₁ = h ∧ h₁' = h' ∧
      Course.Indistinct r inv x yss x' yss' ∧
      ∀ others, NetworkEnds others net → inv.call.Ends others → (∀ e, (r.convert e).Ends others) →
        r.ListenersEnd others → (r.request net inv).Ends others := by
  have : Inhabited σ := ⟨w.user⟩
  obtain ⟨x, hof, hholder, rfl, hdeeds, rfl⟩ := course_of_goes hrequest.goes
  obtain ⟨x', hof', hholder', rfl, hdeeds', rfl⟩ := course_of_goes hrequest'.goes
  have hx : x.Taken net r inv t h₁ es := ⟨hof, hholder, hdeeds⟩
  have hx' : x'.Taken net r inv t' h₁' es' := ⟨hof', hholder', hdeeds'⟩
  have hbase : x.base = c := hx.base_eq hfinds
  obtain ⟨yss, hyss⟩ := hx.exists_recounted hbefore hrequest.run (.inl (hbase ▸ hnone))
  obtain ⟨yss', hyss'⟩ := hx'.exists_recounted hbefore' hrequest'.run (.inr (hintime x' hx'))
  have halike : Course.Indistinct r inv x yss x' yss' := Course.alike hyss hyss' (hbase ▸ hnone)
    (by rw [hx'.base_eq hfinds', hbase]) (hclient x yss x' yss' hyss hyss')
  exact ⟨x, yss, x', yss', hyss, hyss', rfl, halike.result, rfl, rfl, halike, fun others => ends_request⟩

end Pool

end Runs

/-! ## Client code without state -/

/-- How the code ends is a matter of the visible scope alone. -/
def Program.Steady {β : Type} (p : Program σ β) : Prop :=
  ∀ ⦃h h' h₁ h₁' : Option Context⦄ ⦃L L' : List (Deed σ)⦄ ⦃o o' : Except Payload β⦄, p.Goes h L o h₁ →
    p.Goes h' L' o' h₁' → SameScope h h' → o = o' ∧ SameScope h₁ h₁'

theorem steady_done {β : Type} (a : β) : (done a : Program σ β).Steady := by
  intro h h' h₁ h₁' L L' o o' hgoes hgoes' hscope
  obtain ⟨-, rfl, rfl⟩ := goes_done.1 hgoes
  obtain ⟨-, rfl, rfl⟩ := goes_done.1 hgoes'
  exact ⟨rfl, hscope⟩

theorem Serves.goes {y : Part σ} (hy : Serves net r inv y) : y.code.Goes y.holder y.deeds y.outcome y.left := by
  cases hy <;> assumption

theorem Trial.Shows.serves {a : Trial σ} {ys : List (Part σ)} (ha : a.Shows net c inv Q es t ys) :
    ∀ y ∈ ys, Serves net r inv y := by
  obtain ⟨hps, hqs⟩ := ha
  refine List.forall_mem_append.2 ⟨fun y hy => hps.fits (client y) (mem_partsIn hy), ?_⟩
  cases hqs with
  | refused | crashed => exact fun y hy => absurd hy List.not_mem_nil
  | here _ hgoes | onWorker _ _ _ hgoes => exact fun y hy => List.mem_singleton.1 hy ▸ .calls hgoes

theorem Requester.Concludes.goes {scope : String} {outcome : Outcome} {ps : List (Piece σ)} {q : Result}
    {event : Option RequestEvent} (hps : r.Concludes scope h outcome ps q event h') {y : Part σ}
    (hy : client y ∈ ps) : y.code.Goes y.holder y.deeds y.outcome y.left := by
  have htelling : ∀ {event : RequestEvent} {h : Option Context} {xs : List (Part σ)},
      Told event r.listeners h xs h' → client y ∈ xs.map client →
        y.code.Goes y.holder y.deeds y.outcome y.left := fun htold hmem => by
    obtain ⟨y', hy', heq⟩ := List.mem_map.1 hmem
    cases heq
    obtain ⟨l, -, g, L, o, g', rfl, hgoes⟩ := htold.exists_goes hy'
    exact hgoes
  cases hps with
  | success htold | recovered htold => exact htelling htold (by simpa using hy)
  | failed hgoes htold =>
    rcases List.mem_cons.1 hy with heq | hy
    · cases heq
      exact hgoes
    · exact htelling htold (by simpa using hy)
  | panicked hgoes =>
    cases List.mem_singleton.1 hy
    exact hgoes

theorem Course.Recounted.consistent {x x' : Course σ} {yss yss' : List (List (Part σ))}
    {es₀ es₀' : List (Nat × Deed σ)} (hx : x.Recounted net r inv t h es₀ es Q yss)
    (hx' : x'.Recounted net r inv t' h' es₀' es' Q' yss') (hsteady : ∀ y, Serves net r inv y → y.code.Steady)
    (hleaves : ∀ ⦃h h' : Option Context⦄ ⦃L : List (Deed σ)⦄ ⦃o : Except Payload Reply⦄,
      inv.call.Goes h L o h' → h' = h) : Course.Consistent r inv x yss x' yss' := by
  have hserves : ∀ ys ∈ yss, ∀ y ∈ ys, Serves net r inv y := fun ys hys => by
    obtain ⟨a, ha⟩ := exists_of_mem_right hx.shows ys hys
    exact ha.serves
  have hserves' : ∀ ys ∈ yss', ∀ y ∈ ys, Serves net r inv y := fun ys hys => by
    obtain ⟨a, ha⟩ := exists_of_mem_right hx'.shows ys hys
    exact ha.serves
  obtain ⟨h₂, -, hconclude⟩ := hx.taken.of.rest
  obtain ⟨h₂', -, hconclude'⟩ := hx'.taken.of.rest
  refine ⟨.of_forall fun ys hys ys' hys' => .of_forall fun y hy y' hy' => ?_, fun ys hys y hy => ?_, ?_⟩
  · rintro β p g g' g₁ g₁' L L' o o' rfl rfl
    exact hsteady _ (hserves ys hys _ hy) (hserves ys hys _ hy).goes (hserves' ys' hys' _ hy').goes
  · rintro g g' L o rfl
    exact hleaves (hserves ys hys _ hy).goes
  · intro e g g₁ g' g₁' L L' o o' hconvert hconvert' hscope
    have hgoes : (r.convert e).Goes g L o g₁ := hconclude.goes hconvert
    have hgoes' : (r.convert e).Goes g' L' o' g₁' := hconclude'.goes hconvert'
    exact (hsteady _ (.converts hgoes) hgoes hgoes' hscope).1

namespace Pool

/-- A network whose connections never stand, but can be made. -/
def reconnecting : Network Unit := fun _ => ⟨return false, fun _ => return .ok ()⟩

/-- A call that panics with the scope that it sees. -/
def panicky : Invocation Unit := ⟨"getBlock", [], (currentScope "").bind fun scope => unwind (.text scope)⟩

/-- A context that asks for connections and for retries. -/
def persistent : Context :=
  ⟨"client", [.connect ⟨"node", 0, 3, .zero, by decide, by decide⟩,
    .retry ⟨2, .ofNanos 17 (by decide), Nat.two_pos⟩]⟩

/-- A bound that takes longer than all of that. -/
def amply : TimeoutStrategy := ⟨.ofNanos 1000 (by decide), by decide⟩

theorem steady_panicky {y : Part Unit} (hy : Serves reconnecting Requester.plain panicky y) : y.code.Steady := by
  cases hy with
  | asks | connects | converts => exact steady_done _
  | calls =>
    intro h h' h₁ h₁' L L' o o' hgoes hgoes' hscope
    obtain ⟨L₁, -, hpanic⟩ := (makes_currentScope "").bind.1 hgoes
    obtain ⟨L₁', -, hpanic'⟩ := (makes_currentScope "").bind.1 hgoes'
    obtain ⟨-, rfl, rfl⟩ := goes_unwind.1 hpanic
    obtain ⟨-, rfl, rfl⟩ := goes_unwind.1 hpanic'
    exact ⟨by rw [hscope], hscope⟩

theorem ends_panicky : (Requester.plain.request reconnecting panicky).Ends nobody :=
  ends_request (fun _ => ⟨fun _ _ => rfl, fun _ _ _ => rfl⟩) (fun _ _ => rfl) (fun _ _ _ => rfl)
    (List.forall_mem_nil _)

/-- All attempts panic, with and without the bound. -/
theorem bound_unnoticed_panicking :
    let p := Requester.plain.request reconnecting panicky
    let bounded := persistent.withStrategy (.timeout amply)
    let P := start (World.start ()) [⟨_, p, some persistent⟩]
    let P' := start (World.start ()) [⟨_, p, some bounded⟩]
    ∃ res es Q es' Q' x yss x' yss', P.Through 0 p (some persistent) es res (some persistent) Q ∧
      P'.Through 0 p (some bounded) es' res (some bounded) Q' ∧
      Course.Recounted reconnecting Requester.plain panicky 0 (some persistent) [] es Q x yss ∧
      Course.Recounted reconnecting Requester.plain panicky 0 (some bounded) [] es' Q' x' yss' ∧ x.result = res ∧
      Course.Indistinct Requester.plain panicky x yss x' yss' := by
  intro p bounded P P'
  obtain ⟨res, hres⟩ := end?_of_isEnd (ends_panicky (some persistent) (World.start ()))
  obtain ⟨res', hres'⟩ := end?_of_isEnd (ends_panicky (some bounded) (World.start ()))
  obtain ⟨es, Q, hthrough, -, -⟩ := exists_through (P := P) (t := 0) (p := p) rfl (alike_refl _) hres
  obtain ⟨es', Q', hthrough', halike, -⟩ := exists_through (P := P') (t := 0) (p := p) rfl (alike_refl _) hres'
  have hclock : Q'.world.clock = 34 := by
    rw [halike.clock]
    decide +kernel
  have hfinds : ∀ {c : Context} {h : Option Context} {es : List (Nat × Deed Unit)} {res : Requester.Result}
      {Q : Pool Unit}, (start (World.start ()) [⟨_, p, some c⟩]).Through 0 p (some c) es res h Q →
        Requester.plain.Finds (some c) (deedsOf 0 es) c := fun {c h es res Q} hthrough => by
    obtain ⟨x, hof, hholder, -, hdeeds, -⟩ := course_of_goes hthrough.goes
    have hx : x.Taken reconnecting Requester.plain panicky 0 (some c) es := ⟨hof, hholder, hdeeds⟩
    exact (hof.base c hholder) ▸ hx.finds
  have hintime : ∀ x : Course Unit, x.Taken reconnecting Requester.plain panicky 0 (some bounded) es' →
      x.InTime := fun x hx => by
    refine hx.inTime (s := amply) hthrough'.run ?_ (by rw [hclock]; decide)
    rw [← hx.of.base bounded hx.holder]
    rfl
  obtain ⟨x, yss, x', yss', hx, hx', hresult, rfl, hleft, hleft', halike, -⟩ := bound_unnoticed .refl .refl hthrough
    hthrough' (hfinds hthrough) (hfinds hthrough') rfl hintime fun x yss x' yss' hx hx' =>
      hx.consistent hx' (fun y => steady_panicky) fun h h' L o hgoes => by
        obtain ⟨L₁, -, hpanic⟩ := (makes_currentScope "").bind.1 hgoes
        exact (goes_unwind.1 hpanic).2.2
  rw [hleft] at hthrough
  rw [hleft'] at hthrough'
  exact ⟨res', es, Q, es', Q', x, yss, x', yss', hthrough, hthrough', hx, hx', hresult, halike⟩

end Pool

end ResilientCalls
