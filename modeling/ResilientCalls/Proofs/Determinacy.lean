import Mathlib.Data.List.Forall2
import ResilientCalls.Proofs.Derivations
import ResilientCalls.Proofs.RequestCourse

/-!
# What determines a request

Two courses of a request that start from one context, or from contexts that resolve alike, differ in nothing that
matters as long as client code answers alike in both: they make the same attempts with the same pauses under the
same handlers, and end the same way (`Course.determined_of_alike`). Each part of a course is compared with its
counterpart, the answers of client code in the one against those in the other.
-/

namespace ResilientCalls

open Program
open Piece

variable {σ : Type} {net : Network σ} {r : Requester σ} {inv : Invocation σ} {c : Context}
  {h h' h₁ h₁' : Option Context} {L : List (Deed σ)}

/-! ## Answers and pauses -/

/-- What a thread learns in a piece from outside the library. -/
def Piece.answer? : Piece σ → Option ((β : Type) × Except Payload β)
  | client x => some ⟨x.Value, x.outcome⟩
  | own (@Deed.answered _ β _ d) => some ⟨Delivery β, .ok d⟩
  | own _ => none

/-- The pause that a thread makes. -/
def Deed.pause? : Deed σ → Option Duration
  | .did (.record (.paused d)) _ => some d
  | _ => none

namespace Piece

/-- The answers of client code, of workers too, in order. -/
def answersIn (ps : List (Piece σ)) : List ((β : Type) × Except Payload β) := ps.filterMap answer?

/-- The pauses that the library makes, in order. -/
def pausesIn (ps : List (Piece σ)) : List Duration := (ownIn ps).filterMap Deed.pause?

variable {ps qs : List (Piece σ)} {e : Deed σ} {x : Part σ}

@[simp] theorem answersIn_append : answersIn (ps ++ qs) = answersIn ps ++ answersIn qs := List.filterMap_append

@[simp] theorem answersIn_client : answersIn (client x :: ps) = ⟨x.Value, x.outcome⟩ :: answersIn ps := rfl

@[simp] theorem answersIn_did {β : Type} (a : Action σ β) (b : β) :
    answersIn (own (.did a b) :: ps) = answersIn ps := rfl

@[simp] theorem answersIn_started (m : ChannelId) (job : Job σ) :
    answersIn (own (.started m job) :: ps) = answersIn ps := rfl

@[simp] theorem answersIn_answered {β : Type} (m : ChannelId) (d : Delivery β) :
    answersIn (own (.answered m d) :: ps) = ⟨Delivery β, .ok d⟩ :: answersIn ps := rfl

@[simp] theorem answersIn_nil : answersIn ([] : List (Piece σ)) = [] := rfl

@[simp] theorem owns_nil : owns ([] : List (Deed σ)) = [] := rfl

@[simp] theorem owns_cons : owns (e :: L) = own e :: owns L := rfl

@[simp] theorem answersIn_pausing (d : Duration) : answersIn (owns d.pausing : List (Piece σ)) = [] := by
  unfold Duration.pausing
  split <;> rfl

@[simp] theorem pausesIn_append : pausesIn (ps ++ qs) = pausesIn ps ++ pausesIn qs := by
  rw [pausesIn, ownIn_append, List.filterMap_append]
  rfl

@[simp] theorem pausesIn_own : pausesIn (own e :: ps) = e.pause?.toList ++ pausesIn ps := by
  rw [pausesIn, ownIn_own, List.filterMap_cons]
  cases e.pause? <;> rfl

@[simp] theorem pausesIn_client : pausesIn (client x :: ps) = pausesIn ps := rfl

@[simp] theorem pausesIn_nil : pausesIn ([] : List (Piece σ)) = [] := rfl

end Piece

/-! ## The connect stage -/

theorem ConnectStrategy.Connecting.determined {s : ConnectStrategy} {left attempt : Nat} {last : Failure}
    {ps ps' : List (Piece σ)} {q q' : Except Payload (Except Failure Unit)}
    {T T' : List ((β : Type) × Except Payload β)} (hps : s.Connecting net left attempt last h ps q h₁)
    (hps' : s.Connecting net left attempt last h' ps' q' h₁') (hlike : answersIn ps ++ T = answersIn ps' ++ T') :
    q = q' ∧ T = T' ∧ pausesIn ps = pausesIn ps' := by
  -- Each step of the loop brings one answer, which decides how it goes on.
  induction hps generalizing h' ps' q' with
  | gaveUp =>
    cases hps'
    exact ⟨rfl, hlike, rfl⟩
  | connected =>
    cases hps' with
    | connected => exact ⟨rfl, by simpa using hlike, rfl⟩
    | failed => simp at hlike
    | panicked => simp at hlike
  | @failed left attempt last e h h₁ h₂ L ps q hconnect hrest ih =>
    cases hps' with
    | connected => simp at hlike
    | @failed _ _ _ e' _ _ _ _ ps' _ hconnect' hrest' =>
      obtain ⟨rfl, hmore⟩ : e = e' ∧ answersIn ps ++ T = answersIn ps' ++ T' := by
        split at hlike <;> simpa using hlike
      obtain ⟨rfl, rfl, hpauses⟩ := ih hrest' hmore
      refine ⟨rfl, rfl, ?_⟩
      simp [hpauses]
    | panicked => simp at hlike
  | panicked =>
    cases hps' with
    | connected => simp at hlike
    | failed => simp at hlike
    | panicked =>
      obtain ⟨rfl, rfl⟩ : _ ∧ T = T' := by simpa using hlike
      exact ⟨rfl, rfl, rfl⟩

theorem Context.Connecting.determined {ps ps' : List (Piece σ)} {q q' : Except Payload (Except Failure Unit)}
    {T T' : List ((β : Type) × Except Payload β)} (hps : c.Connecting net h ps q h₁)
    (hps' : c.Connecting net h' ps' q' h₁') (hlike : answersIn ps ++ T = answersIn ps' ++ T') :
    q = q' ∧ T = T' ∧ pausesIn ps = pausesIn ps' := by
  cases hps with
  | unasked hc =>
    cases hps' with
    | unasked => exact ⟨rfl, hlike, rfl⟩
    | standing hs | asked hs | panicked hs => cases hc.symm.trans hs
  | standing hs =>
    cases hps' with
    | unasked hc => cases hc.symm.trans hs
    | standing => exact ⟨rfl, by simpa using hlike, rfl⟩
    | asked | panicked => simp at hlike
  | asked hs hasked hloop =>
    cases hps' with
    | unasked hc => cases hc.symm.trans hs
    | asked hs' hasked' hloop' =>
      cases hs.symm.trans hs'
      simp only [answersIn_client, List.cons_append, List.cons.injEq, true_and] at hlike
      obtain ⟨rfl, rfl, hpauses⟩ := hloop.determined hloop' hlike
      exact ⟨rfl, rfl, by simp [hpauses]⟩
    | standing | panicked => simp at hlike
  | panicked hs =>
    cases hps' with
    | unasked hc => cases hc.symm.trans hs
    | panicked =>
      obtain ⟨rfl, rfl⟩ : _ ∧ T = T' := by simpa using hlike
      exact ⟨rfl, rfl, rfl⟩
    | standing | asked => simp at hlike

/-! ## Attempts -/

/-- The attempts come to the same reply, with the same pauses on the way. -/
def Trial.Like (a a' : Trial σ) : Prop := a.reply = a'.reply ∧ pausesIn a.pieces = pausesIn a'.pieces

theorem Context.Calling.determined {q : Except Payload (Except Failure Unit)} {qs qs' : List (Piece σ)}
    {reply reply' : Reply} (hqs : c.Calling inv h q qs reply h₁) (hqs' : c.Calling inv h' q qs' reply' h₁')
    (hlike : answersIn qs = answersIn qs') : reply = reply' ∧ pausesIn qs = pausesIn qs' := by
  cases hqs with
  | refused =>
    cases hqs'
    exact ⟨rfl, rfl⟩
  | crashed =>
    cases hqs'
    exact ⟨rfl, rfl⟩
  | called hs =>
    cases hqs' with
    | called =>
      obtain rfl : _ = _ := by simpa using hlike
      exact ⟨rfl, rfl⟩
    | bounded hs' => cases hs.symm.trans hs'
  | @bounded s m d hs =>
    cases hqs' with
    | called hs' => cases hs.symm.trans hs'
    | @bounded s' m' d' hs' =>
      cases hs.symm.trans hs'
      obtain rfl : d = d' := by
        simp only [owns_cons, answersIn_did, answersIn_started, answersIn_answered, List.cons.injEq, Sigma.mk.injEq,
          heq_eq_eq, Except.ok.injEq, true_and] at hlike
        exact hlike.1
      -- What is told of a late worker is no pause.
      refine ⟨rfl, ?_⟩
      cases d <;> rfl

theorem Trial.Of.determined {a a' : Trial σ} (ha : a.Of net c inv) (ha' : a'.Of net c inv)
    (hlike : answersIn a.pieces = answersIn a'.pieces) : a.Like a' := by
  obtain ⟨hps, -, hqs⟩ := ha
  obtain ⟨hps', -, hqs'⟩ := ha'
  rw [answersIn_append, answersIn_append] at hlike
  obtain ⟨rfl, hrest, hpauses⟩ := hps.determined hps' hlike
  obtain ⟨rfl, hpauses'⟩ := hqs.determined hqs' hrest
  exact ⟨rfl, by rw [pausesIn_append, pausesIn_append, hpauses, hpauses']⟩

/-! ## Attempts in a row -/

/-- As far as there are attempts in both lists, client code answers alike in them. -/
def AnsweredAlike (as as' : List (Trial σ)) : Prop :=
  ∀ (i : Nat) (a a' : Trial σ), as[i]? = some a → as'[i]? = some a' → answersIn a.pieces = answersIn a'.pieces

theorem AnsweredAlike.tail {a a' : Trial σ} {as as' : List (Trial σ)} (h : AnsweredAlike (a :: as) (a' :: as')) :
    AnsweredAlike as as' :=
  fun i b b' hb hb' => h (i + 1) b b' hb hb'

theorem AnsweredAlike.left {as bs as' bs' : List (Trial σ)} (h : AnsweredAlike (as ++ bs) (as' ++ bs')) :
    AnsweredAlike as as' := by
  intro i a a' ha ha'
  obtain ⟨hi, -⟩ := List.getElem?_eq_some_iff.1 ha
  obtain ⟨hi', -⟩ := List.getElem?_eq_some_iff.1 ha'
  exact h i a a' (by rwa [List.getElem?_append_left hi]) (by rwa [List.getElem?_append_left hi'])

theorem AnsweredAlike.right {as bs as' bs' : List (Trial σ)} (h : AnsweredAlike (as ++ bs) (as' ++ bs'))
    (hlength : as.length = as'.length) : AnsweredAlike bs bs' := by
  intro i b b' hb hb'
  refine h (as.length + i) b b' ?_ ?_
  · rwa [List.getElem?_append_right (Nat.le_add_right _ _), Nat.add_sub_cancel_left]
  · rwa [hlength, List.getElem?_append_right (Nat.le_add_right _ _), Nat.add_sub_cancel_left]

theorem Retried.determined {n : Nat} {e : Failure} {as as' : List (Trial σ)} {reply reply' : Reply}
    (has : Retried net c inv n e h as reply h₁) (has' : Retried net c inv n e h' as' reply' h₁')
    (hlike : AnsweredAlike as as') : reply = reply' ∧ List.Forall₂ Trial.Like as as' := by
  -- An attempt that comes to the same reply is followed by another one in both, or in neither.
  induction has generalizing as' h' with
  | spent =>
    cases has'
    exact ⟨rfl, .nil⟩
  | success ha hv =>
    cases has' with
    | success ha' hv' =>
      have hfirst := ha.determined ha' (hlike 0 _ _ rfl rfl)
      exact ⟨by rw [← hv, hfirst.1, hv'], .cons hfirst .nil⟩
    | failure ha' he' =>
      have hfirst := ha.determined ha' (hlike 0 _ _ rfl rfl)
      cases hv.symm.trans (hfirst.1.trans he')
  | failure ha he hrest ih =>
    cases has' with
    | success ha' hv' =>
      have hfirst := ha.determined ha' (hlike 0 _ _ rfl rfl)
      cases he.symm.trans (hfirst.1.trans hv')
    | failure ha' he' hrest' =>
      have hfirst := ha.determined ha' (hlike 0 _ _ rfl rfl)
      cases he.symm.trans (hfirst.1.trans he')
      obtain ⟨rfl, hmore⟩ := ih hrest' hlike.tail
      exact ⟨rfl, .cons hfirst hmore⟩

/-- The handlers have the same policy, make the same retries and end the same way. -/
def Spell.Like (s s' : Spell σ) : Prop :=
  s.policy = s'.policy ∧ List.Forall₂ Trial.Like s.trials s'.trials ∧ s.reply = s'.reply

theorem pausesIn_rounds {p : RetryPolicy} (scope scope' : String) {attempts : Nat} {as as' : List (Trial σ)}
    (hlike : List.Forall₂ Trial.Like as as') :
    pausesIn (p.rounds scope attempts as) = pausesIn (p.rounds scope' attempts as') := by
  induction hlike generalizing attempts with
  | nil => rfl
  | cons hfirst _ ih =>
    have hbefore : pausesIn (owns (p.retrying scope attempts) : List (Piece σ)) =
        pausesIn (owns (p.retrying scope' attempts) : List (Piece σ)) := by
      simp [RetryPolicy.retrying, Deed.pause?]
    simp only [RetryPolicy.rounds, pausesIn_append, hbefore, hfirst.2, ih]

theorem Spell.Like.pauses {s s' : Spell σ} (hlike : s.Like s') :
    pausesIn (s.pieces inv) = pausesIn (s'.pieces inv) := by
  obtain ⟨policy, holder, trials, reply⟩ := s
  obtain ⟨policy', holder', trials', reply'⟩ := s'
  obtain ⟨rfl, htrials, rfl⟩ := hlike
  have hconcluding : ∀ (scope : String) (n : Nat),
      pausesIn (owns (RetryPolicy.concluding scope reply n) : List (Piece σ)) = [] := fun scope n => by
    cases reply <;> rfl
  simp only [Spell.pieces, pausesIn_append, hconcluding, List.append_nil]
  exact congrArg _ (pausesIn_rounds _ _ htrials)

theorem Recovered.determined {ps : List RetryPolicy} {first reply reply' : Reply} {ss ss' : List (Spell σ)}
    (hss : Recovered net c inv ps first h ss reply h₁) (hss' : Recovered net c inv ps first h' ss' reply' h₁')
    (hlike : AnsweredAlike (ss.flatMap Spell.trials) (ss'.flatMap Spell.trials)) :
    reply = reply' ∧ List.Forall₂ Spell.Like ss ss' := by
  induction hss generalizing ss' h' with
  | spent =>
    cases hss'
    exact ⟨rfl, .nil⟩
  | stop =>
    cases hss'
    exact ⟨rfl, .nil⟩
  | @spell ps e s ss reply h₁ h₂ has hrest ih =>
    generalize hp : s.policy = p at hss'
    cases hss' with
    | @spell _ _ s' _ _ _ _ has' hrest' =>
      rw [hp] at has
      obtain ⟨hreply, htrials⟩ := has.determined has' hlike.left
      rw [hreply] at ih
      obtain ⟨rfl, hmore⟩ := ih hrest' (hlike.right htrials.length_eq)
      exact ⟨rfl, .cons ⟨hp, htrials, hreply⟩ hmore⟩

/-! ## Contexts that resolve alike -/

section Alike

variable {c' : Context} (hc : c.Alike c')

include hc

namespace Context.Alike

theorem decoration : Decoration.ofContext c' = Decoration.ofContext c := by
  rw [Decoration.ofContext, hc.connect?, hc.timeout?, Decoration.ofContext]

theorem policies : FailoverChain.policies c' = FailoverChain.policies c := by
  rw [FailoverChain.policies, hc.retry?, hc.failover?, FailoverChain.policies]

theorem ordered : FailoverChain.ordered c' = FailoverChain.ordered c := by
  rw [FailoverChain.ordered, hc.policies, FailoverChain.ordered]

theorem connectStage (net : Network σ) : c'.connectStage net = c.connectStage net := by
  rw [Context.connectStage, hc.connect?, Context.connectStage]

theorem recovery (ss : List (Spell σ)) (reply : Reply) :
    Course.recovery r c' inv ss reply = Course.recovery r c inv ss reply := by
  cases reply with
  | ok v => rfl
  | error e => rw [Course.recovery, Course.announcing, hc.ordered, hc.scope, Course.recovery, Course.announcing]

end Context.Alike

theorem Context.Connecting.of_alike {ps : List (Piece σ)} {q : Except Payload (Except Failure Unit)}
    (hps : c.Connecting net h ps q h₁) : c'.Connecting net h ps q h₁ := by
  cases hps with
  | unasked hs => exact .unasked (hc.connect?.trans hs)
  | standing hs hasked => exact .standing (hc.connect?.trans hs) hasked
  | asked hs hasked hloop => exact .asked (hc.connect?.trans hs) hasked hloop
  | panicked hs hasked => exact .panicked (hc.connect?.trans hs) hasked

theorem Context.Calling.of_alike {q : Except Payload (Except Failure Unit)} {qs : List (Piece σ)} {reply : Reply}
    (hqs : c.Calling inv h q qs reply h₁) : c'.Calling inv h q qs reply h₁ := by
  cases hqs with
  | refused => exact .refused
  | crashed => exact .crashed
  | called hs hgoes => exact .called (hc.timeout?.trans hs) hgoes
  | bounded hs => exact .bounded (hc.timeout?.trans hs)

theorem Trial.Of.of_alike {a : Trial σ} (ha : a.Of net c inv) : a.Of net c' inv := by
  obtain ⟨hps, hgoes, hqs⟩ := ha
  exact .stages (hps.of_alike hc) (hc.connectStage net ▸ hgoes) (hqs.of_alike hc)

theorem Retried.of_alike {n : Nat} {e : Failure} {as : List (Trial σ)} {reply : Reply}
    (has : Retried net c inv n e h as reply h₁) : Retried net c' inv n e h as reply h₁ := by
  induction has with
  | spent => exact .spent
  | success ha hv => exact .success (ha.of_alike hc) hv
  | failure ha he _ ih => exact .failure (ha.of_alike hc) he ih

theorem Recovered.of_alike {ps : List RetryPolicy} {first reply : Reply} {ss : List (Spell σ)}
    (hss : Recovered net c inv ps first h ss reply h₁) : Recovered net c' inv ps first h ss reply h₁ := by
  induction hss with
  | spent => exact .spent
  | stop => exact .stop
  | spell has _ ih => exact .spell (has.of_alike hc) ih

end Alike

/-! ## Requests -/

theorem pausesIn_clients (xs : List (Part σ)) : pausesIn (xs.map Piece.client) = [] := by
  induction xs with
  | nil => rfl
  | cons x xs ih => exact ih

namespace Requester.Concludes

variable {scope : String} {outcome : Outcome} {ps ps' : List (Piece σ)} {q q' : Result}
  {event event' : Option RequestEvent}

theorem pauses (h : r.Concludes scope h₁ outcome ps q event h') : pausesIn ps = [] := by
  cases h <;> simp [Deed.pause?, pausesIn_clients]

theorem determined (hps : r.Concludes scope h outcome ps q event h₁)
    (hps' : r.Concludes scope h' outcome ps' q' event' h₁')
    (hconvert : ∀ {e : Failure} {h h₁ h' h₁' : Option Context} {L L' : List (Deed σ)} {o o' : Except Payload RpcError},
      through (r.convert e) h L o h₁ ∈ ps → through (r.convert e) h' L' o' h₁' ∈ ps' → o = o') :
    q = q' ∧ event = event' := by
  cases hps with
  | success | recovered =>
    cases hps'
    exact ⟨rfl, rfl⟩
  | failed =>
    cases hps' with
    | failed =>
      cases hconvert (List.mem_cons_self ..) (List.mem_cons_self ..)
      exact ⟨rfl, rfl⟩
    | panicked => cases hconvert (List.mem_cons_self ..) (List.mem_cons_self ..)
  | panicked =>
    cases hps' with
    | failed => cases hconvert (List.mem_cons_self ..) (List.mem_cons_self ..)
    | panicked =>
      cases hconvert (List.mem_cons_self ..) (List.mem_cons_self ..)
      exact ⟨rfl, rfl⟩

end Requester.Concludes

namespace Course

/-- Client code answers alike in both courses, as far as both go: connectors and calls in their attempts, and
the conversion of one failure. -/
structure Alike (r : Requester σ) (x x' : Course σ) : Prop where
  attempts : AnsweredAlike x.trials x'.trials
  conversion : ∀ {e : Failure} {h h₁ h' h₁' : Option Context} {L L' : List (Deed σ)} {o o' : Except Payload RpcError},
    through (r.convert e) h L o h₁ ∈ x.conclusion → through (r.convert e) h' L' o' h₁' ∈ x'.conclusion → o = o'

/-- The courses agree in all that a caller can see of them. -/
structure Same (r : Requester σ) (inv : Invocation σ) (x x' : Course σ) : Prop where
  result : x'.result = x.result
  event : x'.event = x.event
  attempts : x'.trials.length = x.trials.length
  /-- The handlers that are called in, each with the number of its retries. -/
  handlers : x'.spells.map (fun s => (s.policy, s.trials.length)) = x.spells.map fun s => (s.policy, s.trials.length)
  pauses : pausesIn (x'.pieces r inv) = pausesIn (x.pieces r inv)

theorem pausesIn_pieces {x : Course σ} (hx : x.Of net r inv) :
    pausesIn (x.pieces r inv) =
      pausesIn x.first.pieces ++ pausesIn (recovery r (x.base.withScope inv.name) inv x.spells x.first.reply) := by
  obtain ⟨h, -, hconclude⟩ := hx.rest
  have hbasing : pausesIn (owns (r.basing x.holder x.base)) = [] := by
    cases x.holder <;> rfl
  have hattaching : pausesIn (owns (attaching (x.base.withScope inv.name) x.holder) : List (Piece σ)) = [] := rfl
  have hreleasing : pausesIn (owns (releasing x.holder x.left) : List (Piece σ)) = [] := by
    cases x.left <;> rfl
  simp [pieces, worked, hbasing, hattaching, hreleasing, hconclude.pauses, Deed.pause?]

theorem pausesIn_recovery {c : Context} {ss ss' : List (Spell σ)} {reply : Reply}
    (hlike : List.Forall₂ Spell.Like ss ss') :
    pausesIn (recovery r c inv ss reply) = pausesIn (recovery r c inv ss' reply) := by
  have hspells : pausesIn (ss.flatMap (Spell.pieces inv)) = pausesIn (ss'.flatMap (Spell.pieces inv)) := by
    induction hlike with
    | nil => rfl
    | cons hfirst _ ih => rw [List.flatMap_cons, List.flatMap_cons, pausesIn_append, pausesIn_append, hfirst.pauses, ih]
  cases reply with
  | ok v => rfl
  | error e => rw [recovery, recovery, pausesIn_append, pausesIn_append, hspells]

theorem length_trials {ss ss' : List (Spell σ)} (hlike : List.Forall₂ Spell.Like ss ss') :
    (ss.flatMap Spell.trials).length = (ss'.flatMap Spell.trials).length ∧
      ss.map (fun s => (s.policy, s.trials.length)) = ss'.map fun s => (s.policy, s.trials.length) := by
  induction hlike with
  | nil => exact ⟨rfl, rfl⟩
  | cons hfirst _ ih =>
    obtain ⟨hpolicy, htrials, -⟩ := hfirst
    simp only [List.flatMap_cons, List.length_append, List.map_cons, ih.1, ih.2, hpolicy, htrials.length_eq, and_self]

/-- **What determines a request.** Courses that start from contexts that resolve alike and in which client code
answers alike agree in all that a caller can see. -/
theorem determined_of_alike {x x' : Course σ} (hx : x.Of net r inv) (hx' : x'.Of net r inv)
    (hbase : x.base.Alike x'.base) (halike : Alike r x x') : Same r inv x x' := by
  have hderived := hbase.withScope inv.name
  obtain ⟨h₂, hrecovered, hconclude⟩ := hx.rest
  obtain ⟨h₂', hrecovered', hconclude'⟩ := hx'.rest
  have hrecovered' := hrecovered'.of_alike hderived.symm
  rw [hderived.ordered] at hrecovered'
  obtain ⟨hreply, hpauses⟩ := hx.first.determined (hx'.first.of_alike hderived.symm) (halike.attempts 0 _ _ rfl rfl)
  rw [← hreply] at hrecovered'
  obtain ⟨hlast, hspells⟩ := hrecovered.determined hrecovered' halike.attempts.tail
  obtain ⟨hlength, hhandlers⟩ := length_trials hspells
  have houtcome : x'.outcome = x.outcome := by rw [outcome, outcome, retries, retries, hlength, hlast]
  rw [houtcome] at hconclude'
  obtain ⟨hresult, hevent⟩ := hconclude.determined hconclude' halike.conversion
  refine ⟨hresult.symm, hevent.symm, by simp only [trials, List.length_cons, hlength], hhandlers.symm, ?_⟩
  rw [pausesIn_pieces hx, pausesIn_pieces hx', hpauses, hreply, hderived.recovery, pausesIn_recovery hspells]

theorem determined {x x' : Course σ} (hx : x.Of net r inv) (hx' : x'.Of net r inv) (hbase : x'.base = x.base)
    (halike : Alike r x x') : Same r inv x x' :=
  determined_of_alike hx hx' (hbase ▸ Context.Alike.refl _) halike

end Course

end ResilientCalls
