import ResilientCalls.Proofs.Bookings
import ResilientCalls.Proofs.Determinacy

/-!
# The client code in a request

A request runs client code of five kinds: it asks connectors, makes its call, converts a failure, and tells its
listeners. Everything else is its own deeds, and the only workers that it starts make its call
(`Course.Of.split`).
-/

namespace ResilientCalls

open Program
open Piece

variable {σ : Type} {net : Network σ} {r : Requester σ} {inv : Invocation σ} {c : Context}
  {h h' : Option Context}

/-- Client code that a request runs before it tells its listeners. -/
inductive Serves (net : Network σ) (r : Requester σ) (inv : Invocation σ) : Part σ → Prop
  | asks {i : ConnectorId} {h h' : Option Context} {L : List (Deed σ)} {o : Except Payload Bool} :
      (net i).isConnected.Goes h L o h' → Serves net r inv ⟨Bool, (net i).isConnected, h, L, o, h'⟩
  | connects {i : ConnectorId} {endpoint : String} {h h' : Option Context} {L : List (Deed σ)}
      {o : Except Payload (Except Failure Unit)} : ((net i).connect endpoint).Goes h L o h' →
        Serves net r inv ⟨Except Failure Unit, (net i).connect endpoint, h, L, o, h'⟩
  | calls {h h' : Option Context} {L : List (Deed σ)} {o : Except Payload Reply} :
      inv.call.Goes h L o h' → Serves net r inv ⟨Reply, inv.call, h, L, o, h'⟩
  | converts {e : Failure} {h h' : Option Context} {L : List (Deed σ)} {o : Except Payload RpcError} :
      (r.convert e).Goes h L o h' → Serves net r inv ⟨RpcError, r.convert e, h, L, o, h'⟩

/-- What is done in a request before it tells its listeners and after that. -/
def Piece.Fits (net : Network σ) (r : Requester σ) (inv : Invocation σ) : Piece σ → Prop
  | own e => ∀ m job, e = .started m job → ∃ bound h, job = inv.job bound h
  | client y => Serves net r inv y

/-- All pieces are of this kind. -/
def Piece.AllFit (net : Network σ) (r : Requester σ) (inv : Invocation σ) (ps : List (Piece σ)) : Prop :=
  ∀ q ∈ ps, q.Fits net r inv

namespace Piece

variable {ps qs : List (Piece σ)} {x : Part σ}

@[simp] theorem allFit_nil : AllFit net r inv [] := nofun

@[simp] theorem allFit_append : AllFit net r inv (ps ++ qs) ↔ AllFit net r inv ps ∧ AllFit net r inv qs :=
  List.forall_mem_append

@[simp] theorem allFit_did {β : Type} {a : Action σ β} {b : β} :
    AllFit net r inv (own (.did a b) :: ps) ↔ AllFit net r inv ps := by
  simp [AllFit, Fits]

@[simp] theorem allFit_client : AllFit net r inv (client x :: ps) ↔ Serves net r inv x ∧ AllFit net r inv ps := by
  simp [AllFit, Fits]

@[simp] theorem allFit_answered {β : Type} {m : ChannelId} {d : Delivery β} :
    AllFit net r inv (own (.answered m d) :: ps) ↔ AllFit net r inv ps := by
  simp [AllFit, Fits]

@[simp] theorem allFit_job {m : ChannelId} {bound : Duration} :
    AllFit net r inv (own (.started m (inv.job bound h)) :: ps) ↔ AllFit net r inv ps := by
  refine List.forall_mem_cons.trans ⟨And.right, fun hps => ⟨?_, hps⟩⟩
  rintro m' job heq
  cases heq
  exact ⟨bound, h, rfl⟩

theorem allFit_owns {L : List (Deed σ)} (hL : ∀ m job, .started m job ∉ L) : AllFit net r inv (owns L) := by
  intro q hq
  obtain ⟨e, he, rfl⟩ := List.mem_map.1 hq
  rintro m job rfl
  exact absurd he (hL m job)

@[simp] theorem allFit_pausing (d : Duration) : AllFit net r inv (owns d.pausing) := by
  refine allFit_owns fun m job => ?_
  unfold Duration.pausing
  split <;> simp

end Piece

theorem ConnectStrategy.Connecting.fits {s : ConnectStrategy} {left attempt : Nat} {last : Failure}
    {ps : List (Piece σ)} {q : Except Payload (Except Failure Unit)}
    (hps : s.Connecting net left attempt last h ps q h') : AllFit net r inv ps := by
  induction hps with
  | gaveUp => simp
  | connected hgoes => simp [Serves.connects hgoes]
  | failed hgoes _ ih => split <;> simp [Serves.connects hgoes, ih]
  | panicked hgoes => simp [Serves.connects hgoes]

theorem Context.Connecting.fits {ps : List (Piece σ)} {q : Except Payload (Except Failure Unit)}
    (hps : c.Connecting net h ps q h') : AllFit net r inv ps := by
  cases hps with
  | unasked => simp
  | standing _ hgoes | panicked _ hgoes => simp [Serves.asks hgoes]
  | asked _ hgoes hloop => simp [Serves.asks hgoes, hloop.fits]

theorem Context.Calling.fits {q : Except Payload (Except Failure Unit)} {qs : List (Piece σ)} {reply : Reply}
    (hqs : c.Calling inv h q qs reply h') : AllFit net r inv qs := by
  cases hqs with
  | refused | crashed => simp
  | called _ hgoes => simp [Serves.calls hgoes]
  | @bounded s m d => cases d <;> simp [Invocation.reporting]

theorem Trial.Of.fits {a : Trial σ} (ha : a.Of net c inv) : AllFit net r inv a.pieces := by
  obtain ⟨hps, -, hqs⟩ := ha
  exact allFit_append.2 ⟨hps.fits, hqs.fits⟩

theorem Retried.fits {n : Nat} {e : Failure} {as : List (Trial σ)} {reply : Reply} {p : RetryPolicy}
    {scope : String} {attempts : Nat} (has : Retried net c inv n e h as reply h') :
    AllFit net r inv (p.rounds scope attempts as) := by
  have hretrying : ∀ attempts, AllFit net r inv (owns (p.retrying scope attempts)) := fun attempts => by
    simp [RetryPolicy.retrying]
  induction has generalizing attempts with
  | spent => exact allFit_nil
  | success ha => exact allFit_append.2 ⟨hretrying _, allFit_append.2 ⟨ha.fits, allFit_nil⟩⟩
  | failure ha _ _ ih => exact allFit_append.2 ⟨hretrying _, allFit_append.2 ⟨ha.fits, ih⟩⟩

theorem Recovered.fits {ps : List RetryPolicy} {first reply : Reply} {ss : List (Spell σ)}
    (hss : Recovered net c inv ps first h ss reply h') : AllFit net r inv (ss.flatMap (Spell.pieces inv)) := by
  induction hss with
  | spent | stop => exact allFit_nil
  | @spell ps e s ss reply h₁ h' has _ ih =>
    have hconcluding : AllFit net r inv (owns (RetryPolicy.concluding (s.scope inv) s.reply s.trials.length)) := by
      cases s.reply <;> simp [RetryPolicy.concluding]
    simp only [List.flatMap_cons, allFit_append, Spell.pieces]
    exact ⟨⟨by simp, has.fits, hconcluding⟩, ih⟩

/-- What the caller gets and what the listeners are told, by how the request ended. -/
inductive Reported (scope : String) : RequestResult → Requester.Result → RequestEvent → Prop
  | success (v : String) : Reported scope .success (.ok (.ok v)) (.success scope)
  | recovered (v : String) : Reported scope .recovered (.ok (.ok v)) (.recovered scope)
  | error (e : RpcError) : Reported scope .error (.ok (.error e)) (.error scope e.kind)

theorem Requester.Concludes.split {scope : String} {outcome : Requester.Outcome} {ps : List (Piece σ)}
    {q : Requester.Result} {told : Option RequestEvent} (hps : r.Concludes scope h outcome ps q told h')
    (hconvert : r.NeverPanics) : ∃ event before h₁ xs, told = some event ∧ Reported scope outcome.result q event ∧
      ps = before ++ xs.map client ∧ AllFit net r inv before ∧ Told event r.listeners h₁ xs h' := by
  cases hps with
  | success htold => exact ⟨_, [_], _, _, rfl, .success _, rfl, by simp, htold⟩
  | recovered htold => exact ⟨_, [_], _, _, rfl, .recovered _, rfl, by simp, htold⟩
  | failed hgoes htold => exact ⟨_, [_, _, _], _, _, rfl, .error _, rfl, by simp [Serves.converts hgoes], htold⟩
  | panicked hgoes => exact absurd hgoes hconvert

/-- **The parts of a request.** A request tells each of its listeners once how it ended, and apart from that it does
nothing but what fits. -/
theorem Course.Of.split {x : Course σ} (hx : x.Of net r inv) (hconvert : r.NeverPanics) :
    ∃ event before after h xs, x.event = some event ∧ Reported inv.name x.verdict x.result event ∧
      x.pieces r inv = before ++ (xs.map client ++ after) ∧ AllFit net r inv before ∧ AllFit net r inv after ∧
      Told event r.listeners h xs x.left := by
  obtain ⟨h, hrecovered, hconclude⟩ := hx.rest
  obtain ⟨event, ps, h₁, xs, hevent, hreported, hconclusion, hps, htold⟩ :
      ∃ event before h₁ xs, x.event = some event ∧ Reported inv.name x.outcome.result x.result event ∧
        x.conclusion = before ++ xs.map client ∧ AllFit net r inv before ∧ Told event r.listeners h₁ xs x.left :=
    hconclude.split hconvert
  rw [hx.result_outcome] at hreported
  have hbasing : AllFit net r inv (owns (r.basing x.holder x.base)) := by
    cases x.holder <;> simp [Requester.basing]
  have hattaching : AllFit net r inv (owns (attaching (x.base.withScope inv.name) x.holder)) := by simp [attaching]
  have hreleasing : AllFit net r inv (owns (releasing x.holder x.left)) := by
    cases x.left <;> simp [releasing]
  have hrecovery : AllFit net r inv (recovery r (x.base.withScope inv.name) inv x.spells x.first.reply) := by
    cases x.first.reply with
    | ok v => exact allFit_nil
    | error e =>
      have hannouncing : AllFit net r inv (owns (announcing r (x.base.withScope inv.name) e)) := by
        unfold announcing
        split <;> simp
      exact allFit_append.2 ⟨hannouncing, hrecovered.fits⟩
  refine ⟨event, owns (r.basing x.holder x.base) ++ (owns (attaching (x.base.withScope inv.name) x.holder) ++
    (x.first.pieces ++ (recovery r (x.base.withScope inv.name) inv x.spells x.first.reply ++
      (owns [.did (.record (.sampled inv.name)) ()] ++ ps)))), owns (releasing x.holder x.left), h₁, xs, hevent,
    hreported, ?_, ?_, hreleasing, htold⟩
  · simp only [pieces, worked, hconclusion, List.append_assoc]
  · simp [hbasing, hattaching, hx.first.fits, hrecovery, hps]

end ResilientCalls
