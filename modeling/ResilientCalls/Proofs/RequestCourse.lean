import ResilientCalls.Proofs.BoundedCalls
import ResilientCalls.Proofs.SpawnedRequests

/-!
# The course of a request

What the thread of a request does from its start to its end falls into the request's own deeds and
stretches of client code (`Piece`). A `Course` tells them in order: the first attempt, then the attempts of
each failover handler that is called in, then the conclusion. Every request that comes to its end has a course
(`course_of_goes`), and apart from the context that was found at its start and from what client code answers
there is no choice in it.
-/

namespace ResilientCalls

open Program

variable {σ α β ε : Type} {h h' : Option Context} {L : List (Deed σ)}

/-! ## Own deeds and client code -/

/-- A stretch of client code from its start to its end. -/
structure Part (σ : Type) : Type 1 where
  Value : Type
  code : Program σ Value
  holder : Option Context
  deeds : List (Deed σ)
  outcome : Except Payload Value
  left : Option Context

/-- A piece of what a thread does in library code. -/
inductive Piece (σ : Type) : Type 1
  | own (e : Deed σ)
  | client (x : Part σ)

namespace Piece

def deeds : Piece σ → List (Deed σ)
  | own e => [e]
  | client x => x.deeds

/-- All deeds, in order. -/
def deedsIn (ps : List (Piece σ)) : List (Deed σ) := ps.flatMap deeds

/-- The library's own deeds. -/
def ownIn (ps : List (Piece σ)) : List (Deed σ) :=
  ps.filterMap fun
    | own e => some e
    | client _ => none

/-- The stretches of client code. -/
def partsIn (ps : List (Piece σ)) : List (Part σ) :=
  ps.filterMap fun
    | own _ => none
    | client x => some x

def owns (L : List (Deed σ)) : List (Piece σ) := L.map own

/-- Code that a thread goes through. -/
abbrev through {α : Type} (p : Program σ α) (h : Option Context) (L : List (Deed σ)) (r : Except Payload α)
    (h' : Option Context) : Piece σ :=
  client ⟨α, p, h, L, r, h'⟩

variable {ps qs : List (Piece σ)} {e : Deed σ} {x : Part σ}

@[simp] theorem deedsIn_nil : deedsIn ([] : List (Piece σ)) = [] := rfl

@[simp] theorem deedsIn_append : deedsIn (ps ++ qs) = deedsIn ps ++ deedsIn qs := List.flatMap_append

@[simp] theorem deedsIn_own : deedsIn (own e :: ps) = e :: deedsIn ps := rfl

@[simp] theorem deedsIn_client : deedsIn (client x :: ps) = x.deeds ++ deedsIn ps := rfl

@[simp] theorem deedsIn_owns : deedsIn (owns L) = L := by
  induction L with
  | nil => rfl
  | cons e L ih => exact congrArg (e :: ·) ih

@[simp] theorem ownIn_append : ownIn (ps ++ qs) = ownIn ps ++ ownIn qs := List.filterMap_append

@[simp] theorem ownIn_own : ownIn (own e :: ps) = e :: ownIn ps := rfl

@[simp] theorem ownIn_client : ownIn (client x :: ps) = ownIn ps := rfl

@[simp] theorem ownIn_nil : ownIn ([] : List (Piece σ)) = [] := rfl

@[simp] theorem ownIn_owns : ownIn (owns L) = L := by
  induction L with
  | nil => rfl
  | cons e L ih => exact congrArg (e :: ·) ih

@[simp] theorem partsIn_own : partsIn (own e :: ps) = partsIn ps := rfl

@[simp] theorem partsIn_client : partsIn (client x :: ps) = x :: partsIn ps := rfl

end Piece

open Piece

/-! ## Pauses -/

/-- The deeds of a pause. -/
def Duration.pausing (d : Duration) : List (Deed σ) :=
  if d.isZero then [] else [.did (.record (.paused d)) (), .lay, .rose]

theorem makes_sleep (d : Duration) : (sleep d (done ()) : Program σ Unit).Makes h [.lay, .rose] () h := by
  intro L r h'
  constructor
  · intro hgoes
    rcases Thread.path_sleep hgoes with ⟨-, hend⟩ | ⟨wake, -, hend⟩ | ⟨L₁, rfl, hrest⟩
    · cases r <;> cases congrArg Thread.code hend
    · cases r <;> cases congrArg Thread.code hend
    · obtain ⟨rfl, rfl, rfl⟩ := goes_done.1 hrest
      exact ⟨rfl, rfl, rfl⟩
  · rintro ⟨rfl, rfl, rfl⟩
    have hlie : Thread.Does 0 (.fresh (sleep d (done ()) : Program σ Unit) h') .lay
      ⟨h', sleep d (done ()), .resting (0 + d.nanos)⟩ := .lie
    exact .go hlie (.go (.rise (Nat.le_refl _)) (.rest _))

theorem makes_pause [Inhabited σ] (d : Duration) : (pause d : Program σ Unit).Makes h d.pausing () h := by
  unfold pause Duration.pausing
  split
  · exact makes_done ()
  · exact (makes_record _).trans (makes_sleep d)

/-! ## The connect stage -/

section Connecting

variable (net : Network σ)

/-- The attempts to connect from number `attempt` on, with `last` as the failure so far. -/
inductive ConnectStrategy.Connecting (s : ConnectStrategy) : Nat → Nat → Failure → Option Context →
    List (Piece σ) → Except Payload (Except Failure Unit) → Option Context → Prop
  | gaveUp {attempt : Nat} {last : Failure} {h : Option Context} :
      Connecting s 0 attempt last h (owns [.did (.record (.traced (.gaveUp s.endpoint s.maxAttempts last))) ()])
        (.ok (.error (s.failure last))) h
  | connected {left attempt : Nat} {last : Failure} {h h' : Option Context} {L : List (Deed σ)} :
      ((net s.connector).connect s.endpoint).Goes h L (.ok (.ok ())) h' →
        Connecting s (left + 1) attempt last h
          (.own (.did (.record (.traced (.connecting s.endpoint attempt s.maxAttempts))) ()) ::
            through ((net s.connector).connect s.endpoint) h L (.ok (.ok ())) h' ::
              owns [.did (.record (.counted (.connects s.endpoint true))) ()]) (.ok (.ok ())) h'
  | failed {left attempt : Nat} {last e : Failure} {h h₁ h' : Option Context} {L : List (Deed σ)}
      {ps : List (Piece σ)} {r : Except Payload (Except Failure Unit)} :
      ((net s.connector).connect s.endpoint).Goes h L (.ok (.error e)) h₁ →
        Connecting s left (attempt + 1) e h₁ ps r h' →
          Connecting s (left + 1) attempt last h
            (.own (.did (.record (.traced (.connecting s.endpoint attempt s.maxAttempts))) ()) ::
              through ((net s.connector).connect s.endpoint) h L (.ok (.error e)) h₁ ::
                (owns (.did (.record (.counted (.connects s.endpoint false))) () ::
                  if attempt < s.maxAttempts then s.backoff.pausing else []) ++ ps)) r h'
  | panicked {left attempt : Nat} {last : Failure} {h h' : Option Context} {L : List (Deed σ)} {p : Payload} :
      ((net s.connector).connect s.endpoint).Goes h L (.error p) h' →
        Connecting s (left + 1) attempt last h
          [.own (.did (.record (.traced (.connecting s.endpoint attempt s.maxAttempts))) ()),
            through ((net s.connector).connect s.endpoint) h L (.error p) h'] (.error p) h'

/-- The connect stage of an attempt. -/
inductive Context.Connecting (c : Context) (h : Option Context) : List (Piece σ) →
    Except Payload (Except Failure Unit) → Option Context → Prop
  | unasked : c.connect? = none → Connecting c h [] (.ok (.ok ())) h
  | standing {s : ConnectStrategy} {L : List (Deed σ)} {h' : Option Context} : c.connect? = some s →
      (net s.connector).isConnected.Goes h L (.ok true) h' →
        Connecting c h [through (net s.connector).isConnected h L (.ok true) h'] (.ok (.ok ())) h'
  | asked {s : ConnectStrategy} {L : List (Deed σ)} {h₁ h' : Option Context} {ps : List (Piece σ)}
      {r : Except Payload (Except Failure Unit)} : c.connect? = some s →
      (net s.connector).isConnected.Goes h L (.ok false) h₁ →
        s.Connecting net s.maxAttempts 1 (.text "not connected") h₁ ps r h' →
          Connecting c h (through (net s.connector).isConnected h L (.ok false) h₁ :: ps) r h'
  | panicked {s : ConnectStrategy} {L : List (Deed σ)} {h' : Option Context} {p : Payload} : c.connect? = some s →
      (net s.connector).isConnected.Goes h L (.error p) h' →
        Connecting c h [through (net s.connector).isConnected h L (.error p) h'] (.error p) h'

variable {net} [Inhabited σ]

theorem goes_connectLoop {s : ConnectStrategy} {left attempt : Nat} {last : Failure}
    {r : Except Payload (Except Failure Unit)}
    (hgoes : (s.connectLoop (net s.connector) left attempt last).Goes h L r h') :
    ∃ ps, deedsIn ps = L ∧ s.Connecting net left attempt last h ps r h' := by
  induction left generalizing attempt last h L with
  | zero =>
    obtain ⟨L₂, rfl, hrest⟩ := (makes_log _).bind.1 hgoes
    obtain ⟨rfl, rfl, rfl⟩ := goes_done.1 hrest
    exact ⟨_, deedsIn_owns, .gaveUp⟩
  | succ left ih =>
    obtain ⟨L₂, rfl, hrest⟩ := (makes_log _).bind.1 hgoes
    rcases goes_bind.1 hrest with ⟨reply, h₁, L₃, L₄, rfl, hconnect, hnext⟩ | ⟨p, rfl, hconnect⟩
    · cases reply with
      | ok u =>
        obtain ⟨L₅, rfl, hlast⟩ := (makes_count _).bind.1 hnext
        obtain ⟨rfl, rfl, rfl⟩ := goes_done.1 hlast
        exact ⟨_, by simp, .connected hconnect⟩
      | error e =>
        obtain ⟨L₅, rfl, hpaused⟩ := (makes_count _).bind.1 hnext
        obtain ⟨L₆, rfl, hmore⟩ : ∃ L₆, L₅ = (if attempt < s.maxAttempts then s.backoff.pausing else []) ++ L₆ ∧
            (s.connectLoop (net s.connector) left (attempt + 1) e).Goes h₁ L₆ r h' := by
          by_cases hlt : attempt < s.maxAttempts
          · rw [if_pos hlt]
            simp only [if_pos hlt] at hpaused
            exact (makes_pause _).bind.1 hpaused
          · rw [if_neg hlt]
            simp only [if_neg hlt] at hpaused
            exact ⟨L₅, rfl, hpaused⟩
        obtain ⟨ps, rfl, hps⟩ := ih hmore
        exact ⟨_, by simp, .failed hconnect hps⟩
    · exact ⟨_, by simp, .panicked hconnect⟩

theorem goes_connectStage {c : Context} {r : Except Payload (Except Failure Unit)}
    (hgoes : (c.connectStage net).Goes h L r h') : ∃ ps, deedsIn ps = L ∧ c.Connecting net h ps r h' := by
  unfold Context.connectStage at hgoes
  cases hc : c.connect? with
  | none =>
    rw [hc] at hgoes
    obtain ⟨rfl, rfl, rfl⟩ := goes_done.1 hgoes
    exact ⟨[], rfl, .unasked hc⟩
  | some s =>
    rw [hc] at hgoes
    rcases goes_bind.1 hgoes with ⟨there, h₁, L₁, L₂, rfl, hasked, hrest⟩ | ⟨p, rfl, hasked⟩
    · cases there with
      | true =>
        obtain ⟨rfl, rfl, rfl⟩ := goes_done.1 hrest
        exact ⟨_, by simp, .standing hc hasked⟩
      | false =>
        obtain ⟨ps, rfl, hps⟩ := goes_connectLoop hrest
        exact ⟨_, by simp, .asked hc hasked hps⟩
    · exact ⟨_, by simp, .panicked hc hasked⟩

end Connecting

/-! ## Attempts -/

/-- An attempt from its start to its end. -/
structure Trial (σ : Type) : Type 1 where
  holder : Option Context
  pieces : List (Piece σ)
  reply : Reply
  left : Option Context

/-- What follows the connect stage of an attempt, by what that came to. -/
inductive Context.Calling (c : Context) (inv : Invocation σ) (h : Option Context) :
    Except Payload (Except Failure Unit) → List (Piece σ) → Reply → Option Context → Prop
  | refused {e : Failure} : Calling c inv h (.ok (.error e)) [] (.error e) h
  | crashed {p : Payload} :
      Calling c inv h (.error p) [] (.error (.text ("invocation " ++ inv.name ++ " panicked"))) h
  | called {L : List (Deed σ)} {r : Except Payload Reply} {h' : Option Context} : c.timeout? = none →
      inv.call.Goes h L r h' → Calling c inv h (.ok (.ok ())) [through inv.call h L r h'] (inv.reply r) h'
  | bounded {s : TimeoutStrategy} {m : ChannelId} {d : Delivery Reply} : c.timeout? = some s →
      Calling c inv h (.ok (.ok ())) (owns (.did (.holder id) h :: .started m (inv.job s.timeout h) ::
        .answered m d :: inv.reporting s.timeout h d)) (inv.result s.timeout d) h

/-- The trials that there are of a call with the stages of a context. -/
inductive Trial.Of (net : Network σ) (c : Context) (inv : Invocation σ) : Trial σ → Prop
  | stages {h h₁ h' : Option Context} {ps qs : List (Piece σ)} {q : Except Payload (Except Failure Unit)}
      {reply : Reply} : c.Connecting net h ps q h₁ → (c.connectStage net).Goes h (deedsIn ps) q h₁ →
        c.Calling inv h₁ q qs reply h' → Of net c inv ⟨h, ps ++ qs, reply, h'⟩

def Trial.deeds (a : Trial σ) : List (Deed σ) := deedsIn a.pieces

section Attempts

variable [Inhabited σ] {net : Network σ} {c : Context} {inv : Invocation σ}

omit [Inhabited σ] in
@[simp]
theorem name_decorate : (c.decorate net inv).name = inv.name := Decoration.name_apply ..

theorem goes_attempt {r : Except Payload Reply} (hgoes : (c.decorate net inv).attempt.Goes h L r h') :
    ∃ a : Trial σ, a.Of net c inv ∧ a.holder = h ∧ a.deeds = L ∧ r = .ok a.reply ∧ a.left = h' := by
  obtain ⟨r₁, h₁, L₁, L₂, rfl, hcall, hend⟩ := goes_caught_bind.1 hgoes
  have hlast : L₂ = [] ∧ r = .ok (inv.reply r₁) ∧ h' = h₁ := by
    rw [show inv.reply r₁ = (c.decorate net inv).reply r₁ from (reply_decorate c r₁).symm]
    cases r₁ <;> exact goes_done.1 hend
  obtain ⟨rfl, rfl, rfl⟩ := hlast
  rw [call_decorate] at hcall
  rcases goes_bind.1 hcall with ⟨reply, h₂, L₃, L₄, rfl, hconnect, hrest⟩ | ⟨p, rfl, hconnect⟩
  · obtain ⟨ps, rfl, hps⟩ := goes_connectStage hconnect
    cases reply with
    | error e =>
      obtain ⟨rfl, rfl, rfl⟩ := goes_done.1 hrest
      exact ⟨_, .stages hps hconnect .refused, rfl, by simp [Trial.deeds], rfl, rfl⟩
    | ok u =>
      unfold Decoration.bounded Decoration.ofContext at hrest
      cases hs : c.timeout? with
      | none =>
        rw [hs] at hrest
        exact ⟨_, .stages hps hconnect (.called hs hrest), rfl, by simp [Trial.deeds], rfl, rfl⟩
      | some s =>
        rw [hs] at hrest
        obtain ⟨rfl, m, d, rfl, rfl⟩ := goes_within hrest
        exact ⟨_, .stages hps hconnect (.bounded (m := m) (d := d) hs), rfl, by simp [Trial.deeds], rfl, rfl⟩
  · obtain ⟨ps, rfl, hps⟩ := goes_connectStage hconnect
    exact ⟨_, .stages hps hconnect .crashed, rfl, by simp [Trial.deeds], rfl, rfl⟩

/-! ## Retries -/

/-- The deeds before a retry of a handler that made a number of retries before. -/
def RetryPolicy.retrying (p : RetryPolicy) (scope : String) (attempts : Nat) : List (Deed σ) :=
  let delay := p.pacing.pause attempts
  .did (.record (.traced (.retrying RetryHandler.defaultName scope (attempts + 1) (p.count - (attempts + 1)) delay))) ()
    :: .did (.record (.counted (.retries scope))) () :: delay.pausing

/-- The retries of a handler, each with the deeds before it. -/
def RetryPolicy.rounds (p : RetryPolicy) (scope : String) : Nat → List (Trial σ) → List (Piece σ)
  | _, [] => []
  | attempts, a :: as => owns (p.retrying scope attempts) ++ (a.pieces ++ p.rounds scope (attempts + 1) as)

/-- After a failure these attempts are made, one after the other, up to a number of them or to the first
success. -/
inductive Retried (net : Network σ) (c : Context) (inv : Invocation σ) :
    Nat → Failure → Option Context → List (Trial σ) → Reply → Option Context → Prop
  | spent {e : Failure} {h : Option Context} : Retried net c inv 0 e h [] (.error e) h
  | success {n : Nat} {e : Failure} {v : String} {a : Trial σ} : a.Of net c inv → a.reply = .ok v →
      Retried net c inv (n + 1) e a.holder [a] (.ok v) a.left
  | failure {n : Nat} {e e' : Failure} {a : Trial σ} {as : List (Trial σ)} {reply : Reply} {h' : Option Context} :
      a.Of net c inv → a.reply = .error e' → Retried net c inv n e' a.left as reply h' →
        Retried net c inv (n + 1) e a.holder (a :: as) reply h'

theorem goes_retryLoop {p : RetryPolicy} {scope : String} {n attempts : Nat} {e : Failure}
    {r : Except Payload (Reply × Nat)} (hn : n + attempts = p.count)
    (hgoes : ((RetryHandler.ofPolicy p).retryLoop scope (c.decorate net inv) n attempts e).Goes h L r h') :
    ∃ as reply, Retried net c inv n e h as reply h' ∧ deedsIn (p.rounds scope attempts as) = L ∧
      r = .ok (reply, attempts + as.length) := by
  induction n generalizing attempts e h L with
  | zero =>
    obtain ⟨rfl, rfl, rfl⟩ := goes_done.1 hgoes
    exact ⟨[], _, .spent, rfl, rfl⟩
  | succ n ih =>
    obtain rfl : n = p.count - (attempts + 1) := by omega
    obtain ⟨L₁, hL, hcounted⟩ := (makes_log _).bind.1 hgoes
    obtain ⟨L₂, rfl, htold⟩ := (makes_count _).bind.1 hcounted
    obtain ⟨L₃, rfl, hpaused⟩ := (makes_done ()).bind.1 htold
    obtain ⟨L₄, rfl, hagain⟩ := (makes_pause _).bind.1 hpaused
    obtain rfl : L = p.retrying scope attempts ++ L₄ := hL
    rcases goes_bind.1 hagain with ⟨reply, h₁, L₅, L₆, rfl, hattempt, hrest⟩ | ⟨q, rfl, hattempt⟩
    · obtain ⟨a, ha, rfl, rfl, heq, rfl⟩ := goes_attempt hattempt
      cases heq
      cases hreply : a.reply with
      | ok v =>
        rw [hreply] at hrest
        obtain ⟨rfl, rfl, rfl⟩ := goes_done.1 hrest
        exact ⟨[a], _, .success ha hreply, by simp [RetryPolicy.rounds, Trial.deeds], rfl⟩
      | error e' =>
        rw [hreply] at hrest
        obtain ⟨as, reply, has, rfl, rfl⟩ := ih (by omega) hrest
        refine ⟨a :: as, reply, .failure ha hreply has, ?_, by rw [List.length_cons]; congr 2; omega⟩
        simp [RetryPolicy.rounds, Trial.deeds]
    · obtain ⟨a, -, -, -, heq, -⟩ := goes_attempt hattempt
      cases heq

omit [Inhabited σ] in
theorem Retried.ne_nil {n : Nat} {e : Failure} {as : List (Trial σ)} {v : String}
    (has : Retried net c inv n e h as (.ok v) h') : as ≠ [] := by
  cases has <;> exact List.cons_ne_nil _ _

/-! ## Handlers in order -/

/-- The deeds by which a handler says how its retries ended. -/
def RetryPolicy.concluding (scope : String) (reply : Reply) (attempts : Nat) : List (Deed σ) :=
  match reply with
  | .ok _ => [.did (.record (.counted (.failovers scope true))) ()]
  | .error _ =>
      [.did (.record (.traced (.exhausted RetryHandler.defaultName scope attempts))) (),
        .did (.record (.counted (.failovers scope false))) ()]

theorem makes_conclude {p : RetryPolicy} {scope : String} {reply : Reply} {attempts : Nat} :
    ((RetryHandler.ofPolicy p).conclude scope reply attempts : Program σ Unit).Makes h
      (RetryPolicy.concluding scope reply attempts) () h := by
  cases reply with
  | ok v => exact (makes_count _).trans (makes_done ())
  | error e => exact (makes_log _).trans ((makes_count _).trans (makes_done ()))

/-- The retries that one failover handler makes. -/
structure Spell (σ : Type) : Type 1 where
  policy : RetryPolicy
  holder : Option Context
  trials : List (Trial σ)
  reply : Reply

namespace Spell

/-- The scope under which the handler counts. -/
def scope (inv : Invocation σ) (s : Spell σ) : String := (s.holder.map Context.scope).getD inv.name

def pieces (inv : Invocation σ) (s : Spell σ) : List (Piece σ) :=
  owns [.did (.record (.traced (.handlerInvoked inv.name s.policy.priority))) (), .did (.holder id) s.holder] ++
    (s.policy.rounds (s.scope inv) 0 s.trials ++
      owns (RetryPolicy.concluding (s.scope inv) s.reply s.trials.length))

end Spell

/-- The handlers of these policies are called in one after the other, as long as the call fails. -/
inductive Recovered (net : Network σ) (c : Context) (inv : Invocation σ) :
    List RetryPolicy → Reply → Option Context → List (Spell σ) → Reply → Option Context → Prop
  | spent {reply : Reply} {h : Option Context} : Recovered net c inv [] reply h [] reply h
  | stop {p : RetryPolicy} {ps : List RetryPolicy} {v : String} {h : Option Context} :
      Recovered net c inv (p :: ps) (.ok v) h [] (.ok v) h
  | spell {ps : List RetryPolicy} {e : Failure} {s : Spell σ} {ss : List (Spell σ)} {reply : Reply}
      {h₁ h' : Option Context} : Retried net c inv s.policy.count e s.holder s.trials s.reply h₁ →
        Recovered net c inv ps s.reply h₁ ss reply h' →
          Recovered net c inv (s.policy :: ps) (.error e) s.holder (s :: ss) reply h'

theorem goes_handle {p : RetryPolicy} {e : Failure} {r : Except Payload Reply}
    (hgoes : ((RetryHandler.ofPolicy p).handle (c.decorate net inv) (.error e)).Goes h L r h') :
    ∃ as reply, Retried net c inv p.count e h as reply h' ∧ r = .ok reply ∧
      .did (.record (.traced (.handlerInvoked inv.name p.priority))) () :: L =
        deedsIn ((⟨p, h, as, reply⟩ : Spell σ).pieces inv) := by
  obtain ⟨L₁, rfl, hloop⟩ := (makes_currentScope _).bind.1 hgoes
  rcases goes_bind.1 hloop with ⟨⟨reply, attempts⟩, h₁, L₂, L₃, rfl, hretry, hrest⟩ | ⟨q, rfl, hretry⟩
  · obtain ⟨as, reply', has, rfl, heq⟩ := goes_retryLoop (Nat.add_zero _) hretry
    cases heq
    obtain ⟨L₄, rfl, hlast⟩ := makes_conclude.bind.1 hrest
    obtain ⟨rfl, rfl, rfl⟩ := goes_done.1 hlast
    exact ⟨as, reply, has, rfl, by simp [Spell.pieces, Spell.scope]⟩
  · obtain ⟨as, reply, -, -, heq⟩ := goes_retryLoop (Nat.add_zero _) hretry
    cases heq

theorem goes_handleAll {ps : List RetryPolicy} {reply : Reply} {r : Except Payload Reply}
    (hgoes : (FailoverChain.handleAll (c.decorate net inv) (ps.map RetryPolicy.handler) reply).Goes h L r h') :
    ∃ ss reply', Recovered net c inv ps reply h ss reply' h' ∧ deedsIn (ss.flatMap (Spell.pieces inv)) = L ∧
      r = .ok reply' := by
  induction ps generalizing reply h L with
  | nil =>
    obtain ⟨rfl, rfl, rfl⟩ := goes_done.1 hgoes
    exact ⟨[], _, .spent, rfl, rfl⟩
  | cons p ps ih =>
    cases reply with
    | ok v =>
      obtain ⟨rfl, rfl, rfl⟩ := goes_done.1 hgoes
      exact ⟨[], _, .stop, rfl, rfl⟩
    | error e =>
      obtain ⟨L₁, rfl, hhandle⟩ := (makes_log _).bind.1 hgoes
      rcases goes_bind.1 hhandle with ⟨reply, h₁, L₂, L₃, rfl, hfirst, hrest⟩ | ⟨q, rfl, hfirst⟩
      · obtain ⟨as, reply', has, heq, hdeeds⟩ := goes_handle hfirst
        cases heq
        obtain ⟨ss, reply', hss, rfl, rfl⟩ := ih hrest
        refine ⟨⟨p, h, as, reply⟩ :: ss, reply', .spell (s := ⟨p, h, as, reply⟩) has hss, ?_, rfl⟩
        rw [List.flatMap_cons, deedsIn_append, ← hdeeds, name_decorate]
        rfl
      · obtain ⟨as, reply', -, heq, -⟩ := goes_handle hfirst
        cases heq

omit [Inhabited σ] in
theorem Recovered.ne_nil {ps : List RetryPolicy} {e : Failure} {ss : List (Spell σ)} {v : String}
    (hss : Recovered net c inv ps (.error e) h ss (.ok v) h') : ss.flatMap Spell.trials ≠ [] := by
  generalize hreply : (.error e : Reply) = reply at hss
  generalize hlast : (.ok v : Reply) = last at hss
  induction hss generalizing e with
  | spent => cases hreply.trans hlast.symm
  | stop => cases hreply
  | @spell ps e' s ss reply h₁ h' has hrest ih =>
    subst hlast
    cases hs : s.reply with
    | ok v' =>
      rw [hs] at has
      simp [has.ne_nil]
    | error e'' =>
      have hmore := ih hs.symm rfl
      simp only [List.flatMap_cons, ne_eq, List.append_eq_nil_iff, not_and]
      exact fun _ => hmore

end Attempts

/-! ## The end of a request -/

/-- Listeners are told of an event, one after the other. -/
inductive Told (event : ε) : List (Listener σ ε) → Option Context → List (Part σ) → Option Context → Prop
  | nobody {h : Option Context} : Told event [] h [] h
  | next {l : Listener σ ε} {ls : List (Listener σ ε)} {h h₁ h' : Option Context} {L : List (Deed σ)}
      {r : Except Payload Unit} {xs : List (Part σ)} : (l event).Goes h L r h₁ → Told event ls h₁ xs h' →
        Told event (l :: ls) h (⟨Unit, l event, h, L, r, h₁⟩ :: xs) h'

theorem goes_emit {ls : List (Listener σ ε)} {event : ε} {r : Except Payload Unit}
    (hgoes : (emit ls event).Goes h L r h') :
    ∃ xs, Told event ls h xs h' ∧ deedsIn (xs.map .client) = L ∧ r = .ok () := by
  induction ls generalizing h L with
  | nil =>
    obtain ⟨rfl, rfl, rfl⟩ := goes_done.1 hgoes
    exact ⟨[], .nobody, rfl, rfl⟩
  | cons l ls ih =>
    obtain ⟨r₁, h₁, L₁, L₂, rfl, hfirst, hrest⟩ := goes_caught_bind.1 hgoes
    obtain ⟨xs, hxs, rfl, rfl⟩ := ih hrest
    exact ⟨_, .next hfirst hxs, rfl, rfl⟩

namespace Requester

/-- How a request ended, as its counter says. -/
def Outcome.result : Outcome → RequestResult
  | .success _ => .success
  | .recovered _ => .recovered
  | .failed _ => .error

/-- The conclusion of a request, with how it ends and what its listeners are told. -/
inductive Concludes (r : Requester σ) (scope : String) (h : Option Context) : Outcome → List (Piece σ) →
    Result → Option RequestEvent → Option Context → Prop
  | success {v : String} {xs : List (Part σ)} {h' : Option Context} :
      Told (.success scope) r.listeners h xs h' →
        Concludes r scope h (.success v)
          (.own (.did (.record (.counted (.requests scope .success))) ()) :: xs.map .client) (.ok (.ok v))
          (some (.success scope)) h'
  | recovered {v : String} {xs : List (Part σ)} {h' : Option Context} :
      Told (.recovered scope) r.listeners h xs h' →
        Concludes r scope h (.recovered v)
          (.own (.did (.record (.counted (.requests scope .recovered))) ()) :: xs.map .client) (.ok (.ok v))
          (some (.recovered scope)) h'
  | failed {e : Failure} {x : RpcError} {L : List (Deed σ)} {xs : List (Part σ)} {h₁ h' : Option Context} :
      (r.convert e).Goes h L (.ok x) h₁ → Told (.error scope x.kind) r.listeners h₁ xs h' →
        Concludes r scope h (.failed e)
          (through (r.convert e) h L (.ok x) h₁ ::
            .own (.did (.record (.traced (.requestFailed r.name scope x.kind x.toFailure))) ()) ::
              .own (.did (.record (.counted (.requests scope .error))) ()) :: xs.map .client) (.ok (.error x))
          (some (.error scope x.kind)) h'
  /-- The conversion panics, and nobody is told. -/
  | panicked {e : Failure} {p : Payload} {L : List (Deed σ)} {h' : Option Context} :
      (r.convert e).Goes h L (.error p) h' →
        Concludes r scope h (.failed e) [through (r.convert e) h L (.error p) h'] (.error p) none h'

variable [Inhabited σ] {r : Requester σ}

theorem goes_tell {counter : Counter} {event : RequestEvent} {a : α} {res : Except Payload α}
    (hgoes : ((count counter).bind fun _ => (emit r.listeners event).bind fun _ => done a).Goes h L res h') :
    ∃ xs, Told event r.listeners h xs h' ∧ res = .ok a ∧
      L = .did (.record (.counted counter)) () :: deedsIn (xs.map .client) := by
  obtain ⟨L₁, rfl, htell⟩ := (makes_count _).bind.1 hgoes
  rcases goes_bind.1 htell with ⟨u, h₁, L₂, L₃, rfl, hemit, hrest⟩ | ⟨q, rfl, hemit⟩
  · obtain ⟨xs, hxs, rfl, -⟩ := goes_emit hemit
    obtain ⟨rfl, rfl, rfl⟩ := goes_done.1 hrest
    exact ⟨xs, hxs, rfl, by rw [List.append_nil]; rfl⟩
  · obtain ⟨xs, -, -, hq⟩ := goes_emit hemit
    cases hq

theorem goes_conclude {scope : String} {outcome : Outcome} {res : Result}
    (hgoes : (r.conclude scope outcome).Goes h L res h') :
    ∃ ps event, r.Concludes scope h outcome ps res event h' ∧ deedsIn ps = L := by
  cases outcome with
  | success v =>
    obtain ⟨xs, hxs, rfl, rfl⟩ := goes_tell hgoes
    exact ⟨_, _, .success hxs, rfl⟩
  | recovered v =>
    obtain ⟨xs, hxs, rfl, rfl⟩ := goes_tell hgoes
    exact ⟨_, _, .recovered hxs, rfl⟩
  | failed e =>
    rcases goes_bind.1 hgoes with ⟨x, h₁, L₁, L₂, rfl, hconvert, hrest⟩ | ⟨q, rfl, hconvert⟩
    · obtain ⟨L₃, rfl, htell⟩ := (makes_log _).bind.1 hrest
      obtain ⟨xs, hxs, rfl, rfl⟩ := goes_tell htell
      exact ⟨_, _, .failed hconvert hxs, rfl⟩
    · exact ⟨_, _, .panicked hconvert, List.append_nil L⟩

end Requester

/-! ## Requests -/

namespace Requester

variable {net : Network σ} {r : Requester σ} {inv : Invocation σ}

/-- A request that has found its context. -/
def under (net : Network σ) (r : Requester σ) (base : Context) (inv : Invocation σ) :
    Program σ (Except RpcError String) :=
  withContext (base.withScope inv.name)
    ((r.execute net (base.withScope inv.name) inv).bind fun outcome =>
      (record (.sampled inv.name)).bind fun _ => r.conclude inv.name outcome)

theorem request_eq : r.request net inv = r.base.bind fun base => r.under net base inv := rfl

end Requester

/-- The course of a request that came to its end. -/
structure Course (σ : Type) : Type 1 where
  /-- What the thread had attached before. -/
  holder : Option Context
  /-- The context that was found at the start. -/
  base : Context
  /-- The first attempt. -/
  first : Trial σ
  /-- The failover handlers that were called in. -/
  spells : List (Spell σ)
  /-- The reply of the last attempt. -/
  reply : Reply
  conclusion : List (Piece σ)
  /-- What the listeners were told. -/
  event : Option RequestEvent
  result : Requester.Result
  /-- What was attached to the thread before the request put back what was there. -/
  left : Option Context

namespace Course

/-- All attempts, in order. -/
def trials (x : Course σ) : List (Trial σ) := x.first :: x.spells.flatMap Spell.trials

def retries (x : Course σ) : Nat := (x.spells.flatMap Spell.trials).length

def outcome (x : Course σ) : Requester.Outcome := .ofReply x.retries x.reply

/-- The deeds by which failover begins. -/
def announcing (r : Requester σ) (c : Context) (e : Failure) : List (Deed σ) :=
  .did (.record (.traced (.ordered ((FailoverChain.ordered c).map RetryPolicy.priority)))) () ::
    if FailoverChain.ordered c = [] then []
    else [.did (.record (.traced (.routed r.name c.scope (FailoverChain.ordered c).length e))) ()]

/-- What is done in failover after a first attempt. -/
def recovery (r : Requester σ) (c : Context) (inv : Invocation σ) (ss : List (Spell σ)) : Reply → List (Piece σ)
  | .ok _ => []
  | .error e => owns (announcing r c e) ++ ss.flatMap (Spell.pieces inv)

/-- What is done once the context is found. -/
def worked (r : Requester σ) (inv : Invocation σ) (x : Course σ) : List (Piece σ) :=
  owns (attaching (x.base.withScope inv.name) x.holder) ++ (x.first.pieces ++
    (recovery r (x.base.withScope inv.name) inv x.spells x.first.reply ++
      (owns [.did (.record (.sampled inv.name)) ()] ++ (x.conclusion ++ owns (releasing x.holder x.left)))))

/-- All that is done in the request. -/
def pieces (r : Requester σ) (inv : Invocation σ) (x : Course σ) : List (Piece σ) :=
  owns (r.basing x.holder x.base) ++ x.worked r inv

/-- The courses that a request may take. -/
structure Of (net : Network σ) (r : Requester σ) (inv : Invocation σ) (x : Course σ) : Prop where
  base : ∀ c, x.holder = some c → c = x.base
  /-- The first attempt is made under the derived context. -/
  holder : x.first.holder = some (x.base.withScope inv.name)
  first : x.first.Of net (x.base.withScope inv.name) inv
  rest : ∃ h, Recovered net (x.base.withScope inv.name) inv (FailoverChain.ordered (x.base.withScope inv.name))
      x.first.reply x.first.left x.spells x.reply h ∧
    r.Concludes inv.name h x.outcome x.conclusion x.result x.event x.left

end Course

section Requests

variable [Inhabited σ] {net : Network σ} {r : Requester σ} {inv : Invocation σ} {c : Context}

theorem goes_recover {e : Failure} {res : Except Payload Requester.Outcome}
    (hgoes : (r.recover c (c.decorate net inv) e).Goes h L res h') :
    ∃ ss reply, Recovered net c inv (FailoverChain.ordered c) (.error e) h ss reply h' ∧
      L = Course.announcing r c e ++ deedsIn (ss.flatMap (Spell.pieces inv)) ∧
        res = .ok (.ofReply (ss.flatMap Spell.trials).length reply) := by
  obtain ⟨L₁, rfl, hrouted⟩ := (makes_log _).bind.1 hgoes
  have hhandlers := handlers_ofContext (σ := σ) c
  have hpriorities : (FailoverChain.ofContext c : FailoverChain σ).priorities =
      (FailoverChain.ordered c).map RetryPolicy.priority := by
    rw [FailoverChain.priorities, hhandlers, List.map_map]
    rfl
  rw [hpriorities]
  unfold Course.announcing
  cases hps : FailoverChain.ordered c with
  | nil =>
    rw [hps] at hhandlers
    rw [if_pos (by simp [hhandlers])] at hrouted
    obtain ⟨rfl, rfl, rfl⟩ := goes_done.1 hrouted
    exact ⟨[], _, .spent, rfl, rfl⟩
  | cons p ps =>
    rw [hps] at hhandlers
    rw [if_neg (by simp [hhandlers])] at hrouted
    obtain ⟨L₂, rfl, hhandle⟩ := (makes_log _).bind.1 hrouted
    rw [FailoverChain.handle, hhandlers] at hhandle
    rcases goes_bind.1 hhandle with ⟨reply, h₁, L₃, L₄, rfl, hall, hrest⟩ | ⟨q, rfl, hall⟩
    · obtain ⟨ss, reply', hss, rfl, heq⟩ := goes_handleAll hall
      cases heq
      cases reply with
      | ok v =>
        obtain ⟨rfl, rfl, rfl⟩ := goes_done.1 hrest
        refine ⟨ss, _, hss, by simp [hhandlers], ?_⟩
        rw [Requester.Outcome.ofReply, if_neg fun hnil => hss.ne_nil (List.length_eq_zero_iff.1 hnil)]
      | error e' =>
        obtain ⟨rfl, rfl, rfl⟩ := goes_done.1 hrest
        exact ⟨ss, _, hss, by simp [hhandlers], rfl⟩
    · obtain ⟨ss, reply', -, -, heq⟩ := goes_handleAll hall
      cases heq

theorem goes_execute {res : Except Payload Requester.Outcome} (hgoes : (r.execute net c inv).Goes h L res h') :
    ∃ (first : Trial σ) (ss : List (Spell σ)) (reply : Reply), first.Of net c inv ∧ first.holder = h ∧
      Recovered net c inv (FailoverChain.ordered c) first.reply first.left ss reply h' ∧
      L = first.deeds ++ deedsIn (Course.recovery r c inv ss first.reply) ∧
        res = .ok (.ofReply (ss.flatMap Spell.trials).length reply) := by
  rcases goes_bind.1 hgoes with ⟨reply, h₁, L₁, L₂, rfl, hattempt, hrest⟩ | ⟨q, rfl, hattempt⟩
  · obtain ⟨first, hfirst, rfl, rfl, heq, rfl⟩ := goes_attempt hattempt
    cases heq
    cases hreply : first.reply with
    | ok v =>
      rw [hreply] at hrest
      obtain ⟨rfl, rfl, rfl⟩ := goes_done.1 hrest
      refine ⟨first, [], .ok v, hfirst, rfl, ?_, by rw [hreply]; rfl, rfl⟩
      rw [hreply]
      cases FailoverChain.ordered c with
      | nil => exact .spent
      | cons p ps => exact .stop
    | error e =>
      rw [hreply] at hrest
      obtain ⟨ss, reply, hss, rfl, rfl⟩ := goes_recover hrest
      refine ⟨first, ss, reply, hfirst, rfl, by rw [hreply]; exact hss, ?_, rfl⟩
      rw [hreply, Course.recovery, deedsIn_append, deedsIn_owns]
  · obtain ⟨first, -, -, -, heq, -⟩ := goes_attempt hattempt
    cases heq

theorem course_of_under {base : Context} {res : Requester.Result} (hattached : ∀ c, h = some c → c = base)
    (hgoes : (r.under net base inv).Goes h L res h') :
    ∃ x : Course σ, x.Of net r inv ∧ x.base = base ∧ x.holder = h ∧ x.result = res ∧
      deedsIn (x.worked r inv) = L ∧ h' = h := by
  obtain ⟨L₁, left, rfl, hbody, rfl⟩ := goes_withContext.1 hgoes
  rcases goes_bind.1 hbody with ⟨outcome, h₂, L₂, L₃, rfl, hexecute, hrest⟩ | ⟨q, -, hexecute⟩
  · obtain ⟨first, ss, reply, hfirst, hholder, hss, rfl, heq⟩ := goes_execute hexecute
    cases heq
    obtain ⟨L₄, rfl, hconclude⟩ := (makes_record _).bind.1 hrest
    obtain ⟨ps, event, hps, rfl⟩ := Requester.goes_conclude hconclude
    refine ⟨⟨h', base, first, ss, reply, ps, event, res, left⟩, ⟨hattached, hholder, hfirst, h₂, hss, hps⟩, rfl, rfl,
      rfl, ?_, rfl⟩
    simp [Course.worked, Trial.deeds]
  · obtain ⟨first, ss, reply, -, -, -, -, heq⟩ := goes_execute hexecute
    cases heq

/-- **The course of a request.** A request that comes to its end makes its attempts and calls in its handlers in
order, as the context says that it found at its start, and then concludes; all else that it does is client
code. -/
theorem course_of_goes {res : Requester.Result} (hgoes : (r.request net inv).Goes h L res h') :
    ∃ x : Course σ, x.Of net r inv ∧ x.holder = h ∧ x.result = res ∧ deedsIn (x.pieces r inv) = L ∧ h' = h := by
  rw [Requester.request_eq] at hgoes
  rcases goes_bind.1 hgoes with ⟨base, h₁, L₁, L₂, rfl, hbase, hunder⟩ | ⟨q, -, hbase⟩
  · obtain ⟨base', rfl, heq, rfl, hattached⟩ := Requester.goes_base hbase
    cases heq
    obtain ⟨x, hx, rfl, rfl, hresult, rfl, rfl⟩ := course_of_under hattached hunder
    exact ⟨x, hx, rfl, hresult, by rw [Course.pieces, deedsIn_append, deedsIn_owns], rfl⟩
  · obtain ⟨base, -, heq, -⟩ := Requester.goes_base hbase
    cases heq

end Requests

end ResilientCalls
