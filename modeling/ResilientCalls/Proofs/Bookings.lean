import ResilientCalls.Proofs.ExhaustedRequest

/-!
# What is counted of a request

The counters of requests, retries, failover and timeouts grow at different places of the code. A `Booking` is one
such growth without the scope under which a component counts. What a request books itself is computed along its
course (`Course.Of.books`), and compared with what its attempts came to (`Course.Of.count_bookings`): in each of
its outcomes it books itself once, each attempt after the first one, each handler that was called in, and each
wait that ran out.
-/

namespace ResilientCalls

open Program

variable {σ : Type}

/-- What is counted of requests. -/
inductive Booking
  | request (scope : String) (result : RequestResult)
  | retry
  /-- A failover handler has recovered a call. -/
  | recovery
  /-- A failover handler has used up its retries. -/
  | exhaustion
  /-- The wait for an attempt has run out. -/
  | timeout
deriving DecidableEq

def Counter.booking? : Counter → Option Booking
  | .requests scope result => some (.request scope result)
  | .retries _ => some .retry
  | .failovers _ true => some .recovery
  | .failovers _ false => some .exhaustion
  | .timeouts _ => some .timeout
  | .connects .. | .completions _ => none

def Entry.booking? : Entry → Option Booking
  | .counted c => c.booking?
  | _ => none

/-- What a step adds to the journal. -/
def Deed.recorded? : Deed σ → Option Entry
  | .did (.record e) _ => some e
  | _ => none

/-- What a step books. -/
def Deed.booking? (e : Deed σ) : Option Booking := e.recorded?.bind Entry.booking?

def bookingsIn (L : List (Deed σ)) : List Booking := L.filterMap Deed.booking?

/-- Whether a wait for a worker ran out. -/
def Deed.isElapsed : Deed σ → Bool
  | .answered _ .elapsed => true
  | _ => false

section Lists

variable {L L' : List (Deed σ)} {e : Deed σ}

@[simp] theorem bookingsIn_append : bookingsIn (L ++ L') = bookingsIn L ++ bookingsIn L' := List.filterMap_append

@[simp] theorem bookingsIn_cons : bookingsIn (e :: L) = e.booking?.toList ++ bookingsIn L := by
  rw [bookingsIn, List.filterMap_cons]
  cases e.booking? <;> rfl

@[simp] theorem bookingsIn_nil : bookingsIn ([] : List (Deed σ)) = [] := rfl

@[simp] theorem bookingsIn_pausing (d : Duration) : bookingsIn (d.pausing : List (Deed σ)) = [] := by
  unfold Duration.pausing
  split <;> rfl

@[simp] theorem isElapsed_pausing (d : Duration) : (d.pausing : List (Deed σ)).any Deed.isElapsed = false := by
  unfold Duration.pausing
  split <;> rfl

end Lists

namespace Piece

variable {ps qs : List (Piece σ)} {e : Deed σ} {x : Part σ}

@[simp] theorem ownIn_clients (xs : List (Part σ)) : ownIn (xs.map client) = [] := by
  induction xs with
  | nil => rfl
  | cons x xs ih => exact ih

end Piece

open Piece

/-! ## Attempts -/

/-- The wait for the worker of the attempt ran out. -/
def Trial.ranOut (a : Trial σ) : Bool := (ownIn a.pieces).any Deed.isElapsed

/-- The attempt has a value. -/
def Trial.succeeded (a : Trial σ) : Bool := a.reply.isOk

/-- What an attempt books. -/
def Trial.bookings (a : Trial σ) : List Booking := if a.ranOut then [.timeout] else []

section Attempts

variable {net : Network σ} {inv : Invocation σ} {c : Context} {h h' : Option Context}

theorem ConnectStrategy.Connecting.books {s : ConnectStrategy} {left attempt : Nat} {last : Failure}
    {ps : List (Piece σ)} {q : Except Payload (Except Failure Unit)}
    (hps : s.Connecting net left attempt last h ps q h') :
    bookingsIn (ownIn ps) = [] ∧ (ownIn ps).any Deed.isElapsed = false := by
  induction hps with
  | gaveUp | connected | panicked => exact ⟨rfl, rfl⟩
  | failed _ _ ih =>
    split <;> simp [Deed.booking?, Deed.recorded?, Entry.booking?, Counter.booking?, Deed.isElapsed, ih]

theorem Context.Connecting.books {ps : List (Piece σ)} {q : Except Payload (Except Failure Unit)}
    (hps : c.Connecting net h ps q h') :
    bookingsIn (ownIn ps) = [] ∧ (ownIn ps).any Deed.isElapsed = false := by
  cases hps with
  | unasked | standing | panicked => exact ⟨rfl, rfl⟩
  | asked _ _ hloop => exact hloop.books

theorem Context.Calling.books {q : Except Payload (Except Failure Unit)} {qs : List (Piece σ)} {reply : Reply}
    (hqs : c.Calling inv h q qs reply h') :
    bookingsIn (ownIn qs) = if (ownIn qs).any Deed.isElapsed then [.timeout] else [] := by
  cases hqs with
  | refused | crashed | called => rfl
  | @bounded s m d => cases d <;> rfl

theorem Trial.Of.books {a : Trial σ} (ha : a.Of net c inv) : bookingsIn (ownIn a.pieces) = a.bookings := by
  obtain ⟨hps, -, hqs⟩ := ha
  obtain ⟨hnone, hintime⟩ := hps.books
  rw [Trial.bookings, Trial.ranOut, ownIn_append, bookingsIn_append, hnone, List.any_append, hintime, hqs.books]
  rfl

/-! ## Retries -/

/-- What the retries of a handler book, each one before its attempt. -/
def retryBookings (as : List (Trial σ)) : List Booking := as.flatMap fun a => .retry :: a.bookings

theorem Retried.books {n : Nat} {e : Failure} {as : List (Trial σ)} {reply : Reply} {p : RetryPolicy}
    {scope : String} {attempts : Nat} (has : Retried net c inv n e h as reply h') :
    bookingsIn (ownIn (p.rounds scope attempts as)) = retryBookings as := by
  have hretrying : ∀ attempts, bookingsIn (p.retrying scope attempts : List (Deed σ)) = [.retry] := by
    intro attempts
    simp [RetryPolicy.retrying, Deed.booking?, Deed.recorded?, Entry.booking?, Counter.booking?]
  induction has generalizing attempts with
  | spent => rfl
  | success ha => simp [RetryPolicy.rounds, retryBookings, hretrying, ha.books]
  | failure ha _ _ ih =>
    rw [RetryPolicy.rounds, ownIn_append, ownIn_append, bookingsIn_append, bookingsIn_append, ownIn_owns, hretrying,
      ha.books, ih]
    simp [retryBookings]

/-- What a handler books at its end. -/
def verdictOf : Reply → Booking
  | .ok _ => .recovery
  | .error _ => .exhaustion

def Spell.bookings (s : Spell σ) : List Booking := retryBookings s.trials ++ [verdictOf s.reply]

theorem Recovered.books {ps : List RetryPolicy} {first reply : Reply} {ss : List (Spell σ)}
    (hss : Recovered net c inv ps first h ss reply h') :
    bookingsIn (ownIn (ss.flatMap (Spell.pieces inv))) = ss.flatMap Spell.bookings := by
  induction hss with
  | spent | stop => rfl
  | @spell ps e s ss reply h₁ h' has _ ih =>
    have hconcluding : bookingsIn (RetryPolicy.concluding (s.scope inv) s.reply s.trials.length : List (Deed σ)) =
        [verdictOf s.reply] := by
      cases s.reply <;> rfl
    simp [Spell.pieces, Spell.bookings, has.books, hconcluding, ih, Deed.booking?, Deed.recorded?, Entry.booking?]

end Attempts

/-! ## How often -/

theorem count_trial (a : Trial σ) (b : Booking) :
    a.bookings.count b = if b = .timeout ∧ a.ranOut = true then 1 else 0 := by
  unfold Trial.bookings
  cases a.ranOut <;> cases b <;> rfl

theorem count_retryBookings (as : List (Trial σ)) (b : Booking) : (retryBookings as).count b =
    (if b = .retry then as.length else 0) + if b = .timeout then as.countP Trial.ranOut else 0 := by
  induction as with
  | nil => simp [retryBookings]
  | cons a as ih =>
    rw [retryBookings, List.flatMap_cons, List.count_append, ← retryBookings, ih, List.count_cons, count_trial,
      List.length_cons, List.countP_cons]
    cases b <;> simp [Nat.add_comm]

theorem count_spells (ss : List (Spell σ)) (b : Booking) : (ss.flatMap Spell.bookings).count b =
    (retryBookings (ss.flatMap Spell.trials)).count b + (ss.map fun s => verdictOf s.reply).count b := by
  induction ss with
  | nil => rfl
  | cons s ss ih =>
    have htrials : retryBookings ((s :: ss).flatMap Spell.trials) =
        retryBookings s.trials ++ retryBookings (ss.flatMap Spell.trials) := by
      rw [List.flatMap_cons]
      exact List.flatMap_append
    rw [List.flatMap_cons, Spell.bookings, htrials, List.map_cons, ← List.singleton_append (l := ss.map _)]
    simp only [List.count_append, ih]
    omega

theorem count_verdicts_eq_zero {b : Booking} (ss : List (Spell σ)) (hrecovery : b ≠ .recovery)
    (hexhaustion : b ≠ .exhaustion) : (ss.map fun s => verdictOf s.reply).count b = 0 := by
  refine List.count_eq_zero.2 fun hb => ?_
  obtain ⟨s, -, rfl⟩ := List.mem_map.1 hb
  cases hs : s.reply <;> simp [verdictOf, hs] at hrecovery hexhaustion

section Counts

variable {net : Network σ} {inv : Invocation σ} {c : Context} {h h' : Option Context}

theorem Retried.any_succeeded {n : Nat} {e : Failure} {as : List (Trial σ)} {reply : Reply}
    (has : Retried net c inv n e h as reply h') : as.any Trial.succeeded = reply.isOk := by
  induction has with
  | spent => rfl
  | success _ hv => simp [Trial.succeeded, hv]
  | failure _ he _ ih =>
    rw [List.any_cons, ih, Trial.succeeded, he]
    rfl

theorem Recovered.any_succeeded {ps : List RetryPolicy} {first reply : Reply} {ss : List (Spell σ)}
    (hss : Recovered net c inv ps first h ss reply h') :
    (first.isOk || (ss.flatMap Spell.trials).any Trial.succeeded) = reply.isOk := by
  induction hss with
  | spent => simp
  | stop => rfl
  | spell has _ ih =>
    rw [List.flatMap_cons, List.any_append, has.any_succeeded, ih]
    rfl

theorem Recovered.policies {ps : List RetryPolicy} {first reply : Reply} {ss : List (Spell σ)}
    (hss : Recovered net c inv ps first h ss reply h') : ss.map Spell.policy <+: ps := by
  induction hss with
  | spent | stop => exact List.nil_prefix
  | spell _ _ ih => exact List.cons_prefix_cons.2 ⟨rfl, ih⟩

theorem Recovered.count_recovery {ps : List RetryPolicy} {first reply : Reply} {ss : List (Spell σ)}
    (hss : Recovered net c inv ps first h ss reply h') :
    (ss.map fun s => verdictOf s.reply).count .recovery = if reply.isOk && !first.isOk then 1 else 0 := by
  induction hss with
  | spent => simp
  | stop => rfl
  | @spell ps e s ss reply h₁ h' _ hrest ih =>
    rw [List.map_cons, List.count_cons, ih]
    cases hs : s.reply with
    | ok v =>
      have hrecovered : reply.isOk = true := by
        rw [← hrest.any_succeeded, hs]
        rfl
      rw [hrecovered]
      rfl
    | error e' => rfl

theorem Recovered.count_exhaustion {ps : List RetryPolicy} {first reply : Reply} {ss : List (Spell σ)}
    (hss : Recovered net c inv ps first h ss reply h') (hfirst : first.isOk = false) :
    (ss.map fun s => verdictOf s.reply).count .exhaustion = if reply.isOk then ss.length - 1 else ps.length := by
  induction hss with
  | spent => simp [hfirst]
  | stop => cases hfirst
  | @spell ps e s ss reply h₁ h' _ hrest ih =>
    rw [List.map_cons, List.count_cons, List.length_cons, List.length_cons]
    cases hs : s.reply with
    | ok v =>
      have hrecovered : reply.isOk = true := by
        rw [← hrest.any_succeeded, hs]
        rfl
      rw [hs] at hrest
      rw [hrest.of_ok, hrecovered]
      rfl
    | error e' =>
      rw [ih (by rw [hs]; rfl)]
      cases hreply : reply with
      | error e'' => rfl
      | ok v =>
        rw [hs, hreply] at hrest
        have hmore : ss ≠ [] := fun hnil => hrest.ne_nil (by rw [hnil]; rfl)
        exact Nat.sub_add_cancel (List.length_pos_iff.2 hmore)

end Counts

/-! ## Requests -/

/-- The conversion of a failure never panics. -/
def Requester.NeverPanics (r : Requester σ) : Prop :=
  ∀ {e : Failure} {h h' : Option Context} {L : List (Deed σ)} {p : Payload}, ¬ (r.convert e).Goes h L (.error p) h'

section Requests

variable {net : Network σ} {r : Requester σ} {inv : Invocation σ} {h h' : Option Context}

theorem Requester.Concludes.books {scope : String} {outcome : Requester.Outcome} {ps : List (Piece σ)}
    {q : Requester.Result} {event : Option RequestEvent} (hps : r.Concludes scope h outcome ps q event h')
    (hconvert : r.NeverPanics) : bookingsIn (ownIn ps) = [.request scope outcome.result] := by
  cases hps with
  | success | recovered | failed =>
    simp [Deed.booking?, Deed.recorded?, Entry.booking?, Counter.booking?, Outcome.result]
  | panicked hgoes => exact absurd hgoes hconvert

namespace Course

variable {x : Course σ}

/-- What a request books itself. -/
def bookings (inv : Invocation σ) (x : Course σ) : List Booking :=
  x.first.bookings ++ (x.spells.flatMap Spell.bookings ++ [.request inv.name x.outcome.result])

/-- **What a request books.** -/
theorem Of.books (hx : x.Of net r inv) (hconvert : r.NeverPanics) :
    bookingsIn (ownIn (x.pieces r inv)) = x.bookings inv := by
  obtain ⟨h, hrecovered, hconclude⟩ := hx.rest
  have hbasing : bookingsIn (r.basing x.holder x.base) = [] := by
    cases x.holder <;> rfl
  have hattaching : bookingsIn (attaching (x.base.withScope inv.name) x.holder : List (Deed σ)) = [] := rfl
  have hreleasing : bookingsIn (releasing x.holder x.left : List (Deed σ)) = [] := by
    cases x.left <;> rfl
  have hsampled : bookingsIn [(.did (.record (.sampled inv.name)) () : Deed σ)] = [] := rfl
  have hrecovery : bookingsIn (ownIn (recovery r (x.base.withScope inv.name) inv x.spells x.first.reply)) =
      x.spells.flatMap Spell.bookings := by
    cases hreply : x.first.reply with
    | ok v =>
      rw [hreply] at hrecovered
      rw [hrecovered.of_ok]
      rfl
    | error e =>
      have hannouncing : bookingsIn (announcing r (x.base.withScope inv.name) e : List (Deed σ)) = [] := by
        unfold announcing
        split <;> rfl
      rw [recovery, ownIn_append, ownIn_owns, bookingsIn_append, hannouncing, hrecovered.books]
      rfl
  simp only [pieces, worked, bookings, ownIn_append, ownIn_owns, bookingsIn_append, hbasing, hattaching, hreleasing,
    hsampled, hrecovery, hx.first.books, hconclude.books hconvert, List.nil_append, List.append_nil]

/-- How a request ended, by its attempts: the first one has a value, or a later one, or none. -/
def verdict (x : Course σ) : RequestResult :=
  if x.first.succeeded then .success else if x.trials.any Trial.succeeded then .recovered else .error

theorem Of.verdict_eq (hx : x.Of net r inv) : x.verdict =
    if x.first.reply.isOk then .success else if x.reply.isOk then .recovered else .error := by
  obtain ⟨h, hrecovered, -⟩ := hx.rest
  rw [verdict, trials, List.any_cons, ← hrecovered.any_succeeded]
  rfl

theorem Of.result_outcome (hx : x.Of net r inv) : x.outcome.result = x.verdict := by
  obtain ⟨h, hrecovered, -⟩ := hx.rest
  have hany := hrecovered.any_succeeded
  rw [hx.verdict_eq, outcome]
  cases hfirst : x.first.reply with
  | ok v =>
    rw [hfirst] at hrecovered hany
    rw [retries, hrecovered.of_ok]
    cases hreply : x.reply with
    | ok v' => rfl
    | error e =>
      rw [hreply] at hany
      cases hany
  | error e =>
    rw [hfirst] at hrecovered
    cases hreply : x.reply with
    | error e' => rfl
    | ok v =>
      rw [hreply] at hrecovered
      have hretries : x.retries ≠ 0 := fun hnone => hrecovered.ne_nil (List.length_eq_zero_iff.1 hnone)
      rw [Requester.Outcome.ofReply, if_neg hretries]
      rfl

/-- What a request has to book, by what its attempts came to. -/
def tally (inv : Invocation σ) (x : Course σ) : Booking → Nat
  | .request scope result => if scope = inv.name ∧ result = x.verdict then 1 else 0
  | .retry => x.trials.length - 1
  | .recovery => if x.verdict = .recovered then 1 else 0
  | .exhaustion =>
      match x.verdict with
      | .success => 0
      | .recovered => x.spells.length - 1
      | .error => (FailoverChain.ordered (x.base.withScope inv.name)).length
  | .timeout => x.trials.countP Trial.ranOut

theorem count_bookings_eq (b : Booking) (x : Course σ) : (x.bookings inv).count b =
    (if b = .timeout ∧ x.first.ranOut = true then 1 else 0) + (x.spells.flatMap Spell.bookings).count b +
      if .request inv.name x.outcome.result = b then 1 else 0 := by
  rw [bookings, List.count_append, List.count_append, count_trial, List.count_singleton, Nat.add_assoc]
  simp only [beq_iff_eq]

/-- **The bookings of a request add up.** -/
theorem Of.count_bookings (hx : x.Of net r inv) (b : Booking) : (x.bookings inv).count b = x.tally inv b := by
  obtain ⟨h, hrecovered, -⟩ := hx.rest
  rw [count_bookings_eq, count_spells, count_retryBookings, hx.result_outcome]
  cases b with
  | request scope result => simp [count_verdicts_eq_zero, tally, @eq_comm _ scope, @eq_comm _ result]
  | retry => simp [count_verdicts_eq_zero, tally, trials]
  | timeout => simp [count_verdicts_eq_zero, tally, trials, List.countP_cons, Nat.add_comm]
  | recovery =>
    rw [hrecovered.count_recovery, tally, hx.verdict_eq]
    cases x.first.reply.isOk <;> cases x.reply.isOk <;> rfl
  | exhaustion =>
    rw [tally, hx.verdict_eq]
    cases hfirst : x.first.reply with
    | ok v =>
      rw [hfirst] at hrecovered
      rw [hrecovered.of_ok]
      rfl
    | error e =>
      rw [hrecovered.count_exhaustion (by rw [hfirst]; rfl)]
      cases x.reply <;> simp [Except.isOk, Except.toBool]

end Course

end Requests

end ResilientCalls
