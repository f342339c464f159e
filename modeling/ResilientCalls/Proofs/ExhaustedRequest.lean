import Mathlib.Data.List.Infix
import ResilientCalls.Proofs.RequestCourse

/-!
# A request whose attempts all fail

Such a request makes all attempts that its context allows, each of them under the derived context, and ends with
the last failure (`Course.exhausted`). In each of them the call is made once, on the thread of the request or on
a worker (`Trial.Of.calls`).
-/

namespace ResilientCalls

open Program
open Piece

variable {σ : Type} {net : Network σ} {r : Requester σ} {inv : Invocation σ} {c : Context}
  {h h' : Option Context}

/-! ## Attempts in a row -/

/-- The reply after some attempts. -/
def lastReply (first : Reply) (as : List (Trial σ)) : Reply := as.foldl (fun _ a => a.reply) first

@[simp]
theorem lastReply_append (first : Reply) (as bs : List (Trial σ)) :
    lastReply first (as ++ bs) = lastReply (lastReply first as) bs :=
  List.foldl_append

theorem getLast?_replies (a : Trial σ) (as : List (Trial σ)) :
    ((a :: as).map Trial.reply).getLast? = some (lastReply a.reply as) := by
  induction as generalizing a with
  | nil => rfl
  | cons b as ih =>
    rw [List.map_cons, List.map_cons, List.getLast?_cons_cons]
    exact ih b

theorem Retried.of_mem {n : Nat} {e : Failure} {as : List (Trial σ)} {reply : Reply}
    (has : Retried net c inv n e h as reply h') : ∀ a ∈ as, a.Of net c inv := by
  induction has with
  | spent => exact fun a ha => absurd ha List.not_mem_nil
  | success ha => exact fun b hb => List.mem_singleton.1 hb ▸ ha
  | failure ha _ _ ih => exact List.forall_mem_cons.2 ⟨ha, ih⟩

theorem Recovered.of_mem {ps : List RetryPolicy} {first reply : Reply} {ss : List (Spell σ)}
    (hss : Recovered net c inv ps first h ss reply h') : ∀ a ∈ ss.flatMap Spell.trials, a.Of net c inv := by
  induction hss with
  | spent | stop => exact fun a ha => absurd ha List.not_mem_nil
  | spell has _ ih => exact List.forall_mem_append.2 ⟨has.of_mem, ih⟩

theorem Course.Of.of_mem_trials {x : Course σ} (hx : x.Of net r inv) :
    ∀ a ∈ x.trials, a.Of net (x.base.withScope inv.name) inv := by
  obtain ⟨g, hrecovered, -⟩ := hx.rest
  exact List.forall_mem_cons.2 ⟨hx.first, hrecovered.of_mem⟩

/-! ## Attempts under one context -/

/-- An attempt that starts under a context leaves it attached. -/
def Trial.Leaves (c : Context) (a : Trial σ) : Prop := a.holder = some c → a.left = some c

theorem Retried.holders {n : Nat} {e : Failure} {as : List (Trial σ)} {reply : Reply}
    (has : Retried net c inv n e h as reply h') (hh : h = some c) (hleaves : ∀ a ∈ as, a.Leaves c) :
    (∀ a ∈ as, a.holder = some c) ∧ h' = some c := by
  induction has with
  | spent => exact ⟨nofun, hh⟩
  | success => exact ⟨by simpa using hh, hleaves _ (List.mem_singleton_self _) hh⟩
  | failure _ _ _ ih =>
    obtain ⟨hfirst, hrest⟩ := List.forall_mem_cons.1 hleaves
    obtain ⟨hall, hlast⟩ := ih (hfirst hh) hrest
    exact ⟨List.forall_mem_cons.2 ⟨hh, hall⟩, hlast⟩

theorem Recovered.holders {ps : List RetryPolicy} {first reply : Reply} {ss : List (Spell σ)}
    (hss : Recovered net c inv ps first h ss reply h') (hh : h = some c)
    (hleaves : ∀ a ∈ ss.flatMap Spell.trials, a.Leaves c) :
    (∀ a ∈ ss.flatMap Spell.trials, a.holder = some c) ∧ h' = some c := by
  induction hss with
  | spent | stop => exact ⟨nofun, hh⟩
  | spell has _ ih =>
    obtain ⟨hfirst, hrest⟩ := List.forall_mem_append.1 hleaves
    obtain ⟨hall, hleft⟩ := has.holders hh hfirst
    obtain ⟨hall', hlast⟩ := ih hleft hrest
    exact ⟨List.forall_mem_append.2 ⟨hall, hall'⟩, hlast⟩

theorem Course.Of.holders {x : Course σ} (hx : x.Of net r inv)
    (hleaves : ∀ a ∈ x.trials, a.Leaves (x.base.withScope inv.name)) :
    ∀ a ∈ x.trials, a.holder = some (x.base.withScope inv.name) := by
  obtain ⟨hfirst, hrest⟩ := List.forall_mem_cons.1 hleaves
  obtain ⟨g, hrecovered, -⟩ := hx.rest
  exact List.forall_mem_cons.2 ⟨hx.holder, (hrecovered.holders (hfirst hx.holder) hrest).1⟩

/-! ## Attempts that fail -/

/-- An attempt that starts under a context fails and leaves it. -/
def Trial.FailsUnder (c : Context) (a : Trial σ) : Prop :=
  a.holder = some c → (∃ e, a.reply = .error e) ∧ a.left = some c

theorem Retried.exhausted {n : Nat} {e : Failure} {as : List (Trial σ)} {reply : Reply}
    (has : Retried net c inv n e h as reply h') (hfails : ∀ a ∈ as, ∃ e, a.reply = .error e) :
    as.length = n ∧ reply = lastReply (.error e) as ∧ ∃ e', reply = .error e' := by
  induction has with
  | spent => exact ⟨rfl, rfl, _, rfl⟩
  | @success n e v a ha hv =>
    obtain ⟨e', he'⟩ := hfails a (List.mem_singleton_self a)
    cases hv.symm.trans he'
  | @failure n e e' a as reply h' ha he hrest ih =>
    obtain ⟨-, hrest⟩ := List.forall_mem_cons.1 hfails
    obtain ⟨hlength, hreply, hfailed⟩ := ih hrest
    refine ⟨by rw [List.length_cons, hlength], ?_, hfailed⟩
    rw [hreply, ← he]
    rfl

theorem Recovered.of_ok {ps : List RetryPolicy} {v : String} {ss : List (Spell σ)} {reply : Reply}
    (hss : Recovered net c inv ps (.ok v) h ss reply h') : ss = [] := by
  cases hss <;> rfl

theorem Recovered.exhausted {ps : List RetryPolicy} {e : Failure} {ss : List (Spell σ)} {reply : Reply}
    (hss : Recovered net c inv ps (.error e) h ss reply h')
    (hfails : ∀ a ∈ ss.flatMap Spell.trials, ∃ e, a.reply = .error e) :
    (ss.flatMap Spell.trials).length = RetryPolicy.totalCount ps ∧
      reply = lastReply (.error e) (ss.flatMap Spell.trials) ∧ ∃ e', reply = .error e' := by
  generalize hfirst : (.error e : Reply) = first at hss
  induction hss generalizing e with
  | spent => exact ⟨rfl, rfl, e, hfirst.symm⟩
  | stop => cases hfirst
  | @spell ps e s ss reply h₁ h' has hrest ih =>
    cases hfirst
    simp only [List.flatMap_cons, List.forall_mem_append] at hfails ⊢
    obtain ⟨hlength, hreply, e', he'⟩ := has.exhausted hfails.1
    obtain ⟨hlength', hreply', hfailed⟩ := ih hfails.2 he'.symm
    refine ⟨by rw [List.length_append, hlength, hlength', RetryPolicy.totalCount], ?_, hfailed⟩
    rw [lastReply_append, ← hreply]
    exact hreply'

/-! ## Requests -/

theorem Requester.Concludes.of_plain {scope : String} {e : Failure} {ps : List (Piece σ)} {q : Requester.Result}
    {event : Option RequestEvent} (hps : r.Concludes scope h (.failed e) ps q event h')
    (hconvert : r.convert = convertPlainly) : q = .ok (.error (.ofFailure e)) := by
  cases hps with
  | failed hconverted =>
    rw [hconvert] at hconverted
    obtain ⟨-, heq, -⟩ := goes_done.1 hconverted
    cases heq
    rfl
  | panicked hconverted =>
    rw [hconvert] at hconverted
    obtain ⟨-, heq, -⟩ := goes_done.1 hconverted
    cases heq

namespace Course

/-- **All attempts fail.** The request has made as many attempts as its context allows, each one under the
derived context, and concludes with the failure of the last one. -/
theorem exhausted {x : Course σ} (hx : x.Of net r inv)
    (hfails : ∀ a ∈ x.trials, a.Of net (x.base.withScope inv.name) inv → a.FailsUnder (x.base.withScope inv.name)) :
    x.trials.length = 1 + x.base.budget ∧
      (∀ a ∈ x.trials, a.Of net (x.base.withScope inv.name) inv ∧ a.holder = some (x.base.withScope inv.name)) ∧
      ∃ e, (x.trials.map Trial.reply).getLast? = some (.error e) ∧
        r.Concludes inv.name (some (x.base.withScope inv.name)) (.failed e) x.conclusion x.result x.event x.left := by
  have hleaves : ∀ a ∈ x.trials, a.Leaves (x.base.withScope inv.name) := fun a ha hheld =>
    (hfails a ha (hx.of_mem_trials a ha) hheld).2
  have hheld := hx.holders hleaves
  have herror : ∀ a ∈ x.trials, ∃ e, a.reply = .error e := fun a ha =>
    (hfails a ha (hx.of_mem_trials a ha) (hheld a ha)).1
  obtain ⟨hfirst, hrest⟩ := List.forall_mem_cons.1 hleaves
  obtain ⟨⟨e, he⟩, herrors⟩ := List.forall_mem_cons.1 herror
  obtain ⟨h, hrecovered, hconclude⟩ := hx.rest
  obtain ⟨-, rfl⟩ := hrecovered.holders (hfirst hx.holder) hrest
  rw [he] at hrecovered
  obtain ⟨hlength, hreply, e', he'⟩ := hrecovered.exhausted herrors
  have hbudget : (x.spells.flatMap Spell.trials).length = x.base.budget := hlength.trans (totalCount_ordered _)
  refine ⟨by rw [trials, List.length_cons, hbudget, Nat.add_comm], fun a ha => ⟨hx.of_mem_trials a ha, hheld a ha⟩, e',
    ?_, ?_⟩
  · rw [trials, getLast?_replies, he, ← hreply, he']
  · rwa [outcome, he', Requester.Outcome.ofReply] at hconclude

end Course

/-! ## Attempts among all that is done -/

theorem infix_rounds {p : RetryPolicy} {scope : String} {attempts : Nat} {a : Trial σ} {as : List (Trial σ)}
    (ha : a ∈ as) : a.pieces <:+: p.rounds scope attempts as := by
  induction as generalizing attempts with
  | nil => cases ha
  | cons b as ih =>
    rw [RetryPolicy.rounds]
    rcases List.mem_cons.1 ha with rfl | ha
    · exact ⟨_, _, by rw [List.append_assoc]⟩
    · exact (ih ha).trans ((List.suffix_append _ _).isInfix.trans (List.suffix_append _ _).isInfix)

theorem Spell.infix_pieces {s : Spell σ} {a : Trial σ} (ha : a ∈ s.trials) : a.pieces <:+: s.pieces inv :=
  (infix_rounds ha).trans ⟨_, _, by rw [List.append_assoc]; rfl⟩

theorem infix_flatMap {α β : Type*} {f : α → List β} {x : α} {xs : List α} (hx : x ∈ xs) :
    f x <:+: xs.flatMap f := by
  obtain ⟨before, after, rfl⟩ := List.append_of_mem hx
  exact ⟨before.flatMap f, after.flatMap f, by simp⟩

theorem Course.infix_worked {x : Course σ} (hx : x.Of net r inv) {a : Trial σ} (ha : a ∈ x.trials) :
    a.pieces <:+: x.worked r inv := by
  rcases List.mem_cons.1 ha with rfl | ha
  · exact ⟨_, _, by rw [List.append_assoc]; rfl⟩
  · obtain ⟨s, hs, ha⟩ := List.mem_flatMap.1 ha
    have hrecovery : a.pieces <:+: recovery r (x.base.withScope inv.name) inv x.spells x.first.reply := by
      obtain ⟨h, hrecovered, -⟩ := hx.rest
      cases hfirst : x.first.reply with
      | ok v =>
        rw [hfirst] at hrecovered
        rw [hrecovered.of_ok] at hs
        cases hs
      | error e =>
        exact ((Spell.infix_pieces ha).trans (infix_flatMap hs)).trans (List.suffix_append _ _).isInfix
    refine hrecovery.trans ⟨owns (attaching (x.base.withScope inv.name) x.holder) ++ x.first.pieces,
      owns [.did (.record (.sampled inv.name)) ()] ++ (x.conclusion ++ owns (releasing x.holder x.left)), ?_⟩
    simp only [worked, List.append_assoc]

theorem Piece.infix_deedsIn {ps qs : List (Piece σ)} (hps : ps <:+: qs) : deedsIn ps <:+: deedsIn qs := by
  obtain ⟨before, after, rfl⟩ := hps
  exact ⟨deedsIn before, deedsIn after, by simp⟩

/-! ## Where the call is made -/

namespace Pool

variable {P Q : Pool σ} {t : Nat} {m : ChannelId} {es₀ es : List (Nat × Deed σ)} {w : World σ}
  {threads : List ((α : Type) × Program σ α × Option Context)}

/-- The threads that may work for thread `t` from now on: itself and those that are started from now on. -/
def Since (P : Pool σ) (t u : Nat) : Prop := u = t ∨ P.threads.length ≤ u

theorem Runs.grows (hrun : P.Runs es Q) : ∃ k, Q.threads.length = P.threads.length + k ∧
    Q.shared.channels.length = P.shared.channels.length + k := by
  induction hrun with
  | refl => exact ⟨0, rfl, rfl⟩
  | step _ hstep ih =>
    obtain ⟨k, hthreads, hchannels⟩ := ih
    obtain ⟨k', hthreads', hchannels'⟩ := hstep.grows
    exact ⟨k + k', by omega, by omega⟩
  | wait _ _ ih => exact ih

theorem Runs.worker_since {l : Errand σ} (hrun : P.Runs es Q) (hl : l.Stands Q (es₀ ++ es) m)
    (hstarted : (t, .started m l.job) ∈ es) : P.threads.length ≤ l.worker := by
  obtain ⟨before, after, rfl⟩ := List.append_of_mem hstarted
  obtain ⟨P₁, P₂, hbefore, hstep, -⟩ := hrun.step_of_mem
  obtain ⟨hm, -, -⟩ := hstep.started
  obtain ⟨k, -, hchannels⟩ := hbefore.grows
  have hle : P.shared.channels.length ≤ m := by
    rw [hm, hchannels]
    exact Nat.le_add_right _ _
  obtain ⟨k', hthreads', hchannels'⟩ := hrun.grows
  have hnumber := hl.number
  omega

theorem Runs.exists_worker {job : Job σ} {d : Delivery job.Value} (hbefore : (start w threads).Runs es₀ P)
    (hrun : P.Runs es Q) (hstarted : (t, .started m job) ∈ es) (hanswered : (t, .answered m d) ∈ es)
    (hintime : d ≠ .elapsed) :
    ∃ n o h', d = .ofEnd o ∧ P.threads.length ≤ n ∧
      (⟨t, n, job, some o, some d⟩ : Errand σ).Stands Q (es₀ ++ es) m ∧
      job.body.Goes job.attached (deedsOf n es) o h' := by
  obtain ⟨n, outcome, hl⟩ := (hbefore.append hrun).exists_errand (List.mem_append_right es₀ hstarted)
    (List.mem_append_right es₀ hanswered)
  obtain ⟨o, rfl, hd⟩ : ∃ o : Except Payload job.Value, outcome = some o ∧ d = .ofEnd o :=
    (hl.heard d rfl).resolve_left hintime
  have hsince : P.threads.length ≤ n := hrun.worker_since hl hstarted
  obtain ⟨x, -, hpath, hover⟩ := hl.worked
  rw [deedsOf_append, hbefore.deedsOf_eq_nil hsince, List.nil_append] at hpath
  exact ⟨n, o, x.holder, hd, hsince, hl, hpath.goes (hover o rfl)⟩

end Pool

/-- A call on some thread, from its start to its end. -/
structure Body (σ : Type) : Type 1 where
  thread : Nat
  deeds : List (Deed σ)
  outcome : Except Payload Reply
  /-- What is attached to the thread after the call. -/
  left : Option Context

/-- The one call of an attempt on thread `t`, made with `c` attached in a run with the steps `es`. -/
inductive Trial.Calls (net : Network σ) (Q : Pool σ) (es₀ es : List (Nat × Deed σ)) (t : Nat) (c : Context)
    (inv : Invocation σ) (a : Trial σ) : Body σ → Prop
  | here {ps : List (Piece σ)} {L : List (Deed σ)} {o : Except Payload Reply} {h' : Option Context} :
      c.Connecting net (some c) ps (.ok (.ok ())) (some c) → a.pieces = ps ++ [through inv.call (some c) L o h'] →
        Calls net Q es₀ es t c inv a ⟨t, L, o, h'⟩
  /-- A worker makes the call, and its end is heard of in time. -/
  | onWorker {ps : List (Piece σ)} {m : ChannelId} {n : Nat} {bound : Duration} {L : List (Deed σ)}
      {o : Except Payload Reply} {h' : Option Context} : c.Connecting net (some c) ps (.ok (.ok ())) (some c) →
      a.pieces = ps ++ owns [.did (.holder id) (some c), .started m (inv.job bound (some c)),
        .answered m (Delivery.ofEnd o)] →
      (⟨t, n, inv.job bound (some c), some o, some (.ofEnd o)⟩ : Errand σ).Stands Q (es₀ ++ es) m →
      Pool.deedsOf n es = attaching c none ++ (L ++ releasing none h') → Calls net Q es₀ es t c inv a ⟨n, L, o, h'⟩

/-- **The call of an attempt.** If the connect stage brings a connection and no worker is late, the attempt has
the reply of its one call, which is made with the same context attached. -/
theorem Trial.Of.calls {a : Trial σ} {P Q : Pool σ} {t : Nat} {es₀ es : List (Nat × Deed σ)} {w : World σ}
    {threads : List ((α : Type) × Program σ α × Option Context)} (hbefore : (Pool.start w threads).Runs es₀ P)
    (hrun : P.Runs es Q) (ha : a.Of net c inv) (hholder : a.holder = some c)
    (hdeeds : a.deeds <:+: Pool.deedsOf t es)
    (hconnect : ∀ {L : List (Deed σ)} {q : Except Payload (Except Failure Unit)} {h' : Option Context},
      L <:+: Pool.deedsOf t es → (c.connectStage net).Goes (some c) L q h' → q = .ok (.ok ()) ∧ h' = some c)
    (hintime : ∀ m, c.timeout?.isSome = true → (t, .answered m (.elapsed : Delivery Reply)) ∉ es) :
    ∃ b : Body σ, a.Calls net Q es₀ es t c inv b ∧ a.reply = inv.reply b.outcome ∧ P.Since t b.thread ∧
      b.deeds <:+: Pool.deedsOf b.thread es ∧ inv.call.Goes (some c) b.deeds b.outcome b.left ∧
      (b.left = some c → a.left = some c) := by
  have : Inhabited σ := ⟨w.user⟩
  obtain @⟨h, h₁, h', ps, qs, q, reply, hps, hgoes, hqs⟩ := ha
  obtain rfl : h = some c := hholder
  rw [Trial.deeds, deedsIn_append] at hdeeds
  obtain ⟨rfl, rfl⟩ := hconnect ((List.prefix_append _ _).isInfix.trans hdeeds) hgoes
  have hcall : deedsIn qs <:+: Pool.deedsOf t es := (List.suffix_append _ _).isInfix.trans hdeeds
  cases hqs with
  | @called L o h' hs hbody =>
    refine ⟨⟨t, L, o, h'⟩, .here hps rfl, rfl, .inl rfl, ?_, hbody, id⟩
    simpa using hcall
  | @bounded s m d hs =>
    have hmem : ∀ e ∈ [.did (.holder id) (some c), .started m (inv.job s.timeout (some c)), .answered m d],
        (t, e) ∈ es := fun e he => by
      refine Pool.mem_of_mem_deedsOf (hcall.mem ?_)
      rw [deedsIn_owns]
      exact List.mem_append_left _ he
    -- Nobody was given up, so the worker has gone through its job and has been heard of.
    have hd : d ≠ .elapsed := by
      rintro rfl
      exact hintime m (by rw [hs]; rfl) (hmem _ (by simp))
    obtain ⟨n, o, h', rfl, hsince, hl, hworked⟩ := hbefore.exists_worker hrun
      (hmem (.started m (inv.job s.timeout (some c))) (by simp)) (hmem (.answered m d) (by simp)) hd
    obtain ⟨L, h₂, hdeeds', hbody, rfl⟩ := goes_withContext.1 hworked
    refine ⟨⟨n, L, o, h₂⟩, .onWorker hps ?_ hl hdeeds', ?_, .inr hsince, ?_, hbody, fun _ => rfl⟩
    · cases o <;> rfl
    · cases o <;> rfl
    · rw [hdeeds']
      exact ⟨_, _, by rw [List.append_assoc]⟩

end ResilientCalls
