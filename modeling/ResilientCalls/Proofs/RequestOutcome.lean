import ResilientCalls.Proofs.Attempts

/-!
# What a request returns

The attempts of a request are taken as a sequence of outcomes, one for each attempt: a value, an
error or a panic. A request makes attempts up to the first success, at most one more than its budget,
and returns the value of that success, or else the converted error of the last attempt
(`returns_request`). No panic of an attempt gets out.
-/

namespace ResilientCalls

open Program

variable {σ α β ε : Type} {others : Others σ} {net : Network σ} {inv : Invocation σ}

/-! ## Counting attempts -/

/-- A count of the runs of a call, kept in the shared state by the call itself. -/
structure Tally (others : Others σ) (call : Program σ Reply) where
  count : World σ → Nat
  /-- Observations leave it alone. -/
  count_observe : ∀ w e, count (w.observe others e) = count w
  /-- Each run adds one. -/
  count_run : ∀ h w, count (call.run others none h w).world = count w + 1

namespace Tally

variable {call : Program σ Reply}

theorem count_observeAll (t : Tally others call) (w : World σ) (es : List Entry) :
    t.count (w.observeAll others es) = t.count w := by
  induction es generalizing w with
  | nil => rfl
  | cons e es ih =>
    rw [World.observeAll, List.foldl_cons]
    exact (ih _).trans (t.count_observe w e)

theorem count_attempt (t : Tally others inv.call) (a : Attempt σ) :
    t.count (a.run others inv).world = t.count a.world + 1 := by
  rw [Attempt.run, world_attempt, t.count_run]

theorem count_series (t : Tally others inv.call) {f g : Final σ Reply} {as : List (Attempt σ)}
    (h : Series others inv f as g) : t.count g.world = t.count f.world + as.length := by
  induction h with
  | rest f es => exact t.count_observeAll f.world es
  | @again f g as es _ _ ih =>
    have hnext : t.count (f.next others es).world = t.count f.world := t.count_observeAll f.world es
    rw [ih, t.count_attempt, hnext, List.length_cons]
    omega

end Tally

/-! ## Replies in a row -/

theorem Series.replies {f g : Final σ Reply} {as : List (Attempt σ)} (h : Series others inv f as g)
    (reply : Nat → Reply) (hf : f.exit = .value (reply 0))
    (has : ∀ i (a : Attempt σ), as[i]? = some a → (a.run others inv).exit = .value (reply (i + 1))) :
    g.exit = .value (reply as.length) ∧ ∀ i < as.length, ∃ e, reply i = .error e := by
  induction h generalizing reply with
  | rest f es => exact ⟨hf, fun i hi => absurd hi (Nat.not_lt_zero i)⟩
  | @again f g as es hfails _ ih =>
    obtain ⟨hlast, hbefore⟩ := ih (fun i => reply (i + 1)) (has 0 _ rfl) fun i a ha => has (i + 1) a ha
    refine ⟨hlast, fun i hi => ?_⟩
    cases i with
    | zero =>
      obtain ⟨e, he⟩ := hfails
      exact ⟨e, Exit.value.inj (hf.symm.trans he)⟩
    | succ i => exact hbefore i (Nat.lt_of_succ_lt_succ hi)

theorem eq_of_first_success {reply : Nat → Reply} {retries n bound : Nat} {v : String}
    (hbefore : ∀ i < retries, ∃ e, reply i = .error e)
    (hfails : (∃ e, reply retries = .error e) → retries = bound) (hn : n ≤ bound) (hv : reply n = .ok v)
    (hfirst : ∀ m < n, ∀ v', reply m ≠ .ok v') : retries = n := by
  rcases Nat.lt_trichotomy retries n with hlt | heq | hgt
  · cases hlast : reply retries with
    | ok v' => exact absurd hlast (hfirst retries hlt v')
    | error e =>
      have hall := hfails ⟨e, hlast⟩
      omega
  · exact heq
  · obtain ⟨e, he⟩ := hbefore n hgt
    rw [hv] at he
    cases he

/-! ## The end of a request -/

namespace Requester

/-- The listeners of the requester come to an end, whatever they are told. -/
def ListenersEnd (others : Others σ) (r : Requester σ) : Prop :=
  ∀ l ∈ r.listeners, ∀ event, (l event).Ends others

/-- The conversion of a failure always ends with a value. -/
def Converts (others : Others σ) (r : Requester σ) : Prop :=
  ∀ e h w, ∃ x, ((r.convert e).run others none h w).exit = .value x

theorem end?_finish (r : Requester σ) (c : Context) (previous : Option Context) (retries : Nat)
    (reply : Reply) (h : Option Context) (w : World σ) :
    ((r.finish c previous retries reply).run others none h w).exit.end? =
      ((r.conclude c.scope (.ofReply retries reply)).run others none h
        (w.observeAll others [.sampled c.scope])).exit.end? := by
  have hconclude : ((record (.sampled c.scope)).bind fun _ =>
      r.conclude c.scope (.ofReply retries reply)).run others none h w =
        (r.conclude c.scope (.ofReply retries reply)).run others none h
          (w.observeAll others [.sampled c.scope]) := by
    rw [run_bind, observes_sampled, Final.andThen_of_value rfl]
  rw [finish, ensuring, bind_eq, run_bind, run_caught, hconclude]
  generalize (r.conclude c.scope (.ofReply retries reply)).run others none h _ = f
  obtain ⟨exit, holder, world⟩ := f
  cases exit with
  | value a => simp only [Final.caught, Final.andThen, bind_eq, run_bind, exit_release]; rfl
  | unwound p => simp only [Final.caught, Final.andThen, bind_eq, run_bind, exit_release]; rfl
  | pending rest => rfl

theorem yields_tell {ls : List (Listener σ RequestEvent)} (c : Counter) (event : RequestEvent) (a : α) :
    ((count c).bind fun _ => (emit ls event).bind fun _ => done a).Yields others (· = a) := by
  refine yields_bind (yields_of_observes (observes_count c)) fun _ _ => ?_
  exact yields_bind (yields_emit ls event) fun _ _ => yields_of_observes (observes_done a)

theorem ends_tell {ls : List (Listener σ RequestEvent)} (c : Counter) (event : RequestEvent) (a : α)
    (hl : ∀ l ∈ ls, (l event).Ends others) :
    ((count c).bind fun _ => (emit ls event).bind fun _ => done a : Program σ α).Ends others := by
  refine ends_bind (ends_of_observes (observes_count c)) fun _ => ?_
  exact ends_bind (ends_emit hl) fun _ => ends_of_observes (observes_done a)

theorem yields_conclude_ok (r : Requester σ) (scope : String) (retries : Nat) (v : String) :
    (r.conclude scope (.ofReply retries (.ok v))).Yields others (· = .ok v) := by
  rw [Outcome.ofReply]
  split
  · exact yields_tell _ _ _
  · exact yields_tell _ _ _

theorem ends_conclude_ok {r : Requester σ} (hl : r.ListenersEnd others) (scope : String) (retries : Nat)
    (v : String) : (r.conclude scope (.ofReply retries (.ok v))).Ends others := by
  rw [Outcome.ofReply]
  split
  · exact ends_tell _ _ _ fun l h => hl l h _
  · exact ends_tell _ _ _ fun l h => hl l h _

theorem conclude_failed (r : Requester σ) (scope : String) (e : Failure) :
    ∃ tell : RpcError → Program σ (Except RpcError String),
      r.conclude scope (.failed e) = (r.convert e).bind tell ∧
        ∀ x, (tell x).Yields others (· = .error x) ∧ (r.ListenersEnd others → (tell x).Ends others) := by
  refine ⟨_, rfl, fun x => ⟨?_, fun hl => ?_⟩⟩
  · exact yields_bind (yields_of_observes (observes_log _)) fun _ _ => yields_tell _ _ _
  · exact ends_bind (ends_of_observes (observes_log _)) fun _ => ends_tell _ _ _ fun l h => hl l h _

theorem yields_conclude {r : Requester σ} (hc : r.Converts others) (scope : String) (outcome : Outcome) :
    (r.conclude scope outcome).Yields others fun _ => True := by
  cases outcome with
  | success v => exact (yields_tell _ _ _).mono fun _ _ => trivial
  | recovered v => exact (yields_tell _ _ _).mono fun _ _ => trivial
  | failed e =>
    have hconvert : (r.convert e).Yields others fun _ => True := by
      intro h w outcome houtcome
      obtain ⟨x, hx⟩ := hc e h w
      rw [hx] at houtcome
      cases houtcome
      exact ⟨x, trivial, rfl⟩
    obtain ⟨tell, hconclude, htell⟩ := r.conclude_failed scope e
    rw [hconclude]
    exact yields_bind hconvert fun x _ => (htell x).1.mono fun _ _ => trivial

theorem yields_finish {r : Requester σ} (hc : r.Converts others) (c : Context) (previous : Option Context)
    (retries : Nat) (reply : Reply) : (r.finish c previous retries reply).Yields others fun _ => True := by
  intro h w outcome houtcome
  rw [end?_finish] at houtcome
  exact yields_conclude hc _ _ _ _ _ houtcome

namespace Attempts

variable {r : Requester σ} {h : Option Context} {w : World σ} {starts : List (Attempt σ)} {g : Final σ Reply}

theorem end?_request (ha : r.Attempts others net inv h w starts g) {reply : Reply}
    (hg : g.exit = .value reply) :
    ∃ retries, ((r.request net inv).run others none h w).exit.end? =
      ((r.conclude inv.name (.ofReply retries reply)).run others none g.holder
        (g.world.observeAll others [.sampled inv.name])).exit.end? := by
  obtain ⟨retries, -, -, hsame⟩ := ha
  refine ⟨retries.length, ?_⟩
  rw [hsame.1, Final.andThen_of_value hg, end?_finish]
  rfl

theorem exit_request_ok (ha : r.Attempts others net inv h w starts g) (hl : r.ListenersEnd others)
    {v : String} (hg : g.exit = .value (.ok v)) :
    ((r.request net inv).run others none h w).exit = .value (.ok v) := by
  obtain ⟨retries, hend⟩ := ha.end?_request hg
  have hconclude := (yields_conclude_ok r inv.name retries v).exit_eq (ends_conclude_ok hl inv.name retries v)
  apply eq_value_of_end?
  rw [hend, hconclude]
  rfl

theorem exit_request_error (ha : r.Attempts others net inv h w starts g) (hl : r.ListenersEnd others)
    {e : Failure} {x : RpcError} (hg : g.exit = .value (.error e))
    (hx : ((r.convert e).run others none g.holder (g.world.observeAll others [.sampled inv.name])).exit =
      .value x) : ((r.request net inv).run others none h w).exit = .value (.error x) := by
  obtain ⟨retries, hend⟩ := ha.end?_request hg
  obtain ⟨tell, hconclude, htell⟩ := r.conclude_failed inv.name e
  have hexit := (htell x).1.exit_eq ((htell x).2 hl)
  apply eq_value_of_end?
  rw [hend, Outcome.ofReply, hconclude, run_bind, Final.andThen_of_value hx, hexit]
  rfl

theorem not_unwinds_request (ha : r.Attempts others net inv h w starts g) (hc : r.Converts others) :
    ¬ ((r.request net inv).run others none h w).Unwinds := by
  obtain ⟨retries, -, hseries, hsame⟩ := ha
  have hlast : ¬ g.Unwinds := hseries.not_unwinds (not_unwinds_attempt _ _)
  refine hsame.not_unwinds (Final.not_unwinds_andThen hlast fun reply => ?_)
  exact (yields_finish hc _ _ _ reply).not_unwinds

end Attempts

/-- **Outcome of a request.** Whatever its attempts do, a request does not unwind. If the decorated
call behaves as in `o`, the request makes attempts up to the first success, at most one more than its
budget, and returns that value; without a success it makes all of them and returns what becomes of the
last error. Every count of the calls confirms how many attempts there are. -/
theorem returns_request (net : Network σ) (r : Requester σ) (inv : Invocation σ) (hc : r.Converts others)
    (h : Option Context) (w : World σ) :
    ¬ ((r.request net inv).run others none h w).Unwinds ∧
      ∃ starts g, r.Attempts others net inv h w starts g ∧
        (∀ t : Tally others (r.decorated net inv h w).call, t.count g.world = t.count w + starts.length) ∧
        ∀ o : Nat → Except Payload Reply,
          (∀ i (a : Attempt σ), starts[i]? = some a →
            ((r.decorated net inv h w).call.run others none a.holder a.world).exit.end? = some (o i)) →
          (∀ n ≤ (r.derived inv h w).budget, ∀ v, inv.reply (o n) = .ok v →
            (∀ m < n, ∀ v', inv.reply (o m) ≠ .ok v') →
              starts.length = n + 1 ∧
                (r.ListenersEnd others → ((r.request net inv).run others none h w).exit = .value (.ok v))) ∧
          ((∀ n ≤ (r.derived inv h w).budget, ∀ v, inv.reply (o n) ≠ .ok v) →
            starts.length = (r.derived inv h w).budget + 1 ∧
              ∃ e x, inv.reply (o (r.derived inv h w).budget) = .error e ∧
                ((r.convert e).run others none g.holder
                  (g.world.observeAll others [.sampled inv.name])).exit = .value x ∧
                (r.ListenersEnd others →
                  ((r.request net inv).run others none h w).exit = .value (.error x))) := by
  obtain ⟨starts, g, ha, hle, hfails⟩ : ∃ starts g, r.Attempts others net inv h w starts g ∧ _ ∧ _ :=
    r.attempts_request h w
  refine ⟨ha.not_unwinds_request hc, starts, g, ha, fun t => ?_, fun o ho => ?_⟩
  · obtain ⟨retries, rfl, hseries, -⟩ := ha
    have hfirst : t.count (r.firstAttempt others inv h w).world = t.count w := t.count_observeAll w _
    rw [t.count_series hseries, t.count_attempt, hfirst, List.length_cons]
    omega
  · have hattempts := ha
    obtain ⟨retries, rfl, hseries, -⟩ := hattempts
    have hrun : ∀ i (a : Attempt σ), (r.firstAttempt others inv h w :: retries)[i]? = some a →
        (a.run others (r.decorated net inv h w)).exit = .value (inv.reply (o i)) := by
      intro i a hi
      apply eq_value_of_end?
      rw [Attempt.run, end?_attempt, ho i a hi, Option.map_some, decorated, reply_decorate]
    obtain ⟨hlast, hbefore⟩ :=
      hseries.replies (fun i => inv.reply (o i)) (hrun 0 _ rfl) fun i a hi => hrun (i + 1) a hi
    have hretries : (∃ e, inv.reply (o retries.length) = .error e) →
        retries.length = (r.derived inv h w).budget := by
      rintro ⟨e, he⟩
      have hall := hfails ⟨e, by rw [hlast, he]⟩
      simpa using hall
    refine ⟨fun n hn v hv hfirst => ?_, fun hnone => ?_⟩
    · obtain rfl := eq_of_first_success hbefore hretries hn hv hfirst
      exact ⟨rfl, fun hl => ha.exit_request_ok hl (by rw [hlast, hv])⟩
    · have hle' : retries.length ≤ (r.derived inv h w).budget := by simpa using hle
      cases he : inv.reply (o retries.length) with
      | ok v => exact absurd he (hnone _ hle' v)
      | error e =>
        obtain ⟨x, hx⟩ := hc e g.holder (g.world.observeAll others [.sampled inv.name])
        have hall := hretries ⟨e, he⟩
        refine ⟨by rw [List.length_cons, hall], e, x, hall ▸ he, hx, fun hl => ?_⟩
        exact ha.exit_request_error hl (by rw [hlast, he]) hx

/-- A call that counts its runs and panics each time, with one retry of the retry strategy and two of a
policy that comes first: the fourth panic is what the caller sees. -/
theorem returns_request_panicking :
    let retry : Strategy := .retry ⟨1, .zero, by decide⟩
    let failover : Strategy := .failover ⟨[⟨2, .zero, 1.0, none, -1, by decide, by decide⟩]⟩
    let r : Requester Nat := ⟨"client", 0, convertPlainly, []⟩
    let inv : Invocation Nat := ⟨"getBlock", [], (changeUser (· + 1)).bind fun _ => unwind (.text "boom")⟩
    let net : Network Nat := fun _ => ⟨return true, fun _ => return .ok ()⟩
    let c : Context := ⟨"", [retry, failover]⟩
    r.Converts nobody ∧ r.ListenersEnd nobody ∧
      (∃ starts g, r.Attempts nobody net inv (some c) (World.start 0) starts g ∧ starts.length = 4 ∧
        g.world.user = 4) ∧
      ((r.request net inv).run nobody none (some c) (World.start 0)).exit =
        .value (.error (.ofFailure (.text "invocation getBlock panicked"))) := by
  intro retry failover r inv net c
  have hc : r.Converts nobody := fun e h w => ⟨_, rfl⟩
  have hl : r.ListenersEnd nobody := fun l hl => absurd hl List.not_mem_nil
  have hbudget : (r.derived inv (some c) (World.start 0)).budget = 3 := by decide
  let runs : Tally nobody (r.decorated net inv (some c) (World.start 0)).call :=
    ⟨World.user, fun w e => by cases e <;> rfl, fun h w => rfl⟩
  obtain ⟨-, starts, g, ha, htally, hreplies⟩ := returns_request net r inv hc (some c) (World.start 0)
  obtain ⟨-, hfailed⟩ := hreplies (fun _ => .error (.text "boom")) fun i a _ => rfl
  obtain ⟨hlength, e, x, he, hx, hexit⟩ := hfailed fun n _ v hv => by cases hv
  have hruns : g.world.user = 0 + starts.length := htally runs
  cases he
  cases hx
  exact ⟨hc, hl, ⟨starts, g, ha, by omega, by omega⟩, hexit hl⟩

end Requester

end ResilientCalls
