import ResilientCalls.Proofs.Observation
import ResilientCalls.Requester.Request

/-!
# The attempts of a request

`Series` lists the attempts that are made after a first one: each of them because the one before
failed, on the thread as the one before left it, with nothing but observations in between. A program
`Retries` if its whole run is such a series, so no attempt is hidden in it. This goes from the loop of
one retry handler over the handlers in order to a request (`attempts_request`): the first attempt
starts under the derived context, at most `Context.budget` others follow, just as many if the last
one fails, and then only the conclusion of the request is left. Attempts that never end are covered:
such an attempt is the last one.
-/

namespace ResilientCalls

open Program

variable {σ α β γ : Type} {others : Others σ} {limit : Moment} {net : Network σ} {inv : Invocation σ}

/-- The reply that an outcome of the call stands for; a panic is a failure. -/
def Invocation.reply (inv : Invocation σ) : Except Payload Reply → Reply
  | .ok reply => reply
  | .error _ => .error (.text ("invocation " ++ inv.name ++ " panicked"))

theorem reply_wrap (inv : Invocation σ) (wrapper : Invocation σ → Program σ Reply)
    (outcome : Except Payload Reply) : (inv.wrap wrapper).reply outcome = inv.reply outcome := by
  cases outcome <;> rfl

/-- The call with the stages that a context asks for. -/
def Context.decorate (net : Network σ) (c : Context) (inv : Invocation σ) : Invocation σ :=
  (Decoration.ofContext c).apply net inv

theorem reply_decorate (c : Context) (outcome : Except Payload Reply) :
    (c.decorate net inv).reply outcome = inv.reply outcome := by
  cases outcome with
  | ok reply => rfl
  | error payload => simp [Invocation.reply, Context.decorate]

/-- An attempt of a call, by its start. -/
structure Attempt (σ : Type) where
  /-- What was observed since the attempt before. -/
  before : List Entry
  holder : Option Context
  world : World σ

/-- What comes of an attempt; a panic counts as a failure. -/
def Attempt.run (others : Others σ) (inv : Invocation σ) (a : Attempt σ) : Final σ Reply :=
  inv.attempt.run others none a.holder a.world

theorem run_attempt (h : Option Context) (w : World σ) :
    inv.attempt.run others limit h w =
      (inv.call.run others limit h w).caught.andThen others limit fun outcome =>
        done (inv.reply outcome) := by
  rw [Invocation.attempt, bind_eq, run_bind, run_caught]
  congr 1
  funext outcome
  cases outcome <;> rfl

theorem end?_attempt (h : Option Context) (w : World σ) :
    (inv.attempt.run others limit h w).exit.end? =
      (inv.call.run others limit h w).exit.end?.map fun outcome => .ok (inv.reply outcome) := by
  rw [run_attempt]
  cases hcall : inv.call.run others limit h w with
  | mk exit holder world => cases exit <;> rfl

theorem holder_attempt (h : Option Context) (w : World σ) :
    (inv.attempt.run others limit h w).holder = (inv.call.run others limit h w).holder := by
  rw [run_attempt]
  cases hcall : inv.call.run others limit h w with
  | mk exit holder world => cases exit <;> rfl

theorem world_attempt (h : Option Context) (w : World σ) :
    (inv.attempt.run others limit h w).world = (inv.call.run others limit h w).world := by
  rw [run_attempt]
  cases hcall : inv.call.run others limit h w with
  | mk exit holder world => cases exit <;> rfl

theorem not_unwinds_attempt (h : Option Context) (w : World σ) :
    ¬ (inv.attempt.run others limit h w).Unwinds := by
  rintro ⟨p, hp⟩
  have hend : (inv.attempt.run others limit h w).exit.end? = _ := end?_attempt h w
  rw [hp] at hend
  cases hcall : (inv.call.run others limit h w).exit.end? <;> rw [hcall] at hend <;> cases hend

/-- The attempt that follows a run, after these observations. -/
def Final.next (others : Others σ) (f : Final σ Reply) (es : List Entry) : Attempt σ :=
  ⟨es, f.holder, f.world.observeAll others es⟩

/-- Whether a run came to a failure. -/
def Final.Fails (f : Final σ Reply) : Prop := ∃ e, f.exit = .value (.error e)

theorem Final.not_fails {f : Final σ Reply} {v : String} (hf : f.exit = .value (.ok v)) : ¬ f.Fails := by
  rintro ⟨e, he⟩
  rw [hf] at he
  cases he

/-- After `f` these attempts are made, and then it stands as in `g`. Each is made because the one
before failed, and between them nothing is done but to observe. -/
inductive Series (others : Others σ) (inv : Invocation σ) :
    Final σ Reply → List (Attempt σ) → Final σ Reply → Prop
  | rest (f : Final σ Reply) (es : List Entry) : Series others inv f [] (f.after others es)
  | again {f g : Final σ Reply} {as : List (Attempt σ)} (es : List Entry) : f.Fails →
      Series others inv ((f.next others es).run others inv) as g →
        Series others inv f (f.next others es :: as) g

namespace Series

theorem of_after {f g : Final σ Reply} {es : List Entry} {as : List (Attempt σ)}
    (h : Series others inv (f.after others es) as g) :
    ∃ as', as'.length = as.length ∧ Series others inv f as' g := by
  cases h with
  | rest _ es' =>
    refine ⟨[], rfl, ?_⟩
    have hrest : Series others inv f [] (f.after others (es ++ es')) := .rest f _
    rwa [Final.after, ← observeAll_observeAll] at hrest
  | @again _ _ as es' hfails hseries =>
    refine ⟨f.next others (es ++ es') :: as, rfl, .again (es ++ es') hfails ?_⟩
    simp only [Attempt.run, Final.next, Final.after, observeAll_observeAll] at hseries ⊢
    exact hseries

theorem trans {f g k : Final σ Reply} {as bs : List (Attempt σ)} (hf : Series others inv f as g)
    (hg : Series others inv g bs k) :
    ∃ cs, cs.length = as.length + bs.length ∧ Series others inv f cs k := by
  induction hf with
  | rest f es =>
    obtain ⟨cs, hlen, hcs⟩ := hg.of_after
    exact ⟨cs, by simp [hlen], hcs⟩
  | again es hfails _ ih =>
    obtain ⟨cs, hlen, hcs⟩ := ih hg
    exact ⟨_ :: cs, by simp [hlen]; omega, .again es hfails hcs⟩

theorem not_unwinds {f g : Final σ Reply} {as : List (Attempt σ)} (h : Series others inv f as g)
    (hf : ¬ f.Unwinds) : ¬ g.Unwinds := by
  induction h with
  | rest _ es => exact hf
  | again es _ _ ih => exact ih (not_unwinds_attempt _ _)

theorem fails_of_fails {f g : Final σ Reply} {as : List (Attempt σ)} (h : Series others inv f as g)
    (hg : g.Fails) : f.Fails := by
  cases h with
  | rest _ es => exact hg
  | again es hfails _ => exact hfails

end Series

/-! ## Code that retries -/

/-- After `f` the code makes at most `n` further attempts, and just `n` if the last one fails; from
their number and the last reply it makes its value. It does nothing else but observe. -/
def Retries (others : Others σ) (inv : Invocation σ) (n : Nat) (f : Final σ Reply) (p : Program σ β)
    (value : Nat → Reply → β) : Prop :=
  ∃ as g, Series others inv f as g ∧ as.length ≤ n ∧ (g.Fails → as.length = n) ∧
    (p.run others none f.holder f.world).Same
      (g.andThen others none fun reply => done (value as.length reply))

theorem Retries.of_observes {n : Nat} {f : Final σ Reply} {reply : Reply} {p : Program σ β}
    {es : List Entry} {value : Nat → Reply → β} (hf : f.exit = .value reply) (hn : f.Fails → 0 = n)
    (hp : p.Observes others es (value 0 reply)) : Retries others inv n f p value := by
  refine ⟨[], f.after others es, .rest f es, Nat.zero_le n, hn, .of_eq ?_⟩
  have hafter : (f.after others es).exit = .value reply := hf
  rw [hp, Final.andThen_of_value hafter]
  rfl

theorem Retries.observes_bind {n : Nat} {f : Final σ Reply} {p : Program σ γ} {q : γ → Program σ β}
    {es : List Entry} {c : γ} {value : Nat → Reply → β} (hp : p.Observes others es c)
    (hq : Retries others inv n (f.after others es) (q c) value) :
    Retries others inv n f (p.bind q) value := by
  obtain ⟨as, g, hseries, hle, hfails, hsame⟩ := hq
  obtain ⟨as', hlen, hseries'⟩ := hseries.of_after
  refine ⟨as', g, hseries', hlen ▸ hle, fun h => hlen ▸ hfails h, ?_⟩
  rw [run_bind, hp, Final.andThen_of_value rfl, hlen]
  exact hsame

theorem Retries.reads_bind {n : Nat} {f : Final σ Reply} {p : Program σ γ} {q : γ → Program σ β} {c : γ}
    {value : Nat → Reply → β} (hp : p.run others none f.holder f.world = ⟨.value c, f.holder, f.world⟩)
    (hq : Retries others inv n f (q c) value) : Retries others inv n f (p.bind q) value := by
  obtain ⟨as, g, hseries, hle, hfails, hsame⟩ := hq
  refine ⟨as, g, hseries, hle, hfails, ?_⟩
  rw [run_bind, hp, Final.andThen_of_value rfl]
  exact hsame

theorem Retries.bind {n m : Nat} {f : Final σ Reply} {p : Program σ γ} {q : γ → Program σ β}
    {value : Nat → Reply → γ} {value' : Reply → β} (hp : Retries others inv n f p value)
    (hq : ∀ k g reply, g.exit = .value reply → Retries others inv m g (q (value k reply)) fun _ => value') :
    Retries others inv (n + m) f (p.bind q) fun _ => value' := by
  obtain ⟨as, g, hseries, hle, hfails, hsame⟩ := hp
  have hgo : ((p.bind q).run others none f.holder f.world).Same
      (g.andThen others none fun reply => q (value as.length reply)) := hsame.bind
  by_cases hg : ∃ reply, g.exit = .value reply
  · obtain ⟨reply, hreply⟩ := hg
    obtain ⟨bs, g', hseries', hle', hfails', hsame'⟩ := hq as.length g reply hreply
    obtain ⟨cs, hlen, hcs⟩ := hseries.trans hseries'
    refine ⟨cs, g', hcs, by omega, fun hlast => ?_, hgo.trans ?_⟩
    · rw [hlen, hfails (hseries'.fails_of_fails hlast), hfails' hlast]
    · rw [Final.andThen_of_value hreply]
      exact hsame'
  · have hvalue : ∀ reply, g.exit ≠ .value reply := fun reply h => hg ⟨reply, h⟩
    refine ⟨as, g, hseries, by omega, fun ⟨e, he⟩ => absurd he (hvalue _), hgo.trans ?_⟩
    exact Final.andThen_congr fun reply h => absurd h (hvalue reply)

theorem Retries.again {n : Nat} {f : Final σ Reply} {q : Reply → Program σ β} {value : Nat → Reply → β}
    (hf : f.Fails) (hvalue : ∀ v, q (.ok v) = done (value 1 (.ok v)))
    (hq : ∀ (g : Final σ Reply) e, g.exit = .value (.error e) →
      Retries others inv n g (q (.error e)) fun k reply => value (k + 1) reply) :
    Retries others inv (n + 1) f (inv.attempt.bind q) value := by
  have hrun : (inv.attempt.bind q).run others none f.holder f.world =
      ((f.next others []).run others inv).andThen others none q := run_bind ..
  have hlast : Series others inv f [f.next others []] ((f.next others []).run others inv) :=
    .again [] hf (.rest _ [])
  generalize hg : (f.next others []).run others inv = g at hrun hlast
  by_cases hfails : g.Fails
  · obtain ⟨e, he⟩ := hfails
    obtain ⟨as, g', hseries, hle, hfails, hsame⟩ := hq g e he
    refine ⟨f.next others [] :: as, g', .again [] hf (hg ▸ hseries), by simpa using hle,
      fun h => by simp [hfails h], ?_⟩
    rw [hrun, Final.andThen_of_value he]
    exact hsame
  · refine ⟨_, g, hlast, by simp, fun h => absurd h hfails, ?_⟩
    rw [hrun]
    refine Final.andThen_congr fun reply hreply => ?_
    cases reply with
    | ok v => exact hvalue v
    | error e => exact absurd ⟨e, hreply⟩ hfails

/-! ## Retry handlers -/

theorem retries_retryLoop {r : RetryHandler σ} (hr : r.listeners = []) (scope : String)
    (countdown attempts : Nat) {f : Final σ Reply} {e : Failure} (hf : f.exit = .value (.error e)) :
    Retries others inv countdown f (r.retryLoop scope inv countdown attempts e)
      fun k reply => (reply, attempts + k) := by
  -- What stands before a retry only observes, so each step of the loop is one more attempt.
  induction countdown generalizing attempts f e with
  | zero => exact Retries.of_observes hf (fun _ => rfl) (observes_done _)
  | succ countdown ih =>
    rw [RetryHandler.retryLoop, hr]
    refine Retries.observes_bind (observes_log _) (Retries.observes_bind (observes_count _) ?_)
    refine Retries.observes_bind (observes_emit_nil _) (Retries.observes_bind (observes_pause _) ?_)
    refine Retries.again ⟨e, hf⟩ (fun v => rfl) fun g e' hg => ?_
    have hloop := ih (attempts + 1) hg
    simp only [Nat.add_assoc, Nat.add_comm 1] at hloop
    exact hloop

theorem observes_conclude {r : RetryHandler σ} (hr : r.listeners = []) (scope : String) (reply : Reply)
    (attempts : Nat) : ∃ es, (r.conclude scope reply attempts).Observes others es () := by
  cases reply with
  | ok v =>
    rw [RetryHandler.conclude, hr]
    exact ⟨_, observes_bind (observes_count _) (observes_emit_nil _)⟩
  | error e =>
    rw [RetryHandler.conclude, hr]
    exact ⟨_, observes_bind (observes_log _) (observes_bind (observes_count _) (observes_emit_nil _))⟩

theorem retries_handle {r : RetryHandler σ} (hr : r.listeners = []) {f : Final σ Reply} {e : Failure}
    (hf : f.exit = .value (.error e)) :
    Retries others inv r.count f (r.handle inv (.error e)) fun _ reply => reply := by
  let scope := (f.holder.map Context.scope).getD inv.name
  refine Retries.reads_bind (run_currentScope inv.name f.holder f.world) ?_
  refine (retries_retryLoop hr scope r.count 0 hf).bind (m := 0) fun k g reply hreply => ?_
  obtain ⟨es, hes⟩ : ∃ es, (r.conclude scope reply (0 + k)).Observes others es () :=
    observes_conclude hr scope reply _
  exact Retries.of_observes hreply (fun _ => rfl) (observes_bind hes (observes_done reply))

/-! ## Handlers in order -/

/-- How many retries the policies allow together. -/
def RetryPolicy.totalCount : List RetryPolicy → Nat
  | [] => 0
  | p :: ps => p.count + totalCount ps

theorem totalCount_perm {ps qs : List RetryPolicy} (h : ps.Perm qs) :
    RetryPolicy.totalCount ps = RetryPolicy.totalCount qs := by
  induction h with
  | nil => rfl
  | cons p _ ih => rw [RetryPolicy.totalCount, RetryPolicy.totalCount, ih]
  | swap p q ps =>
    simp only [RetryPolicy.totalCount]
    omega
  | trans _ _ ih ih' => exact ih.trans ih'

/-- How many attempts may follow the first one: the count of the retry strategy, if there is one, and
those of all failover policies. -/
def Context.budget (c : Context) : Nat :=
  (c.retry?.map RetryStrategy.count).getD 0 +
    RetryPolicy.totalCount ((c.failover?.map FailoverStrategy.policies).getD [])

/-- The policies of a context by ascending priority. -/
def FailoverChain.ordered (c : Context) : List RetryPolicy :=
  (FailoverChain.policies c).mergeSort fun a b => a.priority ≤ b.priority

/-- The handler that retries as a policy says. -/
def RetryPolicy.handler (p : RetryPolicy) : FailoverHandler σ := (RetryHandler.ofPolicy p).toHandler

theorem handlers_ofContext (c : Context) :
    (FailoverChain.ofContext c : FailoverChain σ).handlers =
      (FailoverChain.ordered c).map RetryPolicy.handler :=
  (List.map_mergeSort (f := RetryPolicy.handler) fun _ _ _ _ => rfl).symm

theorem totalCount_ordered (c : Context) : RetryPolicy.totalCount (FailoverChain.ordered c) = c.budget := by
  have hpolicies : RetryPolicy.totalCount (FailoverChain.policies c) = c.budget := by
    unfold FailoverChain.policies Context.budget
    cases c.retry? with
    | none => exact (Nat.zero_add _).symm
    | some s => rfl
  exact (totalCount_perm (List.mergeSort_perm _ _)).trans hpolicies

theorem retries_handleAll (ps : List RetryPolicy) {f : Final σ Reply} {reply : Reply}
    (hf : f.exit = .value reply) :
    Retries others inv (RetryPolicy.totalCount ps) f
      (FailoverChain.handleAll inv (ps.map RetryPolicy.handler) reply)
      fun _ reply => reply := by
  induction ps generalizing f reply with
  | nil => exact Retries.of_observes hf (fun _ => rfl) (observes_done reply)
  | cons p ps ih =>
    cases reply with
    | ok v => exact Retries.of_observes hf (fun h => absurd h (Final.not_fails hf)) (observes_done _)
    | error e =>
      rw [RetryPolicy.totalCount]
      refine Retries.observes_bind (observes_log _) ?_
      have hhandle : Retries others inv p.count
          (f.after others [.traced (.handlerInvoked inv.name p.priority)])
          ((RetryHandler.ofPolicy p).handle inv (.error e)) fun _ reply => reply :=
        retries_handle (r := RetryHandler.ofPolicy p) (f := f.after others _) rfl hf
      exact hhandle.bind fun _ g reply hreply => ih hreply

/-! ## Requests -/

/-- The end of the work of a request that comes to a reply after a number of retries. -/
def Requester.Outcome.ofReply (retries : Nat) : Reply → Requester.Outcome
  | .ok v => if retries = 0 then .success v else .recovered v
  | .error e => .failed e

theorem retries_outcome (ps : List RetryPolicy) {f : Final σ Reply} {e : Failure}
    (hf : f.exit = .value (.error e)) :
    Retries others inv (RetryPolicy.totalCount ps) f
      ((FailoverChain.handleAll inv (ps.map RetryPolicy.handler) (.error e)).bind fun
        | .ok v => done (.recovered v)
        | .error e => done (.failed e))
      fun _ reply => Requester.Outcome.ofReply 1 reply := by
  refine (retries_handleAll ps hf).bind (m := 0) fun _ g reply hreply => ?_
  cases reply with
  | ok v => exact Retries.of_observes hreply (fun _ => rfl) (observes_done _)
  | error e => exact Retries.of_observes hreply (fun _ => rfl) (observes_done _)

theorem retries_recover (r : Requester σ) (c : Context) {f : Final σ Reply} {e : Failure}
    (hf : f.exit = .value (.error e)) :
    Retries others inv c.budget f (r.recover c inv e) fun _ reply => Requester.Outcome.ofReply 1 reply := by
  refine Retries.observes_bind (observes_log _) ?_
  have hhandlers := handlers_ofContext (σ := σ) c
  have hbudget := totalCount_ordered c
  generalize FailoverChain.ordered c = ps at hhandlers hbudget
  cases ps with
  | nil =>
    rw [if_pos (by simp [hhandlers])]
    exact Retries.of_observes hf (fun _ => hbudget) (observes_done _)
  | cons p ps =>
    rw [if_neg (by simp [hhandlers])]
    refine Retries.observes_bind (observes_log _) ?_
    rw [FailoverChain.handle, hhandlers, ← hbudget]
    exact retries_outcome (f := Final.after others (f.after others _) _) (p :: ps) hf

namespace Requester

/-- The context that a request derives for its call. -/
def derived (r : Requester σ) (inv : Invocation σ) (h : Option Context) (w : World σ) : Context :=
  (h.getD (w.storages r.storage)).withScope inv.name

/-- The call with the stages that the derived context asks for. -/
def decorated (net : Network σ) (r : Requester σ) (inv : Invocation σ) (h : Option Context) (w : World σ) :
    Invocation σ :=
  (r.derived inv h w).decorate net inv

/-- The first attempt of a request. -/
def firstAttempt (others : Others σ) (r : Requester σ) (inv : Invocation σ) (h : Option Context)
    (w : World σ) : Attempt σ :=
  let before := [.traced (.attached (r.derived inv h w).scope)]
  ⟨before, some (r.derived inv h w), w.observeAll others before⟩

/-- The end of a request whose last attempt, after a number of retries, came to a reply. -/
def finish (r : Requester σ) (c : Context) (previous : Option Context) (retries : Nat) (reply : Reply) :
    Program σ (Except RpcError String) :=
  ((record (.sampled c.scope)).bind fun _ => r.conclude c.scope (.ofReply retries reply)).ensuring
    (Guard.release ⟨previous⟩)

/-- The request makes these attempts, the last of which stands as in `g`, and then only finishes. -/
def Attempts (others : Others σ) (net : Network σ) (r : Requester σ) (inv : Invocation σ)
    (h : Option Context) (w : World σ) (starts : List (Attempt σ)) (g : Final σ Reply) : Prop :=
  ∃ retries, starts = r.firstAttempt others inv h w :: retries ∧
    Series others (r.decorated net inv h w)
      ((r.firstAttempt others inv h w).run others (r.decorated net inv h w)) retries g ∧
    ((r.request net inv).run others none h w).Same
      (g.andThen others none (r.finish (r.derived inv h w) h retries.length))

theorem run_base (r : Requester σ) (h : Option Context) (w : World σ) :
    r.base.run others limit h w = ⟨.value (h.getD (w.storages r.storage)), h, w⟩ := by
  cases h with
  | some c => rfl
  | none =>
    have hget : (fun i => if i = r.storage then w.storages r.storage else w.storages i) = w.storages := by
      funext i
      split <;> simp_all
    simp only [base, current, Storage.get, perform, bind_eq, Program.bind, run_act, Action.step, run_done,
      id, hget, Option.getD_none]

theorem attempts_execute (r : Requester σ) (c : Context) (first : Attempt σ) :
    let d := c.decorate net inv
    ∃ retries g, Series others d (first.run others d) retries g ∧ retries.length ≤ c.budget ∧
      (g.Fails → retries.length = c.budget) ∧
      ((r.execute net c inv).run others none first.holder first.world).Same
        (g.andThen others none fun reply => done (.ofReply retries.length reply)) := by
  intro d
  have hrun : (r.execute net c inv).run others none first.holder first.world =
      (first.run others d).andThen others none fun
        | .ok v => done (.success v)
        | .error e => r.recover c d e := run_bind ..
  generalize first.run others d = f at hrun ⊢
  by_cases hf : f.Fails
  · obtain ⟨e, he⟩ := hf
    obtain ⟨retries, g, hseries, hle, hfails, hsame⟩ :
        Retries others d c.budget f (r.recover c d e) fun _ reply => .ofReply 1 reply :=
      retries_recover r c he
    refine ⟨retries, g, hseries, hle, hfails, ?_⟩
    rw [hrun, Final.andThen_of_value he]
    refine hsame.trans (Final.andThen_congr fun reply hreply => ?_)
    -- A value is recovered only after a retry; without one the reply is still the first error.
    cases hseries with
    | again es _ _ => cases reply <;> rfl
    | rest _ es =>
      cases he.symm.trans hreply
      rfl
  · refine ⟨[], f, .rest f [], Nat.zero_le _, fun h => absurd h hf, ?_⟩
    rw [hrun]
    refine Final.andThen_congr fun reply hreply => ?_
    cases reply with
    | ok v => rfl
    | error e => exact absurd ⟨e, hreply⟩ hf

theorem same_ensuring {p : Program σ α} {q : α → Program σ β} {cleanup : Program σ Unit}
    {h : Option Context} {w : World σ} (hp : ¬ (p.run others limit h w).Unwinds) :
    (((p.bind q).ensuring cleanup).run others limit h w).Same
      ((p.bind fun a => (q a).ensuring cleanup).run others limit h w) := by
  simp only [ensuring, bind_eq, run_bind, run_caught]
  generalize p.run others limit h w = f at hp ⊢
  obtain ⟨exit, holder, world⟩ := f
  cases exit with
  | value a => exact .of_eq (by simp only [Final.andThen, run_bind, run_caught])
  | unwound payload => exact absurd ⟨payload, rfl⟩ hp
  | pending rest => exact ⟨rfl, rfl, rfl⟩

theorem run_request (r : Requester σ) (h : Option Context) (w : World σ) :
    (r.request net inv).run others none h w =
      (((r.execute net (r.derived inv h w) inv).bind fun outcome =>
        (record (.sampled inv.name)).bind fun _ => r.conclude inv.name outcome).ensuring
          (Guard.release ⟨h⟩)).run others none (some (r.derived inv h w))
            (r.firstAttempt others inv h w).world := by
  rw [request, bind_eq, run_bind, run_base, Final.andThen_of_value rfl]
  rfl

/-- **Attempts of a request.** The first attempt starts under the derived context. Others follow as long
as the one before failed, at most as many as the budget allows, and just as many if the last one fails. -/
theorem attempts_request (r : Requester σ) (h : Option Context) (w : World σ) :
    ∃ starts g, r.Attempts others net inv h w starts g ∧ starts.length ≤ (r.derived inv h w).budget + 1 ∧
      (g.Fails → starts.length = (r.derived inv h w).budget + 1) := by
  obtain ⟨retries, g, hseries, hle, hfails, hsame⟩ :
      ∃ retries g, Series others (r.decorated net inv h w) _ retries g ∧ _ ∧ _ ∧ _ :=
    r.attempts_execute (r.derived inv h w) (r.firstAttempt others inv h w)
  have hlast : ¬ g.Unwinds := hseries.not_unwinds (not_unwinds_attempt _ _)
  have hexecute := hsame.not_unwinds (Final.not_unwinds_andThen hlast fun reply h w => Final.not_unwinds_done _)
  refine ⟨_, g, ⟨retries, rfl, hseries, ?_⟩, by simpa using hle, fun h => by simp [hfails h]⟩
  rw [run_request]
  refine (same_ensuring hexecute).trans ?_
  exact hsame.bind

end Requester

end ResilientCalls
