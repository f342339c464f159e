import Mathlib.Data.List.Perm.Subperm
import ResilientCalls.Proofs.BoundedCalls
import ResilientCalls.Proofs.RunInPool
import ResilientCalls.Proofs.SpawnedRequests

/-!
# Workers keep apart

What the thread of a request does falls into calls on workers of its own, client code, and the rest, which
starts nothing (`Laid`). There are at most as many such calls as the retry budget allows
(`lays_execute`). Together with what channels guarantee, workers that come too late have no effect on
anybody (`workers_apart`).
-/

namespace ResilientCalls

open Program

variable {σ α β : Type} {h h' : Option Context} {L L' : List (Deed σ)}

/-! ## Code that starts nothing -/

/-- The code neither starts a worker nor hears of one. -/
def Program.Quiet (p : Program σ α) : Prop :=
  ∀ ⦃h : Option Context⦄ ⦃L : List (Deed σ)⦄ ⦃x : Thread σ α⦄, (Thread.fresh p h).Path L x →
    ∀ e ∈ L, e.channel? = none

theorem quiet_rethrow (r : Except Payload α) : (rethrow r : Program σ α).Quiet := by
  intro h L x hpath e he
  obtain ⟨rfl, -⟩ := Thread.path_of_over (Thread.over?_rethrow r h) hpath
  cases he

theorem quiet_done (a : α) : (done a : Program σ α).Quiet := quiet_rethrow (.ok a)

theorem quiet_perform (a : Action σ β) : (perform a).Quiet := by
  intro h L x hpath e he
  rcases Thread.path_act hpath with ⟨rfl, -⟩ | ⟨b, h₁, w, w', L₁, -, rfl, hrest⟩
  · cases he
  · rcases List.mem_cons.1 he with rfl | he
    · rfl
    · cases hstage : a.stageAfter b with
      | waking i =>
        rw [hstage] at hrest
        rcases Thread.path_waking hrest with ⟨rfl, -⟩ | ⟨L₂, rfl, hlast⟩
        · cases he
        · rcases List.mem_cons.1 he with rfl | he
          · rfl
          · exact quiet_done b hlast e he
      | ready =>
        rw [hstage] at hrest
        exact quiet_done b hrest e he
      | _ => rcases stageAfter_cases a b with hready | ⟨i, hwaking⟩ <;> simp_all

theorem quiet_bind {p : Program σ α} {g : α → Program σ β} (hp : p.Quiet) (hg : ∀ a, (g a).Quiet) :
    (p.bind g).Quiet := by
  intro h L x hpath e he
  rcases Thread.path_bind hpath with ⟨y, hy⟩ | ⟨a, h₁, L₁, L₂, rfl, hfirst, hrest⟩
  · exact hp hy e he
  · rcases List.mem_append.1 he with he | he
    · exact hp hfirst e he
    · exact hg a hrest e he

theorem quiet_sleep (d : Duration) : (sleep d (done ()) : Program σ Unit).Quiet := by
  intro h L x hpath e he
  cases hpath with
  | rest => cases he
  | go hdoes hrest =>
    cases hdoes
    cases hrest with
    | rest =>
      rw [List.mem_singleton] at he
      subst he
      rfl
    | go hdoes' hlast =>
      cases hdoes'
      simp only [List.mem_cons] at he
      rcases he with rfl | rfl | he
      · rfl
      · rfl
      · exact quiet_done () hlast e he

theorem quiet_pause (d : Duration) : (pause d : Program σ Unit).Quiet := by
  unfold pause
  split
  · exact quiet_done ()
  · exact quiet_bind (quiet_perform _) fun _ => quiet_sleep d

theorem quiet_currentScope (otherwise : String) : (currentScope otherwise : Program σ String).Quiet :=
  quiet_bind (quiet_perform _) fun _ => quiet_done _

/-! ## The thread of a request -/

section Layout

/-- What the thread of a request does in stretches, with the channels of the workers that make its own
attempts under the bound. -/
inductive Laid (net : Network σ) (r : Requester σ) (inv : Invocation σ) (c : Context) (bound : Duration) :
    List ChannelId → List (Deed σ) → Prop
  /-- Deeds that are not about workers. -/
  | quiet {L : List (Deed σ)} : (∀ e ∈ L, e.channel? = none) → Laid net r inv c bound [] L
  /-- A connector, on the way to a call. -/
  | connecting {h : Option Context} {L : List (Deed σ)} {x : Thread σ (Except Failure Unit)} :
      (Thread.fresh (c.connectStage net) h).Path L x → Laid net r inv c bound [] L
  | converting {e : Failure} {h : Option Context} {L : List (Deed σ)} {x : Thread σ RpcError} :
      (Thread.fresh (r.convert e) h).Path L x → Laid net r inv c bound [] L
  | telling {l : Listener σ RequestEvent} {event : RequestEvent} {h : Option Context} {L : List (Deed σ)}
      {x : Thread σ Unit} : l ∈ r.listeners → (Thread.fresh (l event) h).Path L x → Laid net r inv c bound [] L
  /-- A call on a worker. -/
  | calling {h : Option Context} {L : List (Deed σ)} {x : Thread σ Reply} :
      (Thread.fresh (inv.within bound).call h).Path L x → Laid net r inv c bound (startedIn L) L
  | append {ms ms' : List ChannelId} {L L' : List (Deed σ)} : Laid net r inv c bound ms L →
      Laid net r inv c bound ms' L' → Laid net r inv c bound (ms ++ ms') (L ++ L')

/-- Whatever the code does, it is laid out with at most `n` calls on workers. -/
def Lays (net : Network σ) (r : Requester σ) (inv : Invocation σ) (c : Context) (bound : Duration)
    (p : Program σ α) (n : Nat) : Prop :=
  ∀ ⦃h : Option Context⦄ ⦃L : List (Deed σ)⦄ ⦃x : Thread σ α⦄, (Thread.fresh p h).Path L x →
    ∃ ms, ms.length ≤ n ∧ Laid net r inv c bound ms L

variable {net : Network σ} {r : Requester σ} {inv : Invocation σ} {c : Context} {bound : Duration} {n m : Nat}

theorem Lays.mono {p : Program σ α} (hp : Lays net r inv c bound p n) (hn : n ≤ m) :
    Lays net r inv c bound p m := by
  intro h L x hpath
  obtain ⟨ms, hms, hlaid⟩ := hp hpath
  exact ⟨ms, Nat.le_trans hms hn, hlaid⟩

theorem Program.Quiet.lays {p : Program σ α} (hp : p.Quiet) : Lays net r inv c bound p 0 :=
  fun _ _ _ hpath => ⟨[], Nat.le_refl _, .quiet (hp hpath)⟩

theorem lays_caught_bind {p : Program σ α} {k : Except Payload α → Program σ β} (hp : Lays net r inv c bound p n)
    (hk : ∀ q, Lays net r inv c bound (k q) m) : Lays net r inv c bound (p.caught.bind k) (n + m) := by
  intro h L x hpath
  rcases Thread.path_caught_bind hpath with ⟨y, hy⟩ | ⟨q, h₁, L₁, L₂, rfl, hfirst, hrest⟩
  · exact hp.mono (Nat.le_add_right n m) hy
  · obtain ⟨ms, hms, hlaid⟩ := hp hfirst
    obtain ⟨ms', hms', hlaid'⟩ := hk q hrest
    refine ⟨ms ++ ms', ?_, hlaid.append hlaid'⟩
    rw [List.length_append]
    exact Nat.add_le_add hms hms'

theorem lays_bind {p : Program σ α} {g : α → Program σ β} (hp : Lays net r inv c bound p n)
    (hg : ∀ a, Lays net r inv c bound (g a) m) : Lays net r inv c bound (p.bind g) (n + m) := by
  rw [bind_eq_caught_bind]
  refine lays_caught_bind hp fun q => ?_
  cases q with
  | ok a => exact hg a
  | error e => exact (quiet_rethrow (.error e)).lays.mono (Nat.zero_le m)

theorem Program.Quiet.lays_bind {p : Program σ α} {g : α → Program σ β} (hp : p.Quiet)
    (hg : ∀ a, Lays net r inv c bound (g a) n) : Lays net r inv c bound (p.bind g) n :=
  (ResilientCalls.lays_bind hp.lays hg).mono (Nat.le_of_eq (Nat.zero_add n))

/-! ### The parts of a request -/

theorem startedIn_eq_nil (hL : ∀ e ∈ L, e.channel? = none) : startedIn L = [] := by
  refine List.filterMap_eq_nil_iff.2 fun e he => ?_
  have hnone := hL e he
  cases e <;> first | rfl | cases hnone

theorem quiet_delivered (d : Delivery Reply) : (inv.delivered bound d).Quiet := by
  cases d with
  | delivered reply => exact quiet_done _
  | crashed => exact quiet_done _
  | elapsed =>
    exact quiet_bind (quiet_perform _) fun _ => quiet_bind (quiet_currentScope _) fun _ =>
      quiet_bind (quiet_perform _) fun _ => quiet_done _

theorem startedIn_within {x : Thread σ Reply} (hpath : (Thread.fresh (inv.within bound).call h).Path L x) :
    (startedIn L).length ≤ 1 := by
  rw [call_within] at hpath
  rcases Thread.path_bind hpath with ⟨y, hy⟩ | ⟨caller, h₁, L₁, L₂, rfl, hcurrent, hwait⟩
  · rw [startedIn_eq_nil (quiet_perform _ hy)]
    exact Nat.zero_le 1
  · have hfirst : startedIn L₁ = [] := startedIn_eq_nil (quiet_perform _ hcurrent)
    have hsplit : startedIn (L₁ ++ L₂) = startedIn L₂ := by
      rw [startedIn, List.filterMap_append]
      exact congrArg (· ++ _) hfirst
    rw [hsplit]
    rcases Thread.path_worker hwait with ⟨rfl, -⟩ | ⟨m, deadline, rfl, -⟩ | ⟨m, d, L₃, rfl, hrest⟩
    · exact Nat.zero_le 1
    · exact Nat.le_refl 1
    · have hlast : startedIn L₃ = [] := startedIn_eq_nil (quiet_delivered d hrest)
      have hone : startedIn (.started m (inv.job bound caller) :: .answered m d :: L₃) = m :: startedIn L₃ := rfl
      rw [hone, hlast]
      exact Nat.le_refl 1

theorem lays_within : Lays net r inv c bound (inv.within bound).call 1 :=
  fun _ _ _ hpath => ⟨_, startedIn_within hpath, .calling hpath⟩

theorem lays_connectStage : Lays net r inv c bound (c.connectStage net) 0 :=
  fun _ _ _ hpath => ⟨[], Nat.le_refl 0, .connecting hpath⟩

variable {s : TimeoutStrategy} (hs : c.timeout? = some s)
include hs

theorem lays_attempt : Lays net r inv c s.timeout (c.decorate net inv).attempt 1 := by
  have hcall : Lays net r inv c s.timeout (c.decorate net inv).call 1 := by
    rw [call_decorate_within hs]
    refine (lays_bind lays_connectStage fun reply => ?_).mono (Nat.le_of_eq (Nat.zero_add 1))
    cases reply with
    | ok u => exact lays_within
    | error e => exact (quiet_done _).lays.mono (Nat.zero_le 1)
  refine lays_caught_bind (m := 0) hcall fun q => ?_
  cases q with
  | ok reply => exact (quiet_done _).lays
  | error e => exact (quiet_done _).lays

theorem lays_retryLoop (handler : RetryHandler σ) (hhandler : handler.listeners = []) (scope : String)
    (countdown attempts : Nat) (e : Failure) :
    Lays net r inv c s.timeout (handler.retryLoop scope (c.decorate net inv) countdown attempts e) countdown := by
  -- Each round of the loop makes one attempt.
  induction countdown generalizing attempts e with
  | zero => exact (quiet_done _).lays
  | succ countdown ih =>
    rw [RetryHandler.retryLoop, hhandler]
    refine (quiet_perform _).lays_bind fun _ => (quiet_perform _).lays_bind fun _ => ?_
    refine (quiet_done ()).lays_bind fun _ => (quiet_pause _).lays_bind fun _ => ?_
    refine (lays_bind (lays_attempt hs) fun reply => ?_).mono (Nat.le_of_eq (Nat.add_comm 1 countdown))
    cases reply with
    | ok v => exact (quiet_done _).lays.mono (Nat.zero_le countdown)
    | error e => exact ih (attempts + 1) e

theorem lays_handle (handler : RetryHandler σ) (hhandler : handler.listeners = []) (e : Failure) :
    Lays net r inv c s.timeout (handler.handle (c.decorate net inv) (.error e)) handler.count := by
  refine (quiet_currentScope _).lays_bind fun scope => ?_
  refine lays_bind (m := 0) (lays_retryLoop hs handler hhandler scope handler.count 0 e) fun last => ?_
  refine Program.Quiet.lays_bind ?_ fun _ => (quiet_done _).lays
  obtain ⟨reply, attempts⟩ := last
  cases reply with
  | ok v =>
    rw [RetryHandler.conclude, hhandler]
    exact quiet_bind (quiet_perform _) fun _ => quiet_done ()
  | error e =>
    rw [RetryHandler.conclude, hhandler]
    exact quiet_bind (quiet_perform _) fun _ => quiet_bind (quiet_perform _) fun _ => quiet_done ()

theorem lays_handleAll (ps : List RetryPolicy) (reply : Reply) :
    Lays net r inv c s.timeout (FailoverChain.handleAll (c.decorate net inv) (ps.map RetryPolicy.handler) reply)
      (RetryPolicy.totalCount ps) := by
  induction ps generalizing reply with
  | nil => exact (quiet_done _).lays
  | cons p ps ih =>
    cases reply with
    | ok v => exact (quiet_done _).lays.mono (Nat.zero_le _)
    | error e =>
      refine (quiet_perform _).lays_bind fun _ => ?_
      exact lays_bind (lays_handle hs (RetryHandler.ofPolicy p) rfl e) fun reply => ih reply

theorem lays_recover (e : Failure) :
    Lays net r inv c s.timeout (r.recover c (c.decorate net inv) e) c.budget := by
  refine (quiet_perform _).lays_bind fun _ => ?_
  split
  · exact (quiet_done _).lays.mono (Nat.zero_le _)
  · refine (quiet_perform _).lays_bind fun _ => ?_
    rw [FailoverChain.handle, handlers_ofContext, ← totalCount_ordered]
    refine lays_bind (m := 0) (lays_handleAll hs _ _) fun reply => ?_
    cases reply with
    | ok v => exact (quiet_done _).lays
    | error e => exact (quiet_done _).lays

/-- **The calls of a request.** A request makes at most one call more than its retry budget allows. -/
theorem lays_execute : Lays net r inv c s.timeout (r.execute net c inv) (1 + c.budget) := by
  refine lays_bind (lays_attempt hs) fun reply => ?_
  cases reply with
  | ok v => exact (quiet_done _).lays.mono (Nat.zero_le _)
  | error e => exact lays_recover hs e

omit hs

theorem lays_emit {ls : List (Listener σ RequestEvent)} (hls : ∀ l ∈ ls, l ∈ r.listeners) (event : RequestEvent) :
    Lays net r inv c bound (emit ls event) 0 := by
  induction ls with
  | nil => exact (quiet_done ()).lays
  | cons l ls ih =>
    have hl : Lays net r inv c bound (l event) 0 := fun _ _ _ hpath =>
      ⟨[], Nat.le_refl 0, .telling (hls l (List.mem_cons_self ..)) hpath⟩
    exact lays_caught_bind hl fun _ => ih fun l' hl' => hls l' (List.mem_cons_of_mem l hl')

theorem lays_conclude (scope : String) (outcome : Requester.Outcome) :
    Lays net r inv c bound (r.conclude scope outcome) 0 := by
  have htell : ∀ (event : RequestEvent) (answer : Except RpcError String),
      Lays net r inv c bound ((emit r.listeners event).bind fun _ => done answer) 0 := fun event answer =>
    lays_bind (lays_emit (fun _ hl => hl) event) fun _ => (quiet_done answer).lays
  cases outcome with
  | success v => exact (quiet_perform _).lays_bind fun _ => htell _ _
  | recovered v => exact (quiet_perform _).lays_bind fun _ => htell _ _
  | failed e =>
    have hconvert : Lays net r inv c bound (r.convert e) 0 := fun _ _ _ hpath =>
      ⟨[], Nat.le_refl 0, .converting hpath⟩
    refine lays_bind (m := 0) hconvert fun error => ?_
    exact (quiet_perform _).lays_bind fun _ => (quiet_perform _).lays_bind fun _ => htell _ _

theorem lays_withContext (context : Context) {body : Program σ α} (hbody : Lays net r inv c bound body n) :
    Lays net r inv c bound (withContext context body) n := by
  have hattach : (attach context : Program σ Guard).Quiet :=
    quiet_bind (quiet_perform _) fun _ => quiet_bind (quiet_perform _) fun _ => quiet_done _
  refine hattach.lays_bind fun guard => lays_caught_bind (m := 0) hbody fun q => ?_
  refine Program.Quiet.lays ?_
  refine quiet_bind (quiet_bind (quiet_perform _) fun released => ?_) fun _ => quiet_rethrow q
  cases released with
  | none => exact quiet_done ()
  | some c => exact quiet_perform _

theorem path_request {x : Thread σ (Except RpcError String)} [Inhabited σ]
    (hpath : (Thread.fresh (r.request net inv) h).Path L x) :
    (∀ e ∈ L, e.channel? = none) ∨ ∃ base L₁, L = r.basing h base ++ L₁ ∧ (∀ c, h = some c → c = base) ∧
      ∀ s, (base.withScope inv.name).timeout? = some s → ∃ own, own.length ≤ 1 + (base.withScope inv.name).budget ∧
        Laid net r inv (base.withScope inv.name) s.timeout own L₁ := by
  have hbase : r.base.Quiet := by
    refine quiet_bind (quiet_perform _) fun found => ?_
    cases found with
    | none => exact quiet_perform _
    | some c => exact quiet_done c
  rcases Thread.path_bind hpath with ⟨y, hy⟩ | ⟨base, h₁, L₁, L₂, rfl, hgoes, hrest⟩
  · exact .inl (hbase hy)
  · obtain ⟨base', rfl, heq, rfl, hattached⟩ := Requester.goes_base hgoes
    cases heq
    refine .inr ⟨base, L₂, rfl, hattached, fun s hs => ?_⟩
    refine lays_withContext _ (n := 1 + (base.withScope inv.name).budget) ?_ hrest
    refine lays_bind (m := 0) (lays_execute hs) fun outcome => ?_
    exact (quiet_perform _).lays_bind fun _ => lays_conclude _ outcome

end Layout

/-! ## In a pool -/

namespace Pool

variable {P Q R : Pool σ} {t : Nat} {m : ChannelId} {es es' : List (Nat × Deed σ)}

/-- In this run thread `t` comes so far in the code `p`, with `h` attached at its start. -/
structure Along (P : Pool σ) (t : Nat) (p : Program σ α) (h : Option Context) (es : List (Nat × Deed σ))
    (Q : Pool σ) : Prop where
  run : P.Runs es Q
  thread : ∃ (β : Type) (k : Except Payload α → Program σ β) (x : Thread σ α),
    P.Has t (.fresh (p.caught.bind k) h) ∧ (Thread.fresh p h).Path (deedsOf t es) x ∧ Q.Has t (x.before k)

theorem Through.along {p : Program σ α} {r : Except Payload α} (hthrough : P.Through t p h es r h' Q) :
    P.Along t p h es Q := by
  obtain ⟨β, k, hP, hQ⟩ := hthrough.thread
  refine ⟨hthrough.run, β, k, .fresh (rethrow r) h', hP, hthrough.goes, ?_⟩
  rwa [Thread.before_of_over (Thread.over?_rethrow r h')]

/-- The worker on a channel has not come to its end. -/
def Alive (P : Pool σ) (m : ChannelId) : Prop := ∃ (n : Nat) (x : Member σ), P.threads[n]? = some x ∧ x.sender = some m

/-- What holds of the workers in a run. -/
structure WorkersApart (P : Pool σ) (es : List (Nat × Deed σ)) (Q : Pool σ) : Prop where
  /-- A channel is unused, or it stands for one errand whose caller goes on once. -/
  errands : ∀ m, Q.Unused es m ∨ ∃ l : Errand σ, l.Stands Q es m
  /-- Each errand has a worker of its own. -/
  own : ∀ {m m' : ChannelId} {l l' : Errand σ}, l.Stands Q es m → l'.Stands Q es m' → l.worker = l'.worker → m = m'
  /-- Nobody notices anything of a worker that ends after its caller went on. -/
  late : ∀ {m : ChannelId} {l : Errand σ} {n : Nat} {β : Type} {r : Except Payload β} {R : Pool σ},
    l.Stands Q es m → l.answer ≠ none → Q.Step n (.finished m r) R →
      R.shared = Q.shared ∧ ∀ {u : Nat} {α : Type} {x : Thread σ α}, R.Has u x ↔ Q.Has u x
  /-- An attempt under a bound has the result of its one call, unless it fails for want of a connection. -/
  attempts : ∀ {net : Network σ} {c : Context} {s : TimeoutStrategy} {inv : Invocation σ} {P₁ P₂ : Pool σ} {t : Nat}
    {h h' : Option Context} {es' : List (Nat × Deed σ)} {r : Except Payload Reply}, c.timeout? = some s →
    P₁.Through t (c.decorate net inv).attempt h es' r h' P₂ →
      ∃ reply, r = .ok reply ∧ P₁.Attempted t net c inv s.timeout h es' reply h' P₂
  /-- A call under a bound hears of its own worker and leaves its thread as it was. -/
  calls : ∀ {inv : Invocation σ} {bound : Duration} {es₁ es₂ es₃ : List (Nat × Deed σ)} {P₁ P₂ : Pool σ} {t : Nat}
    {h h' : Option Context} {r : Except Payload Reply}, es = es₁ ++ (es₂ ++ es₃) → P.Runs es₁ P₁ →
    P₁.Through t (inv.within bound).call h es₂ r h' P₂ → P₂.Runs es₃ Q →
      h' = h ∧ ∃ m n outcome d reply, (⟨t, n, inv.job bound h, outcome, some d⟩ : Errand σ).Stands Q es m ∧
        (t, .started m (inv.job bound h)) ∈ es₂ ∧ (t, .answered m d) ∈ es₂ ∧
          inv.Hears bound outcome d reply ∧ r = .ok reply
  /-- The worker of such a call makes it once, under what its caller had attached at the start of the call, and does
  nothing else; once it has ended it has made the call from its start to its end. -/
  under : ∀ {inv : Invocation σ} {bound : Duration} {h : Option Context} {m : ChannelId} {t n : Nat}
    {outcome : Option (Except Payload Reply)} {answer : Option (Delivery Reply)},
    (⟨t, n, inv.job bound h, outcome, answer⟩ : Errand σ).Stands Q es m → inv.RunsUnder h outcome (deedsOf n es)
  /-- What is attached to a thread, and what it has left to do, changes by its own steps only. -/
  alone : ∀ {t u : Nat} {e : Deed σ} {R : Pool σ} {α : Type} {x : Thread σ α}, Q.Step u e R → t ≠ u → Q.Has t x →
    R.Has t x
  /-- The workers that a request with a timeout strategy starts for its own attempts are never more than one
  for the first attempt and one for each retry that its budget allows. -/
  budget : ∀ {net : Network σ} {r : Requester σ} {inv : Invocation σ} {P₁ : Pool σ} {t : Nat} {h : Option Context}
    {es' : List (Nat × Deed σ)}, P₁.Along t (r.request net inv) h es' Q →
      (∀ e ∈ deedsOf t es', e.channel? = none) ∨ ∃ base L, deedsOf t es' = r.basing h base ++ L ∧
        r.Captures P₁ t h es' base ∧ ∀ s, (base.withScope inv.name).timeout? = some s →
          ∃ own, Laid net r inv (base.withScope inv.name) s.timeout own L ∧
            ∀ {es'' : List (Nat × Deed σ)} {R : Pool σ}, Q.Runs es'' R → ∀ alive : List ChannelId, alive.Nodup →
              (∀ m ∈ alive, m ∈ own ∧ R.Alive m) → alive.length ≤ 1 + (base.withScope inv.name).budget

theorem Along.laid {net : Network σ} {r : Requester σ} {inv : Invocation σ}
    (halong : P.Along t (r.request net inv) h es Q) :
    (∀ e ∈ deedsOf t es, e.channel? = none) ∨ ∃ base L, deedsOf t es = r.basing h base ++ L ∧
      r.Captures P t h es base ∧ ∀ s, (base.withScope inv.name).timeout? = some s →
        ∃ own, own.length ≤ 1 + (base.withScope inv.name).budget ∧
          Laid net r inv (base.withScope inv.name) s.timeout own L := by
  have : Inhabited σ := ⟨P.world.user⟩
  obtain ⟨β, k, x, -, hpath, -⟩ := halong.thread
  rcases path_request hpath with hquiet | ⟨base, L, hdeeds, hattached, hlaid⟩
  · exact .inl hquiet
  · exact .inr ⟨base, L, hdeeds, Requester.captures_of_deeds (L := []) halong.run hattached hdeeds, hlaid⟩

/-- **Workers keep apart.** In every run, whatever threads make what calls and in whatever order their
workers end. -/
theorem workers_apart {w : World σ} {threads : List ((α : Type) × Program σ α × Option Context)}
    (hruns : (start w threads).Runs es Q) : WorkersApart (start w threads) es Q := by
  have : Inhabited σ := ⟨w.user⟩
  exact {
    errands := hruns.errand
    own := fun hl hl' hworker => by
      have hnumber := hl.number
      rw [hworker, hl'.number] at hnumber
      exact (Nat.add_left_cancel hnumber).symm
    late := fun {m l} _ _ _ _ hl hanswer hstep => by
      refine hstep.eq_of_left ?_
      rw [hl.channel, Errand.channel]
      cases hl' : l.answer with
      | none => exact absurd hl' hanswer
      | some d => rfl
    attempts := fun hs hattempt => hattempt.attempted hs
    calls := by
      rintro inv bound es₁ es₂ es₃ P₁ P₂ t h h' r rfl hbefore hcall hafter
      exact hcall.bounded hbefore hafter
    under := fun hl => hl.runsUnder
    alone := fun hstep hne hx => hstep.has_of_ne hne hx
    budget := fun halong => by
      refine halong.laid.imp id ?_
      rintro ⟨base, L, hdeeds, hcaptures, hlaid⟩
      refine ⟨base, L, hdeeds, hcaptures, fun s hs => ?_⟩
      obtain ⟨own, hown, hlaid⟩ := hlaid s hs
      refine ⟨own, hlaid, fun _ alive hnodup halive => Nat.le_trans ?_ hown⟩
      exact (List.subperm_of_subset hnodup fun m hm => (halive m hm).1).length_le }

/-- A call that answers with the scope that it sees. -/
def scopeCall : Invocation Unit := ⟨"getBlock", [], (currentScope "").bind fun scope => done (.ok scope)⟩

/-- The bound of that call. -/
def shortly : Duration := .ofNanos 5 (by decide)

/-- A worker ends when its caller has given it up. It has made its call under the context of its caller all the same. -/
theorem workers_apart_late :
    let client : Context := ⟨"client", []⟩
    let P := start (World.start ()) [⟨Reply, (scopeCall.within shortly).call, some client⟩]
    ∃ es Q m n, P.Runs es Q ∧ P.WorkersApart es Q ∧
      (⟨0, n, scopeCall.job shortly (some client), some (.ok (.ok "client")), some .elapsed⟩ : Errand Unit).Stands Q
        es m ∧
      deedsOf n es = attaching client none ++ (.did (.holder id) (some client) :: releasing none (some client)) := by
  intro client P
  obtain ⟨es₀, Q₀, hgivenUp, hstarted, hanswered, hleft, hworker⟩ : ∃ es₀ Q₀, P.Runs es₀ Q₀ ∧
      (0, .started 0 (scopeCall.job shortly (some client))) ∈ es₀ ∧
      (0, .answered 0 (.elapsed : Delivery Reply)) ∈ es₀ ∧ Q₀.shared.channels[0]? = some .left ∧
      Q₀.threads[1]? = some ⟨Reply, some 0, .fresh (scopeCall.underContext (some client)) none⟩ := by
    have hrun := Runs.refl (P := P)
    have hrun := hrun.step (t := 0) (.does rfl (.act (w := World.start ()) rfl) (.did rfl))
    have hrun := (hrun.step (t := 0) (.does rfl .start .started)).wait 5
    have hrun := hrun.step (t := 0) (.does rfl (.receive fun _ => ⟨5, rfl, by decide⟩) (.answered rfl .silence))
    exact ⟨_, _, hrun, List.mem_append_left _ List.mem_concat_self, List.mem_concat_self, rfl, rfl⟩
  obtain ⟨es₁, Q₁, hworks, -, hkeeps, hend⟩ :
      Q₀.Realizes 1 (some 0) ((scopeCall.underContext (some client)).run nobody none none Q₀.world) :=
    realizes_run _ hworker (alike_refl _)
  have hrun := (hgivenUp.append hworks).step (.finishes (hend (.ok (.ok "client")) rfl) rfl (hkeeps.channels _ _ hleft))
  have hall := workers_apart hrun
  obtain ⟨n, outcome, hl⟩ := hrun.exists_errand (List.mem_append_left _ (List.mem_append_left _ hstarted))
    (List.mem_append_left _ (List.mem_append_left _ hanswered))
  let last : Nat × Deed Unit := (1, .finished 0 (.ok (.ok "client") : Except Payload Reply))
  have hended : last ∈ stepsOn 0 (es₀ ++ es₁ ++ [last]) :=
    List.mem_filter.2 ⟨List.mem_concat_self, decide_eq_true rfl⟩
  rw [hl.steps] at hended
  obtain rfl := Errand.mem_steps_finished hended
  refine ⟨_, _, 0, n, hrun, hall, hl, ?_⟩
  have hunder := hall.under hl
  generalize deedsOf n _ = L at hunder ⊢
  cases hunder with
  | ended hcall =>
    obtain ⟨L₁, rfl, hdone⟩ := (makes_currentScope "").bind.1 hcall
    obtain ⟨rfl, -, rfl⟩ := goes_done.1 hdone
    rfl

end Pool

end ResilientCalls
