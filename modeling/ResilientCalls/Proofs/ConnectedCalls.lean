import ResilientCalls.Proofs.EndingRequest
import ResilientCalls.Proofs.RequestCourse
import ResilientCalls.Proofs.RunInPool

/-!
# Connecting, and then the call

An attempt under a context first makes sure of a connection, if the context asks for one, and then makes the call once
or not at all. The tries for a connection are read off the pieces of the connect stage (`dials_of_connecting`): they go
on to the first success or as often as the strategy allows, with the backoff between one try and the next. So all that
an attempt does is known, whatever the connector and the call do (`Context.connects_first`).
-/

namespace ResilientCalls

open Program
open Piece

variable {σ : Type} {h h' : Option Context} {L : List (Deed σ)}

/-! ## Tries for a connection -/

/-- One try for a connection, from its start to its end. -/
structure Dial (σ : Type) : Type 1 where
  holder : Option Context
  deeds : List (Deed σ)
  result : Except Failure Unit
  left : Option Context

/-- How often it is tried if the tries come to `o`: up to the first success, or `n` times if none of the first `n`
is one. -/
def firstConnected (o : Nat → Except Failure Unit) (n : Nat) : Nat :=
  ((List.range n).find? fun i => (o i).isOk).elim n (· + 1)

theorem firstConnected_succ (o : Nat → Except Failure Unit) (n : Nat) :
    firstConnected o (n + 1) = if (o 0).isOk then 1 else firstConnected (fun i => o (i + 1)) n + 1 := by
  rw [firstConnected, List.range_succ_eq_map, List.find?_cons, List.find?_map]
  split
  · simp_all
  · rw [if_neg (by simp_all), firstConnected, Function.comp_def]
    cases (List.range n).find? fun i => (o (i + 1)).isOk <;> rfl

/-- The tries go on to the first success, at most for a number of times; the last failure is what remains. -/
inductive Dial.UpToSuccess : Nat → Failure → List (Dial σ) → Except Failure Unit → Prop
  | spent {last : Failure} : UpToSuccess 0 last [] (.error last)
  | success {n : Nat} {last : Failure} {x : Dial σ} : x.result = .ok () → UpToSuccess (n + 1) last [x] (.ok ())
  | failure {n : Nat} {last e : Failure} {x : Dial σ} {xs : List (Dial σ)} {q : Except Failure Unit} :
      x.result = .error e → UpToSuccess n e xs q → UpToSuccess (n + 1) last (x :: xs) q

namespace Dial.UpToSuccess

variable {n : Nat} {last : Failure} {xs : List (Dial σ)} {q : Except Failure Unit}

theorem by_results (hxs : UpToSuccess n last xs q) {o : Nat → Except Failure Unit}
    (ho : ∀ i x, xs[i]? = some x → x.result = o i) :
    xs.length = firstConnected o n ∧ (q = .ok () ↔ ∃ i < n, (o i).isOk = true) ∧
      ∀ e, q = .error e → if n = 0 then e = last else o (n - 1) = .error e := by
  induction hxs generalizing o with
  | spent => exact ⟨rfl, by simp, fun e he => by cases he; rfl⟩
  | success hok =>
    have hfirst : (o 0).isOk = true := by rw [← ho 0 _ rfl, hok]; rfl
    exact ⟨by rw [firstConnected_succ, if_pos hfirst]; rfl, by simp only [true_iff]; exact ⟨0, Nat.succ_pos _, hfirst⟩,
      nofun⟩
  | @failure n last e x xs q herror hrest ih =>
    have hfirst : o 0 = .error e := by rw [← ho 0 _ rfl, herror]
    -- What remains after a first failure are the tries for the results from the second one on.
    obtain ⟨hlength, hok, hlast⟩ := ih (o := fun i => o (i + 1)) fun i x hx => ho (i + 1) x hx
    refine ⟨?_, hok.trans ⟨?_, ?_⟩, fun e' he' => ?_⟩
    · rw [firstConnected_succ, if_neg (by rw [hfirst]; exact Bool.false_ne_true), List.length_cons, hlength]
    · rintro ⟨i, hi, hoi⟩
      exact ⟨i + 1, Nat.succ_lt_succ hi, hoi⟩
    · rintro ⟨i, hi, hoi⟩
      cases i with
      | zero =>
        rw [hfirst] at hoi
        cases hoi
      | succ i => exact ⟨i, Nat.lt_of_succ_lt_succ hi, hoi⟩
    · have hbefore := hlast e' he'
      rw [if_neg n.succ_ne_zero, Nat.add_sub_cancel]
      cases n with
      | zero =>
        obtain rfl : e' = e := by simpa using hbefore
        exact hfirst
      | succ n => simpa using hbefore

theorem length_filter_isOk_le (hxs : UpToSuccess n last xs q) : (xs.filter (·.result.isOk)).length ≤ 1 := by
  induction hxs with
  | spent => exact Nat.zero_le 1
  | success => exact List.length_filter_le _ _
  | failure herror _ ih => rwa [List.filter_cons_of_neg (by rw [herror]; exact Bool.false_ne_true)]

theorem ne_nil (hxs : UpToSuccess (n + 1) last xs q) : xs ≠ [] := by
  cases hxs <;> exact List.cons_ne_nil _ _

end Dial.UpToSuccess

namespace ConnectStrategy

variable (net : Network σ) (s : ConnectStrategy)

/-- The connector is tried for a connection, one time after the other. -/
inductive Dialed : Option Context → List (Dial σ) → Option Context → Prop
  | nothing {h : Option Context} : Dialed h [] h
  | next {x : Dial σ} {xs : List (Dial σ)} {h' : Option Context} :
      ((net s.connector).connect s.endpoint).Goes x.holder x.deeds (.ok x.result) x.left → Dialed x.left xs h' →
        Dialed x.holder (x :: xs) h'

/-- Try number `n`, which is counted by its result. -/
def dialing (n : Nat) (x : Dial σ) : List (Piece σ) :=
  [.own (.did (.record (.traced (.connecting s.endpoint n s.maxAttempts))) ()),
    through ((net s.connector).connect s.endpoint) x.holder x.deeds (.ok x.result) x.left,
    .own (.did (.record (.counted (.connects s.endpoint x.result.isOk))) ())]

/-- Tries from number `n` on, with the backoff between one and the next. -/
def dials (n : Nat) (xs : List (Dial σ)) : List (Piece σ) :=
  List.intercalate (owns s.backoff.pausing) ((xs.zipIdx n).map fun x => s.dialing net x.2 x.1)

/-- What is done about a failure that remains. -/
def givingUp : Except Failure Unit → List (Deed σ)
  | .ok () => []
  | .error e => [.did (.record (.traced (.gaveUp s.endpoint s.maxAttempts e))) ()]

variable {net s}

theorem dials_singleton (n : Nat) (x : Dial σ) : s.dials net n [x] = s.dialing net n x := by
  simp [dials]

theorem dials_cons {n : Nat} {x : Dial σ} {xs : List (Dial σ)} (hxs : xs ≠ []) :
    s.dials net n (x :: xs) = s.dialing net n x ++ (owns s.backoff.pausing ++ s.dials net (n + 1) xs) := by
  cases xs with
  | nil => exact absurd rfl hxs
  | cons y xs => simp [dials, List.intercalate_cons_cons]

theorem dials_of_connecting {left attempt : Nat} {last : Failure} {ps : List (Piece σ)}
    {r : Except Payload (Except Failure Unit)} (hps : s.Connecting net left attempt last h ps r h')
    (hcount : left + attempt = s.maxAttempts + 1) :
    (∃ p, r = .error p) ∨ ∃ xs q, r = .ok (q.mapError s.failure) ∧ s.Dialed net h xs h' ∧
      Dial.UpToSuccess left last xs q ∧ ps = s.dials net attempt xs ++ owns (s.givingUp q) := by
  induction hps with
  | gaveUp => exact .inr ⟨[], _, rfl, .nothing, .spent, rfl⟩
  | @connected left attempt last h h' L hgoes =>
    refine .inr ⟨[⟨h, L, .ok (), h'⟩], .ok (), rfl, .next (x := ⟨h, L, .ok (), h'⟩) hgoes .nothing, .success rfl, ?_⟩
    rw [dials_singleton]
    rfl
  | @failed left attempt last e h h₁ h' L ps r hgoes hrest ih =>
    rcases ih (by omega) with hpanic | ⟨xs, q, rfl, hdialed, hxs, rfl⟩
    · exact .inl hpanic
    refine .inr ⟨⟨h, L, .error e, h₁⟩ :: xs, q, rfl, .next (x := ⟨h, L, .error e, h₁⟩) hgoes hdialed,
      .failure rfl hxs, ?_⟩
    cases left with
    | zero =>
      cases hxs
      rw [if_neg (by omega), dials_singleton]
      rfl
    | succ left =>
      rw [if_pos (by omega), dials_cons hxs.ne_nil]
      simp [dialing, owns, Except.isOk, Except.toBool]
  | panicked => exact .inl ⟨_, rfl⟩

end ConnectStrategy

/-- A try that is counted, with its endpoint and whether it was a success. -/
def Deed.connects? : Deed σ → Option (String × Bool)
  | .did (.record (.counted (.connects endpoint connected))) _ => some (endpoint, connected)
  | _ => none

namespace ConnectStrategy

variable {net : Network σ} {s : ConnectStrategy}

theorem filterMap_connects_pausing (d : Duration) :
    (d.pausing : List (Deed σ)).filterMap Deed.connects? = [] := by
  unfold Duration.pausing
  split <;> rfl

theorem filterMap_connects_dialing (n : Nat) (x : Dial σ) :
    (ownIn (s.dialing net n x)).filterMap Deed.connects? = [(s.endpoint, x.result.isOk)] := rfl

theorem filterMap_connects_dials (n : Nat) (xs : List (Dial σ)) :
    (ownIn (s.dials net n xs)).filterMap Deed.connects? = xs.map fun x => (s.endpoint, x.result.isOk) := by
  induction xs generalizing n with
  | nil => rfl
  | cons x xs ih =>
    cases xs with
    | nil => rw [dials_singleton, filterMap_connects_dialing, List.map_singleton]
    | cons y xs =>
      rw [dials_cons (List.cons_ne_nil y xs)]
      simp only [ownIn_append, ownIn_owns, List.filterMap_append, filterMap_connects_pausing, ih]
      rfl

/-- What is tried for a connection from `h` on, by the strategy and the results of the connector, and what remains. -/
structure Connects (net : Network σ) (s : ConnectStrategy) (h : Option Context) (xs : List (Dial σ))
    (q : Except Failure Unit) (h' : Option Context) : Prop where
  dialed : s.Dialed net h xs h'
  /-- It is tried up to the first success, or as often as the strategy allows if none of these tries is a success.
  Then the failure of the last one remains. -/
  byResults : ∀ o : Nat → Except Failure Unit, (∀ i x, xs[i]? = some x → x.result = o i) →
    xs.length = firstConnected o s.maxAttempts ∧ (q = .ok () ↔ ∃ i < s.maxAttempts, (o i).isOk = true) ∧
      ∀ e, q = .error e → o (s.maxAttempts - 1) = .error e
  /-- Each try is counted once by its result, and at most one is counted as a success. -/
  counts : (ownIn (s.dials net 1 xs)).filterMap Deed.connects? = xs.map fun x => (s.endpoint, x.result.isOk)
  oneSuccess : (xs.filter (·.result.isOk)).length ≤ 1

/-- At least one try is allowed, so a failure that remains is one of the connector. -/
theorem Dialed.connects {xs : List (Dial σ)} {q : Except Failure Unit} {last : Failure} (hdialed : s.Dialed net h xs h')
    (hxs : Dial.UpToSuccess s.maxAttempts last xs q) : s.Connects net h xs q h' where
  dialed := hdialed
  byResults o ho := by
    obtain ⟨hlength, hok, hlast⟩ := hxs.by_results ho
    refine ⟨hlength, hok, fun e he => ?_⟩
    have hfailure := hlast e he
    rwa [if_neg (Nat.ne_of_gt s.maxAttempts_pos)] at hfailure
  counts := filterMap_connects_dials 1 xs
  oneSuccess := hxs.length_filter_isOk_le

end ConnectStrategy

/-! ## Attempts -/

namespace Context

section Performs

variable (net : Network σ) (c : Context) (inv : Invocation σ) (t : Nat) (es : List (Nat × Deed σ)) (Q : Pool σ)

/-- The call is made once: on thread `t` of the attempt, or under the bound on a worker of its own, which makes it with
`h` attached. The result is what the call comes to, a failure that stands for its panic, or that of a worker that has
not ended within the bound. In a run with the steps `es` that has come to `Q`. -/
inductive CallsOnce (h : Option Context) : List (Deed σ) → Except Payload Reply → Option Context → Prop
  | unbounded {L : List (Deed σ)} {r : Except Payload Reply} {h' : Option Context} : c.timeout? = none →
      inv.call.Goes h L r h' → CallsOnce h L r h'
  | bounded {s : TimeoutStrategy} {m : ChannelId} {n : Nat} {outcome : Option (Except Payload Reply)}
      {d : Delivery Reply} {reply : Reply} : c.timeout? = some s →
      (⟨t, n, inv.job s.timeout h, outcome, some d⟩ : Errand σ).Stands Q es m →
      inv.RunsUnder h outcome (Pool.deedsOf n es) → inv.Hears s.timeout outcome d reply →
        CallsOnce h (.did (.holder id) h :: .started m (inv.job s.timeout h) :: .answered m d ::
          inv.reporting s.timeout h d) (.ok reply) h

/-- What an attempt under a context does from its start to its end, and what it comes to. -/
inductive Performs (h : Option Context) : List (Deed σ) → Except Payload Reply → Option Context → Prop
  /-- No connection is asked for. -/
  | unasked {L : List (Deed σ)} {r : Except Payload Reply} {h' : Option Context} : c.connect? = none →
      c.CallsOnce inv t es Q h L r h' → Performs h L r h'
  /-- There is a connection, and no try for another. -/
  | standing {s : ConnectStrategy} {L₁ L₂ : List (Deed σ)} {r : Except Payload Reply} {h₁ h' : Option Context} :
      c.connect? = some s → (net s.connector).isConnected.Goes h L₁ (.ok true) h₁ →
        c.CallsOnce inv t es Q h₁ L₂ r h' → Performs h (L₁ ++ L₂) r h'
  /-- The last of the tries is a success. -/
  | connected {s : ConnectStrategy} {L₁ L₂ : List (Deed σ)} {xs : List (Dial σ)} {r : Except Payload Reply}
      {h₁ h₂ h' : Option Context} : c.connect? = some s →
      (net s.connector).isConnected.Goes h L₁ (.ok false) h₁ → s.Connects net h₁ xs (.ok ()) h₂ →
        c.CallsOnce inv t es Q h₂ L₂ r h' → Performs h (L₁ ++ (deedsIn (s.dials net 1 xs) ++ L₂)) r h'
  /-- No try is a success, and no call is made. -/
  | refused {s : ConnectStrategy} {L₁ : List (Deed σ)} {xs : List (Dial σ)} {e : Failure} {h₁ h' : Option Context} :
      c.connect? = some s → (net s.connector).isConnected.Goes h L₁ (.ok false) h₁ →
        s.Connects net h₁ xs (.error e) h' →
          Performs h (L₁ ++ (deedsIn (s.dials net 1 xs) ++ s.givingUp (.error e)))
            (.ok (.error (.connect s.endpoint s.maxAttempts e))) h'
  /-- The connector panics, and no call is made. -/
  | panicked {ps : List (Piece σ)} {p : Payload} {h' : Option Context} : c.Connecting net h ps (.error p) h' →
      Performs h (deedsIn ps) (.error p) h'

end Performs

variable {net : Network σ} {c : Context} {inv : Invocation σ} {r : Except Payload Reply} {t : Nat}
  {es : List (Nat × Deed σ)} {Q : Pool σ} {w : World σ} {threads : List ((α : Type) × Program σ α × Option Context)}

theorem callsOnce_of_goes [Inhabited σ] (hrun : (Pool.start w threads).Runs es Q) (hdone : ∀ e ∈ L, (t, e) ∈ es)
    (hgoes : ((Decoration.ofContext c).bounded inv).call.Goes h L r h') : c.CallsOnce inv t es Q h L r h' := by
  unfold Decoration.bounded Decoration.ofContext at hgoes
  cases hs : c.timeout? with
  | none =>
    rw [hs] at hgoes
    exact .unbounded hs hgoes
  | some s =>
    rw [hs] at hgoes
    obtain ⟨rfl, m, d, rfl, rfl⟩ := goes_within hgoes
    obtain ⟨n, outcome, hl, hunder, hhears⟩ := hrun.exists_worker_under
      (hdone (.started m (inv.job s.timeout h')) (by simp)) (hdone (.answered m d) (by simp))
    exact .bounded hs hl hunder hhears

theorem performs_of_connecting {ps : List (Piece σ)} {q : Except Payload (Except Failure Unit)} {h₁ : Option Context}
    (hps : c.Connecting net h ps q h₁)
    (hnext : match q with
      | .ok (.ok ()) => c.CallsOnce inv t es Q h₁ L r h'
      | .ok (.error e) => L = [] ∧ r = .ok (.error e) ∧ h' = h₁
      | .error p => L = [] ∧ r = .error p ∧ h' = h₁) : c.Performs net inv t es Q h (deedsIn ps ++ L) r h' := by
  have hcrash : ∀ p, q = .error p → c.Performs net inv t es Q h (deedsIn ps ++ L) r h' := by
    rintro p rfl
    obtain ⟨rfl, rfl, rfl⟩ := hnext
    rw [List.append_nil]
    exact .panicked hps
  cases hps with
  | unasked hc => exact .unasked hc hnext
  | standing hc hasked => simpa using .standing hc hasked hnext
  | panicked => exact hcrash _ rfl
  | asked hc hasked hloop =>
    rcases ConnectStrategy.dials_of_connecting hloop rfl with ⟨p, rfl⟩ | ⟨xs, q, rfl, hdialed, hxs, rfl⟩
    · exact hcrash p rfl
    have hconnects := hdialed.connects hxs
    cases q with
    | ok u => simpa [ConnectStrategy.givingUp] using .connected hc hasked hconnects hnext
    | error e =>
      obtain ⟨rfl, rfl, rfl⟩ := hnext
      simpa [ConnectStrategy.failure] using .refused hc hasked hconnects

theorem performs_of_goes [Inhabited σ] (hrun : (Pool.start w threads).Runs es Q) (hdone : ∀ e ∈ L, (t, e) ∈ es)
    (hgoes : (c.decorate net inv).call.Goes h L r h') : c.Performs net inv t es Q h L r h' := by
  rw [call_decorate] at hgoes
  rcases goes_bind.1 hgoes with ⟨q, h₁, L₁, L₂, rfl, hconnect, hrest⟩ | ⟨p, rfl, hconnect⟩
  · obtain ⟨ps, rfl, hps⟩ := goes_connectStage hconnect
    refine performs_of_connecting hps ?_
    cases q with
    | ok u => exact callsOnce_of_goes hrun (fun e he => hdone e (List.mem_append_right _ he)) hrest
    | error e => exact goes_done.1 hrest
  · obtain ⟨ps, rfl, hps⟩ := goes_connectStage hconnect
    rw [← List.append_nil (deedsIn ps)]
    exact performs_of_connecting hps ⟨rfl, rfl, rfl⟩

/-- Under a bound a value is that of a worker, which has made the call under what is attached in the end. -/
theorem Performs.worker_of_ok {v : String} {s : TimeoutStrategy}
    (hattempt : c.Performs net inv t es Q h L (.ok (.ok v)) h') (hs : c.timeout? = some s) :
    ∃ m n, (⟨t, n, inv.job s.timeout h', some (.ok (.ok v)), some (.delivered (.ok v))⟩ : Errand σ).Stands Q es m ∧
      inv.RunsUnder h' (some (.ok (.ok v))) (Pool.deedsOf n es) := by
  obtain ⟨h₁, L₂, hcall⟩ : ∃ h₁ L₂, c.CallsOnce inv t es Q h₁ L₂ (.ok (.ok v)) h' := by
    cases hattempt with
    | unasked _ hcall | standing _ _ hcall | connected _ _ _ hcall => exact ⟨_, _, hcall⟩
  cases hcall with
  | unbounded hnone => cases hnone.symm.trans hs
  | bounded hs' hl hunder hhears =>
    cases hs'.symm.trans hs
    cases hhears
    exact ⟨_, _, hl, hunder⟩

theorem ends_decorate {others : Others σ} (hnet : NetworkEnds others net) (hcall : inv.call.Ends others) :
    (c.decorate net inv).call.Ends others := by
  rw [call_decorate]
  refine ends_bind ((closed_ends others).connectStage (fun i => (hnet i).1) fun i => (hnet i).2) fun q => ?_
  cases q with
  | error e => exact ends_done _
  | ok u =>
    show ((Decoration.ofContext c).bounded inv).call.Ends others
    unfold Decoration.bounded
    split
    · exact (closed_ends others).within hcall _
    · exact hcall

/-- **First the connection, then the call.** Decorating a call keeps its name and parameters, and without stages it
changes nothing. One attempt comes to its end if the connector and the call do. In every run, whatever other threads do
before it, meanwhile and after it, an attempt asks once for a connection, tries for one as the strategy says, and then
makes the call once or, without a connection, not at all. A call under a bound is made by a worker, which can always be
started; the worker of a call that was given up makes it all the same. -/
theorem connects_first (net : Network σ) (c : Context) (inv : Invocation σ) :
    (c.decorate net inv).name = inv.name ∧ (c.decorate net inv).parameters = inv.parameters ∧
      (c.connect? = none → c.timeout? = none → c.decorate net inv = inv) ∧
      (∀ others, NetworkEnds others net → inv.call.Ends others → (c.decorate net inv).call.Ends others) ∧
      ∀ (w : World σ) (threads : List ((α : Type) × Program σ α × Option Context)) (P Q R : Pool σ) (t : Nat)
        (es₀ es es' : List (Nat × Deed σ)) (h h' : Option Context) (r : Except Payload Reply),
        (Pool.start w threads).Runs es₀ P → P.Through t (c.decorate net inv).call h es r h' Q → Q.Runs es' R →
          c.Performs net inv t (es₀ ++ (es ++ es')) R h (Pool.deedsOf t es) r h' := by
  refine ⟨name_decorate, ?_, fun hconnect htimeout => ?_, fun others => ends_decorate, ?_⟩
  · unfold decorate Decoration.apply Decoration.bounded
    cases (Decoration.ofContext c).connect <;> cases (Decoration.ofContext c).timeout <;> rfl
  · unfold decorate Decoration.apply Decoration.bounded Decoration.ofContext
    rw [hconnect, htimeout]
  · intro w threads P Q R t es₀ es es' h h' r hbefore hthrough hafter
    have : Inhabited σ := ⟨w.user⟩
    refine performs_of_goes (hbefore.append (hthrough.run.append hafter)) (fun e he => ?_) hthrough.goes
    exact List.mem_append_right es₀ (List.mem_append_left es' (Pool.mem_of_mem_deedsOf he))

/-- A connector without a connection, which refuses the first try for one. -/
def secondTry : Connector Nat :=
  ⟨done false, fun _ => (perform (.user (· + 1))).bind fun tries =>
    done (if tries = 0 then .error (.text "refused") else .ok ())⟩

/-- A context that asks for two tries to connect at most, and had a bound attached before. -/
def boundedPeer : Context :=
  (empty.withStrategy (.timeout ⟨.ofNanos 19 (by decide), rfl⟩)).withStrategy
    (.connect ⟨"peer", 0, 2, .ofNanos 19 (by decide), Nat.two_pos, by decide⟩)

/-- A call that answers with the scope it is made under. -/
def scopePing : Invocation Nat := ⟨"ping", [], (currentScope "").bind fun scope => done (.ok scope)⟩

/-- The bound was attached first, and still the connection comes first. The second try for it is a success, and then a
worker makes the call, with the context attached that the thread of the attempt has. -/
theorem connects_first_bounded :
    let net : Network Nat := fun _ => secondTry
    let call := (boundedPeer.decorate net scopePing).call
    let client : Context := ⟨"client", []⟩
    let reply : Except Payload Reply := .ok (.ok "client")
    NetworkEnds nobody net ∧ scopePing.call.Ends nobody ∧ call.Ends nobody ∧
      empty.decorate net scopePing = scopePing ∧
      ∃ P es Q, Pool.Through P 0 call (some client) es reply (some client) Q ∧
        boundedPeer.Performs net scopePing 0 es Q (some client) (Pool.deedsOf 0 es) reply (some client) ∧
        Q.world.user = 2 ∧ ∃ n, Pool.deedsOf n es =
          attaching client none ++ (.did (.holder id) (some client) :: releasing none (some client)) := by
  intro net call client reply
  have hnet : NetworkEnds nobody net := fun _ => ⟨fun _ _ => rfl, fun _ _ _ => rfl⟩
  have hcall : scopePing.call.Ends nobody := fun _ _ => rfl
  obtain ⟨-, -, -, hends, hperforms⟩ := connects_first net boundedPeer scopePing
  obtain ⟨-, -, hraw, -, -⟩ := connects_first net empty scopePing
  have hend : (call.run nobody none (some client) (World.start 0)).exit.end? = some reply := by
    obtain ⟨r, hr⟩ := end?_of_isEnd (hends nobody hnet hcall (some client) (World.start 0))
    have hvalue : ((call.run nobody none (some client) (World.start 0)).exit.end?.bind fun r =>
        r.toOption.bind Except.toOption) = some "client" := by decide +kernel
    rw [hr] at hvalue ⊢
    rcases r with p | (e | v) <;> cases hvalue
    rfl
  have hheld : (call.run nobody none (some client) (World.start 0)).holder = some client := by decide +kernel
  have huser : (call.run nobody none (some client) (World.start 0)).world.user = 2 := by decide +kernel
  obtain ⟨es, Q, hthrough, ⟨late, hworld⟩, -⟩ := Pool.exists_through
    (P := Pool.start (World.start 0) [⟨_, call, some client⟩]) (t := 0) (p := call) (h := some client) rfl
    (alike_refl (World.start 0)) hend
  rw [hheld] at hthrough
  have hperformed := hperforms _ _ _ _ _ _ _ _ _ _ _ _ .refl hthrough .refl
  rw [List.append_nil, List.nil_append] at hperformed
  obtain ⟨m, n, -, hunder⟩ := hperformed.worker_of_ok rfl
  refine ⟨hnet, hcall, hends nobody hnet hcall, hraw rfl rfl, _, es, Q, hthrough, hperformed, ?_, n, ?_⟩
  · rw [hworld]
    exact huser
  · generalize Pool.deedsOf n es = L at hunder ⊢
    cases hunder with
    | ended hgoes =>
      obtain ⟨L₁, rfl, hdone⟩ := (makes_currentScope "").bind.1 hgoes
      obtain ⟨rfl, -, rfl⟩ := goes_done.1 hdone
      rfl

end Context

end ResilientCalls
