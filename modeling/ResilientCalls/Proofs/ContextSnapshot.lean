import ResilientCalls.Proofs.Determinacy
import ResilientCalls.Proofs.ExhaustedRequest

/-!
# A request works from one context

Storages change at any time. A request looks into its storage at most once, at its start, and what it does from
then on is determined by the context that it found there or had attached (`request_from_snapshot`). So is every
request that is made under the context it derives, which a bounded attempt hands on to its worker
(`Trial.Of.delegates`), and only requests that start later on a thread without a context see what was stored
meanwhile. What a storage holds at some moment is computed from the writes before it (`Pool.Runs.storages`).
-/

namespace ResilientCalls

open Program
open Piece

variable {σ : Type}

/-! ## What a storage holds -/

/-- The storage that a step looks into or writes to. -/
def Deed.storage? : Deed σ → Option StorageId
  | .did (.storage i _) _ => some i
  | .did (.newStorage _) i => some i
  | _ => none

/-- What a step makes of the content of a storage. -/
def Deed.store (i : StorageId) : Deed σ → Context → Context
  | .did (.storage j f) _, c => if j = i then f c else c
  | .did (.newStorage c') j, c => if j = i then c' else c
  | _, c => c

namespace Pool

variable {P Q R : Pool σ} {t u : Nat} {e : Deed σ} {es es' : List (Nat × Deed σ)} {i : StorageId}

/-- The content of a storage after some steps. -/
def written (i : StorageId) (es : List (Nat × Deed σ)) (c : Context) : Context :=
  es.foldl (fun c e => e.2.store i c) c

@[simp]
theorem written_append (c : Context) : written i (es ++ es') c = written i es' (written i es c) :=
  List.foldl_append

theorem storages_step {β : Type} (a : Action σ β) (h : Option Context) (w : World σ) :
    (a.step h w).2.2.storages i = (Deed.did a (a.step h w).1).store i (w.storages i) := by
  cases a with
  | newStorage c =>
    by_cases hi : i = w.nextId
    · simp [Action.step, Deed.store, hi]
    · simp [Action.step, Deed.store, hi, Ne.symm hi]
  | storage j f =>
    by_cases hi : i = j
    · simp [Action.step, Deed.store, hi]
    · simp [Action.step, Deed.store, hi, Ne.symm hi]
  | settle j outcome =>
    simp only [Action.step]
    cases w.futures j <;> rfl
  | _ => rfl

theorem Step.storages (hstep : P.Step t e Q) : Q.world.storages i = e.store i (P.world.storages i) := by
  cases hstep with
  | finishes => rfl
  | @does α sender x y e s _ _ hallows =>
    cases hallows with
    | @did β a b h' w hact =>
      have hstored := storages_step a x.holder P.world (i := i)
      rw [world, hact] at hstored
      exact hstored
    | _ => rfl

/-- **Storages in a run.** A storage holds what the writes to it make of what it held at first. -/
theorem Runs.storages (hrun : P.Runs es Q) : Q.world.storages i = written i es (P.world.storages i) := by
  induction hrun with
  | refl => rfl
  | step _ hstep ih =>
    rw [hstep.storages, ih, written_append]
    rfl
  | wait n _ ih => exact ih

end Pool

/-! ## The library's own steps -/

section Untouched

variable {net : Network σ} {r : Requester σ} {inv : Invocation σ} {c : Context} {h h' : Option Context}

namespace Piece

/-- The storages that the library itself looks into or writes to. -/
def touchedIn (ps : List (Piece σ)) : List StorageId := (ownIn ps).filterMap Deed.storage?

variable {ps qs : List (Piece σ)} {e : Deed σ} {x : Part σ}

@[simp] theorem touchedIn_append : touchedIn (ps ++ qs) = touchedIn ps ++ touchedIn qs := by
  rw [touchedIn, ownIn_append, List.filterMap_append]
  rfl

@[simp] theorem touchedIn_own : touchedIn (own e :: ps) = e.storage?.toList ++ touchedIn ps := by
  rw [touchedIn, ownIn_own, List.filterMap_cons]
  cases e.storage? <;> rfl

@[simp] theorem touchedIn_client : touchedIn (client x :: ps) = touchedIn ps := rfl

@[simp] theorem touchedIn_nil : touchedIn ([] : List (Piece σ)) = [] := rfl

@[simp] theorem touchedIn_pausing (d : Duration) : touchedIn (owns d.pausing : List (Piece σ)) = [] := by
  unfold Duration.pausing
  split <;> rfl

@[simp] theorem touchedIn_clients (xs : List (Part σ)) : touchedIn (xs.map client) = [] := by
  induction xs with
  | nil => rfl
  | cons x xs ih => exact ih

end Piece

theorem ConnectStrategy.Connecting.touched {s : ConnectStrategy} {left attempt : Nat} {last : Failure}
    {ps : List (Piece σ)} {q : Except Payload (Except Failure Unit)}
    (hps : s.Connecting net left attempt last h ps q h') : touchedIn ps = [] := by
  induction hps with
  | gaveUp | connected | panicked => rfl
  | failed _ _ ih => split <;> simp [Deed.storage?, ih]

theorem Context.Connecting.touched {ps : List (Piece σ)} {q : Except Payload (Except Failure Unit)}
    (hps : c.Connecting net h ps q h') : touchedIn ps = [] := by
  cases hps with
  | unasked | standing | panicked => rfl
  | asked _ _ hloop => simp [hloop.touched]

theorem Context.Calling.touched {q : Except Payload (Except Failure Unit)} {qs : List (Piece σ)} {reply : Reply}
    (hqs : c.Calling inv h q qs reply h') : touchedIn qs = [] := by
  cases hqs with
  | refused | crashed | called => rfl
  | @bounded s m d => cases d <;> rfl

theorem Trial.Of.touched {a : Trial σ} (ha : a.Of net c inv) : touchedIn a.pieces = [] := by
  obtain ⟨hps, -, hqs⟩ := ha
  rw [touchedIn_append, hps.touched, hqs.touched]
  rfl

theorem Retried.touched {n : Nat} {e : Failure} {as : List (Trial σ)} {reply : Reply} {p : RetryPolicy}
    {scope : String} {attempts : Nat} (has : Retried net c inv n e h as reply h') :
    touchedIn (p.rounds scope attempts as) = [] := by
  induction has generalizing attempts with
  | spent => rfl
  | success ha => simp [RetryPolicy.rounds, RetryPolicy.retrying, Deed.storage?, ha.touched]
  | failure ha _ _ ih => simp [RetryPolicy.rounds, RetryPolicy.retrying, Deed.storage?, ha.touched, ih]

theorem Recovered.touched {ps : List RetryPolicy} {first reply : Reply} {ss : List (Spell σ)}
    (hss : Recovered net c inv ps first h ss reply h') : touchedIn (ss.flatMap (Spell.pieces inv)) = [] := by
  induction hss with
  | spent | stop => rfl
  | @spell ps e s ss reply h₁ h' has _ ih =>
    have hconcluding : touchedIn (owns (RetryPolicy.concluding (s.scope inv) s.reply s.trials.length) :
        List (Piece σ)) = [] := by
      cases s.reply <;> rfl
    simp [Spell.pieces, has.touched, hconcluding, ih, Deed.storage?]

theorem Requester.Concludes.touched {scope : String} {outcome : Requester.Outcome} {ps : List (Piece σ)}
    {q : Requester.Result} {event : Option RequestEvent} (hps : r.Concludes scope h outcome ps q event h') :
    touchedIn ps = [] := by
  cases hps <;> simp [Deed.storage?]

/-- Once a request has found its context, it looks into no storage. -/
theorem Course.touched {x : Course σ} (hx : x.Of net r inv) : touchedIn (x.worked r inv) = [] := by
  obtain ⟨h, hrecovered, hconclude⟩ := hx.rest
  have hattaching : touchedIn (owns (attaching (x.base.withScope inv.name) x.holder) : List (Piece σ)) = [] := rfl
  have hreleasing : touchedIn (owns (releasing x.holder x.left) : List (Piece σ)) = [] := by
    cases x.left <;> rfl
  have hrecovery : touchedIn (recovery r (x.base.withScope inv.name) inv x.spells x.first.reply) = [] := by
    cases x.first.reply with
    | ok v => rfl
    | error e =>
      have hannouncing : touchedIn (owns (announcing r (x.base.withScope inv.name) e) : List (Piece σ)) = [] := by
        unfold announcing
        split <;> rfl
      rw [recovery, touchedIn_append, hannouncing, hrecovered.touched]
      rfl
  simp [worked, hattaching, hreleasing, hrecovery, hx.first.touched, hconclude.touched, Deed.storage?]

end Untouched

/-! ## Finding the context -/

namespace Requester

/-- The context that thread `t` with `h` attached finds for a request: the attached one, or what is stored at
the one moment at which it looks. -/
def Resolves (r : Requester σ) (P : Pool σ) (t : Nat) (h : Option Context) (es : List (Nat × Deed σ))
    (base : Context) : Prop :=
  h = some base ∨ h = none ∧ ∃ before after, es = before ++ (t, .did (.storage r.storage id) base) :: after ∧
    Pool.deedsOf t before = [.did (.holder id) none] ∧
    base = Pool.written r.storage before (P.world.storages r.storage)

variable {net : Network σ} {r : Requester σ} {inv : Invocation σ} {P Q : Pool σ} {t : Nat}
  {h h' : Option Context} {es : List (Nat × Deed σ)} {base : Context}

theorem goes_basing [Inhabited σ] {c : Context} (hattached : ∀ c', h = some c' → c' = c) :
    r.base.Goes h (r.basing h c) (.ok c) h := by
  refine makes_current.bind.2 ⟨_, rfl, ?_⟩
  cases h with
  | none =>
    exact (goes_perform fun _ => rfl).2 ⟨c, { World.start default with storages := fun _ => c }, _, rfl, rfl, rfl⟩
  | some c' =>
    obtain rfl := hattached c' rfl
    exact goes_done.2 ⟨rfl, rfl, rfl⟩

theorem resolves_of_deeds {L : List (Deed σ)} (hrun : P.Runs es Q) (hattached : ∀ c, h = some c → c = base)
    (hdeeds : Pool.deedsOf t es = r.basing h base ++ L) : r.Resolves P t h es base := by
  cases h with
  | some c => exact .inl (congrArg some (hattached c rfl))
  | none =>
    obtain ⟨before, after, rfl, hbefore, -⟩ :=
      Pool.deedsOf_eq_append_cons (L := [.did (.holder id) none]) hdeeds
    obtain ⟨P₁, P₂, hruns, hstep, -⟩ := hrun.step_of_mem
    exact .inr ⟨rfl, before, after, rfl, hbefore, by rw [← hstep.stored, hruns.storages]⟩

end Requester

/-- The course of a request whose thread had `h` attached and found `base`, with what the thread did from then
on. -/
structure Course.Tells (net : Network σ) (r : Requester σ) (inv : Invocation σ) (base : Context)
    (h : Option Context) (L : List (Deed σ)) (res : Requester.Result) (x : Course σ) : Prop where
  course : x.Of net r inv
  base : x.base = base
  holder : x.holder = h
  result : x.result = res
  deeds : deedsIn (x.worked r inv) = L
  /-- No storage is looked into any more, but by client code. -/
  untouched : touchedIn (x.worked r inv) = []

section Tells

variable {net : Network σ} {r : Requester σ} {inv : Invocation σ} {P Q : Pool σ} {t : Nat}
  {h h' : Option Context} {es : List (Nat × Deed σ)} {base : Context} {res : Requester.Result}

theorem exists_tells_under (hattached : ∀ c, h = some c → c = base)
    (hunder : P.Through t (r.under net base inv) h es res h' Q) :
    ∃ x : Course σ, x.Tells net r inv base h (Pool.deedsOf t es) res := by
  have : Inhabited σ := ⟨P.world.user⟩
  obtain ⟨x, hx, hbase, hholder, hresult, hdeeds, -⟩ := course_of_under hattached hunder.goes
  exact ⟨x, hx, hbase, hholder, hresult, hdeeds, Course.touched hx⟩

theorem exists_tells (hrequest : P.Through t (r.request net inv) h es res h' Q) :
    ∃ base L, ∃ x : Course σ, x.Tells net r inv base h L res ∧ Pool.deedsOf t es = r.basing h base ++ L ∧
      r.Resolves P t h es base := by
  have : Inhabited σ := ⟨P.world.user⟩
  obtain ⟨x, hx, rfl, hresult, hdeeds, -⟩ := course_of_goes hrequest.goes
  rw [Course.pieces, deedsIn_append, deedsIn_owns] at hdeeds
  exact ⟨x.base, _, x, ⟨hx, rfl, rfl, hresult, rfl, Course.touched hx⟩, hdeeds.symm,
    Requester.resolves_of_deeds hrequest.run hx.base hdeeds.symm⟩

end Tells

/-! ## Calls on workers -/

/-- Connecting leaves the context attached. -/
def Context.StaysAttached (net : Network σ) (c : Context) : Prop :=
  ∀ (L : List (Deed σ)) (q : Except Payload (Except Failure Unit)) (h' : Option Context),
    (c.connectStage net).Goes (some c) L q h' → h' = some c

/-- What an attempt on thread `t` does under a bound, in a run with the steps `es` that has come to `Q`: without a
connection nothing more, and with one it has a worker make the call with `under` attached, which connecting left. -/
inductive Trial.Delegates (net : Network σ) (c : Context) (inv : Invocation σ) (bound : Duration) (t : Nat)
    (es : List (Nat × Deed σ)) (Q : Pool σ) (a : Trial σ) (under : Option Context) : Prop
  | unconnected {q : Except Payload (Except Failure Unit)} : (c.connectStage net).Goes a.holder a.deeds q under →
      q ≠ .ok (.ok ()) → Delegates net c inv bound t es Q a under
  | called {L : List (Deed σ)} {m : ChannelId} {n : Nat} {outcome : Option (Except Payload Reply)}
      {d : Delivery Reply} : (c.connectStage net).Goes a.holder L (.ok (.ok ())) under →
      a.deeds = L ++ .did (.holder id) under :: .started m (inv.job bound under) :: .answered m d ::
        inv.reporting bound under d →
      (⟨t, n, inv.job bound under, outcome, some d⟩ : Errand σ).Stands Q es m →
      inv.RunsUnder under outcome (Pool.deedsOf n es) → inv.Hears bound outcome d a.reply →
        Delegates net c inv bound t es Q a under

section Delegates

variable {net : Network σ} {inv : Invocation σ} {c : Context} {Q : Pool σ} {t : Nat} {es : List (Nat × Deed σ)}
  {a : Trial σ} {w : World σ} {threads : List ((α : Type) × Program σ α × Option Context)}

theorem Trial.Delegates.under_eq {bound : Duration} {under : Option Context}
    (ha : a.Delegates net c inv bound t es Q under) (hstays : c.StaysAttached net) (hheld : a.holder = some c) :
    under = some c := by
  cases ha with
  | unconnected hgoes => exact hstays _ _ _ (hheld ▸ hgoes)
  | called hgoes => exact hstays _ _ _ (hheld ▸ hgoes)

/-- An attempt under a bound leaves what connecting left, whatever its call does. -/
theorem Trial.Of.delegates {s : TimeoutStrategy} (ha : a.Of net c inv) (hs : c.timeout? = some s)
    (hrun : (Pool.start w threads).Runs es Q) (hdone : ∀ e ∈ a.deeds, (t, e) ∈ es) :
    a.Delegates net c inv s.timeout t es Q a.left := by
  have : Inhabited σ := ⟨w.user⟩
  obtain @⟨h, h₁, h', ps, qs, q, reply, -, hgoes, hqs⟩ := ha
  cases hqs with
  | refused | crashed =>
    rw [← List.append_nil ps] at hgoes
    exact .unconnected hgoes nofun
  | called hnone => cases hnone.symm.trans hs
  | @bounded s' m d hs' =>
    obtain rfl := Option.some.inj (hs'.symm.trans hs)
    rw [Trial.deeds, deedsIn_append, deedsIn_owns] at hdone
    have hcall : ∀ e ∈ [.started m (inv.job s'.timeout h₁), .answered m d], (t, e) ∈ es := fun e he =>
      hdone e (List.mem_append_right _ (List.mem_cons_of_mem _ (List.mem_append_left _ he)))
    obtain ⟨n, outcome, hl, hunder, hhears⟩ := hrun.exists_worker_under
      (hcall (.started m (inv.job s'.timeout h₁)) (by simp)) (hcall (.answered m d) (by simp))
    exact .called hgoes (by simp [Trial.deeds]) hl hunder hhears

end Delegates

/-! ## Requests -/

/-- What holds of a request on thread `t` with `h` attached that has found its context by the time the pool is
`P`, whatever is stored from then on. -/
structure Requester.WorksFrom (net : Network σ) (r : Requester σ) (inv : Invocation σ) (base : Context)
    (h : Option Context) (P : Pool σ) (t : Nat) : Prop where
  /-- The request takes its course as the context says. -/
  course : ∀ {es : List (Nat × Deed σ)} {res : Requester.Result} {h' : Option Context} {Q : Pool σ},
    P.Through t (r.under net base inv) h es res h' Q →
      ∃ x : Course σ, x.Tells net r inv base h (Pool.deedsOf t es) res
  /-- A request that is made with the derived context attached works from that one, with the same stages and the
  same handlers. -/
  nested : ∀ {P' Q : Pool σ} {u : Nat} {net' : Network σ} {r' : Requester σ} {inv' : Invocation σ} {scope : String}
    {es : List (Nat × Deed σ)} {res : Requester.Result} {h' : Option Context},
    P'.Through u (r'.request net' inv') (some (base.withScope scope)) es res h' Q →
      ∃ L, ∃ x : Course σ,
        x.Tells net' r' inv' (base.withScope scope) (some (base.withScope scope)) L res ∧
        Pool.deedsOf u es = .did (.holder id) (some (base.withScope scope)) :: L ∧
        Decoration.ofContext (x.base.withScope inv'.name) = Decoration.ofContext base ∧
        FailoverChain.ordered (x.base.withScope inv'.name) = FailoverChain.ordered base
  /-- The call of an attempt under a bound is made by a worker, with the context attached that the attempt has. If
  connecting leaves that one attached, it is the derived one, whatever the call does; so a request that the call makes
  on its worker is one of those above. -/
  onWorkers : ∀ {w : World σ} {threads : List ((α : Type) × Program σ α × Option Context)} {Q R : Pool σ}
    {es₀ es es' : List (Nat × Deed σ)} {res : Requester.Result} {h' : Option Context} {x : Course σ}
    {s : TimeoutStrategy}, (Pool.start w threads).Runs es₀ P → P.Through t (r.under net base inv) h es res h' Q →
      Q.Runs es' R → x.Tells net r inv base h (Pool.deedsOf t es) res → base.timeout? = some s → ∀ a ∈ x.trials,
        a.Delegates net (base.withScope inv.name) inv s.timeout t (es₀ ++ (es ++ es')) R a.left ∧
          ((base.withScope inv.name).StaysAttached net →
            a.holder = some (base.withScope inv.name) ∧ a.left = some (base.withScope inv.name))
  /-- A request that starts later without a context works from what is stored then. -/
  later : ∀ {P' Q : Pool σ} {u : Nat} {net' : Network σ} {r' : Requester σ} {inv' : Invocation σ}
    {es es' : List (Nat × Deed σ)} {res : Requester.Result} {h' : Option Context},
    P.Runs es P' → P'.Through u (r'.request net' inv') none es' res h' Q →
      ∃ before after c, ∃ x : Course σ, es' = before ++ (u, .did (.storage r'.storage id) c) :: after ∧
        Pool.deedsOf u before = [.did (.holder id) none] ∧
        c = Pool.written r'.storage (es ++ before) (P.world.storages r'.storage) ∧
        x.Tells net' r' inv' c none (Pool.deedsOf u after) res
  /-- In another run in which the request finds this context too, it does the same if client code answers alike:
  it has the same result, attempts and pauses. -/
  again : ∀ {P' Q Q' : Pool σ} {t' : Nat} {es es' : List (Nat × Deed σ)} {res res' : Requester.Result}
    {h₁ g g₁ : Option Context}, P.Through t (r.under net base inv) h es res h₁ Q →
    P'.Through t' (r.request net inv) g es' res' g₁ Q' → r.Resolves P' t' g es' base →
      ∃ L, ∃ x x' : Course σ, x.Tells net r inv base h (Pool.deedsOf t es) res ∧
        x'.Tells net r inv base g L res' ∧ Pool.deedsOf t' es' = r.basing g base ++ L ∧
        (x.Alike r x' → x.Same r inv x')

section Requests

variable {net : Network σ} {r : Requester σ} {inv : Invocation σ} {P Q : Pool σ} {t : Nat}
  {h h' : Option Context} {es : List (Nat × Deed σ)} {base base' : Context} {β : Type}
  {k : Requester.Result → Program σ β}

namespace Requester

theorem Resolves.attached (hbase : r.Resolves P t h es base) : ∀ c, h = some c → c = base := by
  rintro c rfl
  rcases hbase with hc | ⟨hnone, -⟩
  · exact Option.some.inj hc
  · cases hnone

theorem Resolves.eq {L : List (Deed σ)} (hbase : r.Resolves P t h es base)
    (hattached : ∀ c, h = some c → c = base') (hdeeds : Pool.deedsOf t es = r.basing h base' ++ L) : base = base' := by
  rcases hbase with rfl | ⟨rfl, before, after, rfl, hbefore, -⟩
  · exact hattached base rfl
  · rw [Pool.deedsOf_append, hbefore] at hdeeds
    simp only [Pool.deedsOf, basing, List.filterMap_cons, Deed.isOwn, and_self, if_true, List.cons_append,
      List.nil_append, List.cons.injEq, Deed.did.injEq, true_and, heq_eq_eq] at hdeeds
    exact hdeeds.1

theorem worksFrom (hattached : ∀ c, h = some c → c = base) : r.WorksFrom net inv base h P t where
  course hunder := exists_tells_under hattached hunder
  nested hrequest := by
    obtain ⟨c, L, x, hx, hdeeds, hc⟩ := exists_tells hrequest
    obtain rfl := hc.attached _ rfl
    refine ⟨L, x, hx, hdeeds, ?_, ?_⟩
    · rw [hx.base]
      rfl
    · rw [hx.base]
      rfl
  onWorkers {w threads Q R es₀ es es' res h' x s} hbefore hunder hafter hx hs := by
    have hdelegates : ∀ a ∈ x.trials,
        a.Delegates net (base.withScope inv.name) inv s.timeout t (es₀ ++ (es ++ es')) R a.left := by
      intro a ha
      have hdone := Piece.infix_deedsIn (Course.infix_worked hx.course ha)
      rw [hx.deeds] at hdone
      have hof := hx.course.of_mem_trials a ha
      rw [hx.base] at hof
      refine hof.delegates hs (hbefore.append (hunder.run.append hafter)) fun e he => ?_
      exact List.mem_append_right es₀ (List.mem_append_left es' (Pool.mem_of_mem_deedsOf (hdone.mem he)))
    refine fun a ha => ⟨hdelegates a ha, fun hstays => ?_⟩
    have hleaves : ∀ b ∈ x.trials, b.Leaves (base.withScope inv.name) := fun b hb =>
      (hdelegates b hb).under_eq hstays
    have hheld := hx.course.holders (by rwa [hx.base]) a ha
    rw [hx.base] at hheld
    exact ⟨hheld, hleaves a ha hheld⟩
  later hrun hrequest := by
    obtain ⟨c, L, x, hx, hdeeds, hc⟩ := exists_tells hrequest
    obtain ⟨before, after, rfl, hbefore, rfl⟩ :=
      Pool.deedsOf_eq_append_cons (L := [.did (.holder id) none]) hdeeds
    obtain ⟨P₁, P₂, hruns, hstep, -⟩ := hrequest.run.step_of_mem
    refine ⟨before, after, c, x, rfl, hbefore, ?_, hx⟩
    rw [← hstep.stored, (hrun.append hruns).storages]
  again hunder hrequest hbase := by
    obtain ⟨x, hx⟩ := exists_tells_under hattached hunder
    obtain ⟨c, L, x', hx', hdeeds, hc⟩ := exists_tells hrequest
    obtain rfl := hbase.eq hc.attached hdeeds
    exact ⟨L, x, x', hx, hx', hdeeds, Course.determined hx.course hx'.course (hx'.base.trans hx.base.symm)⟩

/-- **A request works from one context.** A thread with a request to make is on its way to the context, or has
found it once and for all: the code that it has left is that of this context, and nothing that is stored from
then on changes what it does. -/
theorem request_from_snapshot (hrun : P.Runs es Q)
    (ht : P.Has t (.fresh ((r.request net inv).caught.bind k) h)) :
    (∃ x, (Thread.fresh r.base h).Path (Pool.deedsOf t es) x ∧ x.over? = none) ∨
      ∃ base es₁ es₂ P₁, es = es₁ ++ es₂ ∧ P.Runs es₁ P₁ ∧ P₁.Runs es₂ Q ∧
        Pool.deedsOf t es₁ = r.basing h base ∧ r.Resolves P t h es₁ base ∧
        P₁.Has t (.fresh ((r.under net base inv).caught.bind k) h) ∧ r.WorksFrom net inv base h P₁ t := by
  have : Inhabited σ := ⟨P.world.user⟩
  rw [request_eq, bind_eq_caught_bind r.base, caught_bind_caught_bind] at ht
  rcases hrun.through ht with ⟨x, hpath, hover, -⟩ | ⟨es₁, es₂, q, h', P₁, rfl, hfound, hrest, hnext⟩
  · exact .inl ⟨x, hpath, hover⟩
  · obtain ⟨base, hdeeds, rfl, rfl, hattached⟩ := goes_base hfound.goes
    exact .inr ⟨base, es₁, es₂, P₁, rfl, hfound.run, hrest, hdeeds,
      resolves_of_deeds (L := []) hfound.run hattached (by rw [hdeeds, List.append_nil]), hnext, worksFrom hattached⟩

/-- A context that asks for a retry. -/
def patient : Context := ⟨"", [.retry ⟨1, .zero, by decide⟩]⟩

/-- A request has looked into its storage when another thread stores a context there. -/
theorem request_from_snapshot_replaced :
    let P := Pool.start (World.start ())
      [⟨Except RpcError String, plain.request connected askScope, none⟩, ⟨Context, Storage.set 0 patient, none⟩]
    ∃ es Q, P.Runs es Q ∧ Q.world.storages 0 = patient ∧
      ∃ es₁ P₁, es₁ <+: es ∧ plain.Resolves P 0 none es₁ .empty ∧
        plain.WorksFrom connected askScope .empty none P₁ 0 := by
  intro P
  have hrun := Pool.Runs.refl (P := P)
  have hrun := hrun.step (t := 0) (.does rfl (.act (w := World.start ()) rfl) (.did rfl))
  have hrun := hrun.step (t := 0) (.does rfl (.act (w := World.start ()) rfl) (.did rfl))
  have hrun := hrun.step (t := 1) (.does rfl (.act (w := World.start ()) rfl) (.did rfl))
  refine ⟨_, _, hrun, rfl, ?_⟩
  have ht : P.Has 0 (.fresh ((plain.request connected askScope).caught.bind rethrow) none) := by
    rw [caught_bind_rethrow]
    exact ⟨none, rfl⟩
  rcases request_from_snapshot hrun ht with
    ⟨x, hpath, hover⟩ | ⟨base, es₁, es₂, P₁, hes, -, -, hdeeds, hbase, -, hworks⟩
  · obtain ⟨-, rfl⟩ := (plain.goes_basing (h := none) (c := .empty) nofun).ended (by rw [List.append_nil]; exact hpath)
    cases hover
  · refine ⟨es₁, P₁, ⟨es₂, hes.symm⟩, ?_⟩
    have hall : plain.basing none Context.empty = plain.basing none base ++ Pool.deedsOf 0 es₂ := by
      rw [← hdeeds, ← Pool.deedsOf_append, ← hes]
      rfl
    obtain rfl : Context.empty = base := by
      simp only [basing, List.cons_append, List.nil_append, List.cons.injEq, Deed.did.injEq, true_and,
        heq_eq_eq] at hall
      exact hall.1
    exact ⟨hbase, hworks⟩

end Requester

end Requests

end ResilientCalls
