import Mathlib.Algebra.GroupWithZero.Nat
import ResilientCalls.Proofs.Errands
import ResilientCalls.Proofs.Receipts

/-!
# The accounts of a run

In a run of client code in which every request that is started returns, the counters add up to what the attempts
of the requests came to (`Pool.accounts_balance`). Each request has a receipt of its own (`Pool.receipted`). The
threads of the run are accounted for one after the other: a worker was started by an earlier thread
(`Pool.Runs.born`), whose deeds say that its job is client code. The journal grows by what all threads record
(`Pool.Runs.journal`), and their bookings together are those of the run (`perm_bookingsBy`).
-/

namespace ResilientCalls

open Program
open Piece (deedsIn)

variable {σ α : Type}

namespace Pool

variable {P Q : Pool σ} {t u n : Nat} {e : Deed σ} {es es₁ es₂ : List (Nat × Deed σ)}

/-! ## The journal -/

theorem journal_step {β : Type} (a : Action σ β) (h : Option Context) (w : World σ) (b : β) :
    (a.step h w).2.2.journal = w.journal ++ (Deed.did a b).recorded?.toList := by
  cases a with
  | settle i outcome =>
    simp only [Action.step]
    cases w.futures i <;> exact (List.append_nil _).symm
  | record e => rfl
  | _ => exact (List.append_nil _).symm

theorem Step.journal (hstep : P.Step t e Q) : Q.world.journal = P.world.journal ++ e.recorded?.toList := by
  cases hstep with
  | finishes => exact (List.append_nil _).symm
  | @does α sender x y e s _ _ hallows =>
    cases hallows with
    | @did β a b h' w hact =>
      have hjournal := journal_step a x.holder P.world b
      rw [world, hact] at hjournal
      exact hjournal
    | _ => exact (List.append_nil _).symm

/-- What the steps record, in order. -/
def entriesIn (es : List (Nat × Deed σ)) : List Entry := es.filterMap fun e => e.2.recorded?

/-- **The journal in a run.** -/
theorem Runs.journal (hrun : P.Runs es Q) : Q.world.journal = P.world.journal ++ entriesIn es := by
  induction hrun with
  | refl => exact (List.append_nil _).symm
  | @step es Q R t e _ hstep ih =>
    rw [hstep.journal, ih, List.append_assoc]
    cases he : e.recorded? <;> simp [entriesIn, he]
  | wait n _ ih => exact ih

/-! ## Bookings by thread -/

/-- What the steps book, in order. -/
def bookingsBy (es : List (Nat × Deed σ)) : List Booking := es.filterMap fun e => e.2.booking?

theorem filterMap_entriesIn (es : List (Nat × Deed σ)) : (entriesIn es).filterMap Entry.booking? = bookingsBy es :=
  List.filterMap_filterMap

theorem Runs.lt_length (hrun : P.Runs es Q) : ∀ e ∈ es, e.1 < Q.threads.length := by
  induction hrun with
  | refl => exact nofun
  | @step es Q R t e _ hstep ih =>
    intro e' he'
    rcases List.mem_append.1 he' with he' | he'
    · exact Nat.lt_of_lt_of_le (ih e' he') hstep.length_le
    · rw [List.mem_singleton.1 he']
      exact Nat.lt_of_lt_of_le hstep.lt_length hstep.length_le
  | wait n _ ih => exact ih

theorem flatMap_range_single {β : Type*} (l : List β) (hu : u < n) :
    (List.range n).flatMap (fun t => if u = t then l else []) = l := by
  induction n with
  | zero => exact absurd hu (Nat.not_lt_zero u)
  | succ n ih =>
    rw [List.range_succ, List.flatMap_append, List.flatMap_singleton]
    rcases Nat.lt_succ_iff_lt_or_eq.1 hu with hlt | rfl
    · rw [ih hlt, if_neg (Nat.ne_of_lt hlt), List.append_nil]
    · rw [if_pos rfl, List.flatMap_eq_nil_iff.2, List.nil_append]
      intro t ht
      rw [if_neg (Nat.ne_of_gt (List.mem_range.1 ht))]

theorem perm_bookingsBy (hes : ∀ e ∈ es, e.1 < n) :
    (bookingsBy es).Perm ((List.range n).flatMap fun t => bookingsIn (deedsOf t es)) := by
  induction es with
  | nil => simp [bookingsBy, deedsOf]
  | cons e es ih =>
    obtain ⟨u, e⟩ := e
    have hu : u < n := hes _ (List.mem_cons_self ..)
    have hfirst : bookingsBy ((u, e) :: es) = e.booking?.toList ++ bookingsBy es := by
      cases he : e.booking? <;> simp [bookingsBy, he]
    have hrest : ∀ t, bookingsIn (deedsOf t ((u, e) :: es)) =
        (if u = t then e.booking?.toList else []) ++ bookingsIn (deedsOf t es) := by
      intro t
      by_cases hut : u = t
      · cases e <;> simp [deedsOf, hut, Deed.isOwn, Deed.booking?, Deed.recorded?]
      · simp [deedsOf, hut]
    simp only [hfirst, hrest]
    refine (List.Perm.append ?_ (ih fun e he => hes e (List.mem_cons_of_mem _ he))).trans
      (List.flatMap_append_perm _ _ _)
    rw [flatMap_range_single _ hu]

/-! ## Requests that return -/

/-- Whenever a thread comes to a request in this run, it stops before it or goes through all of it. -/
def Returns (P : Pool σ) (es : List (Nat × Deed σ)) (Q : Pool σ) : Prop :=
  ∀ (α : Type) (t : Nat) (net : Network σ) (r : Requester σ) (inv : Invocation σ)
    (k : Requester.Result → Program σ α) (h : Option Context) (es₁ es₂ : List (Nat × Deed σ)) (P₁ : Pool σ),
    es = es₁ ++ es₂ → P.Runs es₁ P₁ → P₁.Runs es₂ Q → P₁.Has t (.fresh ((r.request net inv).caught.bind k) h) →
      deedsOf t es₂ = [] ∨ ∃ es₃ es₄ q h' P₂, es₂ = es₃ ++ es₄ ∧
        P₁.Through t (r.request net inv) h es₃ q h' P₂ ∧ P₂.Runs es₄ Q

theorem Returns.after {P₁ : Pool σ} (hreturns : P.Returns (es₁ ++ es₂) Q) (hrun : P.Runs es₁ P₁) :
    P₁.Returns es₂ Q := by
  rintro α t net r inv k h es₃ es₄ P₂ rfl hfirst hrest hrequest
  exact hreturns α t net r inv k h _ es₄ P₂ (List.append_assoc ..).symm (hrun.append hfirst) hrest hrequest

theorem Returns.thread {x : Thread σ α} (hreturns : P.Returns es Q) (hrun : P.Runs es Q) (hx : P.Has t x) :
    x.Returns (deedsOf t es) := by
  intro net r inv k h L₁ L₂ hL hpath
  obtain ⟨es₁, es₂, rfl, rfl, rfl⟩ := List.filterMap_eq_append_iff.1 hL
  obtain ⟨P₁, hfirst, hrest⟩ := hrun.split
  obtain ⟨y, hy, hhas⟩ := hfirst.path hx
  obtain rfl := Thread.eq_fresh_of_outline (hy.outline_eq rfl hpath)
  rcases hreturns α t net r inv k h es₁ es₂ P₁ rfl hfirst hrest hhas with
    hnone | ⟨es₃, es₄, q, h', P₂, rfl, hthrough, -⟩
  · exact .inl hnone
  · exact .inr ⟨_, _, q, h', deedsOf_append, hthrough.goes⟩

theorem returns_of_over (hover : ∀ (α : Type) (t : Nat) (x : Thread σ α), Q.Has t x → ∃ q, x.over? = some q) :
    P.Returns es Q := by
  intro α t net r inv k h es₁ es₂ P₁ _ _ hrest hrequest
  rcases hrest.through hrequest with ⟨x, -, hx, hhas⟩ | ⟨es₃, es₄, q, h', P₂, rfl, hthrough, hlast, -⟩
  · obtain ⟨q, hq⟩ := hover _ _ _ hhas
    rw [Thread.over?_before hx] at hq
    cases hq
  · exact .inr ⟨es₃, es₄, q, h', P₂, rfl, hthrough, hlast⟩

/-- Each request that a thread goes through in this run has a receipt that balances, with the result that the thread
gets. -/
def Receipted (P : Pool σ) (es : List (Nat × Deed σ)) (Q : Pool σ) : Prop :=
  ∀ (t : Nat) (net : Network σ) (r : Requester σ) (inv : Invocation σ) (h h' : Option Context)
    (res : Requester.Result) (es₁ es₂ es₃ : List (Nat × Deed σ)) (P₁ P₂ : Pool σ), es = es₁ ++ (es₂ ++ es₃) →
      P.Runs es₁ P₁ → P₁.Through t (r.request net inv) h es₂ res h' P₂ → P₂.Runs es₃ Q → r.NeverPanics →
        ∃ x : Course σ, Receipt.Balances ⟨net, r, inv, x⟩ ∧ x.result = res ∧
          deedsIn (x.pieces r inv) = deedsOf t es₂

theorem receipted (P : Pool σ) (es : List (Nat × Deed σ)) (Q : Pool σ) : P.Receipted es Q := by
  have : Inhabited σ := ⟨P.world.user⟩
  intro t net r inv h h' res es₁ es₂ es₃ P₁ P₂ _ _ hthrough _ hconvert
  exact exists_receipt hconvert hthrough.goes

/-! ## All threads -/

theorem Step.born (hstep : P.Step t e Q) (hold : P.threads.length ≤ u) (hu : u < Q.threads.length) :
    ∃ m job, e = .started m job ∧ Q.Has u job.thread := by
  obtain ⟨x, hx⟩ : ∃ x, Q.threads[u]? = some x := ⟨_, List.getElem?_eq_getElem hu⟩
  have ht := hstep.lt_length
  cases hstep with
  | does =>
    rcases getElem?_of_set_append hx with ⟨rfl, -⟩ | ⟨-, hx⟩ | ⟨-, hx⟩
    · omega
    · exact absurd (List.getElem?_eq_some_iff.1 hx).1 (Nat.not_lt.2 hold)
    · obtain ⟨-, m, job, rfl, rfl⟩ := Deed.getElem?_offspring hx
      exact ⟨m, job, rfl, some m, ‹_›⟩
  | finishes =>
    rw [List.length_set] at hu
    omega

theorem Runs.born (hrun : P.Runs es Q) (hold : P.threads.length ≤ u) (hu : u < Q.threads.length) :
    ∃ t < u, ∃ (m : ChannelId) (job : Job σ) (es₁ es₂ : List (Nat × Deed σ)) (P₁ : Pool σ),
      es = es₁ ++ es₂ ∧ (t, .started m job) ∈ es₁ ∧ P.Runs es₁ P₁ ∧ P₁.Has u job.thread ∧ P₁.Runs es₂ Q ∧
        deedsOf u es₁ = [] := by
  induction hrun with
  | refl => omega
  | @step es Q R t e hruns hstep ih =>
    by_cases hlt : u < Q.threads.length
    · obtain ⟨t', ht', m, job, es₁, es₂, P₁, rfl, hmem, hfirst, hhas, hrest, hnone⟩ := ih hlt
      exact ⟨t', ht', m, job, es₁, es₂ ++ [(t, e)], P₁, List.append_assoc .., hmem, hfirst, hhas, hrest.step hstep,
        hnone⟩
    · have ht := hstep.lt_length
      have hnone := hruns.deedsOf_eq_nil (Nat.le_of_not_lt hlt)
      have hne : ¬ t = u := by omega
      obtain ⟨m, job, rfl, hhas⟩ := hstep.born (Nat.le_of_not_lt hlt) hu
      refine ⟨t, by omega, m, job, _, [], R, (List.append_nil _).symm, by simp, hruns.step hstep, hhas, .refl, ?_⟩
      rw [deedsOf_append, hnone]
      simp [deedsOf, hne]
  | wait n hruns ih =>
    obtain ⟨t', ht', m, job, es₁, es₂, P₁, rfl, hmem, hfirst, hhas, hrest, hnone⟩ := ih hu
    exact ⟨t', ht', m, job, es₁, es₂, P₁, rfl, hmem, hfirst, hhas, hrest.wait n, hnone⟩

section Client

variable {w : World σ} {threads : List ((α : Type) × Program σ α × Option Context)}

theorem accounted (hclient : ∀ x ∈ threads, x.2.1.Client) (hrun : (start w threads).Runs es Q)
    (hreturns : (start w threads).Returns es Q) (t : Nat) : Accounted (deedsOf t es) := by
  have : Inhabited σ := ⟨w.user⟩
  induction t using Nat.strong_induction_on with
  | _ t ih =>
    by_cases hold : t < threads.length
    · have hhas : (start w threads).Has t (.fresh threads[t].2.1 threads[t].2.2) := ⟨none, by simp [start, hold]⟩
      obtain ⟨y, hpath, -⟩ := hrun.path hhas
      exact (hclient _ (List.getElem_mem hold)).accountable _ _ y hpath (hreturns.thread hrun hhas)
    · by_cases ht : t < Q.threads.length
      · obtain ⟨u, hu, m, job, es₁, es₂, P, rfl, hmem, hfirst, hhas, hrest, hnone⟩ :=
          hrun.born (by simpa [start] using hold) ht
        have hjob : job.body.Client := (ih u hu).jobs m job (by
          refine List.mem_filterMap.2 ⟨_, List.mem_append_left _ hmem, ?_⟩
          simp [Deed.isOwn])
        obtain ⟨y, hpath, -⟩ := hrest.path hhas
        rw [deedsOf_append, hnone, List.nil_append]
        exact hjob.accountable _ _ y hpath ((hreturns.after hfirst).thread hrest hhas)
      · rw [hrun.deedsOf_eq_nil (Nat.le_of_not_lt ht)]
        exact .nil

/-- **The accounts of a run.** If all threads are client code, and every request that is started returns, then each
request counts itself once as how it ended, and tells its listeners once of the same. What the threads do falls into
such requests, nested ones included, and deeds that count nothing, so what the run adds to the counters is what the
attempts of all these requests came to. -/
theorem accounts_balance (hclient : ∀ x ∈ threads, x.2.1.Client) (hrun : (start w threads).Runs es Q)
    (hreturns : (start w threads).Returns es Q) : (start w threads).Receipted es Q ∧
      ∃ receipts : Nat → List (Receipt σ),
        (∀ t, Made (deedsOf t es) (receipts t)) ∧ (∀ t, ∀ x ∈ receipts t, x.Balances) ∧
        ∃ entries, Q.world.journal = w.journal ++ entries ∧
          ∀ b, (entries.filterMap Entry.booking?).count b =
            (((List.range Q.threads.length).flatMap receipts).map fun x => x.tally b).sum := by
  obtain ⟨receipts, hmade⟩ := Classical.axiomOfChoice fun t => (accounted hclient hrun hreturns t).made
  refine ⟨receipted _ es Q, receipts, hmade, fun t x hx => ((hmade t).valid x hx).balances, entriesIn es,
    hrun.journal, fun b => ?_⟩
  have hperm : (bookingsBy es).Perm (((List.range Q.threads.length).flatMap receipts).flatMap Receipt.bookings) := by
    rw [List.flatMap_assoc]
    exact (perm_bookingsBy hrun.lt_length).trans (.flatMap_left _ fun t _ => (hmade t).perm_bookings)
  rw [filterMap_entriesIn, hperm.count_eq, List.count_flatMap]
  refine congrArg List.sum (List.map_congr_left fun x hx => ?_)
  obtain ⟨t, -, hx⟩ := List.mem_flatMap.1 hx
  exact ((hmade t).valid x hx).balances.booked b

end Client

end Pool

namespace Requester

/-- A call that makes a request of its own. -/
def relay : Invocation Unit :=
  ⟨"relay", [], (plain.request connected askScope).bind fun result => done (result.mapError RpcError.toFailure)⟩

/-- A caller spawns the request of a relay, and another thread makes it. -/
def relaying : List ((α : Type) × Program Unit α × Option Context) :=
  [⟨Spawned, plain.spawn, some caller⟩, ⟨Unit, plain.runTask connected relay (.forFuture 0 caller), none⟩]

theorem client_relay : (plain.request connected relay).Client := by
  have hconvert : plain.NeverPanics := fun hgoes => nomatch (goes_done.1 hgoes).2.1
  have hask : (plain.request connected askScope).Client :=
    client_request hconvert (fun _ => .done _) (fun _ _ => .done _) ((client_currentScope "").bind fun _ => .done _)
      (fun _ => .done _) nofun
  exact client_request hconvert (fun _ => .done _) (fun _ _ => .done _) (hask.bind fun _ => .done _)
    (fun _ => .done _) nofun

theorem client_relaying : ∀ x ∈ relaying, x.2.1.Client := by
  intro x hx
  rcases List.mem_cons.1 hx with rfl | hx
  · exact client_spawn _
  · rcases List.mem_singleton.1 hx with rfl
    exact client_runTask client_relay _

/-- The shared state after the spawn. -/
def relayed : World Unit := (plain.spawn.effects 20 (some caller) (World.start ())).2.2

theorem effects_relay :
    ((plain.runTask connected relay (.forFuture 0 caller)).effects 60 none relayed).1 = done () := rfl

theorem bookings_relay :
    ((plain.runTask connected relay (.forFuture 0 caller)).effects 60 none relayed).2.2.journal.filterMap
      Entry.booking? = [.request "getChainInfo" .success, .request "relay" .success] := rfl

end Requester

open Requester in
theorem Pool.exists_relaying : ∃ es Q, (start (World.start ()) relaying).Runs es Q ∧
    (start (World.start ()) relaying).Returns es Q ∧ Q.threads.length = 2 ∧
    Q.world.journal.filterMap Entry.booking? = [.request "getChainInfo" .success, .request "relay" .success] := by
  obtain ⟨es, Q, hspawn, hworld, hthreads⟩ := exists_effects (P := start (World.start ()) relaying) (t := 0) 20 rfl
  obtain ⟨es', R, hrelay, hworld', hthreads'⟩ := exists_effects (P := Q) (t := 1) 60 (by rw [hthreads]; rfl)
  have hrelayed : Q.world = relayed := hworld
  rw [hrelayed] at hworld' hthreads'
  rw [hthreads, effects_relay] at hthreads'
  refine ⟨_, R, hspawn.append hrelay, returns_of_over ?_, by rw [hthreads']; rfl, by rw [hworld', bookings_relay]⟩
  rintro α t x ⟨sender, hx⟩
  rw [hthreads'] at hx
  match t, hx with
  | 0, hx | 1, hx =>
    cases hx
    exact ⟨_, rfl⟩

open Requester in
/-- A request that is made in a request on another thread than the one that spawned it. -/
theorem Pool.accounts_balance_relaying : ∃ es Q, (start (World.start ()) relaying).Runs es Q ∧
    (start (World.start ()) relaying).Returns es Q ∧ (start (World.start ()) relaying).Receipted es Q ∧
    ∃ receipts : Nat → List (Receipt Unit),
      (∀ t, Made (deedsOf t es) (receipts t)) ∧ (∀ t, ∀ x ∈ receipts t, x.Balances) ∧
      ((receipts 0 ++ receipts 1).map fun x => x.tally (.request "getChainInfo" .success)).sum = 1 ∧
      ((receipts 0 ++ receipts 1).map fun x => x.tally (.request "relay" .success)).sum = 1 := by
  obtain ⟨es, Q, hrun, hreturns, htwo, hbookings⟩ := exists_relaying
  obtain ⟨hreceipted, receipts, hmade, hbalance, entries, hentries, hbooked⟩ :=
    accounts_balance client_relaying hrun hreturns
  have hentries : Q.world.journal = entries := hentries
  have htally (b : Booking) : ((receipts 0 ++ receipts 1).map fun x => x.tally b).sum =
      [Booking.request "getChainInfo" .success, .request "relay" .success].count b := by
    rw [← hbookings, hentries, hbooked, htwo]
    simp [List.range_succ]
  exact ⟨es, Q, hrun, hreturns, hreceipted, receipts, hmade, hbalance, htally _, htally _⟩

end ResilientCalls
