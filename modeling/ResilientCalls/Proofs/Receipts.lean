import Mathlib.Data.List.Perm.Basic
import ResilientCalls.Proofs.ClientCode

/-!
# The requests in what a thread did

What a thread does in client code falls into deeds that book nothing and whole requests, and each request again
into its own deeds and the client code in it (`Made`). This holds of every thread that has returned from the requests
that it started (`Program.Client.accountable`). So all that it books are the bookings of these requests, nested ones
included (`Made.perm_bookings`).
-/

namespace ResilientCalls

open Program
open Piece

variable {σ α : Type}

/-! ## Receipts -/

/-- A request with the course that it took. -/
structure Receipt (σ : Type) : Type 1 where
  network : Network σ
  requester : Requester σ
  invocation : Invocation σ
  course : Course σ

namespace Receipt

def pieces (x : Receipt σ) : List (Piece σ) := x.course.pieces x.requester x.invocation

/-- What the request has to book, by what its attempts came to. -/
def tally (x : Receipt σ) : Booking → Nat := x.course.tally x.invocation

/-- What the request books itself. -/
def bookings (x : Receipt σ) : List Booking := bookingsIn (ownIn x.pieces)

/-- The request took a course that its code has, and its converter does not panic. -/
structure Valid (x : Receipt σ) : Prop where
  course : x.course.Of x.network x.requester x.invocation
  converts : x.requester.NeverPanics

/-- The accounts of one request. -/
structure Balances (x : Receipt σ) : Prop where
  course : x.course.Of x.network x.requester x.invocation
  /-- It books itself once, its retries, how its handlers ended, and the waits that ran out. -/
  booked : ∀ b, x.bookings.count b = x.tally b
  /-- The handlers that were called in are the first ones in order. -/
  handlers : x.course.spells.map Spell.policy <+:
    FailoverChain.ordered (x.course.base.withScope x.invocation.name)
  /-- Each of its listeners is told once, of one event that says how it ended, and nothing else tells them. -/
  told : ∃ event before after h xs, x.course.event = some event ∧
    Reported x.invocation.name x.course.verdict x.course.result event ∧
    x.pieces = before ++ (xs.map client ++ after) ∧ AllFit x.network x.requester x.invocation before ∧
    AllFit x.network x.requester x.invocation after ∧ Told event x.requester.listeners h xs x.course.left

theorem Valid.balances {x : Receipt σ} (hx : x.Valid) : x.Balances where
  course := hx.course
  booked b := by
    rw [bookings, pieces, hx.course.books hx.converts, hx.course.count_bookings]
    rfl
  handlers := by
    obtain ⟨h, hrecovered, -⟩ := hx.course.rest
    exact hrecovered.policies
  told := hx.course.split hx.converts

end Receipt

theorem exists_receipt [Inhabited σ] {net : Network σ} {r : Requester σ} {inv : Invocation σ}
    {h h' : Option Context} {L : List (Deed σ)} {res : Requester.Result} (hconvert : r.NeverPanics)
    (hgoes : (r.request net inv).Goes h L res h') : ∃ x : Course σ, Receipt.Balances ⟨net, r, inv, x⟩ ∧
      x.result = res ∧ deedsIn (x.pieces r inv) = L := by
  obtain ⟨x, hx, -, hresult, hdeeds, -⟩ := course_of_goes hgoes
  exact ⟨x, Receipt.Valid.balances ⟨hx, hconvert⟩, hresult, hdeeds⟩

/-- These are the requests in the deeds `L` of client code, each one followed by those in its own client code. -/
inductive Made : List (Deed σ) → List (Receipt σ) → Prop
  | nothing : Made [] []
  | own {e : Deed σ} {L : List (Deed σ)} {xs : List (Receipt σ)} : e.booking? = none → Made L xs → Made (e :: L) xs
  | request {x : Receipt σ} {inside : Part σ → List (Receipt σ)} {L : List (Deed σ)} {xs : List (Receipt σ)} :
      x.Valid → (∀ y ∈ partsIn x.pieces, Made y.deeds (inside y)) → Made L xs →
        Made (deedsIn x.pieces ++ L) (x :: (partsIn x.pieces).flatMap inside ++ xs)

theorem Made.valid {L : List (Deed σ)} {xs : List (Receipt σ)} (hmade : Made L xs) : ∀ x ∈ xs, x.Valid := by
  induction hmade with
  | nothing => exact fun x hx => absurd hx List.not_mem_nil
  | own _ _ ih => exact ih
  | request hx _ _ ihinside ih =>
    intro x' hx'
    rcases List.mem_append.1 hx' with hx' | hx'
    · rcases List.mem_cons.1 hx' with rfl | hx'
      · exact hx
      · obtain ⟨y, hy, hx'⟩ := List.mem_flatMap.1 hx'
        exact ihinside y hy x' hx'
    · exact ih x' hx'

theorem perm_bookingsIn_deedsIn (ps : List (Piece σ)) :
    (bookingsIn (deedsIn ps)).Perm (bookingsIn (ownIn ps) ++ (partsIn ps).flatMap fun y => bookingsIn y.deeds) := by
  induction ps with
  | nil => exact .nil
  | cons q ps ih =>
    cases q with
    | own e =>
      rw [deedsIn_own, ownIn_own, partsIn_own, bookingsIn_cons, bookingsIn_cons, List.append_assoc]
      exact ih.append_left _
    | client y =>
      rw [deedsIn_client, ownIn_client, partsIn_client, bookingsIn_append, List.flatMap_cons]
      refine (ih.append_left _).trans ?_
      rw [← List.append_assoc, ← List.append_assoc]
      exact List.perm_append_comm.append_right _

/-- **What client code books** are the bookings of its requests. -/
theorem Made.perm_bookings {L : List (Deed σ)} {xs : List (Receipt σ)} (hmade : Made L xs) :
    (bookingsIn L).Perm (xs.flatMap Receipt.bookings) := by
  induction hmade with
  | nothing => exact .nil
  | own he _ ih =>
    rw [bookingsIn_cons, he]
    exact ih
  | @request x inside L xs _ _ _ ihinside ih =>
    rw [bookingsIn_append, List.flatMap_append, List.flatMap_cons]
    refine ((perm_bookingsIn_deedsIn x.pieces).trans (.append_left _ ?_)).append ih
    rw [List.flatMap_assoc]
    exact List.Perm.flatMap_left _ ihinside

theorem Made.append {L L' : List (Deed σ)} {xs xs' : List (Receipt σ)} (hmade : Made L xs) (hmade' : Made L' xs') :
    Made (L ++ L') (xs ++ xs') := by
  induction hmade with
  | nothing => exact hmade'
  | own he _ ih => exact .own he ih
  | request hx hinside _ _ ih =>
    rw [List.append_assoc, List.append_assoc]
    exact .request hx hinside ih

/-! ## Threads that return from their requests -/

namespace Thread

/-- Whenever the thread comes to a request on its way by the deeds `L`, it stops before it or goes through all of
it. -/
def Returns (x : Thread σ α) (L : List (Deed σ)) : Prop :=
  ∀ (net : Network σ) (r : Requester σ) (inv : Invocation σ) (k : Requester.Result → Program σ α)
    (h : Option Context) (L₁ L₂ : List (Deed σ)), L = L₁ ++ L₂ →
      x.Path L₁ (fresh ((r.request net inv).caught.bind k) h) →
        L₂ = [] ∨ ∃ L₃ L₄ q h', L₂ = L₃ ++ L₄ ∧ (r.request net inv).Goes h L₃ q h'

theorem Returns.after {x y : Thread σ α} {L₁ L₂ : List (Deed σ)} (hreturns : x.Returns (L₁ ++ L₂))
    (hpath : x.Path L₁ y) : y.Returns L₂ := by
  rintro net r inv k h L₃ L₄ rfl hrequest
  exact hreturns net r inv k h _ _ (List.append_assoc ..).symm (hpath.append hrequest)

theorem Returns.step {x y : Thread σ α} {e : Deed σ} {L : List (Deed σ)} {now : Nat}
    (hreturns : x.Returns (e :: L)) (hdoes : x.Does now e y) : y.Returns L := by
  have hpath : x.Path [e] y := .go hdoes (.rest y)
  exact hreturns.after hpath

theorem eq_fresh_of_outline {x : Thread σ α} {p : Program σ α} {h : Option Context}
    (hx : x.outline = (fresh p h).outline) : x = fresh p h := by
  obtain ⟨holder, code, stage⟩ := x
  cases stage <;> cases hx
  rfl

theorem returns_of_goes {p : Program σ α} {h h' : Option Context} {L : List (Deed σ)} {q : Except Payload α}
    (hgoes : p.Goes h L q h') : (fresh p h).Returns L := by
  rintro net r inv k h₁ L₁ L₂ rfl hrequest
  obtain ⟨y, hfirst, hrest⟩ := Path.split hgoes
  obtain rfl := eq_fresh_of_outline (hfirst.outline_eq rfl hrequest)
  obtain ⟨q₁, h₂, L₃, L₄, rfl, hthrough, -⟩ := goes_caught_bind.1 hrest
  exact .inr ⟨L₃, L₄, q₁, h₂, rfl, hthrough⟩

end Thread

/-! ## What client code does -/

/-- The deeds fall into requests and deeds that book nothing, and all jobs in them are client code. -/
structure Accounted (L : List (Deed σ)) : Prop where
  made : ∃ xs, Made L xs
  jobs : ∀ m job, .started m job ∈ L → job.body.Client

namespace Accounted

variable {L L' : List (Deed σ)} {e : Deed σ}

theorem nil : Accounted ([] : List (Deed σ)) :=
  ⟨⟨[], .nothing⟩, fun _ _ hmem => absurd hmem List.not_mem_nil⟩

theorem append (hL : Accounted L) (hL' : Accounted L') : Accounted (L ++ L') := by
  obtain ⟨⟨xs, hxs⟩, hjobs⟩ := hL
  obtain ⟨⟨ys, hys⟩, hjobs'⟩ := hL'
  exact ⟨⟨xs ++ ys, hxs.append hys⟩, fun m job hmem => (List.mem_append.1 hmem).elim (hjobs m job) (hjobs' m job)⟩

theorem cons (he : e.booking? = none) (hjob : ∀ m job, e = .started m job → job.body.Client) (hL : Accounted L) :
    Accounted (e :: L) := by
  obtain ⟨⟨xs, hxs⟩, hjobs⟩ := hL
  refine ⟨⟨xs, .own he hxs⟩, fun m job hmem => ?_⟩
  rcases List.mem_cons.1 hmem with heq | hmem
  · exact hjob m job heq.symm
  · exact hjobs m job hmem

end Accounted

/-- Whenever the code comes to its end, its deeds are accounted for. -/
def Program.Accounts (p : Program σ α) : Prop :=
  ∀ (h h' : Option Context) (L : List (Deed σ)) (q : Except Payload α), p.Goes h L q h' → Accounted L

theorem Told.exists_goes {ε : Type} {event : ε} {ls : List (Listener σ ε)} {h h' : Option Context}
    {xs : List (Part σ)} (htold : Told event ls h xs h') {y : Part σ} (hy : y ∈ xs) :
    ∃ l ∈ ls, ∃ g L q g', y = ⟨Unit, l event, g, L, q, g'⟩ ∧ (l event).Goes g L q g' := by
  induction htold with
  | nobody => cases hy
  | next hgoes _ ih =>
    rcases List.mem_cons.1 hy with rfl | hy
    · exact ⟨_, List.mem_cons_self .., _, _, _, _, rfl, hgoes⟩
    · obtain ⟨l, hl, hrest⟩ := ih hy
      exact ⟨l, List.mem_cons_of_mem _ hl, hrest⟩

theorem mem_partsIn {ps : List (Piece σ)} {y : Part σ} (hy : y ∈ partsIn ps) : client y ∈ ps := by
  obtain ⟨q, hq, hsome⟩ := List.mem_filterMap.1 hy
  cases q with
  | own e => cases hsome
  | client y' =>
    cases hsome
    exact hq

theorem mem_deedsIn {ps : List (Piece σ)} {e : Deed σ} (he : e ∈ deedsIn ps) :
    own e ∈ ps ∨ ∃ y, client y ∈ ps ∧ e ∈ y.deeds := by
  obtain ⟨q, hq, he⟩ := List.mem_flatMap.1 he
  cases q with
  | own e' =>
    rw [List.mem_singleton.1 he]
    exact .inl hq
  | client y => exact .inr ⟨y, hq, he⟩

section Requests

variable {net : Network σ} {r : Requester σ} {inv : Invocation σ}

theorem accounted_pieces {x : Receipt σ} (hx : x.Valid)
    (hown : ∀ m job, own (.started m job) ∈ x.pieces → job.body.Client)
    (hparts : ∀ y, client y ∈ x.pieces → Accounted y.deeds) : Accounted (deedsIn x.pieces) := by
  have hmade : ∀ y, ∃ xs, y ∈ partsIn x.pieces → Made y.deeds xs := fun y => by
    by_cases hy : y ∈ partsIn x.pieces
    · obtain ⟨xs, hxs⟩ := (hparts y (mem_partsIn hy)).made
      exact ⟨xs, fun _ => hxs⟩
    · exact ⟨[], fun hmem => absurd hmem hy⟩
  obtain ⟨inside, hinside⟩ := Classical.axiomOfChoice hmade
  refine ⟨⟨_, by rw [← List.append_nil (deedsIn _)]; exact .request hx hinside .nothing⟩, fun m job hmem => ?_⟩
  rcases mem_deedsIn hmem with hmem | ⟨y, hy, hmem⟩
  · exact hown m job hmem
  · exact (hparts y hy).jobs m job hmem

theorem accounts_request [Inhabited σ] (hconvert : r.NeverPanics) (hcall : inv.call.Client)
    (hasks : ∀ i, (net i).isConnected.Accounts) (hconnects : ∀ i endpoint, ((net i).connect endpoint).Accounts)
    (hcalls : inv.call.Accounts) (hconverts : ∀ e, (r.convert e).Accounts)
    (hlistens : ∀ l ∈ r.listeners, ∀ event, (l event).Accounts) : (r.request net inv).Accounts := by
  intro h h' L q hgoes
  obtain ⟨x, hx, -, -, rfl, -⟩ := course_of_goes hgoes
  obtain ⟨event, before, after, h₁, xs, -, -, hpieces, hbefore, hafter, htold⟩ := hx.split hconvert
  have hfits : ∀ q ∈ x.pieces r inv, q.Fits net r inv ∨ q ∈ xs.map client := fun q hq => by
    rw [hpieces] at hq
    rcases List.mem_append.1 hq with hq | hq
    · exact .inl (hbefore q hq)
    · rcases List.mem_append.1 hq with hq | hq
      · exact .inr hq
      · exact .inl (hafter q hq)
  refine accounted_pieces (x := ⟨net, r, inv, x⟩) ⟨hx, hconvert⟩ (fun m job hmem => ?_) fun y hy => ?_
  · rcases hfits _ hmem with hfit | htell
    · obtain ⟨bound, h, rfl⟩ := hfit m job rfl
      exact client_underContext hcall h
    · obtain ⟨y, -, hy⟩ := List.mem_map.1 htell
      cases hy
  · rcases hfits _ hy with hfit | htell
    · cases hfit with
      | asks hgoes => exact hasks _ _ _ _ _ hgoes
      | connects hgoes => exact hconnects _ _ _ _ _ _ hgoes
      | calls hgoes => exact hcalls _ _ _ _ hgoes
      | converts hgoes => exact hconverts _ _ _ _ _ hgoes
    · obtain ⟨y', hy', heq⟩ := List.mem_map.1 htell
      cases heq
      obtain ⟨l, hl, g, L, q, g', rfl, hgoes⟩ := htold.exists_goes hy'
      exact hlistens l hl event _ _ _ _ hgoes

end Requests

/-! ## Threads in client code -/

/-- A thread in the code accounts for its deeds as soon as it has returned from its requests. -/
def Program.Accountable (p : Program σ α) : Prop :=
  ∀ (h : Option Context) (L : List (Deed σ)) (y : Thread σ α), (Thread.fresh p h).Path L y →
    (Thread.fresh p h).Returns L → Accounted L

theorem Program.Accountable.accounts {p : Program σ α} (hp : p.Accountable) : p.Accounts :=
  fun _ _ _ _ hgoes => hp _ _ _ hgoes (Thread.returns_of_goes hgoes)

section Threads

variable {h : Option Context} {L : List (Deed σ)}

theorem accounted_waking {p : Program σ α} (hp : p.Accountable) {i : FutureId} {y : Thread σ α}
    (hpath : Thread.Path ⟨h, p, .waking i⟩ L y) (hreturns : Thread.Returns ⟨h, p, .waking i⟩ L) : Accounted L := by
  cases hpath with
  | rest => exact .nil
  | go hdoes hrest =>
    have hreturns := hreturns.step hdoes
    obtain ⟨rfl, rfl⟩ := Thread.does_of_waking hdoes
    exact .cons rfl nofun (hp _ _ _ hrest hreturns)

theorem accountable_act {β : Type} {a : Action σ β} {k : β → Program σ α} (ha : ∀ b, (Deed.did a b).booking? = none)
    (hk : ∀ b, (k b).Accountable) : (act a k).Accountable := by
  intro h L y hpath hreturns
  cases hpath with
  | rest => exact .nil
  | go hdoes hrest =>
    have hreturns := hreturns.step hdoes
    cases hdoes with
    | @act _ _ _ _ b _ _ _ hstep =>
      refine .cons (ha b) nofun ?_
      rcases stageAfter_cases a b with hready | ⟨i, hwaking⟩
      · rw [hready] at hrest hreturns
        exact hk b _ _ _ hrest hreturns
      · rw [hwaking] at hrest hreturns
        exact accounted_waking (hk b) hrest hreturns

theorem accountable_sleep {d : Duration} {k : Program σ α} (hk : k.Accountable) : (sleep d k).Accountable := by
  intro h L y hpath hreturns
  cases hpath with
  | rest => exact .nil
  | go hdoes hrest =>
    have hreturns := hreturns.step hdoes
    cases hdoes with
    | lie =>
      refine .cons rfl nofun ?_
      cases hrest with
      | rest => exact .nil
      | go hdoes hrest =>
        have hreturns := hreturns.step hdoes
        cases hdoes with
        | rise => exact .cons rfl nofun (hk _ _ _ hrest hreturns)

theorem accounted_await {i : FutureId} {bound : Option Duration} {k : Option Reply → Program σ α}
    (hk : ∀ seen, (k seen).Accountable) {stage : Stage} {y : Thread σ α}
    (hpath : Thread.Path ⟨h, .await i bound k, stage⟩ L y)
    (hreturns : Thread.Returns ⟨h, .await i bound k, stage⟩ L) : Accounted L := by
  generalize hx : (⟨h, .await i bound k, stage⟩ : Thread σ α) = x at hpath hreturns
  induction hpath generalizing stage with
  | rest => exact .nil
  | go hdoes hrest ih =>
    subst hx
    have hreturns := hreturns.step hdoes
    cases hdoes with
    | find | giveUp => exact .cons rfl nofun (hk _ _ _ _ hrest hreturns)
    | come | doze | wake | notify => exact .cons rfl nofun (ih rfl hreturns)

theorem accountable_worker {β : Type} {c : Option Context} {body : Program σ β} {bound : Option Duration}
    {k : Delivery β → Program σ α} (hbody : body.Client) (hk : ∀ d, (k d).Accountable) :
    (worker c body bound k).Accountable := by
  intro h L y hpath hreturns
  cases hpath with
  | rest => exact .nil
  | go hdoes hrest =>
    have hreturns := hreturns.step hdoes
    cases hdoes with
    | start =>
      refine .cons rfl (fun m job heq => by cases heq; exact hbody) ?_
      cases hrest with
      | rest => exact .nil
      | go hdoes hrest =>
        have hreturns := hreturns.step hdoes
        cases hdoes with
        | receive => exact .cons rfl nofun (hk _ _ _ _ hrest hreturns)

theorem accountable_request {net : Network σ} {r : Requester σ} {inv : Invocation σ}
    {k : Requester.Result → Program σ α} (hrequest : (r.request net inv).Accounts) (hk : ∀ q, (k q).Accountable) :
    ((r.request net inv).caught.bind k).Accountable := by
  intro h L y hpath hreturns
  rcases Thread.path_before (x := .fresh (r.request net inv) h) (Thread.sound_fresh _ _) hpath with
    ⟨x, hinside, hover, -⟩ | ⟨L₁, L₂, h₁, q, rfl, hgoes, hrest⟩
  · rcases hreturns net r inv k h [] L rfl (.rest _) with rfl | ⟨L₃, L₄, q, h', rfl, hgoes⟩
    · exact .nil
    · obtain ⟨-, rfl⟩ := hgoes.ended hinside
      rw [Thread.over?_rethrow] at hover
      cases hover
  · have hgone : (Thread.fresh ((r.request net inv).caught.bind k) h).Path L₁ (.fresh (k q) h₁) := by
      have hbefore := Thread.Path.before hgoes k
      rwa [Thread.before_of_over (Thread.over?_rethrow q h₁)] at hbefore
    exact (hrequest _ _ _ _ hgoes).append (hk q _ _ _ hrest (hreturns.after hgone))

/-- **Client code accounts for what it does.** -/
theorem Program.Client.accountable [Inhabited σ] {p : Program σ α} (hp : p.Client) : p.Accountable := by
  induction hp with
  | done a => exact fun h L y hpath _ => (Thread.path_of_over rfl hpath).1 ▸ .nil
  | unwind e => exact fun h L y hpath _ => (Thread.path_of_over rfl hpath).1 ▸ .nil
  | block =>
    intro h L y hpath _
    cases hpath with
    | rest => exact .nil
    | go hdoes _ => cases hdoes
  | act ha _ ih => exact accountable_act ha fun b => ih b
  | sleep _ ih => exact accountable_sleep ih
  | await _ ih => exact fun h L y hpath hreturns => accounted_await (fun seen => ih seen) hpath hreturns
  | worker hbody _ _ ih => exact accountable_worker hbody fun d => ih d
  | request hconvert _ _ hcall _ _ _ ihask ihconnect ihcall ihconvert ihlisten ih =>
    exact accountable_request (accounts_request hconvert hcall (fun i => (ihask i).accounts)
      (fun i endpoint => (ihconnect i endpoint).accounts) ihcall.accounts (fun e => (ihconvert e).accounts)
      fun l hl event => (ihlisten l hl event).accounts) fun q => ih q

end Threads

end ResilientCalls
