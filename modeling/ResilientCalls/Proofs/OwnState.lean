import ResilientCalls.Proofs.Bookings
import ResilientCalls.Proofs.CodeClosure
import ResilientCalls.Proofs.SpawnedRequests

/-!
# Threads with a state of their own

In a `Realm` each thread has a state for its client code and a log of what it has seen. Code is secluded
(`Program.Secluded`) if it reads and changes the part of its own thread only. A thread plays a script of moves that
attach contexts, release guards, detach, and make requests, and logs what it sees of them (`Move.play`). This is
secluded code if the client code of the requests is (`secluded_play`).
-/

namespace ResilientCalls

open Program

variable {ρ τ : Type}

/-- What a thread sees. -/
inductive Sight
  /-- What is attached to the thread after a move. -/
  | moved (attached : Option Context)
  /-- How a request ends. -/
  | result (q : Requester.Result)
  /-- What is attached where a request makes an attempt. -/
  | attempt (visible : Option Context)
deriving DecidableEq

/-- The part of one thread. -/
structure Own (τ : Type) where
  /-- The state of its invocations and connectors. -/
  state : τ
  /-- What it has seen so far. -/
  log : List Sight

/-- A state of client code in which each thread has a part of its own. -/
structure Realm (ρ τ : Type) where
  /-- What all threads write to and none reads. -/
  common : ρ
  own : Nat → Own τ

/-- A change of the part of thread `t`, which depends on nothing else and keeps what the thread has seen. -/
structure Realm.ChangesOwn (t : Nat) (f : Realm ρ τ → Realm ρ τ) : Prop where
  others : ∀ s u, u ≠ t → (f s).own u = s.own u
  own : ∀ s s', s.own t = s'.own t → (f s).own t = (f s').own t
  log : ∀ s, (s.own t).log <+: ((f s).own t).log

namespace Action

variable {β : Type}

/-- The answers look alike to thread `t`, which sees no part but its own. -/
def SameTo (t : Nat) : Action (Realm ρ τ) β → β → β → Prop
  | user _, s, s' => s.own t = s'.own t
  | _, b, b' => b = b'

/-- The effect is about what is attached to the thread, what is stored, or the thread's own part. Futures and new
names are shared between threads, and so is the journal for those who read it. -/
def Private (t : Nat) : Action (Realm ρ τ) β → Prop
  | holder _ | storage .. | record _ => True
  | user f => Realm.ChangesOwn t f
  | _ => False

/-- Whether the effect changes what is stored. -/
def rewrites {σ : Type} : Action σ β → β → Bool
  | storage _ f, content => decide (f content ≠ content)
  | _, _ => false

end Action

/-- Code that knows and changes nothing of other threads' parts, on any answers. A thread that it starts has nothing
attached. -/
inductive Program.Secluded (t : Nat) : {α : Type} → Program (Realm ρ τ) α → Prop
  | done {α : Type} (a : α) : Secluded t (.done a)
  | unwind {α : Type} (p : Payload) : Secluded t (.unwind p : Program (Realm ρ τ) α)
  | block {α : Type} : Secluded t (.block : Program (Realm ρ τ) α)
  | act {α β : Type} {a : Action (Realm ρ τ) β} {k : β → Program (Realm ρ τ) α} : a.Private t →
      (∀ b b', a.SameTo t b b' → k b = k b') → (∀ b, Secluded t (k b)) → Secluded t (.act a k)
  | sleep {α : Type} {d : Duration} {k : Program (Realm ρ τ) α} : Secluded t k → Secluded t (.sleep d k)
  | worker {α β : Type} {body : Program (Realm ρ τ) β} {bound : Option Duration}
      {k : Delivery β → Program (Realm ρ τ) α} : Secluded t body → (∀ d, Secluded t (k d)) →
        Secluded t (.worker none body bound k)

namespace Program.Secluded

variable {t : Nat} {α β : Type} {p : Program (Realm ρ τ) α} {g : α → Program (Realm ρ τ) β}

theorem bind (hp : p.Secluded t) (hg : ∀ a, (g a).Secluded t) : (p.bind g).Secluded t := by
  induction hp with
  | done a => exact hg a
  | unwind e => exact .unwind e
  | block => exact .block
  | act ha hsame _ ih => exact .act ha (fun b b' hb => by rw [hsame b b' hb]) fun b => ih b hg
  | sleep _ ih => exact .sleep (ih hg)
  | worker hbody _ _ ih => exact .worker hbody fun d => ih d hg

theorem caught (hp : p.Secluded t) : p.caught.Secluded t := by
  induction hp with
  | done a => exact .done _
  | unwind e => exact .done _
  | block => exact .block
  | act ha hsame _ ih => exact .act ha (fun b b' hb => by rw [hsame b b' hb]) ih
  | sleep _ ih => exact .sleep ih
  | worker hbody _ _ ih => exact .worker hbody ih

theorem holder (f : Option Context → Option Context) : (perform (.holder f) : Program (Realm ρ τ) _).Secluded t :=
  .act trivial (fun _ _ hb => congrArg _ hb) fun b => .done b

theorem record (e : Entry) : (Program.record e : Program (Realm ρ τ) Unit).Secluded t :=
  .act trivial (fun _ _ hb => congrArg _ hb) fun b => .done b

theorem get (i : StorageId) : (Storage.get i : Program (Realm ρ τ) Context).Secluded t :=
  .act trivial (fun _ _ hb => congrArg _ hb) fun b => .done b

theorem changeUser {f : Realm ρ τ → Realm ρ τ} (hf : Realm.ChangesOwn t f) : (changeUser f).Secluded t :=
  .act hf (fun _ _ _ => rfl) fun _ => .done ()

theorem closed (t : Nat) : Program.Closed fun α (p : Program (Realm ρ τ) α) => p.Secluded t where
  done := .done
  unwind := .unwind
  bind := bind
  caught := caught
  record := record
  holder := holder
  get := get
  sleep _ := .sleep (.done ())
  onWorker _ hbody := .worker hbody .done

end Program.Secluded

/-! ## Scripts -/

/-- Changes the part of thread `t`. -/
def Realm.change (t : Nat) (g : Own τ → Own τ) (s : Realm ρ τ) : Realm ρ τ :=
  { s with own := Function.update s.own t (g (s.own t)) }

/-- The thread logs what it sees. -/
def see (t : Nat) (x : Sight) : Program (Realm ρ τ) Unit :=
  changeUser (Realm.change t fun o => { o with log := o.log ++ [x] })

/-- Each attempt first logs what is attached. -/
def Invocation.watched (t : Nat) (inv : Invocation (Realm ρ τ)) : Invocation (Realm ρ τ) :=
  inv.wrap fun inner => do
    let visible ← current
    see t (.attempt visible)
    inner.call

/-- What a thread does with contexts and requests. -/
inductive Move (ρ τ : Type) : Type 1
  | attach (c : Context)
  /-- Releases the guard at this place among those that the thread holds. -/
  | release (k : Nat)
  | remove
  | request (net : Network (Realm ρ τ)) (inv : Invocation (Realm ρ τ))

namespace Move

/-- Makes a move, and answers with the guards that the thread holds then. -/
def make (r : Requester (Realm ρ τ)) (t : Nat) (guards : List Guard) :
    Move ρ τ → Program (Realm ρ τ) (List Guard)
  | attach c => do
      let guard ← ResilientCalls.attach c
      return guards ++ [guard]
  | release k => do
      if let some guard := guards[k]? then guard.release
      return guards.eraseIdx k
  | remove => do
      let _ ← detach
      return guards
  | request net inv => do
      let q ← (r.request net (inv.watched t)).caught
      see t (.result q)
      return guards

/-- Makes one move after the other, and logs what is attached after each. -/
def play (r : Requester (Realm ρ τ)) (t : Nat) : List (Move ρ τ) → List Guard → Program (Realm ρ τ) Unit
  | [], _ => return ()
  | m :: ms, guards => do
      let guards ← m.make r t guards
      let attached ← current
      see t (.moved attached)
      play r t ms guards

/-- The client code of the move keeps to the part of thread `t`. -/
def KeepsTo (t : Nat) : Move ρ τ → Prop
  | request net inv => (∀ i, (net i).isConnected.Secluded t) ∧ (∀ i endpoint, ((net i).connect endpoint).Secluded t) ∧
      inv.call.Secluded t
  | _ => True

end Move

/-- Conversion and listeners of a requester that all threads share read and change nobody's part. -/
structure Requester.Impartial (r : Requester (Realm ρ τ)) : Prop where
  convert : ∀ t e, (r.convert e).Secluded t
  listeners : ∀ t, ∀ l ∈ r.listeners, ∀ event, (l event).Secluded t

section Scripts

variable {r : Requester (Realm ρ τ)} {t : Nat} {inv : Invocation (Realm ρ τ)}

theorem changesOwn_change {g : Own τ → Own τ} (hg : ∀ o, o.log <+: (g o).log) :
    Realm.ChangesOwn (ρ := ρ) t (Realm.change t g) where
  others s u hu := Function.update_of_ne hu _ s.own
  own s s' hs := by simp only [Realm.change, Function.update_self, hs]
  log s := by
    simp only [Realm.change, Function.update_self]
    exact hg _

theorem secluded_see (x : Sight) : (see t x : Program (Realm ρ τ) Unit).Secluded t :=
  .changeUser (changesOwn_change fun _ => List.prefix_append _ _)

theorem secluded_watched (hcall : inv.call.Secluded t) : (inv.watched t).call.Secluded t :=
  (Secluded.holder id).bind fun _ => (secluded_see _).bind fun _ => hcall

theorem secluded_make (hr : r.Impartial) {m : Move ρ τ} (hm : m.KeepsTo t) (guards : List Guard) :
    (m.make r t guards).Secluded t := by
  have hclosed := Secluded.closed (ρ := ρ) (τ := τ) t
  cases m with
  | attach c => exact (hclosed.attach c).bind fun guard => .done _
  | release k =>
    simp only [Move.make]
    cases guards[k]? with
    | none => exact .done _
    | some guard => exact (hclosed.release guard).bind fun _ => .done _
  | remove => exact (Secluded.holder _).bind fun _ => .done _
  | request net inv =>
    obtain ⟨hask, hconnect, hcall⟩ := hm
    have hrequest := hclosed.request hask hconnect (secluded_watched hcall) (hr.convert t) (hr.listeners t)
    exact hrequest.caught.bind fun q => (secluded_see _).bind fun _ => .done _

theorem secluded_play (hr : r.Impartial) {ms : List (Move ρ τ)} (hms : ∀ m ∈ ms, m.KeepsTo t) (guards : List Guard) :
    (Move.play r t ms guards).Secluded t := by
  induction ms generalizing guards with
  | nil => exact .done ()
  | cons m ms ih =>
    have hm := secluded_make hr (hms m List.mem_cons_self) guards
    refine hm.bind fun guards => (Secluded.holder id).bind fun attached => (secluded_see _).bind fun _ => ?_
    exact ih (fun m' hm' => hms m' (List.mem_cons_of_mem m hm')) guards

end Scripts

end ResilientCalls
