import ResilientCalls.Program.World

/-!
# One thread among others

What a thread does step by step, seen from the thread itself: each of its `Deed`s is one atomic step,
and what the others answer is left open. `Thread.Path` strings deeds together. A wait takes several
steps: a thread looks, falls asleep, is woken and looks again.
-/

namespace ResilientCalls

variable {σ α : Type}

/-- Names a channel from a worker to the thread that started it. -/
abbrev ChannelId := Nat

/-- How far a thread is with its next step. -/
inductive Stage
  | ready
  /-- Has completed a future and is about to wake those who wait for it. -/
  | waking (i : FutureId)
  | resting (wake : Nat)
  /-- Waits for a future and is about to look; `expired` if the deadline has woken it. -/
  | looking (deadline : Moment) (expired : Bool)
  /-- Waits for a future, asleep until it is woken or until the deadline. -/
  | asleep (deadline : Moment)
  | receiving (channel : ChannelId) (deadline : Moment)
deriving DecidableEq

/-- A thread: what is attached to it and what it has left to do. -/
structure Thread (σ α : Type) : Type 1 where
  holder : Option Context
  code : Program σ α
  stage : Stage

/-- Code for a thread of its own. -/
structure Job (σ : Type) : Type 1 where
  Value : Type
  /-- What is attached to the thread at first. -/
  attached : Option Context
  body : Program σ Value
  /-- How long its result is waited for. -/
  bound : Option Duration

/-- An atomic step of a thread, with what it learns from it. -/
inductive Deed (σ : Type) : Type 1
  | did {β : Type} (a : Action σ β) (answer : β)
  /-- Wakes all who wait for a future. -/
  | notified (i : FutureId)
  | lay
  | rose
  /-- Comes to wait for a future and reads the clock. -/
  | came (i : FutureId)
  /-- Finds no outcome and falls asleep. -/
  | dozed (i : FutureId)
  /-- Wakes up, because the wait is over or because it was woken. -/
  | woke (i : FutureId) (expired : Bool)
  /-- Looks for an outcome a last time and goes on with what it sees. -/
  | awaited (i : FutureId) (bound : Option Duration) (seen : Option Reply)
  /-- Starts a worker that will answer on a channel. -/
  | started (m : ChannelId) (job : Job σ)
  /-- Goes on with what became of the worker. -/
  | answered {β : Type} (m : ChannelId) (d : Delivery β)
  /-- Has come to its end as a worker, and says so on its channel. -/
  | finished {β : Type} (m : ChannelId) (outcome : Except Payload β)

/-- Who completes a future wakes those who wait for it. -/
def Action.stageAfter {β : Type} : Action σ β → β → Stage
  | settle i _, true => .waking i
  | _, _ => .ready

/-- Whether a moment has come. -/
def Moment.Passed (m : Moment) (now : Nat) : Prop := ∃ t, m = some t ∧ t ≤ now

namespace Thread

/-- A thread that is about to run code. -/
def fresh (code : Program σ α) (holder : Option Context) : Thread σ α := ⟨holder, code, .ready⟩

/-- How the thread has ended, if it has. -/
def over? (x : Thread σ α) : Option (Except Payload α) :=
  match x.stage, x.code with
  | .ready, .done a => some (.ok a)
  | .ready, .unwind p => some (.error p)
  | _, _ => none

/-- One step at some moment, whatever the others answer. -/
inductive Does (now : Nat) : Thread σ α → Deed σ → Thread σ α → Prop
  | act {β : Type} {h h' : Option Context} {a : Action σ β} {b : β} {k : β → Program σ α}
      {w w' : World σ} : a.step h w = (b, h', w') →
        Does now ⟨h, .act a k, .ready⟩ (.did a b) ⟨h', k b, a.stageAfter b⟩
  | notify {h : Option Context} {p : Program σ α} {i : FutureId} :
      Does now ⟨h, p, .waking i⟩ (.notified i) ⟨h, p, .ready⟩
  | lie {h : Option Context} {d : Duration} {k : Program σ α} :
      Does now ⟨h, .sleep d k, .ready⟩ .lay ⟨h, .sleep d k, .resting (now + d.nanos)⟩
  | rise {h : Option Context} {d : Duration} {k : Program σ α} {wake : Nat} :
      wake ≤ now → Does now ⟨h, .sleep d k, .resting wake⟩ .rose ⟨h, k, .ready⟩
  | come {h : Option Context} {i : FutureId} {bound : Option Duration} {k : Option Reply → Program σ α} :
      Does now ⟨h, .await i bound k, .ready⟩ (.came i)
        ⟨h, .await i bound k, .looking (.afterWait now bound) false⟩
  | doze {h : Option Context} {i : FutureId} {bound : Option Duration} {k : Option Reply → Program σ α}
      {deadline : Moment} :
      Does now ⟨h, .await i bound k, .looking deadline false⟩ (.dozed i)
        ⟨h, .await i bound k, .asleep deadline⟩
  | wake {h : Option Context} {i : FutureId} {bound : Option Duration} {k : Option Reply → Program σ α}
      {deadline : Moment} {expired : Bool} : (expired = true → deadline.Passed now) →
      Does now ⟨h, .await i bound k, .asleep deadline⟩ (.woke i expired)
        ⟨h, .await i bound k, .looking deadline expired⟩
  | find {h : Option Context} {i : FutureId} {bound : Option Duration} {k : Option Reply → Program σ α}
      {deadline : Moment} {expired : Bool} {outcome : Reply} :
      Does now ⟨h, .await i bound k, .looking deadline expired⟩ (.awaited i bound (some outcome))
        ⟨h, k (some outcome), .ready⟩
  | giveUp {h : Option Context} {i : FutureId} {bound : Option Duration}
      {k : Option Reply → Program σ α} {deadline : Moment} :
      Does now ⟨h, .await i bound k, .looking deadline true⟩ (.awaited i bound none) ⟨h, k none, .ready⟩
  | start {β : Type} {h c : Option Context} {body : Program σ β} {bound : Option Duration}
      {k : Delivery β → Program σ α} {m : ChannelId} :
      Does now ⟨h, .worker c body bound k, .ready⟩ (.started m ⟨β, c, body, bound⟩)
        ⟨h, .worker c body bound k, .receiving m (.afterWait now bound)⟩
  | receive {β : Type} {h c : Option Context} {body : Program σ β} {bound : Option Duration}
      {k : Delivery β → Program σ α} {m : ChannelId} {deadline : Moment} {d : Delivery β} :
      (d = .elapsed → deadline.Passed now) →
      Does now ⟨h, .worker c body bound k, .receiving m deadline⟩ (.answered m d) ⟨h, k d, .ready⟩

/-- Some steps, one after the other. -/
inductive Path : Thread σ α → List (Deed σ) → Thread σ α → Prop
  | rest (x : Thread σ α) : Path x [] x
  | go {x y z : Thread σ α} {now : Nat} {e : Deed σ} {es : List (Deed σ)} :
      x.Does now e y → Path y es z → Path x (e :: es) z

end Thread

/-- The thread of a job at its start. -/
def Job.thread (job : Job σ) : Thread σ job.Value := .fresh job.body job.attached

end ResilientCalls
