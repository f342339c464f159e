import ResilientCalls.Program.Thread

/-!
# Many threads at once

A pool of threads that take turns in any order, with a clock that goes on between their steps. Each
step is atomic: one effect, one locked section of a future, or one look at a channel. A worker is one
more thread of the pool, with a channel of its own to the thread that started it.
-/

namespace ResilientCalls

variable {σ α : Type}

/-- What is on a channel from a worker to the thread that started it. -/
inductive Channel : Type 1
  | empty
  | holds {β : Type} (outcome : Except Payload β)
  /-- Nobody listens any more. -/
  | left

namespace Channel

/-- What the receiver may find on the channel. -/
inductive Answers : {β : Type} → Channel → Delivery β → Prop
  | value {β : Type} (b : β) : (holds (.ok b) : Channel).Answers (.delivered b)
  | crash {β γ : Type} (p : Payload) :
      Answers (β := β) (holds (.error p : Except Payload γ)) .crashed
  | silence {β : Type} : Answers (β := β) empty .elapsed

/-- The end of the worker reaches only a receiver that still listens. -/
def close {β : Type} (outcome : Except Payload β) : Channel → Channel
  | left => left
  | _ => holds outcome

end Channel

/-- What the threads of a pool share, with the threads that sleep until a future is complete. -/
structure Shared (σ : Type) : Type 1 where
  world : World σ
  channels : List Channel
  waiters : FutureId → List Nat

namespace Shared

/-- Puts other threads to sleep on a future. -/
def rouse (s : Shared σ) (i : FutureId) (sleepers : List Nat) : Shared σ :=
  { s with waiters := fun j => if j = i then sleepers else s.waiters j }

/-- What a step of thread `t`, with `h` attached, may find and what it leaves. -/
inductive Allows (s : Shared σ) (t : Nat) (h : Option Context) : Deed σ → Shared σ → Prop
  | did {β : Type} {a : Action σ β} {b : β} {h' : Option Context} {w : World σ} :
      a.step h s.world = (b, h', w) → Allows s t h (.did a b) { s with world := w }
  | notified {i : FutureId} : Allows s t h (.notified i) (s.rouse i [])
  | lay : Allows s t h .lay s
  | rose : Allows s t h .rose s
  | came {i : FutureId} : Allows s t h (.came i) s
  | dozed {i : FutureId} : s.world.futures i = none →
      Allows s t h (.dozed i) (s.rouse i (t :: s.waiters i))
  | woken {i : FutureId} : t ∉ s.waiters i → Allows s t h (.woke i false) s
  | wokeLate {i : FutureId} : t ∈ s.waiters i →
      Allows s t h (.woke i true) (s.rouse i ((s.waiters i).filter (· ≠ t)))
  | awaited {i : FutureId} {bound : Option Duration} :
      Allows s t h (.awaited i bound (s.world.futures i)) s
  | started {job : Job σ} :
      Allows s t h (.started s.channels.length job) { s with channels := s.channels ++ [.empty] }
  | answered {β : Type} {m : ChannelId} {c : Channel} {d : Delivery β} : s.channels[m]? = some c →
      c.Answers d → Allows s t h (.answered m d) { s with channels := s.channels.set m .left }

end Shared

/-- A thread of a pool; a worker also has a channel until it has said how it ended. -/
structure Member (σ : Type) : Type 1 where
  Value : Type
  sender : Option ChannelId
  thread : Thread σ Value

/-- The threads that a step starts. -/
def Deed.offspring : Deed σ → List (Member σ)
  | started m job => [⟨job.Value, some m, job.thread⟩]
  | _ => []

/-- Threads and what they share. -/
structure Pool (σ : Type) : Type 1 where
  shared : Shared σ
  threads : List (Member σ)

namespace Pool

/-- Threads before their first step. -/
def start (w : World σ) (threads : List ((α : Type) × Program σ α × Option Context)) : Pool σ where
  shared := ⟨w, [], fun _ => []⟩
  threads := threads.map fun t => ⟨t.1, none, .fresh t.2.1 t.2.2⟩

def world (P : Pool σ) : World σ := P.shared.world

/-- The outcome of a future, if it has one. -/
def future (P : Pool σ) (i : FutureId) : Option Reply := P.world.futures i

/-- Thread `t` stands like this. -/
def Has (P : Pool σ) (t : Nat) (x : Thread σ α) : Prop :=
  ∃ sender, P.threads[t]? = some ⟨α, sender, x⟩

/-- One step of thread `t`. -/
inductive Step (P : Pool σ) (t : Nat) : Deed σ → Pool σ → Prop
  | does {α : Type} {sender : Option ChannelId} {x y : Thread σ α} {e : Deed σ} {s : Shared σ} :
      P.threads[t]? = some ⟨α, sender, x⟩ → x.Does P.world.clock e y → P.shared.Allows t x.holder e s →
      Step P t e ⟨s, P.threads.set t ⟨α, sender, y⟩ ++ e.offspring⟩
  | finishes {α : Type} {m : ChannelId} {x : Thread σ α} {outcome : Except Payload α} {c : Channel} :
      P.threads[t]? = some ⟨α, some m, x⟩ → x.over? = some outcome → P.shared.channels[m]? = some c →
      Step P t (.finished m outcome)
        ⟨{ P.shared with channels := P.shared.channels.set m (c.close outcome) },
          P.threads.set t ⟨α, none, x⟩⟩

/-- Some time passes. -/
def later (P : Pool σ) (n : Nat) : Pool σ :=
  { P with shared := { P.shared with world := { P.world with clock := P.world.clock + n } } }

/-- The threads take these steps in this order, while time passes. -/
inductive Runs (P : Pool σ) : List (Nat × Deed σ) → Pool σ → Prop
  | refl : Runs P [] P
  | step {es : List (Nat × Deed σ)} {Q R : Pool σ} {t : Nat} {e : Deed σ} :
      Runs P es Q → Q.Step t e R → Runs P (es ++ [(t, e)]) R
  | wait {es : List (Nat × Deed σ)} {Q : Pool σ} (n : Nat) : Runs P es Q → Runs P es (Q.later n)

end Pool

end ResilientCalls
