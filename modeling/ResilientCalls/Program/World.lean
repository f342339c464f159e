import ResilientCalls.Program.Basic

/-!
# What threads share

Storages, futures, the journal, the state of client code and the clock, together with the threads
that nobody waits for any more. `Action.step` says what one effect does to a thread and to what it
shares with the others.
-/

namespace ResilientCalls

variable {σ α β : Type}

/-- A thread that nobody waits for: what is attached to it, what it has left to do, and the moment
from which its remaining waits count. -/
structure Late (σ : Type) where
  holder : Option Context
  code : Program σ Unit
  since : Nat

/-- What all threads share; client code keeps its own state of type `σ`. -/
structure World (σ : Type) where
  /-- The context in each storage. -/
  storages : StorageId → Context
  /-- The outcome of each future, once it has one. -/
  futures : FutureId → Option Reply
  /-- The next unused name. -/
  nextId : Nat
  journal : List Entry
  /-- The state of client code. -/
  user : σ
  clock : Nat
  /-- The threads that nobody waits for. -/
  late : List (Late σ)

namespace World

/-- No storages, no futures, nothing observed. -/
def start (user : σ) : World σ := ⟨fun _ => .empty, fun _ => none, 0, [], user, 0, []⟩

/-- Whether a future has an outcome. -/
def isComplete (i : FutureId) (w : World σ) : Bool := (w.futures i).isSome

/-- Leaves a thread to itself. -/
def leave (w : World σ) (holder : Option Context) (rest : Program σ α) : World σ :=
  { w with late := w.late ++ [⟨holder, rest.bind fun _ => .done (), w.clock⟩] }

end World

/-- One effect: its answer, what is attached to the thread, and the shared state. -/
def Action.step : Action σ β → Option Context → World σ → β × Option Context × World σ
  | holder f, h, w => (h, f h, w)
  | newStorage c, h, w =>
      (w.nextId, h, { w with
        storages := fun j => if j = w.nextId then c else w.storages j, nextId := w.nextId + 1 })
  | storage i f, h, w =>
      (w.storages i, h, { w with
        storages := fun j => if j = i then f (w.storages i) else w.storages j })
  | newFuture, h, w =>
      (w.nextId, h, { w with
        futures := fun j => if j = w.nextId then none else w.futures j, nextId := w.nextId + 1 })
  | settle i outcome, h, w =>
      match w.futures i with
      | some _ => (false, h, w)
      | none => (true, h, { w with
          futures := fun j => if j = i then some outcome else w.futures j })
  | peek i, h, w => (w.futures i, h, w)
  | record e, h, w => ((), h, { w with journal := w.journal ++ [e] })
  | recorded, h, w => (w.journal, h, w)
  | user f, h, w => (w.user, h, { w with user := f w.user })

end ResilientCalls
