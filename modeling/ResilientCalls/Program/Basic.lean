import ResilientCalls.Context
import ResilientCalls.Journal

/-!
# Programs

The code of calls, handlers and clients as trees of atomic effects. A tree can be run in one go, or
step by step next to others, so what it does under any schedule is a matter of its shape. What is
left of a program at some moment is a program again.
-/

namespace ResilientCalls

/-- The value of a call, or its failure. -/
abbrev Reply := Except Failure String

/-- Names a shared storage that holds one context. -/
abbrev StorageId := Nat

/-- Names a future. -/
abbrev FutureId := Nat

/-- What code that panics throws. -/
inductive Payload
  | text (message : String)
  /-- A value that is not text. -/
  | other
deriving DecidableEq

/-- The atomic effects, with the type of what each one answers. -/
inductive Action (σ : Type) : Type → Type
  /-- Changes the context attached to this thread and answers the one before. -/
  | holder (f : Option Context → Option Context) : Action σ (Option Context)
  /-- Creates a storage. -/
  | newStorage (content : Context) : Action σ StorageId
  /-- Changes the content of a storage and answers the content before. -/
  | storage (i : StorageId) (f : Context → Context) : Action σ Context
  /-- Creates a pending future. -/
  | newFuture : Action σ FutureId
  /-- Completes a future unless it is complete; answers whether it did. -/
  | settle (i : FutureId) (outcome : Reply) : Action σ Bool
  /-- The outcome of a future, if it has one. -/
  | peek (i : FutureId) : Action σ (Option Reply)
  /-- Adds an observation to the journal. -/
  | record (entry : Entry) : Action σ Unit
  /-- All observations so far. -/
  | recorded : Action σ (List Entry)
  /-- Changes the state of client code and answers the state before. -/
  | user (f : σ → σ) : Action σ σ

/-- What became of code on another thread. -/
inductive Delivery (β : Type)
  /-- It ended with a value in time. -/
  | delivered (value : β)
  /-- It panicked in time. -/
  | crashed
  /-- It had not ended when the wait was over. -/
  | elapsed
deriving DecidableEq

/-- Code that runs on one thread and may end with a value. -/
inductive Program (σ : Type) : Type → Type 1
  /-- Ends with a value. -/
  | done {α : Type} (value : α) : Program σ α
  /-- Panics. -/
  | unwind {α : Type} (payload : Payload) : Program σ α
  /-- Blocks for ever. -/
  | block {α : Type} : Program σ α
  /-- Performs an effect and goes on with its answer. -/
  | act {α β : Type} (action : Action σ β) (next : β → Program σ α) : Program σ α
  /-- Lets time pass. -/
  | sleep {α : Type} (d : Duration) (next : Program σ α) : Program σ α
  /-- Waits for a future to complete, for as long as the bound says, and goes on with its outcome
  if it has one then. -/
  | await {α : Type} (i : FutureId) (bound : Option Duration)
      (next : Option Reply → Program σ α) : Program σ α
  /-- Runs code on a thread of its own, on which a context may be attached, and waits for it as long
  as the bound says. -/
  | worker {α β : Type} (attached : Option Context) (body : Program σ β) (bound : Option Duration)
      (next : Delivery β → Program σ α) : Program σ α

namespace Program

variable {σ α β γ : Type}

def bind : Program σ α → (α → Program σ β) → Program σ β
  | done a, g => g a
  | unwind p, _ => unwind p
  | block, _ => block
  | act a k, g => act a fun b => (k b).bind g
  | sleep d k, g => sleep d (k.bind g)
  | await i bound k, g => await i bound fun o => (k o).bind g
  | worker c body bound k, g => worker c body bound fun d => (k d).bind g

instance : Monad (Program σ) where
  pure := done
  bind := bind

/-- Stops a panic and goes on with its payload. -/
def caught : Program σ α → Program σ (Except Payload α)
  | done a => done (.ok a)
  | unwind p => done (.error p)
  | block => block
  | act a k => act a fun b => (k b).caught
  | sleep d k => sleep d k.caught
  | await i bound k => await i bound fun o => (k o).caught
  | worker c body bound k => worker c body bound fun d => (k d).caught

/-- Goes on with a value, or with the panic that a payload stands for. -/
def rethrow : Except Payload α → Program σ α
  | .ok a => done a
  | .error p => unwind p

/-- Runs `cleanup` after the code, also when it panics. -/
def ensuring (p : Program σ α) (cleanup : Program σ Unit) : Program σ α := do
  let r ← p.caught
  cleanup
  rethrow r

def perform (a : Action σ β) : Program σ β := act a done

/-- Adds an observation to the journal. -/
def record (e : Entry) : Program σ Unit := perform (.record e)

def count (c : Counter) : Program σ Unit := record (.counted c)

/-- Logs a step of the library. -/
def log (t : Trace) : Program σ Unit := record (.traced t)

def note (r : Report) : Program σ Unit := record (.noted r)

/-- Pauses; no time at all is no pause. -/
def pause (d : Duration) : Program σ Unit := do
  unless d.isZero do
    record (.paused d)
    sleep d (pure ())

/-- The state of client code. -/
def userState : Program σ σ := perform (.user id)

/-- Changes the state of client code. -/
def changeUser (f : σ → σ) : Program σ Unit := do
  let _ ← perform (.user f)

@[simp] theorem pure_eq (a : α) : (pure a : Program σ α) = done a := rfl

@[simp] theorem bind_eq (p : Program σ α) (g : α → Program σ β) : p >>= g = p.bind g := rfl

@[simp] theorem done_bind (a : α) (g : α → Program σ β) : (done a).bind g = g a := rfl

@[simp] theorem bind_done (p : Program σ α) : p.bind done = p := by
  induction p <;> simp_all [bind]

theorem bind_assoc (p : Program σ α) (g : α → Program σ β) (h : β → Program σ γ) :
    (p.bind g).bind h = p.bind fun a => (g a).bind h := by
  induction p <;> simp_all [bind]

end Program

end ResilientCalls
