import ResilientCalls.Future.Chain
import ResilientCalls.Requester.Request

/-!
# Requests on another thread

Spawning a request answers with a future at once. A task makes the request later, under the context
that was in force at the spawn, and completes the future; a task that is dropped cancels it.
-/

namespace ResilientCalls

open Program

variable {σ : Type}

/-- A request that waits to be made. -/
structure Task where
  /-- The context at the time of the spawn. -/
  context : Context
  /-- What completes the future; its handler leaves the value as it is. -/
  chain : Chain Unit

/-- The future of a request, and the task that completes it. -/
structure Spawned where
  future : FutureId
  /-- What is left to do; nothing, if the future is complete already. -/
  task : Option Task

namespace Requester

/-- Creates the future and the task. -/
def spawn (r : Requester σ) : Program σ Spawned := do
  let future ← perform .newFuture
  let context ← r.base
  match ← Chain.make future context with
  | .ok chain => return ⟨future, some ⟨context, chain.withHandler ()⟩⟩
  | .error e => do
      let _ ← Future.fail future e
      return ⟨future, none⟩

/-- The work of a task: the request under the task's context. -/
def taskWork (net : Network σ) (r : Requester σ) (inv : Invocation σ) (t : Task) :
    Program σ Reply := do
  match ← withContext t.context (r.request net inv) with
  | .ok v => return .ok v
  | .error e => return .error e.toFailure

/-- Makes the request and completes the future. -/
def runTask (net : Network σ) (r : Requester σ) (inv : Invocation σ) (t : Task) : Program σ Unit :=
  t.chain.listen (fun _ raw => return .ok raw) (r.taskWork net inv t)

end Requester

/-- Gives the task up before it runs. -/
def Task.drop (t : Task) : Program σ Unit := t.chain.drop

end ResilientCalls
