import ResilientCalls.Invocation
import ResilientCalls.Listeners

/-!
# Retrying a failed call

A retry handler repeats a failed call a fixed number of times, with a pause before each retry, and
stops at the first success. It counts and tells what it does.
-/

namespace ResilientCalls

open Text (Layout)
open Program

variable {σ : Type}

/-- Repeats a failed call. -/
structure RetryHandler (σ : Type) where
  count : Nat
  /-- The pause before each retry. -/
  pacing : Pacing
  /-- Handlers with a lower priority run first. -/
  priority : Int
  name : String
  listeners : List (Listener σ FailoverEvent)

namespace RetryHandler

/-- The name of a handler that is given none. -/
def defaultName : String := "just-retry"

/-- Three retries without a pause. -/
def standard : RetryHandler σ :=
  ⟨3, .fixed .zero, RetryPolicy.defaultPriority, defaultName, []⟩

/-- The handler of a policy. -/
def ofPolicy (p : RetryPolicy) : RetryHandler σ :=
  ⟨p.count, p.pacing, p.priority, defaultName, []⟩

/-- Refuses a handler without retries. -/
def checked (r : RetryHandler σ) : Except Failure (RetryHandler σ) :=
  if r.count = 0 then .error zeroCount else .ok r

/-- Retries until one succeeds or none is left; `attempts` retries were made before. Ends with the
last reply and the number of retries made. -/
def retryLoop (r : RetryHandler σ) (scope : String) (inv : Invocation σ) :
    Nat → Nat → Failure → Program σ (Reply × Nat)
  | 0, attempts, e => return (.error e, attempts)
  | countdown + 1, attempts, _ => do
      let delay := r.pacing.pause attempts
      log (.retrying r.name scope (attempts + 1) countdown delay)
      Program.count (.retries scope)
      emit r.listeners (.retry scope (attempts + 1) delay)
      pause delay
      match ← inv.attempt with
      | .ok v => return (.ok v, attempts + 1)
      | .error e => retryLoop r scope inv countdown (attempts + 1) e

/-- Counts and tells how the retries ended. -/
def conclude (r : RetryHandler σ) (scope : String) (reply : Reply) (attempts : Nat) :
    Program σ Unit := do
  match reply with
  | .ok _ =>
      Program.count (.failovers scope true)
      emit r.listeners (.success scope attempts)
  | .error _ =>
      log (.exhausted r.name scope attempts)
      Program.count (.failovers scope false)
      emit r.listeners (.exhausted scope attempts)

/-- Tries to turn a failed reply into a successful one; a successful one stays as it is. -/
def handle (r : RetryHandler σ) (inv : Invocation σ) : Reply → Program σ Reply
  | .ok v => return .ok v
  | .error e => do
      let scope ← currentScope inv.name
      let (reply, attempts) ← r.retryLoop scope inv r.count 0 e
      r.conclude scope reply attempts
      return reply

def layout (r : RetryHandler σ) : Layout :=
  .struct "JustRetryFailoverHandler"
    [("count", .nat r.count), ("interval", r.pacing.layout), ("priority", .int r.priority),
      ("name", .text r.name), ("event_listeners", listenersLayout r.listeners.length)]

end RetryHandler

end ResilientCalls
