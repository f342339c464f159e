import ResilientCalls.Attachment

/-!
# Futures

A future takes one outcome. The first write decides it, every later one is without effect, and
readers may wait for it.
-/

namespace ResilientCalls

open Text (Layout)
open Program

variable {σ : Type}

namespace Future

/-- Completes the future with a value, unless it is complete; answers whether it did. -/
def succeed (i : FutureId) (value : String) : Program σ Bool := perform (.settle i (.ok value))

/-- Completes the future with a failure, unless it is complete; answers whether it did. -/
def fail (i : FutureId) (e : Failure) : Program σ Bool := perform (.settle i (.error e.settled))

/-- Completes the future as cancelled, unless it is complete; answers whether it did. -/
def cancel (i : FutureId) : Program σ Bool := perform (.settle i (.error .cancelled))

/-- The outcome, if there is one. -/
def tryGet (i : FutureId) : Program σ (Option Reply) := perform (.peek i)

/-- Whether there is an outcome. -/
def isDone (i : FutureId) : Program σ Bool := do
  let outcome ← tryGet i
  return outcome.isSome

/-- The answer for a reader that finds no outcome after its wait. -/
def unfinished (bound : Option Duration) : Failure :=
  match bound with
  | some after => .timeout after
  | none => .configuration "future read before completion"

/-- Waits for the outcome as long as the bound says. -/
def getWithin (i : FutureId) (bound : Option Duration) : Program σ Reply :=
  .await i bound fun
    | some outcome => .done outcome
    | none => .done (.error (unfinished bound))

/-- Waits for the outcome. -/
def get (i : FutureId) : Program σ Reply := getWithin i none

/-- The state of a future in a word. -/
def stateName : Option Reply → String
  | none => "pending"
  | some (.ok _) => "succeeded"
  | some (.error _) => "failed"

/-- The future with its state. -/
def layout (outcome : Option Reply) : Layout :=
  .struct "FinishableFuture" [("state", .text (stateName outcome))]

end Future

end ResilientCalls
