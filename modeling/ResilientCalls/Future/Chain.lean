import ResilientCalls.Future.Cell

/-!
# Completing a future from an asynchronous result

A chain belongs to one future and ends once: with a raw value that a handler converts, with a
failure, or by being dropped. Each end is traced, then counted, then written to the future, under
the context the chain was made with.
-/

namespace ResilientCalls

open Text (Layout)
open Program

variable {σ η : Type}

/-- What will complete a future; handlers are known by names of type `η`. -/
structure Chain (η : Type) where
  /-- The future to complete. -/
  target : FutureId
  /-- The context in force while the chain ends. -/
  context : Context
  /-- What converts a raw value. -/
  handler : Option η

namespace Chain

/-- A chain for a future that is still pending. -/
def make (target : FutureId) (context : Context) : Program σ (Except Failure (Chain η)) := do
  if ← Future.isDone target then
    return .error (.invalidArgument "target future is already complete")
  return .ok ⟨target, context, none⟩

/-- A chain under the context attached to this thread. -/
def capture (target : FutureId) : Program σ (Except Failure (Chain η)) := do
  match ← current with
  | some c => make target c
  | none => return .error (.configuration "no context attached to the current thread")

/-- The chain with another handler. -/
def withHandler (c : Chain η) (handler : η) : Chain η := { c with handler := some handler }

/-- The failure that stands for a panic of the handler. -/
def panicFailure : Payload → Failure
  | .text detail => .text ("success handler panicked: " ++ detail)
  | .other => .text "success handler panicked"

/-- Ends with a value. -/
def finishWith (c : Chain η) (value : String) : Program σ Unit := do
  let scope ← currentScope ""
  log (.converted scope)
  count (.completions .success)
  let _ ← Future.succeed c.target value

/-- Ends with a failure, told in one of several ways. -/
def finishFailed (c : Chain η) (trace : String → Failure → Trace) (result : CompletionResult)
    (e : Failure) : Program σ Unit := do
  let scope ← currentScope ""
  log (trace scope e)
  count (.completions result)
  let _ ← Future.fail c.target e

/-- Ends with a raw value, which the handler converts by what its name stands for. -/
def succeed (convert : η → String → Program σ Reply) (c : Chain η) (raw : String) :
    Program σ Unit :=
  withContext c.context do
    match c.handler with
    | none => c.finishFailed (fun scope _ => .unhandled scope) .noHandler .noSuccessHandler
    | some handler =>
        match ← (convert handler raw).caught with
        | .ok (.ok value) => c.finishWith value
        | .ok (.error e) => c.finishFailed .conversionFailed .failure e
        | .error p => c.finishFailed .conversionPanicked .failure (panicFailure p)

/-- Ends with a failure, given in the form in which calls report it; how a cause of another type is converted to that,
with the context attached, is left out. -/
def fail (c : Chain η) (e : Failure) : Program σ Unit :=
  withContext c.context (c.finishFailed .completedWithFailure .failure e)

/-- Ends before there is a result. -/
def drop (c : Chain η) : Program σ Unit := do
  log .dropped
  count (.completions .cancelled)
  let _ ← Future.cancel c.target

/-- Ends as asynchronous work does; a panic of the work drops the chain and goes on. -/
def listen (convert : η → String → Program σ Reply) (c : Chain η) (work : Program σ Reply) :
    Program σ Unit := do
  match ← work.caught with
  | .ok (.ok raw) => c.succeed convert raw
  | .ok (.error e) => c.fail e
  | .error p => do
      c.drop
      .unwind p

/-- The chain, with the state of its future. -/
def layout (c : Chain η) (outcome : Option Reply) : Layout :=
  .struct "FutureChain"
    [("target", .option (some (Future.layout outcome))),
      ("context", .option (some c.context.layout)),
      ("has_success_handler", .word (toString c.handler.isSome))]

end Chain

end ResilientCalls
