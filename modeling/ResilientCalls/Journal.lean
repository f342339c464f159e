import ResilientCalls.Failure.Text
import ResilientCalls.Report

/-!
# The journal

Everything a run shows besides its results, in order: counters, samples of durations, traces,
pauses, and the notes that client code takes itself.
-/

namespace ResilientCalls

open Text (Layout)

/-! ## Counters -/

inductive RequestResult
  | success
  | recovered
  | error
deriving Repr, DecidableEq

/-- How a chain ended, as its counter says. -/
inductive CompletionResult
  | success | failure | noHandler | cancelled
deriving Repr, DecidableEq

/-- A quantity that only grows, by one at a time, with its labels. -/
inductive Counter
  /-- Retries made by failover handlers. -/
  | retries (scope : String)
  /-- Failed calls that a failover handler saw to the end, recovered or not. -/
  | failovers (scope : String) (recovered : Bool)
  /-- Attempts that took too long. -/
  | timeouts (scope : String)
  | connects (endpoint : String) (connected : Bool)
  | requests (scope : String) (result : RequestResult)
  /-- Chains at the end of their life. -/
  | completions (result : CompletionResult)
deriving DecidableEq

def RequestResult.label : RequestResult → String
  | success => "success"
  | recovered => "recovered"
  | error => "error"

def CompletionResult.label : CompletionResult → String
  | success => "success"
  | failure => "failure"
  | noHandler => "no_handler"
  | cancelled => "cancelled"

namespace Counter

def name : Counter → String
  | retries _ => "failover_retries_total"
  | failovers .. => "failover_calls_total"
  | timeouts _ => "rpc_timeouts_total"
  | connects .. => "rpc_connect_attempts_total"
  | requests .. => "rpc_requests_total"
  | completions _ => "future_chain_completions_total"

def labels : Counter → List (String × String)
  | retries scope => [("scope", scope)]
  | failovers scope recovered =>
      [("scope", scope), ("result", if recovered then "success" else "exhausted")]
  | timeouts scope => [("scope", scope)]
  | connects endpoint connected =>
      [("endpoint", endpoint), ("result", if connected then "success" else "error")]
  | requests scope result => [("scope", scope), ("result", result.label)]
  | completions result => [("result", result.label)]

end Counter

/-! ## Traces -/

/-- How much attention a trace asks for. -/
inductive Level
  | trace | debug | warn
deriving Repr, DecidableEq

def Level.name : Level → String
  | trace => "TRACE"
  | debug => "DEBUG"
  | warn => "WARN"

/-- A step of the library worth telling. -/
inductive Trace
  | attached (scope : String)
  | released (scope : String)
  | ordered (priorities : List Int)
  | handlerInvoked (invocation : String) (priority : Int)
  | retrying (handler scope : String) (attempt countdown : Nat) (interval : Duration)
  | exhausted (handler scope : String) (attempts : Nat)
  | connecting (endpoint : String) (attempt maxAttempts : Nat)
  | gaveUp (endpoint : String) (attempts : Nat) (error : Failure)
  | timedOut (invocation : String) (timeout : Duration)
  | unhandled (scope : String)
  | converted (scope : String)
  | conversionFailed (scope : String) (error : Failure)
  | conversionPanicked (scope : String) (error : Failure)
  | completedWithFailure (scope : String) (error : Failure)
  | dropped
  | routed (requester scope : String) (handlers : Nat) (error : Failure)
  | requestFailed (requester scope : String) (kind : ErrorKind) (error : Failure)
deriving DecidableEq

namespace Trace

def level : Trace → Level
  | attached _ | released _ | ordered _ | converted _ => .trace
  | gaveUp .. | timedOut .. | requestFailed .. => .warn
  | _ => .debug

def message : Trace → String
  | attached _ => "attach context"
  | released _ => "release context"
  | ordered _ => "failover handlers ordered"
  | handlerInvoked .. => "failover handler invoked"
  | retrying .. => "retrying failed invocation"
  | exhausted .. => "retries exhausted"
  | connecting .. => "connecting"
  | gaveUp .. => "giving up connecting"
  | timedOut .. => "invocation timed out"
  | unhandled _ => "no success handler registered"
  | converted _ => "complete future with converted value"
  | conversionFailed .. => "success handler failed"
  | conversionPanicked .. => "success handler panicked"
  | completedWithFailure .. => "complete future with failure"
  | dropped => "future chain dropped before completion"
  | routed .. => "routing failure to failover"
  | requestFailed .. => "request failed"

def details : Trace → List (String × String)
  | attached scope | released scope | unhandled scope | converted scope => [("scope", scope)]
  | ordered priorities => [("priorities", (Layout.list (priorities.map .int)).inline)]
  | handlerInvoked invocation priority =>
      [("invocation", invocation), ("priority", toString priority)]
  | retrying handler scope attempt countdown interval =>
      [("handler", handler), ("scope", scope), ("attempt", toString attempt),
        ("countdown", toString countdown), ("interval", interval.toText)]
  | exhausted handler scope attempts =>
      [("handler", handler), ("scope", scope), ("attempts", toString attempts)]
  | connecting endpoint attempt maxAttempts =>
      [("endpoint", endpoint), ("attempt", toString attempt),
        ("max_attempts", toString maxAttempts)]
  | gaveUp endpoint attempts error =>
      [("endpoint", endpoint), ("attempts", toString attempts), ("error", error.message)]
  | timedOut invocation timeout => [("invocation", invocation), ("timeout", timeout.toText)]
  | conversionFailed scope error | conversionPanicked scope error
  | completedWithFailure scope error => [("scope", scope), ("error", error.message)]
  | dropped => []
  | routed requester scope handlers error =>
      [("requester", requester), ("scope", scope), ("handlers", toString handlers),
        ("error", error.message)]
  | requestFailed requester scope kind error =>
      [("requester", requester), ("scope", scope), ("kind", kind.label),
        ("error", error.message)]

end Trace

/-! ## Entries -/

inductive Entry
  /-- A counter grew by one. -/
  | counted (counter : Counter)
  /-- The duration of a request was sampled. -/
  | sampled (scope : String)
  /-- A step was told. -/
  | traced (trace : Trace)
  | paused (interval : Duration)
  /-- Client code took a note. -/
  | noted (note : Report)

end ResilientCalls
