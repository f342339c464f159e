import ResilientCalls.Failover.Chain
import ResilientCalls.Scenario.Desk

/-!
# Steps about plain values

Failures, pauses, policies, strategies, replies and events on their own, without any register but
the connectors that strategies name.
-/

namespace ResilientCalls.Scenario

open Program

/-! ## Building -/

/-- Builds a policy; the factor is checked before cap and priority are set. -/
def PolicySpec.build (s : PolicySpec) : Except Failure RetryPolicy := do
  let p ← match s.multiplier with
    | some m => RetryPolicy.exponential s.count s.interval m
    | none => RetryPolicy.fixed s.count s.interval
  let p := match s.maxInterval with
    | some cap => p.withMaxInterval cap
    | none => p
  return match s.priority with
    | some priority => p.withPriority priority
    | none => p

/-- Builds a connect strategy. -/
def ConnectSpec.build (s : ConnectSpec) : Script ConnectStrategy := do
  let connector ← fetch Desk.connectors s.connector
  built (ConnectStrategy.make s.endpoint connector
    (s.maxAttempts.getD ConnectStrategy.defaultAttempts)
    (s.backoff.getD ConnectStrategy.defaultBackoff))

/-- Builds a failover strategy, its policies in order. -/
def buildFailover (policies : List PolicySpec) : Script FailoverStrategy :=
  built (FailoverStrategy.mk <$> policies.mapM PolicySpec.build)

/-- Builds a strategy. -/
def StrategySpec.build : StrategySpec → Script Strategy
  | timeout bound => built (Strategy.timeout <$> TimeoutStrategy.make bound)
  | retry count interval => built (Strategy.retry <$> RetryStrategy.make count interval)
  | failover policies => Strategy.failover <$> buildFailover policies
  | connect spec => Strategy.connect <$> spec.build

/-! ## Answers -/

/-- What a failure of this library says about itself. -/
def coreReport (e : Failure) : Report :=
  .fields
    [("is", .list
      [.flag (e matches .timeout _), .flag (e matches .noSuccessHandler),
        .flag (e matches .cancelled)]),
      ("failure", match e with
        | .failed cause => failureReport cause
        | _ => .nothing),
      ("clone", .text e.message)]

/-- A failure, what lies behind it, and what a caller would see of it. -/
def errorReport (e : Failure) (pretty : Bool) : Report :=
  let seen := RpcError.ofFailure e
  .fields ([("error", failureReport e), ("debug", .text (e.layout.render pretty)),
    ("sources", .list (e.causes.map fun c => .text c.message)),
    ("converted", failureReport seen.toFailure),
    ("converted_debug", .text (seen.toFailure.layout.render pretty)),
    ("kind", .text seen.kind.label), ("text", .text seen.message),
    ("is", .list (ErrorKind.all.map fun k => .flag (k == seen.kind)))]
    ++ if e.isCore then [("core", coreReport e)] else [])

/-- A policy and the handler made from it. -/
def policyAnswer (p : RetryPolicy) (pretty : Bool) : Report :=
  let handler : RetryHandler Desk := .ofPolicy p
  .fields [("policy", policyReport p), ("debug", .text (p.layout.render pretty)),
    ("handler", .text (handler.layout.render pretty)), ("priority", .number handler.priority)]

/-- Whether two strategies are equal; of different kinds, or about connections, only whether the
kinds are. -/
def equalReport (a b : Strategy) : Report :=
  match a, b with
  | .timeout a, .timeout b => .flag (a == b)
  | .retry a, .retry b => .flag (a == b)
  | .failover a, .failover b => .flag (a == b)
  | a, b => .list [.flag (a.kind == b.kind)]

/-- A reply, and the result made from it. -/
def responseReport (reply : Reply) (pretty : Bool) : Report :=
  .fields [("success", .flag (reply matches .ok _)), ("failure", .flag (reply matches .error _)),
    ("response", replyReport reply), ("debug", .text ((replyLayout reply).render pretty)),
    ("result", replyReport reply)]

/-- The label and the scope of an event. -/
def EventSpec.parts : EventSpec → String × String
  | failover e => (e.label, e.scope)
  | request e => (e.label, e.scope)

/-- A listener that takes a note of each event and may then panic. -/
def notingListener (id : Nat) (panics : Bool) : Listener Desk EventSpec := fun event => do
  let (label, scope) := event.parts
  note (.fields [("listener", .nat id), ("event", .text label), ("scope", .text scope)])
  if panics then .unwind (.text "listener")

/-- Tells listeners of an event again and again. -/
def emitTimes (listeners : List (Listener Desk EventSpec)) (event : EventSpec) :
    Nat → Program Desk Unit
  | 0 => pure ()
  | n + 1 => do
      ResilientCalls.emit listeners event
      emitTimes listeners event n

/-- Emits an event to new listeners. -/
def emitAnswer (event : EventSpec) (panics : List Bool) (times : Nat) (pretty : Bool) :
    Program Desk Report := do
  emitTimes (panics.zipIdx.map fun l => notingListener l.2 l.1) event times
  let (label, scope) := event.parts
  return .fields [("event", .text label), ("scope", .text scope), ("same_time", .flag true),
    ("was_empty", .flag true), ("empty", .flag panics.isEmpty), ("len", .nat panics.length),
    ("debug", .text ((listenersLayout panics.length).render pretty))]

/-- The answer of a step about plain values. -/
def ValueStep.answer : ValueStep → Script Report
  | error e pretty => return errorReport e pretty
  | interval rule attempts pretty =>
      return .fields [("delays", .list (attempts.map fun n => durationReport (rule.pause n))),
        ("debug", .text (rule.layout.render pretty))]
  | policy spec pretty => do
      let p ← built spec.build
      return policyAnswer p pretty
  | retryPolicy count fixed pretty => do
      let s ← built (RetryStrategy.make count fixed)
      return policyAnswer (.ofRetryStrategy s) pretty
  | strategy spec pretty => do
      let s ← spec.build
      return strategyReport s pretty
  | equal a b => do
      let a ← a.build
      let b ← b.build
      return equalReport a b
  | response reply pretty => return responseReport reply pretty
  | emit event panics times pretty => effect <| emitAnswer event panics times pretty

end ResilientCalls.Scenario
