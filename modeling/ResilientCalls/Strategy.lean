import ResilientCalls.Failure.Basic
import ResilientCalls.Pacing

/-!
# Strategies

What a context can ask for: a connection before the call, a bound on each attempt, retries. Every
strategy is checked when it is built, so one that exists is usable.
-/

namespace ResilientCalls

open Text (Layout)
open Decimal (plain exact)

/-- The four things a strategy can be about. -/
inductive StrategyKind
  | connect | timeout | failover | retry
deriving Repr, DecidableEq

def StrategyKind.label : StrategyKind → String
  | connect => "connect"
  | timeout => "timeout"
  | failover => "failover"
  | retry => "retry"

def StrategyKind.name : StrategyKind → String
  | connect => "Connect"
  | timeout => "Timeout"
  | failover => "Failover"
  | retry => "Retry"

def StrategyKind.all : List StrategyKind := [connect, timeout, failover, retry]

def StrategyKind.ofLabel? (label : String) : Option StrategyKind :=
  StrategyKind.all.find? (·.label == label)

def Duration.layout (d : Duration) : Layout := .word d.toText

/-! ## Timeout -/

/-- Bounds how long one attempt may take. -/
structure TimeoutStrategy where
  timeout : Duration
  timeout_pos : timeout.isZero = false
deriving DecidableEq

/-- Refuses a bound of zero. -/
def TimeoutStrategy.make (timeout : Duration) : Except Failure TimeoutStrategy :=
  if h : timeout.isZero = false then .ok ⟨timeout, h⟩
  else .error (.invalidArgument "timeout must be greater than zero")

def TimeoutStrategy.layout (s : TimeoutStrategy) : Layout :=
  .struct "TimeoutStrategy" [("timeout", s.timeout.layout)]

/-! ## Retries -/

/-- The refusal of a retry count of zero. -/
def zeroCount : Failure := .invalidArgument "retry count must be positive"

/-- Repeats a failed call with a fixed pause before each retry. -/
structure RetryStrategy where
  count : Nat
  interval : Duration
  count_pos : 0 < count
deriving DecidableEq

/-- Refuses a count of zero. -/
def RetryStrategy.make (count : Nat) (interval : Duration) : Except Failure RetryStrategy :=
  if h : 0 < count then .ok ⟨count, interval, h⟩ else .error zeroCount

def RetryStrategy.layout (s : RetryStrategy) : Layout :=
  .struct "RetryStrategy" [("count", .nat s.count), ("interval", s.interval.layout)]

/-- Whether a pause may be multiplied by this factor: it is finite and not below one. -/
def isGrowth (multiplier : Float) : Bool := multiplier.isFinite && !(multiplier < 1.0)

/-- Retries with pauses that may grow, at a place among other failover handlers. -/
structure RetryPolicy where
  count : Nat
  interval : Duration
  multiplier : Float
  /-- No pause is longer than this one. -/
  maxInterval : Option Duration
  /-- Handlers with a lower priority run first. -/
  priority : Int
  count_pos : 0 < count
  growth : isGrowth multiplier = true
deriving DecidableEq

namespace RetryPolicy

/-- The priority of a policy that sets none. -/
def defaultPriority : Int := 2

/-- Refuses a count of zero, then an unusable factor. -/
def exponential (count : Nat) (interval : Duration) (multiplier : Float) :
    Except Failure RetryPolicy :=
  if hc : 0 < count then
    if hm : isGrowth multiplier = true then
      .ok ⟨count, interval, multiplier, none, defaultPriority, hc, hm⟩
    else .error (.invalidArgument
      ("backoff multiplier must be a finite value >= 1.0, got " ++ plain.write multiplier))
  else .error zeroCount

/-- The same pause before every retry. -/
def fixed (count : Nat) (interval : Duration) : Except Failure RetryPolicy :=
  exponential count interval 1.0

/-- The policy with a longest pause. -/
def withMaxInterval (p : RetryPolicy) (cap : Duration) : RetryPolicy :=
  { p with maxInterval := some cap }

/-- The policy at another place. -/
def withPriority (p : RetryPolicy) (priority : Int) : RetryPolicy := { p with priority := priority }

/-- A retry strategy is a policy with a fixed pause. -/
def ofRetryStrategy (s : RetryStrategy) : RetryPolicy :=
  ⟨s.count, s.interval, 1.0, none, defaultPriority, s.count_pos, by decide⟩

/-- A factor of one asks for a fixed pause, any other for a backoff. -/
def pacing (p : RetryPolicy) : Pacing :=
  if p.multiplier == 1.0 then .fixed p.interval
  else Backoff.pacing ⟨p.interval, p.multiplier, p.maxInterval⟩

def layout (p : RetryPolicy) : Layout :=
  .struct "RetryPolicy"
    [("count", .nat p.count), ("interval", p.interval.layout),
      ("multiplier", .word (exact.write p.multiplier)),
      ("max_interval", .option (p.maxInterval.map Duration.layout)), ("priority", .int p.priority)]

end RetryPolicy

/-- Retry policies that a failed call goes through. -/
structure FailoverStrategy where
  policies : List RetryPolicy
deriving DecidableEq

/-- The strategy with one more policy at the end. -/
def FailoverStrategy.withPolicy (s : FailoverStrategy) (p : RetryPolicy) : FailoverStrategy :=
  ⟨s.policies ++ [p]⟩

def FailoverStrategy.layout (s : FailoverStrategy) : Layout :=
  .struct "FailoverStrategy" [("policies", .list (s.policies.map RetryPolicy.layout))]

/-! ## Connection -/

/-- Names a connector: a shared object that contexts refer to. -/
abbrev ConnectorId := Nat

/-- Makes sure of a connection before each attempt. -/
structure ConnectStrategy where
  endpoint : String
  connector : ConnectorId
  maxAttempts : Nat
  backoff : Duration
  maxAttempts_pos : 0 < maxAttempts
  endpoint_ne : endpoint ≠ ""
deriving DecidableEq

namespace ConnectStrategy

/-- Number of attempts to connect when none is set. -/
def defaultAttempts : Nat := 3

/-- The pause between two attempts when none is set: a tenth of a second. -/
def defaultBackoff : Duration := .ofNanos (tenTo 8) (by decide)

/-- Refuses zero attempts, then an empty endpoint. -/
def make (endpoint : String) (connector : ConnectorId) (maxAttempts : Nat) (backoff : Duration) :
    Except Failure ConnectStrategy :=
  if ha : 0 < maxAttempts then
    if he : endpoint ≠ "" then .ok ⟨endpoint, connector, maxAttempts, backoff, ha, he⟩
    else .error (.invalidArgument "connect endpoint must not be empty")
  else .error (.invalidArgument "connect attempts must be positive")

/-- The strategy with its parameters; the connector is not shown. -/
def layout (s : ConnectStrategy) : Layout :=
  .record "ConnectStrategy"
    [.field "endpoint" (.text s.endpoint), .field "max_attempts" (.nat s.maxAttempts),
      .field "backoff" s.backoff.layout] true

end ConnectStrategy

/-! ## Any strategy -/

inductive Strategy
  | connect (s : ConnectStrategy)
  | timeout (s : TimeoutStrategy)
  | failover (s : FailoverStrategy)
  | retry (s : RetryStrategy)
deriving DecidableEq

namespace Strategy

def kind : Strategy → StrategyKind
  | connect _ => .connect
  | timeout _ => .timeout
  | failover _ => .failover
  | retry _ => .retry

def layout : Strategy → Layout
  | connect s => .tuple "Connect" [s.layout]
  | timeout s => .tuple "Timeout" [s.layout]
  | failover s => .tuple "Failover" [s.layout]
  | retry s => .tuple "Retry" [s.layout]

end Strategy

end ResilientCalls
