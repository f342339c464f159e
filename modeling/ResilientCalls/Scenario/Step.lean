import ResilientCalls.Decoration
import ResilientCalls.Listeners
import ResilientCalls.Failure.Rpc

/-!
# Steps of a scenario

A scenario is a list of steps over named registers. Steps create values, attach contexts, make
calls and requests, complete futures; a scripted call can run steps of its own.
-/

namespace ResilientCalls.Scenario

open Text (Layout)

/-! ## Parts of steps -/

/-- How to build a retry policy. -/
structure PolicySpec where
  count : Nat
  interval : Duration
  multiplier : Option Float
  maxInterval : Option Duration
  priority : Option Int

/-- How to build a connect strategy; the connector is a register. -/
structure ConnectSpec where
  endpoint : String
  connector : String
  maxAttempts : Option Nat
  backoff : Option Duration

/-- How to build a strategy. -/
inductive StrategySpec
  | timeout (bound : Duration)
  | retry (count : Nat) (interval : Duration)
  | failover (policies : List PolicySpec)
  | connect (spec : ConnectSpec)

/-- An event for listeners. -/
inductive EventSpec
  | failover (event : FailoverEvent)
  | request (event : RequestEvent)

/-- A listener for events of one class, which may panic after it has taken a note. -/
structure ListenerSpec (κ : Type) where
  on : κ
  panics : Bool

/-- The classes of failover events. -/
inductive FailoverClass
  | retry | success | exhausted
deriving DecidableEq

/-- The classes of request events. -/
abbrev RequestClass := RequestResult

/-- How to build a retry handler. -/
inductive RetrySpec
  /-- From a policy. -/
  | policy (spec : PolicySpec)
  /-- From parts; the interval is set before the backoff. -/
  | parts (count : Option Nat) (interval : Option Duration) (backoff : Option Backoff)
      (priority : Option Int) (name : Option String)
      (listeners : List (ListenerSpec FailoverClass))

/-- What a probe in a failover chain does. -/
inductive ProbeAction
  | value (v : String)
  | panic (message : String)
  | failure (e : Failure)
  | invoke
  | keep

/-- What a wrapper does around a call. -/
inductive Wrapper
  /-- Nothing but the call. -/
  | delegate
  /-- The call twice; the first reply is ignored. -/
  | twice
  /-- A failure becomes a value. -/
  | swallow
  /-- A failure becomes another one. -/
  | replaceFailure (e : Failure)
  /-- A value gets some text in front. -/
  | prepend (text : String)
  /-- No call at all. -/
  | skip

/-- What one attempt to connect does. -/
inductive ConnectPlay
  | succeed
  | fail (e : Failure)
  | panic (message : String)

/-- What a requester makes of a failure. -/
inductive ConverterSpec
  | plain
  | around (kind : ErrorKind)
  | replace (kind : ErrorKind) (message : String)
  | panic (message : String)

/-- How to build a requester. -/
structure RequesterSpec where
  name : Option String
  context : Option String
  storage : Option String
  timeout : Option Duration
  retry : Option (Nat × Duration)
  connect : Option ConnectSpec
  failover : Option (List PolicySpec)
  converter : ConverterSpec
  listeners : List (ListenerSpec RequestClass)

/-- Which stages go around a call. -/
inductive StageSpec
  | all | timeout | connect
deriving DecidableEq

/-- The kinds of registers that can be copied. -/
inductive RegisterKind
  | context | storage | invocation | future | requester | failover

/-- How a failover chain is built. -/
inductive FailoverSpec
  | handlers (names : List String)
  | context (name : String)
  | none

/-- What passes a reply through. -/
inductive HandlerRef
  | handler (name : String)
  | chain (name : String)

/-- How asynchronous work ends. -/
inductive WorkSpec
  | value (raw : String)
  | failure (e : Failure)
  | pending

/-- How a scripted call ends. -/
inductive Ending
  | value (v : String)
  | failure (e : Failure)
  | panic (payload : Payload)
  /-- It never ends. -/
  | hang
  /-- With the scope in force. -/
  | scope
  /-- With the context in force, as text. -/
  | context
  /-- As a request does. -/
  | request (requester invocation : String)

/-! ## Steps without steps of their own -/

/-- Steps about plain values. -/
inductive ValueStep
  | error (e : Failure) (pretty : Bool)
  | interval (rule : Pacing) (attempts : List Nat) (pretty : Bool)
  | policy (spec : PolicySpec) (pretty : Bool)
  | retryPolicy (count : Nat) (interval : Duration) (pretty : Bool)
  | strategy (spec : StrategySpec) (pretty : Bool)
  | equal (a b : StrategySpec)
  | response (reply : Reply) (pretty : Bool)
  | emit (event : EventSpec) (panics : List Bool) (times : Nat) (pretty : Bool)

/-- Steps about contexts, guards and storages. -/
inductive ContextStep
  | make (as : String) (source scope : Option String) (strategies : List StrategySpec)
  | describe (context : String) (pretty : Bool)
  | lookup (context : String) (kind : StrategyKind) (pretty : Bool)
  | attach (context : String) (guardName : Option String)
  | release (guardName : String)
  | describeGuard (guardName : String) (pretty : Bool)
  | current
  | detach
  | makeStorage (as : String) (context : Option String)
  | readStorage (storage : String) (as : Option String) (pretty : Bool)
  | writeStorage (storage context : String)
  | updateStorage (storage : String) (scope : Option String) (strategies : List StrategySpec)
  | copy (kind : RegisterKind) (source as : String)

/-- Steps about calls and connections. -/
inductive CallStep
  | describe (invocation : String) (pretty : Bool)
  | invoke (invocation : String)
  | wrap (invocation as : String) (wrapper : Wrapper)
  | decorate (invocation context as : String) (stages : StageSpec) (pretty : Bool)
  | makeConnector (as : String) (connected sticky : Bool) (plan : List ConnectPlay)
  | setConnected (connector : String) (connected : Bool)
  | ensureConnected (spec : ConnectSpec)

/-- Steps about failover handlers. -/
inductive FailoverStep
  | makeHandler (as : String) (spec : RetrySpec) (pretty : Bool)
  | makeProbe (as : String) (priority : Int) (action : ProbeAction)
  | makeChain (as : String) (spec : FailoverSpec) (pretty : Bool)
  | handle (handler : HandlerRef) (invocation : String) (reply : Reply)

/-- Steps about futures and the chains that complete them. -/
inductive FutureStep
  | make (as : String)
  | succeed (future value : String)
  | fail (future : String) (e : Failure)
  | cancel (future : String)
  | isDone (future : String)
  | describe (future : String) (pretty : Bool)
  | get (future : String)
  | getWithin (future : String) (bound : Duration)
  | tryGet (future : String)
  | race (future : String) (writers : Nat) (value : String)
  | describeChain (chain : String) (pretty : Bool)
  | endChain (chain : String) (ending : WorkSpec)
  | listen (chain : String) (work : WorkSpec) (shutDown : Bool)

/-- Steps about requesters. -/
inductive RequestStep
  | make (as : String) (spec : RequesterSpec)
  | describe (requester : String) (as : Option String) (pretty : Bool)
  | request (requester invocation : String)
  | spawn (requester invocation : String) (as : Option String) (shutDown : Bool)

/-! ## All steps -/

mutual

/-- What one attempt of a scripted call does: steps first, then an ending. -/
inductive Play
  | mk (before : Option (List Step)) (ending : Ending)

/-- What converts a raw value. -/
inductive Conversion
  | identity
  /-- The number of bytes. -/
  | length
  /-- The value as a number of 64 bits. -/
  | number
  /-- A panic with a message about the value. -/
  | reject
  /-- A scripted reply. -/
  | play (p : Play)

/-- One step. -/
inductive Step
  | value (s : ValueStep)
  | context (s : ContextStep)
  | call (s : CallStep)
  | failover (s : FailoverStep)
  | future (s : FutureStep)
  | request (s : RequestStep)
  /-- Runs steps with a context attached. -/
  | within (context : String) (steps : List Step)
  /-- Panics; the steps after it are not run. -/
  | panic (message : String)
  /-- Runs steps on another thread. -/
  | thread (steps : List Step)
  /-- Runs several lists of steps, each on a thread. -/
  | parallel (threads : List (List Step))
  /-- Lets readers wait for a future while steps run. -/
  | wait (future : String) (readers : Nat) (bound : Option Duration) (steps : List Step)
  | makeInvocation (as name : String) (parameters : List Layout) (plan : List Play)
  | makeChain (as future : String) (context : Option String) (handler : Option Conversion)
      (pretty : Bool)
  | setHandler (chain : String) (handler : Conversion)

end

end ResilientCalls.Scenario
