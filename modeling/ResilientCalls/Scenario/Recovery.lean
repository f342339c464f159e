import ResilientCalls.Scenario.Calls

/-!
# Steps about failover

Retry handlers with listeners that take notes, probes that show what they are given, and chains of
both.
-/

namespace ResilientCalls.Scenario

open Text (Layout)
open Program

/-! ## Listeners -/

/-- What a listener of a class notes about a failover event. -/
def failoverNote (id : Nat) : FailoverClass → FailoverEvent → Option Report
  | .retry, .retry _ attempt delay =>
      some (.fields [("on", .text "retry"), ("id", .nat id), ("attempt", .nat attempt),
        ("delay", durationReport delay)])
  | .success, .success _ attempts =>
      some (.fields [("on", .text "success"), ("id", .nat id), ("attempts", .nat attempts)])
  | .exhausted, .exhausted _ attempts =>
      some (.fields [("on", .text "exhausted"), ("id", .nat id), ("attempts", .nat attempts)])
  | _, _ => none

/-- A listener that takes a note, if there is one to take, and may then panic. -/
def noteOrPanic (report : Option Report) (panics : Bool) : Program Desk Unit := do
  match report with
  | some r => do
      note r
      if panics then .unwind (.text "listener")
  | none => pure ()

/-- The listeners of a retry handler, numbered in the order of registration. -/
def failoverListeners (specs : List (ListenerSpec FailoverClass)) :
    List (Listener Desk FailoverEvent) :=
  specs.zipIdx.map fun s event => noteOrPanic (failoverNote s.2 s.1.on event) s.1.panics

/-! ## Handlers -/

/-- The handler of its parts. -/
def RetryParts.handler (p : RetryParts) : RetryHandler Desk :=
  ⟨p.count, p.pacing, p.priority, p.name, failoverListeners p.listeners⟩

/-- The parts of a handler, with other listeners. -/
def RetryParts.ofHandler (r : RetryHandler Desk)
    (listeners : List (ListenerSpec FailoverClass)) : RetryParts :=
  ⟨r.count, r.pacing, r.priority, r.name, listeners⟩

/-- The parts of the standard handler with some of them set; a backoff wins over an interval. -/
def RetrySpec.parted (count : Option Nat) (interval : Option Duration) (backoff : Option Backoff)
    (priority : Option Int) (name : Option String) : RetryHandler Desk :=
  let standard : RetryHandler Desk := .standard
  let pacing := match backoff, interval with
    | some b, _ => b.pacing
    | none, some i => .fixed i
    | none, none => standard.pacing
  { standard with
    count := count.getD standard.count
    pacing := pacing
    priority := priority.getD standard.priority
    name := name.getD standard.name }

/-- Builds a retry handler. -/
def RetrySpec.build : RetrySpec → Except Failure RetryParts
  | policy spec =>
      match spec.build with
      | .ok p => .ok (.ofHandler (.ofPolicy p) [])
      | .error e => .error e
  | parts count interval backoff priority name listeners =>
      match (parted count interval backoff priority name).checked with
      | .ok r => .ok (.ofHandler r listeners)
      | .error e => .error e

/-- What a probe does with a reply. -/
def ProbeAction.reply (inv : Invocation Desk) (given : Reply) : ProbeAction → Program Desk Reply
  | value v => return .ok v
  | panic m => .unwind (.text m)
  | failure e => return .error e
  | invoke => inv.call
  | keep => return given

/-- A handler that notes what it is given. -/
def probeHandler (name : String) (priority : Int) (action : ProbeAction) : FailoverHandler Desk where
  priority := priority
  handle inv given := do
    note (.fields [("probe", .text name), ("saw", replyReport given)])
    action.reply inv given
  layout := .struct "Probe"
    [("id", .text name), ("priority", .int priority), ("action", .word "_")]

/-- The handler that a register stands for. -/
def HandlerSpec.handler : HandlerSpec → FailoverHandler Desk
  | retry parts => parts.handler.toHandler
  | probe name priority action => probeHandler name priority action

/-- The chain that a register stands for. -/
def ChainOfHandlers.chain : ChainOfHandlers → FailoverChain Desk
  | handlers specs => .ofList (specs.map HandlerSpec.handler)
  | context c => .ofContext c

/-! ## Steps -/

/-- Builds a chain; only an order that had to be found is told. -/
def FailoverSpec.build : FailoverSpec → Script ChainOfHandlers
  | handlers names => do
      let specs ← names.mapM (fetch Desk.handlers)
      let built := ChainOfHandlers.handlers specs
      effect built.chain.announce
      return built
  | context name => do
      let c ← fetch Desk.contexts name
      let built := ChainOfHandlers.context c
      effect built.chain.announce
      return built
  | none => return .handlers []

/-- Stores a handler. -/
def storeHandler (as : String) (spec : HandlerSpec) : Program Desk Unit :=
  changeUser fun d => { d with handlers := d.handlers.put as spec }

/-- A retry handler by its parts. -/
def describeHandler (r : RetryHandler Desk) (pretty : Bool) : Report :=
  .fields [("count", .nat r.count), ("name", .text r.name), ("priority", .number r.priority),
    ("debug", .text (r.layout.render pretty))]

/-- A chain by its handlers. -/
def describeHandlers (f : FailoverChain Desk) (pretty : Bool) : Report :=
  .fields [("priorities", .list (f.priorities.map .number)), ("len", .nat f.handlers.length),
    ("empty", .flag f.handlers.isEmpty), ("debug", .text (f.layout.render pretty))]

/-- The answer of a step about failover. -/
def FailoverStep.answer (player : Player) : FailoverStep → Script Report
  | makeHandler as spec pretty => do
      let parts ← built spec.build
      effect <| storeHandler as (.retry parts)
      return describeHandler parts.handler pretty
  | makeProbe as priority action => do
      effect <| storeHandler as (.probe as priority action)
      return done
  | makeChain as spec pretty => do
      let f ← spec.build
      change fun d => { d with failovers := d.failovers.put as f }
      return describeHandlers f.chain pretty
  | handle (.handler name) invocation given => do
      let handler ← fetch Desk.handlers name
      let spec ← fetch Desk.invocations invocation
      let reply ← effect (handler.handler.handle (spec.invocation player) given)
      return replyReport reply
  | handle (.chain name) invocation given => do
      let f ← fetch Desk.failovers name
      let spec ← fetch Desk.invocations invocation
      let reply ← effect (f.chain.handle (spec.invocation player) given)
      return replyReport reply

end ResilientCalls.Scenario
