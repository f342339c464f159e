import ResilientCalls.Requester.Settings
import ResilientCalls.Requester.Spawn
import ResilientCalls.Scenario.Futures

/-!
# Steps about requests

Requesters with scripted conversions and listeners that take notes, their requests, and requests
on other threads.
-/

namespace ResilientCalls.Scenario

open Program

/-! ## Requesters -/

/-- What a listener of a class notes about a request event. -/
def requestNote (id : Nat) : RequestClass → RequestEvent → Option Report
  | .success, .success _ => some (.fields [("on", .text "success"), ("id", .nat id)])
  | .recovered, .recovered _ => some (.fields [("on", .text "recovered"), ("id", .nat id)])
  | .error, .error _ kind =>
      some (.fields [("on", .text "error"), ("id", .nat id), ("kind", .text kind.label)])
  | _, _ => none

/-- The listeners of a requester, numbered in the order of registration. -/
def requestListeners (specs : List (ListenerSpec RequestClass)) :
    List (Listener Desk RequestEvent) :=
  specs.zipIdx.map fun s event => noteOrPanic (requestNote s.2 s.1.on event) s.1.panics

/-- What a requester makes of a failure. -/
def ConverterSpec.convert (spec : ConverterSpec) (e : Failure) : Program Desk RpcError :=
  match spec with
  | plain => convertPlainly e
  | around kind => return .around kind e
  | replace kind message => return ⟨kind, message, none⟩
  | panic message => .unwind (.text message)

/-- The requester that a register stands for. -/
def RequesterParts.requester (p : RequesterParts) : Requester Desk :=
  ⟨p.name, p.storage, p.converter.convert, requestListeners p.listeners⟩

/-- The settings of a requester. -/
def RequesterSpec.settings (s : RequesterSpec) : Script Settings := do
  let context ← fetch? Desk.contexts s.context
  let storage ← fetch? Desk.storages s.storage
  let connect ← s.connect.mapM ConnectSpec.build
  let failover ← s.failover.mapM buildFailover
  return ⟨s.name, context, storage, s.timeout, s.retry, connect, failover⟩

/-- Builds a requester and stores it. -/
def makeRequester (as : String) (spec : RequesterSpec) : Script Report := do
  let settings ← spec.settings
  let storage ← built (← effect settings.apply)
  let name := settings.name.getD Settings.defaultName
  change fun d =>
    { d with requesters := d.requesters.put as ⟨name, storage, spec.converter, spec.listeners⟩ }
  let stored ← effect (Storage.get storage)
  return contextReport stored

/-! ## Requests -/

/-- The reply of a request: its value, or its error as a failure. -/
def requestReply (player : Player) (parts : RequesterParts) (call : CallSpec) :
    Program Desk Reply := do
  match ← parts.requester.request network (call.invocation player) with
  | .ok v => return .ok v
  | .error e => return .error e.toFailure

/-- Makes the request of two registers. -/
def requestByName (player : Player) (requester invocation : String) : Script Reply := do
  let parts ← fetch Desk.requesters requester
  let call ← fetch Desk.invocations invocation
  effect (requestReply player parts call)

/-- Spawns a request, lets its task run or drops it, and shows the outcome. -/
def spawnNow (player : Player) (parts : RequesterParts) (call : CallSpec) (shutDown : Bool) :
    Program Desk Spawned := do
  let r := parts.requester
  let spawned ← r.spawn
  match spawned.task with
  | some task =>
      if shutDown then task.drop
      else
        let _ ← onWorker none (r.runTask network (call.invocation player) task)
  | none => pure ()
  return spawned

/-- The answer of a step about requests. -/
def RequestStep.answer (player : Player) : RequestStep → Script Report
  | make as spec => makeRequester as spec
  | describe requester as pretty => do
      let parts ← fetch Desk.requesters requester
      let stored ← effect (Storage.get parts.storage)
      if let some name := as then
        change fun d => { d with storages := d.storages.put name parts.storage }
      return .fields (contextFields stored
        ++ [("debug", .text ((parts.requester.layout stored).render pretty))])
  | request requester invocation => do
      let reply ← requestByName player requester invocation
      return replyReport reply
  | spawn requester invocation as shutDown => do
      let parts ← fetch Desk.requesters requester
      let call ← fetch Desk.invocations invocation
      let spawned ← effect (spawnNow player parts call shutDown)
      if let some name := as then
        change fun d => { d with futures := d.futures.put name spawned.future }
      let reply ← effect (Future.get spawned.future)
      return replyReport reply

end ResilientCalls.Scenario
