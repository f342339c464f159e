import ResilientCalls.Deadline
import ResilientCalls.Future.Chain
import ResilientCalls.Scenario.Answer

/-!
# The state of a scenario

Registers hold what steps made; behind them are the states of connectors, the numbers of calls made
so far, and the guards that each list of steps holds.
-/

namespace ResilientCalls.Scenario

open Text (Layout)
open Program

/-! ## Registers -/

/-- A register file; the entry of a name that was stored last counts. -/
abbrev Shelf (α : Type) := List (String × α)

/-- Stores a value under a name. -/
def Shelf.put {α : Type} (s : Shelf α) (name : String) (value : α) : Shelf α :=
  (name, value) :: s.filter (·.1 ≠ name)

/-- An invocation: its script, or another one with something around it. -/
inductive CallSpec
  | scripted (id : Nat) (name : String) (parameters : List Layout) (plan : List Play)
  | wrapped (inner : CallSpec) (wrapper : Wrapper)
  | decorated (inner : CallSpec) (stages : Decoration)

/-- A retry handler of a scenario; its listeners take notes. -/
structure RetryParts where
  count : Nat
  pacing : Pacing
  priority : Int
  name : String
  listeners : List (ListenerSpec FailoverClass)

/-- A failover handler of a scenario. -/
inductive HandlerSpec
  | retry (parts : RetryParts)
  | probe (name : String) (priority : Int) (action : ProbeAction)

/-- A failover chain of a scenario. -/
inductive ChainOfHandlers
  | handlers (specs : List HandlerSpec)
  | context (c : Context)

/-- A requester of a scenario. -/
structure RequesterParts where
  name : String
  storage : StorageId
  converter : ConverterSpec
  listeners : List (ListenerSpec RequestClass)

/-- A connector: whether it is connected, whether it stays so, its script and the attempts made. -/
structure ConnectorState where
  connected : Bool
  sticky : Bool
  plan : List ConnectPlay
  attempts : Nat

/-- A guard that a list of steps holds under a name. -/
structure HeldGuard where
  list : Nat
  name : String
  guard : Guard

/-- The whole state. -/
structure Desk where
  /-- Whether counters and samples are shown. -/
  metrics : Bool
  /-- Whether traces are shown. -/
  trace : Bool
  contexts : Shelf Context
  storages : Shelf StorageId
  invocations : Shelf CallSpec
  futures : Shelf FutureId
  chains : Shelf (Chain Conversion)
  handlers : Shelf HandlerSpec
  failovers : Shelf ChainOfHandlers
  connectors : Shelf ConnectorId
  requesters : Shelf RequesterParts
  /-- What is behind each connector. -/
  connections : ConnectorId → ConnectorState
  /-- How often each invocation was called. -/
  calls : Nat → Nat
  /-- The guards held, the newest first. -/
  guards : List HeldGuard
  /-- What each forked thread has reported. -/
  reports : FutureId → Report
  /-- The next unused number. -/
  nextId : Nat
  /-- The number of journal entries read so far. -/
  journalRead : Nat
  /-- What was read of them and no answer has taken. -/
  untaken : List Report
  /-- Whether answers leave out the journal. -/
  muted : Bool

/-- Empty registers. -/
def Desk.empty (metrics trace : Bool) : Desk where
  metrics := metrics
  trace := trace
  contexts := []
  storages := []
  invocations := []
  futures := []
  chains := []
  handlers := []
  failovers := []
  connectors := []
  requesters := []
  connections _ := ⟨false, true, [], 0⟩
  calls _ := 0
  guards := []
  reports _ := .nothing
  nextId := 0
  journalRead := 0
  untaken := []
  muted := false

/-! ## Scripts -/

/-- Work on a step, which may end early with an answer. -/
abbrev Script := ExceptT Report (Program Desk)

/-- The state now. -/
def desk : Program Desk Desk := userState

/-- A program as part of a script. -/
def effect {α : Type} (p : Program Desk α) : Script α := ExceptT.lift p

/-- Changes the state. -/
def change (f : Desk → Desk) : Script Unit := effect (changeUser f)

/-- Ends early with a failure as the answer. -/
def refuse {α : Type} (e : Failure) : Script α := throw (failureReport e)

/-- Goes on with what was built, or ends early with the failure. -/
def built {α : Type} : Except Failure α → Script α
  | .ok a => pure a
  | .error e => refuse e

/-- The value in a register. -/
def fetch {α : Type} (shelf : Desk → Shelf α) (name : String) : Script α := do
  match List.lookup name (shelf (← effect desk)) with
  | some a => pure a
  | none => throw (badInput ("no register " ++ name))

/-- The value in a register that may not be asked for. -/
def fetch? {α : Type} (shelf : Desk → Shelf α) : Option String → Script (Option α)
  | some name => some <$> fetch shelf name
  | none => pure none

/-- The answer of a script. -/
def answerOf (s : Script Report) : Program Desk Report := do
  match ← s.run with
  | .ok r => return r
  | .error r => return r

/-- A number that was not used before. -/
def newId : Program Desk Nat := do
  let before ← perform (.user fun d => { d with nextId := d.nextId + 1 })
  return before.nextId

/-- The scope in force, as an answer. -/
def scopeNow : Program Desk Report := scopeReport <$> current

/-! ## Threads -/

/-- The time that a forked thread gets before the code that forked it goes on. -/
def headStart : Duration := .ofNanos 1 (by decide)

/-- Starts work on a thread of its own and goes on; the future completes when the work is done. -/
def fork (work : Program Desk Report) : Program Desk FutureId := do
  let ended ← perform .newFuture
  let _ ← onWorker (some headStart) do
    let r ← work
    changeUser fun d => { d with reports := fun j => if j = ended then r else d.reports j }
    Future.succeed ended ""
  return ended

/-- Waits for a forked thread and answers what it reports. -/
def join (ended : FutureId) : Program Desk Report := do
  let _ ← Future.get ended
  return (← desk).reports ended

/-! ## Guards -/

/-- The newest guard of a list under a name. -/
def heldGuard (list : Nat) (name : String) : Script Guard := do
  match (← effect desk).guards.find? fun g => g.list = list ∧ g.name = name with
  | some g => pure g.guard
  | none => throw (badInput ("no guard " ++ name))

/-- Drops the newest guard of a list under a name. -/
def dropGuard (list : Nat) (name : String) (guards : List HeldGuard) : List HeldGuard :=
  guards.eraseP fun g => g.list = list ∧ g.name = name

/-- Releases guards in order. -/
def releaseEach : List HeldGuard → Program Desk Unit
  | [] => pure ()
  | g :: gs => do
      g.guard.release
      releaseEach gs

/-- Releases the guards that a list of steps still holds, the newest first. -/
def releaseAll (list : Nat) : Program Desk Unit := do
  let before ← perform (.user fun d => { d with guards := d.guards.filter (·.list ≠ list) })
  releaseEach (before.guards.filter (·.list = list))

/-! ## The journal in answers -/

/-- Reads what the journal has that is new and to be shown; ends with all that no answer has
taken. -/
def readJournal : Program Desk (List Report) := do
  let journal ← perform .recorded
  let shown (d : Desk) : List Report :=
    (journal.drop d.journalRead).filterMap (entryReport? d.metrics d.trace)
  changeUser fun d =>
    { d with untaken := d.untaken ++ shown d, journalRead := journal.length }
  return (← desk).untaken

/-- Takes the entries after the first `mark` that no answer has taken. -/
def takeAfter (mark : Nat) : Program Desk (List Report) := do
  let entries ← readJournal
  changeUser fun d => { d with untaken := d.untaken.take mark }
  return entries.drop mark

/-- The answer of a step together with the journal entries it caused; a panic is an answer too. -/
def answered (body : Program Desk Report) : Program Desk Report := do
  let before ← readJournal
  let result ← body.caught
  let entries ← takeAfter before.length
  let r := match result with
    | .ok r => r
    | .error p => panicReport p
  let silent := entries.isEmpty || (← desk).muted
  return .fields ([("r", r)] ++ if silent then [] else [("log", .list entries)])

end ResilientCalls.Scenario
