import ResilientCalls.Scenario.Contexts

/-!
# Steps about calls

Scripted invocations, what can be put around them, and the connectors behind connect strategies.
Scripts that run steps or make requests do so through a `Player`.
-/

namespace ResilientCalls.Scenario

open Program

/-- Plays what is nested in a script. -/
structure Player where
  /-- Runs steps in a list of their own number; ends with the answers up to a panic, and the panic. -/
  steps : Nat → List Step → Program Desk (List Report × Option Payload)
  /-- Makes a request of registers. -/
  request : String → String → Program Desk Reply

/-! ## Scripted calls -/

/-- Ends a scripted call. -/
def Ending.play (player : Player) : Ending → Program Desk Reply
  | value v => return .ok v
  | failure e => return .error e
  | panic p => .unwind p
  | hang => .block
  | scope => do
      let s ← currentScope "<none>"
      return .ok s
  | context => do
      let c ← current
      return .ok (Text.Layout.option (c.map Context.layout)).inline
  | request requester invocation => player.request requester invocation

/-- Runs steps on their own, releases the guards they leave, and notes the answers; a panic among
them goes on. -/
def playBefore (player : Player) (steps : List Step) : Program Desk Unit := do
  let list ← newId
  let (answers, panicked) ← player.steps list steps
  releaseAll list
  match panicked with
  | some p => .unwind p
  | none => note (.fields [("pre", .list answers)])

/-- One attempt of a scripted call. -/
def Play.play (player : Player) : Play → Program Desk Reply
  | mk before ending => do
      if let some steps := before then playBefore player steps
      ending.play player

/-- The entry of a plan for a number; the last entry serves all numbers past the end. -/
def planned {α : Type} (plan : List α) (n : Nat) : Option α :=
  plan[min n (plan.length - 1)]?

/-- One attempt of an invocation: it is numbered and noted, then the plan decides. -/
def scriptedCall (player : Player) (id : Nat) (name : String) (plan : List Play) :
    Program Desk Reply := do
  let before ← perform (.user fun d =>
    { d with calls := fun j => if j = id then d.calls id + 1 else d.calls j })
  let n := before.calls id
  let scope ← scopeNow
  note (.fields [("call", .text name), ("n", .nat n), ("scope", scope)])
  match planned plan n with
  | some p => p.play player
  | none => .unwind (.text "empty plan")

/-- What a wrapper makes of a call. -/
def Wrapper.call (inner : Invocation Desk) : Wrapper → Program Desk Reply
  | delegate => inner.call
  | twice => do
      let _ ← inner.call
      inner.call
  | swallow => do
      match ← inner.call with
      | .ok v => return .ok v
      | .error e => return .ok ("swallowed: " ++ e.message)
  | replaceFailure other => do
      match ← inner.call with
      | .ok v => return .ok v
      | .error _ => return .error other
  | prepend text => do
      match ← inner.call with
      | .ok v => return .ok (text ++ v)
      | .error e => return .error e
  | skip => return .ok "skipped"

/-! ## Connectors -/

/-- Changes the state behind a connector. -/
def changeConnection (id : ConnectorId) (f : ConnectorState → ConnectorState) (d : Desk) : Desk :=
  { d with connections := fun j => if j = id then f (d.connections id) else d.connections j }

/-- One scripted attempt to connect. -/
def connectAs (id : ConnectorId) (endpoint : String) : Program Desk (Except Failure Unit) := do
  let before ← perform (.user (changeConnection id fun c => { c with attempts := c.attempts + 1 }))
  let state := before.connections id
  note (.fields [("connect", .text endpoint), ("n", .nat state.attempts)])
  match (planned state.plan state.attempts).getD .succeed with
  | .succeed => do
      if state.sticky then
        changeUser (changeConnection id fun c => { c with connected := true })
      return .ok ()
  | .fail e => return .error e
  | .panic m => .unwind (.text m)

/-- The connectors of a scenario. -/
def network : Network Desk := fun id =>
  { isConnected := do
      let d ← desk
      let connected := (d.connections id).connected
      note (.fields [("is_connected", .flag connected)])
      return connected
    connect := connectAs id }

/-! ## Invocations -/

/-- The invocation that a register stands for. -/
def CallSpec.invocation (player : Player) : CallSpec → Invocation Desk
  | scripted id name parameters plan => ⟨name, parameters, scriptedCall player id name plan⟩
  | wrapped inner wrapper => (inner.invocation player).wrap wrapper.call
  | decorated inner stages => stages.apply network (inner.invocation player)

/-- Stores an invocation. -/
def storeCall (as : String) (spec : CallSpec) : Program Desk Unit :=
  changeUser fun d => { d with invocations := d.invocations.put as spec }

/-- The stages to put around a call, and how they are shown. -/
def StageSpec.resolve (spec : StageSpec) (c : Context) (pretty : Bool) :
    Script (Decoration × Report) := do
  let whole := Decoration.ofContext c
  match spec with
  | all => return (whole, .text (whole.layout.render pretty))
  | timeout => do
      let some s := whole.timeout | throw (badInput "no timeout strategy")
      return (⟨none, some s⟩,
        .list [.text (s.stageLayout.render pretty), durationReport s.timeout])
  | connect => do
      let some s := whole.connect | throw (badInput "no connect strategy")
      return (⟨some s, none⟩, .list [.text (s.stageLayout.render pretty), .text s.endpoint])

/-- An invocation by name, parameters and text. -/
def describeInvocation (inv : Invocation Desk) (pretty : Bool) : Report :=
  .fields [("name", .text inv.name),
    ("parameters", .list (inv.parameters.map fun p => .text p.inline)),
    ("display", .text inv.toText), ("debug", .text (inv.layout.render pretty))]

/-- The answer of a step about calls. -/
def CallStep.answer (player : Player) : CallStep → Script Report
  | describe invocation pretty => do
      let spec ← fetch Desk.invocations invocation
      return describeInvocation (spec.invocation player) pretty
  | invoke invocation => do
      let spec ← fetch Desk.invocations invocation
      let reply ← effect (spec.invocation player).call
      return replyReport reply
  | wrap invocation as wrapper => do
      let spec ← fetch Desk.invocations invocation
      effect <| storeCall as (.wrapped spec wrapper)
      return done
  | decorate invocation context as stages pretty => do
      let spec ← fetch Desk.invocations invocation
      let c ← fetch Desk.contexts context
      let (decoration, shown) ← stages.resolve c pretty
      effect <| storeCall as (.decorated spec decoration)
      return .fields [("stages", kindsReport (Decoration.ofContext c).stages), ("debug", shown)]
  | makeConnector as connected sticky plan => do
      let id ← effect newId
      change (changeConnection id fun _ => ⟨connected, sticky, plan, 0⟩)
      change fun d => { d with connectors := d.connectors.put as id }
      return done
  | setConnected connector connected => do
      let id ← fetch Desk.connectors connector
      change (changeConnection id fun c => { c with connected := connected })
      return done
  | ensureConnected spec => do
      let s ← spec.build
      match ← effect (s.ensureConnected network) with
      | .ok () => return .fields [("ok", .text "connected")]
      | .error e => return failureReport e

end ResilientCalls.Scenario
