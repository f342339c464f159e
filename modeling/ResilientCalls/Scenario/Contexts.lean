import ResilientCalls.Scenario.Values

/-!
# Steps about contexts

Deriving contexts, attaching them to the thread, and storages. Guards belong to the list of steps
in which they were made.
-/

namespace ResilientCalls.Scenario

open Program

/-- Builds strategies in order. -/
def buildStrategies (specs : List StrategySpec) : Script (List Strategy) :=
  specs.mapM StrategySpec.build

/-- A context derived from another. -/
def derive (c : Context) (scope : Option String) (strategies : List Strategy) : Context :=
  let base := match scope with
    | some s => c.withScope s
    | none => c
  base.withStrategies strategies

/-- Whether the getter of a kind finds a strategy. -/
def isTypedFound (c : Context) : StrategyKind → Bool
  | .connect => c.connect?.isSome
  | .timeout => c.timeout?.isSome
  | .failover => c.failover?.isSome
  | .retry => c.retry?.isSome

/-- Copies a register. -/
def copyRegister (kind : RegisterKind) (source as : String) : Script Unit := do
  match kind with
  | .context => do
      let c ← fetch Desk.contexts source
      change fun d => { d with contexts := d.contexts.put as c }
  | .storage => do
      let i ← fetch Desk.storages source
      change fun d => { d with storages := d.storages.put as i }
  | .invocation => do
      let i ← fetch Desk.invocations source
      change fun d => { d with invocations := d.invocations.put as i }
  | .future => do
      let i ← fetch Desk.futures source
      change fun d => { d with futures := d.futures.put as i }
  | .requester => do
      let r ← fetch Desk.requesters source
      change fun d => { d with requesters := d.requesters.put as r }
  | .failover => do
      let f ← fetch Desk.failovers source
      change fun d => { d with failovers := d.failovers.put as f }

/-- Attaches a context; without a name nobody can release the guard. -/
def attachAs (list : Nat) (c : Context) (guardName : Option String) : Program Desk Unit := do
  let guard ← attach c
  if let some name := guardName then
    changeUser fun d => { d with guards := ⟨list, name, guard⟩ :: d.guards }

/-- The answer of a step about contexts in a list of steps. -/
def ContextStep.answer (list : Nat) : ContextStep → Script Report
  | make as source scope strategies => do
      let base ← fetch? Desk.contexts source
      let strategies ← buildStrategies strategies
      let c := derive (base.getD .empty) scope strategies
      change fun d => { d with contexts := d.contexts.put as c }
      return contextReport c
  | describe context pretty => do
      let c ← fetch Desk.contexts context
      return .fields (contextFields c ++ [("debug", .text (c.layout.render pretty))])
  | lookup context kind pretty => do
      let c ← fetch Desk.contexts context
      return .fields [("kind", .text kind.name),
        ("strategy", .option ((c.get? kind).map fun s => strategyReport s pretty)),
        ("typed", .flag (isTypedFound c kind))]
  | attach context guardName => do
      let c ← fetch Desk.contexts context
      effect (attachAs list c guardName)
      effect scopeNow
  | release guardName => do
      let guard ← heldGuard list guardName
      change fun d => { d with guards := dropGuard list guardName d.guards }
      effect guard.release
      effect scopeNow
  | describeGuard guardName pretty => do
      let guard ← heldGuard list guardName
      return .text (guard.layout.render pretty)
  | current => do
      let c ← effect ResilientCalls.current
      return .option (c.map contextReport)
  | detach => do
      let c ← effect ResilientCalls.detach
      return scopeReport c
  | makeStorage as context => do
      let c ← fetch? Desk.contexts context
      let i ← effect (perform (.newStorage (c.getD .empty)))
      change fun d => { d with storages := d.storages.put as i }
      return done
  | readStorage storage as pretty => do
      let i ← fetch Desk.storages storage
      let c ← effect (Storage.get i)
      if let some name := as then
        change fun d => { d with contexts := d.contexts.put name c }
      return .fields (contextFields c ++ [("debug", .text ((Storage.layout c).render pretty))])
  | writeStorage storage context => do
      let i ← fetch Desk.storages storage
      let c ← fetch Desk.contexts context
      let before ← effect (Storage.set i c)
      return contextReport before
  | updateStorage storage scope strategies => do
      let i ← fetch Desk.storages storage
      let strategies ← buildStrategies strategies
      effect (Storage.update i fun c => derive c scope strategies)
      let after ← effect (Storage.get i)
      return contextReport after
  | copy kind source as => do
      copyRegister kind source as
      return done

end ResilientCalls.Scenario
