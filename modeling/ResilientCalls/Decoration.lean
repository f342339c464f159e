import ResilientCalls.Connection
import ResilientCalls.Deadline

/-!
# What a context makes of a call

The connection comes first, then the bound, then the call itself; a stage that the context does not
ask for is left out.
-/

namespace ResilientCalls

open Text (Layout)

variable {σ : Type}

/-- The stages around a call. -/
structure Decoration where
  connect : Option ConnectStrategy
  timeout : Option TimeoutStrategy
deriving DecidableEq

/-- A connect stage. -/
def ConnectStrategy.stageLayout (s : ConnectStrategy) : Layout :=
  .struct "ConnectLayer" [("strategy", s.layout)]

/-- A timeout stage. -/
def TimeoutStrategy.stageLayout (s : TimeoutStrategy) : Layout :=
  .struct "TimeoutLayer" [("timeout", s.timeout.layout)]

namespace Decoration

/-- The stages a context asks for. -/
def ofContext (c : Context) : Decoration := ⟨c.connect?, c.timeout?⟩

/-- What the stages are about, the outermost first. -/
def stages (d : Decoration) : List StrategyKind :=
  (if d.connect.isSome then [.connect] else []) ++ if d.timeout.isSome then [.timeout] else []

/-- The bound around a call, if there is one. -/
def bounded (d : Decoration) (inv : Invocation σ) : Invocation σ :=
  match d.timeout with
  | some s => inv.within s.timeout
  | none => inv

/-- All stages around a call. -/
def apply (net : Network σ) (d : Decoration) (inv : Invocation σ) : Invocation σ :=
  match d.connect with
  | some s => (d.bounded inv).connecting net s
  | none => d.bounded inv

def layout (d : Decoration) : Layout :=
  .struct "StrategyChain"
    [("connect", .option (d.connect.map ConnectStrategy.stageLayout)),
      ("timeout", .option (d.timeout.map TimeoutStrategy.stageLayout))]

@[simp]
theorem name_apply (net : Network σ) (d : Decoration) (inv : Invocation σ) :
    (d.apply net inv).name = inv.name := by
  obtain ⟨connect, timeout⟩ := d
  cases connect <;> cases timeout <;> rfl

end Decoration

end ResilientCalls
