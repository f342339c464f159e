import ResilientCalls.Strategy

/-!
# Contexts

A context is a scope name and a list of strategies. Deriving another context never changes the one
it starts from; attaching a strategy replaces the one of the same kind.
-/

namespace ResilientCalls

open Text (Layout)

/-- What a call runs under. -/
structure Context where
  /-- The name of the call in progress, empty outside any call. -/
  scope : String
  /-- The strategies, in the order they were attached. -/
  strategies : List Strategy
deriving DecidableEq

namespace Context

def empty : Context := ⟨"", []⟩

instance : Inhabited Context := ⟨empty⟩

/-- The same strategies under another scope. -/
def withScope (c : Context) (scope : String) : Context := { c with scope := scope }

/-- One more strategy, at the end; an earlier one of the same kind goes. -/
def withStrategy (c : Context) (s : Strategy) : Context :=
  { c with strategies := c.strategies.filter (·.kind ≠ s.kind) ++ [s] }

/-- Several strategies, one after the other. -/
def withStrategies (c : Context) (ss : List Strategy) : Context := ss.foldl withStrategy c

/-- The strategy of a kind. -/
def get? (c : Context) (kind : StrategyKind) : Option Strategy :=
  c.strategies.find? (·.kind = kind)

def connect? (c : Context) : Option ConnectStrategy :=
  match c.get? .connect with
  | some (.connect s) => some s
  | _ => none

/-- How long an attempt may take. -/
def timeout? (c : Context) : Option TimeoutStrategy :=
  match c.get? .timeout with
  | some (.timeout s) => some s
  | _ => none

/-- Which policies a failed call goes through. -/
def failover? (c : Context) : Option FailoverStrategy :=
  match c.get? .failover with
  | some (.failover s) => some s
  | _ => none

/-- How often a failed call is repeated. -/
def retry? (c : Context) : Option RetryStrategy :=
  match c.get? .retry with
  | some (.retry s) => some s
  | _ => none

def layout (c : Context) : Layout :=
  .struct "Context"
    [("scope", .text c.scope), ("strategies", .list (c.strategies.map Strategy.layout))]

@[simp]
theorem scope_withScope (c : Context) (scope : String) : (c.withScope scope).scope = scope := rfl

@[simp]
theorem get?_withScope (c : Context) (scope : String) (kind : StrategyKind) :
    (c.withScope scope).get? kind = c.get? kind := rfl

@[simp]
theorem scope_withStrategy (c : Context) (s : Strategy) : (c.withStrategy s).scope = c.scope := rfl

/-- A strategy answers for its own kind and leaves the others alone. -/
theorem get?_withStrategy (c : Context) (s : Strategy) (kind : StrategyKind) :
    (c.withStrategy s).get? kind = if s.kind = kind then some s else c.get? kind := by
  unfold withStrategy get?
  rw [List.find?_append, List.find?_filter]
  split
  · rename_i h
    subst h
    rw [List.find?_eq_none.mpr]
    · simp
    · simp
  · rename_i h
    rw [List.find?_singleton]
    simp only [h, decide_false, Bool.false_eq_true, if_false, Option.or_none]
    congr 1
    funext t
    by_cases ht : t.kind = kind
    · subst ht
      simp [Ne.symm h]
    · simp [ht]

end Context

end ResilientCalls
