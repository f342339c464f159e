import ResilientCalls.Invocation

/-!
# Connecting before a call

A connector is asked whether it is connected; if not, it gets a bounded number of attempts, with a
pause between one and the next.
-/

namespace ResilientCalls

open Text (Layout)
open Program

variable {σ : Type}

/-- Client code that keeps a connection. -/
structure Connector (σ : Type) where
  /-- Whether a connection can be used now. -/
  isConnected : Program σ Bool
  /-- Tries once to connect to an endpoint. -/
  connect : String → Program σ (Except Failure Unit)

/-- The connectors that strategies name. -/
abbrev Network (σ : Type) := ConnectorId → Connector σ

namespace ConnectStrategy

/-- The failure after the last attempt. -/
def failure (s : ConnectStrategy) (last : Failure) : Failure :=
  .connect s.endpoint s.maxAttempts last

/-- Attempts number `attempt` and up, as many as are left; `last` is the failure so far. -/
def connectLoop (s : ConnectStrategy) (connector : Connector σ) :
    Nat → Nat → Failure → Program σ (Except Failure Unit)
  | 0, _, last => do
      log (.gaveUp s.endpoint s.maxAttempts last)
      return .error (s.failure last)
  | left + 1, attempt, _ => do
      log (.connecting s.endpoint attempt s.maxAttempts)
      match ← connector.connect s.endpoint with
      | .ok () => do
          count (.connects s.endpoint true)
          return .ok ()
      | .error e => do
          count (.connects s.endpoint false)
          if attempt < s.maxAttempts then pause s.backoff
          connectLoop s connector left (attempt + 1) e

/-- Makes sure that there is a connection. -/
def ensureConnected (net : Network σ) (s : ConnectStrategy) : Program σ (Except Failure Unit) := do
  if ← (net s.connector).isConnected then return .ok ()
  s.connectLoop (net s.connector) s.maxAttempts 1 (.text "not connected")

end ConnectStrategy

/-- Each attempt first makes sure of the connection, and fails without one. -/
def Invocation.connecting (net : Network σ) (s : ConnectStrategy) (inv : Invocation σ) :
    Invocation σ :=
  inv.wrap fun inner => do
    match ← s.ensureConnected net with
    | .ok () => inner.call
    | .error e => return .error e

end ResilientCalls
