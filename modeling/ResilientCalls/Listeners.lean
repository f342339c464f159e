import ResilientCalls.Attachment

/-!
# Listeners

Client code that is told of events. Each listener hears every event, in the order of registration;
one that panics keeps nothing from the others or from the code that emits.
-/

namespace ResilientCalls

open Text (Layout)
open Program

variable {σ ε : Type}

/-- Client code that is told of events of type `ε`. -/
abbrev Listener (σ ε : Type) := ε → Program σ Unit

/-- Tells every listener of an event. -/
def emit : List (Listener σ ε) → ε → Program σ Unit
  | [], _ => pure ()
  | l :: ls, event => do
      let _ ← (l event).caught
      emit ls event

def listenersLayout (count : Nat) : Layout := .struct "EventListeners" [("len", .nat count)]

/-! ## Events -/

/-- What a failover handler tells its listeners. -/
inductive FailoverEvent
  /-- A retry is about to be made after a pause. -/
  | retry (scope : String) (attempt : Nat) (delay : Duration)
  /-- A retry produced a value. -/
  | success (scope : String) (attempts : Nat)
  | exhausted (scope : String) (attempts : Nat)
deriving DecidableEq

def FailoverEvent.label : FailoverEvent → String
  | retry .. => "retry"
  | success .. => "success"
  | exhausted .. => "exhausted"

def FailoverEvent.scope : FailoverEvent → String
  | retry scope _ _ | success scope _ | exhausted scope _ => scope

/-- What a requester tells its listeners, once for each request. -/
inductive RequestEvent
  | success (scope : String)
  /-- Failover recovered the call. -/
  | recovered (scope : String)
  | error (scope : String) (kind : ErrorKind)
deriving DecidableEq

def RequestEvent.label : RequestEvent → String
  | success _ => "success"
  | recovered _ => "recovered"
  | error .. => "error"

def RequestEvent.scope : RequestEvent → String
  | success scope | recovered scope | error scope _ => scope

end ResilientCalls
