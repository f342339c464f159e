import ResilientCalls.Failover.Retry

/-!
# Handlers in order

A failed reply passes through the handlers by ascending priority, handlers of one priority in the
order supplied, until one of them succeeds.
-/

namespace ResilientCalls

open Text (Layout)
open Program

variable {σ : Type}

/-- Anything that may turn a failed reply into a successful one. -/
structure FailoverHandler (σ : Type) where
  /-- Handlers with a lower priority run first. -/
  priority : Int
  /-- What the handler makes of a reply. -/
  handle : Invocation σ → Reply → Program σ Reply
  layout : Layout

/-- A retry handler among others. -/
def RetryHandler.toHandler (r : RetryHandler σ) : FailoverHandler σ :=
  ⟨r.priority, r.handle, r.layout⟩

/-- Handlers in the order in which they run. -/
structure FailoverChain (σ : Type) where
  handlers : List (FailoverHandler σ)

namespace FailoverChain

/-- Sorts by ascending priority; handlers of one priority keep their order. -/
def ofList (hs : List (FailoverHandler σ)) : FailoverChain σ :=
  ⟨hs.mergeSort fun a b => a.priority ≤ b.priority⟩

/-- The policies of a context: its retry strategy first, then those of its failover strategy. -/
def policies (c : Context) : List RetryPolicy :=
  (c.retry?.map RetryPolicy.ofRetryStrategy).toList
    ++ (c.failover?.map FailoverStrategy.policies).getD []

/-- The handlers that a context asks for. -/
def ofContext (c : Context) : FailoverChain σ :=
  ofList ((policies c).map fun p => (RetryHandler.ofPolicy p).toHandler)

def priorities (f : FailoverChain σ) : List Int := f.handlers.map (·.priority)

/-- Tells the order of the handlers. -/
def announce (f : FailoverChain σ) : Program σ Unit := log (.ordered f.priorities)

/-- Passes a reply from handler to handler while it is a failure. -/
def handleAll (inv : Invocation σ) : List (FailoverHandler σ) → Reply → Program σ Reply
  | [], reply => return reply
  | _ :: _, .ok v => return .ok v
  | h :: hs, .error e => do
      log (.handlerInvoked inv.name h.priority)
      let reply ← h.handle inv (.error e)
      handleAll inv hs reply

/-- Passes a reply through the chain. -/
def handle (f : FailoverChain σ) (inv : Invocation σ) (reply : Reply) : Program σ Reply :=
  handleAll inv f.handlers reply

def layout (f : FailoverChain σ) : Layout :=
  .struct "FailoverHandlerChain" [("handlers", .list (f.handlers.map (·.layout)))]

/-- Sorting loses no handler and adds none. -/
theorem perm_ofList (hs : List (FailoverHandler σ)) : (ofList hs).handlers.Perm hs :=
  List.mergeSort_perm hs _

end FailoverChain

end ResilientCalls
