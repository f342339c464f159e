import ResilientCalls.Invocation

/-!
# Attempts under a bound

Each attempt runs on a worker of its own, with the caller's context attached there. The caller waits
as long as the bound says; a worker that is late goes on unheard.
-/

namespace ResilientCalls

open Program

variable {σ : Type}

/-- One attempt as the worker makes it: under the caller's context, if there is one. -/
def Invocation.underContext (caller : Option Context) (inv : Invocation σ) : Program σ Reply :=
  match caller with
  | some c => withContext c inv.call
  | none => inv.call

/-- Runs code on a thread of its own and waits for it. A thread can always be started: that the system refuses one,
which would end the attempt with that error and without a call, is left out. -/
def onWorker {β : Type} (bound : Option Duration) (body : Program σ β) : Program σ (Delivery β) :=
  .worker none body bound .done

/-- Each attempt runs on a worker, which can be started (`onWorker`), and has only so much time. -/
def Invocation.within (bound : Duration) (inv : Invocation σ) : Invocation σ :=
  inv.wrap fun inner => do
    let caller ← current
    match ← onWorker (some bound) (inner.underContext caller) with
    | .delivered reply => return reply
    | .crashed => return .error inner.panicked
    | .elapsed => do
        log (.timedOut inner.name bound)
        let scope ← currentScope inner.name
        count (.timeouts scope)
        return .error (.timeout bound)

end ResilientCalls
