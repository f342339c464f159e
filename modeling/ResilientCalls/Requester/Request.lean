import ResilientCalls.Decoration
import ResilientCalls.Failover.Chain
import ResilientCalls.Failure.Rpc

/-!
# Requests

A request derives a context scoped to the call, attaches it, makes the call with all that the
context asks for, and returns a value or exactly one error.
-/

namespace ResilientCalls

open Text (Layout)
open Program

variable {σ : Type}

structure Requester (σ : Type) where
  name : String
  /-- Where the base context comes from when the thread has none attached. -/
  storage : StorageId
  /-- What a caller sees of a failure that nothing recovered. -/
  convert : Failure → Program σ RpcError
  /-- Who is told how requests end. -/
  listeners : List (Listener σ RequestEvent)

/-- The usual conversion keeps the category and the cause of a failure. -/
def convertPlainly (e : Failure) : Program σ RpcError := return .ofFailure e

namespace Requester

/-- How the work of a request ends. -/
inductive Outcome
  | success (value : String)
  | recovered (value : String)
  | failed (error : Failure)
deriving DecidableEq

/-- The context a call starts from: the attached one, else the stored one. -/
def base (r : Requester σ) : Program σ Context := do
  match ← current with
  | some c => return c
  | none => Storage.get r.storage

/-- Sends a failure through the failover handlers of the context. -/
def recover (r : Requester σ) (c : Context) (inv : Invocation σ) (e : Failure) :
    Program σ Outcome := do
  let chain := FailoverChain.ofContext c
  chain.announce
  if chain.handlers.isEmpty then return .failed e
  log (.routed r.name c.scope chain.handlers.length e)
  match ← chain.handle inv (.error e) with
  | .ok v => return .recovered v
  | .error e => return .failed e

/-- Makes the call with the stages of the context, then fails over. -/
def execute (net : Network σ) (r : Requester σ) (c : Context) (inv : Invocation σ) :
    Program σ Outcome := do
  let decorated := (Decoration.ofContext c).apply net inv
  match ← decorated.attempt with
  | .ok v => return .success v
  | .error e => r.recover c decorated e

/-- Counts and tells how the request ended, and gives the caller the value or the error. -/
def conclude (r : Requester σ) (scope : String) : Outcome → Program σ (Except RpcError String)
  | .success v => do
      count (.requests scope .success)
      emit r.listeners (.success scope)
      return .ok v
  | .recovered v => do
      count (.requests scope .recovered)
      emit r.listeners (.recovered scope)
      return .ok v
  | .failed e => do
      let error ← r.convert e
      log (.requestFailed r.name scope error.kind error.toFailure)
      count (.requests scope .error)
      emit r.listeners (.error scope error.kind)
      return .error error

def request (net : Network σ) (r : Requester σ) (inv : Invocation σ) :
    Program σ (Except RpcError String) := do
  let base ← r.base
  let c := base.withScope inv.name
  withContext c do
    let outcome ← r.execute net c inv
    record (.sampled c.scope)
    r.conclude c.scope outcome

/-- The requester with its settings; the conversion is not shown. -/
def layout (r : Requester σ) (stored : Context) : Layout :=
  .struct "Requester"
    [("config", .record "RequesterConfig"
      [.field "name" (.text r.name), .field "storage" (Storage.layout stored),
        .field "event_listeners" (listenersLayout r.listeners.length)] true)]

end Requester

end ResilientCalls
