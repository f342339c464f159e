import ResilientCalls.Duration

/-!
# Failures

Everything that can go wrong with a call, kept as it was reported: plain text, input and output
errors, errors already shown to a caller, and the failures this library raises itself.
-/

namespace ResilientCalls

/-- What went wrong in the operating system or on the wire. A kind without a name here, or a number of the operating
system that is not a timeout, stands as `other`, with its text in `Failure.ioOf`: only `timedOut` is told from the rest. -/
inductive IoKind
  | timedOut | connectionRefused | connectionReset | connectionAborted | notConnected | notFound
  | permissionDenied | brokenPipe | wouldBlock | invalidInput | invalidData | interrupted
  | unexpectedEof | other
deriving Repr, DecidableEq

/-- The category under which a caller sees a failed request. -/
inductive ErrorKind
  /-- The transport or the remote side failed. -/
  | transport
  /-- A bounded wait elapsed. -/
  | timeout
  /-- An asynchronous result could not be converted. -/
  | conversion
  /-- Something required is missing or invalid. -/
  | configuration
  /-- The caller passed an argument that cannot be accepted. -/
  | invalidArgument
  /-- The request was cancelled before it completed. -/
  | cancelled
deriving Repr, DecidableEq

/-- The failure of a call. -/
inductive Failure
  | text (message : String)
  /-- An input or output error of which only the kind is known. -/
  | io (kind : IoKind)
  /-- An input or output error around another failure. -/
  | ioOf (kind : IoKind) (inner : Failure)
  /-- An error shown to a caller, without a cause. -/
  | rpc (kind : ErrorKind) (message : String)
  /-- An error shown to a caller, with its cause. -/
  | rpcOf (kind : ErrorKind) (message : String) (cause : Failure)
  /-- A bounded wait elapsed before completion. -/
  | timeout (after : Duration)
  /-- An asynchronous result arrived and nothing was registered to convert it. -/
  | noSuccessHandler
  /-- A required context or strategy is missing or invalid. -/
  | configuration (message : String)
  /-- An argument that cannot be accepted. -/
  | invalidArgument (message : String)
  /-- No connection could be established; the cause is the last connector failure. -/
  | connect (endpoint : String) (attempts : Nat) (cause : Failure)
  /-- A future was completed with a failure. -/
  | failed (cause : Failure)
  /-- The pending operation was cancelled before it completed. -/
  | cancelled
deriving DecidableEq

namespace Failure

/-- Whether this library raises the failure itself. -/
def isCore : Failure → Bool
  | timeout _ | noSuccessHandler | configuration _ | invalidArgument _ | connect .. | failed _
  | cancelled => true
  | text _ | io _ | ioOf .. | rpc .. | rpcOf .. => false

/-- The form in which a future stores a failure: its own kind as it is, any other wrapped once. -/
def settled (e : Failure) : Failure := if e.isCore then e else failed e

/-- What lies behind the failure, nearest first. An input or output error speaks for its inner
failure, so it shows only what lies behind that one. -/
def causes : Failure → List Failure
  | ioOf _ inner => inner.causes
  | rpcOf _ _ cause | connect _ _ cause | failed cause => cause :: cause.causes
  | _ => []

theorem isCore_settled (e : Failure) : e.settled.isCore = true := by
  unfold settled
  split
  · assumption
  · rfl

theorem settled_settled (e : Failure) : e.settled.settled = e.settled := by
  rw [settled, if_pos e.isCore_settled]

end Failure

end ResilientCalls
