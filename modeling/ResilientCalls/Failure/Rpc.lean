import ResilientCalls.Failure.Text

/-!
# The error a caller sees

Each failure has one category, whatever it is wrapped in. `RpcError.ofFailure` gives a caller that
category, the failure's own message and the failure as the cause; an error that a caller could
already see passes unchanged.
-/

namespace ResilientCalls

/-- The one error a request returns when it has no value. -/
structure RpcError where
  /-- The category. -/
  kind : ErrorKind
  /-- What went wrong. -/
  message : String
  /-- The failure behind it, if it is kept. -/
  cause : Option Failure
deriving DecidableEq

/-- The category of a failure; one that completed a future counts as what it wraps. -/
def Failure.kind : Failure → ErrorKind
  | rpc kind _ | rpcOf kind _ _ => kind
  | timeout _ => .timeout
  | noSuccessHandler => .conversion
  | configuration _ => .configuration
  | invalidArgument _ => .invalidArgument
  | cancelled => .cancelled
  | failed cause => cause.kind
  | io kind | ioOf kind _ => if kind = .timedOut then .timeout else .transport
  | connect .. | text _ => .transport

namespace RpcError

/-- The error as the failure of a call that reports it. -/
def toFailure (e : RpcError) : Failure :=
  match e.cause with
  | none => .rpc e.kind e.message
  | some cause => .rpcOf e.kind e.message cause

/-- An error that keeps its cause and takes its message. -/
def around (kind : ErrorKind) (cause : Failure) : RpcError := ⟨kind, cause.message, some cause⟩

/-- The error for a failure that nothing recovered. -/
def ofFailure (e : Failure) : RpcError :=
  match e with
  | .rpc kind m => ⟨kind, m, none⟩
  | .rpcOf kind m cause => ⟨kind, m, some cause⟩
  | e => around e.kind e

@[simp]
theorem kind_toFailure (e : RpcError) : e.toFailure.kind = e.kind := by
  obtain ⟨kind, m, cause⟩ := e
  cases cause <;> rfl

@[simp]
theorem ofFailure_toFailure (e : RpcError) : ofFailure e.toFailure = e := by
  obtain ⟨kind, m, cause⟩ := e
  cases cause <;> rfl

@[simp]
theorem kind_ofFailure (e : Failure) : (ofFailure e).kind = e.kind := by
  cases e <;> rfl

end RpcError

/-- Wrapping a failure for a future keeps its category. -/
@[simp]
theorem Failure.kind_settled (e : Failure) : e.settled.kind = e.kind := by
  unfold settled
  split <;> rfl

end ResilientCalls
