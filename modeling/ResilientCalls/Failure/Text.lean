import ResilientCalls.Failure.Basic
import ResilientCalls.Text.Layout

/-!
# How failures read

`Failure.message` is the sentence shown to people, `Failure.layout` the full structure.
-/

namespace ResilientCalls

open Text (Layout)

def IoKind.name : IoKind → String
  | timedOut => "TimedOut"
  | connectionRefused => "ConnectionRefused"
  | connectionReset => "ConnectionReset"
  | connectionAborted => "ConnectionAborted"
  | notConnected => "NotConnected"
  | notFound => "NotFound"
  | permissionDenied => "PermissionDenied"
  | brokenPipe => "BrokenPipe"
  | wouldBlock => "WouldBlock"
  | invalidInput => "InvalidInput"
  | invalidData => "InvalidData"
  | interrupted => "Interrupted"
  | unexpectedEof => "UnexpectedEof"
  | other => "Other"

/-- The kind in words. -/
def IoKind.message : IoKind → String
  | timedOut => "timed out"
  | connectionRefused => "connection refused"
  | connectionReset => "connection reset"
  | connectionAborted => "connection aborted"
  | notConnected => "not connected"
  | notFound => "entity not found"
  | permissionDenied => "permission denied"
  | brokenPipe => "broken pipe"
  | wouldBlock => "operation would block"
  | invalidInput => "invalid input parameter"
  | invalidData => "invalid data"
  | interrupted => "operation interrupted"
  | unexpectedEof => "unexpected end of file"
  | other => "other error"

def IoKind.all : List IoKind :=
  [timedOut, connectionRefused, connectionReset, connectionAborted, notConnected, notFound,
    permissionDenied, brokenPipe, wouldBlock, invalidInput, invalidData, interrupted,
    unexpectedEof, other]

/-- The kind of that name. -/
def IoKind.ofName? (name : String) : Option IoKind := IoKind.all.find? (·.name == name)

/-- The category in lower case, as logs, labels and messages show it. -/
def ErrorKind.label : ErrorKind → String
  | transport => "transport"
  | timeout => "timeout"
  | conversion => "conversion"
  | configuration => "configuration"
  | invalidArgument => "invalid_argument"
  | cancelled => "cancelled"

/-- The category as a name. -/
def ErrorKind.name : ErrorKind → String
  | transport => "Transport"
  | timeout => "Timeout"
  | conversion => "Conversion"
  | configuration => "Configuration"
  | invalidArgument => "InvalidArgument"
  | cancelled => "Cancelled"

/-- Every category. -/
def ErrorKind.all : List ErrorKind :=
  [transport, timeout, conversion, configuration, invalidArgument, cancelled]

/-- The category with that label. -/
def ErrorKind.ofLabel? (label : String) : Option ErrorKind := ErrorKind.all.find? (·.label == label)

namespace Failure

/-- The failure in a sentence. -/
def message : Failure → String
  | text m => m
  | io kind => kind.message
  | ioOf _ inner => inner.message
  | rpc kind m | rpcOf kind m _ => kind.label ++ " error: " ++ m
  | timeout after => "timed out after " ++ after.toText
  | noSuccessHandler => "no success handler registered for async result"
  | configuration m => "configuration error: " ++ m
  | invalidArgument m => "invalid argument: " ++ m
  | connect endpoint attempts _ =>
      "failed to connect to " ++ endpoint ++ " after " ++ toString attempts ++ " attempt(s)"
  | failed cause => "completed with failure: " ++ cause.message
  | cancelled => "cancelled before completion"

/-- The structure of an error shown to a caller. -/
def rpcLayout (kind : ErrorKind) (m : String) (cause : Option Layout) : Layout :=
  .struct "RpcError" [("kind", .word kind.name), ("message", .text m), ("source", .option cause)]

/-- The failure with all it contains. -/
def layout : Failure → Layout
  | text m => .text m
  | io kind => .tuple "Kind" [.word kind.name]
  | ioOf kind inner => .struct "Custom" [("kind", .word kind.name), ("error", inner.layout)]
  | rpc kind m => rpcLayout kind m none
  | rpcOf kind m cause => rpcLayout kind m (some cause.layout)
  | timeout after => .struct "Timeout" [("after", .word after.toText)]
  | noSuccessHandler => .word "NoSuccessHandler"
  | configuration m => .tuple "Configuration" [.text m]
  | invalidArgument m => .tuple "InvalidArgument" [.text m]
  | connect endpoint attempts cause =>
      .struct "Connect"
        [("endpoint", .text endpoint), ("attempts", .nat attempts), ("source", cause.layout)]
  | failed cause => .tuple "Failed" [cause.layout]
  | cancelled => .word "Cancelled"

end Failure

end ResilientCalls
