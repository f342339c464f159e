import ResilientCalls.Scenario.Step

/-!
# Answers of steps

What a step shows of failures, replies, contexts and journal entries.
-/

namespace ResilientCalls.Scenario

/-- The name under which an answer reports a failure. -/
def failureName : Failure → String
  | .text _ => "other"
  | .io kind | .ioOf kind _ => "io:" ++ kind.name
  | .rpc kind _ | .rpcOf kind _ _ => "rpc:" ++ kind.label
  | .timeout _ => "core:Timeout"
  | .noSuccessHandler => "core:NoSuccessHandler"
  | .configuration _ => "core:Configuration"
  | .invalidArgument _ => "core:InvalidArgument"
  | .connect .. => "core:Connect"
  | .failed _ => "core:Failed"
  | .cancelled => "core:Cancelled"

/-- Whether a failure is plain text. -/
def isText : Failure → Bool
  | .text _ => true
  | _ => false

/-- A failure by name and message, with its cause. An input or output error shows its inner failure
unless that is plain text. -/
def failureReport (e : Failure) : Report :=
  let cause : Option Report :=
    match e with
    | .connect _ _ c | .failed c | .rpcOf _ _ c => some (failureReport c)
    | .ioOf _ c => if isText c then none else some (failureReport c)
    | _ => none
  .fields ([("error", .text (failureName e)), ("message", .text e.message)]
    ++ (cause.map fun c => ("cause", c)).toList)

/-- A value or a failure. -/
def replyReport : Reply → Report
  | .ok v => .fields [("ok", .text v)]
  | .error e => failureReport e

/-- A panic by its message. -/
def panicReport (p : Payload) : Report :=
  .fields [("panicked", match p with
    | .text m => .text m
    | .other => .nothing)]

/-- A step that cannot be carried out. -/
def badInput (message : String) : Report :=
  .fields [("error", .text "bad_input"), ("message", .text message)]

/-- The answer of a step that has nothing to say. -/
def done : Report := .text "done"

/-- The kinds of a list of strategies. -/
def kindsReport (kinds : List StrategyKind) : Report := .list (kinds.map fun k => .text k.label)

/-- The fields that describe a context. -/
def contextFields (c : Context) : List (String × Report) :=
  [("scope", .text c.scope), ("kinds", kindsReport (c.strategies.map Strategy.kind))]

/-- A context by scope and kinds. -/
def contextReport (c : Context) : Report := .fields (contextFields c)

/-- The scope of a context, if there is one. -/
def scopeReport (c : Option Context) : Report := .text? (c.map Context.scope)

/-- A duration as its number of nanoseconds. -/
def durationReport (d : Duration) : Report := .text (toString d.nanos)

/-- The bits of a float in hexadecimal. -/
def floatReport (x : Float) : Report :=
  let digits := Nat.toDigits 16 x.toBits.toNat
  .text (String.ofList (List.replicate (16 - digits.length) '0' ++ digits))

/-- A retry policy by its parts. -/
def policyReport (p : RetryPolicy) : Report :=
  .fields [("count", .nat p.count), ("interval", durationReport p.interval),
    ("multiplier", floatReport p.multiplier),
    ("max_interval", .option (p.maxInterval.map durationReport)), ("priority", .number p.priority)]

/-- The parts of a strategy. -/
def strategyParts : Strategy → Report
  | .timeout s => .fields [("timeout", durationReport s.timeout)]
  | .retry s => .fields [("count", .nat s.count), ("interval", durationReport s.interval)]
  | .failover s => .fields [("policies", .list (s.policies.map policyReport))]
  | .connect s => .fields [("endpoint", .text s.endpoint), ("max_attempts", .nat s.maxAttempts),
      ("backoff", durationReport s.backoff)]

/-- A strategy by kind, parts and text. -/
def strategyReport (s : Strategy) (pretty : Bool) : Report :=
  .fields [("kind", .text s.kind.label), ("fields", strategyParts s),
    ("debug", .text (s.layout.render pretty))]

/-! ## Journal entries -/

/-- Named text. -/
def labelsReport (labels : List (String × String)) : Report :=
  .fields (labels.map fun l => (l.1, .text l.2))

/-- A journal entry, if it is to be shown: metrics and traces only on demand, pauses never. -/
def entryReport? (metrics trace : Bool) : Entry → Option Report
  | .counted c =>
      if metrics then some (.fields [("counter", .text c.name), ("labels", labelsReport c.labels),
        ("by", .nat 1)]) else none
  | .sampled scope =>
      if metrics then some (.fields [("histogram", .text "rpc_request_duration_seconds"),
        ("labels", labelsReport [("scope", scope)])]) else none
  | .traced t =>
      if trace then some (.fields [("trace", .text t.level.name), ("message", .text t.message),
        ("fields", labelsReport t.details)]) else none
  | .paused _ => none
  | .noted r => some r

end ResilientCalls.Scenario
