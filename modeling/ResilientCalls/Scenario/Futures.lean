import ResilientCalls.Scenario.Recovery

/-!
# Steps about futures

Futures with their readers and writers, and the chains that complete them from raw values, failures
or asynchronous work.
-/

namespace ResilientCalls.Scenario

open Program

/-! ## Conversions -/

/-- Reads one more digit of a number of 64 bits. A character that is no digit is refused before a
number that grows too large. -/
def readDigit (acc : Except String Nat) (c : Char) : Except String Nat := do
  let n ← acc
  if ¬c.isDigit then throw "invalid digit found in string"
  let next := n * 10 + (c.toNat - '0'.toNat)
  if next < twoTo 64 then return next
  throw "number too large to fit in target type"

/-- Reads a number of 64 bits, which may have a plus sign in front. -/
def readNumber (raw : String) : Except String Nat :=
  match raw.toList with
  | [] => .error "cannot parse integer from empty string"
  | ['+'] => .error "invalid digit found in string"
  | '+' :: digits => digits.foldl readDigit (.ok 0)
  | digits => digits.foldl readDigit (.ok 0)

/-- What a conversion makes of a raw value. -/
def Conversion.convert (player : Player) : Conversion → String → Program Desk Reply
  | identity, raw => return .ok raw
  | length, raw => return .ok (toString raw.utf8ByteSize)
  | number, raw => return match readNumber raw with
      | .ok n => .ok (toString n)
      | .error m => .error (.text m)
  | reject, raw => .unwind (.text ("cannot decode " ++ raw))
  | play p, _ => p.play player

/-! ## Chains -/

/-- Stores a chain. -/
def storeChain (as : String) (c : Chain Conversion) : Script Unit :=
  change fun d => { d with chains := d.chains.put as c }

/-- Takes a chain out of its register. -/
def takeChain (name : String) : Script (Chain Conversion) := do
  let c ← fetch Desk.chains name
  change fun d => { d with chains := d.chains.filter (·.1 ≠ name) }
  return c

/-- Drops the chain in a register that is about to be used anew. -/
def dropReplaced (name : String) : Script Unit := do
  match List.lookup name (← effect desk).chains with
  | some c => effect c.drop
  | none => pure ()

/-- The text of a chain, with the state of its future. -/
def chainText (c : Chain Conversion) (pretty : Bool) : Program Desk Report := do
  let outcome ← Future.tryGet c.target
  return .text ((c.layout outcome).render pretty)

/-- Makes a chain under a context, or under the one in force. -/
def makeChain (as future : String) (context : Option String) (handler : Option Conversion)
    (pretty : Bool) : Script Report := do
  let target ← fetch Desk.futures future
  let c ← fetch? Desk.contexts context
  let made ← match c with
    | some c => effect (Chain.make target c)
    | none => effect (Chain.capture target)
  let chain ← built made
  let chain := match handler with
    | some h => chain.withHandler h
    | none => chain
  let shown ← effect (chainText chain pretty)
  dropReplaced as
  storeChain as chain
  return shown

/-- Gives a chain another handler. -/
def setHandler (name : String) (handler : Conversion) : Script Report := do
  let c ← fetch Desk.chains name
  storeChain name (c.withHandler handler)
  return done

/-- Ends a chain at once. -/
def endNow (player : Player) (c : Chain Conversion) : WorkSpec → Program Desk Unit
  | .value raw => c.succeed (Conversion.convert player) raw
  | .failure e => c.fail e
  | .pending => c.drop

/-- Ends a chain as asynchronous work does, on another thread; work that cannot end is given up. -/
def listenTo (player : Player) (c : Chain Conversion) (work : WorkSpec) (shutDown : Bool) :
    Program Desk Report := do
  let finish (reply : Reply) : Program Desk Report := do
    let _ ← onWorker none (c.listen (Conversion.convert player) (pure reply))
    return .text "finished"
  let giveUp : Program Desk Report := do
    c.drop
    return .text "cancelled"
  if shutDown then giveUp
  else match work with
    | .value raw => finish (.ok raw)
    | .failure e => finish (.error e)
    | .pending => giveUp

/-! ## Readers and writers -/

/-- Lets several threads write the same value; answers how many of them decided the future. -/
def raceWriters (i : FutureId) (value : String) : Nat → Program Desk Nat
  | 0 => pure 0
  | n + 1 => do
      let won ← onWorker none (Future.succeed i value)
      let wins ← raceWriters i value n
      return wins + if won = .delivered true then 1 else 0

/-- The outcome that a reader gets. -/
def read (i : FutureId) (bound : Option Duration) : Program Desk Report :=
  replyReport <$> Future.getWithin i bound

/-- Lets readers wait while steps run, then cancels the future, and shows what the readers got. -/
def waitWhile (player : Player) (list : Nat) (future : String) (count : Nat)
    (bound : Option Duration) (steps : List Step) : Script Report := do
  let i ← fetch Desk.futures future
  let readers ← effect ((List.replicate count (read i bound)).mapM fork)
  let (answers, _) ← effect (player.steps list steps)
  let _ ← effect (Future.cancel i)
  let got ← effect (readers.mapM join)
  return .fields [("by", .list answers), ("readers", .list got)]

/-! ## Steps -/

/-- An outcome, or a word for there being none. -/
def outcomeReport (otherwise : Report) (outcome : Option Reply) : Report :=
  match outcome with
  | some reply => replyReport reply
  | none => otherwise

/-- The answer of a step about futures. -/
def FutureStep.answer (player : Player) : FutureStep → Script Report
  | make as => do
      let i ← effect (perform .newFuture)
      change fun d => { d with futures := d.futures.put as i }
      return done
  | succeed future value => do
      let i ← fetch Desk.futures future
      let won ← effect (Future.succeed i value)
      return .flag won
  | fail future e => do
      let i ← fetch Desk.futures future
      let won ← effect (Future.fail i e)
      return .flag won
  | cancel future => do
      let i ← fetch Desk.futures future
      let won ← effect (Future.cancel i)
      return .flag won
  | isDone future => do
      let i ← fetch Desk.futures future
      let ended ← effect (Future.isDone i)
      return .flag ended
  | describe future pretty => do
      let i ← fetch Desk.futures future
      let outcome ← effect (Future.tryGet i)
      return .text ((Future.layout outcome).render pretty)
  | get future => do
      let i ← fetch Desk.futures future
      if ← effect (Future.isDone i) then
        let reply ← effect (Future.get i)
        return replyReport reply
      return .text "would block"
  | getWithin future bound => do
      let i ← fetch Desk.futures future
      let reply ← effect (Future.getWithin i (some bound))
      return replyReport reply
  | tryGet future => do
      let i ← fetch Desk.futures future
      let outcome ← effect (Future.tryGet i)
      return outcomeReport .nothing outcome
  | race future writers value => do
      let i ← fetch Desk.futures future
      let wins ← effect (raceWriters i value writers)
      let outcome ← effect (Future.tryGet i)
      return .fields [("wins", .nat wins), ("outcome", outcomeReport .nothing outcome)]
  | describeChain chain pretty => do
      let c ← fetch Desk.chains chain
      effect (chainText c pretty)
  | endChain chain ending => do
      let c ← takeChain chain
      effect (endNow player c ending)
      effect scopeNow
  | listen chain work shutDown => do
      let c ← takeChain chain
      effect (listenTo player c work shutDown)

end ResilientCalls.Scenario
