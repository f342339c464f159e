import ResilientCalls.Program.Lateness
import ResilientCalls.Scenario.Requests

/-!
# Playing a scenario

Steps run in order over shared registers; each gives an answer with the journal entries it caused.
Nesting is bounded by a depth far beyond what any stack of calls can reach.
-/

namespace ResilientCalls.Scenario

open Program

/-! ## Steps with steps of their own -/

/-- Runs steps with guards of their own. -/
def playList (player : Player) (steps : List Step) : Program Desk Report := do
  let list ← newId
  let (answers, _) ← player.steps list steps
  releaseAll list
  return .list answers

/-- Runs steps on a thread of their own. -/
def onThread (player : Player) (steps : List Step) : Program Desk Report := do
  match ← onWorker none (playList player steps) with
  | .delivered answers => return answers
  | _ => return .nothing

/-- Runs steps with a context attached; a panic among them ends them. -/
def within (player : Player) (list : Nat) (context : String) (steps : List Step) :
    Script Report := do
  let c ← fetch Desk.contexts context
  let (answers, panicked) ← effect (withContext c (player.steps list steps))
  let after ← effect scopeNow
  return .fields [("steps", .list answers),
    ("panicked", match panicked with
      | some (.text m) => .text m
      | _ => .nothing),
    ("after", after)]

/-- Runs lists of steps, each on a thread, without showing the journal. -/
def parallel (player : Player) (threads : List (List Step)) : Program Desk Report := do
  let untaken ← readJournal
  let before ← perform (.user fun d => { d with muted := true })
  let forked ← threads.mapM fun steps => fork (playList player steps)
  let answers ← forked.mapM join
  let _ ← takeAfter untaken.length
  changeUser fun d => { d with muted := before.muted }
  return .fields [("threads", .list answers)]

/-! ## All steps -/

/-- The work of a step in a list of steps. -/
def Step.script (player : Player) (list : Nat) : Step → Script Report
  | value s => s.answer
  | context s => s.answer list
  | call s => s.answer player
  | failover s => s.answer player
  | future s => s.answer player
  | request s => s.answer player
  | within name steps => Scenario.within player list name steps
  | panic message => effect (.unwind (.text message))
  | thread steps => do
      let answers ← effect (onThread player steps)
      return .fields [("steps", answers)]
  | parallel threads => effect (Scenario.parallel player threads)
  | wait name readers bound steps => waitWhile player list name readers bound steps
  | makeInvocation as name parameters plan => do
      let id ← effect newId
      effect (storeCall as (.scripted id name parameters plan))
      return done
  | makeChain as target name handler pretty =>
      Scenario.makeChain as target name handler pretty
  | setHandler chain handler => Scenario.setHandler chain handler

/-- Plays steps in order; a panic step ends them and has no answer. -/
def playSteps (player : Player) (list : Nat) :
    List Step → Program Desk (List Report × Option Payload)
  | [] => return ([], none)
  | .panic message :: _ => return ([], some (.text message))
  | s :: rest => do
      let a ← answered (answerOf (s.script player list))
      let (answers, panicked) ← playSteps player list rest
      return (a :: answers, panicked)

/-- Makes the request of two registers, both of which are there. -/
def requestOrPanic (player : Player) (requester invocation : String) : Program Desk Reply := do
  match ← (requestByName player requester invocation).run with
  | .ok reply => return reply
  | .error _ => .unwind (.text "no such register")

/-- What plays nested scripts, down to some depth. -/
def player : Nat → Player
  | 0 => ⟨fun _ _ => .block, fun _ _ => .block⟩
  | depth + 1 =>
      { steps := fun list steps => playSteps (player depth) list steps
        request := fun requester invocation => requestOrPanic (player depth) requester invocation }

/-- No scenario nests its scripts as deeply as this. -/
def maxDepth : Nat := tenTo 6

/-- Late threads do not act more often than this during one wait. -/
def maxTurns : Nat := tenTo 6

/-- Plays a scenario from empty registers on a fresh thread; nothing, if it never ends. -/
def play (metrics trace : Bool) (steps : List Step) : Option (List Report) :=
  let whole : Program Desk (List Report × Option Payload) := (player maxDepth).steps 0 steps
  let desk := { Desk.empty metrics trace with nextId := 1 }
  match (whole.run (lateThreads maxTurns) none none (.start desk)).exit with
  | .value (answers, _) => some answers
  | _ => none

end ResilientCalls.Scenario
