import ResilientCalls.Program.Run

/-!
# Threads that nobody waits for

A worker that is late goes on when time passes. Late threads act one at a time, in the order of the
moments at which their waits end; one that acts does so until it has to wait again.
-/

namespace ResilientCalls

variable {σ α : Type}

/-- How long it takes until the code can go on, if it ever can. -/
def Program.delay? (w : World σ) : {α : Type} → Program σ α → Moment
  | _, .block => none
  | _, .sleep d _ => some d.nanos
  | _, .await i bound _ => if w.isComplete i then some 0 else .afterWait 0 bound
  | _, .worker _ body bound _ => (body.delay? w).earlier (.afterWait 0 bound)
  | _, _ => some 0

/-- What is left to do when some nanoseconds have passed without an event. -/
def Program.elapse (passed : Nat) : {α : Type} → Program σ α → Program σ α
  | _, .sleep d k => .sleep (d.remaining passed) k
  | _, .await i bound k => .await i (bound.map (·.remaining passed)) k
  | _, .worker c body bound k =>
      .worker c (body.elapse passed) (bound.map (·.remaining passed)) k
  | _, p => p

/-- When the thread can go on. -/
def Late.wake? (w : World σ) (l : Late σ) : Moment := (l.code.delay? w).map (l.since + ·)

namespace World

/-- The late thread that can go on first, by its place, and when. -/
def soonest? (w : World σ) : Option (Nat × Nat) :=
  let waking := w.late.zipIdx.filterMap fun l => (l.1.wake? w).map fun t => (l.2, t)
  waking.foldl (fun best l => match best with
    | some b => if l.2 < b.2 then some l else some b
    | none => some l) none

/-- Lets a late thread act at a moment, until it has to wait again. -/
def resume (w : World σ) (place : Nat) (t : Nat) : World σ :=
  match w.late[place]? with
  | some l =>
      let now := max w.clock t
      let f := (l.code.elapse (now - l.since)).run standstill (some (now + 1)) l.holder
        { w with clock := now, late := w.late.eraseIdx place }
      match f.exit with
      | .pending rest => f.world.leave f.holder rest
      | _ => f.world
  | none => w

end World

/-- Late threads act while time passes, a bounded number of times. -/
def lateThreads : Nat → Others σ
  | 0, stop, limit, w => nobody stop limit w
  | turns + 1, stop, limit, w =>
      if stop w then w
      else match w.soonest? with
        | some (place, t) =>
            if Moment.isBefore (some t) limit then lateThreads turns stop limit (w.resume place t)
            else nobody stop limit w
        | none => nobody stop limit w

end ResilientCalls
