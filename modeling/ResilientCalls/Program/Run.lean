import ResilientCalls.Program.World

/-!
# Running a program

`Program.run` runs a program on one thread until it ends or has to wait beyond a given moment; then
what is left of it is a program again. Each worker runs before the code that waits for it goes on.
What others do during a wait is a parameter. `run_bind` and `run_caught` say how runs compose.
-/

namespace ResilientCalls

variable {σ α β : Type}

/-- How a run ends. -/
inductive Exit (σ α : Type) : Type 1
  | value (a : α)
  | unwound (payload : Payload)
  /-- Not yet: this is left to do. -/
  | pending (rest : Program σ α)

/-- Whether nothing is left to do. -/
def Exit.isEnd : Exit σ α → Bool
  | value _ | unwound _ => true
  | pending _ => false

/-- The end of a run: how it ended, what is attached to the thread, and the shared state. -/
structure Final (σ α : Type) : Type 1 where
  exit : Exit σ α
  holder : Option Context
  world : World σ

/-- What others do while a thread waits: the shared state as soon as a condition holds or a moment
has come. -/
abbrev Others (σ : Type) := (World σ → Bool) → Moment → World σ → World σ

/-- Nobody else acts, and time passes. -/
def nobody : Others σ := fun _ limit w => { w with clock := max w.clock (limit.getD w.clock) }

/-- Nobody else acts, and no time passes. -/
def standstill : Others σ := fun _ _ w => w

def never : World σ → Bool := fun _ => false

namespace Program

/-- Runs a program until it ends or has to wait until the limit. -/
def run (others : Others σ) :
    {α : Type} → Program σ α → Moment → Option Context → World σ → Final σ α
  | _, done a, _, h, w => ⟨.value a, h, w⟩
  | _, unwind p, _, h, w => ⟨.unwound p, h, w⟩
  | _, block, limit, h, w => ⟨.pending block, h, others never limit w⟩
  | _, act a k, limit, h, w =>
      let s := a.step h w
      (k s.1).run others limit s.2.1 s.2.2
  | _, sleep d k, limit, h, w =>
      let wake : Moment := some (w.clock + d.nanos)
      if wake.isBefore limit then k.run others limit h (others never wake w)
      else
        let later := others never limit w
        ⟨.pending (sleep (d.remaining (later.clock - w.clock)) k), h, later⟩
  | _, await i bound k, limit, h, w =>
      let deadline := Moment.afterWait w.clock bound
      let later := if w.isComplete i then w else others (World.isComplete i) (deadline.earlier limit) w
      match later.futures i with
      | some outcome => (k (some outcome)).run others limit h later
      | none =>
          if deadline.isBefore limit then (k none).run others limit h later
          else ⟨.pending (await i (bound.map (·.remaining (later.clock - w.clock))) k), h, later⟩
  | _, worker c body bound k, limit, h, w =>
      let deadline := Moment.afterWait w.clock bound
      let f := body.run others (deadline.earlier limit) c w
      match f.exit with
      | .value b => (k (.delivered b)).run others limit h f.world
      | .unwound _ => (k .crashed).run others limit h f.world
      | .pending rest =>
          if deadline.isBefore limit then (k .elapsed).run others limit h (f.world.leave f.holder rest)
          else
            let bound := bound.map (·.remaining (f.world.clock - w.clock))
            ⟨.pending (worker f.holder rest bound k), h, f.world⟩

end Program

/-- Goes on after a run that ended with a value. -/
def Final.andThen (others : Others σ) (limit : Moment) (f : Final σ α) (g : α → Program σ β) :
    Final σ β :=
  match f.exit with
  | .value a => (g a).run others limit f.holder f.world
  | .unwound p => ⟨.unwound p, f.holder, f.world⟩
  | .pending rest => ⟨.pending (rest.bind g), f.holder, f.world⟩

/-- The end of a run in which a panic is stopped. -/
def Final.caught (f : Final σ α) : Final σ (Except Payload α) :=
  match f.exit with
  | .value a => ⟨.value (.ok a), f.holder, f.world⟩
  | .unwound p => ⟨.value (.error p), f.holder, f.world⟩
  | .pending rest => ⟨.pending rest.caught, f.holder, f.world⟩

namespace Program

variable {others : Others σ} {limit : Moment}

@[simp] theorem run_done (a : α) (h : Option Context) (w : World σ) :
    (done a : Program σ α).run others limit h w = ⟨.value a, h, w⟩ := rfl

@[simp] theorem run_unwind (p : Payload) (h : Option Context) (w : World σ) :
    (unwind p : Program σ α).run others limit h w = ⟨.unwound p, h, w⟩ := rfl

theorem run_act (a : Action σ β) (k : β → Program σ α) (h : Option Context) (w : World σ) :
    (act a k).run others limit h w =
      (k (a.step h w).1).run others limit (a.step h w).2.1 (a.step h w).2.2 := rfl

/-- Running one program after another. -/
theorem run_bind (p : Program σ α) (g : α → Program σ β) (h : Option Context) (w : World σ) :
    (p.bind g).run others limit h w = (p.run others limit h w).andThen others limit g := by
  induction p generalizing h w with
  | done | unwind | block => rfl
  | act a k ih => exact ih _ _ _ _
  | sleep d k ih =>
    simp only [bind, run]
    split
    · exact ih _ _ _
    · rfl
  | await i bound k ih =>
    simp only [bind, run]
    split
    · exact ih _ _ _ _
    · split
      · exact ih _ _ _ _
      · rfl
  | worker c body bound k _ ih =>
    simp only [bind, run]
    split
    · exact ih _ _ _ _
    · exact ih _ _ _ _
    · split
      · exact ih _ _ _ _
      · rfl

/-- Stopping a panic changes how the run ends and nothing else. -/
theorem run_caught (p : Program σ α) (h : Option Context) (w : World σ) :
    p.caught.run others limit h w = (p.run others limit h w).caught := by
  induction p generalizing h w with
  | done | unwind | block => rfl
  | act a k ih => exact ih _ _ _
  | sleep d k ih =>
    simp only [caught, run]
    split
    · exact ih _ _
    · rfl
  | await i bound k ih =>
    simp only [caught, run]
    split
    · exact ih _ _ _
    · split
      · exact ih _ _ _
      · rfl
  | worker c body bound k _ ih =>
    simp only [caught, run]
    split
    · exact ih _ _ _
    · exact ih _ _ _
    · split
      · exact ih _ _ _
      · rfl

end Program

end ResilientCalls
