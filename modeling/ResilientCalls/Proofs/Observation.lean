import ResilientCalls.Proofs.Endings

/-!
# Code that only observes

Between two attempts of a call nothing is done but to add observations to the journal and to pause.
`World.observeAll` says what becomes of the shared state meanwhile, and `Program.Observes` that code
does no more than that.
-/

namespace ResilientCalls

open Program

variable {σ α β γ ε : Type} {others : Others σ} {limit : Moment}

/-- The shared state after an observation; a pause also lets its time pass. -/
def World.observe (others : Others σ) (w : World σ) : Entry → World σ
  | .paused d => others never (some (w.clock + d.nanos)) { w with journal := w.journal ++ [.paused d] }
  | e => { w with journal := w.journal ++ [e] }

/-- The shared state after several observations. -/
def World.observeAll (others : Others σ) (w : World σ) (es : List Entry) : World σ :=
  es.foldl (World.observe others) w

@[simp] theorem observeAll_nil (w : World σ) : w.observeAll others [] = w := rfl

@[simp] theorem observeAll_observeAll (w : World σ) (es es' : List Entry) :
    (w.observeAll others es).observeAll others es' = w.observeAll others (es ++ es') :=
  List.foldl_append.symm

/-- The run with further observations after it. -/
def Final.after (others : Others σ) (f : Final σ α) (es : List Entry) : Final σ α :=
  { f with world := f.world.observeAll others es }

/-- The code adds these observations, with their pauses, and ends with that value. -/
def Program.Observes (others : Others σ) (p : Program σ α) (es : List Entry) (a : α) : Prop :=
  ∀ h w, p.run others none h w = ⟨.value a, h, w.observeAll others es⟩

theorem observes_done (a : α) : (done a : Program σ α).Observes others [] a := fun _ _ => rfl

theorem observes_bind {p : Program σ α} {g : α → Program σ β} {es es' : List Entry} {a : α} {b : β}
    (hp : p.Observes others es a) (hg : (g a).Observes others es' b) :
    (p.bind g).Observes others (es ++ es') b := by
  intro h w
  rw [run_bind, hp, Final.andThen_of_value rfl, hg, observeAll_observeAll]

theorem observes_log (t : Trace) : (log t : Program σ Unit).Observes others [.traced t] () :=
  fun _ _ => rfl

theorem observes_count (c : Counter) : (count c : Program σ Unit).Observes others [.counted c] () :=
  fun _ _ => rfl

theorem observes_sampled (scope : String) :
    (record (.sampled scope) : Program σ Unit).Observes others [.sampled scope] () :=
  fun _ _ => rfl

/-- What is observed of a pause. -/
def Duration.pauses (d : Duration) : List Entry := if d.isZero then [] else [.paused d]

theorem observes_pause (d : Duration) : (pause d : Program σ Unit).Observes others d.pauses () := by
  intro h w
  by_cases hd : d.isZero = true
  · simp [pause, Duration.pauses, hd]
  · simp [pause, Duration.pauses, hd, record, perform, Program.bind, run, Moment.isBefore, Action.step,
      World.observeAll, World.observe]

theorem observes_emit_nil (event : ε) : (emit [] event : Program σ Unit).Observes others [] () :=
  observes_done ()

theorem run_currentScope (otherwise : String) (h : Option Context) (w : World σ) :
    (currentScope otherwise : Program σ String).run others limit h w =
      ⟨.value ((h.map Context.scope).getD otherwise), h, w⟩ := rfl

theorem yields_of_observes {p : Program σ α} {es : List Entry} {a : α} (hp : p.Observes others es a) :
    p.Yields others (· = a) := by
  intro h w outcome houtcome
  rw [hp] at houtcome
  cases houtcome
  exact ⟨a, rfl, rfl⟩

theorem ends_of_observes {p : Program σ α} {es : List Entry} {a : α} (hp : p.Observes others es a) :
    p.Ends others := by
  intro h w
  rw [hp]
  rfl

end ResilientCalls
