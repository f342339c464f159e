import ResilientCalls.Proofs.PoolRuns

/-!
# Threads that sleep until a future is complete

Sleepers are not forgotten: while some of them are not woken, the thread whose write completed the
future is still about to wake them (`Pool.Rousing`). So whoever waits for a complete future can go on
with its outcome, whatever else happens (`Pool.frees_waiting`).
-/

namespace ResilientCalls

open Program

variable {σ α : Type} {P Q R : Pool σ} {t : Nat} {i : FutureId} {es : List (Nat × Deed σ)}

namespace Pool

/-- Some thread is about to wake those who wait for the future. -/
def Waking (P : Pool σ) (i : FutureId) : Prop :=
  ∃ (u : Nat) (m : Member σ), P.threads[u]? = some m ∧ m.thread.stage = .waking i

/-- Nobody is left asleep on a complete future unless somebody is about to wake the sleepers. -/
def Rousing (P : Pool σ) (i : FutureId) : Prop :=
  P.future i ≠ none → P.shared.waiters i ≠ [] → P.Waking i

theorem Step.waking {e : Deed σ} (hstep : P.Step t e Q) (hP : P.Waking i) : Q.Waking i ∨ e = .notified i := by
  obtain ⟨u, ⟨α, sender, x⟩, hu, hstage⟩ := hP
  by_cases hne : u = t
  · subst hne
    obtain ⟨holder, code, stage⟩ := x
    obtain rfl : stage = .waking i := hstage
    obtain ⟨y, s, hdoes, -⟩ := hstep.of_not_over hu rfl
    exact .inr (Thread.does_of_waking hdoes).1
  · exact .inl ⟨u, _, hstep.threads_of_ne hne hu, hstage⟩

theorem futures_step_ne_none {β : Type} (a : Action σ β) (h : Option Context) (w : World σ)
    (hcomplete : (a.step h w).2.2.futures i ≠ none) :
    w.futures i ≠ none ∨ a.stageAfter (a.step h w).1 = .waking i := by
  cases a with
  | settle j outcome =>
    cases hj : w.futures j with
    | some o =>
      simp only [Action.step, hj] at hcomplete
      exact .inl hcomplete
    | none =>
      by_cases hij : i = j
      · exact .inr (by simp [Action.step, hj, Action.stageAfter, hij])
      · simp only [Action.step, hj, if_neg hij] at hcomplete
        exact .inl hcomplete
  | newFuture =>
    by_cases hij : i = w.nextId
    · simp [Action.step, hij] at hcomplete
    · simp only [Action.step, if_neg hij] at hcomplete
      exact .inl hcomplete
  | _ => exact .inl hcomplete

theorem Step.complete {e : Deed σ} (hstep : P.Step t e Q) (hQ : Q.future i ≠ none) :
    P.future i ≠ none ∨ Q.Waking i := by
  cases hstep with
  | finishes => exact .inl hQ
  | @does α sender x y e s hx hdoes hallows =>
    cases hallows with
    | @did β a b h' w hact =>
      have hcomplete := futures_step_ne_none (i := i) a x.holder P.shared.world
      rw [hact] at hcomplete
      refine (hcomplete hQ).imp id fun hstage => ?_
      cases hdoes with
      | act => exact ⟨t, _, getElem?_set_append _ hx, hstage⟩
    | _ => exact .inl hQ

theorem Step.waiters {e : Deed σ} (hstep : P.Step t e Q) (hQ : Q.future i ≠ none)
    (hw : Q.shared.waiters i ≠ []) : P.shared.waiters i ≠ [] ∧ e ≠ .notified i := by
  cases hstep with
  | finishes => exact ⟨hw, nofun⟩
  | does _ _ hallows =>
    cases hallows with
    | @notified j =>
      by_cases hj : i = j
      · simp [Shared.rouse, hj] at hw
      · simp only [Shared.rouse, if_neg hj] at hw
        exact ⟨hw, fun h => hj (Deed.notified.inj h).symm⟩
    | @dozed j hnone =>
      by_cases hj : i = j
      · exact absurd (hj ▸ hnone) hQ
      · simp only [Shared.rouse, if_neg hj] at hw
        exact ⟨hw, nofun⟩
    | @wokeLate j hmem =>
      refine ⟨fun hnil => hw ?_, nofun⟩
      by_cases hj : i = j
      · subst hj
        simp [Shared.rouse, hnil]
      · simp only [Shared.rouse, if_neg hj, hnil]
    | _ => exact ⟨hw, nofun⟩

theorem Step.rousing {e : Deed σ} (hstep : P.Step t e Q) (hP : P.Rousing i) : Q.Rousing i := by
  intro hfuture hwaiters
  rcases hstep.complete hfuture with hcomplete | hwaking
  · obtain ⟨hold, hne⟩ := hstep.waiters hfuture hwaiters
    exact (hstep.waking (hP hcomplete hold)).resolve_right hne
  · exact hwaking

theorem Runs.rousing (h : P.Runs es Q) (hP : P.Rousing i) : Q.Rousing i := by
  induction h with
  | refl => exact hP
  | step _ hstep ih => exact hstep.rousing ih
  | wait n _ ih => exact ih

/-! ## Readers go on -/

theorem Has.step {x y : Thread σ α} {e : Deed σ} {s : Shared σ} (hx : P.Has t x)
    (hdoes : x.Does P.world.clock e y) (hallows : P.shared.Allows t x.holder e s) :
    ∃ Q, P.Step t e Q ∧ Q.Has t y ∧ Q.shared = s := by
  obtain ⟨sender, hx⟩ := hx
  exact ⟨_, .does hx hdoes hallows, ⟨sender, getElem?_set_append _ hx⟩, rfl⟩

/-- The pool may go on so that thread `t` stands like this, without a step of any other thread but to
wake those who wait for the future. -/
def Frees (P : Pool σ) (i : FutureId) (t : Nat) (y : Thread σ α) : Prop :=
  ∃ es Q, P.Runs es Q ∧ Q.Has t y ∧ ∀ e ∈ es, e.1 = t ∨ e.2 = .notified i

theorem Frees.cons {u : Nat} {e : Deed σ} {y : Thread σ α} (hstep : P.Step u e Q)
    (hown : u = t ∨ e = .notified i) (hQ : Q.Frees i t y) : P.Frees i t y := by
  obtain ⟨es, R, hruns, hy, hes⟩ := hQ
  refine ⟨_, R, (Runs.refl.step hstep).append hruns, hy, fun e' he' => ?_⟩
  rcases List.mem_append.1 he' with hfirst | hrest
  · obtain rfl := List.mem_singleton.1 hfirst
    exact hown
  · exact hes e' hrest

section Waiting

variable {h : Option Context} {bound : Option Duration} {k : Option Reply → Program σ α} {outcome : Reply}

theorem frees_looking {deadline : Moment} {expired : Bool} (hfuture : P.future i = some outcome)
    (hx : P.Has t ⟨h, .await i bound k, .looking deadline expired⟩) :
    P.Frees i t (.fresh (k (some outcome)) h) := by
  have hallows : P.shared.Allows t h (.awaited i bound (P.shared.world.futures i)) P.shared := .awaited
  rw [show P.shared.world.futures i = some outcome from hfuture] at hallows
  obtain ⟨Q, hstep, hy, -⟩ := hx.step .find hallows
  exact .cons hstep (.inl rfl) ⟨[], Q, .refl, hy, nofun⟩

theorem frees_ready (hfuture : P.future i = some outcome) (hx : P.Has t (.fresh (.await i bound k) h)) :
    P.Frees i t (.fresh (k (some outcome)) h) := by
  obtain ⟨Q, hstep, hy, hshared⟩ := hx.step .come .came
  refine .cons hstep (.inl rfl) (frees_looking ?_ hy)
  rw [future, world, hshared]
  exact hfuture

theorem frees_woken {deadline : Moment} (hfuture : P.future i = some outcome)
    (hx : P.Has t ⟨h, .await i bound k, .asleep deadline⟩) (hwoken : t ∉ P.shared.waiters i) :
    P.Frees i t (.fresh (k (some outcome)) h) := by
  have hdoes : Thread.Does P.world.clock ⟨h, .await i bound k, .asleep deadline⟩ (.woke i false)
      ⟨h, .await i bound k, .looking deadline false⟩ := .wake nofun
  obtain ⟨Q, hstep, hy, hshared⟩ := hx.step hdoes (.woken hwoken)
  refine .cons hstep (.inl rfl) (frees_looking ?_ hy)
  rw [future, world, hshared]
  exact hfuture

theorem frees_asleep {deadline : Moment} (hrousing : P.Rousing i) (hfuture : P.future i = some outcome)
    (hx : P.Has t ⟨h, .await i bound k, .asleep deadline⟩) : P.Frees i t (.fresh (k (some outcome)) h) := by
  by_cases hasleep : t ∈ P.shared.waiters i
  · -- Not woken yet, so the thread that completed the future is about to do it.
    obtain ⟨u, ⟨β, sender, ⟨h', code, stage⟩⟩, hu, hstage⟩ :=
      hrousing (by rw [hfuture]; nofun) (List.ne_nil_of_mem hasleep)
    obtain rfl : stage = .waking i := hstage
    have hne : t ≠ u := by
      rintro rfl
      obtain ⟨sender', hx⟩ := hx
      cases hx.symm.trans hu
    obtain ⟨Q, hstep, -, hshared⟩ := Has.step ⟨sender, hu⟩ .notify .notified
    refine .cons hstep (.inr rfl) (frees_woken ?_ (hstep.has_of_ne hne hx) ?_)
    · rw [future, world, hshared]
      exact hfuture
    · simp [hshared, Shared.rouse]
  · exact frees_woken hfuture hx hasleep

theorem frees_waiting {stage : Stage} (hsound : P.Sound) (hrousing : P.Rousing i)
    (hfuture : P.future i = some outcome) (hx : P.Has t ⟨h, .await i bound k, stage⟩) :
    P.Frees i t (.fresh (k (some outcome)) h) := by
  obtain ⟨sender, ht⟩ := id hx
  have hstage := hsound t _ ht
  cases stage with
  | ready => exact frees_ready hfuture hx
  | waking j =>
    obtain ⟨Q, hstep, hy, hshared⟩ := hx.step .notify .notified
    refine .cons hstep (.inl rfl) (frees_ready ?_ hy)
    rw [future, world, hshared]
    exact hfuture
  | looking deadline expired => exact frees_looking hfuture hx
  | asleep deadline => exact frees_asleep hrousing hfuture hx
  | resting | receiving => exact hstage.elim

end Waiting

end Pool

end ResilientCalls
