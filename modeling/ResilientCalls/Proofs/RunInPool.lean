import ResilientCalls.Proofs.Endings
import ResilientCalls.Proofs.Passages

/-!
# Running alone is one way to run in a pool

What `Program.run` does while nobody else acts, a thread of a pool can do step by step, together with the
workers that it starts (`realizes_run`). So the interleavings of a pool cover the runs of single
programs. Effects in a row need no workers, and leave the pool as many threads as it had (`exists_effects`).
-/

namespace ResilientCalls

open Program

variable {σ α β : Type} {h h' : Option Context}

/-- The same shared state, but for the threads that nobody waits for. -/
def World.Alike (w w' : World σ) : Prop := ∃ late, w' = { w with late := late }

theorem alike_refl (w : World σ) : w.Alike w := ⟨w.late, rfl⟩

theorem World.Alike.futures {w w' : World σ} (hw : w.Alike w') : w'.futures = w.futures := by
  obtain ⟨late, rfl⟩ := hw
  rfl

theorem World.Alike.clock {w w' : World σ} (hw : w.Alike w') : w'.clock = w.clock := by
  obtain ⟨late, rfl⟩ := hw
  rfl

theorem alike_step {w w' : World σ} (a : Action σ β) (h : Option Context) (hw : w.Alike w') :
    (a.step h w').1 = (a.step h w).1 ∧ (a.step h w').2.1 = (a.step h w).2.1 ∧
      (a.step h w).2.2.Alike (a.step h w').2.2 := by
  obtain ⟨late, rfl⟩ := hw
  cases a with
  | settle i outcome =>
    simp only [Action.step]
    cases w.futures i with
    | none => exact ⟨rfl, rfl, late, rfl⟩
    | some o => exact ⟨rfl, rfl, late, rfl⟩
  | _ => exact ⟨rfl, rfl, late, rfl⟩

theorem alike_leave {w w' : World σ} (hw : w.Alike w') (h : Option Context) (rest : Program σ α) :
    (w.leave h rest).Alike w' := by
  obtain ⟨late, rfl⟩ := hw
  exact ⟨late, rfl⟩

theorem stageAfter_cases (a : Action σ β) (b : β) :
    a.stageAfter b = .ready ∨ ∃ i, a.stageAfter b = .waking i := by
  cases a with
  | settle i outcome =>
    cases b with
    | true => exact .inr ⟨i, rfl⟩
    | false => exact .inl rfl
  | _ => exact .inl rfl

theorem earlier_of_not_isBefore {deadline : Moment} {l : Nat} (hbefore : ¬ deadline.isBefore (some l) = true) :
    deadline.earlier (some l) = some l := by
  cases deadline with
  | none => rfl
  | some d =>
    have hle : l ≤ d := by simpa [Moment.isBefore] using hbefore
    exact congrArg some (Nat.min_eq_right hle)

theorem earlier_of_isBefore {deadline limit : Moment} (hbefore : deadline.isBefore limit = true) :
    ∃ d, deadline = some d ∧ deadline.earlier limit = some d := by
  cases deadline with
  | none => cases limit <;> cases hbefore
  | some d =>
    refine ⟨d, rfl, ?_⟩
    cases limit with
    | none => rfl
    | some l =>
      have hlt : d < l := by simpa [Moment.isBefore] using hbefore
      exact congrArg some (Nat.min_eq_left (Nat.le_of_lt hlt))

theorem limit_le_clock {p : Program σ α} {limit : Moment} {w : World σ} {rest : Program σ α}
    (hpending : (p.run nobody limit h w).exit = .pending rest) {l : Nat} (hl : limit = some l) :
    l ≤ (p.run nobody limit h w).world.clock := by
  -- What has not ended stands at a wait that the limit has cut short, the innermost worker first.
  induction p generalizing limit h w l with
  | done | unwind => cases hpending
  | block =>
    subst hl
    exact Nat.le_max_right _ _
  | act a k ih => exact ih _ hpending hl
  | sleep d k ih =>
    simp only [run] at hpending ⊢
    by_cases hbefore : Moment.isBefore (some (w.clock + d.nanos)) limit = true
    · rw [if_pos hbefore] at hpending ⊢
      exact ih hpending hl
    · rw [if_neg hbefore, hl]
      exact Nat.le_max_right _ _
  | await i bound k ih =>
    simp only [run] at hpending ⊢
    cases hw : w.futures i with
    | some outcome =>
      simp only [World.isComplete, hw, Option.isSome_some, if_true] at hpending ⊢
      exact ih _ hpending hl
    | none =>
      simp only [World.isComplete, hw, Option.isSome_none, Bool.false_eq_true, if_false, nobody] at hpending ⊢
      by_cases hbefore : (Moment.afterWait w.clock bound).isBefore limit = true
      · rw [if_pos hbefore] at hpending ⊢
        exact ih _ hpending hl
      · subst hl
        rw [if_neg hbefore, earlier_of_not_isBefore hbefore]
        exact Nat.le_max_right _ _
  | worker c body bound k ihbody ih =>
    simp only [run] at hpending ⊢
    generalize hbody : body.run nobody _ c w = f at hpending ⊢
    obtain ⟨exit, holder, world⟩ := f
    cases exit with
    | value b => exact ih _ hpending hl
    | unwound p => exact ih _ hpending hl
    | pending rest =>
      simp only at hpending ⊢
      by_cases hbefore : (Moment.afterWait w.clock bound).isBefore limit = true
      · rw [if_pos hbefore] at hpending ⊢
        exact ih _ hpending hl
      · subst hl
        rw [earlier_of_not_isBefore hbefore] at hbody
        rw [if_neg hbefore]
        have hclock := @ihbody c (some l) w rest (by rw [hbody]) l rfl
        rwa [hbody] at hclock

/-! ## Stretches that leave other threads alone -/

namespace Pool

variable {P Q R : Pool σ} {t : Nat} {es : List (Nat × Deed σ)}

/-- The other threads and the channels that there were are as before. -/
structure Keeps (P : Pool σ) (t : Nat) (Q : Pool σ) : Prop where
  threads : ∀ (u : Nat) (m : Member σ), u ≠ t → P.threads[u]? = some m → Q.threads[u]? = some m
  channels : ∀ (m : ChannelId) (c : Channel), P.shared.channels[m]? = some c → Q.shared.channels[m]? = some c

theorem Keeps.refl : P.Keeps t P := ⟨fun _ _ _ h => h, fun _ _ h => h⟩

theorem Keeps.trans (h : P.Keeps t Q) (h' : Q.Keeps t R) : P.Keeps t R :=
  ⟨fun u m hne hm => h'.threads u m hne (h.threads u m hne hm), fun m c hc => h'.channels m c (h.channels m c hc)⟩

/-- What a run of code comes to, thread `t` comes to, and nobody else does anything but its workers. -/
def Realizes (P : Pool σ) (t : Nat) (sender : Option ChannelId) (f : Final σ α) : Prop :=
  ∃ es Q, P.Runs es Q ∧ f.world.Alike Q.world ∧ P.Keeps t Q ∧
    ∀ r, f.exit.end? = some r → Q.threads[t]? = some ⟨α, sender, .fresh (rethrow r) f.holder⟩

variable {sender : Option ChannelId}

theorem Realizes.after {f : Final σ α} (hrun : P.Runs es Q) (hkeeps : P.Keeps t Q) (hQ : Q.Realizes t sender f) :
    P.Realizes t sender f := by
  obtain ⟨es', R, hruns, halike, hkeeps', hend⟩ := hQ
  exact ⟨_, R, hrun.append hruns, halike, hkeeps.trans hkeeps', hend⟩

theorem keeps_later (n : Nat) : P.Keeps t (P.later n) := ⟨fun _ _ _ h => h, fun _ _ h => h⟩

theorem alike_later {w : World σ} {c : Nat} (hw : w.Alike P.world) (hc : w.clock ≤ c) :
    { w with clock := c }.Alike (P.later (c - w.clock)).world := by
  obtain ⟨late, hlate⟩ := hw
  refine ⟨late, ?_⟩
  have hclock : P.world.clock + (c - w.clock) = c := by
    rw [hlate]
    show w.clock + (c - w.clock) = c
    omega
  show { P.world with clock := P.world.clock + (c - w.clock) } = _
  rw [hclock, hlate]

theorem exists_step {x y : Thread σ α} {e : Deed σ} {s : Shared σ} (ht : P.threads[t]? = some ⟨α, sender, x⟩)
    (hdoes : x.Does P.world.clock e y) (hallows : P.shared.Allows t x.holder e s)
    (hchannels : ∀ (m : ChannelId) (c : Channel), P.shared.channels[m]? = some c → s.channels[m]? = some c) :
    ∃ Q, P.Step t e Q ∧ Q.shared = s ∧ Q.threads[t]? = some ⟨α, sender, y⟩ ∧ P.Keeps t Q :=
  ⟨_, .does ht hdoes hallows, rfl, getElem?_set_append _ ht,
    fun _ _ hne hm => getElem?_set_append_of_ne _ hne hm, hchannels⟩

theorem getElem?_of_eq_set {ms ms' : List (Member σ)} {m m' : Member σ} (hms : ms' = ms.set t m')
    (hm : ms[t]? = some m) : ms'[t]? = some m' := by
  obtain ⟨hlt, -⟩ := List.getElem?_eq_some_iff.1 hm
  rw [hms, List.getElem?_set_self hlt]

theorem keeps_of_set {m : Member σ} (hthreads : Q.threads = P.threads.set t m)
    (hchannels : Q.shared.channels = P.shared.channels) : P.Keeps t Q where
  threads u m hne hm := by rw [hthreads, List.getElem?_set_ne hne.symm, hm]
  channels m c hc := by rw [hchannels, hc]

theorem exists_effect {a : Action σ β} {k : β → Program σ α}
    (ht : P.threads[t]? = some ⟨α, sender, .fresh (.act a k) h⟩) : ∃ es Q, P.Runs es Q ∧
      Q.world = (a.step h P.world).2.2 ∧ Q.shared.channels = P.shared.channels ∧
      Q.threads = P.threads.set t ⟨α, sender, .fresh (k (a.step h P.world).1) (a.step h P.world).2.1⟩ := by
  rcases hact : a.step h P.world with ⟨b, h', w⟩
  have hstep : P.Step t (.did a b)
      ⟨{ P.shared with world := w }, P.threads.set t ⟨α, sender, ⟨h', k b, a.stageAfter b⟩⟩ ++ []⟩ :=
    .does ht (.act hact) (.did hact)
  rcases stageAfter_cases a b with hready | ⟨i, hwaking⟩
  · rw [hready] at hstep
    exact ⟨_, _, Runs.refl.step hstep, rfl, rfl, List.append_nil _⟩
  · -- The winner of a write wakes those who wait before it goes on.
    rw [hwaking] at hstep
    refine ⟨_, _, (Runs.refl.step hstep).step (.does (getElem?_set_append _ ht) .notify .notified), rfl, rfl, ?_⟩
    exact (List.append_nil _).trans (by rw [List.append_nil, List.set_set]; rfl)

theorem realizes_pending {f : Final σ α} {rest : Program σ α} (hf : f.exit = .pending rest) (hrun : P.Runs es Q)
    (halike : f.world.Alike Q.world) (hkeeps : P.Keeps t Q) : P.Realizes t sender f := by
  refine ⟨es, Q, hrun, halike, hkeeps, fun r hr => ?_⟩
  rw [hf] at hr
  cases hr

section Cases

variable {w : World σ} {limit : Moment}

theorem realizes_act {a : Action σ β} {k : β → Program σ α}
    (ih : ∀ {P : Pool σ} {h : Option Context} {w : World σ} (b : β),
      P.threads[t]? = some ⟨α, sender, .fresh (k b) h⟩ → w.Alike P.world →
        P.Realizes t sender ((k b).run nobody limit h w))
    (ht : P.threads[t]? = some ⟨α, sender, .fresh (.act a k) h⟩) (hw : w.Alike P.world) :
    P.Realizes t sender ((Program.act a k).run nobody limit h w) := by
  obtain ⟨hanswer, hholder, halike⟩ := alike_step a h hw
  obtain ⟨es, Q, hrun, hworld, hchannels, hthreads⟩ := exists_effect ht
  rw [hanswer, hholder] at hthreads
  rw [← hworld] at halike
  exact .after hrun (keeps_of_set hthreads hchannels) (ih _ (getElem?_of_eq_set hthreads ht) halike)

theorem realizes_sleep {d : Duration} {k : Program σ α}
    (ih : ∀ {P : Pool σ} {h : Option Context} {w : World σ},
      P.threads[t]? = some ⟨α, sender, .fresh k h⟩ → w.Alike P.world →
        P.Realizes t sender (k.run nobody limit h w))
    (ht : P.threads[t]? = some ⟨α, sender, .fresh (.sleep d k) h⟩) (hw : w.Alike P.world) :
    P.Realizes t sender ((Program.sleep d k).run nobody limit h w) := by
  simp only [run]
  by_cases hbefore : Moment.isBefore (some (w.clock + d.nanos)) limit = true
  · rw [if_pos hbefore]
    obtain ⟨Q, hstep, hshared, hy, hkeeps⟩ := exists_step ht .lie .lay fun _ _ hm => hm
    have hQ : w.Alike Q.world := by
      rw [world, hshared]
      exact hw
    let R := Q.later (w.clock + d.nanos - w.clock)
    have hR : { w with clock := w.clock + d.nanos }.Alike R.world := alike_later hQ (Nat.le_add_right _ _)
    have hwake : P.world.clock + d.nanos ≤ R.world.clock := Nat.le_of_eq (by rw [hR.clock, hw.clock])
    obtain ⟨Q', hstep', hshared', hy', hkeeps'⟩ := exists_step (P := R) hy (.rise hwake) .rose fun _ _ hm => hm
    refine .after (((Runs.refl.step hstep).wait _).step hstep') ((hkeeps.trans (keeps_later _)).trans hkeeps')
      (ih hy' ?_)
    have hclock : max w.clock (w.clock + d.nanos) = w.clock + d.nanos := Nat.max_eq_right (Nat.le_add_right _ _)
    show World.Alike { w with clock := max w.clock (w.clock + d.nanos) } _
    rw [hclock, world, hshared']
    exact hR
  · rw [if_neg hbefore]
    exact realizes_pending rfl (Runs.refl.wait _) (alike_later hw (Nat.le_max_left _ _)) (keeps_later _)

section Await

variable {i : FutureId} {bound : Option Duration} {k : Option Reply → Program σ α} {deadline : Moment}

theorem allows_awaited {seen : Option Reply} (hseen : P.world.futures i = seen) :
    P.shared.Allows t h (.awaited i bound seen) P.shared :=
  hseen ▸ .awaited

theorem exists_givenUp (ht : P.threads[t]? = some ⟨α, sender, ⟨h, .await i bound k, .looking deadline false⟩⟩)
    (hpending : P.world.futures i = none) {n : Nat} (hpassed : deadline.Passed (P.world.clock + n)) :
    ∃ es Q, P.Runs es Q ∧ Q.world = (P.later n).world ∧ Q.threads[t]? = some ⟨α, sender, .fresh (k none) h⟩ ∧
      P.Keeps t Q := by
  obtain ⟨Q₁, hstep₁, hshared₁, hy₁, hkeeps₁⟩ := exists_step ht .doze (.dozed hpending) fun _ _ hm => hm
  have hworld : (Q₁.later n).world = (P.later n).world := by
    show { Q₁.shared.world with clock := Q₁.shared.world.clock + n } = _
    rw [hshared₁]
    rfl
  have hasleep : t ∈ (Q₁.later n).shared.waiters i := by
    show t ∈ Q₁.shared.waiters i
    rw [hshared₁]
    simp [Shared.rouse]
  obtain ⟨Q₂, hstep₂, hshared₂, hy₂, hkeeps₂⟩ := exists_step (P := Q₁.later n) hy₁
    (.wake fun _ => hworld ▸ hpassed) (.wokeLate hasleep) fun _ _ hm => hm
  have hworld₂ : Q₂.world = (P.later n).world := by
    rw [← hworld, world, hshared₂]
    rfl
  obtain ⟨Q₃, hstep₃, hshared₃, hy₃, hkeeps₃⟩ :=
    exists_step hy₂ .giveUp (allows_awaited (hworld₂ ▸ hpending)) fun _ _ hm => hm
  refine ⟨_, Q₃, (((Runs.refl.step hstep₁).wait n).step hstep₂).step hstep₃, ?_, hy₃,
    ((hkeeps₁.trans (keeps_later n)).trans hkeeps₂).trans hkeeps₃⟩
  rw [← hworld₂, world, hshared₃]
  rfl

theorem realizes_await
    (ih : ∀ {P : Pool σ} {h : Option Context} {w : World σ} (seen : Option Reply),
      P.threads[t]? = some ⟨α, sender, .fresh (k seen) h⟩ → w.Alike P.world →
        P.Realizes t sender ((k seen).run nobody limit h w))
    (ht : P.threads[t]? = some ⟨α, sender, .fresh (.await i bound k) h⟩) (hw : w.Alike P.world) :
    P.Realizes t sender ((Program.await i bound k).run nobody limit h w) := by
  obtain ⟨Q, hstep, hshared, hy, hkeeps⟩ := exists_step ht .come .came fun _ _ hm => hm
  have hQ : w.Alike Q.world := by
    rw [world, hshared]
    exact hw
  have hfutures : Q.world.futures i = w.futures i := congrFun hQ.futures i
  simp only [run]
  cases hfuture : w.futures i with
  | some outcome =>
    simp only [World.isComplete, hfuture, Option.isSome_some, if_true]
    obtain ⟨R, hstep', hshared', hy', hkeeps'⟩ :=
      exists_step hy .find (allows_awaited (hfutures.trans hfuture)) fun _ _ hm => hm
    refine .after ((Runs.refl.step hstep).step hstep') (hkeeps.trans hkeeps') (ih _ hy' ?_)
    rw [world, hshared']
    exact hQ
  | none =>
    simp only [World.isComplete, hfuture, Option.isSome_none, Bool.false_eq_true, if_false, nobody]
    by_cases hbefore : (Moment.afterWait w.clock bound).isBefore limit = true
    · rw [if_pos hbefore]
      obtain ⟨d, hdeadline, hearlier⟩ := earlier_of_isBefore hbefore
      have hlater := alike_later hQ (Nat.le_max_left w.clock d)
      have hpassed : (Moment.afterWait P.world.clock bound).Passed (Q.world.clock + (max w.clock d - w.clock)) := by
        rw [hw.clock, hdeadline]
        exact ⟨d, rfl, Nat.le_trans (Nat.le_max_right _ _) (Nat.le_of_eq hlater.clock.symm)⟩
      obtain ⟨es, R, hrun, hworld, hy', hkeeps'⟩ := exists_givenUp hy (hfutures.trans hfuture) hpassed
      rw [hearlier]
      exact .after ((Runs.refl.step hstep).append hrun) (hkeeps.trans hkeeps') (ih _ hy' (hworld ▸ hlater))
    · rw [if_neg hbefore]
      exact realizes_pending rfl (Runs.refl.wait _) (alike_later hw (Nat.le_max_left _ _)) (keeps_later _)

end Await

/-- The pool in which thread `t` has just started a worker. -/
def withWorker (P : Pool σ) (t : Nat) (sender : Option ChannelId) (h c : Option Context) (body : Program σ β)
    (bound : Option Duration) (k : Delivery β → Program σ α) : Pool σ where
  shared := { P.shared with channels := P.shared.channels ++ [.empty] }
  threads :=
    P.threads.set t ⟨α, sender, ⟨h, .worker c body bound k,
      .receiving P.shared.channels.length (.afterWait P.world.clock bound)⟩⟩ ++
    [⟨β, some P.shared.channels.length, .fresh body c⟩]

section Worker

variable {c : Option Context} {body : Program σ β} {bound : Option Duration} {k : Delivery β → Program σ α}

theorem step_withWorker (ht : P.threads[t]? = some ⟨α, sender, .fresh (.worker c body bound k) h⟩) :
    P.Step t (.started P.shared.channels.length ⟨β, c, body, bound⟩)
      (P.withWorker t sender h c body bound k) :=
  .does ht .start .started

theorem step_answered {m : ChannelId} {deadline : Moment} {d : Delivery β} {channel : Channel}
    (ht : P.threads[t]? = some ⟨α, sender, ⟨h, .worker c body bound k, .receiving m deadline⟩⟩)
    (hm : P.shared.channels[m]? = some channel) (hanswers : channel.Answers d)
    (hpassed : d = .elapsed → deadline.Passed P.world.clock) :
    ∃ Q, P.Step t (.answered m d) Q ∧ Q.world = P.world ∧ Q.threads[t]? = some ⟨α, sender, .fresh (k d) h⟩ ∧
      (∀ (u : Nat) (x : Member σ), u ≠ t → P.threads[u]? = some x → Q.threads[u]? = some x) ∧
      ∀ (j : ChannelId) (x : Channel), j ≠ m → P.shared.channels[j]? = some x → Q.shared.channels[j]? = some x :=
  ⟨_, .does ht (.receive hpassed) (.answered hm hanswers), rfl, getElem?_set_append _ ht,
    fun _ _ hne hu => getElem?_set_append_of_ne _ hne hu, fun j x hne hj => by
      show (P.shared.channels.set m .left)[j]? = some x
      rw [List.getElem?_set_ne hne.symm, hj]⟩

theorem step_finished {m : ChannelId} {r : Except Payload β}
    (ht : P.threads[t]? = some ⟨β, some m, .fresh (rethrow r) h⟩) (hm : P.shared.channels[m]? = some .empty) :
    ∃ Q, P.Step t (.finished m r) Q ∧ Q.world = P.world ∧ Q.shared.channels[m]? = some (.holds r) ∧
      (∀ (u : Nat) (x : Member σ), u ≠ t → P.threads[u]? = some x → Q.threads[u]? = some x) ∧
      ∀ (j : ChannelId) (x : Channel), j ≠ m → P.shared.channels[j]? = some x → Q.shared.channels[j]? = some x := by
  obtain ⟨hlt, -⟩ := List.getElem?_eq_some_iff.1 hm
  exact ⟨_, .finishes ht (Thread.over?_rethrow r h) hm, rfl, List.getElem?_set_self hlt,
    fun u x hne hu => by rw [List.getElem?_set_ne hne.symm, hu],
    fun j x hne hj => by rw [List.getElem?_set_ne hne.symm, hj]⟩

/-- Thread `t` has started the worker `n` since the pool was `P`, and waits for it on the channel `m`. -/
structure Working (P : Pool σ) (t : Nat) (sender : Option ChannelId) (h c : Option Context) (body : Program σ β)
    (bound : Option Duration) (k : Delivery β → Program σ α) (n : Nat) (m : ChannelId) (Q : Pool σ) : Prop where
  caller : Q.threads[t]? =
    some ⟨α, sender, ⟨h, .worker c body bound k, .receiving m (.afterWait P.world.clock bound)⟩⟩
  channel : Q.shared.channels[m]? = some .empty
  keeps : P.Keeps t Q
  ne : t ≠ n
  new_thread : ∀ (u : Nat) (x : Member σ), P.threads[u]? = some x → u ≠ n
  new_channel : ∀ (j : ChannelId) (x : Channel), P.shared.channels[j]? = some x → j ≠ m

theorem exists_working {f : Final σ β}
    (hbody : (P.withWorker t sender h c body bound k).Realizes P.threads.length (some P.shared.channels.length) f)
    (ht : P.threads[t]? = some ⟨α, sender, .fresh (.worker c body bound k) h⟩) :
    ∃ n m es Q, P.Runs es Q ∧ f.world.Alike Q.world ∧ P.Working t sender h c body bound k n m Q ∧
      ∀ r, f.exit.end? = some r → Q.threads[n]? = some ⟨β, some m, .fresh (rethrow r) f.holder⟩ := by
  obtain ⟨hlt, -⟩ := List.getElem?_eq_some_iff.1 ht
  obtain ⟨es, Q, hruns, halike, hkeeps, hend⟩ := hbody
  have hchannel : (P.withWorker t sender h c body bound k).shared.channels[P.shared.channels.length]? =
      some .empty := by simp [withWorker]
  have hnew : ∀ (u : Nat) (x : Member σ), P.threads[u]? = some x → u ≠ P.threads.length := fun u x hu =>
    Nat.ne_of_lt (List.getElem?_eq_some_iff.1 hu).1
  have hPQ : P.Keeps t Q := by
    refine ⟨fun u x hut hu => hkeeps.threads u x (hnew u x hu) (getElem?_set_append_of_ne _ hut hu), fun j x hj =>
      hkeeps.channels j x ?_⟩
    obtain ⟨hj', -⟩ := List.getElem?_eq_some_iff.1 hj
    show (P.shared.channels ++ [.empty])[j]? = some x
    rw [List.getElem?_append_left hj', hj]
  exact ⟨_, _, _, Q, (Runs.refl.step (step_withWorker ht)).append hruns, halike, {
    caller := hkeeps.threads t _ (Nat.ne_of_lt hlt) (getElem?_set_append _ ht)
    channel := hkeeps.channels _ _ hchannel
    keeps := hPQ
    ne := Nat.ne_of_lt hlt
    new_thread := hnew
    new_channel := fun j x hj => Nat.ne_of_lt (List.getElem?_eq_some_iff.1 hj).1 }, hend⟩

/-- The thread goes on from `Q`, where it waits for a worker, with what it gets. -/
def GoesOn (P : Pool σ) (t : Nat) (sender : Option ChannelId) (h : Option Context) (p : Program σ α) (Q : Pool σ) :
    Prop :=
  ∃ es R, Q.Runs es R ∧ R.world = Q.world ∧ P.Keeps t R ∧ R.threads[t]? = some ⟨α, sender, .fresh p h⟩

variable {n : Nat} {m : ChannelId}

theorem Working.inTime {r : Except Payload β} {d : Delivery β} {g : Option Context}
    (hQ : P.Working t sender h c body bound k n m Q) (hend : Q.threads[n]? = some ⟨β, some m, .fresh (rethrow r) g⟩)
    (hanswers : (Channel.holds r).Answers d) (hd : d ≠ .elapsed) : P.GoesOn t sender h (k d) Q := by
  obtain ⟨Q₁, hstep₁, hworld₁, hm₁, hthreads₁, hchannels₁⟩ := step_finished hend hQ.channel
  obtain ⟨Q₂, hstep₂, hworld₂, ht₂, hthreads₂, hchannels₂⟩ :=
    step_answered (hthreads₁ t _ hQ.ne hQ.caller) hm₁ hanswers fun helapsed => absurd helapsed hd
  refine ⟨_, Q₂, (Runs.refl.step hstep₁).step hstep₂, hworld₂.trans hworld₁,
    ⟨fun u x hut hu => ?_, fun j x hj => ?_⟩, ht₂⟩
  · exact hthreads₂ u x hut (hthreads₁ u x (hQ.new_thread u x hu) (hQ.keeps.threads u x hut hu))
  · have hj' := hQ.new_channel j x hj
    exact hchannels₂ j x hj' (hchannels₁ j x hj' (hQ.keeps.channels j x hj))

theorem Working.late (hQ : P.Working t sender h c body bound k n m Q)
    (hpassed : (Moment.afterWait P.world.clock bound).Passed Q.world.clock) :
    P.GoesOn t sender h (k .elapsed) Q := by
  obtain ⟨Q₁, hstep₁, hworld₁, ht₁, hthreads₁, hchannels₁⟩ :=
    step_answered hQ.caller hQ.channel .silence fun _ => hpassed
  refine ⟨_, Q₁, Runs.refl.step hstep₁, hworld₁, ⟨fun u x hut hu => ?_, fun j x hj => ?_⟩, ht₁⟩
  · exact hthreads₁ u x hut (hQ.keeps.threads u x hut hu)
  · exact hchannels₁ j x (hQ.new_channel j x hj) (hQ.keeps.channels j x hj)

end Worker

theorem realizes_worker {c : Option Context} {body : Program σ β} {bound : Option Duration}
    {k : Delivery β → Program σ α}
    (ihbody : ∀ {P : Pool σ} {t : Nat} {sender : Option ChannelId} {limit : Moment} {h : Option Context}
      {w : World σ}, P.threads[t]? = some ⟨β, sender, .fresh body h⟩ → w.Alike P.world →
        P.Realizes t sender (body.run nobody limit h w))
    (ih : ∀ {P : Pool σ} {h : Option Context} {w : World σ} (d : Delivery β),
      P.threads[t]? = some ⟨α, sender, .fresh (k d) h⟩ → w.Alike P.world →
        P.Realizes t sender ((k d).run nobody limit h w))
    (ht : P.threads[t]? = some ⟨α, sender, .fresh (.worker c body bound k) h⟩) (hw : w.Alike P.world) :
    P.Realizes t sender ((Program.worker c body bound k).run nobody limit h w) := by
  let f := body.run nobody ((Moment.afterWait w.clock bound).earlier limit) c w
  obtain ⟨n, m, es, Q, hrun, halike, hQ, hend⟩ := exists_working (f := f) (ihbody (by simp [withWorker]) hw) ht
  have hnext : ∀ {d : Delivery β} {w' : World σ}, P.GoesOn t sender h (k d) Q → w'.Alike Q.world →
      P.Realizes t sender ((k d).run nobody limit h w') := by
    rintro d w' ⟨es', R, hrest, hworld, hkeeps, hthread⟩ hw'
    exact .after (hrun.append hrest) hkeeps (ih d hthread (hworld ▸ hw'))
  simp only [run]
  rw [show body.run nobody _ c w = f from rfl]
  cases hexit : f.exit with
  | value b => exact hnext (hQ.inTime (hend (.ok b) (by rw [hexit]; rfl)) (.value b) (by simp)) halike
  | unwound p => exact hnext (hQ.inTime (hend (.error p) (by rw [hexit]; rfl)) (.crash p) (by simp)) halike
  | pending rest =>
    simp only
    by_cases hbefore : (Moment.afterWait w.clock bound).isBefore limit = true
    · rw [if_pos hbefore]
      obtain ⟨d, hdeadline, hearlier⟩ := earlier_of_isBefore hbefore
      have hclock : d ≤ f.world.clock := limit_le_clock hexit hearlier
      have hpassed : (Moment.afterWait P.world.clock bound).Passed Q.world.clock := by
        rw [hw.clock, hdeadline, halike.clock]
        exact ⟨d, rfl, hclock⟩
      exact hnext (hQ.late hpassed) (alike_leave halike f.holder rest)
    · rw [if_neg hbefore]
      exact realizes_pending rfl hrun halike hQ.keeps

end Cases

/-- **Running alone.** A thread of a pool can do what its code does when nobody else acts. -/
theorem realizes_run (p : Program σ α) {limit : Moment} {w : World σ}
    (ht : P.threads[t]? = some ⟨α, sender, .fresh p h⟩) (hw : w.Alike P.world) :
    P.Realizes t sender (p.run nobody limit h w) := by
  induction p generalizing limit h w P t sender with
  | done a =>
    refine ⟨[], P, .refl, hw, .refl, fun r hr => ?_⟩
    cases hr
    exact ht
  | unwind p =>
    refine ⟨[], P, .refl, hw, .refl, fun r hr => ?_⟩
    cases hr
    exact ht
  | block => exact realizes_pending rfl (Runs.refl.wait _) (alike_later hw (Nat.le_max_left _ _)) (keeps_later _)
  | act a k ih => exact realizes_act (fun b => ih b) ht hw
  | sleep d k ih => exact realizes_sleep ih ht hw
  | await i bound k ih => exact realizes_await (fun seen => ih seen) ht hw
  | worker c body bound k ihbody ih => exact realizes_worker ihbody (fun d => ih d) ht hw

theorem exists_through {p : Program σ α} {r : Except Payload α} {w : World σ}
    (ht : P.threads[t]? = some ⟨α, sender, .fresh p h⟩) (hw : w.Alike P.world)
    (hr : (p.run nobody none h w).exit.end? = some r) :
    ∃ es Q, P.Through t p h es r (p.run nobody none h w).holder Q ∧
      (p.run nobody none h w).world.Alike Q.world ∧ P.Keeps t Q := by
  obtain ⟨es, Q, hrun, halike, hkeeps, hend⟩ := realizes_run p ht hw
  exact ⟨es, Q, hrun.through_all ⟨sender, ht⟩ ⟨sender, hend r hr⟩, halike, hkeeps⟩

/-! ## Effects in a row -/

end Pool

/-- What is left of code after at most so many effects in a row, with what is attached then and the shared state. -/
def Program.effects : Nat → Program σ α → Option Context → World σ → Program σ α × Option Context × World σ
  | n + 1, .act a k, h, w => (k (a.step h w).1).effects n (a.step h w).2.1 (a.step h w).2.2
  | _, p, h, w => (p, h, w)

namespace Pool

variable {P : Pool σ} {t : Nat} {sender : Option ChannelId}

theorem exists_effects (n : Nat) {p : Program σ α} (ht : P.threads[t]? = some ⟨α, sender, .fresh p h⟩) :
    ∃ es Q, P.Runs es Q ∧ Q.world = (p.effects n h P.world).2.2 ∧
      Q.threads = P.threads.set t ⟨α, sender, .fresh (p.effects n h P.world).1 (p.effects n h P.world).2.1⟩ := by
  have hrest (P : Pool σ) (p : Program σ α) (h : Option Context)
      (ht : P.threads[t]? = some ⟨α, sender, .fresh p h⟩) :
      ∃ es Q, P.Runs es Q ∧ Q.world = P.world ∧ Q.threads = P.threads.set t ⟨α, sender, .fresh p h⟩ := by
    obtain ⟨hlt, hat⟩ := List.getElem?_eq_some_iff.1 ht
    exact ⟨[], P, .refl, rfl, by rw [← hat, List.set_getElem_self]⟩
  induction n generalizing P p h with
  | zero => exact hrest P p h ht
  | succ n ih =>
    cases p with
    | act a k =>
      obtain ⟨es, Q, hrun, hworld, -, hthreads⟩ := exists_effect ht
      obtain ⟨es', R, hrun', hworld', hthreads'⟩ := ih (getElem?_of_eq_set hthreads ht)
      rw [hworld] at hworld' hthreads'
      rw [hthreads, List.set_set] at hthreads'
      exact ⟨_, R, hrun.append hrun', hworld', hthreads'⟩
    | _ => exact hrest P _ h ht

end Pool

end ResilientCalls
