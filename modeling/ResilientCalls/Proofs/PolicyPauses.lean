import ResilientCalls.Proofs.RetryPauses

/-!
# The pauses of a policy

A policy comes from one of three constructors, and then a longest pause and a priority are set on it any number of times
(`RetryPolicy.Built`). A growing pause stays below the longest one at every retry, but a policy that does not grow
never looks at it (`RetryPolicy.cap_kept_iff`). A pause of no length that grows is a product with a power of the factor,
and zero times a power that is beyond all floats is not a number, for which the handler takes the longest duration
(`RetryPolicy.zero_kept_iff`).
-/

namespace ResilientCalls

open Float.Model (UnpackedFloat)

variable {σ : Type}

/-! ## Products of floats -/

/-- A zero of either sign. -/
def floatZero (s : UnpackedFloat.Sign) : Float := .ofModel (.pack (.zero s))

/-- The float that is not a number. -/
def floatNaN : Float := .ofModel (.pack .notANumber)

theorem mul_eq_pack (x y : Float) :
    x * y = .ofModel (.pack (UnpackedFloat.mul .binary64 x.toModel.unpack y.toModel.unpack)) := rfl

theorem mul_congr_unpack {x x' y y' : Float} (hx : x.toModel.unpack = x'.toModel.unpack)
    (hy : y.toModel.unpack = y'.toModel.unpack) : x * y = x' * y' := by
  rw [mul_eq_pack, mul_eq_pack, hx, hy]

theorem unpack_eq_of_beq_one {x : Float} (hx : (x == 1.0) = true) :
    x.toModel.unpack = (1.0 : Float).toModel.unpack := by
  have hone : (1.0 : Float).toModel.unpack = .finite .positive (2 ^ 52) (-52) (by decide) := by rfl
  have hbeq : x.toModel.unpack.beq (1.0 : Float).toModel.unpack = true := hx
  rw [hone] at hbeq ⊢
  cases hu : x.toModel.unpack with
  | notANumber => rw [hu] at hbeq; cases hbeq
  | infinity s => rw [hu] at hbeq; cases s <;> cases hbeq
  | zero s => rw [hu] at hbeq; cases hbeq
  | finite s m e hm =>
    rw [hu] at hbeq
    cases s with
    | negative => cases hbeq
    | positive =>
      -- Two floats of one sign compare by exponent and significand.
      have hcompare : (some ((compare e (-52)).then (compare m (2 ^ 52))) == some .eq) = true := hbeq
      simp only [beq_iff_eq, Option.some.injEq, Ordering.then_eq_eq, Int.compare_eq_eq, Nat.compare_eq_eq] at hcompare
      obtain ⟨rfl, rfl⟩ := hcompare
      rfl

theorem floatZero_mul (x : Float) :
    x.isFinite = true ∧ (∃ s, floatZero .positive * x = floatZero s) ∨
      x.isFinite = false ∧ floatZero .positive * x = floatNaN := by
  have hfinite : x.isFinite = x.toModel.unpack.isFinite := rfl
  have hzero : (floatZero .positive).toModel.unpack = .zero .positive := rfl
  rw [mul_eq_pack, hzero, hfinite]
  cases x.toModel.unpack with
  | notANumber => exact .inr ⟨rfl, rfl⟩
  | infinity s => exact .inr ⟨rfl, rfl⟩
  | zero s => exact .inl ⟨rfl, _, rfl⟩
  | finite s m e hm => exact .inl ⟨rfl, _, rfl⟩

theorem powerLoop_one {base : Float} (hbase : base.toModel.unpack = (1.0 : Float).toModel.unpack) (digits n : Nat) :
    powerLoop digits 1.0 base n = 1.0 := by
  have hone : (1.0 : Float) * 1.0 = 1.0 := by decide +kernel
  induction digits generalizing base n with
  | zero => rfl
  | succ digits ih =>
    have hacc : (if n % 2 = 1 then 1.0 * base else 1.0) = 1.0 := by
      split
      · exact (mul_congr_unpack rfl hbase).trans hone
      · rfl
    have hsquare : base * base = 1.0 := (mul_congr_unpack hbase hbase).trans hone
    simp only [powerLoop, hacc]
    split
    · rfl
    · exact ih (congrArg (·.toModel.unpack) hsquare) _

theorem isFinite_power_of_beq_one {x : Float} (hx : (x == 1.0) = true) (n : Nat) : (power x n).isFinite = true := by
  have hone : (1.0 : Float).isFinite = true := by decide +kernel
  rw [power, powerLoop_one (unpack_eq_of_beq_one hx), hone]

namespace Backoff

theorem toDuration_floatZero (s : UnpackedFloat.Sign) : toDuration (floatZero s) = .zero := by
  cases s <;> decide +kernel

theorem toDuration_floatNaN : toDuration floatNaN = .max := by decide +kernel

/-- Growth from nothing: no pause while the power is finite, and the longest one after that. -/
theorem toDuration_product_of_zero {b : Backoff} (hb : b.initial = .zero) (n : Nat) :
    toDuration (b.product n) = if (power b.multiplier (min n maxExponent)).isFinite then .zero else .max := by
  have hzero : Float.ofScientific b.initial.nanos false 0 = floatZero .positive := by
    rw [hb]
    decide +kernel
  rw [product, hzero]
  rcases floatZero_mul (power b.multiplier (min n maxExponent)) with ⟨hfinite, s, hs⟩ | ⟨hfinite, hnan⟩
  · rw [hs, toDuration_floatZero, if_pos hfinite]
  · rw [hnan, toDuration_floatNaN, if_neg (by rw [hfinite]; exact Bool.false_ne_true)]

theorem pause_eq (b : Backoff) (n : Nat) :
    b.pause n = b.cap.elim (toDuration (b.product n)) (toDuration (b.product n)).atMost := by
  unfold pause
  cases b.cap <;> rfl

end Backoff

theorem Duration.zero_atMost (cap : Duration) : Duration.zero.atMost cap = .zero := if_pos (Nat.zero_le cap.nanos)

theorem Duration.max_atMost (cap : Duration) : Duration.max.atMost cap = cap := by
  unfold atMost
  split
  · next h => rw [Duration.mk.injEq]; exact Nat.le_antisymm h cap.nanos_le
  · rfl

theorem Duration.atMost_eq_self_iff {d cap : Duration} : d.atMost cap = d ↔ d ≤ cap := by
  refine ⟨fun h => h ▸ atMost_le d cap, fun h => if_pos h⟩

/-! ## How a policy is built -/

namespace RetryPolicy

/-- The policy is built with this interval, this factor and this longest pause. -/
inductive Built (interval : Duration) : Float → Option Duration → RetryPolicy → Prop
  | fixed {count : Nat} {p : RetryPolicy} : RetryPolicy.fixed count interval = .ok p → Built interval 1.0 none p
  | exponential {count : Nat} {multiplier : Float} {p : RetryPolicy} :
      RetryPolicy.exponential count interval multiplier = .ok p → Built interval multiplier none p
  | ofRetryStrategy {s : RetryStrategy} : s.interval = interval → Built interval 1.0 none (.ofRetryStrategy s)
  /-- Of several longest pauses the last one counts. -/
  | withMaxInterval {multiplier : Float} {cap? : Option Duration} {p : RetryPolicy} (cap : Duration) :
      Built interval multiplier cap? p → Built interval multiplier (some cap) (p.withMaxInterval cap)
  | withPriority {multiplier : Float} {cap? : Option Duration} {p : RetryPolicy} (priority : Int) :
      Built interval multiplier cap? p → Built interval multiplier cap? (p.withPriority priority)

variable {interval : Duration} {multiplier : Float} {cap? : Option Duration} {p : RetryPolicy}

theorem eq_of_exponential {count : Nat} (hp : exponential count interval multiplier = .ok p) :
    ∃ hcount hgrowth, p = ⟨count, interval, multiplier, none, defaultPriority, hcount, hgrowth⟩ := by
  unfold exponential at hp
  split at hp
  · split at hp
    · exact ⟨_, _, (Except.ok.inj hp).symm⟩
    · cases hp
  · cases hp

theorem Built.fields (hp : p.Built interval multiplier cap?) :
    p.interval = interval ∧ p.multiplier = multiplier ∧ p.maxInterval = cap? := by
  induction hp with
  | fixed hp | exponential hp =>
    obtain ⟨hcount, hgrowth, rfl⟩ := eq_of_exponential hp
    exact ⟨rfl, rfl, rfl⟩
  | ofRetryStrategy hs => exact ⟨hs, rfl, rfl⟩
  | withMaxInterval cap _ ih => exact ⟨ih.1, ih.2.1, rfl⟩
  | withPriority priority _ ih => exact ih

theorem built (p : RetryPolicy) : p.Built p.interval p.multiplier p.maxInterval := by
  obtain ⟨count, interval, multiplier, maxInterval, priority, hcount, hgrowth⟩ := p
  have hp : exponential count interval multiplier =
      .ok ⟨count, interval, multiplier, none, defaultPriority, hcount, hgrowth⟩ := by
    rw [exponential, dif_pos hcount, dif_pos hgrowth]
  cases maxInterval with
  | none => exact .withPriority priority (.exponential hp)
  | some cap => exact .withPriority priority (.withMaxInterval cap (.exponential hp))

/-! ## The longest pause -/

/-- A policy that does not grow makes its pause whatever is set as the longest one. -/
theorem pause_of_steady (hp : (p.multiplier == 1.0) = true) (n : Nat) : p.pacing.pause n = p.interval := by
  rw [pacing, if_pos hp, Pacing.fixed]

theorem pause_of_growing (hp : (p.multiplier == 1.0) = false) (n : Nat) :
    p.pacing.pause n = Backoff.pause ⟨p.interval, p.multiplier, p.maxInterval⟩ n := by
  rw [pacing, if_neg (by rw [hp]; exact Bool.false_ne_true), Backoff.pacing]

/-- The policy before a longest pause is set. -/
def uncapped (p : RetryPolicy) : RetryPolicy := { p with maxInterval := none }

theorem pause_atMost_of_growing {cap : Duration} (hp : (p.multiplier == 1.0) = false) (hcap : p.maxInterval = some cap)
    (n : Nat) : p.pacing.pause n = (p.uncapped.pacing.pause n).atMost cap := by
  rw [pause_of_growing hp, pause_of_growing (p := p.uncapped) hp, Backoff.pause_eq, Backoff.pause_eq, hcap]
  rfl

/-- **The longest pause of a policy.** There are no other policies than those that are built. However a policy is built,
it has the longest pause that was set last. At every retry, whatever its number, the handler of the policy makes no
longer pause, and makes the pause that it would make otherwise cut to the longest one, exactly if the pause grows or the
interval is within the longest pause anyway. -/
theorem cap_kept_iff {cap : Duration} (hp : p.Built interval multiplier (some cap)) :
    (∀ q : RetryPolicy, q.Built q.interval q.multiplier q.maxInterval) ∧ p.maxInterval = some cap ∧ ∀ n,
      ((RetryHandler.ofPolicy p : RetryHandler σ).pacing.pause n ≤ cap ↔
        (multiplier == 1.0) = false ∨ interval ≤ cap) ∧
      ((RetryHandler.ofPolicy p : RetryHandler σ).pacing.pause n =
          ((RetryHandler.ofPolicy p.uncapped : RetryHandler σ).pacing.pause n).atMost cap ↔
        (multiplier == 1.0) = false ∨ interval ≤ cap) := by
  obtain ⟨rfl, rfl, hcap⟩ := hp.fields
  refine ⟨built, hcap, fun n => ?_⟩
  rw [RetryHandler.ofPolicy, RetryHandler.ofPolicy]
  cases hsteady : p.multiplier == 1.0 with
  | true =>
    have huncapped : p.uncapped.pacing.pause n = p.interval := pause_of_steady (p := p.uncapped) hsteady n
    simp [pause_of_steady hsteady, huncapped, eq_comm (a := p.interval), Duration.atMost_eq_self_iff]
  | false =>
    have hcut := pause_atMost_of_growing hsteady hcap n
    simp [hcut, Duration.atMost_le]

/-- A pause that doubles, with a longest pause that is set twice; it is kept to after any number of retries. -/
theorem cap_kept_iff_doubling :
    let start : RetryPolicy :=
      ⟨5, .ofNanos (tenTo 9) (by decide), 2.0, none, defaultPriority, by decide, by decide +kernel⟩
    let cap : Duration := .ofNanos (3 * tenTo 9) (by decide)
    let p := ((start.withMaxInterval .zero).withPriority (-1)).withMaxInterval cap
    exponential 5 start.interval 2.0 = .ok start ∧ p.Built start.interval 2.0 (some cap) ∧
      p.maxInterval = some cap ∧ (RetryHandler.ofPolicy p : RetryHandler Unit).pacing.pause (twoTo 40) ≤ cap := by
  intro start cap p
  have hstart : exponential 5 start.interval 2.0 = .ok start := by
    rw [exponential, dif_pos start.count_pos, dif_pos start.growth]
  have hp : p.Built start.interval 2.0 (some cap) :=
    .withMaxInterval cap (.withPriority (-1) (.withMaxInterval .zero (.exponential hstart)))
  obtain ⟨-, hcap, hpause⟩ := cap_kept_iff (σ := Unit) hp
  exact ⟨hstart, hp, hcap, (hpause _).1.2 (.inl (by decide))⟩

/-- A fixed pause of a millisecond under a longest one of a microsecond. -/
theorem cap_forgotten :
    let start : RetryPolicy := ⟨1, .ofNanos (tenTo 6) (by decide), 1.0, none, defaultPriority, by decide, by decide⟩
    let cap : Duration := .ofNanos (tenTo 3) (by decide)
    let p := start.withMaxInterval cap
    RetryPolicy.fixed 1 start.interval = .ok start ∧ p.Built start.interval 1.0 (some cap) ∧
      p.maxInterval = some cap ∧ ¬ (RetryHandler.ofPolicy p : RetryHandler Unit).pacing.pause 0 ≤ cap := by
  intro start cap p
  have hstart : RetryPolicy.fixed 1 start.interval = .ok start := by
    rw [fixed, exponential, dif_pos start.count_pos, dif_pos start.growth]
  have hpause : (RetryHandler.ofPolicy p : RetryHandler Unit).pacing.pause 0 = start.interval :=
    pause_of_steady (by decide) 0
  refine ⟨hstart, .withMaxInterval cap (.fixed hstart), rfl, ?_⟩
  rw [hpause]
  decide

/-! ## No interval -/

/-- At this retry a pause of no length is still of no length: the power of the factor is finite, or else no pause is
allowed to have a length. -/
def KeepsZero (p : RetryPolicy) (n : Nat) : Prop :=
  (power p.multiplier (min n Backoff.maxExponent)).isFinite = true ∨ p.maxInterval = some .zero

instance (p : RetryPolicy) (n : Nat) : Decidable (p.KeepsZero n) := inferInstanceAs (Decidable (_ ∨ _))

theorem pause_of_zero (hp : p.interval = .zero) (n : Nat) :
    p.pacing.pause n =
      if (power p.multiplier (min n Backoff.maxExponent)).isFinite then .zero else p.maxInterval.getD .max := by
  cases hsteady : p.multiplier == 1.0 with
  | true => rw [pause_of_steady hsteady, if_pos (isFinite_power_of_beq_one hsteady _), hp]
  | false =>
    rw [pause_of_growing hsteady, Backoff.pause_eq, Backoff.toDuration_product_of_zero hp]
    split <;> cases p.maxInterval <;> simp [Duration.zero_atMost, Duration.max_atMost]

theorem pause_eq_zero_iff (hp : p.interval = .zero) (n : Nat) : p.pacing.pause n = .zero ↔ p.KeepsZero n := by
  rw [pause_of_zero hp, KeepsZero]
  have hmax : Duration.max ≠ .zero := by decide
  split <;> cases p.maxInterval <;> simp_all

theorem still_retrying_iff {scope : String} {n : Nat} :
    Still (p.retrying scope n : List (Deed σ)) ↔ p.pacing.pause n = .zero := by
  rw [← Duration.isZero_iff]
  cases hzero : (p.pacing.pause n).isZero <;> simp [Still, retrying, Duration.pausing, hzero, Deed.isPause]

/-- **Retries without a pause.** If a policy has no interval, its handler makes no pause before a retry exactly if the
power of the factor is finite or the longest pause is of no length; otherwise it makes the longest pause there is. So a
request whose policies have no interval goes through all its retries without a pause exactly if this holds of each
retry. -/
theorem zero_kept_iff :
    (∀ p : RetryPolicy, p.interval = .zero → ∀ n,
      ((RetryHandler.ofPolicy p : RetryHandler σ).pacing.pause n = .zero ↔ p.KeepsZero n) ∧
        (¬ p.KeepsZero n → (RetryHandler.ofPolicy p : RetryHandler σ).pacing.pause n = p.maxInterval.getD .max)) ∧
      ∀ c : Context, (∀ p ∈ FailoverChain.policies c, p.interval = .zero) →
        ((∀ x ∈ c.schedule, ∀ scope, Still (x.1.retrying scope x.2 : List (Deed σ))) ↔
          ∀ p ∈ FailoverChain.policies c, ∀ n < p.count, p.KeepsZero n) := by
  refine ⟨fun p hp n => ⟨pause_eq_zero_iff hp n, fun hnot => ?_⟩, fun c hc => ?_⟩
  · rw [RetryHandler.ofPolicy, pause_of_zero hp, if_neg fun hfinite => hnot (.inl hfinite)]
  · simp only [Context.schedule, List.mem_flatMap, List.mem_map, List.mem_range, still_retrying_iff, forall_const]
    constructor
    · intro hall p hp n hn
      exact (pause_eq_zero_iff (hc p hp) n).1 (hall (p, n) ⟨p, (perm_ordered c).mem_iff.2 hp, n, hn, rfl⟩)
    · rintro hkeeps _ ⟨p, hp, n, hn, rfl⟩
      have hp := (perm_ordered c).mem_iff.1 hp
      exact (pause_eq_zero_iff (hc p hp) n).2 (hkeeps p hp n hn)

/-- Doubling a pause of no length goes well up to the retry with the number 1023. -/
theorem zero_kept_iff_doubling :
    let p : RetryPolicy := ⟨1025, .zero, 2.0, none, defaultPriority, by decide, by decide +kernel⟩
    let c : Context := ⟨"client", [.failover ⟨[⟨3, .zero, 2.0, none, defaultPriority, by decide, by decide +kernel⟩]⟩]⟩
    (RetryHandler.ofPolicy p : RetryHandler Unit).pacing.pause 1023 = .zero ∧
      (RetryHandler.ofPolicy p : RetryHandler Unit).pacing.pause 1024 = .max ∧
      (∀ q ∈ FailoverChain.policies c, q.interval = .zero) ∧
      ∀ x ∈ c.schedule, ∀ scope, Still (x.1.retrying scope x.2 : List (Deed Unit)) := by
  intro p c
  obtain ⟨hpolicy, hrequest⟩ := zero_kept_iff (σ := Unit)
  have hzero : ∀ q ∈ FailoverChain.policies c, q.interval = .zero := by
    simp [c, FailoverChain.policies, Context.retry?, Context.failover?, Context.get?, Strategy.kind]
  refine ⟨(hpolicy p rfl 1023).1.2 (by decide +kernel), (hpolicy p rfl 1024).2 (by decide +kernel), hzero, ?_⟩
  refine (hrequest c hzero).2 ?_
  simp only [c, FailoverChain.policies, Context.retry?, Context.failover?, Context.get?, Strategy.kind]
  decide +kernel

/-- A factor whose square is beyond all floats: the third retry never comes. -/
theorem zero_not_kept :
    let p : RetryPolicy := ⟨3, .zero, 1e200, none, defaultPriority, by decide, by decide +kernel⟩
    exponential 3 .zero 1e200 = .ok p ∧ p.interval = .zero ∧
      (RetryHandler.ofPolicy p : RetryHandler Unit).pacing.pause 2 = .max := by
  intro p
  refine ⟨?_, rfl, ?_⟩
  · rw [exponential, dif_pos p.count_pos, dif_pos p.growth]
  · decide +kernel

end RetryPolicy

end ResilientCalls
