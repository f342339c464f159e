import ResilientCalls.Proofs.Passages

/-!
# One channel for one worker

A worker and the thread that started it have a channel of their own. An `Errand` is what became of the
two: nobody else waits on the channel or answers on it, the thread goes on once, with the worker's own
end or because the wait is over, and a worker that ends after that changes nothing (`Runs.errand`,
`Step.eq_of_left`).
-/

namespace ResilientCalls

open Program

variable {σ α β : Type}

/-- What a thread hears of a worker that came to its end in time. -/
def Delivery.ofEnd : Except Payload β → Delivery β
  | .ok b => .delivered b
  | .error _ => .crashed

theorem Channel.Answers.eq_ofEnd {r : Except Payload β} {d : Delivery β} (h : (holds r).Answers d) : d = .ofEnd r := by
  cases h with
  | value b => rfl
  | crash p => rfl

/-- The channel that a step is about. -/
def Deed.channel? : Deed σ → Option ChannelId
  | .started m _ | .answered m _ | .finished m _ => some m
  | _ => none

/-- Work that one thread gives to another. -/
structure Errand (σ : Type) : Type 1 where
  /-- The thread that waits for the work. -/
  caller : Nat
  worker : Nat
  job : Job σ
  /-- How the worker came to its end, if it has. -/
  outcome : Option (Except Payload job.Value)
  /-- What the caller went on with, if it has. -/
  answer : Option (Delivery job.Value)

namespace Pool

variable {P Q : Pool σ} {t u n : Nat} {m : ChannelId} {e : Deed σ} {es es' : List (Nat × Deed σ)} {job : Job σ}

/-- The steps about a channel. -/
def stepsOn (m : ChannelId) (es : List (Nat × Deed σ)) : List (Nat × Deed σ) :=
  es.filter fun e => e.2.channel? = some m

theorem stepsOn_snoc (hm : e.channel? = some m) : stepsOn m (es ++ [(u, e)]) = stepsOn m es ++ [(u, e)] := by
  simp [stepsOn, hm]

theorem stepsOn_snoc_of_ne (hm : e.channel? ≠ some m) : stepsOn m (es ++ [(u, e)]) = stepsOn m es := by
  simp [stepsOn, hm]

/-- Thread `t` waits for a job on a channel. -/
def Receives (P : Pool σ) (t : Nat) (m : ChannelId) (job : Job σ) : Prop :=
  ∃ (α : Type) (sender : Option ChannelId) (h : Option Context) (k : Delivery job.Value → Program σ α)
    (deadline : Moment), P.threads[t]? =
      some ⟨α, sender, ⟨h, .worker job.attached job.body job.bound k, .receiving m deadline⟩⟩

end Pool

namespace Errand

/-- The steps of an errand, in their order. -/
def steps (l : Errand σ) (m : ChannelId) : List (Nat × Deed σ) :=
  let ended : List (Nat × Deed σ) := l.outcome.toList.map fun r => (l.worker, .finished m r)
  (l.caller, .started m l.job) ::
    match l.answer with
    | none => ended
    | some .elapsed => (l.caller, .answered m (.elapsed : Delivery l.job.Value)) :: ended
    | some d => ended ++ [(l.caller, .answered m d)]

/-- What is on the channel. -/
def channel (l : Errand σ) : Channel :=
  match l.answer, l.outcome with
  | some _, _ => .left
  | none, some r => .holds r
  | none, none => .empty

/-- An errand in a run that has come to `P`. -/
structure Stands (l : Errand σ) (P : Pool σ) (es : List (Nat × Deed σ)) (m : ChannelId) : Prop where
  /-- Nothing else was done about the channel. -/
  steps : Pool.stepsOn m es = l.steps m
  apart : l.worker ≠ l.caller
  /-- With each worker there comes one channel, so a worker has one errand. -/
  number : l.worker + P.shared.channels.length = P.threads.length + m
  /-- The caller went on because the wait was over, or with the end of this worker. -/
  heard : ∀ d, l.answer = some d → d = .elapsed ∨ ∃ r, l.outcome = some r ∧ d = .ofEnd r
  /-- The worker does the job and nothing else. -/
  worked : ∃ x, P.Has l.worker x ∧ l.job.thread.Path (Pool.deedsOf l.worker es) x ∧
    ∀ r, l.outcome = some r → x.over? = some r
  channel : P.shared.channels[m]? = some l.channel
  /-- Nobody else waits on the channel, and nobody at all once the caller went on. -/
  receiver : ∀ {t : Nat} {job : Job σ}, P.Receives t m job → t = l.caller ∧ job = l.job ∧ l.answer = none
  /-- Nobody else can answer on the channel, and nobody at all once the worker has ended. -/
  sender : ∀ {n : Nat} {x : Member σ}, P.threads[n]? = some x → x.sender = some m →
    n = l.worker ∧ l.outcome = none

end Errand

/-! ## Steps -/

theorem Thread.Does.started_of_receiving {x : Thread σ α} {now : Nat} {e : Deed σ} {h : Option Context}
    {job : Job σ} {k : Delivery job.Value → Program σ α} {m : ChannelId} {deadline : Moment}
    {y : Thread σ α} (hdoes : x.Does now e y)
    (hy : y = ⟨h, .worker job.attached job.body job.bound k, .receiving m deadline⟩) : e = .started m job := by
  cases hdoes with
  | start =>
    cases hy
    rfl
  | @act β h h' a b k w w' hstep =>
    have hstage : a.stageAfter b = .receiving m deadline := congrArg Thread.stage hy
    unfold Action.stageAfter at hstage
    split at hstage <;> cases hstage
  | _ => cases congrArg Thread.stage hy

theorem Deed.getElem?_offspring {e : Deed σ} {i : Nat} {x : Member σ} (hx : e.offspring[i]? = some x) :
    i = 0 ∧ ∃ m job, e = .started m job ∧ x = ⟨job.Value, some m, job.thread⟩ := by
  cases e with
  | started m job =>
    rw [offspring, List.getElem?_singleton] at hx
    split at hx
    · rename_i hi
      exact ⟨hi, m, job, rfl, (Option.some.inj hx).symm⟩
    · cases hx
  | _ => cases hx

namespace Pool

variable {P Q : Pool σ} {t u n : Nat} {m : ChannelId} {e : Deed σ} {es es' : List (Nat × Deed σ)} {job : Job σ}

theorem getElem?_of_set {ms : List (Member σ)} {x y : Member σ} (ht : (ms.set u y)[t]? = some x) :
    (t = u ∧ x = y) ∨ (t ≠ u ∧ ms[t]? = some x) := by
  by_cases hu : t = u
  · subst hu
    obtain ⟨hlt, hx⟩ := List.getElem?_eq_some_iff.1 ht
    rw [List.getElem_set_self] at hx
    exact .inl ⟨rfl, hx.symm⟩
  · rw [List.getElem?_set_ne (Ne.symm hu)] at ht
    exact .inr ⟨hu, ht⟩

theorem getElem?_of_set_append {ms off : List (Member σ)} {x y : Member σ}
    (ht : (ms.set u y ++ off)[t]? = some x) :
    (t = u ∧ x = y) ∨ (t ≠ u ∧ ms[t]? = some x) ∨ (ms.length ≤ t ∧ off[t - ms.length]? = some x) := by
  rw [List.getElem?_append, List.length_set] at ht
  split at ht
  · exact (getElem?_of_set ht).imp id .inl
  · rename_i hlt
    exact .inr (.inr ⟨Nat.le_of_not_lt hlt, ht⟩)

theorem Step.lt_length (hstep : P.Step u e Q) : u < P.threads.length := by
  cases hstep with
  | does hu => exact (List.getElem?_eq_some_iff.1 hu).1
  | finishes hu => exact (List.getElem?_eq_some_iff.1 hu).1

theorem Step.length_le (hstep : P.Step u e Q) : P.threads.length ≤ Q.threads.length := by
  cases hstep with
  | does => simp
  | finishes => simp

theorem Step.grows (hstep : P.Step u e Q) : ∃ k, Q.threads.length = P.threads.length + k ∧
    Q.shared.channels.length = P.shared.channels.length + k := by
  cases hstep with
  | does hu hdoes hallows =>
    cases hallows with
    | started => exact ⟨1, by simp [Deed.offspring], by simp⟩
    | _ => exact ⟨0, by simp [Deed.offspring], by simp [Shared.rouse]⟩
  | finishes => exact ⟨0, by simp, by simp⟩

theorem Runs.deedsOf_eq_nil (hrun : P.Runs es Q) (hn : Q.threads.length ≤ n) : deedsOf n es = [] := by
  induction hrun with
  | refl => rfl
  | @step es Q R u e _ hstep ih =>
    have hle := hstep.length_le
    have hne : ¬ u = n := fun h => by
      have hlt := hstep.lt_length
      omega
    rw [deedsOf_append, ih (by omega)]
    simp [deedsOf, hne]
  | wait _ _ ih => exact ih hn

theorem Step.channel_of_ne (hstep : P.Step u e Q) (hm : e.channel? ≠ some m) :
    Q.shared.channels[m]? = P.shared.channels[m]? := by
  cases hstep with
  | does hu hdoes hallows =>
    cases hallows with
    | started =>
      have hne : m ≠ P.shared.channels.length := fun h => hm (congrArg some h.symm)
      rcases Nat.lt_or_gt_of_ne hne with hlt | hgt
      · exact List.getElem?_append_left hlt
      · rw [List.getElem?_eq_none (by simp; omega), List.getElem?_eq_none (by omega)]
    | answered => exact List.getElem?_set_ne fun h => hm (congrArg some h)
    | _ => rfl
  | finishes => exact List.getElem?_set_ne fun h => hm (congrArg some h)

theorem Step.receives (hstep : P.Step u e Q) (hQ : Q.Receives t m job) :
    (t ≠ u ∧ P.Receives t m job) ∨ (t = u ∧ e = .started m job) := by
  obtain ⟨α, sender, h, k, deadline, ht⟩ := hQ
  cases hstep with
  | does hu hdoes hallows =>
    rcases getElem?_of_set_append ht with ⟨rfl, heq⟩ | ⟨hne, ht⟩ | ⟨hle, hoff⟩
    · cases heq
      exact .inr ⟨rfl, hdoes.started_of_receiving rfl⟩
    · exact .inl ⟨hne, α, sender, h, k, deadline, ht⟩
    · obtain ⟨-, m', job', -, heq⟩ := Deed.getElem?_offspring hoff
      cases congrArg (fun x : Member σ => x.thread.stage) heq
  | finishes hu hover =>
    rcases getElem?_of_set ht with ⟨rfl, heq⟩ | ⟨hne, ht⟩
    · cases heq
      cases hover
    · exact .inl ⟨hne, α, sender, h, k, deadline, ht⟩

theorem Step.sender {x : Member σ} (hstep : P.Step u e Q) (hn : Q.threads[n]? = some x) (hx : x.sender = some m) :
    (∃ x', P.threads[n]? = some x' ∧ x'.sender = some m ∧ (n = u → e.isOwn = true)) ∨
      (n = P.threads.length ∧ ∃ job, e = .started m job) := by
  cases hstep with
  | does hu hdoes hallows =>
    rcases getElem?_of_set_append hn with ⟨rfl, rfl⟩ | ⟨hne, hn⟩ | ⟨hle, hoff⟩
    · exact .inl ⟨_, hu, hx, fun _ => by cases hdoes <;> rfl⟩
    · exact .inl ⟨x, hn, hx, fun h => absurd h hne⟩
    · obtain ⟨hi, m', job, rfl, rfl⟩ := Deed.getElem?_offspring hoff
      cases hx
      exact .inr ⟨by omega, job, rfl⟩
  | finishes hu hover =>
    rcases getElem?_of_set hn with ⟨rfl, rfl⟩ | ⟨hne, hn⟩
    · cases hx
    · exact .inl ⟨x, hn, hx, fun h => absurd h hne⟩

theorem Step.started (hstep : P.Step u (.started m job) Q) :
    m = P.shared.channels.length ∧ Q.shared.channels = P.shared.channels ++ [.empty] ∧
      Q.Has P.threads.length job.thread := by
  cases hstep with
  | does hu hdoes hallows =>
    cases hallows
    exact ⟨rfl, rfl, some P.shared.channels.length, by simp [Deed.offspring]⟩

theorem Step.answered {d : Delivery β} (hstep : P.Step u (.answered m d) Q) :
    ∃ job : Job σ, job.Value = β ∧ P.Receives u m job ∧
      ∃ c, P.shared.channels[m]? = some c ∧ c.Answers d ∧ Q.shared.channels = P.shared.channels.set m .left := by
  cases hstep with
  | does hu hdoes hallows =>
    cases hallows with
    | answered hm hanswers =>
      cases hdoes with
      | @receive β h c body bound k m deadline d hd =>
        exact ⟨⟨β, c, body, bound⟩, rfl, ⟨_, _, h, k, deadline, hu⟩, _, hm, hanswers, rfl⟩

theorem Step.finished {r : Except Payload β} (hstep : P.Step u (.finished m r) Q) :
    ∃ x, P.threads[u]? = some ⟨β, some m, x⟩ ∧ x.over? = some r ∧
      ∃ c, P.shared.channels[m]? = some c ∧ Q.shared.channels = P.shared.channels.set m (c.close r) := by
  cases hstep with
  | does hu hdoes hallows => cases hdoes
  | finishes hu hover hm => exact ⟨_, hu, hover, _, hm, rfl⟩

/-- The end of a worker that nobody listens to changes nothing for anybody. -/
theorem Step.eq_of_left {r : Except Payload β} (hstep : P.Step n (.finished m r) Q)
    (hleft : P.shared.channels[m]? = some .left) :
    Q.shared = P.shared ∧ ∀ {u : Nat} {α : Type} {x : Thread σ α}, Q.Has u x ↔ P.Has u x := by
  cases hstep with
  | does hu hdoes hallows => cases hdoes
  | @finishes α m x outcome c hn hover hm =>
    cases hm.symm.trans hleft
    obtain ⟨hlt, hget⟩ := List.getElem?_eq_some_iff.1 hleft
    have hset : P.shared.channels.set m (Channel.left.close r) = P.shared.channels := by
      rw [Channel.close, ← hget, List.set_getElem_self]
    refine ⟨by rw [hset], fun {u β y} => ⟨?_, ?_⟩⟩
    · rintro ⟨sender, hu⟩
      rcases getElem?_of_set hu with ⟨rfl, heq⟩ | ⟨-, hu⟩
      · cases heq
        exact ⟨_, hn⟩
      · exact ⟨sender, hu⟩
    · rintro ⟨sender, hu⟩
      by_cases hne : u = n
      · subst hne
        cases hu.symm.trans hn
        exact ⟨none, List.getElem?_set_self (List.getElem?_eq_some_iff.1 hn).1⟩
      · exact ⟨sender, by rw [List.getElem?_set_ne (Ne.symm hne)]; exact hu⟩

/-- A channel that no worker has yet. -/
structure Unused (P : Pool σ) (es : List (Nat × Deed σ)) (m : ChannelId) : Prop where
  length_le : P.shared.channels.length ≤ m
  steps : stepsOn m es = []
  receiver : ∀ {t : Nat} {job : Job σ}, ¬ P.Receives t m job
  sender : ∀ {n : Nat} {x : Member σ}, P.threads[n]? = some x → x.sender ≠ some m

end Pool

/-! ## What a step makes of an errand -/

section Errands

variable {P Q : Pool σ} {u : Nat} {m : ChannelId} {e : Deed σ} {es : List (Nat × Deed σ)} {l : Errand σ}

open Pool

theorem Pool.Unused.step (hunused : P.Unused es m) (hstep : P.Step u e Q) (hm : e.channel? ≠ some m) :
    Q.Unused (es ++ [(u, e)]) m where
  length_le := by
    rw [← List.getElem?_eq_none_iff, hstep.channel_of_ne hm, List.getElem?_eq_none_iff]
    exact hunused.length_le
  steps := by rw [stepsOn_snoc_of_ne hm, hunused.steps]
  receiver hQ := by
    rcases hstep.receives hQ with ⟨-, hP⟩ | ⟨-, rfl⟩
    · exact hunused.receiver hP
    · exact hm rfl
  sender hn hx := by
    rcases hstep.sender hn hx with ⟨x', hn', hx', -⟩ | ⟨-, job, rfl⟩
    · exact hunused.sender hn' hx'
    · exact hm rfl

theorem Pool.Unused.started {P₀ : Pool σ} {job : Job σ} (hunused : P.Unused es m) (hruns : P₀.Runs es P)
    (hstep : P.Step u (.started m job) Q) :
    (⟨u, P.threads.length, job, none, none⟩ : Errand σ).Stands Q (es ++ [(u, .started m job)]) m := by
  obtain ⟨rfl, hchannels, hworker⟩ := hstep.started
  have hidle : deedsOf P.threads.length (es ++ [(u, .started P.shared.channels.length job)]) = [] := by
    have hne : ¬ u = P.threads.length := Nat.ne_of_lt hstep.lt_length
    rw [deedsOf_append, hruns.deedsOf_eq_nil (Nat.le_refl _)]
    simp [deedsOf, hne]
  exact {
    steps := by
      rw [stepsOn_snoc rfl, hunused.steps]
      rfl
    apart := Nat.ne_of_gt hstep.lt_length
    number := by
      obtain ⟨k, hthreads, hlengths⟩ := hstep.grows
      show P.threads.length + _ = _ + P.shared.channels.length
      omega
    heard := fun _ hd => by cases hd
    worked := ⟨job.thread, hworker, hidle ▸ .rest _, fun _ hr => by cases hr⟩
    channel := by
      rw [hchannels]
      simp [Errand.channel]
    receiver := fun hQ => by
      rcases hstep.receives hQ with ⟨-, hP⟩ | ⟨rfl, heq⟩
      · exact absurd hP hunused.receiver
      · cases heq
        exact ⟨rfl, rfl, rfl⟩
    sender := fun hn hx => by
      rcases hstep.sender hn hx with ⟨x', hn', hx', -⟩ | ⟨rfl, -⟩
      · exact absurd hx' (hunused.sender hn')
      · exact ⟨rfl, rfl⟩ }

namespace Errand.Stands

theorem number_step (hl : l.Stands P es m) (hstep : P.Step u e Q) :
    l.worker + Q.shared.channels.length = Q.threads.length + m := by
  obtain ⟨k, hthreads, hchannels⟩ := hstep.grows
  have hnumber := hl.number
  omega

theorem worked_step (hl : l.Stands P es m) (hstep : P.Step u e Q) :
    ∃ x, Q.Has l.worker x ∧ l.job.thread.Path (deedsOf l.worker (es ++ [(u, e)])) x ∧
      ∀ r, l.outcome = some r → x.over? = some r := by
  obtain ⟨x, hx, hpath, hover⟩ := hl.worked
  obtain ⟨y, hstretch, hy⟩ := (Runs.refl.step hstep).path hx
  refine ⟨y, hy, ?_, fun r hr => ?_⟩
  · rw [deedsOf_append]
    exact hpath.append hstretch
  · obtain ⟨-, rfl⟩ := Thread.path_of_over (hover r hr) hstretch
    exact hover r hr

theorem step (hl : l.Stands P es m) (hstep : P.Step u e Q) (hm : e.channel? ≠ some m) :
    l.Stands Q (es ++ [(u, e)]) m where
  steps := by rw [stepsOn_snoc_of_ne hm, hl.steps]
  apart := hl.apart
  number := hl.number_step hstep
  heard := hl.heard
  worked := hl.worked_step hstep
  channel := by rw [hstep.channel_of_ne hm, hl.channel]
  receiver hQ := by
    rcases hstep.receives hQ with ⟨-, hP⟩ | ⟨-, rfl⟩
    · exact hl.receiver hP
    · exact absurd rfl hm
  sender hn hx := by
    rcases hstep.sender hn hx with ⟨x', hn', hx', -⟩ | ⟨-, job, rfl⟩
    · exact hl.sender hn' hx'
    · exact absurd rfl hm

theorem answered {d : Delivery β} (hl : l.Stands P es m) (hstep : P.Step u (.answered m d) Q) :
    ∃ answer, ({ l with answer := some answer } : Errand σ).Stands Q (es ++ [(u, .answered m d)]) m := by
  obtain ⟨caller, worker, job, outcome, answer⟩ := l
  obtain ⟨job', rfl, hreceives, c, hc, hanswers, hchannels⟩ := hstep.answered
  obtain ⟨rfl, rfl, (rfl : answer = none)⟩ := hl.receiver hreceives
  obtain ⟨hlt, -⟩ := List.getElem?_eq_some_iff.1 hc
  cases hc.symm.trans hl.channel
  have hheard : d = .elapsed ∧ outcome = none ∨ ∃ r, outcome = some r ∧ d = .ofEnd r := by
    cases outcome with
    | none =>
      cases hanswers
      exact .inl ⟨rfl, rfl⟩
    | some r => exact .inr ⟨r, rfl, hanswers.eq_ofEnd⟩
  refine ⟨d, ?_, hl.apart, hl.number_step hstep, ?_, hl.worked_step hstep, ?_, fun hQ => ?_, fun hn hx => ?_⟩
  · rw [stepsOn_snoc rfl, hl.steps]
    rcases hheard with ⟨rfl, rfl⟩ | ⟨r, rfl, rfl⟩
    · rfl
    · cases r <;> rfl
  · rintro _ ⟨⟩
    exact hheard.imp And.left id
  · rw [hchannels, List.getElem?_set_self hlt]
    rfl
  · rcases hstep.receives hQ with ⟨hne, hP⟩ | ⟨-, heq⟩
    · exact absurd (hl.receiver hP).1 hne
    · cases heq
  · rcases hstep.sender hn hx with ⟨x', hn', hx', -⟩ | ⟨-, job, heq⟩
    · exact hl.sender hn' hx'
    · cases heq

theorem finished {r : Except Payload β} (hl : l.Stands P es m) (hstep : P.Step u (.finished m r) Q) :
    ∃ outcome, ({ l with outcome := some outcome } : Errand σ).Stands Q (es ++ [(u, .finished m r)]) m := by
  obtain ⟨caller, worker, job, outcome, answer⟩ := l
  obtain ⟨x, hu, hover, c, hc, hchannels⟩ := hstep.finished
  obtain ⟨rfl, (rfl : outcome = none)⟩ := hl.sender hu rfl
  obtain ⟨y, ⟨sender, hy⟩, hpath, -⟩ := hl.worked
  cases hu.symm.trans hy
  obtain ⟨hlt, -⟩ := List.getElem?_eq_some_iff.1 hc
  cases hc.symm.trans hl.channel
  have hQ : Q.Has u y := by
    rcases hstep.has_self ⟨_, hu⟩ with ⟨hown, -⟩ | ⟨-, hQ⟩
    · cases hown
    · exact hQ
  have hdeeds : deedsOf u (es ++ [(u, .finished m r)]) = deedsOf u es := by simp [deedsOf, Deed.isOwn]
  -- As the worker had not ended, the caller waits still or has given up.
  have hanswer : answer = none ∨ answer = some .elapsed := by
    cases answer with
    | none => exact .inl rfl
    | some d =>
      rcases hl.heard d rfl with hd | ⟨r', hr', -⟩
      · exact .inr (congrArg some hd)
      · cases hr'
  refine ⟨r, ?_, hl.apart, hl.number_step hstep, ?_, ⟨y, hQ, hdeeds ▸ hpath, ?_⟩, ?_, fun hQ => ?_, fun hn hx => ?_⟩
  · rw [stepsOn_snoc rfl, hl.steps]
    rcases hanswer with rfl | rfl <;> rfl
  · rintro d hd
    rcases hanswer with rfl | rfl
    · cases hd
    · cases hd
      exact .inl rfl
  · rintro _ ⟨⟩
    exact hover
  · rw [hchannels, List.getElem?_set_self hlt]
    cases answer <;> rfl
  · rcases hstep.receives hQ with ⟨-, hP⟩ | ⟨-, heq⟩
    · exact hl.receiver hP
    · cases heq
  · rcases hstep.sender hn hx with ⟨x', hn', hx', hown⟩ | ⟨-, job, heq⟩
    · cases hown (hl.sender hn' hx').1
    · cases heq

end Errand.Stands

/-- **One channel for one worker.** Whatever the threads do, a channel is unused or stands for one errand. -/
theorem Pool.Runs.errand {w : World σ} {threads : List ((α : Type) × Program σ α × Option Context)}
    (hruns : (Pool.start w threads).Runs es P) (m : ChannelId) :
    P.Unused es m ∨ ∃ l : Errand σ, l.Stands P es m := by
  induction hruns with
  | refl =>
    have hfresh : ∀ {t : Nat} {x : Member σ}, (Pool.start w threads).threads[t]? = some x →
        x.sender = none ∧ x.thread.stage = .ready := by
      intro t x ht
      obtain ⟨thread, -, rfl⟩ := getElem?_start ht
      exact ⟨rfl, rfl⟩
    refine .inl ⟨Nat.zero_le m, rfl, ?_, fun hn hx => ?_⟩
    · rintro t job ⟨α, sender, h, k, deadline, ht⟩
      cases (hfresh ht).2
    · rw [(hfresh hn).1] at hx
      cases hx
  -- A step on the channel starts its errand or carries it on; one elsewhere leaves it as it stands.
  | @step es P Q u e hruns hstep ih =>
    by_cases hm : e.channel? = some m
    · rcases ih with hunused | ⟨l, hl⟩
      · cases e with
        | started m' job =>
          cases hm
          exact .inr ⟨_, hunused.started hruns hstep⟩
        | answered m' d =>
          cases hm
          obtain ⟨job, -, hreceives, -⟩ := hstep.answered
          exact absurd hreceives hunused.receiver
        | finished m' r =>
          cases hm
          obtain ⟨x, hu, -⟩ := hstep.finished
          exact absurd rfl (hunused.sender hu)
        | _ => cases hm
      · cases e with
        | started m' job =>
          cases hm
          obtain ⟨rfl, -, -⟩ := hstep.started
          have hnone := hl.channel
          rw [List.getElem?_eq_none (Nat.le_refl _)] at hnone
          cases hnone
        | answered m' d =>
          cases hm
          obtain ⟨answer, hl'⟩ := hl.answered hstep
          exact .inr ⟨_, hl'⟩
        | finished m' r =>
          cases hm
          obtain ⟨outcome, hl'⟩ := hl.finished hstep
          exact .inr ⟨_, hl'⟩
        | _ => cases hm
    · rcases ih with hunused | ⟨l, hl⟩
      · exact .inl (hunused.step hstep hm)
      · exact .inr ⟨l, hl.step hstep hm⟩
  | wait n _ ih =>
    rcases ih with hunused | ⟨l, hl⟩
    · exact .inl ⟨hunused.length_le, hunused.steps, hunused.receiver, hunused.sender⟩
    · exact .inr ⟨l, hl.steps, hl.apart, hl.number, hl.heard, hl.worked, hl.channel, hl.receiver, hl.sender⟩

end Errands

end ResilientCalls
