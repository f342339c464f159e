import ResilientCalls.Proofs.Errands
import ResilientCalls.Proofs.OwnState
import ResilientCalls.Proofs.RunInPool
import Mathlib.Logic.Relation

/-!
# One line of control

A thread that waits for a worker does nothing else, so a thread and its workers make one line of control, in which
only the last worker can go on. As long as no wait runs out and nothing stored changes, how a line goes on is
determined (`Line.next?`): each step of one of its threads is the next step of the line (`Line.Stands.step`), a step
of any other thread leaves the line as it stands (`Line.Stands.frame`), and where the line can go on one of its
threads can (`Line.Stands.exists_step`).
-/

namespace ResilientCalls

open Program

variable {σ ρ τ α β : Type}

/-- What a thread and the workers that it waits for have left to do. -/
inductive Line (σ : Type) : Type → Type 1
  /-- The thread is about to run code. -/
  | runs {α : Type} (h : Option Context) (p : Program σ α) : Line σ α
  /-- The thread lets time pass. -/
  | lies {α : Type} (h : Option Context) (d : Duration) (k : Program σ α) : Line σ α
  /-- The thread waits for a worker, with a line of its own. -/
  | waits {α β : Type} (h : Option Context) (k : Delivery β → Program σ α) (inner : Line σ β) : Line σ α
  /-- The worker has come to its end and said so. -/
  | hears {α β : Type} (h : Option Context) (k : Delivery β → Program σ α) (r : Except Payload β) : Line σ α

namespace Line

/-- How the line has ended, if it has. -/
def over? : Line σ α → Option (Except Payload α)
  | runs _ (.done a) => some (.ok a)
  | runs _ (.unwind p) => some (.error p)
  | _ => none

/-- What is attached to the thread itself. -/
def holder : Line σ α → Option Context
  | runs h _ | lies h _ _ | waits h _ _ | hears h _ _ => h

/-- The next step of the line, if it has one that changes nothing stored. -/
def next? : {α : Type} → Line σ α → World σ → Option (Line σ α × World σ)
  | _, runs h (.act a k), w =>
      let s := a.step h w
      if a.rewrites s.1 then none else some (runs s.2.1 (k s.1), s.2.2)
  | _, runs h (.sleep d k), w => some (lies h d k, w)
  | _, runs h (.worker c body _ k), w => some (waits h k (runs c body), w)
  | _, runs _ _, _ => none
  | _, lies h _ k, w => some (runs h k, w)
  | _, waits h k inner, w =>
      match inner.over? with
      | some r => some (hears h k r, w)
      | none => (inner.next? w).map fun s => (waits h k s.1, s.2)
  | _, hears h k r, w => some (runs h (k (.ofEnd r)), w)

/-- All that is left to do is secluded. -/
def Secluded (t : Nat) : {α : Type} → Line (Realm ρ τ) α → Prop
  | _, runs _ p => p.Secluded t
  | _, lies _ _ k => k.Secluded t
  | _, waits _ k inner => (∀ d, (k d).Secluded t) ∧ inner.Secluded t
  | _, hears _ k _ => ∀ d, (k d).Secluded t

/-- The line stands like this in a pool, with these threads in it, the first of which answers on a channel. -/
def Stands (P : Pool σ) : {α : Type} → Line σ α → Option ChannelId → List Nat → Prop
  | α, runs h p, sender, ns => ∃ n, ns = [n] ∧ P.threads[n]? = some ⟨α, sender, .fresh p h⟩
  | α, lies h d k, sender, ns => ∃ n wake, ns = [n] ∧
      P.threads[n]? = some ⟨α, sender, ⟨h, .sleep d k, .resting wake⟩⟩
  | α, @waits _ _ β h k inner, sender, ns => ∃ (n m : Nat) (ns' : List Nat) (c : Option Context) (body : Program σ β)
      (bound : Option Duration) (deadline : Moment), ns = n :: ns' ∧
        P.threads[n]? = some ⟨α, sender, ⟨h, .worker c body bound k, .receiving m deadline⟩⟩ ∧
          P.shared.channels[m]? = some .empty ∧ inner.Stands P (some m) ns'
  | α, @hears _ _ β h k r, sender, ns => ∃ (n m : Nat) (c : Option Context) (body : Program σ β)
      (bound : Option Duration) (deadline : Moment), ns = [n] ∧
        P.threads[n]? = some ⟨α, sender, ⟨h, .worker c body bound k, .receiving m deadline⟩⟩ ∧
          P.shared.channels[m]? = some (.holds r)

end Line

/-! ## Who may touch a channel -/

namespace Pool

variable {P Q : Pool σ} {u n : Nat} {m : ChannelId} {e : Deed σ} {es : List (Nat × Deed σ)}

/-- One thread at most waits on a channel, one at most answers on it, and none does once the answer is there. -/
structure Paired (P : Pool σ) : Prop where
  receiver : ∀ {n n' : Nat} {m : ChannelId} {job job' : Job σ}, P.Receives n m job → P.Receives n' m job' → n = n'
  sender : ∀ {n n' : Nat} {m : ChannelId} {x x' : Member σ}, P.threads[n]? = some x → x.sender = some m →
    P.threads[n']? = some x' → x'.sender = some m → n = n'
  answered : ∀ {n : Nat} {m : ChannelId} {x : Member σ} {β : Type} {r : Except Payload β},
    P.shared.channels[m]? = some (.holds r) → P.threads[n]? = some x → x.sender ≠ some m

theorem Runs.paired {w : World σ} {threads : List ((α : Type) × Program σ α × Option Context)}
    (hrun : (start w threads).Runs es P) : P.Paired where
  receiver {n n' m job job'} hn hn' := by
    rcases hrun.errand m with hunused | ⟨l, hl⟩
    · exact absurd hn hunused.receiver
    · exact (hl.receiver hn).1.trans (hl.receiver hn').1.symm
  sender {n n' m x x'} hn hx hn' hx' := by
    rcases hrun.errand m with hunused | ⟨l, hl⟩
    · exact absurd hx (hunused.sender hn)
    · exact (hl.sender hn hx).1.trans (hl.sender hn' hx').1.symm
  answered {n m x β r} hm hn hx := by
    rcases hrun.errand m with hunused | ⟨l, hl⟩
    · exact hunused.sender hn hx
    · have hchannel := hl.channel
      rw [Errand.channel, (hl.sender hn hx).2, hm] at hchannel
      cases hanswer : l.answer <;> rw [hanswer] at hchannel <;> cases hchannel

theorem Paired.channel_eq {sender : Option ChannelId} {h c : Option Context} {body : Program σ β}
    {bound : Option Duration} {k : Delivery β → Program σ α} {deadline : Moment} {channel : Channel} (hP : P.Paired)
    (hstep : P.Step u e Q)
    (hn : P.threads[n]? = some ⟨α, sender, ⟨h, .worker c body bound k, .receiving m deadline⟩⟩) (hne : u ≠ n)
    (hm : P.shared.channels[m]? = some channel) (hfinished : ∀ {β : Type} (r : Except Payload β), e ≠ .finished m r) :
    Q.shared.channels[m]? = some channel := by
  have hreceives : P.Receives n m ⟨β, c, body, bound⟩ := ⟨α, sender, h, k, deadline, hn⟩
  rw [hstep.channel_of_ne fun he => ?_, hm]
  cases e with
  | started m' job' =>
    cases he
    obtain ⟨rfl, -⟩ := hstep.started
    rw [List.getElem?_eq_none (Nat.le_refl _)] at hm
    cases hm
  | answered m' d =>
    cases he
    obtain ⟨job', -, hu, -⟩ := hstep.answered
    exact hne (hP.receiver hu hreceives)
  | finished m' r =>
    cases he
    exact hfinished r rfl
  | _ => cases he

end Pool

namespace Line

variable {P Q : Pool σ} {L : Line σ α} {sender : Option ChannelId} {ns : List Nat} {u : Nat} {e : Deed σ}

theorem over?_runs (h : Option Context) (p : Program σ α) : (Thread.fresh p h).over? = (runs h p).over? := by
  cases p <;> rfl

theorem eq_of_over? {r : Except Payload α} (hL : L.over? = some r) : ∃ h, L = runs h (rethrow r) := by
  cases L with
  | runs h p => cases p <;> cases hL <;> exact ⟨h, rfl⟩
  | _ => cases hL

theorem Stands.head (hL : L.Stands P sender ns) : ∃ (n : Nat) (ns' : List Nat) (x : Thread σ α), ns = n :: ns' ∧
    P.threads[n]? = some ⟨α, sender, x⟩ ∧ x.over? = L.over? ∧ x.holder = L.holder := by
  cases L with
  | runs h p =>
    obtain ⟨n, rfl, hn⟩ := hL
    exact ⟨n, [], _, rfl, hn, over?_runs h p, rfl⟩
  | lies h d k =>
    obtain ⟨n, wake, rfl, hn⟩ := hL
    exact ⟨n, [], _, rfl, hn, rfl, rfl⟩
  | waits h k inner =>
    obtain ⟨n, m, ns', c, body, bound, deadline, rfl, hn, -⟩ := hL
    exact ⟨n, ns', _, rfl, hn, rfl, rfl⟩
  | hears h k r =>
    obtain ⟨n, m, c, body, bound, deadline, rfl, hn, -⟩ := hL
    exact ⟨n, [], _, rfl, hn, rfl, rfl⟩

theorem Stands.later (hL : L.Stands P sender ns) (d : Nat) : L.Stands (P.later d) sender ns := by
  induction L generalizing sender ns with
  | runs | lies | hears => exact hL
  | waits h k inner ih =>
    obtain ⟨n, m, ns', c, body, bound, deadline, rfl, hn, hm, hinner⟩ := hL
    exact ⟨n, m, ns', c, body, bound, deadline, rfl, hn, hm, ih hinner⟩

theorem Stands.frame (hL : L.Stands P sender ns) (hP : P.Paired) (hstep : P.Step u e Q) (hu : u ∉ ns) :
    L.Stands Q sender ns := by
  induction L generalizing sender ns with
  | runs h p =>
    obtain ⟨n, rfl, hn⟩ := hL
    exact ⟨n, rfl, hstep.threads_of_ne (List.ne_of_not_mem_cons hu).symm hn⟩
  | lies h d k =>
    obtain ⟨n, wake, rfl, hn⟩ := hL
    exact ⟨n, wake, rfl, hstep.threads_of_ne (List.ne_of_not_mem_cons hu).symm hn⟩
  | waits h k inner ih =>
    obtain ⟨n, m, ns', c, body, bound, deadline, rfl, hn, hm, hinner⟩ := hL
    have hne : u ≠ n := List.ne_of_not_mem_cons hu
    have hu' : u ∉ ns' := List.not_mem_of_not_mem_cons hu
    refine ⟨n, m, ns', c, body, bound, deadline, rfl, hstep.threads_of_ne hne.symm hn, ?_, ih hinner hu'⟩
    refine hP.channel_eq hstep hn hne hm fun r he => ?_
    subst he
    obtain ⟨x, hx, -⟩ := hstep.finished
    obtain ⟨n', ns', y, rfl, hy, -⟩ := hinner.head
    exact hu' (hP.sender hx rfl hy rfl ▸ List.mem_cons_self)
  | hears h k r =>
    obtain ⟨n, m, c, body, bound, deadline, rfl, hn, hm⟩ := hL
    have hne : u ≠ n := List.ne_of_not_mem_cons hu
    refine ⟨n, m, c, body, bound, deadline, rfl, hstep.threads_of_ne hne.symm hn, ?_⟩
    refine hP.channel_eq hstep hn hne hm fun r he => ?_
    subst he
    obtain ⟨x, hx, -⟩ := hstep.finished
    exact hP.answered hm hx rfl

end Line

/-! ## Effects of secluded code -/

/-- The shared states agree in all that thread `t` can see. -/
structure World.AgreeTo (t : Nat) (w w' : World (Realm ρ τ)) : Prop where
  storages : w.storages = w'.storages
  own : w.user.own t = w'.user.own t

/-- Whether a step changes what is stored. -/
def Deed.rewrites : Deed σ → Bool
  | .did a b => a.rewrites b
  | _ => false

/-- The step gives no worker up and changes nothing stored. -/
structure Deed.Calm (e : Deed σ) : Prop where
  inTime : e.isElapsed = false
  stored : e.rewrites = false

namespace Action

variable {t u : Nat} {a : Action (Realm ρ τ) β} {h : Option Context} {w w' : World (Realm ρ τ)}

theorem rewrites_eq_of_sameTo {b b' : β} (hb : a.SameTo t b b') : a.rewrites b = a.rewrites b' := by
  cases a with
  | storage i f => rw [show b = b' from hb]
  | _ => rfl

theorem Private.agree (ha : a.Private t) (hw : w.AgreeTo t w') (h : Option Context) :
    a.SameTo t (a.step h w).1 (a.step h w').1 ∧ (a.step h w).2.2.AgreeTo t (a.step h w').2.2 := by
  obtain ⟨hstorages, hown⟩ := hw
  cases a with
  | holder f => exact ⟨rfl, hstorages, hown⟩
  | record e => exact ⟨rfl, hstorages, hown⟩
  | storage i f => exact ⟨congrFun hstorages i, by simp only [step, hstorages], hown⟩
  | user f => exact ⟨hown, hstorages, ha.own _ _ hown⟩
  | _ => exact ha.elim

theorem Private.apart (ha : a.Private u) (hu : u ≠ t) (hstored : a.rewrites (a.step h w').1 = false)
    (hw : w.AgreeTo t w') : w.AgreeTo t (a.step h w').2.2 := by
  obtain ⟨hstorages, hown⟩ := hw
  cases a with
  | holder f => exact ⟨hstorages, hown⟩
  | record e => exact ⟨hstorages, hown⟩
  | storage i f =>
    have hkept : f (w'.storages i) = w'.storages i := not_ne_iff.1 (of_decide_eq_false hstored)
    refine ⟨hstorages.trans (funext fun j => ?_), hown⟩
    show w'.storages j = if j = i then f (w'.storages i) else w'.storages j
    split
    · rename_i hj
      rw [hj, hkept]
    · rfl
  | user f => exact ⟨hstorages, hown.trans (ha.others _ _ hu.symm).symm⟩
  | _ => exact ha.elim

theorem Private.stageAfter_eq (ha : a.Private t) (b : β) : a.stageAfter b = .ready := by
  cases a with
  | settle => exact ha.elim
  | _ => rfl

end Action

theorem Thread.Does.secluded {t : Nat} {x y : Thread (Realm ρ τ) α} {now : Nat} {e : Deed (Realm ρ τ)}
    (hdoes : x.Does now e y) (hx : x.code.Secluded t) : y.code.Secluded t ∧
      ∀ m job, e = .started m job → job.attached = none ∧ job.body.Secluded t := by
  cases hdoes with
  | act =>
    cases hx with
    | act _ _ hk => exact ⟨hk _, fun _ _ he => by cases he⟩
  | notify => exact ⟨hx, fun _ _ he => by cases he⟩
  | lie => exact ⟨hx, fun _ _ he => by cases he⟩
  | rise =>
    cases hx with
    | sleep hk => exact ⟨hk, fun _ _ he => by cases he⟩
  | start =>
    cases hx with
    | worker hbody hk => exact ⟨.worker hbody hk, fun _ _ he => by cases he; exact ⟨rfl, hbody⟩⟩
  | receive =>
    cases hx with
    | worker _ hk => exact ⟨hk _, fun _ _ he => by cases he⟩
  | _ => cases hx

/-! ## What a step makes of a line -/

/-- The thread has come to its end and has nothing more to say. -/
def Pool.Idle (P : Pool σ) (n : Nat) : Prop :=
  ∃ x : Member σ, P.threads[n]? = some x ∧ x.sender = none ∧ x.thread.over? ≠ none

namespace Line

variable {t u : Nat} {L L' : Line (Realm ρ τ) α} {w w' : World (Realm ρ τ)} {P Q : Pool (Realm ρ τ)}
  {sender : Option ChannelId} {ns : List Nat} {e : Deed (Realm ρ τ)}

/-- The line has come to stand like this, with these threads and no others that have something to do. -/
structure GoesOn (P Q : Pool (Realm ρ τ)) (t : Nat) (sender : Option ChannelId) (ns : List Nat)
    (L : Line (Realm ρ τ) α) (w : World (Realm ρ τ)) (ns' : List Nat) : Prop where
  stands : L.Stands Q sender ns'
  first : ns'.head? = ns.head?
  agrees : w.AgreeTo t Q.world
  rest : ∀ n < Q.threads.length, n ∈ ns ∨ P.threads.length ≤ n → n ∈ ns' ∨ Q.Idle n

theorem mem_of_lt {ms off : List (Member σ)} {x : Member σ} {n : Nat} (hlt : n < (ms.set u x ++ off).length)
    (hn : n ∈ [u] ∨ ms.length ≤ n) : n ∈ u :: List.range' ms.length off.length := by
  rw [List.length_append, List.length_set] at hlt
  rw [List.mem_cons, List.mem_range'_1]
  exact hn.imp List.mem_singleton.1 fun hle => ⟨hle, hlt⟩

theorem step_runs {h : Option Context} {p : Program (Realm ρ τ) α} (hp : p.Secluded t)
    (hover : (runs h p).over? = none) (hn : P.threads[u]? = some ⟨α, sender, .fresh p h⟩) (hstep : P.Step u e Q)
    (he : e.Calm) (hw : w.AgreeTo t P.world) :
    ∃ L' w' ns', (runs h p).next? w = some (L', w') ∧ GoesOn P Q t sender [u] L' w' ns' := by
  obtain ⟨y, s, hdoes, hallows, rfl⟩ := hstep.of_not_over hn ((over?_runs h p).trans hover)
  cases hp with
  | done | unwind => cases hover
  | block => cases hdoes
  | @act _ β a k ha hk hrest =>
    cases hdoes with
    | @act _ _ h' _ b _ w₀ w₁ hact =>
      cases hallows with
      | @did _ _ _ h'' w' hdid =>
        have hholder : (a.step h w).2.1 = h' := by rw [Action.step_holder a h w w₀, hact]
        obtain ⟨hsame, hagree⟩ := ha.agree hw h
        rw [show a.step h P.world = (b, h'', w') from hdid] at hsame hagree
        have hstored : a.rewrites (a.step h w).1 = false := (Action.rewrites_eq_of_sameTo hsame).trans he.stored
        refine ⟨runs h' (k b), _, [u], ?_, ⟨u, rfl, ?_⟩, rfl, hagree, fun n hlt hn => .inl (mem_of_lt hlt hn)⟩
        · rw [next?, hstored, hholder, hk _ _ hsame]
          rfl
        · rw [Pool.getElem?_set_append _ hn, ha.stageAfter_eq b]
          rfl
  | @sleep _ d k hk =>
    cases hdoes
    cases hallows
    refine ⟨lies h d k, w, [u], rfl, ⟨u, _, rfl, Pool.getElem?_set_append _ hn⟩, rfl, hw, fun n hlt hn => ?_⟩
    exact .inl (mem_of_lt hlt hn)
  | @worker _ β body bound k hbody hk =>
    cases hdoes
    cases hallows
    refine ⟨waits h k (runs none body), w, [u, P.threads.length], rfl, ?_, rfl, hw, fun n hlt hn => ?_⟩
    · refine ⟨u, _, _, none, body, bound, _, rfl, Pool.getElem?_set_append _ hn, List.getElem?_concat_length, _, rfl,
        ?_⟩
      rw [List.getElem?_append_right (by rw [List.length_set]), List.length_set, Nat.sub_self]
      rfl
    · exact .inl (mem_of_lt hlt hn)

section Waiting

variable {h c : Option Context} {k : Delivery β → Program (Realm ρ τ) α} {body : Program (Realm ρ τ) β}
  {bound : Option Duration} {deadline : Moment} {m : ChannelId} {n : Nat}

theorem not_calm_of_waiting
    (hn : P.threads[u]? = some ⟨α, sender, ⟨h, .worker c body bound k, .receiving m deadline⟩⟩)
    (hm : P.shared.channels[m]? = some .empty) (hstep : P.Step u e Q) : ¬ e.Calm := by
  obtain ⟨y, s, hdoes, hallows, -⟩ := hstep.of_not_over hn rfl
  cases hdoes
  cases hallows with
  | answered hm' hanswers =>
    cases hm.symm.trans hm'
    cases hanswers
    exact fun he => Bool.noConfusion he.inTime

theorem goesOn_said {x : Thread (Realm ρ τ) β} {r : Except Payload β}
    (hn : P.threads[n]? = some ⟨α, sender, ⟨h, .worker c body bound k, .receiving m deadline⟩⟩)
    (hm : P.shared.channels[m]? = some .empty) (hu : P.threads[u]? = some ⟨β, some m, x⟩) (hx : x.over? = some r)
    (hne : u ≠ n) (hstep : P.Step u e Q) (hw : w.AgreeTo t P.world) :
    GoesOn P Q t sender [n, u] (hears h k r) w [n] := by
  cases hstep with
  | does hu' hdoes =>
    cases hu.symm.trans hu'
    cases (Thread.over?_of_does hdoes).symm.trans hx
  | finishes hu' hend hm' =>
    cases hu.symm.trans hu'
    cases hm.symm.trans hm'
    cases hend.symm.trans hx
    refine ⟨⟨n, m, c, body, bound, deadline, rfl, ?_, ?_⟩, rfl, hw, fun j hlt hj => ?_⟩
    · rw [List.getElem?_set_ne hne, hn]
    · exact List.getElem?_set_self (List.getElem?_eq_some_iff.1 hm).1
    · rw [List.length_set] at hlt
      rcases hj with hj | hle
      · refine (List.mem_cons.1 hj).imp List.mem_singleton.2 fun hj => ?_
        obtain rfl := List.mem_singleton.1 hj
        exact ⟨_, List.getElem?_set_self hlt, rfl, by rw [hend]; exact Option.some_ne_none _⟩
      · exact absurd hlt (Nat.not_lt.2 hle)

theorem GoesOn.waiting {inner : Line (Realm ρ τ) β} {ns' : List Nat} (hon : GoesOn P Q t (some m) ns inner w ns')
    (hn : P.threads[n]? = some ⟨α, sender, ⟨h, .worker c body bound k, .receiving m deadline⟩⟩)
    (hm : P.shared.channels[m]? = some .empty) (hP : P.Paired) (hstep : P.Step u e Q) (hne : u ≠ n)
    (hfinished : ∀ {β : Type} (r : Except Payload β), e ≠ .finished m r) :
    GoesOn P Q t sender (n :: ns) (waits h k inner) w (n :: ns') where
  stands := ⟨n, m, ns', c, body, bound, deadline, rfl, hstep.threads_of_ne hne.symm hn,
    hP.channel_eq hstep hn hne hm hfinished, hon.stands⟩
  first := rfl
  agrees := hon.agrees
  rest j hlt hj := by
    rcases hj with hj | hle
    · rcases List.mem_cons.1 hj with rfl | hj
      · exact .inl List.mem_cons_self
      · exact (hon.rest j hlt (.inl hj)).imp_left (List.mem_cons_of_mem n)
    · exact (hon.rest j hlt (.inr hle)).imp_left (List.mem_cons_of_mem n)

end Waiting

/-- Each step of a thread in a line is the next step of the line. -/
theorem Stands.step (hL : L.Stands P sender ns) (hsecluded : L.Secluded t) (hover : L.over? = none) (hP : P.Paired)
    (hstep : P.Step u e Q) (hu : u ∈ ns) (he : e.Calm) (hw : w.AgreeTo t P.world) :
    ∃ L' w' ns', L.next? w = some (L', w') ∧ GoesOn P Q t sender ns L' w' ns' := by
  induction L generalizing sender ns with
  | runs h p =>
    obtain ⟨n, rfl, hn⟩ := hL
    obtain rfl := List.mem_singleton.1 hu
    exact step_runs hsecluded hover hn hstep he hw
  | lies h d k =>
    obtain ⟨n, wake, rfl, hn⟩ := hL
    obtain rfl := List.mem_singleton.1 hu
    obtain ⟨y, s, hdoes, hallows, rfl⟩ := hstep.of_not_over hn rfl
    cases hdoes
    cases hallows
    refine ⟨runs h k, w, [u], rfl, ⟨u, rfl, Pool.getElem?_set_append _ hn⟩, rfl, hw, fun n hlt hn => ?_⟩
    exact .inl (mem_of_lt hlt hn)
  | hears h k r =>
    obtain ⟨n, m, c, body, bound, deadline, rfl, hn, hm⟩ := hL
    obtain rfl := List.mem_singleton.1 hu
    obtain ⟨y, s, hdoes, hallows, rfl⟩ := hstep.of_not_over hn rfl
    cases hdoes
    cases hallows with
    | answered hm' hanswers =>
      cases hm.symm.trans hm'
      obtain rfl := hanswers.eq_ofEnd
      refine ⟨runs h (k (.ofEnd r)), w, [u], rfl, ⟨u, rfl, Pool.getElem?_set_append _ hn⟩, rfl, hw, ?_⟩
      exact fun n hlt hn => .inl (mem_of_lt hlt hn)
  | waits h k inner ih =>
    obtain ⟨n, m, ns', c, body, bound, deadline, rfl, hn, hm, hinner⟩ := hL
    by_cases hne : u = n
    · subst hne
      exact absurd he (not_calm_of_waiting hn hm hstep)
    · have hu' : u ∈ ns' := (List.mem_cons.1 hu).resolve_left hne
      obtain ⟨n', rest, x, rfl, hn', hx, -⟩ := hinner.head
      cases hover : inner.over? with
      | some r =>
        obtain ⟨h', rfl⟩ := eq_of_over? hover
        obtain ⟨_, hnil, -⟩ := hinner
        cases hnil
        obtain rfl := List.mem_singleton.1 hu'
        exact ⟨hears h k r, w, [n], by rw [next?, hover], goesOn_said hn hm hn' (hx.trans hover) hne hstep hw⟩
      | none =>
        obtain ⟨inner', w', ns'', hnext, hon⟩ := ih hinner hsecluded.2 hover hu'
        refine ⟨waits h k inner', w', n :: ns'', by rw [next?, hover, hnext]; rfl, ?_⟩
        refine hon.waiting hn hm hP hstep hne fun r hfinished => ?_
        -- Only the worker itself could say so, and it is not at its end.
        subst hfinished
        obtain ⟨y, hy, hend, -⟩ := hstep.finished
        obtain rfl := hP.sender hy rfl hn' rfl
        cases hn'.symm.trans hy
        cases hend.symm.trans (hx.trans hover)

/-- Where the line goes on, one of its threads can, at the latest when some time has passed. -/
theorem Stands.exists_step (hL : L.Stands P sender ns) (hsecluded : L.Secluded t) (hw : w.AgreeTo t P.world)
    (hnext : L.next? w ≠ none) : ∃ d u e Q, u ∈ ns ∧ (P.later d).Step u e Q ∧ e.Calm := by
  induction L generalizing sender ns with
  | runs h p =>
    obtain ⟨n, rfl, hn⟩ := hL
    cases hsecluded with
    | done | unwind | block => exact absurd rfl hnext
    | @act _ β a k ha hk hrest =>
      have hstored : a.rewrites (a.step h w).1 = false :=
        Bool.eq_false_iff.2 fun hstored => hnext (by rw [next?, hstored]; rfl)
      rw [Action.rewrites_eq_of_sameTo (ha.agree hw h).1] at hstored
      exact ⟨0, n, _, _, List.mem_cons_self, .does hn (.act (w := P.world) rfl) (.did rfl), rfl, hstored⟩
    | sleep hk => exact ⟨0, n, _, _, List.mem_cons_self, .does hn .lie .lay, rfl, rfl⟩
    | worker hbody hk => exact ⟨0, n, _, _, List.mem_cons_self, .does hn .start .started, rfl, rfl⟩
  | lies h d k =>
    obtain ⟨n, wake, rfl, hn⟩ := hL
    exact ⟨wake, n, _, _, List.mem_cons_self, .does hn (.rise (Nat.le_add_left wake P.world.clock)) .rose, rfl, rfl⟩
  | hears h k r =>
    obtain ⟨n, m, c, body, bound, deadline, rfl, hn, hm⟩ := hL
    cases r with
    | ok b =>
      exact ⟨0, n, _, _, List.mem_cons_self, .does hn (.receive fun hd => by cases hd) (.answered hm (.value b)), rfl,
        rfl⟩
    | error p =>
      exact ⟨0, n, _, _, List.mem_cons_self, .does hn (.receive fun hd => by cases hd) (.answered hm (.crash p)), rfl,
        rfl⟩
  | waits h k inner ih =>
    obtain ⟨n, m, ns', c, body, bound, deadline, rfl, hn, hm, hinner⟩ := hL
    cases hover : inner.over? with
    | some r =>
      obtain ⟨n', rest, x, rfl, hn', hx, -⟩ := hinner.head
      refine ⟨0, n', _, _, ?_, .finishes hn' (hx.trans hover) hm, rfl, rfl⟩
      exact List.mem_cons_of_mem n List.mem_cons_self
    | none =>
      have hinext : inner.next? w ≠ none := fun hnone => hnext (by rw [next?, hover, hnone]; rfl)
      obtain ⟨d, u, e, Q, hu, hstep, he⟩ := ih hinner hsecluded.2 hinext
      exact ⟨d, u, e, Q, List.mem_cons_of_mem n hu, hstep, he⟩

theorem Stands.idle (hL : L.Stands P none ns) (hover : L.over? ≠ none) (hu : u ∈ ns) : P.Idle u := by
  obtain ⟨r, hr⟩ := Option.ne_none_iff_exists'.1 hover
  obtain ⟨h, rfl⟩ := eq_of_over? hr
  obtain ⟨n, rfl, hn⟩ := hL
  obtain rfl := List.mem_singleton.1 hu
  exact ⟨_, hn, rfl, by rw [over?_runs]; exact hover⟩

theorem next?_eq_none (hover : L.over? ≠ none) (w : World (Realm ρ τ)) : L.next? w = none := by
  obtain ⟨r, hr⟩ := Option.ne_none_iff_exists'.1 hover
  obtain ⟨h, rfl⟩ := eq_of_over? hr
  cases r <;> rfl

theorem Secluded.next (hL : L.Secluded t) (hnext : L.next? w = some (L', w')) :
    L'.Secluded t ∧ (w.user.own t).log <+: (w'.user.own t).log := by
  -- A line changes its state by the code of one thread, and while a thread waits that is its worker's.
  induction L generalizing w' with
  | runs h p =>
    cases hL with
    | done | unwind | block => cases hnext
    | @act _ _ a k ha _ hk =>
      simp only [next?] at hnext
      split at hnext
      · cases hnext
      · cases hnext
        refine ⟨hk _, ?_⟩
        cases a with
        | user f => exact ha.log _
        | holder | storage | record => exact List.prefix_rfl
        | _ => exact ha.elim
    | sleep hk =>
      cases hnext
      exact ⟨hk, List.prefix_rfl⟩
    | worker hbody hk =>
      cases hnext
      exact ⟨⟨hk, hbody⟩, List.prefix_rfl⟩
  | lies h d k =>
    cases hnext
    exact ⟨hL, List.prefix_rfl⟩
  | waits h k inner ih =>
    obtain ⟨hk, hinner⟩ := hL
    simp only [next?] at hnext
    split at hnext
    · cases hnext
      exact ⟨hk, List.prefix_rfl⟩
    · obtain ⟨⟨inner', w''⟩, hinner', heq⟩ := Option.map_eq_some_iff.1 hnext
      cases heq
      exact (ih hinner hinner').imp_left fun h => ⟨hk, h⟩
  | hears h k r =>
    cases hnext
    exact ⟨hL _, List.prefix_rfl⟩

end Line

end ResilientCalls
