import ResilientCalls.Proofs.Lines

/-!
# Threads keep apart

Threads that play scripts through one requester, whose client code shares no state, see what each of them sees when it
runs alone. In a run that gives no worker up and changes nothing stored, each thread goes along its own line of
control, wherever the steps of the others fall (`Carries.runs`), and where the line goes a run can follow
(`Carries.exists_runs`). As a line goes on in one way only, what a thread has seen in any two runs are two beginnings
of the same log (`threads_apart`).
-/

namespace ResilientCalls

open Program

variable {ρ τ α : Type} {t u n : Nat} {L L' : Line (Realm ρ τ) α} {w w' : World (Realm ρ τ)}
  {P Q : Pool (Realm ρ τ)} {ns : List Nat} {e : Deed (Realm ρ τ)} {es es₀ : List (Nat × Deed (Realm ρ τ))}

/-! ## Where a line leads -/

/-- The line comes from here to there, with the shared state that belongs to it. -/
def Line.Leads (s s' : Line (Realm ρ τ) α × World (Realm ρ τ)) : Prop :=
  Relation.ReflTransGen (fun s s' => s.1.next? s.2 = some s') s s'

namespace Line.Leads

variable {s s₁ s₂ : Line (Realm ρ τ) α × World (Realm ρ τ)}

theorem total (h₁ : Leads s s₁) (h₂ : Leads s s₂) : Leads s₁ s₂ ∨ Leads s₂ s₁ :=
  Relation.ReflTransGen.total_of_right_unique (fun _ _ _ hb hc => Option.some.inj (hb.symm.trans hc)) h₁ h₂

theorem eq_of_over (h : Leads s s₁) (hover : s.1.over? ≠ none) : s₁ = s := by
  rcases Relation.ReflTransGen.cases_head h with heq | ⟨s', hnext, -⟩
  · exact heq.symm
  · rw [Line.next?_eq_none hover] at hnext
    cases hnext

theorem secluded_log (h : Leads s s₁) (hs : s.1.Secluded t) :
    s₁.1.Secluded t ∧ (s.2.user.own t).log <+: (s₁.2.user.own t).log := by
  induction h with
  | refl => exact ⟨hs, List.prefix_rfl⟩
  | @tail s' s'' _ hnext ih =>
    have hnext : s'.1.next? s'.2 = some (s''.1, s''.2) := hnext
    exact (ih.1.next hnext).imp_right ih.2.trans

/-- So many steps of the line, or as many as it has. -/
def advance : Nat → Line (Realm ρ τ) α × World (Realm ρ τ) → Line (Realm ρ τ) α × World (Realm ρ τ)
  | 0, s => s
  | n + 1, s => (s.1.next? s.2).elim s (advance n)

theorem of_advance (n : Nat) (s : Line (Realm ρ τ) α × World (Realm ρ τ)) : Leads s (advance n s) := by
  induction n generalizing s with
  | zero => exact .refl
  | succ n ih =>
    rw [advance]
    cases hnext : s.1.next? s.2 with
    | none => exact .refl
    | some s' => exact .head hnext (ih s')

end Line.Leads

namespace Pool

/-! ## The line of one thread in a pool -/

/-- Thread `n` and its workers stand where the line does, and all who could still touch the part of thread `t` are
among them. -/
structure Carries (P : Pool (Realm ρ τ)) (t n : Nat) (ns : List Nat) (L : Line (Realm ρ τ) α)
    (w : World (Realm ρ τ)) : Prop where
  stands : L.Stands P none ns
  first : ns.head? = some n
  secluded : L.Secluded t
  agrees : w.AgreeTo t P.world
  others : ∀ u x, P.threads[u]? = some x → u ∈ ns ∨ P.Idle u ∨ ∃ o, o ≠ t ∧ x.thread.code.Secluded o

theorem Idle.not_step (hu : P.Idle u) : ¬ P.Step u e Q := by
  obtain ⟨x, hx, hsender, hover⟩ := hu
  intro hstep
  cases hstep with
  | does hu hdoes =>
    cases hx.symm.trans hu
    exact hover (Thread.over?_of_does hdoes)
  | finishes hu =>
    cases hx.symm.trans hu
    cases hsender

theorem Step.secluded {x y : Member (Realm ρ τ)} {v : Nat} (hstep : P.Step u e Q) (hu : P.threads[u]? = some x)
    (hx : x.thread.code.Secluded t) (hv : Q.threads[v]? = some y) :
    (v ≠ u ∧ P.threads[v]? = some y) ∨ y.thread.code.Secluded t := by
  cases hstep with
  | does hu' hdoes =>
    cases hu.symm.trans hu'
    obtain ⟨hcode, hjob⟩ := hdoes.secluded hx
    rcases getElem?_of_set_append hv with ⟨rfl, rfl⟩ | hother | ⟨-, hoff⟩
    · exact .inr hcode
    · exact .inl hother
    · obtain ⟨-, m, job, rfl, rfl⟩ := Deed.getElem?_offspring hoff
      exact .inr (hjob m job rfl).2
  | finishes hu' =>
    cases hu.symm.trans hu'
    rcases getElem?_of_set hv with ⟨rfl, rfl⟩ | hother
    · exact .inr hx
    · exact .inl hother

/-- A step of another's code changes nothing that thread `t` can see. -/
theorem Step.agree {x : Member (Realm ρ τ)} (hstep : P.Step u e Q) (hu : P.threads[u]? = some x) {o : Nat}
    (ho : o ≠ t) (hx : x.thread.code.Secluded o) (he : e.Calm) (hw : w.AgreeTo t P.world) : w.AgreeTo t Q.world := by
  cases hstep with
  | finishes => exact hw
  | does hu' hdoes hallows =>
    cases hu.symm.trans hu'
    cases hallows with
    | @did β a b h' w' hdid =>
      cases hdoes with
      | @act _ h =>
        cases hx with
        | act ha =>
          have hQ : a.step h P.world = (b, h', w') := hdid
          have hapart := ha.apart (h := h) ho (by rw [hQ]; exact he.stored) hw
          rwa [hQ] at hapart
    | _ => exact hw

/-- **One step.** A step of a thread of the line is the next step of the line, and any other step leaves it alone. -/
theorem Carries.step (h : P.Carries t n ns L w) (hP : P.Paired) (hstep : P.Step u e Q) (he : e.Calm) :
    (u ∉ ns ∧ Q.Carries t n ns L w) ∨ ∃ L' w' ns', L.next? w = some (L', w') ∧ Q.Carries t n ns' L' w' := by
  have hidle : ∀ v, P.Idle v → Q.Idle v := fun v hv => by
    have hne : v ≠ u := fun hvu => (hvu ▸ hv).not_step hstep
    obtain ⟨x, hx, hrest⟩ := hv
    exact ⟨x, hstep.threads_of_ne hne hx, hrest⟩
  -- A step of a thread of the line is a step of the line; any other is of code that keeps to another's state.
  by_cases hu : u ∈ ns
  · have hover : L.over? = none := by
      by_contra hover
      exact (h.stands.idle hover hu).not_step hstep
    obtain ⟨L', w', ns', hnext, hon⟩ := h.stands.step h.secluded hover hP hstep hu he h.agrees
    refine .inr ⟨L', w', ns', hnext, hon.stands, hon.first.trans h.first, (h.secluded.next hnext).1, hon.agrees, ?_⟩
    intro v y hv
    have hlt : v < Q.threads.length := (List.getElem?_eq_some_iff.1 hv).1
    by_cases hold : v ∈ ns ∨ P.threads.length ≤ v
    · exact (hon.rest v hlt hold).imp_right .inl
    · have hvns : v ∉ ns := fun hmem => hold (.inl hmem)
      have hltP : v < P.threads.length := Nat.lt_of_not_le fun hle => hold (.inr hle)
      have hne : v ≠ u := fun hvu => hvns (hvu ▸ hu)
      have hvP := List.getElem?_eq_getElem hltP
      cases hv.symm.trans (hstep.threads_of_ne hne hvP)
      rcases h.others v _ hvP with hmem | hrest | hother
      · exact absurd hmem hvns
      · exact .inr (.inl (hidle v hrest))
      · exact .inr (.inr hother)
  · obtain ⟨x, hx⟩ : ∃ x, P.threads[u]? = some x := ⟨_, List.getElem?_eq_getElem hstep.lt_length⟩
    rcases h.others u x hx with hmem | hrest | ⟨o, ho, hcode⟩
    · exact absurd hmem hu
    · exact absurd hstep hrest.not_step
    · refine .inl ⟨hu, h.stands.frame hP hstep hu, h.first, h.secluded, hstep.agree hx ho hcode he h.agrees, ?_⟩
      intro v y hv
      rcases hstep.secluded hx hcode hv with ⟨-, hvP⟩ | hsecluded
      · rcases h.others v y hvP with hmem | hrest | hother
        · exact .inl hmem
        · exact .inr (.inl (hidle v hrest))
        · exact .inr (.inr hother)
      · exact .inr (.inr ⟨o, ho, hsecluded⟩)

theorem Carries.later (h : P.Carries t n ns L w) (d : Nat) : (P.later d).Carries t n ns L w :=
  ⟨h.stands.later d, h.first, h.secluded, ⟨h.agrees.storages, h.agrees.own⟩, h.others⟩

/-- The steps give no worker up and change nothing stored. -/
def Calm (es : List (Nat × Deed (Realm ρ τ))) : Prop := ∀ x ∈ es, x.2.Calm

section Runs

variable {w₀ : World (Realm ρ τ)} {threads : List ((α : Type) × Program (Realm ρ τ) α × Option Context)}

/-- **A whole run.** Wherever the steps of the others fall, the thread goes along its line. -/
theorem Carries.runs (hbefore : (start w₀ threads).Runs es₀ P) (h : P.Carries t n ns L w) (hrun : P.Runs es Q)
    (hcalm : Calm es) : ∃ L' w' ns', Line.Leads (L, w) (L', w') ∧ Q.Carries t n ns' L' w' := by
  induction hrun with
  | refl => exact ⟨L, w, ns, .refl, h⟩
  | @step es Q R u e hrun hstep ih =>
    obtain ⟨L', w', ns', hleads, hQ⟩ := ih fun x hx => hcalm x (List.mem_append_left _ hx)
    have he : e.Calm := hcalm (u, e) (List.mem_append_right _ List.mem_cons_self)
    rcases hQ.step (hbefore.append hrun).paired hstep he with ⟨-, hR⟩ | ⟨L'', w'', ns'', hnext, hR⟩
    · exact ⟨L', w', ns', hleads, hR⟩
    · exact ⟨L'', w'', ns'', hleads.tail hnext, hR⟩
  | wait d _ ih =>
    obtain ⟨L', w', ns', hleads, hQ⟩ := ih hcalm
    exact ⟨L', w', ns', hleads, hQ.later d⟩

/-- **Following the line.** Wherever the line leads, the threads of the line can go. -/
theorem Carries.exists_runs (hbefore : (start w₀ threads).Runs es₀ P) (h : P.Carries t n ns L w)
    {s : Line (Realm ρ τ) α × World (Realm ρ τ)} (hleads : Line.Leads (L, w) s) :
    ∃ es Q ns', P.Runs es Q ∧ Calm es ∧ Q.Carries t n ns' s.1 s.2 := by
  induction hleads with
  | refl => exact ⟨[], P, ns, .refl, List.forall_mem_nil _, h⟩
  | @tail s s' _ hnext ih =>
    obtain ⟨es, Q, ns', hrun, hcalm, hQ⟩ := ih
    obtain ⟨d, u, e, R, hu, hstep, he⟩ :=
      hQ.stands.exists_step hQ.secluded hQ.agrees (by rw [hnext]; exact Option.some_ne_none _)
    have hlater := hrun.wait d
    rcases (hQ.later d).step (hbefore.append hlater).paired hstep he with ⟨hout, -⟩ | ⟨L', w', ns'', hnext', hR⟩
    · exact absurd hu hout
    · cases hnext.symm.trans hnext'
      refine ⟨es ++ [(u, e)], R, ns'', hlater.step hstep, fun x hx => ?_, hR⟩
      rcases List.mem_append.1 hx with hx | hx
      · exact hcalm x hx
      · exact List.mem_singleton.1 hx ▸ he

theorem Carries.exists_end (hbefore : (start w₀ threads).Runs es₀ P) (h : P.Carries t n ns L w)
    {s s₀ : Line (Realm ρ τ) α × World (Realm ρ τ)} (hleads : Line.Leads s₀ (L, w)) (hend : Line.Leads s₀ s)
    (hover : s.1.over? ≠ none) : ∃ es Q ns', P.Runs es Q ∧ Calm es ∧ Q.Carries t n ns' s.1 s.2 := by
  refine h.exists_runs hbefore ((hleads.total hend).elim id fun hback => ?_)
  rw [hback.eq_of_over hover]
  exact .refl

end Runs

/-! ## What is attached -/

theorem does_holder {x y : Thread (Realm ρ τ) α} {now : Nat} (hdoes : x.Does now e y) :
    y.holder = x.holder ∨ ∃ f b, e = .did (.holder f) b ∧ y.holder = f b := by
  cases hdoes with
  | @act β h h' a b k w w' hstep =>
    cases a with
    | holder f =>
      cases hstep
      exact .inr ⟨f, h, rfl, rfl⟩
    | settle i outcome => exact .inl (holder_settle hstep)
    | _ =>
      cases hstep
      exact .inl rfl
  | _ => exact .inl rfl

section Attached

variable {w₀ : World (Realm ρ τ)} {threads : List ((α : Type) × Program (Realm ρ τ) α × Option Context)}

/-- Threads that begin with secluded code and with nothing attached. -/
def Fresh (threads : List ((α : Type) × Program (Realm ρ τ) α × Option Context)) : Prop :=
  ∀ x ∈ threads, x.2.2 = none ∧ ∃ o, x.2.1.Secluded o

theorem Runs.attached (hrun : (start w₀ threads).Runs es Q) (hfresh : Fresh threads) {n : Nat}
    {x : Member (Realm ρ τ)} (hn : Q.threads[n]? = some x) : (∃ o, x.thread.code.Secluded o) ∧
      ∀ c, x.thread.holder = some c → ∃ f b, (n, .did (.holder f) b) ∈ es ∧ f b = some c := by
  -- Both facts go together: only secluded code is known to give its worker nothing but secluded code, and no context.
  induction hrun generalizing n x with
  | refl =>
    obtain ⟨thread, hthread, rfl⟩ := getElem?_start hn
    obtain ⟨hnone, hcode⟩ := hfresh thread (List.mem_of_getElem? hthread)
    refine ⟨hcode, fun c hc => ?_⟩
    cases hnone.symm.trans hc
  | wait d _ ih => exact ih hn
  | @step es Q R u e hrun hstep ih =>
    obtain ⟨y, hy⟩ : ∃ y, Q.threads[u]? = some y := ⟨_, List.getElem?_eq_getElem hstep.lt_length⟩
    obtain ⟨⟨o, ho⟩, hown⟩ := ih hy
    have hkept : ∀ {v : Nat} {z : Member (Realm ρ τ)}, Q.threads[v]? = some z →
        ∀ c, z.thread.holder = some c → ∃ f b, (v, .did (.holder f) b) ∈ es ++ [(u, e)] ∧ f b = some c := by
      intro v z hz c hc
      obtain ⟨f, b, hmem, hb⟩ := (ih hz).2 c hc
      exact ⟨f, b, List.mem_append_left _ hmem, hb⟩
    refine ⟨?_, ?_⟩
    · rcases hstep.secluded hy ho hn with ⟨-, hold⟩ | hcode
      · exact (ih hold).1
      · exact ⟨o, hcode⟩
    · cases hstep with
      | does hu hdoes =>
        rcases getElem?_of_set_append hn with ⟨rfl, rfl⟩ | ⟨-, hold⟩ | ⟨-, hoff⟩
        · intro c hc
          rcases does_holder hdoes with hsame | ⟨f, b, rfl, hb⟩
          · exact hkept hu c (hsame.symm.trans hc)
          · exact ⟨f, b, List.mem_append_right _ List.mem_cons_self, hb.symm.trans hc⟩
        · exact hkept hold
        · obtain ⟨-, m, job, rfl, rfl⟩ := Deed.getElem?_offspring hoff
          cases hy.symm.trans hu
          intro c hc
          cases ((hdoes.secluded ho).2 m job rfl).1.symm.trans hc
      | finishes hu =>
        rcases getElem?_of_set hn with ⟨rfl, rfl⟩ | ⟨-, hold⟩
        · exact fun c hc => hkept hu c hc
        · exact hkept hold

/-- No thread finds attached what another has attached. -/
structure AttachedApart (es : List (Nat × Deed (Realm ρ τ))) : Prop where
  /-- A context that a thread finds attached, the same thread has attached before. -/
  found : ∀ {es₁ es₂ : List (Nat × Deed (Realm ρ τ))} {n : Nat} {f : Option Context → Option Context} {c : Context},
    es = es₁ ++ (n, .did (.holder f) (some c)) :: es₂ → ∃ g b, (n, .did (.holder g) b) ∈ es₁ ∧ g b = some c
  /-- A thread that is started has nothing attached. -/
  fresh : ∀ {n : Nat} {m : ChannelId} {job : Job (Realm ρ τ)}, (n, .started m job) ∈ es → job.attached = none

theorem Runs.attachedApart (hrun : (start w₀ threads).Runs es Q) (hfresh : Fresh threads) : AttachedApart es where
  found {es₁ es₂ n f c} hes := by
    rw [hes] at hrun
    obtain ⟨P, P', hfirst, hstep, -⟩ := hrun.step_of_mem
    cases hstep with
    | does hn hdoes =>
      cases hdoes with
      | act hact =>
        cases hact
        exact (hfirst.attached hfresh hn).2 c rfl
  fresh {n m job} hmem := by
    obtain ⟨es₁, es₂, rfl⟩ := List.append_of_mem hmem
    obtain ⟨P, P', hfirst, hstep, -⟩ := hrun.step_of_mem
    cases hstep with
    | does hn hdoes =>
      obtain ⟨o, ho⟩ := (hfirst.attached hfresh hn).1
      exact ((hdoes.secluded ho).2 m job rfl).1

end Attached

/-! ## Threads and scripts -/

section Scripts

variable {P' : Pool (Realm ρ τ)} {w₀ : World (Realm ρ τ)} {r : Requester (Realm ρ τ)} {ms : List (Move ρ τ)}
  {scripts : List (List (Move ρ τ))} {n' : Nat} {ns' : List Nat}

/-- A thread for each script, with nothing attached at first. -/
def playing (r : Requester (Realm ρ τ)) (scripts : List (List (Move ρ τ))) :
    List ((α : Type) × Program (Realm ρ τ) α × Option Context) :=
  scripts.mapIdx fun t ms => ⟨Unit, Move.play r t ms [], none⟩

/-- Thread `t` without the others. -/
def alone (r : Requester (Realm ρ τ)) (t : Nat) (ms : List (Move ρ τ)) :
    List ((α : Type) × Program (Realm ρ τ) α × Option Context) :=
  [⟨Unit, Move.play r t ms [], none⟩]

/-- What thread `t` has seen. -/
def seen (P : Pool (Realm ρ τ)) (t : Nat) : List Sight := (P.world.user.own t).log

/-- The thread has played its script. -/
def Played (P : Pool (Realm ρ τ)) (n : Nat) : Prop := ∃ x : Thread (Realm ρ τ) Unit, P.Has n x ∧ x.over? ≠ none

/-- Thread `t` has the same part in both pools, which it has as number `n` and as number `n'`: the same state and the
same log, the same attached, and the same end if any. -/
structure SameFor (t : Nat) (P : Pool (Realm ρ τ)) (n : Nat) (P' : Pool (Realm ρ τ)) (n' : Nat) : Prop where
  own : P.world.user.own t = P'.world.user.own t
  thread : ∃ x x' : Thread (Realm ρ τ) Unit, P.Has n x ∧ P'.Has n' x' ∧ x.holder = x'.holder ∧ x.over? = x'.over?

/-- What thread `t` of a pool has in common with the thread alone. -/
structure LikeAlone (w₀ : World (Realm ρ τ)) (r : Requester (Realm ρ τ)) (t : Nat) (ms : List (Move ρ τ))
    (P : Pool (Realm ρ τ)) : Prop where
  /-- Where the thread stands, it can come to stand when it is alone. -/
  reached : ∃ es Q, (start w₀ (alone r t ms)).Runs es Q ∧ Calm es ∧ SameFor t P t Q 0
  /-- What the thread sees when it is alone, it has seen or can come to see. -/
  caughtUp : ∀ es Q, (start w₀ (alone r t ms)).Runs es Q → Calm es →
    ∃ es' P', P.Runs es' P' ∧ Calm es' ∧ Q.seen t <+: P'.seen t
  /-- The thread alone sees the same in the same order, as far as both have come. -/
  comparable : ∀ es Q, (start w₀ (alone r t ms)).Runs es Q → Calm es → P.seen t <+: Q.seen t ∨ Q.seen t <+: P.seen t
  /-- Once it has played its script, all is as it is for the thread alone. -/
  played : ∀ es Q, (start w₀ (alone r t ms)).Runs es Q → Calm es → P.Played t → Q.Played 0 → SameFor t P t Q 0

theorem Carries.has {L : Line (Realm ρ τ) α} (h : P.Carries t n ns L w) :
    ∃ x : Thread (Realm ρ τ) α, P.Has n x ∧ x.over? = L.over? ∧ x.holder = L.holder := by
  obtain ⟨m, rest, x, rfl, hm, hover, hholder⟩ := h.stands.head
  cases h.first
  exact ⟨x, ⟨none, hm⟩, hover, hholder⟩

variable {L L' : Line (Realm ρ τ) Unit}

theorem Carries.sameFor (h : P.Carries t n ns L w) (h' : P'.Carries t n' ns' L w) : SameFor t P n P' n' := by
  obtain ⟨x, hx, hover, hholder⟩ := h.has
  obtain ⟨x', hx', hover', hholder'⟩ := h'.has
  exact ⟨h.agrees.own.symm.trans h'.agrees.own, x, x', hx, hx', hholder.trans hholder'.symm, hover.trans hover'.symm⟩

theorem Carries.seen_eq (h : P.Carries t n ns L w) : P.seen t = (w.user.own t).log :=
  congrArg Own.log h.agrees.own.symm

theorem Carries.over_of_played (h : P.Carries t n ns L w) (hplayed : P.Played n) : L.over? ≠ none := by
  obtain ⟨x, hx, hover, -⟩ := h.has
  obtain ⟨x', hx', hover'⟩ := hplayed
  rwa [← hover, hx.eq hx']

theorem carries_start {threads : List ((α : Type) × Program (Realm ρ τ) α × Option Context)}
    {p : Program (Realm ρ τ) Unit} (hn : threads[n]? = some ⟨Unit, p, none⟩) (hp : p.Secluded t)
    (hothers : ∀ u x, threads[u]? = some x → u ≠ n → ∃ o, o ≠ t ∧ x.2.1.Secluded o) :
    (start w₀ threads).Carries t n [n] (Line.runs none p) w₀ where
  stands := ⟨n, rfl, by rw [start, List.getElem?_map, hn]; rfl⟩
  first := rfl
  secluded := hp
  agrees := ⟨rfl, rfl⟩
  others u x hu := by
    obtain ⟨thread, hthread, rfl⟩ := getElem?_start hu
    by_cases hne : u = n
    · exact .inl (List.mem_singleton.2 hne)
    · exact .inr (.inr (hothers u thread hthread hne))

theorem getElem?_playing {x : (α : Type) × Program (Realm ρ τ) α × Option Context}
    (hx : (playing r scripts)[t]? = some x) : ∃ ms, scripts[t]? = some ms ∧ x = ⟨Unit, Move.play r t ms [], none⟩ := by
  rw [playing, List.getElem?_mapIdx, Option.map_eq_some_iff] at hx
  obtain ⟨ms, hms, rfl⟩ := hx
  exact ⟨ms, hms, rfl⟩

/-- The client code of each script keeps to the part of its own thread. -/
def KeepApart (scripts : List (List (Move ρ τ))) : Prop :=
  ∀ (t : Nat) (ms : List (Move ρ τ)), scripts[t]? = some ms → ∀ m ∈ ms, m.KeepsTo t

theorem carries_playing (hr : r.Impartial) (hscripts : KeepApart scripts) (ht : scripts[t]? = some ms) :
    (start w₀ (playing r scripts)).Carries t t [t] (Line.runs none (Move.play r t ms [])) w₀ := by
  refine carries_start ?_ (secluded_play hr (hscripts t ms ht) []) fun u x hu hne => ?_
  · rw [playing, List.getElem?_mapIdx, ht]
    rfl
  · obtain ⟨ms', hms', rfl⟩ := getElem?_playing hu
    exact ⟨u, hne, secluded_play hr (hscripts u ms' hms') []⟩

theorem carries_alone (hr : r.Impartial) (hms : ∀ m ∈ ms, m.KeepsTo t) :
    (start w₀ (alone r t ms)).Carries t 0 [0] (Line.runs none (Move.play r t ms [])) w₀ := by
  refine carries_start rfl (secluded_play hr hms []) fun u x hu hne => ?_
  rw [alone, List.getElem?_singleton, if_neg hne] at hu
  cases hu

theorem fresh_playing (hr : r.Impartial) (hscripts : KeepApart scripts) : Fresh (playing r scripts) := by
  intro x hx
  obtain ⟨t, ht⟩ := List.mem_iff_getElem?.1 hx
  obtain ⟨ms, hms, rfl⟩ := getElem?_playing ht
  exact ⟨rfl, t, secluded_play hr (hscripts t ms hms) []⟩

theorem likeAlone (hr : r.Impartial) (hscripts : KeepApart scripts) (hrun : (start w₀ (playing r scripts)).Runs es Q)
    (hcalm : Calm es) (ht : scripts[t]? = some ms) : LikeAlone w₀ r t ms Q := by
  have hms := hscripts t ms ht
  obtain ⟨L, w, ns, hleads, hQ⟩ := (carries_playing hr hscripts ht).runs .refl hrun hcalm
  refine ⟨?_, fun es' Q' hrun' hcalm' => ?_, fun es' Q' hrun' hcalm' => ?_,
    fun es' Q' hrun' hcalm' hplayed hplayed' => ?_⟩
  · obtain ⟨es', Q', ns', hrun', hcalm', hQ'⟩ := (carries_alone hr hms).exists_runs .refl hleads
    exact ⟨es', Q', hrun', hcalm', hQ.sameFor hQ'⟩
  all_goals obtain ⟨L', w', ns', hleads', hQ'⟩ := (carries_alone hr hms).runs .refl hrun' hcalm'
  · rcases hleads.total hleads' with hahead | hbehind
    · obtain ⟨es'', P, ns'', hrest, hcalm'', hP⟩ := hQ.exists_runs hrun hahead
      exact ⟨es'', P, hrest, hcalm'', by rw [hQ'.seen_eq, hP.seen_eq]⟩
    · refine ⟨[], Q, .refl, List.forall_mem_nil _, ?_⟩
      rw [hQ'.seen_eq, hQ.seen_eq]
      exact (hbehind.secluded_log hQ'.secluded).2
  · rw [hQ'.seen_eq, hQ.seen_eq]
    exact (hleads.total hleads').imp (fun h => (h.secluded_log hQ.secluded).2) fun h => (h.secluded_log hQ'.secluded).2
  · have heq : (L, w) = (L', w') := by
      rcases hleads.total hleads' with h | h
      · exact (h.eq_of_over (hQ.over_of_played hplayed)).symm
      · exact h.eq_of_over (hQ'.over_of_played hplayed')
    cases heq
    exact hQ.sameFor hQ'

/-- **Threads keep apart.** Threads play scripts through one requester, and the client code of each keeps to the
thread's own state. As long as no wait for a worker runs out and nothing stored changes, each thread sees in any run
what it sees alone. No thread finds a context attached that another has attached, be it a worker or not. -/
theorem threads_apart (hr : r.Impartial) (hscripts : KeepApart scripts)
    (hrun : (start w₀ (playing r scripts)).Runs es Q) (hcalm : Calm es) :
    (∀ t ms, scripts[t]? = some ms → LikeAlone w₀ r t ms Q) ∧ AttachedApart es :=
  ⟨fun _ _ ht => likeAlone hr hscripts hrun hcalm ht, hrun.attachedApart (fresh_playing hr hscripts)⟩

end Scripts

/-- A requester that all threads use. -/
def communal : Requester (Realm Unit Nat) := ⟨"requester", 0, convertPlainly, []⟩

/-- Connections that always stand. -/
def standing : Network (Realm Unit Nat) := fun _ => ⟨return true, fun _ => return .ok ()⟩

/-- A call that is refused the first time that thread `t` makes it. -/
def refusedOnce (t : Nat) : Invocation (Realm Unit Nat) where
  name := "getBlock"
  parameters := []
  call := do
    let before ← perform (.user (Realm.change t fun o => { o with state := o.state + 1 }))
    return if (before.own t).state = 0 then .error (.text "busy") else .ok "block"

/-- A context that asks for a bound and for a retry. -/
def timed : Context :=
  ⟨"timed", [.timeout ⟨.ofNanos 1009 (by decide), by decide⟩, .retry ⟨1, .ofNanos 23 (by decide), Nat.one_pos⟩]⟩

/-- The scripts of two threads that make the same call, the first of them under a context with strategies. -/
def together : List (List (Move Unit Nat)) :=
  [[.attach timed, .request standing (refusedOnce 0)],
    [.request standing (refusedOnce 1), .attach ⟨"bare", []⟩, .request standing (refusedOnce 1), .release 0, .remove]]

theorem keepsTo_refusedOnce (t : Nat) : (Move.request standing (refusedOnce t)).KeepsTo t := by
  refine ⟨fun _ => .done _, fun _ _ => .done _, .act (changesOwn_change fun _ => List.prefix_rfl) ?_ fun _ => .done _⟩
  intro s s' hs
  show done _ = done _
  rw [show s.own t = s'.own t from hs]

theorem keepApart_together : KeepApart together := by
  intro t ms hms m hm
  have hcases : (t = 0 ∧ ms = together[0]) ∨ (t = 1 ∧ ms = together[1]) := by
    rcases t with _ | _ | t
    · exact .inl ⟨rfl, (Option.some.inj hms).symm⟩
    · exact .inr ⟨rfl, (Option.some.inj hms).symm⟩
    · cases hms
  rcases hcases with ⟨rfl, rfl⟩ | ⟨rfl, rfl⟩
  · simp only [together, List.getElem_cons_zero, List.mem_cons, List.not_mem_nil, or_false] at hm
    rcases hm with rfl | rfl
    · trivial
    · exact keepsTo_refusedOnce 0
  · simp only [together, List.getElem_cons_succ, List.getElem_cons_zero, List.mem_cons, List.not_mem_nil,
      or_false] at hm
    rcases hm with rfl | rfl | rfl | rfl | rfl
    · exact keepsTo_refusedOnce 1
    · trivial
    · exact keepsTo_refusedOnce 1
    · trivial
    · trivial

/-- What the first thread sees. -/
def seenTimed : List Sight :=
  let called : Context := timed.withScope "getBlock"
  [.moved (some timed), .attempt (some called), .attempt (some called), .result (.ok (.ok "block")),
    .moved (some timed)]

/-- What the second thread sees. -/
def seenBare : List Sight :=
  let called : Context := ⟨"getBlock", []⟩
  [.attempt (some called), .result (.ok (.error (.ofFailure (.text "busy")))), .moved none, .moved (some ⟨"bare", []⟩),
    .attempt (some called), .result (.ok (.ok "block")), .moved (some ⟨"bare", []⟩), .moved none, .moved none]

/-- The first thread plays its script while the second is in the middle of its own. -/
theorem threads_apart_together :
    let w := World.start ⟨(), fun _ => ⟨0, []⟩⟩
    ∃ es Q, (start w (playing communal together)).Runs es Q ∧ Calm es ∧ Q.seen 0 = seenTimed ∧ Q.seen 1 = seenBare ∧
      (∀ t ms, together[t]? = some ms → LikeAlone w communal t ms Q) ∧ AttachedApart es := by
  intro w
  have hr : communal.Impartial := ⟨fun _ _ => .done _, fun _ l hl => absurd hl List.not_mem_nil⟩
  have hfirst : (start w (playing communal together)).Carries 0 0 [0] _ w :=
    carries_playing hr keepApart_together rfl
  have hsecond : (start w (playing communal together)).Carries 1 1 [1] _ w :=
    carries_playing hr keepApart_together rfl
  obtain ⟨last, hend, hover, hlog⟩ : ∃ s, Line.Leads (.runs none (Move.play communal 0 together[0] []), w) s ∧
      s.1.over? ≠ none ∧ (s.2.user.own 0).log = seenTimed :=
    ⟨_, .of_advance 46 _, by decide +kernel, by decide +kernel⟩
  obtain ⟨last', hend', hover', hlog'⟩ : ∃ s, Line.Leads (.runs none (Move.play communal 1 together[1] []), w) s ∧
      s.1.over? ≠ none ∧ (s.2.user.own 1).log = seenBare :=
    ⟨_, .of_advance 40 _, by decide +kernel, by decide +kernel⟩
  obtain ⟨⟨L₁, w₁⟩, hmiddle⟩ : ∃ s, Line.Leads (.runs none (Move.play communal 1 together[1] []), w) s :=
    ⟨_, .of_advance 12 _⟩
  -- The second thread begins, the first plays its script, and the second goes on.
  obtain ⟨es₁, Q₁, ns₁, hrun₁, hcalm₁, hQ₁⟩ := hsecond.exists_runs .refl hmiddle
  obtain ⟨L, v, ns, hleads, hcarries⟩ := hfirst.runs .refl hrun₁ hcalm₁
  obtain ⟨es₂, Q₂, ns₂, hrun₂, hcalm₂, hQ₂⟩ := hcarries.exists_end hrun₁ hleads hend hover
  obtain ⟨L', v', ns', hleads', hcarries'⟩ := hQ₁.runs hrun₁ hrun₂ hcalm₂
  obtain ⟨es₃, Q₃, ns₃, hrun₃, hcalm₃, hQ₃⟩ :=
    hcarries'.exists_end (hrun₁.append hrun₂) (hmiddle.trans hleads') hend' hover'
  obtain ⟨L'', v'', ns'', hleads'', hQ₀⟩ := hQ₂.runs (hrun₁.append hrun₂) hrun₃ hcalm₃
  have hlast : v'' = last.2 := congrArg Prod.snd (hleads''.eq_of_over hover)
  have hrun := (hrun₁.append hrun₂).append hrun₃
  have hcalm : Calm (es₁ ++ es₂ ++ es₃) := List.forall_mem_append.2 ⟨List.forall_mem_append.2 ⟨hcalm₁, hcalm₂⟩, hcalm₃⟩
  refine ⟨_, Q₃, hrun, hcalm, ?_, ?_, threads_apart hr keepApart_together hrun hcalm⟩
  · rw [hQ₀.seen_eq, hlast, hlog]
  · rw [hQ₃.seen_eq, hlog']

end Pool

end ResilientCalls
