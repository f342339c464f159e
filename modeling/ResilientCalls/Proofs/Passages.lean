import ResilientCalls.Future.Cell
import ResilientCalls.Proofs.PoolRuns

/-!
# Code from its start to its end

`Program.Goes` says with which deeds code may come to which end on some thread, whatever other threads
do meanwhile. It is computed from the parts of the code: from effects, from what stands one after the
other, and from client code in the middle, of which nothing is known but its own deeds. `Pool.Through`
says that a thread of a pool goes through such code in a run.
-/

namespace ResilientCalls

open Program

variable {σ α β : Type} {h h' : Option Context} {L : List (Deed σ)}

/-- On a thread with `h` attached the code may come to `r` by these deeds, and then leaves `h'`. -/
def Program.Goes (p : Program σ α) (h : Option Context) (L : List (Deed σ)) (r : Except Payload α)
    (h' : Option Context) : Prop :=
  (Thread.fresh p h).Path L (.fresh (rethrow r) h')

namespace Thread

theorem over?_before {x : Thread σ α} (hx : x.over? = none) (k : Except Payload α → Program σ β) :
    (x.before k).over? = none := by
  obtain ⟨holder, code, stage⟩ := x
  cases stage with
  | ready => cases code <;> first | rfl | cases hx
  | _ => rfl

theorem Path.goes {p : Program σ α} {y : Thread σ α} {r : Except Payload α}
    (hpath : (fresh p h).Path L y) (hy : y.over? = some r) : p.Goes h L r y.holder := by
  have hend := eq_of_over? hy
  rw [Program.Goes, ← hend]
  exact hpath

end Thread

/-! ## From parts to wholes -/

theorem goes_rethrow {r r' : Except Payload α} :
    (rethrow r : Program σ α).Goes h L r' h' ↔ L = [] ∧ r' = r ∧ h' = h := by
  constructor
  · intro hgoes
    obtain ⟨rfl, hend⟩ := Thread.path_of_over (Thread.over?_rethrow r h) hgoes
    have hr := congrArg Thread.over? hend
    simp only [Thread.over?_rethrow, Option.some.injEq] at hr
    exact ⟨rfl, hr, congrArg Thread.holder hend⟩
  · rintro ⟨rfl, rfl, rfl⟩
    exact .rest _

theorem goes_done {a : α} {r : Except Payload α} :
    (done a : Program σ α).Goes h L r h' ↔ L = [] ∧ r = .ok a ∧ h' = h :=
  goes_rethrow (r := .ok a)

theorem goes_unwind {p : Payload} {r : Except Payload α} :
    (unwind p : Program σ α).Goes h L r h' ↔ L = [] ∧ r = .error p ∧ h' = h :=
  goes_rethrow (r := .error p)

/-- **Code and what follows it.** -/
theorem goes_caught_bind {p : Program σ α} {k : Except Payload α → Program σ β} {r : Except Payload β} :
    (p.caught.bind k).Goes h L r h' ↔
      ∃ r₁ h₁ L₁ L₂, L = L₁ ++ L₂ ∧ p.Goes h L₁ r₁ h₁ ∧ (k r₁).Goes h₁ L₂ r h' := by
  constructor
  · intro hgoes
    rw [Goes, ← Thread.fresh_before] at hgoes
    rcases Thread.path_before (Thread.sound_fresh p h) hgoes with
      ⟨x, -, hx, hend⟩ | ⟨L₁, L₂, h₁, r₁, rfl, hfirst, hrest⟩
    · have hover := Thread.over?_before hx k
      rw [← hend, Thread.over?_rethrow] at hover
      cases hover
    · exact ⟨r₁, h₁, L₁, L₂, rfl, hfirst, hrest⟩
  · rintro ⟨r₁, h₁, L₁, L₂, rfl, hfirst, hrest⟩
    have hbefore := Thread.Path.before hfirst k
    rw [Thread.before_of_over (Thread.over?_rethrow r₁ h₁)] at hbefore
    exact hbefore.append hrest

theorem goes_bind {p : Program σ α} {g : α → Program σ β} {r : Except Payload β} :
    (p.bind g).Goes h L r h' ↔
      (∃ a h₁ L₁ L₂, L = L₁ ++ L₂ ∧ p.Goes h L₁ (.ok a) h₁ ∧ (g a).Goes h₁ L₂ r h') ∨
        ∃ e, r = .error e ∧ p.Goes h L (.error e) h' := by
  rw [bind_eq_caught_bind, goes_caught_bind]
  constructor
  · rintro ⟨r₁, h₁, L₁, L₂, rfl, hfirst, hrest⟩
    cases r₁ with
    | ok a => exact .inl ⟨a, h₁, L₁, L₂, rfl, hfirst, hrest⟩
    | error e =>
      obtain ⟨rfl, rfl, rfl⟩ := goes_unwind.1 hrest
      exact .inr ⟨e, rfl, by rwa [List.append_nil]⟩
  · rintro (⟨a, h₁, L₁, L₂, rfl, hfirst, hrest⟩ | ⟨e, rfl, hgoes⟩)
    · exact ⟨.ok a, h₁, L₁, L₂, rfl, hfirst, hrest⟩
    · exact ⟨.error e, h', L, [], (List.append_nil L).symm, hgoes, goes_unwind.2 ⟨rfl, rfl, rfl⟩⟩

/-! ## Effects -/

theorem goes_perform {a : Action σ β} (ha : ∀ b, a.stageAfter b = .ready) {r : Except Payload β} :
    (perform a).Goes h L r h' ↔ ∃ b w w', a.step h w = (b, h', w') ∧ L = [.did a b] ∧ r = .ok b := by
  constructor
  · intro hgoes
    rcases Thread.path_act hgoes with ⟨-, hend⟩ | ⟨b, h₁, w, w', L', hstep, rfl, hrest⟩
    · have hover := congrArg Thread.over? hend
      rw [Thread.over?_rethrow] at hover
      cases hover
    · rw [ha b] at hrest
      obtain ⟨rfl, rfl, rfl⟩ := goes_done.1 hrest
      exact ⟨b, w, w', hstep, rfl, rfl⟩
  · rintro ⟨b, w, w', hstep, rfl, rfl⟩
    have hdoes : Thread.Does 0 (.fresh (perform a) h) (.did a b) ⟨h', done b, a.stageAfter b⟩ := .act hstep
    rw [ha b] at hdoes
    exact .go hdoes (.rest _)

theorem exists_settle_step [Inhabited σ] (i : FutureId) (outcome : Reply) (h : Option Context) (won : Bool) :
    ∃ w w' : World σ, (Action.settle i outcome).step h w = (won, h, w') := by
  cases won with
  | false => exact ⟨{ World.start default with futures := fun _ => some outcome }, _, rfl⟩
  | true => exact ⟨World.start default, _, rfl⟩

/-- The deeds of a write; the winner wakes those who wait. -/
def settling (i : FutureId) (outcome : Reply) (won : Bool) : List (Deed σ) :=
  .did (.settle i outcome) won :: if won then [.notified i] else []

theorem offersIn_settling {i : FutureId} {outcome : Reply} {won : Bool} :
    offersIn i (settling i outcome won : List (Deed σ)) = [(outcome, won)] := by
  cases won <;> simp [offersIn, settling, List.filterMap_cons, Deed.offer?]

theorem goes_settle [Inhabited σ] {i : FutureId} {outcome : Reply} {r : Except Payload Bool} :
    (perform (.settle i outcome)).Goes h L r h' ↔
      ∃ won, L = settling i outcome won ∧ r = .ok won ∧ h' = h := by
  constructor
  · intro hgoes
    rcases Thread.path_act hgoes with ⟨-, hend⟩ | ⟨won, h₁, w, w', L', hstep, rfl, hrest⟩
    · have hover := congrArg Thread.over? hend
      rw [Thread.over?_rethrow] at hover
      cases hover
    · obtain rfl := holder_settle hstep
      cases won with
      | false =>
        obtain ⟨rfl, rfl, rfl⟩ := goes_done.1 hrest
        exact ⟨false, rfl, rfl, rfl⟩
      | true =>
        rcases Thread.path_waking hrest with ⟨-, hend⟩ | ⟨L'', rfl, hlast⟩
        · have hover := congrArg Thread.over? hend
          rw [Thread.over?_rethrow] at hover
          cases hover
        · obtain ⟨rfl, rfl, rfl⟩ := goes_done.1 hlast
          exact ⟨true, rfl, rfl, rfl⟩
  · rintro ⟨won, rfl, rfl, rfl⟩
    obtain ⟨w, w', hstep⟩ := exists_settle_step (σ := σ) i outcome h' won
    have hdoes : Thread.Does 0 (.fresh (perform (.settle i outcome)) h') (.did (.settle i outcome) won)
        ⟨h', done won, (Action.settle i outcome : Action σ Bool).stageAfter won⟩ := .act hstep
    cases won with
    | false => exact .go hdoes (.rest _)
    | true =>
      have hnotify : Thread.Does 0 ⟨h', done true, .waking i⟩ (.notified i) (.fresh (done true : Program σ Bool) h') :=
        .notify
      exact .go hdoes (.go hnotify (.rest _))

theorem goes_settle_bind [Inhabited σ] {i : FutureId} {outcome : Reply} {a : α} {r : Except Payload α} :
    ((perform (.settle i outcome)).bind fun _ => done a).Goes h L r h' ↔
      ∃ won, L = settling i outcome won ∧ r = .ok a ∧ h' = h := by
  rw [goes_bind]
  constructor
  · rintro (⟨b, h₁, L₁, L₂, rfl, hwrite, hrest⟩ | ⟨e, -, hwrite⟩)
    · obtain ⟨won, rfl, -, rfl⟩ := goes_settle.1 hwrite
      obtain ⟨rfl, rfl, rfl⟩ := goes_done.1 hrest
      exact ⟨won, List.append_nil _, rfl, rfl⟩
    · obtain ⟨won, -, hwon, -⟩ := goes_settle.1 hwrite
      cases hwon
  · rintro ⟨won, rfl, rfl, rfl⟩
    exact .inl ⟨won, h', settling i outcome won, [], (List.append_nil _).symm, goes_settle.2 ⟨won, rfl, rfl, rfl⟩,
      goes_done.2 ⟨rfl, rfl, rfl⟩⟩

theorem goes_tryGet {i : FutureId} {r : Except Payload (Option Reply)}
    (hgoes : (Future.tryGet i).Goes h L r h') : ∃ found, L = [.did (.peek i) found] ∧ r = .ok found ∧ h' = h := by
  obtain ⟨found, w, w', hstep, rfl, rfl⟩ := (goes_perform fun _ => rfl).1 hgoes
  cases hstep
  exact ⟨_, rfl, rfl, rfl⟩

theorem goes_isDone {i : FutureId} {r : Except Payload Bool}
    (hgoes : (Future.isDone i).Goes h L r h') :
    ∃ found, L = [.did (.peek i) found] ∧ r = .ok found.isSome ∧ h' = h := by
  rcases goes_bind.1 hgoes with ⟨found, h₁, L₁, L₂, rfl, hpeek, hrest⟩ | ⟨e, -, hpeek⟩
  · obtain ⟨_, rfl, hfound, rfl⟩ := goes_tryGet hpeek
    obtain ⟨rfl, rfl, rfl⟩ := goes_done.1 hrest
    cases hfound
    exact ⟨found, rfl, rfl, rfl⟩
  · obtain ⟨_, -, hfound, -⟩ := goes_tryGet hpeek
    cases hfound

/-! ## Code without a choice -/

/-- The code makes these deeds, comes to `a` and leaves `h'`, and nothing else can come of it. -/
def Program.Makes (p : Program σ α) (h : Option Context) (L : List (Deed σ)) (a : α)
    (h' : Option Context) : Prop :=
  ∀ L' r h'', p.Goes h L' r h'' ↔ L' = L ∧ r = .ok a ∧ h'' = h'

theorem makes_done (a : α) : (done a : Program σ α).Makes h [] a h := fun _ _ _ => goes_done

theorem Program.Makes.bind {p : Program σ α} {g : α → Program σ β} {a : α} {h₁ : Option Context}
    {L' : List (Deed σ)} {r : Except Payload β} (hp : p.Makes h L a h₁) :
    (p.bind g).Goes h L' r h' ↔ ∃ L₂, L' = L ++ L₂ ∧ (g a).Goes h₁ L₂ r h' := by
  rw [goes_bind]
  constructor
  · rintro (⟨a', h₂, L₁, L₂, rfl, hfirst, hrest⟩ | ⟨e, -, hgoes⟩)
    · obtain ⟨rfl, ha, rfl⟩ := (hp _ _ _).1 hfirst
      cases ha
      exact ⟨L₂, rfl, hrest⟩
    · cases ((hp _ _ _).1 hgoes).2.1
  · rintro ⟨L₂, rfl, hrest⟩
    exact .inl ⟨a, h₁, L, L₂, rfl, (hp _ _ _).2 ⟨rfl, rfl, rfl⟩, hrest⟩

theorem Program.Makes.trans {p : Program σ α} {g : α → Program σ β} {a : α} {b : β} {h₁ : Option Context}
    {L' : List (Deed σ)} (hp : p.Makes h L a h₁) (hg : (g a).Makes h₁ L' b h') :
    (p.bind g).Makes h (L ++ L') b h' := by
  intro L'' r h''
  rw [hp.bind]
  constructor
  · rintro ⟨L₂, rfl, hrest⟩
    obtain ⟨rfl, rfl, rfl⟩ := (hg _ _ _).1 hrest
    exact ⟨rfl, rfl, rfl⟩
  · rintro ⟨rfl, rfl, rfl⟩
    exact ⟨L', rfl, (hg _ _ _).2 ⟨rfl, rfl, rfl⟩⟩

theorem makes_perform [Inhabited σ] {a : Action σ β} {b : β} (hstage : ∀ b, a.stageAfter b = .ready)
    (ha : ∀ w, ∃ w', a.step h w = (b, h', w')) : (perform a).Makes h [.did a b] b h' := by
  intro L' r h''
  rw [goes_perform hstage]
  constructor
  · rintro ⟨b', w, w₁, hstep, rfl, rfl⟩
    obtain ⟨w', hw'⟩ := ha w
    cases hstep.symm.trans hw'
    exact ⟨rfl, rfl, rfl⟩
  · rintro ⟨rfl, rfl, rfl⟩
    obtain ⟨w', hw'⟩ := ha (World.start default)
    exact ⟨b, _, w', hw', rfl, rfl⟩

section Straight

variable [Inhabited σ]

theorem makes_record (e : Entry) : (record e : Program σ Unit).Makes h [.did (.record e) ()] () h :=
  makes_perform (fun _ => rfl) fun _ => ⟨_, rfl⟩

theorem makes_log (t : Trace) : (log t : Program σ Unit).Makes h [.did (.record (.traced t)) ()] () h :=
  makes_record _

theorem makes_count (c : Counter) : (count c : Program σ Unit).Makes h [.did (.record (.counted c)) ()] () h :=
  makes_record _

theorem makes_current : (current : Program σ (Option Context)).Makes h [.did (.holder id) h] h h :=
  makes_perform (fun _ => rfl) fun _ => ⟨_, rfl⟩

theorem makes_currentScope (otherwise : String) :
    (currentScope otherwise : Program σ String).Makes h [.did (.holder id) h]
      ((h.map Context.scope).getD otherwise) h :=
  makes_current.trans (makes_done _)

/-- The deeds of attaching a context. -/
def attaching (c : Context) (h : Option Context) : List (Deed σ) :=
  [.did (.record (.traced (.attached c.scope))) (), .did (.holder fun _ => some c) h]

theorem makes_attach (c : Context) : (attach c : Program σ Guard).Makes h (attaching c h) ⟨h⟩ (some c) :=
  (makes_record _).trans (Program.Makes.trans (makes_perform (fun _ => rfl) fun _ => ⟨_, rfl⟩) (makes_done _))

/-- The deeds of putting back what was attached before. -/
def releasing (previous h : Option Context) : List (Deed σ) :=
  .did (.holder fun _ => previous) h ::
    match h with
    | some c => [.did (.record (.traced (.released c.scope))) ()]
    | none => []

theorem makes_release (g : Guard) : (g.release : Program σ Unit).Makes h (releasing g.previous h) () g.previous := by
  have hput : (perform (.holder fun _ => g.previous) : Program σ (Option Context)).Makes h
      [.did (.holder fun _ => g.previous) h] h g.previous := makes_perform (fun _ => rfl) fun _ => ⟨_, rfl⟩
  refine hput.trans ?_
  cases h with
  | some c => exact makes_record _
  | none => exact makes_done _

/-- Code under a context: the code has the context to begin with, and whatever it leaves on the thread,
what was there before is put back. -/
theorem goes_withContext {c : Context} {body : Program σ α} {r : Except Payload α} :
    (withContext c body).Goes h L r h' ↔
      ∃ L₁ h₁, L = attaching c h ++ (L₁ ++ releasing h h₁) ∧ body.Goes (some c) L₁ r h₁ ∧ h' = h := by
  have hcode : withContext c body = (attach c).bind fun guard =>
      body.caught.bind fun r => guard.release.bind fun _ => rethrow r := rfl
  rw [hcode, (makes_attach c).bind]
  constructor
  · rintro ⟨L₂, rfl, hgoes⟩
    obtain ⟨r₁, h₁, L₁, L₃, rfl, hbody, hrest⟩ := goes_caught_bind.1 hgoes
    obtain ⟨L₄, rfl, hlast⟩ := (makes_release _).bind.1 hrest
    obtain ⟨rfl, rfl, rfl⟩ := goes_rethrow.1 hlast
    exact ⟨L₁, h₁, by rw [List.append_nil], hbody, rfl⟩
  · rintro ⟨L₁, h₁, rfl, hbody, rfl⟩
    refine ⟨_, rfl, goes_caught_bind.2 ⟨r, h₁, L₁, _, rfl, hbody, ?_⟩⟩
    refine (makes_release _).bind.2 ⟨[], (List.append_nil _).symm, goes_rethrow.2 ⟨rfl, rfl, rfl⟩⟩

end Straight

/-! ## Threads of a pool -/

namespace Pool

variable {P Q R : Pool σ} {t : Nat} {es es' : List (Nat × Deed σ)}

/-- In this run thread `t` goes through the code `p`, with `h` attached at its start, and comes to `r`;
the code may be part of other code. -/
structure Through (P : Pool σ) (t : Nat) (p : Program σ α) (h : Option Context) (es : List (Nat × Deed σ))
    (r : Except Payload α) (h' : Option Context) (Q : Pool σ) : Prop where
  run : P.Runs es Q
  thread : ∃ (β : Type) (k : Except Payload α → Program σ β),
    P.Has t (.fresh (p.caught.bind k) h) ∧ Q.Has t (.fresh (k r) h')
  goes : p.Goes h (deedsOf t es) r h'

theorem Runs.through_all {p : Program σ α} {r : Except Payload α} (hrun : P.Runs es Q)
    (ht : P.Has t (.fresh p h)) (hend : Q.Has t (.fresh (rethrow r) h')) : P.Through t p h es r h' Q := by
  obtain ⟨y, hpath, hy⟩ := hrun.path ht
  refine ⟨hrun, ⟨α, rethrow, ?_, hend⟩, ?_⟩
  · rwa [caught_bind_rethrow]
  · rwa [hy.eq hend] at hpath

theorem Runs.through {p : Program σ α} {k : Except Payload α → Program σ β} (hrun : P.Runs es Q)
    (ht : P.Has t (.fresh (p.caught.bind k) h)) :
    (∃ x, (Thread.fresh p h).Path (deedsOf t es) x ∧ x.over? = none ∧ Q.Has t (x.before k)) ∨
      ∃ es₁ es₂ r h' Q₁, es = es₁ ++ es₂ ∧ P.Through t p h es₁ r h' Q₁ ∧ Q₁.Runs es₂ Q ∧
        Q₁.Has t (.fresh (k r) h') := by
  -- The end of the code is the end of the stretch, so the case is settled where the thread is over.
  have settle : ∀ {es : List (Nat × Deed σ)} {Q : Pool σ} {x : Thread σ α}, P.Runs es Q →
      (Thread.fresh p h).Path (deedsOf t es) x → Q.Has t (x.before k) →
      (∃ x, (Thread.fresh p h).Path (deedsOf t es) x ∧ x.over? = none ∧ Q.Has t (x.before k)) ∨
        ∃ es₁ es₂ r h' Q₁, es = es₁ ++ es₂ ∧ P.Through t p h es₁ r h' Q₁ ∧ Q₁.Runs es₂ Q ∧
          Q₁.Has t (.fresh (k r) h') := by
    intro es Q x hruns hpath hx
    cases hover : x.over? with
    | none => exact .inl ⟨x, hpath, hover, hx⟩
    | some r =>
      rw [Thread.before_of_over hover] at hx
      exact .inr ⟨es, [], r, x.holder, Q, (List.append_nil es).symm,
        ⟨hruns, ⟨β, k, ht, hx⟩, hpath.goes hover⟩, .refl, hx⟩
  induction hrun with
  | refl => exact settle .refl (.rest _) ht
  | @step es Q R u e hruns hstep ih =>
    rcases ih with ⟨x, hpath, hover, hx⟩ | ⟨es₁, es₂, r, h', Q₁, rfl, hthrough, hrest, hk⟩
    · by_cases hu : t = u
      · subst hu
        rcases hstep.has_self hx with ⟨hown, y, hdoes, hy⟩ | ⟨hown, hy⟩
        · obtain ⟨x', hdoes', rfl⟩ := Thread.does_before ((Thread.sound_fresh p h).path hpath) hover hdoes
          have hdeeds : deedsOf t (es ++ [(t, e)]) = deedsOf t es ++ [e] := by simp [deedsOf, hown]
          exact settle (hruns.step hstep) (hdeeds ▸ hpath.snoc hdoes') hy
        · have hdeeds : deedsOf t (es ++ [(t, e)]) = deedsOf t es := by simp [deedsOf, hown]
          exact settle (hruns.step hstep) (hdeeds ▸ hpath) hy
      · have hu' : ¬ u = t := fun h => hu h.symm
        have hdeeds : deedsOf t (es ++ [(u, e)]) = deedsOf t es := by simp [deedsOf, hu']
        exact settle (hruns.step hstep) (hdeeds ▸ hpath) (hstep.has_of_ne hu hx)
    · exact .inr ⟨es₁, es₂ ++ [(u, e)], r, h', Q₁, by rw [List.append_assoc], hthrough, hrest.step hstep, hk⟩
  | wait n hruns ih =>
    rcases ih with ⟨x, hpath, hover, hx⟩ | ⟨es₁, es₂, r, h', Q₁, rfl, hthrough, hrest, hk⟩
    · exact .inl ⟨x, hpath, hover, hx⟩
    · exact .inr ⟨es₁, es₂, r, h', Q₁, rfl, hthrough, hrest.wait n, hk⟩

end Pool

end ResilientCalls
