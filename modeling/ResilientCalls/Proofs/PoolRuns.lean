import ResilientCalls.Program.Pool
import ResilientCalls.Proofs.ThreadPaths

/-!
# Runs of a pool

What one step does to each thread and to the futures, and from it what a whole run does. Seen from
one thread a run is a path of that thread (`Runs.path`), and a future has the outcome of the first
write that found it pending (`Runs.future`).
-/

namespace ResilientCalls

open Program

variable {σ α β : Type} {P Q R : Pool σ} {t u : Nat} {e : Deed σ} {es es' : List (Nat × Deed σ)}

/-! ## Steps -/

theorem Action.step_holder {β : Type} (a : Action σ β) (h : Option Context) (w w' : World σ) :
    (a.step h w).2.1 = (a.step h w').2.1 := by
  cases a with
  | settle i outcome =>
    simp only [Action.step]
    cases w.futures i <;> cases w'.futures i <;> rfl
  | _ => rfl

theorem holder_settle {h h' : Option Context} {i : FutureId} {outcome : Reply} {won : Bool} {w w' : World σ}
    (hstep : (Action.settle i outcome).step h w = (won, h', w')) : h' = h := by
  simp only [Action.step] at hstep
  cases hw : w.futures i <;> rw [hw] at hstep <;> cases hstep <;> rfl

namespace Deed

/-- The outcome that a step offers to a future, and whether it is taken. -/
def offer? (i : FutureId) : Deed σ → Option (Reply × Bool)
  | .did (.settle j outcome) won => if j = i then some (outcome, won) else none
  | _ => none

/-- The outcome that a step offers to a future. -/
def write? (i : FutureId) (e : Deed σ) : Option Reply := (e.offer? i).map Prod.fst

/-- Whether a step belongs to the code of a thread, and not to what comes after it. -/
def isOwn : Deed σ → Bool
  | .finished .. => false
  | _ => true

end Deed

/-- The outcomes offered to a future, each with whether it was taken. -/
def offersIn (i : FutureId) (L : List (Deed σ)) : List (Reply × Bool) := L.filterMap (Deed.offer? i)

@[simp]
theorem offersIn_append {i : FutureId} (L L' : List (Deed σ)) :
    offersIn i (L ++ L') = offersIn i L ++ offersIn i L' :=
  List.filterMap_append

namespace Pool

/-- All threads of the pool are sound. -/
def Sound (P : Pool σ) : Prop := ∀ (t : Nat) (m : Member σ), P.threads[t]? = some m → m.thread.Sound

theorem getElem?_start {w : World σ} {threads : List ((α : Type) × Program σ α × Option Context)} {m : Member σ}
    (hm : (start w threads).threads[t]? = some m) :
    ∃ x, threads[t]? = some x ∧ m = ⟨x.1, none, .fresh x.2.1 x.2.2⟩ := by
  rw [start, List.getElem?_map, Option.map_eq_some_iff] at hm
  obtain ⟨x, hx, rfl⟩ := hm
  exact ⟨x, hx, rfl⟩

theorem sound_start (w : World σ) (threads : List ((α : Type) × Program σ α × Option Context)) :
    (start w threads).Sound := by
  intro t m hm
  obtain ⟨x, -, rfl⟩ := getElem?_start hm
  exact Thread.sound_fresh _ _

theorem getElem?_set_append {ms : List (Member σ)} {m m' : Member σ} (off : List (Member σ))
    (hm : ms[t]? = some m) : (ms.set t m' ++ off)[t]? = some m' := by
  obtain ⟨hlt, -⟩ := List.getElem?_eq_some_iff.1 hm
  rw [List.getElem?_append_left (by rwa [List.length_set]), List.getElem?_set_self hlt]

theorem getElem?_set_append_of_ne {ms : List (Member σ)} {m m' : Member σ} (off : List (Member σ))
    (hne : u ≠ t) (hm : ms[u]? = some m) : (ms.set t m' ++ off)[u]? = some m := by
  obtain ⟨hlt, -⟩ := List.getElem?_eq_some_iff.1 hm
  rw [List.getElem?_append_left (by rwa [List.length_set]), List.getElem?_set_ne hne.symm, hm]

theorem Has.eq {x y : Thread σ α} (hx : P.Has t x) (hy : P.Has t y) : x = y := by
  obtain ⟨s, hs⟩ := hx
  obtain ⟨s', hs'⟩ := hy
  cases hs.symm.trans hs'
  rfl

theorem Step.threads_of_ne {m : Member σ} (hstep : P.Step u e Q) (hne : t ≠ u) (hm : P.threads[t]? = some m) :
    Q.threads[t]? = some m := by
  cases hstep with
  | does => exact getElem?_set_append_of_ne _ hne hm
  | finishes => rw [List.getElem?_set_ne hne.symm, hm]

theorem Step.has_of_ne {x : Thread σ α} (hstep : P.Step u e Q) (hne : t ≠ u) (hx : P.Has t x) : Q.Has t x := by
  obtain ⟨sender, hx⟩ := hx
  exact ⟨sender, hstep.threads_of_ne hne hx⟩

theorem Step.of_not_over {sender : Option ChannelId} {x : Thread σ α} (hstep : P.Step t e Q)
    (ht : P.threads[t]? = some ⟨α, sender, x⟩) (hx : x.over? = none) : ∃ y s, x.Does P.world.clock e y ∧
      P.shared.Allows t x.holder e s ∧ Q = ⟨s, P.threads.set t ⟨α, sender, y⟩ ++ e.offspring⟩ := by
  cases hstep with
  | does ht' hdoes hallows =>
    cases ht.symm.trans ht'
    exact ⟨_, _, hdoes, hallows, rfl⟩
  | finishes ht' hover =>
    cases ht.symm.trans ht'
    cases hx.symm.trans hover

theorem Step.has_self {x : Thread σ α} (hstep : P.Step t e Q) (hx : P.Has t x) :
    (e.isOwn = true ∧ ∃ y, x.Does P.world.clock e y ∧ Q.Has t y) ∨ (e.isOwn = false ∧ Q.Has t x) := by
  obtain ⟨sender, hx⟩ := hx
  cases hstep with
  | does ht hdoes hallows =>
    cases hx.symm.trans ht
    refine .inl ⟨?_, _, hdoes, sender, getElem?_set_append _ hx⟩
    cases hdoes <;> rfl
  | finishes ht _ _ =>
    cases hx.symm.trans ht
    obtain ⟨hlt, -⟩ := List.getElem?_eq_some_iff.1 hx
    exact .inr ⟨rfl, none, List.getElem?_set_self hlt⟩

theorem Step.sound (hstep : P.Step t e Q) (hP : P.Sound) : Q.Sound := by
  intro u m hm
  cases hstep with
  | @does α sender x y e s hx hdoes hallows =>
    rcases List.mem_append.1 (List.mem_of_getElem? hm) with hset | hoff
    · rcases List.mem_or_eq_of_mem_set hset with hold | rfl
      · obtain ⟨n, hn⟩ := List.mem_iff_getElem?.1 hold
        exact hP n m hn
      · exact (hP t _ hx).step hdoes
    · cases e <;> simp only [Deed.offspring, List.not_mem_nil, List.mem_singleton] at hoff
      subst hoff
      exact Thread.sound_fresh _ _
  | finishes hx _ _ =>
    rcases List.mem_or_eq_of_mem_set (List.mem_of_getElem? hm) with hold | rfl
    · obtain ⟨n, hn⟩ := List.mem_iff_getElem?.1 hold
      exact hP n m hn
    · have hsound := hP t _ hx
      exact hsound

/-! ## Futures -/

theorem le_nextId_step {β : Type} (a : Action σ β) (h : Option Context) (w : World σ) :
    w.nextId ≤ (a.step h w).2.2.nextId := by
  cases a with
  | settle i outcome =>
    simp only [Action.step]
    cases w.futures i <;> exact Nat.le_refl _
  | newStorage | newFuture => exact Nat.le_succ _
  | _ => exact Nat.le_refl _

theorem futures_step {β : Type} (a : Action σ β) (h : Option Context) (w : World σ) {i : FutureId}
    (hi : i < w.nextId) (b : β) :
    (a.step h w).2.2.futures i = (w.futures i).or ((Deed.did a b).write? i) := by
  cases a with
  | newFuture =>
    have hne : i ≠ w.nextId := Nat.ne_of_lt hi
    simp [Action.step, Deed.write?, Deed.offer?, hne]
  | settle j outcome =>
    by_cases hj : j = i
    · subst hj
      cases hw : w.futures j <;> simp [Action.step, Deed.write?, Deed.offer?, hw]
    · have hij : ¬ i = j := fun h => hj h.symm
      cases hw : w.futures j <;> simp [Action.step, Deed.write?, Deed.offer?, hw, hj, hij]
  | _ => exact Option.or_none.symm

theorem Step.nextId_le (hstep : P.Step t e Q) : P.world.nextId ≤ Q.world.nextId := by
  cases hstep with
  | finishes => exact Nat.le_refl _
  | @does α sender x y e s _ _ hallows =>
    cases hallows with
    | @did β a b h' w hact =>
      have hle := le_nextId_step a x.holder P.world
      rw [world, hact] at hle
      exact hle
    | _ => exact Nat.le_refl _

theorem Step.future (hstep : P.Step t e Q) {i : FutureId} (hi : i < P.world.nextId) :
    Q.future i = (P.future i).or (e.write? i) := by
  cases hstep with
  | finishes => exact (Option.or_none).symm
  | @does α sender x y e s _ _ hallows =>
    cases hallows with
    | @did β a b h' w hact =>
      have hfuture := futures_step a x.holder P.world hi b
      rw [world, hact] at hfuture
      exact hfuture
    | _ => exact (Option.or_none).symm

/-! ## Runs -/

/-- What a thread did of its own code. -/
def deedsOf (t : Nat) (es : List (Nat × Deed σ)) : List (Deed σ) :=
  es.filterMap fun e => if e.1 = t ∧ e.2.isOwn = true then some e.2 else none

/-- All that was offered to a future, in the order of the steps. -/
def offers (i : FutureId) (es : List (Nat × Deed σ)) : List (Reply × Bool) := offersIn i (es.map Prod.snd)

/-- The first outcome that was offered to a future. -/
def firstWrite (i : FutureId) (es : List (Nat × Deed σ)) : Option Reply :=
  es.findSome? fun e => e.2.write? i

@[simp]
theorem deedsOf_append : deedsOf t (es ++ es') = deedsOf t es ++ deedsOf t es' :=
  List.filterMap_append

theorem deedsOf_eq_append_cons {L L' : List (Deed σ)} (hdeeds : deedsOf t es = L ++ e :: L') :
    ∃ es₁ es₂, es = es₁ ++ (t, e) :: es₂ ∧ deedsOf t es₁ = L ∧ deedsOf t es₂ = L' := by
  obtain ⟨es₁, rest, rfl, hpre, hrest⟩ := List.filterMap_eq_append_iff.1 hdeeds
  obtain ⟨skipped, ⟨u, e'⟩, es₂, rfl, hskipped, he, hpost⟩ := List.filterMap_eq_cons_iff.1 hrest
  simp only [Option.ite_none_right_eq_some, Option.some.injEq] at he
  obtain ⟨⟨rfl, -⟩, rfl⟩ := he
  refine ⟨es₁ ++ skipped, es₂, by simp, ?_, hpost⟩
  have hnone : deedsOf u skipped = [] := List.filterMap_eq_nil_iff.2 hskipped
  rw [deedsOf_append, hnone, List.append_nil]
  exact hpre

@[simp]
theorem firstWrite_append {i : FutureId} :
    firstWrite i (es ++ es') = (firstWrite i es).or (firstWrite i es') :=
  List.findSome?_append

theorem firstWrite_singleton {i : FutureId} : firstWrite i [(t, e)] = e.write? i := by
  cases hw : e.write? i <;> simp [firstWrite, hw]

theorem firstWrite_eq {i : FutureId} : firstWrite i es = (offers i es).head?.map Prod.fst := by
  induction es with
  | nil => rfl
  | cons e es ih =>
    cases he : e.2.offer? i with
    | none =>
      simp only [firstWrite, offers, offersIn] at ih
      simp [firstWrite, offers, offersIn, Deed.write?, he] at ih ⊢
      exact ih
    | some offer => simp [firstWrite, offers, offersIn, Deed.write?, he]

theorem Runs.append (h : P.Runs es Q) (h' : Q.Runs es' R) : P.Runs (es ++ es') R := by
  induction h' with
  | refl => rwa [List.append_nil]
  | step _ hstep ih =>
    rw [← List.append_assoc]
    exact .step ih hstep
  | wait n _ ih => exact .wait n ih

theorem Runs.split {es₁ es₂ : List (Nat × Deed σ)} (h : P.Runs (es₁ ++ es₂) R) :
    ∃ Q, P.Runs es₁ Q ∧ Q.Runs es₂ R := by
  generalize hes : es₁ ++ es₂ = es at h
  induction h generalizing es₂ with
  | refl =>
    obtain ⟨rfl, rfl⟩ := List.append_eq_nil_iff.1 hes
    exact ⟨_, .refl, .refl⟩
  | @step es Q R t e hruns hstep ih =>
    rcases List.eq_nil_or_concat es₂ with rfl | ⟨init, last, rfl⟩
    · rw [List.append_nil] at hes
      exact ⟨R, hes ▸ .step hruns hstep, .refl⟩
    · rw [List.concat_eq_append, ← List.append_assoc] at hes
      obtain ⟨rfl, hlast⟩ := List.append_inj' hes rfl
      cases hlast
      obtain ⟨Q', hfirst, hrest⟩ := ih rfl
      exact ⟨Q', hfirst, by simpa using .step hrest hstep⟩
  | wait n hruns ih =>
    obtain ⟨Q', hfirst, hrest⟩ := ih hes
    exact ⟨Q', hfirst, .wait n hrest⟩

theorem Runs.step_of_mem {es₁ es₂ : List (Nat × Deed σ)} (h : P.Runs (es₁ ++ (t, e) :: es₂) R) :
    ∃ Q Q', P.Runs es₁ Q ∧ Q.Step t e Q' ∧ Q'.Runs es₂ R := by
  rw [List.append_cons] at h
  obtain ⟨Q', hfirst, hrest⟩ := h.split
  generalize hes : es₁ ++ [(t, e)] = es at hfirst
  induction hfirst with
  | refl => simp at hes
  | @step es Q R' t' e' hruns hstep _ =>
    obtain ⟨rfl, hlast⟩ := List.append_inj' hes rfl
    cases hlast
    exact ⟨Q, R', hruns, hstep, hrest⟩
  | @wait es Q n hruns ih => exact ih ((Runs.refl.wait n).append hrest) hes

theorem Runs.sound (h : P.Runs es Q) (hP : P.Sound) : Q.Sound := by
  induction h with
  | refl => exact hP
  | step _ hstep ih => exact hstep.sound ih
  | wait n _ ih => exact ih

theorem Runs.nextId_le (h : P.Runs es Q) : P.world.nextId ≤ Q.world.nextId := by
  induction h with
  | refl => exact Nat.le_refl _
  | step _ hstep ih => exact Nat.le_trans ih hstep.nextId_le
  | wait n _ ih => exact ih

theorem Runs.path (h : P.Runs es Q) {x : Thread σ α} (hx : P.Has t x) :
    ∃ y, x.Path (deedsOf t es) y ∧ Q.Has t y := by
  induction h with
  | refl => exact ⟨x, .rest x, hx⟩
  | @step es Q R u e _ hstep ih =>
    obtain ⟨y, hpath, hy⟩ := ih
    by_cases hu : t = u
    · subst hu
      rcases hstep.has_self hy with ⟨hown, z, hdoes, hz⟩ | ⟨hown, hz⟩
      · refine ⟨z, ?_, hz⟩
        have hpath := hpath.snoc hdoes
        simpa [deedsOf, hown] using hpath
      · exact ⟨y, by simpa [deedsOf, hown] using hpath, hz⟩
    · have hu' : ¬ u = t := fun h => hu h.symm
      exact ⟨y, by simpa [deedsOf, hu'] using hpath, hstep.has_of_ne hu hy⟩
  | wait n _ ih => exact ih

/-- **Futures in a run.** A future keeps its outcome; without one it has the first that is offered. -/
theorem Runs.future (h : P.Runs es Q) {i : FutureId} (hi : i < P.world.nextId) :
    Q.future i = (P.future i).or (firstWrite i es) := by
  induction h with
  | refl => exact (Option.or_none).symm
  | step hruns hstep ih =>
    rw [hstep.future (Nat.lt_of_lt_of_le hi hruns.nextId_le), ih, firstWrite_append, firstWrite_singleton,
      Option.or_assoc]
  | wait n _ ih => exact ih

theorem Runs.future_of_only_offer (h : P.Runs es Q) {i : FutureId} (hi : i < P.world.nextId)
    (hpending : P.future i = none) {outcome : Reply} {won : Bool} (honly : offers i es = [(outcome, won)]) :
    Q.future i = some outcome := by
  rw [h.future hi, hpending, Option.none_or, firstWrite_eq, honly]
  rfl

theorem mem_offers {i : FutureId} {offer : Reply × Bool} (hmem : offer ∈ offersIn i (deedsOf t es)) :
    offer ∈ offers i es := by
  obtain ⟨d, hd, hoffer⟩ := List.mem_filterMap.1 hmem
  obtain ⟨⟨u, e'⟩, he, hsome⟩ := List.mem_filterMap.1 hd
  simp only [Option.ite_none_right_eq_some, Option.some.injEq] at hsome
  obtain ⟨-, rfl⟩ := hsome
  exact List.mem_filterMap.2 ⟨_, List.mem_map.2 ⟨_, he, rfl⟩, hoffer⟩

theorem Runs.complete_of_offer (h : P.Runs es Q) {i : FutureId} (hi : i < P.world.nextId)
    {offer : Reply × Bool} (hmem : offer ∈ offersIn i (deedsOf t es)) : Q.future i ≠ none := by
  rw [h.future hi, firstWrite_eq]
  cases hoffers : offers i es with
  | nil =>
    have hnil := mem_offers hmem
    rw [hoffers] at hnil
    cases hnil
  | cons first rest => cases P.future i <;> nofun

end Pool

end ResilientCalls
