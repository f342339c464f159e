import ResilientCalls.Proofs.Attempts

/-!
# Handlers in order

A chain puts its handlers in order of priority, and passes a reply from one to the next. It comes to what one gets by
running the handlers one after the other (`Final.through`) up to the first that succeeds, and it runs no other
(`FailoverChain.runs_until_success`). The order is that of a stable sort, so it does not depend on how often the
handlers are put in order.
-/

namespace ResilientCalls

open Program

variable {σ : Type} {others : Others σ} {inv : Invocation σ}

/-! ## Sorting by a key -/

section ByKey

universe u

variable {α : Type u} (key : α → Int) (l : List α)

/-- In order of a key; elements of one key keep their order. -/
abbrev sortedBy : List α := l.mergeSort fun a b => key a ≤ key b

theorem perm_sortedBy : (sortedBy key l).Perm l := List.mergeSort_perm _ _

theorem pairwise_sortedBy : (sortedBy key l).Pairwise fun a b => key a ≤ key b := by
  have hsorted : (sortedBy key l).Pairwise fun a b => decide (key a ≤ key b) = true :=
    List.pairwise_mergeSort (fun a b c => by simp; omega) (fun a b => by simp; omega) l
  simpa using hsorted

theorem filter_sortedBy (k : Int) : ((sortedBy key l).filter fun a => key a = k) = l.filter fun a => key a = k := by
  have hsublist : (l.filter fun a => key a = k).Sublist (sortedBy key l) := by
    refine List.sublist_mergeSort (fun a b c => by simp; omega) (fun a b => by simp; omega) ?_ List.filter_sublist
    refine List.pairwise_of_forall_mem_list fun a ha b hb => ?_
    simp only [List.mem_filter, decide_eq_true_eq] at ha hb
    simp [ha.2, hb.2]
  have hfilter := hsublist.filter fun a => key a = k
  rw [List.filter_filter] at hfilter
  simp only [Bool.and_self] at hfilter
  exact (hfilter.eq_of_length ((perm_sortedBy key l).symm.filter _).length_eq).symm

theorem sortedBy_sortedBy : sortedBy key (sortedBy key l) = sortedBy key l :=
  List.mergeSort_of_pairwise ((pairwise_sortedBy key l).imp fun h => decide_eq_true h)

end ByKey

/-- These are the handlers in ascending order of priority, those of one priority as they are supplied. -/
structure FailoverChain.InOrder (hs xs : List (FailoverHandler σ)) : Prop where
  perm : xs.Perm hs
  ascending : xs.Pairwise fun x y => x.priority ≤ y.priority
  stable : ∀ k, (xs.filter fun x => x.priority = k) = hs.filter fun x => x.priority = k

theorem inOrder_ofList (hs : List (FailoverHandler σ)) :
    FailoverChain.InOrder hs (FailoverChain.ofList hs).handlers where
  perm := FailoverChain.perm_ofList hs
  ascending := pairwise_sortedBy FailoverHandler.priority hs
  stable := filter_sortedBy FailoverHandler.priority hs

theorem ofList_handlers (hs : List (FailoverHandler σ)) :
    FailoverChain.ofList (FailoverChain.ofList hs).handlers = FailoverChain.ofList hs :=
  congrArg FailoverChain.mk (sortedBy_sortedBy FailoverHandler.priority hs)

/-! ## One handler after the other -/

/-- The run goes on with a handler, which is handed the reply that the run came to. -/
def Final.handedTo (others : Others σ) (inv : Invocation σ) (f : Final σ Reply) (x : FailoverHandler σ) :
    Final σ Reply :=
  f.andThen others none fun reply => (log (.handlerInvoked inv.name x.priority)).bind fun _ => x.handle inv reply

/-- The run goes on with these handlers, each of which is handed the reply of the one before. -/
def Final.through (others : Others σ) (inv : Invocation σ) (f : Final σ Reply) (xs : List (FailoverHandler σ)) :
    Final σ Reply :=
  xs.foldl (Final.handedTo others inv) f

/-- Whether a run came to a success. -/
def Final.Succeeds (f : Final σ Reply) : Prop := ∃ v, f.exit = .value (.ok v)

/-- The handler answers every failure: it comes to an end and does not panic. -/
def FailoverHandler.Answers (others : Others σ) (inv : Invocation σ) (x : FailoverHandler σ) : Prop :=
  ∀ e h w, ∃ reply, ((x.handle inv (.error e)).run others none h w).exit = .value reply

theorem FailoverHandler.Answers.handedTo {x : FailoverHandler σ} (hx : x.Answers others inv) {f : Final σ Reply}
    (hf : f.Fails) : (f.handedTo others inv x).Succeeds ∨ (f.handedTo others inv x).Fails := by
  obtain ⟨e, he⟩ := hf
  have hrun : f.handedTo others inv x = (x.handle inv (.error e)).run others none f.holder
      (f.world.observe others (.traced (.handlerInvoked inv.name x.priority))) := by
    rw [Final.handedTo, Final.andThen_of_value he]
    rfl
  obtain ⟨reply, hreply⟩ := hx e f.holder (f.world.observe others (.traced (.handlerInvoked inv.name x.priority)))
  rw [← hrun] at hreply
  cases reply with
  | ok v => exact .inl ⟨v, hreply⟩
  | error e' => exact .inr ⟨e', hreply⟩

/-- What follows a run of handlers up to the first success, of which there are `k`. -/
structure UpToSuccess (others : Others σ) (inv : Invocation σ) (f : Final σ Reply) (xs : List (FailoverHandler σ))
    (k : Nat) : Prop where
  le : k ≤ xs.length
  /-- No handler before the last one succeeds. -/
  before : ∀ j < k, (f.through others inv (xs.take j)).Fails
  /-- The last one succeeds, or there is no other. -/
  last : (f.through others inv (xs.take k)).Succeeds ∨
    k = xs.length ∧ (f.through others inv (xs.take k)).Fails

theorem UpToSuccess.cons {f : Final σ Reply} {x : FailoverHandler σ} {xs : List (FailoverHandler σ)} {k : Nat}
    (hf : f.Fails) (hk : UpToSuccess others inv (f.handedTo others inv x) xs k) :
    UpToSuccess others inv f (x :: xs) (k + 1) where
  le := Nat.succ_le_succ hk.le
  before j hj := by
    cases j with
    | zero => exact hf
    | succ j => exact hk.before j (Nat.lt_of_succ_lt_succ hj)
  last := hk.last.imp_right fun ⟨hlength, hfails⟩ => ⟨congrArg (· + 1) hlength, hfails⟩

theorem UpToSuccess.unique {f : Final σ Reply} {xs : List (FailoverHandler σ)} {k k' : Nat}
    (hk : UpToSuccess others inv f xs k) (hk' : UpToSuccess others inv f xs k') : k = k' := by
  have hle : ∀ {m n : Nat}, UpToSuccess others inv f xs m → UpToSuccess others inv f xs n → m ≤ n := by
    intro m n hm hn
    refine Nat.le_of_not_lt fun hlt => ?_
    rcases hn.last with ⟨v, hv⟩ | ⟨rfl, -⟩
    · exact Final.not_fails hv (hm.before n hlt)
    · exact absurd hm.le (Nat.not_le_of_lt hlt)
  exact Nat.le_antisymm (hle hk hk') (hle hk' hk)

theorem handleAll_ok (xs : List (FailoverHandler σ)) (v : String) :
    FailoverChain.handleAll inv xs (.ok v) = done (.ok v) := by
  cases xs <;> rfl

theorem exists_upToSuccess {xs : List (FailoverHandler σ)} (hxs : ∀ x ∈ xs, x.Answers others inv) {f : Final σ Reply}
    {e : Failure} (hf : f.exit = .value (.error e)) :
    ∃ k, UpToSuccess others inv f xs k ∧
      (FailoverChain.handleAll inv xs (.error e)).run others none f.holder f.world =
        f.through others inv (xs.take k) := by
  induction xs generalizing f e with
  | nil =>
    obtain ⟨exit, h, w⟩ := f
    obtain rfl : exit = .value (.error e) := hf
    exact ⟨0, ⟨Nat.le_refl 0, fun j hj => absurd hj (Nat.not_lt_zero j), .inr ⟨rfl, e, rfl⟩⟩, rfl⟩
  | cons x xs ih =>
    have hrun : (FailoverChain.handleAll inv (x :: xs) (.error e)).run others none f.holder f.world =
        (f.handedTo others inv x).andThen others none (FailoverChain.handleAll inv xs) := by
      rw [Final.handedTo, Final.andThen_of_value hf, ← run_bind, Program.bind_assoc]
      rfl
    -- A value passes through all handlers that are left, so the next success is the last call.
    rcases (hxs x List.mem_cons_self).handedTo ⟨e, hf⟩ with ⟨v, hv⟩ | ⟨e', he'⟩
    · have hstop : (f.handedTo others inv x).andThen others none (FailoverChain.handleAll inv xs) =
          f.handedTo others inv x := by
        rw [Final.andThen_of_value hv, handleAll_ok, run_done, ← hv]
      refine ⟨1, .cons ⟨e, hf⟩ ⟨Nat.zero_le _, fun j hj => absurd hj (Nat.not_lt_zero j), .inl ⟨v, hv⟩⟩, ?_⟩
      rw [hrun, hstop]
      rfl
    · obtain ⟨k, hk, hsame⟩ := ih (fun y hy => hxs y (List.mem_cons_of_mem x hy)) he'
      refine ⟨k + 1, hk.cons ⟨e, hf⟩, ?_⟩
      rw [hrun, Final.andThen_of_value he', hsame]
      rfl

namespace FailoverChain

/-- **Handlers in order.** A chain puts its handlers in ascending order of priority, those of one priority as they are
supplied, and is the same chain when it is built anew of the handlers in order. A success passes through it untouched.
A failure goes to the handlers up to the first one that succeeds, to all of them if none does; each runs once, is
handed the reply of the one before, and the last reply is what the chain returns. -/
theorem runs_until_success (hs : List (FailoverHandler σ)) (inv : Invocation σ)
    (hanswers : ∀ x ∈ hs, x.Answers others inv) :
    InOrder hs (ofList hs).handlers ∧ (ofList (ofList hs).handlers) = ofList hs ∧
      (∀ v, (ofList hs).handle inv (.ok v) = done (.ok v)) ∧
      ∀ f : Final σ Reply, ∀ e, f.exit = .value (.error e) →
        ∃ k, UpToSuccess others inv f (ofList hs).handlers k ∧
          ((ofList hs).handle inv (.error e)).run others none f.holder f.world =
            f.through others inv ((ofList hs).handlers.take k) := by
  refine ⟨inOrder_ofList hs, ofList_handlers hs, fun v => handleAll_ok _ v, fun f e he => ?_⟩
  have hordered : ∀ x ∈ (ofList hs).handlers, x.Answers others inv :=
    fun x hx => hanswers x ((inOrder_ofList hs).perm.mem_iff.1 hx)
  exact exists_upToSuccess hordered he

/-- A handler that takes a note of what it is handed and answers as it is told. -/
def noting (name : String) (priority : Int) (answer : Reply) : FailoverHandler (List (String × Reply)) :=
  ⟨priority, fun _ reply => (changeUser (· ++ [(name, reply)])).bind fun _ => done answer, .word name⟩

/-- Of two handlers with one priority the first replaces the failure and the second recovers from it, after a handler
that comes earlier and before one that is not called. -/
theorem runs_until_success_tied :
    let hs := [noting "late" 5 (.ok "late"), noting "left" 2 (.error (.text "still down")),
      noting "right" 2 (.ok "recovered"), noting "early" (-1) (.error (.text "reset"))]
    let inv : Invocation (List (String × Reply)) := ⟨"getBlock", [], done (.error (.text "down"))⟩
    let f := ((ofList hs).handle inv (.error (.text "down"))).run nobody none none (World.start [])
    (∀ x ∈ hs, x.Answers nobody inv) ∧ (ofList hs).priorities = [-1, 2, 2, 5] ∧
      UpToSuccess nobody inv ⟨.value (.error (.text "down")), none, World.start []⟩ (ofList hs).handlers 3 ∧
      f.exit = .value (.ok "recovered") ∧
      f.world.user = [("early", .error (.text "down")), ("left", .error (.text "reset")),
        ("right", .error (.text "still down"))] := by
  intro hs inv f
  have hanswers : ∀ x ∈ hs, x.Answers nobody inv := by
    simp only [hs, List.forall_mem_cons, List.not_mem_nil, false_implies, implies_true, and_true]
    exact ⟨fun _ _ _ => ⟨_, rfl⟩, fun _ _ _ => ⟨_, rfl⟩, fun _ _ _ => ⟨_, rfl⟩, fun _ _ _ => ⟨_, rfl⟩⟩
  have hsorted : (ofList hs).handlers = [noting "early" (-1) (.error (.text "reset")),
      noting "left" 2 (.error (.text "still down")), noting "right" 2 (.ok "recovered"),
      noting "late" 5 (.ok "late")] := by
    simp [hs, ofList, noting, List.mergeSort, List.MergeSort.Internal.splitInTwo]
  have hthree :
      UpToSuccess nobody inv ⟨.value (.error (.text "down")), none, World.start []⟩ (ofList hs).handlers 3 := by
    rw [hsorted]
    refine ⟨by decide, fun j hj => ?_, .inl ⟨_, rfl⟩⟩
    match j, hj with
    | 0, _ | 1, _ | 2, _ => exact ⟨_, rfl⟩
  obtain ⟨-, -, -, hruns⟩ := runs_until_success hs inv hanswers
  obtain ⟨k, hk, hsame⟩ := hruns ⟨.value (.error (.text "down")), none, World.start []⟩ _ rfl
  obtain rfl := hk.unique hthree
  rw [hsorted] at hsame
  have hf : f = _ := hsame
  exact ⟨hanswers, by rw [priorities, hsorted]; rfl, hthree, by rw [hf]; rfl, by rw [hf]; rfl⟩

end FailoverChain

end ResilientCalls
