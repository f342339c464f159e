import ResilientCalls.Proofs.EndingRequest
import ResilientCalls.Proofs.HandlerOrder
import ResilientCalls.Proofs.RequestCourse
import ResilientCalls.Proofs.WorkersApart

/-!
# The pauses of a request

A thread in a request makes attempts and pauses by turns (`Paced`): an attempt first, and then before each retry the
pause that its handler has for it. This holds at every moment, also while an attempt is under way or never ends. The
loop of a handler and the row of handlers are followed on the thread with whatever comes after them
(`failing_retryLoop`, `failing_handleAll`). The handlers are sorted by priority and keep the order in which they were
supplied otherwise (`filter_ordered`), so the pauses are known in advance (`Pool.pauses_follow_handlers`).
-/

namespace ResilientCalls

open Program

variable {σ α β : Type} {h h' h₁ : Option Context} {L L' : List (Deed σ)}

/-! ## Code without a choice, on the way -/

/-- The code makes these deeds one after the other, and comes to `a`. -/
structure Program.Straight (p : Program σ α) (h : Option Context) (L : List (Deed σ)) (a : α)
    (h' : Option Context) : Prop where
  makes : p.Makes h L a h'
  /-- On the way a thread has made the first of them. -/
  onTheWay : ∀ ⦃L' : List (Deed σ)⦄ ⦃x : Thread σ α⦄, (Thread.fresh p h).Path L' x → L' <+: L

theorem straight_done (a : α) : (done a : Program σ α).Straight h [] a h where
  makes := makes_done a
  onTheWay L' x hpath := by
    obtain ⟨rfl, -⟩ := Thread.path_of_over rfl hpath
    exact List.prefix_rfl

theorem Program.Straight.trans {p : Program σ α} {g : α → Program σ β} {a : α} {b : β} (hp : p.Straight h L a h₁)
    (hg : (g a).Straight h₁ L' b h') : (p.bind g).Straight h (L ++ L') b h' where
  makes := hp.makes.trans hg.makes
  onTheWay L'' x hpath := by
    rcases Thread.path_bind hpath with ⟨y, hy⟩ | ⟨a', h₂, L₁, L₂, rfl, hfirst, hrest⟩
    · exact (hp.onTheWay hy).trans (List.prefix_append L L')
    · obtain ⟨rfl, ha, rfl⟩ := (hp.makes _ _ _).1 hfirst
      cases ha
      exact (List.prefix_append_right_inj _).2 (hg.onTheWay hrest)

theorem straight_perform [Inhabited σ] {a : Action σ β} {b : β} (hstage : ∀ b, a.stageAfter b = .ready)
    (ha : ∀ w, ∃ w', a.step h w = (b, h', w')) : (perform a).Straight h [.did a b] b h' where
  makes := makes_perform hstage ha
  onTheWay L' x hpath := by
    rcases Thread.path_act hpath with ⟨rfl, -⟩ | ⟨b', h₁, w, w', L₁, hstep, rfl, hrest⟩
    · exact List.nil_prefix
    · obtain ⟨w₁, hw₁⟩ := ha w
      cases hstep.symm.trans hw₁
      rw [hstage] at hrest
      obtain ⟨rfl, -⟩ := Thread.path_of_over rfl hrest
      exact List.prefix_rfl

theorem straight_sleep (d : Duration) : (sleep d (done ()) : Program σ Unit).Straight h [.lay, .rose] () h where
  makes := makes_sleep d
  onTheWay L' x hpath := by
    rcases Thread.path_sleep hpath with ⟨rfl, -⟩ | ⟨wake, rfl, -⟩ | ⟨L₁, rfl, hrest⟩
    · exact List.nil_prefix
    · exact ⟨[.rose], rfl⟩
    · obtain ⟨rfl, -⟩ := Thread.path_of_over rfl hrest
      exact List.prefix_rfl

section Straight

variable [Inhabited σ]

theorem straight_record (e : Entry) : (record e : Program σ Unit).Straight h [.did (.record e) ()] () h :=
  straight_perform (fun _ => rfl) fun _ => ⟨_, rfl⟩

theorem straight_currentScope (otherwise : String) :
    (currentScope otherwise : Program σ String).Straight h [.did (.holder id) h]
      ((h.map Context.scope).getD otherwise) h :=
  Program.Straight.trans (straight_perform (fun _ => rfl) fun _ => ⟨_, rfl⟩) (straight_done _)

theorem straight_pause (d : Duration) : (pause d : Program σ Unit).Straight h d.pausing () h := by
  unfold pause Duration.pausing
  split
  · exact straight_done ()
  · exact (straight_record _).trans (straight_sleep d)

theorem straight_conclude {p : RetryPolicy} {scope : String} {reply : Reply} {attempts : Nat} :
    ((RetryHandler.ofPolicy p).conclude scope reply attempts : Program σ Unit).Straight h
      (RetryPolicy.concluding scope reply attempts) () h := by
  cases reply with
  | ok v => exact (straight_record _).trans (straight_done ())
  | error e => exact (straight_record _).trans ((straight_record _).trans (straight_done ()))

theorem straight_attach (c : Context) : (attach c : Program σ Guard).Straight h (attaching c h) ⟨h⟩ (some c) where
  makes := makes_attach c
  onTheWay _ _ hpath := Thread.path_attach hpath

end Straight

/-! ## Attempts and pauses by turns -/

/-- The retries that a context asks for, in order: each with the policy of its handler and its number there. -/
def Context.schedule (c : Context) : List (RetryPolicy × Nat) :=
  (FailoverChain.ordered c).flatMap fun p => (List.range p.count).map fun n => (p, n)

/-- The pauses before these retries: those of each handler from the first one on, one handler after the other. -/
def Context.pauses (c : Context) : List Duration :=
  (FailoverChain.ordered c).flatMap fun p => (List.range p.count).map p.pacing.pause

theorem map_schedule (c : Context) : (c.schedule.map fun x => x.1.pacing.pause x.2) = c.pauses := by
  simp only [Context.schedule, Context.pauses, List.map_flatMap, List.map_map]
  rfl

/-- The deed belongs to a pause. -/
def Deed.isPause : Deed σ → Bool
  | .did (.record (.paused _)) _ | .lay | .rose => true
  | _ => false

/-- Nothing of a pause is in these deeds. -/
def Still (L : List (Deed σ)) : Prop := ∀ e ∈ L, e.isPause = false

theorem Still.append (hL : Still L) (hL' : Still L') : Still (L ++ L') := by
  intro e he
  rcases List.mem_append.1 he with he | he
  · exact hL e he
  · exact hL' e he

theorem still_nil : Still ([] : List (Deed σ)) := List.forall_mem_nil _

theorem Still.of_prefix (hL' : Still L') (hbegins : L <+: L') : Still L :=
  fun e he => hL' e (hbegins.subset he)

theorem still_concluding {scope : String} {reply : Reply} {attempts : Nat} :
    Still (RetryPolicy.concluding scope reply attempts : List (Deed σ)) := by
  cases reply <;> simp [Still, Deed.isPause, RetryPolicy.concluding]

section Turns

variable (net : Network σ) (r : Requester σ) (inv : Invocation σ) (c : Context) (previous : Option Context)

/-- What a request does with its outcome, before it puts back what was attached. -/
def Requester.ending (outcome : Requester.Outcome) : Program σ (Except RpcError String) :=
  ((record (.sampled inv.name)).bind fun _ => r.conclude inv.name outcome).caught.bind fun q =>
    (Guard.release ⟨previous⟩).bind fun _ => rethrow q

/-- What follows the last attempt. -/
def Concluding (L : List (Deed σ)) : Prop :=
  ∃ lead L', L = lead ++ L' ∧ Still lead ∧
    (L' = [] ∨ ∃ outcome h x, (Thread.fresh (r.ending inv previous outcome) h).Path L' x)

/-- From the start of an attempt on, with these retries ahead and these pauses made for them: attempts, and before
each retry its own pause. If `pending`, the thread may stand in the middle of an attempt or on the way to the next. -/
inductive Paced (pending : Prop) : List (RetryPolicy × Nat) → List Duration → List (Deed σ) → Prop
  /-- An attempt is under way. -/
  | attempting {todo : List (RetryPolicy × Nat)} {h : Option Context} {L : List (Deed σ)} {x : Thread σ Reply} :
      pending → (Thread.fresh (c.decorate net inv).attempt h).Path L x → Paced pending todo [] L
  /-- It succeeds, and there is no retry and no pause any more. -/
  | success {todo : List (RetryPolicy × Nat)} {v : String} {h h' : Option Context} {L L' : List (Deed σ)} :
      (c.decorate net inv).attempt.Goes h L (.ok (.ok v)) h' → Concluding r inv previous L' →
        Paced pending todo [] (L ++ L')
  /-- It fails when no retry is ahead. -/
  | exhausted {e : Failure} {h h' : Option Context} {L L' : List (Deed σ)} :
      (c.decorate net inv).attempt.Goes h L (.ok (.error e)) h' → Concluding r inv previous L' →
        Paced pending [] [] (L ++ L')
  /-- It fails, and the thread is on its way through the pause before the next retry. -/
  | pausing {p : RetryPolicy} {n : Nat} {todo : List (RetryPolicy × Nat)} {e : Failure} {h h' : Option Context}
      {scope : String} {L lead L' : List (Deed σ)} : pending →
      (c.decorate net inv).attempt.Goes h L (.ok (.error e)) h' → Still lead → L' <+: lead ++ p.retrying scope n →
        Paced pending ((p, n) :: todo) [] (L ++ L')
  /-- It fails, and after its pause the next retry is made. -/
  | retry {p : RetryPolicy} {n : Nat} {todo : List (RetryPolicy × Nat)} {e : Failure} {h h' : Option Context}
      {scope : String} {ds : List Duration} {L lead L' : List (Deed σ)} :
      (c.decorate net inv).attempt.Goes h L (.ok (.error e)) h' → Still lead → Paced pending todo ds L' →
        Paced pending ((p, n) :: todo) (p.pacing.pause n :: ds) (L ++ (lead ++ (p.retrying scope n ++ L')))

end Turns

section Turns

variable {net : Network σ} {r : Requester σ} {inv : Invocation σ} {c : Context} {previous : Option Context}
  {pending : Prop} {todo : List (RetryPolicy × Nat)} {ds : List Duration}

theorem Paced.prefix_delays (hL : Paced net r inv c previous pending todo ds L) :
    ds <+: todo.map fun x => x.1.pacing.pause x.2 := by
  induction hL with
  | attempting | success | exhausted | pausing => exact List.nil_prefix
  | retry _ _ _ ih => exact List.cons_prefix_cons.2 ⟨rfl, ih⟩

theorem Paced.mono {pending' : Prop} (hpending : pending → pending')
    (hL : Paced net r inv c previous pending todo ds L) : Paced net r inv c previous pending' todo ds L := by
  induction hL with
  | attempting hp hpath => exact .attempting (hpending hp) hpath
  | success hgoes hend => exact .success hgoes hend
  | exhausted hgoes hend => exact .exhausted hgoes hend
  | pausing hp hgoes hlead hbegins => exact .pausing (hpending hp) hgoes hlead hbegins
  | retry hgoes hlead _ ih => exact .retry hgoes hlead ih

theorem Paced.complete (hpending : ¬ pending) (hL : Paced net r inv c previous pending todo ds L) :
    ds = (todo.map fun x => x.1.pacing.pause x.2) ∨
      ∃ L₁ L₂ L₃ v h h', L = L₁ ++ (L₂ ++ L₃) ∧ (c.decorate net inv).attempt.Goes h L₂ (.ok (.ok v)) h' ∧
        Concluding r inv previous L₃ := by
  induction hL with
  | attempting hp | pausing hp => exact absurd hp hpending
  | success hgoes hend => exact .inr ⟨[], _, _, _, _, _, rfl, hgoes, hend⟩
  | exhausted => exact .inl rfl
  | @retry p n todo e h h' scope ds L lead L' hgoes hlead hmore ih =>
    rcases ih with rfl | ⟨L₁, L₂, L₃, v, h₂, h₂', rfl, hlast⟩
    · exact .inl rfl
    · exact .inr ⟨L ++ (lead ++ (p.retrying scope n ++ L₁)), L₂, L₃, v, h₂, h₂', by simp, hlast⟩

/-- What follows a failed attempt, with these retries ahead. -/
def Failing (net : Network σ) (r : Requester σ) (inv : Invocation σ) (c : Context) (previous : Option Context)
    (pending : Prop) : List (RetryPolicy × Nat) → List (Deed σ) → Prop
  | [], L => Concluding r inv previous L
  | (p, n) :: todo, L => ∃ scope lead, Still lead ∧
      (pending ∧ L <+: lead ++ p.retrying scope n ∨
        ∃ ds L', L = lead ++ (p.retrying scope n ++ L') ∧ Paced net r inv c previous pending todo ds L')

theorem Failing.paced {e : Failure} {A : List (Deed σ)} (hA : (c.decorate net inv).attempt.Goes h A (.ok (.error e)) h')
    (hL : Failing net r inv c previous pending todo L) : ∃ ds, Paced net r inv c previous pending todo ds (A ++ L) := by
  match todo with
  | [] => exact ⟨_, .exhausted hA hL⟩
  | (p, n) :: todo =>
    obtain ⟨scope, lead, hlead, ⟨hpending, hbegins⟩ | ⟨ds, L', rfl, hpaced⟩⟩ := hL
    · exact ⟨_, .pausing hpending hA hlead hbegins⟩
    · exact ⟨_, .retry hA hlead hpaced⟩

theorem Concluding.after {lead : List (Deed σ)} (hlead : Still lead) (hL : Concluding r inv previous L) :
    Concluding r inv previous (lead ++ L) := by
  obtain ⟨lead', L', rfl, hlead', hrest⟩ := hL
  exact ⟨lead ++ lead', L', (List.append_assoc ..).symm, hlead.append hlead', hrest⟩

theorem Failing.after {lead : List (Deed σ)} (hlead : Still lead)
    (hL : Failing net r inv c previous pending todo L) : Failing net r inv c previous pending todo (lead ++ L) := by
  match todo with
  | [] => exact Concluding.after hlead hL
  | (p, n) :: todo =>
    obtain ⟨scope, lead', hlead', hrest⟩ := hL
    refine ⟨scope, lead ++ lead', hlead.append hlead', ?_⟩
    rcases hrest with ⟨hpending, hbegins⟩ | ⟨ds, L', rfl, hpaced⟩
    · exact .inl ⟨hpending, by rw [List.append_assoc]; exact (List.prefix_append_right_inj lead).2 hbegins⟩
    · exact .inr ⟨ds, L', (List.append_assoc ..).symm, hpaced⟩

theorem Failing.of_still (hpending : pending) (hL : Still L) : Failing net r inv c previous pending todo L := by
  match todo with
  | [] => exact ⟨L, [], (List.append_nil L).symm, hL, .inl rfl⟩
  | (p, n) :: todo => exact ⟨"", L, hL, .inl ⟨hpending, List.prefix_append ..⟩⟩

end Turns

/-! ## The thread of a request -/

theorem bind_caught_bind {γ : Type} (p : Program σ α) (g : α → Program σ β) (K : Except Payload β → Program σ γ) :
    (p.bind g).caught.bind K = p.caught.bind fun
      | .ok a => (g a).caught.bind K
      | .error e => K (.error e) := by
  induction p <;> simp_all [caught, Program.bind]

theorem Program.Straight.path_caught_bind {p : Program σ α} {K : Except Payload α → Program σ β} {a : α}
    {x : Thread σ β} (hp : p.Straight h L a h₁) (hpath : (Thread.fresh (p.caught.bind K) h).Path L' x) :
    x.over? = none ∧ L' <+: L ∨ ∃ L₂, L' = L ++ L₂ ∧ (Thread.fresh (K (.ok a)) h₁).Path L₂ x := by
  rcases Thread.path_before (x := .fresh p h) (Thread.sound_fresh p h) hpath with
    ⟨y, hy, hover, rfl⟩ | ⟨L₁, L₂, h₂, r, rfl, hfirst, hrest⟩
  · exact .inl ⟨Thread.over?_before hover K, hp.onTheWay hy⟩
  · obtain ⟨rfl, rfl, rfl⟩ := (hp.makes _ _ _).1 hfirst
    exact .inr ⟨L₂, rfl, hrest⟩

theorem Program.Straight.path_bind {p : Program σ α} {g : α → Program σ β} {a : α} {x : Thread σ β}
    (hp : p.Straight h L a h₁) (hpath : (Thread.fresh (p.bind g) h).Path L' x) :
    x.over? = none ∧ L' <+: L ∨ ∃ L₂, L' = L ++ L₂ ∧ (Thread.fresh (g a) h₁).Path L₂ x := by
  rw [bind_eq_caught_bind] at hpath
  exact hp.path_caught_bind hpath

section Paths

variable [Inhabited σ] {net : Network σ} {r : Requester σ} {inv : Invocation σ} {c : Context}
  {previous : Option Context} {todo : List (RetryPolicy × Nat)} {x : Thread σ β}

theorem path_attempt {K : Except Payload Reply → Program σ β}
    (hpath : (Thread.fresh ((c.decorate net inv).attempt.caught.bind K) h).Path L x) :
    (x.over? = none ∧ ∃ y, (Thread.fresh (c.decorate net inv).attempt h).Path L y) ∨
      ∃ reply h₁ L₁ L₂, L = L₁ ++ L₂ ∧ (c.decorate net inv).attempt.Goes h L₁ (.ok reply) h₁ ∧
        (Thread.fresh (K (.ok reply)) h₁).Path L₂ x := by
  rcases Thread.path_before (x := .fresh _ h) (Thread.sound_fresh _ h) hpath with
    ⟨y, hy, hover, rfl⟩ | ⟨L₁, L₂, h₁, q, rfl, hfirst, hrest⟩
  · exact .inl ⟨Thread.over?_before hover K, y, hy⟩
  · obtain ⟨a, -, -, -, rfl, -⟩ := goes_attempt hfirst
    exact .inr ⟨a.reply, h₁, L₁, L₂, rfl, hfirst, hrest⟩

theorem paced_attempt {g : Reply → Program σ α} {K : Except Payload α → Program σ β}
    (hok : ∀ {v : String} {h : Option Context} {L : List (Deed σ)},
      (Thread.fresh ((g (.ok v)).caught.bind K) h).Path L x → Concluding r inv previous L)
    (herror : ∀ {e : Failure} {h : Option Context} {L : List (Deed σ)},
      (Thread.fresh ((g (.error e)).caught.bind K) h).Path L x → Failing net r inv c previous (x.over? = none) todo L)
    (hpath : (Thread.fresh (((c.decorate net inv).attempt.bind g).caught.bind K) h).Path L x) :
    ∃ ds, Paced net r inv c previous (x.over? = none) todo ds L := by
  rw [bind_caught_bind] at hpath
  rcases path_attempt hpath with ⟨hpending, y, hy⟩ | ⟨reply, h₁, L₁, L₂, rfl, hgoes, hrest⟩
  · exact ⟨_, .attempting hpending hy⟩
  · cases reply with
    | ok v => exact ⟨_, .success hgoes (hok hrest)⟩
    | error e => exact (herror hrest).paced hgoes

omit [Inhabited σ] in
theorem failing_straight {γ : Type} {p : Program σ α} {g : α → Program σ γ} {K : Except Payload γ → Program σ β} {a : α}
    (hp : p.Straight h L a h₁) (hL : Still L)
    (hK : ∀ {L₂ : List (Deed σ)}, (Thread.fresh ((g a).caught.bind K) h₁).Path L₂ x →
      Failing net r inv c previous (x.over? = none) todo L₂)
    (hpath : (Thread.fresh ((p.bind g).caught.bind K) h).Path L' x) :
    Failing net r inv c previous (x.over? = none) todo L' := by
  rw [bind_caught_bind] at hpath
  rcases hp.path_caught_bind hpath with ⟨hpending, hbegins⟩ | ⟨L₂, rfl, hrest⟩
  · exact .of_still hpending (hL.of_prefix hbegins)
  · exact (hK hrest).after hL

theorem failing_retryLoop {p : RetryPolicy} {scope : String} {g : Reply × Nat → Program σ α}
    {K : Except Payload α → Program σ β}
    (hok : ∀ {v : String} {n : Nat} {h : Option Context} {L : List (Deed σ)},
      (Thread.fresh ((g (.ok v, n)).caught.bind K) h).Path L x → Concluding r inv previous L)
    (herror : ∀ {e : Failure} {n : Nat} {h : Option Context} {L : List (Deed σ)},
      (Thread.fresh ((g (.error e, n)).caught.bind K) h).Path L x →
        Failing net r inv c previous (x.over? = none) todo L)
    {n attempts : Nat} {e : Failure} (hn : n + attempts = p.count)
    (hpath : (Thread.fresh
      ((((RetryHandler.ofPolicy p).retryLoop scope (c.decorate net inv) n attempts e).bind g).caught.bind K) h).Path
        L x) :
    Failing net r inv c previous (x.over? = none) ((List.range' attempts n).map (fun n => (p, n)) ++ todo) L := by
  induction n generalizing attempts e h L with
  | zero => exact herror hpath
  | succ n ih =>
    obtain rfl : n = p.count - (attempts + 1) := by omega
    rw [List.range'_succ]
    -- One round: the pause before this retry with what is recorded about it, the attempt, and the rounds after it.
    let delay := p.pacing.pause attempts
    let lead : Program σ Unit :=
      (log (.retrying RetryHandler.defaultName scope (attempts + 1) (p.count - (attempts + 1)) delay)).bind fun _ =>
        (count (.retries scope)).bind fun _ => pause delay
    have hlead : lead.Straight h (p.retrying scope attempts) () h :=
      (straight_record _).trans ((straight_record _).trans (straight_pause delay))
    obtain ⟨next, hsuccess, hfailure, hcode⟩ : ∃ next : Reply → Program σ (Reply × Nat),
        (∀ v, next (.ok v) = done (.ok v, attempts + 1)) ∧
        (∀ e, next (.error e) = (RetryHandler.ofPolicy p).retryLoop scope (c.decorate net inv)
          (p.count - (attempts + 1)) (attempts + 1) e) ∧
        (RetryHandler.ofPolicy p).retryLoop scope (c.decorate net inv) (p.count - (attempts + 1) + 1) attempts e =
          lead.bind fun _ => (c.decorate net inv).attempt.bind next :=
      ⟨_, fun _ => rfl, fun _ => rfl, rfl⟩
    rw [hcode, Program.bind_assoc, bind_caught_bind] at hpath
    refine ⟨scope, [], still_nil, ?_⟩
    rcases hlead.path_caught_bind hpath with ⟨hpending, hbegins⟩ | ⟨L₂, rfl, hrest⟩
    · exact .inl ⟨hpending, hbegins⟩
    · dsimp only at hrest
      rw [Program.bind_assoc] at hrest
      have hretried : ∃ ds, Paced net r inv c previous (x.over? = none)
          ((List.range' (attempts + 1) (p.count - (attempts + 1))).map (fun n => (p, n)) ++ todo) ds L₂ := by
        refine paced_attempt (fun {v h L} hlast => ?_) (fun {e h L} hlast => ?_) hrest
        · rw [hsuccess] at hlast
          exact hok hlast
        · rw [hfailure] at hlast
          exact ih (by omega) hlast
      obtain ⟨ds, hds⟩ := hretried
      exact .inr ⟨ds, L₂, rfl, hds⟩

theorem failing_handle {p : RetryPolicy} {e : Failure} {g : Reply → Program σ α} {K : Except Payload α → Program σ β}
    (hok : ∀ {v : String} {h : Option Context} {L : List (Deed σ)},
      (Thread.fresh ((g (.ok v)).caught.bind K) h).Path L x → Concluding r inv previous L)
    (herror : ∀ {e : Failure} {h : Option Context} {L : List (Deed σ)},
      (Thread.fresh ((g (.error e)).caught.bind K) h).Path L x → Failing net r inv c previous (x.over? = none) todo L)
    (hpath : (Thread.fresh ((((RetryHandler.ofPolicy p).handle (c.decorate net inv) (.error e)).bind g).caught.bind K)
      h).Path L x) :
    Failing net r inv c previous (x.over? = none) ((List.range p.count).map (fun n => (p, n)) ++ todo) L := by
  have hcode : ((RetryHandler.ofPolicy p).handle (c.decorate net inv) (.error e)).bind g =
      (currentScope (c.decorate net inv).name).bind fun scope =>
        ((RetryHandler.ofPolicy p).retryLoop scope (c.decorate net inv) p.count 0 e).bind fun last =>
          ((RetryHandler.ofPolicy p).conclude scope last.1 last.2).bind fun _ => g last.1 := by
    simp only [RetryHandler.handle, Program.bind_eq, Program.pure_eq, Program.bind_assoc, Program.done_bind]
    rfl
  rw [hcode] at hpath
  rw [List.range_eq_range']
  refine failing_straight (straight_currentScope _) (by simp [Still, Deed.isPause]) (fun hrest => ?_) hpath
  refine failing_retryLoop (fun {v n h₁ L₁} hlast => ?_) (fun hlast => ?_) (Nat.add_zero _) hrest
  · have hconcluding : Failing net r inv c previous (x.over? = none) [] L₁ :=
      failing_straight straight_conclude still_concluding hok hlast
    exact hconcluding
  · exact failing_straight straight_conclude still_concluding herror hlast

theorem failing_handleAll {ps : List RetryPolicy} {e : Failure} {g : Reply → Program σ α}
    {K : Except Payload α → Program σ β}
    (hg : ∀ {reply : Reply} {h : Option Context} {L : List (Deed σ)},
      (Thread.fresh ((g reply).caught.bind K) h).Path L x → Concluding r inv previous L)
    (hpath : (Thread.fresh (((FailoverChain.handleAll (c.decorate net inv) (ps.map RetryPolicy.handler)
      (.error e)).bind g).caught.bind K) h).Path L x) :
    Failing net r inv c previous (x.over? = none) (ps.flatMap fun p => (List.range p.count).map fun n => (p, n)) L := by
  induction ps generalizing e h L with
  | nil => exact hg hpath
  | cons p ps ih =>
    have hcode : (FailoverChain.handleAll (c.decorate net inv) ((p :: ps).map RetryPolicy.handler) (.error e)).bind g =
        (log (.handlerInvoked (c.decorate net inv).name p.priority)).bind fun _ =>
          ((RetryHandler.ofPolicy p).handle (c.decorate net inv) (.error e)).bind fun reply =>
            (FailoverChain.handleAll (c.decorate net inv) (ps.map RetryPolicy.handler) reply).bind g := by
      rw [List.map_cons, FailoverChain.handleAll]
      simp only [Program.bind_eq, Program.bind_assoc]
      rfl
    rw [hcode] at hpath
    rw [List.flatMap_cons]
    refine failing_straight (straight_record _) (by simp [Still, Deed.isPause]) (fun hrest => ?_) hpath
    refine failing_handle (fun hsuccess => ?_) ih hrest
    cases ps with
    | nil => exact hg hsuccess
    | cons p' ps => exact hg hsuccess

theorem failing_recover {e : Failure} {g : Requester.Outcome → Program σ α} {K : Except Payload α → Program σ β}
    (hg : ∀ {outcome : Requester.Outcome} {h : Option Context} {L : List (Deed σ)},
      (Thread.fresh ((g outcome).caught.bind K) h).Path L x → Concluding r inv previous L)
    (hpath : (Thread.fresh (((r.recover c (c.decorate net inv) e).bind g).caught.bind K) h).Path L x) :
    Failing net r inv c previous (x.over? = none) c.schedule L := by
  obtain ⟨last, hlast, hcode⟩ : ∃ last : Reply → Program σ Requester.Outcome,
      (∀ reply, ∃ outcome, last reply = done outcome) ∧
      r.recover c (c.decorate net inv) e = (FailoverChain.ofContext c).announce.bind fun _ =>
        if (FailoverChain.ofContext c : FailoverChain σ).handlers.isEmpty then done (.failed e)
        else (log (.routed r.name c.scope (FailoverChain.ofContext c : FailoverChain σ).handlers.length e)).bind fun _ =>
          ((FailoverChain.ofContext c).handle (c.decorate net inv) (.error e)).bind last :=
    ⟨_, fun reply => by cases reply <;> exact ⟨_, rfl⟩, rfl⟩
  rw [hcode, Program.bind_assoc] at hpath
  refine failing_straight (straight_record _) (by simp [Still, Deed.isPause]) (fun hrest => ?_) hpath
  have hhandlers := handlers_ofContext (σ := σ) c
  cases hps : FailoverChain.ordered c with
  | nil =>
    rw [hps] at hhandlers
    rw [if_pos (by simp [hhandlers])] at hrest
    rw [Context.schedule, hps]
    exact hg hrest
  | cons p ps =>
    rw [hps] at hhandlers
    rw [if_neg (by simp [hhandlers]), Program.bind_assoc] at hrest
    refine failing_straight (straight_record _) (by simp [Still, Deed.isPause]) (fun hall => ?_) hrest
    rw [FailoverChain.handle, hhandlers, Program.bind_assoc] at hall
    rw [Context.schedule, hps]
    refine failing_handleAll (fun {reply h₁ L₁} hend => ?_) hall
    obtain ⟨outcome, houtcome⟩ := hlast reply
    rw [houtcome] at hend
    exact hg hend

theorem paced_execute {g : Requester.Outcome → Program σ α} {K : Except Payload α → Program σ β}
    (hg : ∀ {outcome : Requester.Outcome} {h : Option Context} {L : List (Deed σ)},
      (Thread.fresh ((g outcome).caught.bind K) h).Path L x → Concluding r inv previous L)
    (hpath : (Thread.fresh (((r.execute net c inv).bind g).caught.bind K) h).Path L x) :
    ∃ ds, Paced net r inv c previous (x.over? = none) c.schedule ds L := by
  obtain ⟨next, hsuccess, hfailure, hcode⟩ : ∃ next : Reply → Program σ Requester.Outcome,
      (∀ v, next (.ok v) = done (.success v)) ∧ (∀ e, next (.error e) = r.recover c (c.decorate net inv) e) ∧
      r.execute net c inv = (c.decorate net inv).attempt.bind next :=
    ⟨_, fun _ => rfl, fun _ => rfl, rfl⟩
  rw [hcode, Program.bind_assoc] at hpath
  refine paced_attempt (fun {v h L} hlast => ?_) (fun {e h L} hlast => ?_) hpath
  · rw [hsuccess] at hlast
    exact hg hlast
  · rw [hfailure] at hlast
    exact failing_recover hg hlast

end Paths

section Requests

variable [Inhabited σ] {net : Network σ} {r : Requester σ} {inv : Invocation σ} {base : Context}

theorem paced_under {x : Thread σ (Except RpcError String)} (hpath : (Thread.fresh (r.under net base inv) h).Path L x) :
    x.over? = none ∧ L <+: attaching (base.withScope inv.name) h ∨
      ∃ L' ds, L = attaching (base.withScope inv.name) h ++ L' ∧
        Paced net r inv (base.withScope inv.name) h (x.over? = none) (base.withScope inv.name).schedule ds L' := by
  have hcode : r.under net base inv = (attach (base.withScope inv.name)).bind fun guard =>
      ((r.execute net (base.withScope inv.name) inv).bind fun outcome =>
        (record (.sampled inv.name)).bind fun _ => r.conclude inv.name outcome).caught.bind fun q =>
          guard.release.bind fun _ => rethrow q := rfl
  rw [hcode] at hpath
  refine (Program.Straight.path_bind (straight_attach _) hpath).imp_right ?_
  rintro ⟨L', rfl, hrest⟩
  obtain ⟨ds, hds⟩ := paced_execute
    (fun {outcome h₂ L₂} hlast => ⟨[], L₂, rfl, still_nil, .inr ⟨outcome, h₂, x, hlast⟩⟩) hrest
  exact ⟨L', ds, rfl, hds⟩

/-- A thread in a request is on the way to the first attempt, and has made no pause; or it makes attempts and pauses
by turns. -/
theorem paced_request {x : Thread σ (Except RpcError String)} (hpath : (Thread.fresh (r.request net inv) h).Path L x) :
    ∃ base, x.over? = none ∧ L <+: r.basing h base ++ attaching (base.withScope inv.name) h ∨
      ∃ L' ds, L = r.basing h base ++ (attaching (base.withScope inv.name) h ++ L') ∧
        (∀ c, h = some c → c = base) ∧
        Paced net r inv (base.withScope inv.name) h (x.over? = none) (base.withScope inv.name).schedule ds L' := by
  obtain ⟨find, hattached, hstored, hcode⟩ : ∃ find : Option Context → Program σ Context,
      (∀ c, find (some c) = done c) ∧ find none = Storage.get r.storage ∧
      r.request net inv = (current : Program σ (Option Context)).bind fun found =>
        (find found).bind fun base => r.under net base inv :=
    ⟨_, fun _ => rfl, rfl, rfl⟩
  have hcurrent : (current : Program σ (Option Context)).Straight h [.did (.holder id) h] h h :=
    straight_perform (fun _ => rfl) fun _ => ⟨_, rfl⟩
  rw [hcode] at hpath
  -- The context is the attached one, or else it is read from the storage by one more effect.
  rcases hcurrent.path_bind hpath with ⟨hpending, hbegins⟩ | ⟨L₂, rfl, hrest⟩
  · exact ⟨.empty, .inl ⟨hpending, hbegins.trans (by cases h <;> simp [Requester.basing])⟩⟩
  · cases h with
    | some c =>
      rw [hattached] at hrest
      refine ⟨c, ?_⟩
      rcases paced_under hrest with ⟨hpending, hbegins⟩ | ⟨L', ds, rfl, hpaced⟩
      · exact .inl ⟨hpending, (List.prefix_append_right_inj _).2 hbegins⟩
      · exact .inr ⟨L', ds, rfl, fun _ hc => (Option.some.inj hc).symm, hpaced⟩
    | none =>
      rw [hstored] at hrest
      rcases Thread.path_act hrest with ⟨rfl, rfl⟩ | ⟨base, h₁, w, w', L₃, hstep, rfl, hunder⟩
      · exact ⟨.empty, .inl ⟨rfl, ⟨_, rfl⟩⟩⟩
      · cases hstep
        refine ⟨w.storages r.storage, ?_⟩
        rcases paced_under hunder with ⟨hpending, hbegins⟩ | ⟨L', ds, rfl, hpaced⟩
        · exact .inl ⟨hpending, (List.prefix_append_right_inj (_ :: [_])).2 hbegins⟩
        · exact .inr ⟨L', ds, rfl, fun _ hnone => (by cases hnone), hpaced⟩

end Requests

/-! ## The handlers of a context -/

/-- The order in which the handlers of a context are called in. -/
structure Context.Handlers (c : Context) (ps : List RetryPolicy) : Prop where
  /-- The lowest priority comes first. -/
  ascending : ps.Pairwise fun p q => p.priority ≤ q.priority
  /-- Handlers of one priority come as they are supplied, that of the retry strategy before all policies. -/
  stable : ∀ k, (ps.filter fun p => p.priority = k) =
    ((c.retry?.map RetryPolicy.ofRetryStrategy).toList ++ (c.failover?.map FailoverStrategy.policies).getD []).filter
      fun p => p.priority = k
  /-- The handler of the retry strategy has the priority 2 and makes one pause before each of its retries. -/
  retry : ∀ {s : RetryStrategy}, c.retry? = some s →
    ∃ p ∈ ps, p.priority = 2 ∧ p.count = s.count ∧ ∀ n, p.pacing.pause n = s.interval
  /-- Policies that are added come after those of the start. -/
  added : ∀ {ps qs : List RetryPolicy}, c.failover? = some (qs.foldl FailoverStrategy.withPolicy ⟨ps⟩) →
    (c.failover?.map FailoverStrategy.policies).getD [] = ps ++ qs

theorem policies_foldl_withPolicy (qs : List RetryPolicy) (s : FailoverStrategy) :
    (qs.foldl FailoverStrategy.withPolicy s).policies = s.policies ++ qs := by
  induction qs generalizing s with
  | nil => exact (List.append_nil _).symm
  | cons q qs ih => simp [ih, FailoverStrategy.withPolicy]

theorem perm_ordered (c : Context) : (FailoverChain.ordered c).Perm (FailoverChain.policies c) :=
  perm_sortedBy RetryPolicy.priority _

theorem pairwise_ordered (c : Context) :
    (FailoverChain.ordered c).Pairwise fun p q => p.priority ≤ q.priority :=
  pairwise_sortedBy RetryPolicy.priority _

theorem filter_ordered (c : Context) (k : Int) :
    ((FailoverChain.ordered c).filter fun p => p.priority = k) =
      (FailoverChain.policies c).filter fun p => p.priority = k :=
  filter_sortedBy RetryPolicy.priority _ k

theorem handlers_ordered (c : Context) : c.Handlers (FailoverChain.ordered c) where
  ascending := pairwise_ordered c
  stable := filter_ordered c
  retry {s} hs := by
    refine ⟨.ofRetryStrategy s, (perm_ordered c).mem_iff.2 ?_, rfl, rfl, fun n => ?_⟩
    · simp [FailoverChain.policies, hs]
    · have hone : ((1.0 : Float) == 1.0) = true := by decide
      simp [RetryPolicy.pacing, RetryPolicy.ofRetryStrategy, hone, Pacing.fixed]
  added {ps qs} hs := by simp [hs, policies_foldl_withPolicy]

/-! ## In a pool -/

namespace Pool

variable {P Q : Pool σ} {t : Nat} {es : List (Nat × Deed σ)} {net : Network σ} {r : Requester σ} {inv : Invocation σ}

/-- In this run the thread comes to the end of the code. -/
def Finishes (P : Pool σ) (t : Nat) (p : Program σ α) (h : Option Context) (es : List (Nat × Deed σ)) (Q : Pool σ) :
    Prop :=
  ∃ r h', P.Through t p h es r h' Q

/-- How far a thread has come in a request that found the context `base`: it has done `L` since that context is
attached under the scope of the request, and has made the pauses `ds`. -/
structure Paces (P : Pool σ) (t : Nat) (net : Network σ) (r : Requester σ) (inv : Invocation σ) (h : Option Context)
    (es : List (Nat × Deed σ)) (Q : Pool σ) (base : Context) (L : List (Deed σ)) (ds : List Duration) : Prop where
  deeds : deedsOf t es = r.basing h base ++ (attaching (base.withScope inv.name) h ++ L)
  captured : r.Captures P t h es base
  /-- It began with an attempt, and before each retry it made the pause of this retry. -/
  turns : Paced net r inv (base.withScope inv.name) h (¬ P.Finishes t (r.request net inv) h es Q)
    (base.withScope inv.name).schedule ds L
  /-- The pauses are the first ones of all handlers together. -/
  inOrder : ds <+: base.pauses
  /-- They are all of them at the end, unless the last attempt is a success. -/
  complete : P.Finishes t (r.request net inv) h es Q → ds = base.pauses ∨
    ∃ L₁ L₂ L₃ v h₁ h₂, L = L₁ ++ (L₂ ++ L₃) ∧
      ((base.withScope inv.name).decorate net inv).attempt.Goes h₁ L₂ (.ok (.ok v)) h₂ ∧ Concluding r inv h L₃

/-- **The pauses of a request.** The handlers of a context are called in by ascending priority, those of one priority
as they are supplied. A thread in a request makes no pause before the first attempt; from then on attempts and pauses
take turns, and the pauses are those of the handlers, one handler after the other, each from its first one on; they
stop at the first success. -/
theorem pauses_follow_handlers (halong : P.Along t (r.request net inv) h es Q) :
    ∃ base, base.Handlers (FailoverChain.ordered base) ∧
      (¬ P.Finishes t (r.request net inv) h es Q ∧
          deedsOf t es <+: r.basing h base ++ attaching (base.withScope inv.name) h ∨
        ∃ L ds, P.Paces t net r inv h es Q base L ds) := by
  have : Inhabited σ := ⟨P.world.user⟩
  obtain ⟨β, k, x, hP, hpath, hQ⟩ := halong.thread
  have hpending : x.over? = none → ¬ P.Finishes t (r.request net inv) h es Q := by
    rintro hover ⟨res, h', hthrough⟩
    rw [← List.append_nil (deedsOf t es)] at hpath
    obtain ⟨-, rfl⟩ := hthrough.goes.ended hpath
    cases hover.symm.trans (Thread.over?_rethrow res h')
  obtain ⟨base, ⟨hover, hbegins⟩ | ⟨L, ds, hdeeds, hattached, hpaced⟩⟩ := paced_request hpath
  · exact ⟨base, handlers_ordered base, .inl ⟨hpending hover, hbegins⟩⟩
  · have hpaced := hpaced.mono hpending
    have hdelays : ((base.withScope inv.name).schedule.map fun x => x.1.pacing.pause x.2) = base.pauses :=
      map_schedule (base.withScope inv.name)
    have hcaptured : r.Captures P t h es base := Requester.captures_of_deeds (L := []) halong.run hattached hdeeds
    exact ⟨base, handlers_ordered base, .inr ⟨L, ds, {
      deeds := hdeeds
      captured := hcaptured
      turns := hpaced
      inOrder := hdelays ▸ hpaced.prefix_delays
      complete := fun hfinishes => hdelays ▸ hpaced.complete fun hnot => hnot hfinishes }⟩⟩

/-- A context with three handlers of one retry each; that of the retry strategy comes second. -/
def impatient : Context :=
  let strategy (nanos : Nat) (h : nanos < twoTo 64) : RetryStrategy := ⟨1, .ofNanos nanos h, Nat.one_pos⟩
  ⟨"client", [.failover ⟨[.ofRetryStrategy (strategy 303 (by decide)),
    (RetryPolicy.ofRetryStrategy (strategy 101 (by decide))).withPriority (-1)]⟩, .retry (strategy 202 (by decide))]⟩

theorem pauses_impatient :
    impatient.pauses = [.ofNanos 101 (by decide), .ofNanos 202 (by decide), .ofNanos 303 (by decide)] := by
  have hone : ((1.0 : Float) == 1.0) = true := by decide
  simp [Context.pauses, FailoverChain.ordered, FailoverChain.policies, impatient, Context.retry?, Context.failover?,
    Context.get?, Strategy.kind, RetryPolicy.ofRetryStrategy, RetryPolicy.withPriority, RetryPolicy.defaultPriority,
    List.mergeSort, List.MergeSort.Internal.splitInTwo, RetryPolicy.pacing, hone, Pacing.fixed]

/-- A call that never succeeds. -/
def hopeless : Invocation Unit := ⟨"getBlock", [], done (.error (.text "down"))⟩

theorem ends_hopeless : (Requester.plain.request Requester.connected hopeless).Ends nobody :=
  ends_request (fun _ => ⟨fun _ _ => rfl, fun _ _ _ => rfl⟩) (fun _ _ => rfl) (fun _ _ _ => rfl) (List.forall_mem_nil _)

/-- Three handlers, two of them with one priority, and no attempt succeeds. -/
theorem pauses_follow_handlers_impatient :
    let P := start (World.start ()) [⟨_, Requester.plain.request Requester.connected hopeless, some impatient⟩]
    ∃ es Q L, P.Along 0 (Requester.plain.request Requester.connected hopeless) (some impatient) es Q ∧
      impatient.Handlers (FailoverChain.ordered impatient) ∧
      P.Paces 0 Requester.connected Requester.plain hopeless (some impatient) es Q impatient L
        [.ofNanos 101 (by decide), .ofNanos 202 (by decide), .ofNanos 303 (by decide)] := by
  intro P
  obtain ⟨res, hres⟩ := end?_of_isEnd (ends_hopeless (some impatient) (World.start ()))
  obtain ⟨es, Q, hthrough, -, -⟩ := exists_through (P := P) (t := 0) rfl (alike_refl _) hres
  obtain ⟨base, hhandlers, ⟨hnot, -⟩ | ⟨L, ds, hpaces⟩⟩ := pauses_follow_handlers hthrough.along
  · exact absurd ⟨res, _, hthrough⟩ hnot
  obtain rfl : impatient = base := by
    rcases hpaces.captured with heq | ⟨hnone, -⟩
    · exact Option.some.inj heq
    · cases hnone
  rcases hpaces.complete ⟨res, _, hthrough⟩ with rfl | ⟨L₁, L₂, L₃, v, h₁, h₂, -, hgoes, -⟩
  · exact ⟨es, Q, L, hthrough.along, hhandlers, pauses_impatient ▸ hpaces⟩
  · cases (goes_done.1 hgoes).2.1

end Pool

end ResilientCalls
