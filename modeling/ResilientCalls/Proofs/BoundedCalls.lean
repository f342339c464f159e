import ResilientCalls.Proofs.AttemptContext
import ResilientCalls.Proofs.Errands
import ResilientCalls.Proofs.Stretches

/-!
# The call on a worker

A bounded call starts one worker, waits for it once, and answers with what it heard. In a pool what it
heard is of that worker (`Pool.Through.bounded`). The worker attaches the context that its caller had, and
goes through the call once (`Errand.Stands.runsUnder`).
-/

namespace ResilientCalls

open Program

variable {σ α : Type} {inv : Invocation σ} {bound : Duration} {h h' : Option Context} {L : List (Deed σ)}

/-- The channels on which workers were started. -/
def startedIn (L : List (Deed σ)) : List ChannelId :=
  L.filterMap fun
    | .started m _ => some m
    | _ => none

namespace Invocation

/-- The job for the worker of a bounded call on a thread with `h` attached. -/
abbrev job (inv : Invocation σ) (bound : Duration) (h : Option Context) : Job σ :=
  ⟨Reply, none, inv.underContext h, some bound⟩

/-- The result of a bounded call after what was heard of its worker. -/
def result (inv : Invocation σ) (bound : Duration) : Delivery Reply → Reply
  | .delivered reply => reply
  | .crashed => .error (.text ("invocation " ++ inv.name ++ " panicked"))
  | .elapsed => .error (.timeout bound)

/-- The results of a bounded call, by how its worker ended and what was heard of it. -/
inductive Hears (inv : Invocation σ) (bound : Duration) :
    Option (Except Payload Reply) → Delivery Reply → Reply → Prop
  | value (reply : Reply) : Hears inv bound (some (.ok reply)) (.delivered reply) reply
  | panic (p : Payload) :
      Hears inv bound (some (.error p)) .crashed (.error (.text ("invocation " ++ inv.name ++ " panicked")))
  /-- The worker had not ended, and may have done so since. -/
  | timeout (outcome : Option (Except Payload Reply)) : Hears inv bound outcome .elapsed (.error (.timeout bound))

theorem hears_result {outcome : Option (Except Payload Reply)} {d : Delivery Reply}
    (hd : d = .elapsed ∨ ∃ r, outcome = some r ∧ d = .ofEnd r) : inv.Hears bound outcome d (inv.result bound d) := by
  rcases hd with rfl | ⟨r, rfl, rfl⟩
  · exact .timeout outcome
  · cases r with
    | ok reply => exact .value reply
    | error p => exact .panic p

/-- What a bounded call reports of that. -/
def reporting (inv : Invocation σ) (bound : Duration) (h : Option Context) : Delivery Reply → List (Deed σ)
  | .elapsed =>
      [.did (.record (.traced (.timedOut inv.name bound))) (), .did (.holder id) h,
        .did (.record (.counted (.timeouts ((h.map Context.scope).getD inv.name)))) ()]
  | _ => []

end Invocation

theorem call_within (inv : Invocation σ) (bound : Duration) :
    (inv.within bound).call = current.bind fun caller =>
      .worker none (inv.underContext caller) (some bound) (inv.delivered bound) := by
  show current.bind (fun caller => .worker none (inv.underContext caller) (some bound) fun d => _) = _
  congr 1

theorem call_decorate_within {net : Network σ} {c : Context} {s : TimeoutStrategy} (hs : c.timeout? = some s) :
    (c.decorate net inv).call = (c.connectStage net).bind fun
      | .ok () => (inv.within s.timeout).call
      | .error e => done (.error e) := by
  have hbounded : (Decoration.ofContext c).bounded inv = inv.within s.timeout := by
    simp [Decoration.bounded, Decoration.ofContext, hs]
  rw [← hbounded]
  exact call_decorate net c inv

theorem goes_delivered [Inhabited σ] {d : Delivery Reply} {r : Except Payload Reply}
    (hgoes : (inv.delivered bound d).Goes h L r h') :
    L = inv.reporting bound h d ∧ r = .ok (inv.result bound d) ∧ h' = h := by
  cases d with
  | delivered reply => exact goes_done.1 hgoes
  | crashed => exact goes_done.1 hgoes
  | elapsed =>
    obtain ⟨L₁, rfl, hscope⟩ := (makes_log _).bind.1 hgoes
    obtain ⟨L₂, rfl, hcount⟩ := (makes_currentScope _).bind.1 hscope
    obtain ⟨L₃, rfl, hlast⟩ := (makes_count _).bind.1 hcount
    obtain ⟨rfl, rfl, rfl⟩ := goes_done.1 hlast
    exact ⟨rfl, rfl, rfl⟩

theorem goes_within [Inhabited σ] {r : Except Payload Reply} (hgoes : (inv.within bound).call.Goes h L r h') :
    h' = h ∧ ∃ m d, r = .ok (inv.result bound d) ∧
      L = .did (.holder id) h :: .started m (inv.job bound h) :: .answered m d :: inv.reporting bound h d := by
  rw [call_within] at hgoes
  obtain ⟨L₁, rfl, hwait⟩ := makes_current.bind.1 hgoes
  rcases Thread.path_worker hwait with ⟨-, hend⟩ | ⟨m, deadline, -, hend⟩ | ⟨m, d, L₂, rfl, hrest⟩
  · cases r <;> cases congrArg Thread.code hend
  · cases r <;> cases congrArg Thread.code hend
  · obtain ⟨rfl, rfl, rfl⟩ := goes_delivered hrest
    exact ⟨rfl, m, d, rfl, rfl⟩

/-! ## The worker -/

/-- The deeds before the call of a worker. -/
def entering : Option Context → List (Deed σ)
  | some c => attaching c none
  | none => []

/-- The deeds after the call of a worker, which leaves `h₁` on its thread. -/
def leaving : Option Context → Option Context → List (Deed σ)
  | some _, h₁ => releasing none h₁
  | none, _ => []

/-- What a worker has done for a call whose caller had `h` attached, by how it has ended: it has attached that context
and made the call once, from its start to its end, or it is still on the way. -/
inductive Invocation.RunsUnder (inv : Invocation σ) (h : Option Context) :
    Option (Except Payload Reply) → List (Deed σ) → Prop
  | ended {L : List (Deed σ)} {o : Except Payload Reply} {h₁ : Option Context} : inv.call.Goes h L o h₁ →
      RunsUnder inv h (some o) (entering h ++ (L ++ leaving h h₁))
  | underway {L L' : List (Deed σ)} {x : Thread σ Reply} {h₁ : Option Context} : (Thread.fresh inv.call h).Path L x →
      L' <+: entering h ++ (L ++ leaving h h₁) → RunsUnder inv h none L'

namespace Thread

theorem path_attach {c : Context} {x : Thread σ Guard} (hpath : (fresh (attach c) h).Path L x) :
    L <+: attaching c h := by
  rcases path_act (a := .record (.traced (.attached c.scope))) hpath with
    ⟨rfl, -⟩ | ⟨b, h₁, w, w', L₁, hstep, rfl, hrest⟩
  · exact List.nil_prefix
  · cases hstep
    rcases path_act (a := .holder fun _ => some c) hrest with ⟨rfl, -⟩ | ⟨b, h₁, w, w', L₂, hstep, rfl, hrest⟩
    · exact ⟨_, rfl⟩
    · cases hstep
      obtain ⟨rfl, -⟩ := path_of_over rfl hrest
      exact List.prefix_rfl

theorem path_release {g : Guard} {x : Thread σ Unit} (hpath : (fresh g.release h).Path L x) :
    L <+: releasing g.previous h := by
  rcases path_act (a := .holder fun _ => g.previous) hpath with ⟨rfl, -⟩ | ⟨b, h₁, w, w', L₁, hstep, rfl, hrest⟩
  · exact List.nil_prefix
  · cases hstep
    cases h with
    | none =>
      obtain ⟨rfl, -⟩ := path_of_over rfl hrest
      exact List.prefix_rfl
    | some c =>
      rcases path_act (a := .record (.traced (.released c.scope))) hrest with
        ⟨rfl, -⟩ | ⟨b, h₁, w, w', L₂, hstep, rfl, hlast⟩
      · exact ⟨_, rfl⟩
      · cases hstep
        obtain ⟨rfl, -⟩ := path_of_over rfl hlast
        exact List.prefix_rfl

theorem path_withContext [Inhabited σ] {c : Context} {body : Program σ α} {x : Thread σ α}
    (hpath : (fresh (withContext c body) h).Path L x) :
    ∃ L₁ y h₁, (fresh body (some c)).Path L₁ y ∧ L <+: attaching c h ++ (L₁ ++ releasing h h₁) := by
  have hcode : withContext c body = (attach c).bind fun guard =>
      body.caught.bind fun r => guard.release.bind fun _ => rethrow r := rfl
  rw [hcode] at hpath
  rcases path_bind hpath with ⟨y, hattach⟩ | ⟨guard, h₁, L₁, L₂, rfl, hattach, hrest⟩
  · exact ⟨[], _, h, .rest _, (path_attach hattach).trans (List.prefix_append _ _)⟩
  obtain ⟨rfl, hguard, rfl⟩ := (makes_attach c _ _ _).1 hattach
  cases hguard
  simp only [List.prefix_append_right_inj]
  rcases path_caught_bind hrest with ⟨y, hbody⟩ | ⟨r, h₂, L₃, L₄, rfl, hbody, hlast⟩
  · exact ⟨L₂, y, h, hbody, List.prefix_append _ _⟩
  refine ⟨L₃, _, h₂, hbody, ?_⟩
  rw [List.prefix_append_right_inj]
  rcases path_bind hlast with ⟨y, hrelease⟩ | ⟨u, h₃, L₅, L₆, rfl, hrelease, hover⟩
  · exact path_release hrelease
  · obtain ⟨rfl, -, -⟩ := (makes_release _ _ _ _).1 hrelease
    obtain ⟨rfl, -⟩ := path_of_over (over?_rethrow r h₃) hover
    simp only [List.append_nil, List.prefix_rfl]

end Thread

theorem path_underContext [Inhabited σ] {x : Thread σ Reply}
    (hpath : (Thread.fresh (inv.underContext h) none).Path L x) : inv.RunsUnder h none L := by
  cases h with
  | some c =>
    obtain ⟨L₁, y, h₁, hcall, hprefix⟩ := Thread.path_withContext hpath
    exact .underway hcall hprefix
  | none =>
    have hall : L <+: entering none ++ (L ++ leaving none none) := by simp [entering, leaving]
    exact .underway hpath hall

theorem goes_underContext [Inhabited σ] {o : Except Payload Reply} (hgoes : (inv.underContext h).Goes none L o h') :
    ∃ L₁ h₁, L = entering h ++ (L₁ ++ leaving h h₁) ∧ inv.call.Goes h L₁ o h₁ := by
  cases h with
  | some c =>
    obtain ⟨L₁, h₁, rfl, hcall, -⟩ := goes_withContext.1 hgoes
    exact ⟨L₁, h₁, rfl, hcall⟩
  | none => exact ⟨L, h', by simp [entering, leaving], hgoes⟩

/-! ## In a pool -/

namespace Errand

theorem mem_steps_started {l : Errand σ} {m : ChannelId} {t : Nat} {job : Job σ}
    (hmem : (t, .started m job) ∈ l.steps m) : t = l.caller ∧ job = l.job := by
  obtain ⟨caller, worker, job', outcome, answer⟩ := l
  rcases answer with - | (d | - | -) <;> cases outcome <;> simp [steps] at hmem <;> exact hmem

theorem mem_steps_answered {caller worker t : Nat} {job : Job σ} {outcome : Option (Except Payload job.Value)}
    {answer : Option (Delivery job.Value)} {m : ChannelId} {d : Delivery job.Value}
    (hmem : (t, .answered m d) ∈ (⟨caller, worker, job, outcome, answer⟩ : Errand σ).steps m) :
    answer = some d := by
  rcases answer with - | (d' | - | -) <;> cases outcome <;> simp [steps] at hmem <;> simp [hmem]

theorem mem_steps_finished {caller worker n : Nat} {job : Job σ} {outcome : Option (Except Payload job.Value)}
    {answer : Option (Delivery job.Value)} {m : ChannelId} {r : Except Payload job.Value}
    (hmem : (n, .finished m r) ∈ (⟨caller, worker, job, outcome, answer⟩ : Errand σ).steps m) : outcome = some r := by
  rcases answer with - | (d | - | -) <;> cases outcome <;> simp [steps] at hmem <;> simp [hmem]

/-- The worker of a bounded call makes it under what its caller had attached, once it has ended from its start to its
end. -/
theorem Stands.runsUnder [Inhabited σ] {P : Pool σ} {es : List (Nat × Deed σ)} {t n : Nat} {m : ChannelId}
    {outcome : Option (Except Payload Reply)} {answer : Option (Delivery Reply)}
    (hl : (⟨t, n, inv.job bound h, outcome, answer⟩ : Errand σ).Stands P es m) :
    inv.RunsUnder h outcome (Pool.deedsOf n es) := by
  obtain ⟨x, -, hpath, hover⟩ := hl.worked
  cases outcome with
  | some o =>
    obtain ⟨L, h₁, hdeeds, hcall⟩ := goes_underContext (hpath.goes (hover o rfl))
    exact hdeeds ▸ .ended hcall
  | none => exact path_underContext hpath

end Errand

namespace Pool

variable {P Q R : Pool σ} {t : Nat} {m : ChannelId} {es es₁ es₂ es₃ : List (Nat × Deed σ)} {w : World σ}
  {threads : List ((α : Type) × Program σ α × Option Context)}

theorem mem_of_mem_deedsOf {e : Deed σ} (he : e ∈ deedsOf t es) : (t, e) ∈ es := by
  obtain ⟨⟨u, e'⟩, hmem, hsome⟩ := List.mem_filterMap.1 he
  simp only [Option.ite_none_right_eq_some, Option.some.injEq] at hsome
  obtain ⟨⟨rfl, -⟩, rfl⟩ := hsome
  exact hmem

theorem Runs.exists_errand {job : Job σ} {d : Delivery job.Value} (hrun : (start w threads).Runs es Q)
    (hstarted : (t, .started m job) ∈ es) (hanswered : (t, .answered m d) ∈ es) :
    ∃ n outcome, (⟨t, n, job, outcome, some d⟩ : Errand σ).Stands Q es m := by
  have hmem : ∀ e ∈ es, e.2.channel? = some m → e ∈ stepsOn m es := fun e he hm =>
    List.mem_filter.2 ⟨he, by simp [hm]⟩
  rcases hrun.errand m with hunused | ⟨⟨caller, worker, job', outcome, answer⟩, hl⟩
  · have hnone := hmem _ hstarted rfl
    rw [hunused.steps] at hnone
    cases hnone
  · obtain ⟨rfl, rfl⟩ := Errand.mem_steps_started (hl.steps ▸ hmem _ hstarted rfl)
    obtain rfl := Errand.mem_steps_answered (hl.steps ▸ hmem _ hanswered rfl)
    exact ⟨worker, outcome, hl⟩

theorem Runs.exists_worker_under [Inhabited σ] {d : Delivery Reply} (hrun : (start w threads).Runs es Q)
    (hstarted : (t, .started m (inv.job bound h)) ∈ es) (hanswered : (t, .answered m d) ∈ es) :
    ∃ n outcome, (⟨t, n, inv.job bound h, outcome, some d⟩ : Errand σ).Stands Q es m ∧
      inv.RunsUnder h outcome (deedsOf n es) ∧ inv.Hears bound outcome d (inv.result bound d) := by
  obtain ⟨n, outcome, hl⟩ := hrun.exists_errand hstarted hanswered
  exact ⟨n, outcome, hl, hl.runsUnder, Invocation.hears_result (hl.heard d rfl)⟩

/-- **A bounded call hears of its own worker.** Whatever other threads do, it answers with the result of the
one worker that it starts, or with what stands for a panic of that worker, or with a timeout if that worker
had not ended; and it leaves its thread as it was. -/
theorem Through.bounded {r : Except Payload Reply} (hbefore : (start w threads).Runs es₁ P)
    (hcall : P.Through t (inv.within bound).call h es₂ r h' Q) (hafter : Q.Runs es₃ R) :
    h' = h ∧ ∃ m n outcome d reply,
      (⟨t, n, inv.job bound h, outcome, some d⟩ : Errand σ).Stands R (es₁ ++ (es₂ ++ es₃)) m ∧
        (t, .started m (inv.job bound h)) ∈ es₂ ∧ (t, .answered m d) ∈ es₂ ∧
          inv.Hears bound outcome d reply ∧ r = .ok reply := by
  have : Inhabited σ := ⟨P.world.user⟩
  obtain ⟨rfl, m, d, rfl, hdeeds⟩ := goes_within hcall.goes
  have hstarted : (t, .started m (inv.job bound h')) ∈ es₂ := mem_of_mem_deedsOf (by simp [hdeeds])
  have hanswered : (t, .answered m d) ∈ es₂ := mem_of_mem_deedsOf (by simp [hdeeds])
  obtain ⟨n, outcome, hl, -, hhears⟩ := (hbefore.append (hcall.run.append hafter)).exists_worker_under
    (List.mem_append_right es₁ (List.mem_append_left es₃ hstarted))
    (List.mem_append_right es₁ (List.mem_append_left es₃ hanswered))
  exact ⟨rfl, m, n, outcome, d, _, hl, hstarted, hanswered, hhears, rfl⟩

/-- How an attempt under a bound comes to its result. -/
inductive Attempted (P : Pool σ) (t : Nat) (net : Network σ) (c : Context) (inv : Invocation σ) (bound : Duration)
    (h : Option Context) : List (Nat × Deed σ) → Reply → Option Context → Pool σ → Prop
  /-- There is no connection, and no worker is started. -/
  | refused {es₁ es₂ : List (Nat × Deed σ)} {e : Failure} {h₁ : Option Context} {P₁ Q : Pool σ} :
      P.Through t (c.connectStage net) h es₁ (.ok (.error e)) h₁ P₁ → P₁.Runs es₂ Q → deedsOf t es₂ = [] →
        Attempted P t net c inv bound h (es₁ ++ es₂) (.error e) h₁ Q
  /-- The connector panics, and no worker is started. -/
  | crashed {es₁ es₂ : List (Nat × Deed σ)} {p : Payload} {h₁ : Option Context} {P₁ Q : Pool σ} :
      P.Through t (c.connectStage net) h es₁ (.error p) h₁ P₁ → P₁.Runs es₂ Q → deedsOf t es₂ = [] →
        Attempted P t net c inv bound h (es₁ ++ es₂) (.error (.text ("invocation " ++ inv.name ++ " panicked"))) h₁ Q
  /-- The result is that of the bounded call. -/
  | called {es₁ es₂ es₃ : List (Nat × Deed σ)} {reply : Reply} {h₁ : Option Context} {P₁ P₂ Q : Pool σ} :
      P.Through t (c.connectStage net) h es₁ (.ok (.ok ())) h₁ P₁ →
        P₁.Through t (inv.within bound).call h₁ es₂ (.ok reply) h₁ P₂ → P₂.Runs es₃ Q → deedsOf t es₃ = [] →
          Attempted P t net c inv bound h (es₁ ++ (es₂ ++ es₃)) reply h₁ Q

/-- **An attempt and its bounded call.** An attempt under a bound has the result of its one bounded call, unless
it fails for want of a connection. -/
theorem Through.attempted {net : Network σ} {c : Context} {s : TimeoutStrategy} {r : Except Payload Reply}
    (hs : c.timeout? = some s) (hattempt : P.Through t (c.decorate net inv).attempt h es r h' Q) :
    ∃ reply, r = .ok reply ∧ P.Attempted t net c inv s.timeout h es reply h' Q := by
  have : Inhabited σ := ⟨P.world.user⟩
  obtain ⟨es₁, es₃, r₁, h₁, P₂, rfl, hcall, hend⟩ := hattempt.caught_bind
  rw [call_decorate_within hs, bind_eq_caught_bind] at hcall
  obtain ⟨es₁, es₂, q, h₂, P₁, rfl, hconnect, hrest⟩ := hcall.caught_bind
  -- After a failure nothing is left to do.
  have hover : ∀ e : Except Payload Reply, P₁.Through t (rethrow e) h₂ es₂ r₁ h₁ P₂ →
      deedsOf t es₂ = [] ∧ r₁ = e ∧ h₁ = h₂ := fun e hthrough => goes_rethrow.1 hthrough.goes
  have hlast : deedsOf t es₃ = [] ∧ r = .ok (inv.reply r₁) ∧ h' = h₁ := by
    rw [show inv.reply r₁ = (c.decorate net inv).reply r₁ from (reply_decorate c r₁).symm]
    cases r₁ <;> exact goes_done.1 hend.goes
  obtain ⟨hdeeds, rfl, rfl⟩ := hlast
  refine ⟨_, rfl, ?_⟩
  match q with
  | .ok (.ok u) =>
    obtain ⟨rfl, m, d, rfl, -⟩ := goes_within hrest.goes
    rw [List.append_assoc]
    exact .called hconnect hrest hend.run hdeeds
  | .ok (.error e) =>
    obtain ⟨hquiet, rfl, rfl⟩ := hover (.ok (.error e)) hrest
    rw [List.append_assoc]
    exact .refused hconnect (hrest.run.append hend.run) (by rw [deedsOf_append, hquiet, hdeeds]; rfl)
  | .error p =>
    obtain ⟨hquiet, rfl, rfl⟩ := hover (.error p) hrest
    rw [List.append_assoc]
    exact .crashed hconnect (hrest.run.append hend.run) (by rw [deedsOf_append, hquiet, hdeeds]; rfl)

end Pool

end ResilientCalls
