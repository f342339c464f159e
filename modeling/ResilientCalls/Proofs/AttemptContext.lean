import Mathlib.Logic.Function.Basic
import ResilientCalls.Proofs.Attempts
import ResilientCalls.Proofs.Restoration

/-!
# The context under which attempts start

A request attaches its derived context once, before the first attempt. A retry starts with whatever
the attempt before it left on the thread, so all attempts start under the derived context just if no
client code on that thread takes it away (`startsUnder_attempts`). A bounded call runs on a worker of
its own and cannot; an unbounded one can (`startsUnder_leaking`).
-/

namespace ResilientCalls

open Program

variable {σ : Type} {others : Others σ} {net : Network σ} {inv : Invocation σ} {c : Context}

/-! ## The start of the call -/

/-- What is done in each attempt before the call itself. -/
def Context.connectStage (net : Network σ) (c : Context) : Program σ (Except Failure Unit) :=
  match c.connect? with
  | some s => s.ensureConnected net
  | none => done (.ok ())

theorem call_decorate (net : Network σ) (c : Context) (inv : Invocation σ) :
    (c.decorate net inv).call = (c.connectStage net).bind fun
      | .ok () => ((Decoration.ofContext c).bounded inv).call
      | .error e => done (.error e) := by
  unfold Context.decorate Decoration.apply Decoration.ofContext Context.connectStage
  cases c.connect? with
  | some s => rfl
  | none => rfl

namespace Attempt

/-- The connect stage of an attempt. -/
def connected (others : Others σ) (net : Network σ) (c : Context) (a : Attempt σ) :
    Final σ (Except Failure Unit) :=
  (c.connectStage net).run others none a.holder a.world

/-- The attempt gets to the call itself. -/
def Connects (others : Others σ) (net : Network σ) (c : Context) (a : Attempt σ) : Prop :=
  (a.connected others net c).exit = .value (.ok ())

/-- The attempt starts under the context, and so does its call if it gets there. -/
def StartsUnder (others : Others σ) (net : Network σ) (c : Context) (a : Attempt σ) : Prop :=
  a.holder = some c ∧ (a.Connects others net c → (a.connected others net c).holder = some c)

/-- What the attempt comes to depends on the body of the call through the run of the body with `under`
attached, on the thread of the request or on a worker. -/
def RunsBodyUnder (others : Others σ) (net : Network σ) (c : Context) (inv : Invocation σ) (a : Attempt σ)
    (under : Option Context) : Prop :=
  ∃ limit world, Function.FactorsThrough
    (fun body => a.run others (c.decorate net (inv.wrap fun _ => body)))
    fun body => body.run others limit under world

end Attempt

theorem factors_underContext (others : Others σ) (inv : Invocation σ) (caller : Option Context)
    (limit : Moment) (w : World σ) :
    ∃ world, Function.FactorsThrough
      (fun body => ((inv.wrap fun _ => body).underContext caller).run others limit none w)
      fun body => body.run others limit caller world := by
  cases caller with
  | none => exact ⟨w, fun body body' hrun => hrun⟩
  | some c =>
    refine ⟨{ w with journal := w.journal ++ [.traced (.attached c.scope)] }, fun body body' hrun => ?_⟩
    show (withContext c body).run others limit none w = (withContext c body').run others limit none w
    simp only [withContext, attach, log, record, perform, ensuring, bind_eq, Program.bind, pure_eq, run_act,
      Action.step, run_bind, run_caught] at hrun ⊢
    rw [hrun]

/-- What the thread of the request makes of the end of its worker. -/
def Invocation.delivered (inv : Invocation σ) (bound : Duration) : Delivery Reply → Program σ Reply
  | .delivered reply => done reply
  | .crashed => done (.error inv.panicked)
  | .elapsed =>
    (log (.timedOut inv.name bound)).bind fun _ => (currentScope inv.name).bind fun scope =>
      (count (.timeouts scope)).bind fun _ => done (.error (.timeout bound))

theorem run_within (inv : Invocation σ) (bound : Duration) (h : Option Context) (w : World σ) :
    (inv.within bound).call.run others none h w =
      ((onWorker (some bound) (inv.underContext h)).run others none h w).andThen others none
        (inv.delivered bound) := by
  rw [← run_bind]
  show ((onWorker (some bound) (inv.underContext h)).bind _).run others none h w = _
  congr 2

theorem onWorker_congr {β : Type} {body body' : Program σ β} {bound : Option Duration} {h : Option Context}
    {w : World σ} (hrun : body.run others ((Moment.afterWait w.clock bound).earlier none) none w =
      body'.run others ((Moment.afterWait w.clock bound).earlier none) none w) :
    (onWorker bound body).run others none h w = (onWorker bound body').run others none h w := by
  simp only [onWorker, run, hrun]

theorem factors_within (others : Others σ) (inv : Invocation σ) (bound : Duration) (h : Option Context)
    (w : World σ) :
    ∃ limit world, Function.FactorsThrough
      (fun body => ((inv.wrap fun _ => body).within bound).call.run others none h w)
      fun body => body.run others limit h world := by
  let limit := (Moment.afterWait w.clock (some bound)).earlier none
  obtain ⟨world, hworld⟩ := factors_underContext others inv h limit w
  refine ⟨limit, world, fun body body' hrun => ?_⟩
  have hworker : ((inv.wrap fun _ => body).underContext h).run others limit none w =
      ((inv.wrap fun _ => body').underContext h).run others limit none w := hworld hrun
  show ((inv.wrap fun _ => body).within bound).call.run others none h w =
    ((inv.wrap fun _ => body').within bound).call.run others none h w
  rw [run_within, run_within, onWorker_congr hworker]
  rfl

theorem factors_bounded (others : Others σ) (c : Context) (inv : Invocation σ) (h : Option Context)
    (w : World σ) :
    ∃ limit world, Function.FactorsThrough
      (fun body => ((Decoration.ofContext c).bounded (inv.wrap fun _ => body)).call.run others none h w)
      fun body => body.run others limit h world := by
  unfold Decoration.bounded Decoration.ofContext
  cases c.timeout? with
  | some s => exact factors_within others inv s.timeout h w
  | none => exact ⟨none, w, fun body body' hrun => hrun⟩

theorem runsBodyUnder_connected (inv : Invocation σ) {a : Attempt σ} (ha : a.Connects others net c) :
    a.RunsBodyUnder others net c inv (a.connected others net c).holder := by
  have hrun : ∀ body : Program σ Reply,
      (c.decorate net (inv.wrap fun _ => body)).call.run others none a.holder a.world =
        ((Decoration.ofContext c).bounded (inv.wrap fun _ => body)).call.run others none
          (a.connected others net c).holder (a.connected others net c).world := by
    intro body
    rw [call_decorate, run_bind]
    exact Final.andThen_of_value ha _
  obtain ⟨limit, world, hbounded⟩ :=
    factors_bounded others c inv (a.connected others net c).holder (a.connected others net c).world
  refine ⟨limit, world, fun body body' hbody => ?_⟩
  have hcall : ((Decoration.ofContext c).bounded (inv.wrap fun _ => body)).call.run others none
        (a.connected others net c).holder (a.connected others net c).world =
      ((Decoration.ofContext c).bounded (inv.wrap fun _ => body')).call.run others none
        (a.connected others net c).holder (a.connected others net c).world := hbounded hbody
  simp only [Attempt.run, run_attempt, hrun, hcall, reply_decorate, reply_wrap]

/-! ## What an attempt leaves on the thread -/

theorem holder_onWorker {β : Type} (bound : Option Duration) (body : Program σ β) (h : Option Context)
    (w : World σ) : ((onWorker bound body).run others none h w).holder = h := by
  simp only [onWorker, run]
  split
  · rfl
  · rfl
  · split <;> rfl

theorem holder_within (inv : Invocation σ) (bound : Duration) (h : Option Context) (w : World σ) :
    ((inv.within bound).call.run others none h w).holder = h := by
  have hworker : ((onWorker (some bound) (inv.underContext h)).run others none h w).holder = h :=
    holder_onWorker _ _ h w
  rw [run_within]
  generalize (onWorker (some bound) (inv.underContext h)).run others none h w = f at hworker ⊢
  obtain ⟨exit, holder, world⟩ := f
  obtain rfl : holder = h := hworker
  cases exit with
  | value d => cases d <;> rfl
  | unwound p => rfl
  | pending rest => rfl

theorem holder_run_bounded {s : TimeoutStrategy} (hs : c.timeout? = some s) (inv : Invocation σ)
    (a : Attempt σ) :
    (a.run others (c.decorate net inv)).holder = (a.connected others net c).holder := by
  rw [Attempt.run, holder_attempt, call_decorate, run_bind]
  show ((a.connected others net c).andThen others none _).holder = (a.connected others net c).holder
  generalize a.connected others net c = f
  obtain ⟨exit, holder, world⟩ := f
  cases exit with
  | value reply =>
    cases reply with
    | ok u =>
      have hbounded : (Decoration.ofContext c).bounded inv = inv.within s.timeout := by
        simp [Decoration.bounded, Decoration.ofContext, hs]
      show (((Decoration.ofContext c).bounded inv).call.run others none holder world).holder = holder
      rw [hbounded, holder_within]
    | error e => rfl
  | unwound p => rfl
  | pending rest => rfl

theorem connected_of_connect?_none (hc : c.connect? = none) (a : Attempt σ) :
    a.connected others net c = ⟨.value (.ok ()), a.holder, a.world⟩ := by
  simp [Attempt.connected, Context.connectStage, hc]

theorem isEnd_connected {a : Attempt σ} (ha : (a.run others (c.decorate net inv)).Fails) :
    (a.connected others net c).exit.isEnd = true := by
  obtain ⟨e, he⟩ := ha
  have hend : (a.run others (c.decorate net inv)).exit.end? = _ := end?_attempt a.holder a.world
  rw [he, call_decorate, run_bind] at hend
  cases hconnected : (a.connected others net c).exit with
  | value reply => rfl
  | unwound p => rfl
  | pending rest =>
    have hrun : ((c.connectStage net).run others none a.holder a.world).exit = .pending rest := hconnected
    rw [Final.andThen, hrun] at hend
    cases hend

theorem holder_connected (hnet : ∀ s, c.connect? = some s → (s.ensureConnected net).Restores others none)
    {a : Attempt σ} (ha : (a.connected others net c).exit.isEnd = true) :
    (a.connected others net c).holder = a.holder := by
  unfold Attempt.connected Context.connectStage at ha ⊢
  cases hc : c.connect? with
  | none => rfl
  | some s =>
    rw [hc] at ha
    exact hnet s hc a.holder a.world ha

/-! ## From attempt to attempt -/

namespace Series

variable {x : Attempt σ} {f g : Final σ Reply} {as : List (Attempt σ)}

theorem holder_eq (h : Series others inv f as g) (hf : x.run others inv = f) (hx : x.holder = some c)
    (hstep : ∀ a ∈ (x :: as).dropLast, a.holder = some c → (a.run others inv).Fails →
      (a.run others inv).holder = some c) : ∀ a ∈ x :: as, a.holder = some c := by
  induction h generalizing x with
  | rest f es => simpa using hx
  | @again f g as es hfails _ ih =>
    subst hf
    have hnext : ((x.run others inv).next others es).holder = some c := hstep x (by simp) hx hfails
    have hrest := ih rfl hnext fun a ha => hstep a (by simp [List.dropLast_cons_of_ne_nil, ha])
    simpa [hx] using hrest

theorem holder_run (h : Series others inv f as g) (hf : x.run others inv = f) {a : Attempt σ}
    (ha : a ∈ (x :: as).dropLast) : ∃ b ∈ x :: as, b.holder = (a.run others inv).holder := by
  induction h generalizing x with
  | rest f es => simp at ha
  | @again f g as es _ _ ih =>
    subst hf
    rw [List.dropLast_cons_of_ne_nil (List.cons_ne_nil _ _)] at ha
    rcases List.mem_cons.1 ha with rfl | ha
    · exact ⟨(a.run others inv).next others es, by simp, rfl⟩
    · obtain ⟨b, hb, hholder⟩ := ih rfl ha
      exact ⟨b, List.mem_cons_of_mem x hb, hholder⟩

end Series

/-- No client code on the thread of the request takes the context away on the way to a call: no connect
stage that connects, and nothing in an attempt that another one follows, its call on a worker apart. -/
def KeepsAttached (others : Others σ) (net : Network σ) (c : Context) (inv : Invocation σ)
    (starts : List (Attempt σ)) : Prop :=
  (∀ a ∈ starts, c.connect?.isSome = true → a.Connects others net c →
    (a.connected others net c).holder = some c) ∧
  ∀ a ∈ starts.dropLast, ¬ (c.timeout?.isSome = true ∧ a.Connects others net c) →
    (a.run others (c.decorate net inv)).holder = some c

section StartsUnder

variable {x : Attempt σ} {g : Final σ Reply} {as : List (Attempt σ)}
  (h : Series others (c.decorate net inv) (x.run others (c.decorate net inv)) as g)
include h

theorem holder_run_of_startsUnder (hstarts : ∀ a ∈ x :: as, a.StartsUnder others net c) {a : Attempt σ}
    (hlast : a ∈ (x :: as).dropLast) : (a.run others (c.decorate net inv)).holder = some c := by
  obtain ⟨b, hb, hholder⟩ := h.holder_run rfl hlast
  rw [← hholder, (hstarts b hb).1]

theorem startsUnder_iff (hx : x.holder = some c) :
    (∀ a ∈ x :: as, a.StartsUnder others net c) ↔ KeepsAttached others net c inv (x :: as) := by
  constructor
  · intro hstarts
    exact ⟨fun a hmem _ hconnects => (hstarts a hmem).2 hconnects,
      fun a hlast _ => holder_run_of_startsUnder h hstarts hlast⟩
  · rintro ⟨hconnect, hrun⟩
    have hconnected : ∀ a ∈ x :: as, a.holder = some c → a.Connects others net c →
        (a.connected others net c).holder = some c := by
      intro a hmem hheld hconnects
      cases hc : c.connect? with
      | none => rw [connected_of_connect?_none hc, hheld]
      | some s => exact hconnect a hmem (by rw [hc]; rfl) hconnects
    -- A call on a worker leaves what the connect stage left; anything else is covered by `hrun`.
    have hheld := h.holder_eq rfl hx fun a hlast hheld _ => by
      by_cases hworker : c.timeout?.isSome = true ∧ a.Connects others net c
      · obtain ⟨s, hs⟩ := Option.isSome_iff_exists.1 hworker.1
        rw [holder_run_bounded hs]
        exact hconnected a (List.dropLast_subset _ hlast) hheld hworker.2
      · exact hrun a hlast hworker
    exact fun a hmem => ⟨hheld a hmem, hconnected a hmem (hheld a hmem)⟩

theorem startsUnder_iff_of_restores (hx : x.holder = some c)
    (hnet : ∀ s, c.connect? = some s → (s.ensureConnected net).Restores others none) :
    (∀ a ∈ x :: as, a.StartsUnder others net c) ↔
      c.timeout?.isSome = true ∨
        ∀ a ∈ (x :: as).dropLast, (a.run others (c.decorate net inv)).holder = some c := by
  constructor
  · exact fun hstarts => .inr fun a hlast => holder_run_of_startsUnder h hstarts hlast
  · intro hkept
    have hheld := h.holder_eq rfl hx fun a hlast hheld hfails => by
      rcases hkept with hbounded | hkept
      · obtain ⟨s, hs⟩ := Option.isSome_iff_exists.1 hbounded
        rw [holder_run_bounded hs, holder_connected hnet (isEnd_connected hfails), hheld]
      · exact hkept a hlast
    refine fun a hmem => ⟨hheld a hmem, fun hconnects => ?_⟩
    rw [holder_connected hnet (by rw [hconnects]; rfl), hheld a hmem]

end StartsUnder

/-- **The context of attempts.** All attempts of a request start under its derived context just if no
client code on its thread takes it away. With connectors that leave the thread as it was, that is so
for a bounded call whatever its body does, and for an unbounded one just if every attempt that is
followed by another leaves the context attached. -/
theorem startsUnder_attempts (net : Network σ) (r : Requester σ) (inv : Invocation σ) (h : Option Context)
    (w : World σ) :
    (∃ starts g, r.Attempts others net inv h w starts g) ∧
      ∀ starts g, r.Attempts others net inv h w starts g →
        (∀ a ∈ starts, a.Connects others net (r.derived inv h w) →
          a.RunsBodyUnder others net (r.derived inv h w) inv
            (a.connected others net (r.derived inv h w)).holder) ∧
          ((∀ a ∈ starts, a.StartsUnder others net (r.derived inv h w)) ↔
            KeepsAttached others net (r.derived inv h w) inv starts) ∧
          ((∀ s, (r.derived inv h w).connect? = some s → (s.ensureConnected net).Restores others none) →
            ((∀ a ∈ starts, a.StartsUnder others net (r.derived inv h w)) ↔
              (r.derived inv h w).timeout?.isSome = true ∨
                ∀ a ∈ starts.dropLast,
                  (a.run others (r.decorated net inv h w)).holder = some (r.derived inv h w))) := by
  obtain ⟨starts, g, ha, -, -⟩ := r.attempts_request h w
  refine ⟨⟨starts, g, ha⟩, fun starts g ha => ⟨fun a _ => runsBodyUnder_connected inv, ?_⟩⟩
  obtain ⟨retries, rfl, hseries, -⟩ := ha
  exact ⟨startsUnder_iff hseries rfl, startsUnder_iff_of_restores hseries rfl⟩

/-- A body that attaches a context, leaks its guard and fails. -/
def leakAndFail : Invocation Unit :=
  ⟨"getBlock", [], do
    let _ ← attach ⟨"leaked", []⟩
    return .error (.text "down")⟩

/-- Under a bound the body that leaks is retried under the derived context. -/
theorem startsUnder_bounded :
    let net : Network Unit := fun _ => ⟨return true, fun _ => return .ok ()⟩
    let r : Requester Unit := ⟨"client", 0, convertPlainly, []⟩
    let strategies : List Strategy :=
      [.timeout ⟨.ofNanos 5 (by decide), by decide⟩, .retry ⟨1, .zero, by decide⟩]
    ∃ starts g, r.Attempts nobody net leakAndFail (some ⟨"", strategies⟩) (World.start ()) starts g ∧
      ∀ a ∈ starts, a.StartsUnder nobody net ⟨"getBlock", strategies⟩ := by
  intro net r strategies
  obtain ⟨⟨starts, g, ha⟩, hall⟩ :=
    startsUnder_attempts net r leakAndFail (some ⟨"", strategies⟩) (World.start ())
  exact ⟨starts, g, ha, ((hall starts g ha).2.2 fun s hs => by cases hs).2 (.inl rfl)⟩

/-- Without a bound the retry finds the context that the first attempt leaked. -/
theorem startsUnder_leaking :
    let net : Network Unit := fun _ => ⟨return true, fun _ => return .ok ()⟩
    let r : Requester Unit := ⟨"client", 0, convertPlainly, []⟩
    let strategies : List Strategy := [.retry ⟨1, .zero, by decide⟩]
    ¬ ∀ starts g, r.Attempts nobody net leakAndFail (some ⟨"", strategies⟩) (World.start ()) starts g →
      ∀ a ∈ starts, a.StartsUnder nobody net ⟨"getBlock", strategies⟩ := by
  intro net r strategies hall
  obtain ⟨starts, g, ha, -, hfails⟩ := r.attempts_request (some ⟨"", strategies⟩) (World.start ())
  have hstarts := hall starts g ha
  obtain ⟨retries, rfl, hseries, -⟩ := ha
  cases hseries with
  | rest f es => cases hfails ⟨.text "down", rfl⟩
  | again es _ _ =>
    have hretry : some ⟨"leaked", []⟩ = some (⟨"getBlock", strategies⟩ : Context) :=
      (hstarts _ (List.mem_cons_of_mem _ List.mem_cons_self)).1
    have hscope : "leaked" = "getBlock" := congrArg Context.scope (Option.some.inj hretry)
    exact absurd hscope (by decide)

end ResilientCalls
