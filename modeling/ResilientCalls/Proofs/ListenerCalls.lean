import ResilientCalls.Proofs.EndingRequest
import ResilientCalls.Proofs.RetryEvents

/-!
# Listeners only listen

Each listener is called once for each event, in the order of registration, whatever the others do (`run_emitAll`). A
retry handler tells its listeners of events in the middle of its work: if they only return or panic, and the call does
not notice what else they do, then with any other such listeners the handler does the same
(`RetryHandler.unfoldsAlike_handle`). A requester tells its listeners when all is decided, so whatever they do then, it
has the same attempts, counters and result with any others (`Requester.decides_request`).
-/

namespace ResilientCalls

open Program

variable {σ α β ε : Type} {others : Others σ}

/-! ## Telling listeners -/

/-- These are run, one after the other and with nothing in between, and each of them returns or panics. -/
inductive Ran (others : Others σ) :
    List (Program σ Unit) → Option Context → World σ → Option Context → World σ → Prop
  | nothing {h : Option Context} {w : World σ} : Ran others [] h w h w
  | next {p : Program σ Unit} {ps : List (Program σ Unit)} {h h' : Option Context} {w w' : World σ} :
      (p.run others none h w).exit.isEnd = true →
        Ran others ps (p.run others none h w).holder (p.run others none h w).world h' w' →
          Ran others (p :: ps) h w h' w'

theorem Ran.append {ps qs : List (Program σ Unit)} {h h₁ h' : Option Context} {w w₁ w' : World σ}
    (hps : Ran others ps h w h₁ w₁) (hqs : Ran others qs h₁ w₁ h' w') : Ran others (ps ++ qs) h w h' w' := by
  induction hps with
  | nothing => exact hqs
  | next hend _ ih => exact .next hend (ih hqs)

theorem Heard.ran {event : ε} {ls : List (Listener σ ε)} {h h' : Option Context} {w w' : World σ}
    (hheard : Heard others event ls h w h' w') : Ran others (ls.map fun l => l event) h w h' w' := by
  induction hheard with
  | nobody => exact .nothing
  | next hend _ ih => exact .next hend ih

/-- Tells listeners, or a copy of the list, of one event after the other. -/
def emitAll (ls : List (Listener σ ε)) : List ε → Program σ Unit
  | [] => done ()
  | event :: events => (emit ls event).bind fun _ => emitAll ls events

theorem run_emitAll {ls : List (Listener σ ε)} (hls : ∀ l ∈ ls, ∀ event, (l event).Ends others) (events : List ε)
    (h : Option Context) (w : World σ) :
    ∃ h' w', (emitAll ls events).run others none h w = ⟨.value (), h', w'⟩ ∧
      Ran others (events.flatMap fun event => ls.map fun l => l event) h w h' w' := by
  induction events generalizing h w with
  | nil => exact ⟨h, w, rfl, .nothing⟩
  | cons event events ih =>
    obtain ⟨h₁, w₁, hfirst, hheard⟩ := exists_heard (fun l hl => hls l hl event) h w
    obtain ⟨h', w', hrest, hran⟩ := ih h₁ w₁
    refine ⟨h', w', ?_, hheard.ran.append hran⟩
    rw [emitAll, run_bind, hfirst, Final.andThen_of_value rfl, hrest]

/-! ## Retry handlers -/

/-- Shared states that differ only in what listeners may touch: no observation and no run of the call tells them apart,
and the counters are the same. -/
structure Unnoticed (others : Others σ) (inv : Invocation σ) (E : World σ → World σ → Prop) : Prop where
  equivalence : Equivalence E
  observe : ∀ {w w' : World σ} (e : Entry), E w w' → E (w.observe others e) (w'.observe others e)
  call : ∀ {w w' : World σ} (h : Option Context), E w w' →
    (inv.call.run others none h w').exit.end? = (inv.call.run others none h w).exit.end? ∧
      (inv.call.run others none h w').holder = (inv.call.run others none h w).holder ∧
      E (inv.call.run others none h w).world (inv.call.run others none h w').world
  tally : ∀ {w w' : World σ} (c : Counter), E w w' → w'.tally c = w.tally c

theorem Unnoticed.observeAll {inv : Invocation σ} {E : World σ → World σ → Prop} (hE : Unnoticed others inv E)
    (es : List Entry) {w w' : World σ} (hw : E w w') : E (w.observeAll others es) (w'.observeAll others es) := by
  induction es generalizing w w' with
  | nil => exact hw
  | cons e es ih => exact ih (hE.observe e hw)

/-- The listeners return or panic, and what else they do is not to be noticed. -/
def OnlyListen (others : Others σ) (E : World σ → World σ → Prop) (ls : List (Listener σ ε)) : Prop :=
  ∀ l ∈ ls, ∀ event h w, ((l event).run others none h w).exit.isEnd = true ∧
    ((l event).run others none h w).holder = h ∧ E w ((l event).run others none h w).world

theorem unnoticed_eq (inv : Invocation σ) : Unnoticed others inv Eq where
  equivalence := eq_equivalence
  observe := by rintro w _ e rfl; rfl
  call := by rintro w _ h rfl; exact ⟨rfl, rfl, rfl⟩
  tally := by rintro w _ c rfl; rfl

/-- From states that differ only in what listeners may touch both codes come to one value, leave the same context
attached, and make the same things happen. -/
def Program.UnfoldsAlike (others : Others σ) (ls ls' : List (Listener σ FailoverEvent)) (inv : Invocation σ)
    (E : World σ → World σ → Prop) (p p' : Program σ α) : Prop :=
  ∀ h w w', E w w' → ∃ xs a h₁ w₁ w₁', p.run others none h w = ⟨.value a, h₁, w₁⟩ ∧
    p'.run others none h w' = ⟨.value a, h₁, w₁'⟩ ∧ E w₁ w₁' ∧ Happens others ls inv xs h w h₁ w₁ ∧
    Happens others ls' inv xs h w' h₁ w₁'

section Alike

variable {inv : Invocation σ} {E : World σ → World σ → Prop} {ls ls' : List (Listener σ FailoverEvent)}

theorem Program.UnfoldsAlike.bind {p p' : Program σ α} {g g' : α → Program σ β}
    (hp : p.UnfoldsAlike others ls ls' inv E p') (hg : ∀ a, (g a).UnfoldsAlike others ls ls' inv E (g' a)) :
    (p.bind g).UnfoldsAlike others ls ls' inv E (p'.bind g') := by
  intro h w w' hw
  obtain ⟨xs, a, h₁, w₁, w₁', hrun, hrun', hw₁, hxs, hxs'⟩ := hp h w w' hw
  obtain ⟨ys, b, h₂, w₂, w₂', hrest, hrest', hw₂, hys, hys'⟩ := hg a h₁ w₁ w₁' hw₁
  refine ⟨xs ++ ys, b, h₂, w₂, w₂', ?_, ?_, hw₂, hxs.append hys, hxs'.append hys'⟩
  · rw [run_bind, hrun, Final.andThen_of_value rfl, hrest]
  · rw [run_bind, hrun', Final.andThen_of_value rfl, hrest']

variable (hE : Unnoticed others inv E)

include hE

theorem unfoldsAlike_of_observes {p : Program σ α} {es : List Entry} {a : α} (hp : p.Observes others es a) :
    p.UnfoldsAlike others ls ls' inv E p := by
  intro h w w' hw
  exact ⟨_, a, h, _, _, hp h w, hp h w', hE.observeAll es hw, happens_observeAll es h w, happens_observeAll es h w'⟩

theorem Heard.unnoticed {event : ε} {ls : List (Listener σ ε)} {h h' : Option Context} {w w' : World σ}
    (hheard : Heard others event ls h w h' w') (hls : OnlyListen others E ls) : h' = h ∧ E w w' := by
  induction hheard with
  | nobody => exact ⟨rfl, hE.equivalence.refl _⟩
  | next _ _ ih =>
    obtain ⟨hlast, hrest⟩ := ih fun l hl => hls l (List.mem_cons_of_mem _ hl)
    obtain ⟨-, hkept, hfirst⟩ := hls _ List.mem_cons_self _ _ _
    exact ⟨hlast.trans hkept, hE.equivalence.trans hfirst hrest⟩

theorem unfoldsAlike_emit (hls : OnlyListen others E ls) (hls' : OnlyListen others E ls') (event : FailoverEvent) :
    (emit ls event).UnfoldsAlike others ls ls' inv E (emit ls' event) := by
  intro h w w' hw
  obtain ⟨h₁, w₁, hrun, hheard⟩ := exists_heard (fun l hl => fun h w => (hls l hl event h w).1) h w
  obtain ⟨h₁', w₁', hrun', hheard'⟩ := exists_heard (fun l hl => fun h w => (hls' l hl event h w).1) h w'
  obtain ⟨rfl, hw₁⟩ := hheard.unnoticed hE hls
  obtain ⟨rfl, hw₁'⟩ := hheard'.unnoticed hE hls'
  have hlast : E w₁ w₁' := hE.equivalence.trans (hE.equivalence.symm hw₁) (hE.equivalence.trans hw hw₁')
  exact ⟨_, (), _, w₁, w₁', hrun, hrun', hlast, .told hheard .nothing, .told hheard' .nothing⟩

theorem unfoldsAlike_attempt (hcall : inv.call.Ends others) :
    inv.attempt.UnfoldsAlike others ls ls' inv E inv.attempt := by
  intro h w w' hw
  obtain ⟨outcome, houtcome⟩ := end?_of_isEnd (hcall h w)
  obtain ⟨hend, hholder, hworld⟩ := hE.call h hw
  have hrun : ∀ {w : World σ}, (inv.call.run others none h w).exit.end? = some outcome →
      inv.attempt.run others none h w =
        ⟨.value (inv.reply outcome), (inv.call.run others none h w).holder, (inv.call.run others none h w).world⟩ := by
    intro w houtcome
    have hexit : (inv.attempt.run others none h w).exit = .value (inv.reply outcome) := by
      apply eq_value_of_end?
      rw [end?_attempt, houtcome]
      rfl
    rw [← hexit, ← holder_attempt, ← world_attempt]
  refine ⟨[.invoked outcome], inv.reply outcome, _, _, _, hrun houtcome, ?_, hworld, .invoked houtcome .nothing, ?_⟩
  · rw [hrun (hend.trans houtcome), hholder]
  · rw [← hholder]
    exact .invoked (hend.trans houtcome) .nothing

variable {r : RetryHandler σ} (hcall : inv.call.Ends others) (hr : OnlyListen others E r.listeners)
  (hls : OnlyListen others E ls)

include hr hls

omit hcall in
theorem unfoldsAlike_conclude (scope : String) (reply : Reply) (attempts : Nat) :
    (r.conclude scope reply attempts).UnfoldsAlike others r.listeners ls inv E
      (RetryHandler.conclude { r with listeners := ls } scope reply attempts) := by
  cases reply with
  | ok v => exact (unfoldsAlike_of_observes hE (observes_count _)).bind fun _ => unfoldsAlike_emit hE hr hls _
  | error e =>
    exact (unfoldsAlike_of_observes hE (observes_log _)).bind fun _ =>
      (unfoldsAlike_of_observes hE (observes_count _)).bind fun _ => unfoldsAlike_emit hE hr hls _

include hcall

theorem unfoldsAlike_retryLoop (scope : String) (countdown attempts : Nat) (e : Failure) :
    (r.retryLoop scope inv countdown attempts e).UnfoldsAlike others r.listeners ls inv E
      (RetryHandler.retryLoop { r with listeners := ls } scope inv countdown attempts e) := by
  induction countdown generalizing attempts e with
  | zero => exact unfoldsAlike_of_observes hE (observes_done _)
  | succ countdown ih =>
    refine (unfoldsAlike_of_observes hE (observes_log _)).bind fun _ => ?_
    refine (unfoldsAlike_of_observes hE (observes_count _)).bind fun _ => ?_
    refine (unfoldsAlike_emit hE hr hls _).bind fun _ => ?_
    refine (unfoldsAlike_of_observes hE (observes_pause _)).bind fun _ => ?_
    refine (unfoldsAlike_attempt hE hcall).bind fun reply => ?_
    cases reply with
    | ok v => exact unfoldsAlike_of_observes hE (observes_done _)
    | error e => exact ih (attempts + 1) e

theorem RetryHandler.unfoldsAlike_handle (e : Failure) :
    (r.handle inv (.error e)).UnfoldsAlike others r.listeners ls inv E
      (RetryHandler.handle { r with listeners := ls } inv (.error e)) := by
  have hscope : (currentScope inv.name).UnfoldsAlike others r.listeners ls inv E (currentScope inv.name) :=
    fun h w w' hw => ⟨[], _, h, w, w', rfl, rfl, hw, .nothing, .nothing⟩
  refine hscope.bind fun scope => ?_
  refine (unfoldsAlike_retryLoop hE hcall hr hls scope r.count 0 e).bind fun out => ?_
  exact (unfoldsAlike_conclude hE hr hls scope out.1 out.2).bind fun _ =>
    unfoldsAlike_of_observes hE (observes_done out.1)

end Alike

/-! ## Requests -/

/-- A callback of a requester, for requests that end in one way. -/
inductive RequestCallback (σ : Type) : Type 1
  | onSuccess (f : Program σ Unit)
  | onRecovered (f : Program σ Unit)
  | onError (f : ErrorKind → Program σ Unit)

namespace RequestCallback

/-- What the callback runs for an event, if the event is of its class. -/
def code? : RequestCallback σ → RequestEvent → Option (Program σ Unit)
  | onSuccess f, .success _ => some f
  | onRecovered f, .recovered _ => some f
  | onError f, .error _ kind => some (f kind)
  | _, _ => none

/-- The callback as a listener, which does nothing for other events. -/
def listener (cb : RequestCallback σ) : Listener σ RequestEvent := fun event => (cb.code? event).getD (done ())

/-- The callback returns or panics. -/
def Ends (others : Others σ) (cb : RequestCallback σ) : Prop := ∀ event p, cb.code? event = some p → p.Ends others

theorem Ends.listener {cb : RequestCallback σ} (hcb : cb.Ends others) (event : RequestEvent) :
    (cb.listener event).Ends others := by
  unfold RequestCallback.listener
  cases hp : cb.code? event with
  | none => exact ends_done ()
  | some p => exact hcb event p hp

theorem ran_code {cbs : List (RequestCallback σ)} {event : RequestEvent} {h h' : Option Context} {w w' : World σ}
    (hran : Ran others ((cbs.map listener).map fun l => l event) h w h' w') :
    Ran others (cbs.filterMap fun cb => cb.code? event) h w h' w' := by
  induction cbs generalizing h w with
  | nil => exact hran
  | cons cb cbs ih =>
    obtain _ | ⟨hend, hrest⟩ := hran
    have hmore := ih hrest
    cases hp : cb.code? event with
    | none =>
      simp only [List.filterMap_cons, hp]
      simpa only [listener, hp, Option.getD_none, run_done] using hmore
    | some p =>
      simp only [List.filterMap_cons, hp]
      simp only [listener, hp, Option.getD_some] at hend hmore
      exact .next hend hmore

end RequestCallback

theorem Ran.tally_eq {ps : List (Program σ Unit)} {h h' : Option Context} {w w' : World σ} {c : Counter}
    (hran : Ran others ps h w h' w') (hps : ∀ p ∈ ps, ∀ h w, (p.run others none h w).world.tally c = w.tally c) :
    w'.tally c = w.tally c := by
  induction hran with
  | nothing => rfl
  | next _ _ ih =>
    exact (ih fun p hp => hps p (List.mem_cons_of_mem _ hp)).trans (hps _ List.mem_cons_self _ _)

/-- What is observed when a guard is released on a thread with `h` attached. -/
def Guard.released (h : Option Context) : List Entry := h.toList.map fun c => .traced (.released c.scope)

theorem run_release (g : Guard) (h : Option Context) (w : World σ) :
    g.release.run others none h w = ⟨.value (), g.previous, w.observeAll others (Guard.released h)⟩ := by
  cases h <;> rfl

theorem tally_released (c : Counter) (h : Option Context) (w : World σ) :
    (w.observeAll others (Guard.released h)).tally c = w.tally c := by
  cases h with
  | none => rfl
  | some context => simp [Guard.released, World.observeAll, World.observe, World.tally]

theorem user_released (h : Option Context) (w : World σ) : (w.observeAll others (Guard.released h)).user = w.user := by
  cases h <;> rfl

theorem run_ensuring_release {p : Program σ α} {g : Guard} {h : Option Context} {w : World σ} (q : Except Payload α)
    (h₁ : Option Context) (w₁ : World σ) (hp : (p.run others none h w).Same ((rethrow q).run others none h₁ w₁)) :
    ((p.ensuring g.release).run others none h w).Same
      ((rethrow q).run others none g.previous (w₁.observeAll others (Guard.released h₁))) := by
  obtain ⟨hend, hholder, hworld⟩ := hp
  rw [ensuring, bind_eq, run_bind, run_caught]
  generalize p.run others none h w = f at hend hholder hworld
  obtain ⟨exit, h₂, w₂⟩ := f
  cases q <;> cases exit <;> cases hend <;> cases hholder <;> cases hworld <;>
    exact .of_eq (by simp only [Final.caught, Final.andThen, bind_eq, run_bind, run_release])

namespace Requester

variable {net : Network σ} {r : Requester σ} {inv : Invocation σ} {h : Option Context} {w : World σ}

/-- The requester with other listeners. -/
def tells (r : Requester σ) (ls : List (Listener σ RequestEvent)) : Requester σ := { r with listeners := ls }

/-- Which event tells of a request that made a number of attempts, and what it returns. -/
inductive Announces (scope : String) : Nat → RequestEvent → Except RpcError String → Prop
  | success {v : String} : Announces scope 1 (.success scope) (.ok v)
  | recovered {retries : Nat} {v : String} : Announces scope (retries + 2) (.recovered scope) (.ok v)
  | error {attempts : Nat} {x : RpcError} : Announces scope attempts (.error scope x.kind) (.error x)

theorem exists_attempts (hnet : NetworkEnds others net) (hcall : inv.call.Ends others) :
    ∃ retries g reply, g.exit = .value reply ∧ ∀ ls, (r.tells ls).Attempts others net inv h w
      (r.firstAttempt others inv h w :: retries) g ∧
        (((r.tells ls).request net inv).run others none h w).Same
          (((r.tells ls).finish (r.derived inv h w) h retries.length reply).run others none g.holder g.world) := by
  obtain ⟨retries, g, hseries, -, -, hsame⟩ :
      ∃ retries g, Series others (r.decorated net inv h w) _ retries g ∧ _ ∧ _ ∧ _ :=
    r.attempts_execute (r.derived inv h w) (r.firstAttempt others inv h w)
  have hlast : ¬ g.Unwinds := hseries.not_unwinds (not_unwinds_attempt _ _)
  have hexecute := hsame.not_unwinds (Final.not_unwinds_andThen hlast fun reply h w => Final.not_unwinds_done _)
  obtain ⟨reply, hreply⟩ : ∃ reply, g.exit = .value reply := by
    have hends : (r.execute net (r.derived inv h w) inv).Ends others :=
      (closed_ends others).execute (fun i => (hnet i).1) (fun i => (hnet i).2) hcall
    obtain ⟨q, hq⟩ := end?_of_isEnd (hends (some (r.derived inv h w)) (r.firstAttempt others inv h w).world)
    have hdone := hsame.1.symm.trans hq
    obtain ⟨exit, holder, world⟩ := g
    cases exit with
    | value reply => exact ⟨reply, rfl⟩
    | unwound p => exact absurd ⟨p, rfl⟩ hlast
    | pending rest => cases hdone
  refine ⟨retries, g, reply, hreply, fun ls => ?_⟩
  have hrequest : (((r.tells ls).request net inv).run others none h w).Same
      (g.andThen others none ((r.tells ls).finish (r.derived inv h w) h retries.length)) := by
    rw [run_request]
    refine (same_ensuring hexecute).trans ?_
    exact hsame.bind
  exact ⟨⟨retries, rfl, hseries, hrequest⟩, Final.andThen_of_value hreply _ ▸ hrequest⟩

theorem run_tell {ls : List (Listener σ RequestEvent)} {event : RequestEvent}
    (hls : ∀ l ∈ ls, ∀ event, (l event).Ends others) (c : Counter) (result : Except RpcError String)
    (h : Option Context)
    (w : World σ) :
    ∃ h' w', Ran others (ls.map fun l => l event) h (w.observeAll others [.counted c]) h' w' ∧
      ((count c).bind fun _ => (emit ls event).bind fun _ => done result).run others none h w =
        ⟨.value result, h', w'⟩ := by
  obtain ⟨h', w', hrun, hheard⟩ := exists_heard (fun l hl => hls l hl event) h (w.observeAll others [.counted c])
  refine ⟨h', w', hheard.ran, ?_⟩
  rw [run_bind, observes_count, Final.andThen_of_value rfl, run_bind, hrun, Final.andThen_of_value rfl, run_done]

theorem decides_conclude (hconvert : ∀ e, (r.convert e).Ends others) (scope : String) (retries : Nat) (reply : Reply)
    (h : Option Context) (w : World σ) :
    (∃ p h' w', ∀ ls, ((r.tells ls).conclude scope (.ofReply retries reply)).run others none h w =
      ⟨.unwound p, h', w'⟩) ∨
    ∃ event result h₁ w₁, Announces scope (retries + 1) event result ∧
      ∀ ls, (r.tells ls).ListenersEnd others → ∃ h₂ w₂, Ran others (ls.map fun l => l event) h₁ w₁ h₂ w₂ ∧
        ((r.tells ls).conclude scope (.ofReply retries reply)).run others none h w = ⟨.value result, h₂, w₂⟩ := by
  cases reply with
  | ok v =>
    right
    cases retries with
    | zero => exact ⟨_, .ok v, h, _, .success, fun ls hls => run_tell hls (.requests scope .success) (.ok v) h w⟩
    | succ retries =>
      exact ⟨_, .ok v, h, _, .recovered, fun ls hls => run_tell hls (.requests scope .recovered) (.ok v) h w⟩
  | error e =>
    obtain ⟨q, hq⟩ := end?_of_isEnd (hconvert e h w)
    have hrun : ∀ ls, ((r.tells ls).conclude scope (.ofReply retries (.error e))).run others none h w =
        ((r.convert e).run others none h w).andThen others none fun x =>
          (log (.requestFailed r.name scope x.kind x.toFailure)).bind fun _ =>
            (count (.requests scope .error)).bind fun _ =>
              (emit ls (.error scope x.kind)).bind fun _ => done (.error x) := fun ls => run_bind ..
    generalize (r.convert e).run others none h w = f at hq hrun
    obtain ⟨exit, h₁, w₁⟩ := f
    cases exit with
    | unwound p => exact .inl ⟨p, h₁, w₁, hrun⟩
    | pending rest => cases hq
    | value x =>
      right
      let logged := w₁.observeAll others [.traced (.requestFailed r.name scope x.kind x.toFailure)]
      refine ⟨_, .error x, h₁, logged.observeAll others [.counted (.requests scope .error)], .error, fun ls hls => ?_⟩
      rw [hrun, Final.andThen_of_value rfl, run_bind, observes_log, Final.andThen_of_value rfl]
      exact run_tell hls (.requests scope .error) (.error x) h₁ logged

/-- The attempts of a request and what it returns are decided when its listeners hear of it, whoever they are; then
each of them is called once. If the conversion of a failure panics, none is called. -/
theorem decides_request (hnet : NetworkEnds others net) (hcall : inv.call.Ends others)
    (hconvert : ∀ e, (r.convert e).Ends others) (h : Option Context) (w : World σ) :
    ∃ starts g, (∀ ls, (r.tells ls).Attempts others net inv h w starts g) ∧
      ((∃ p w', ∀ ls, (((r.tells ls).request net inv).run others none h w).Same ⟨.unwound p, h, w'⟩) ∨
      ∃ event result h₁ w₁, Announces inv.name starts.length event result ∧
        ∀ ls, (r.tells ls).ListenersEnd others → ∃ h₂ w₂, Ran others (ls.map fun l => l event) h₁ w₁ h₂ w₂ ∧
          (((r.tells ls).request net inv).run others none h w).Same
            ⟨.value result, h, w₂.observeAll others (Guard.released h₂)⟩) := by
  obtain ⟨retries, g, reply, -, hall⟩ := r.exists_attempts (h := h) (w := w) hnet hcall
  refine ⟨_, g, fun ls => (hall ls).1, ?_⟩
  have hbody : ∀ ls, ((record (.sampled (r.derived inv h w).scope)).bind fun _ =>
      (r.tells ls).conclude (r.derived inv h w).scope (.ofReply retries.length reply)).run others none g.holder
        g.world =
        ((r.tells ls).conclude inv.name (.ofReply retries.length reply)).run others none g.holder
          (g.world.observeAll others [.sampled inv.name]) := fun ls => by
    rw [run_bind, observes_sampled, Final.andThen_of_value rfl]
    rfl
  rcases r.decides_conclude hconvert inv.name retries.length reply g.holder
    (g.world.observeAll others [.sampled inv.name]) with
    ⟨p, h₁, w₁, hpanics⟩ | ⟨event, result, h₁, w₁, hannounces, htold⟩
  · refine .inl ⟨p, _, fun ls => (hall ls).2.trans (run_ensuring_release (.error p) h₁ w₁ ?_)⟩
    exact .of_eq ((hbody ls).trans (hpanics ls))
  · refine .inr ⟨event, result, h₁, w₁, hannounces, fun ls hls => ?_⟩
    obtain ⟨h₂, w₂, hran, hrun⟩ := htold ls hls
    refine ⟨h₂, w₂, hran, (hall ls).2.trans (run_ensuring_release (.ok result) h₂ w₂ ?_)⟩
    exact .of_eq ((hbody ls).trans hrun)

end Requester

/-! ## The account of listeners -/

/-- With these listeners instead of its own a handler does the same. -/
structure RetryHandler.Unswayed (others : Others σ) (inv : Invocation σ) (E : World σ → World σ → Prop)
    (r : RetryHandler σ) (ls : List (Listener σ FailoverEvent)) : Prop where
  success : ∀ v, RetryHandler.handle { r with listeners := ls } inv (.ok v) = r.handle inv (.ok v)
  /-- The reply is the same, and so are the attempts, their order, the pauses and all that is counted and told. -/
  failure : ∀ e h w, ∃ xs reply h' w₁ w₂, (r.handle inv (.error e)).run others none h w = ⟨.value reply, h', w₁⟩ ∧
    (RetryHandler.handle { r with listeners := ls } inv (.error e)).run others none h w = ⟨.value reply, h', w₂⟩ ∧
    Happens others r.listeners inv xs h w h' w₁ ∧ Happens others ls inv xs h w h' w₂ ∧ E w₁ w₂ ∧
    ∀ c, w₂.tally c = w₁.tally c

namespace Requester

/-- The requester with these callbacks instead of its own. -/
def calls (r : Requester σ) (cbs : List (RequestCallback σ)) : Requester σ := r.tells (cbs.map RequestCallback.listener)

/-- How a request ends, whichever callbacks its requester has. -/
inductive Unswayed (others : Others σ) (net : Network σ) (r : Requester σ) (inv : Invocation σ) (h : Option Context)
    (w : World σ) (attempts : Nat) : Prop
  /-- The conversion of its failure panics, and no callback is run. -/
  | panicked {p : Payload} {w' : World σ} :
      (∀ cbs, (((r.calls cbs).request net inv).run others none h w).Same ⟨.unwound p, h, w'⟩) →
        Unswayed others net r inv h w attempts
  /-- It is settled what it returns and what is counted, and then the callbacks of the class that fits are run. -/
  | told {event : RequestEvent} {result : Except RpcError String} (h₁ : Option Context) (w₁ : World σ) :
      Announces inv.name attempts event result →
        (∀ cbs, (∀ cb ∈ cbs, cb.Ends others) → ∃ h₂ w₂ w',
          (((r.calls cbs).request net inv).run others none h w).Same ⟨.value result, h, w'⟩ ∧
          Ran others (cbs.filterMap fun cb => cb.code? event) h₁ w₁ h₂ w₂ ∧
          w' = w₂.observeAll others (Guard.released h₂) ∧
          ∀ c, (∀ p ∈ cbs.filterMap fun cb => cb.code? event, ∀ h w,
              (p.run others none h w).world.tally c = w.tally c) →
            w'.tally c = w₁.tally c) → Unswayed others net r inv h w attempts

end Requester

/-- **Listeners change nothing.** Of listeners that return or panic each one is called once for each event, in the
order of registration, and no panic gets out. With any other listeners that only return or panic, or do more that the
call does not notice, a retry handler returns the same reply after the same attempts with the same pauses and counters.
So does a request with any other callbacks, and it runs once each, in order, those of the class that fits how it
ended. -/
theorem listeners_change_nothing {net : Network σ} {inv : Invocation σ} (hnet : NetworkEnds others net)
    (hcall : inv.call.Ends others) :
    (∀ (ε : Type) (ls : List (Listener σ ε)), (∀ l ∈ ls, ∀ event, (l event).Ends others) → ∀ events h w, ∃ h' w',
      (emitAll ls events).run others none h w = ⟨.value (), h', w'⟩ ∧
      Ran others (events.flatMap fun event => ls.map fun l => l event) h w h' w') ∧
    Unnoticed others inv Eq ∧
    (∀ (r : RetryHandler σ) ls E, Unnoticed others inv E → OnlyListen others E r.listeners → OnlyListen others E ls →
      r.Unswayed others inv E ls) ∧
    ∀ r : Requester σ, (∀ e, (r.convert e).Ends others) → ∀ h w, ∃ starts g,
      (∀ cbs, (r.calls cbs).Attempts others net inv h w starts g) ∧ r.Unswayed others net inv h w starts.length := by
  refine ⟨fun ε ls hls => run_emitAll hls, unnoticed_eq inv,
    fun r ls E hE hr hls => ⟨fun v => rfl, fun e h w => ?_⟩, fun r hconvert h w => ?_⟩
  · obtain ⟨xs, reply, h', w₁, w₂, hrun, hrun', hw, hxs, hxs'⟩ :=
      RetryHandler.unfoldsAlike_handle hE hcall hr hls e h w w (hE.equivalence.refl w)
    exact ⟨xs, reply, h', w₁, w₂, hrun, hrun', hxs, hxs', hw, fun c => hE.tally c hw⟩
  · obtain ⟨starts, g, hattempts, hend⟩ := r.decides_request hnet hcall hconvert h w
    refine ⟨starts, g, fun cbs => hattempts _, ?_⟩
    rcases hend with ⟨p, w', hpanics⟩ | ⟨event, result, h₁, w₁, hannounces, htold⟩
    · exact .panicked fun cbs => hpanics _
    refine .told h₁ w₁ hannounces fun cbs hcbs => ?_
    obtain ⟨h₂, w₂, hran, hsame⟩ := htold (cbs.map RequestCallback.listener) fun l hl => by
      obtain ⟨cb, hcb, rfl⟩ := List.mem_map.1 hl
      exact (hcbs cb hcb).listener
    have hcode := RequestCallback.ran_code hran
    exact ⟨h₂, w₂, _, hsame, hcode, rfl, fun c hc => (tally_released c h₂ w₂).trans (hcode.tally_eq hc)⟩

/-- A call panics at first, and of the callbacks of each kind some panic, too. A request recovers the call in its second
attempt and runs the two callbacks for that, one that panics and one that counts. -/
theorem listeners_change_nothing_panicking :
    let bug : Program (Nat × Nat) Unit := unwind (.text "listener bug")
    let counts : Program (Nat × Nat) Unit := changeUser fun u => (u.1, u.2 + 1)
    let inv : Invocation (Nat × Nat) := ⟨"getBlock", [],
      (perform (.user fun u => (u.1 + 1, u.2))).bind fun u =>
        if u.1 = 0 then unwind (.text "boom") else done (.ok "0x01")⟩
    let net : Network (Nat × Nat) := fun _ => ⟨return true, fun _ => return .ok ()⟩
    let handler : RetryHandler (Nat × Nat) :=
      ⟨3, .fixed .zero, 2, "just-retry", [fun _ => bug, fun _ => counts]⟩
    let E : World (Nat × Nat) → World (Nat × Nat) → Prop := fun w w' => ∃ n, w' = { w with user := (w.user.1, n) }
    let r : Requester (Nat × Nat) := ⟨"requester", 0, convertPlainly, []⟩
    let cbs : List (RequestCallback (Nat × Nat)) :=
      [.onSuccess bug, .onRecovered bug, .onError fun _ => bug, .onRecovered counts]
    let c : Context := ⟨"client", [.retry ⟨1, .zero, by decide⟩]⟩
    NetworkEnds nobody net ∧ inv.call.Ends nobody ∧
      (∃ h' w', (emitAll handler.listeners [.retry "client" 1 .zero, .success "client" 1]).run nobody none none
          (World.start (0, 0)) = ⟨.value (), h', w'⟩ ∧
        Ran nobody [bug, counts, bug, counts] none (World.start (0, 0)) h' w') ∧
      Unnoticed nobody inv E ∧ OnlyListen nobody E handler.listeners ∧ handler.Unswayed nobody inv E [] ∧
      ∃ h₁ w₁ h₂ w₂ w' v, (((r.calls cbs).request net inv).run nobody none (some c) (World.start (0, 0))).Same
          ⟨.value (.ok v), some c, w'⟩ ∧ w'.user = (2, 1) ∧ Ran nobody [bug, counts] h₁ w₁ h₂ w₂ := by
  intro bug counts inv net handler E r cbs c
  have hnet : NetworkEnds nobody net := fun _ => ⟨fun _ _ => rfl, fun _ _ _ => rfl⟩
  have hcall : inv.call.Ends nobody := fun h w => by
    by_cases hw : w.user.1 = 0 <;> simp [inv, perform, Program.bind, run_act, Action.step, hw, Exit.isEnd]
  have hlisteners : OnlyListen nobody E handler.listeners := by
    simp only [OnlyListen, handler, List.forall_mem_cons, List.not_mem_nil, false_implies, implies_true, and_true]
    exact ⟨fun _ h w => ⟨rfl, rfl, w.user.2, rfl⟩, fun _ h w => ⟨rfl, rfl, w.user.2 + 1, rfl⟩⟩
  have hunnoticed : Unnoticed nobody inv E := by
    refine ⟨⟨fun w => ⟨w.user.2, rfl⟩, ?_, ?_⟩, ?_, ?_, ?_⟩
    · rintro w _ ⟨n, rfl⟩
      exact ⟨w.user.2, rfl⟩
    · rintro w _ _ ⟨n, rfl⟩ ⟨m, rfl⟩
      exact ⟨m, rfl⟩
    · rintro w _ e ⟨n, rfl⟩
      exact ⟨n, by cases e <;> rfl⟩
    · rintro w _ h ⟨n, rfl⟩
      by_cases hw : w.user.1 = 0 <;> simp [inv, E, perform, Program.bind, run_act, Action.step, hw]
    · rintro w _ counter ⟨n, rfl⟩
      rfl
  have hcbs : ∀ cb ∈ cbs, cb.Ends nobody := by
    rintro cb hcb event p hp h w
    simp only [cbs, List.mem_cons, List.not_mem_nil, or_false] at hcb
    rcases hcb with rfl | rfl | rfl | rfl <;> cases event <;> cases hp <;> rfl
  obtain ⟨hemit, -, hhandler, hrequest⟩ := listeners_change_nothing hnet hcall
  refine ⟨hnet, hcall, hemit _ handler.listeners (fun l hl event h w => (hlisteners l hl event h w).1) _ _ _,
    hunnoticed, hlisteners, hhandler handler [] E hunnoticed hlisteners (List.forall_mem_nil _), ?_⟩
  obtain ⟨starts, g, -, hends⟩ := hrequest r (fun _ _ _ => rfl) (some c) (World.start (0, 0))
  have hnone : (((r.calls []).request net inv).run nobody none (some c) (World.start (0, 0))).world.user = (2, 0) := by
    decide +kernel
  have hsome : (((r.calls cbs).request net inv).run nobody none (some c) (World.start (0, 0))).world.user = (2, 1) := by
    decide +kernel
  generalize starts.length = attempts at hends
  cases hends with
  | panicked hall =>
    rw [(hall []).2.2] at hnone
    rw [(hall cbs).2.2, hnone] at hsome
    cases hsome
  | @told event result h₁ w₁ hannounces hall =>
    obtain ⟨_, _, _, hquiet, hran, rfl, -⟩ := hall [] (List.forall_mem_nil _)
    cases hran
    rw [hquiet.2.2, user_released] at hnone
    obtain ⟨h₂, w₂, _, hsame, hran, rfl, -⟩ := hall cbs hcbs
    rw [hsame.2.2, user_released] at hsome
    -- Only the callbacks for a recovered call count.
    have hbug : ¬ Ran nobody [bug] h₁ w₁ h₂ w₂ := by
      rintro (_ | ⟨-, _ | -⟩)
      cases hnone.symm.trans hsome
    cases hannounces with
    | success => exact absurd hran hbug
    | error => exact absurd hran hbug
    | recovered => exact ⟨h₁, w₁, h₂, w₂, _, _, hsame, (user_released _ _).trans hsome, hran⟩

end ResilientCalls
