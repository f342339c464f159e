import ResilientCalls.Proofs.Attempts

/-!
# What a retry handler does and tells

A retry handler that is handed a failure makes a row of things happen: it observes, tells its listeners, and makes the
call. `Happens` ties such a row to the states of the thread, whatever the listeners and the call do meanwhile, and
`Program.Unfolds` says of code that its whole run is such a row. So a loop of retries unfolds into one round for each
attempt and a closing (`unfolds_retryLoop`, `unfolds_conclude`), which is what callers observe of a handler
(`RetryHandler.recounts_failure`).
-/

namespace ResilientCalls

open Program

variable {σ α β ε : Type} {others : Others σ} {inv : Invocation σ}

/-! ## What happens on a thread -/

/-- What a retry handler makes happen. -/
inductive Happening
  /-- It adds an observation to the journal; a pause takes its time. -/
  | observed (entry : Entry)
  /-- It tells its listeners of an event. -/
  | told (event : FailoverEvent)
  /-- It makes the call once. -/
  | invoked (outcome : Except Payload Reply)

namespace Happening

/-- Whether the listeners or the call have a part in it. -/
def isHeard : Happening → Bool
  | observed _ => false
  | told _ | invoked _ => true

/-- The counter that grows. -/
def counter? : Happening → Option Counter
  | observed (.counted c) => some c
  | _ => none

/-- What the call comes to. -/
def outcome? : Happening → Option (Except Payload Reply)
  | invoked outcome => some outcome
  | _ => none

/-- The pause that is made. -/
def pause? : Happening → Option Duration
  | observed (.paused d) => some d
  | _ => none

end Happening

/-- The listeners hear of an event, one after the other, and each of them returns or panics. -/
inductive Heard (others : Others σ) (event : ε) :
    List (Listener σ ε) → Option Context → World σ → Option Context → World σ → Prop
  | nobody {h : Option Context} {w : World σ} : Heard others event [] h w h w
  | next {l : Listener σ ε} {ls : List (Listener σ ε)} {h h' : Option Context} {w w' : World σ} :
      ((l event).run others none h w).exit.isEnd = true →
        Heard others event ls ((l event).run others none h w).holder ((l event).run others none h w).world h' w' →
          Heard others event (l :: ls) h w h' w'

/-- These things happen on a thread, one after the other and with nothing in between. -/
inductive Happens (others : Others σ) (ls : List (Listener σ FailoverEvent)) (inv : Invocation σ) :
    List Happening → Option Context → World σ → Option Context → World σ → Prop
  | nothing {h : Option Context} {w : World σ} : Happens others ls inv [] h w h w
  | observed {e : Entry} {xs : List Happening} {h h' : Option Context} {w w' : World σ} :
      Happens others ls inv xs h (w.observe others e) h' w' → Happens others ls inv (.observed e :: xs) h w h' w'
  | told {event : FailoverEvent} {xs : List Happening} {h h₁ h' : Option Context} {w w₁ w' : World σ} :
      Heard others event ls h w h₁ w₁ → Happens others ls inv xs h₁ w₁ h' w' →
        Happens others ls inv (.told event :: xs) h w h' w'
  | invoked {outcome : Except Payload Reply} {xs : List Happening} {h h' : Option Context} {w w' : World σ} :
      (inv.call.run others none h w).exit.end? = some outcome →
        Happens others ls inv xs (inv.call.run others none h w).holder (inv.call.run others none h w).world h' w' →
          Happens others ls inv (.invoked outcome :: xs) h w h' w'

variable {ls : List (Listener σ FailoverEvent)}

theorem Happens.append {xs ys : List Happening} {h h₁ h' : Option Context} {w w₁ w' : World σ}
    (hxs : Happens others ls inv xs h w h₁ w₁) (hys : Happens others ls inv ys h₁ w₁ h' w') :
    Happens others ls inv (xs ++ ys) h w h' w' := by
  induction hxs with
  | nothing => exact hys
  | observed _ ih => exact .observed (ih hys)
  | told hheard _ ih => exact .told hheard (ih hys)
  | invoked hend _ ih => exact .invoked hend (ih hys)

theorem happens_observeAll (es : List Entry) (h : Option Context) (w : World σ) :
    Happens others ls inv (es.map .observed) h w h (w.observeAll others es) := by
  induction es generalizing w with
  | nil => exact .nothing
  | cons e es ih => exact .observed (ih _)

/-! ## Code that unfolds -/

/-- From every state the code comes to a value, and on the way makes a row of things happen; the row and the value are
of this kind. -/
def Program.Unfolds (others : Others σ) (ls : List (Listener σ FailoverEvent)) (inv : Invocation σ) (p : Program σ α)
    (good : List Happening → α → Prop) : Prop :=
  ∀ h w, ∃ xs a h' w', p.run others none h w = ⟨.value a, h', w'⟩ ∧ Happens others ls inv xs h w h' w' ∧ good xs a

theorem Program.Unfolds.mono {p : Program σ α} {good good' : List Happening → α → Prop}
    (hp : p.Unfolds others ls inv good) (hgood : ∀ xs a, good xs a → good' xs a) : p.Unfolds others ls inv good' := by
  intro h w
  obtain ⟨xs, a, h', w', hrun, hxs, ha⟩ := hp h w
  exact ⟨xs, a, h', w', hrun, hxs, hgood xs a ha⟩

theorem Program.Unfolds.bind {p : Program σ α} {g : α → Program σ β} {first : List Happening → α → Prop}
    {good : List Happening → β → Prop} (hp : p.Unfolds others ls inv first)
    (hg : ∀ xs a, first xs a → (g a).Unfolds others ls inv fun ys b => good (xs ++ ys) b) :
    (p.bind g).Unfolds others ls inv good := by
  intro h w
  obtain ⟨xs, a, h₁, w₁, hrun, hxs, ha⟩ := hp h w
  obtain ⟨ys, b, h', w', hrest, hys, hb⟩ := hg xs a ha h₁ w₁
  exact ⟨xs ++ ys, b, h', w', by rw [run_bind, hrun, Final.andThen_of_value rfl, hrest], hxs.append hys, hb⟩

theorem unfolds_of_observes {p : Program σ α} {es : List Entry} {a : α} (hp : p.Observes others es a) :
    p.Unfolds others ls inv fun xs b => xs = es.map .observed ∧ b = a :=
  fun h w => ⟨_, a, h, _, hp h w, happens_observeAll es h w, rfl, rfl⟩

theorem Program.Unfolds.after {p : Program σ α} {g : α → Program σ β} {es : List Entry} {a : α}
    {good : List Happening → β → Prop} (hp : p.Observes others es a)
    (hg : (g a).Unfolds others ls inv fun ys b => good (es.map .observed ++ ys) b) :
    (p.bind g).Unfolds others ls inv good := by
  refine (unfolds_of_observes hp).bind ?_
  rintro xs b ⟨rfl, rfl⟩
  exact hg

theorem exists_heard {ls : List (Listener σ ε)} {event : ε} (hls : ∀ l ∈ ls, (l event).Ends others)
    (h : Option Context) (w : World σ) :
    ∃ h' w', (emit ls event).run others none h w = ⟨.value (), h', w'⟩ ∧ Heard others event ls h w h' w' := by
  induction ls generalizing h w with
  | nil => exact ⟨h, w, rfl, .nobody⟩
  | cons l ls ih =>
    have hend := hls l List.mem_cons_self h w
    obtain ⟨h', w', hrest, hheard⟩ := ih (fun l' hl' => hls l' (List.mem_cons_of_mem l hl'))
      ((l event).run others none h w).holder ((l event).run others none h w).world
    refine ⟨h', w', ?_, .next hend hheard⟩
    rw [emit, bind_eq, run_bind, run_caught, ← hrest]
    generalize (l event).run others none h w = f at hend
    obtain ⟨exit, h₁, w₁⟩ := f
    cases exit with
    | value u => rfl
    | unwound p => rfl
    | pending rest => cases hend

theorem unfolds_emit {event : FailoverEvent} (hls : ∀ l ∈ ls, (l event).Ends others) :
    (emit ls event).Unfolds others ls inv fun xs _ => xs = [.told event] := by
  intro h w
  obtain ⟨h', w', hrun, hheard⟩ := exists_heard hls h w
  exact ⟨_, (), h', w', hrun, .told hheard .nothing, rfl⟩

theorem unfolds_attempt (hcall : inv.call.Ends others) :
    inv.attempt.Unfolds others ls inv fun xs reply =>
      ∃ outcome, xs = [.invoked outcome] ∧ reply = inv.reply outcome := by
  intro h w
  obtain ⟨outcome, houtcome⟩ := end?_of_isEnd (hcall h w)
  refine ⟨_, inv.reply outcome, _, _, ?_, .invoked houtcome .nothing, outcome, rfl, rfl⟩
  have hexit : (inv.attempt.run others none h w).exit = .value (inv.reply outcome) := by
    apply eq_value_of_end?
    rw [end?_attempt, houtcome]
    rfl
  rw [← hexit, ← holder_attempt, ← world_attempt]

/-! ## Rounds of a retry handler -/

namespace RetryHandler

/-- A retry: what comes before it, and its call. -/
def round (r : RetryHandler σ) (scope : String) (attempts : Nat) (outcome : Except Payload Reply) : List Happening :=
  [.observed (.traced (.retrying r.name scope (attempts + 1) (r.count - (attempts + 1)) (r.pacing.pause attempts))),
    .observed (.counted (.retries scope)), .told (.retry scope (attempts + 1) (r.pacing.pause attempts))] ++
      ((r.pacing.pause attempts).pauses.map .observed ++ [.invoked outcome])

/-- Retries in a row, from a number of them on. -/
def rounds (r : RetryHandler σ) (scope : String) (attempts : Nat) (outcomes : List (Except Payload Reply)) :
    List Happening :=
  (outcomes.zipIdx attempts).flatMap fun x => r.round scope x.2 x.1

/-- The event at the end of the retries. -/
def closingEvent (scope : String) (attempts : Nat) : Reply → FailoverEvent
  | .ok _ => .success scope attempts
  | .error _ => .exhausted scope attempts

/-- What follows the last retry. -/
def closing (r : RetryHandler σ) (scope : String) (attempts : Nat) (reply : Reply) : List Happening :=
  (match reply with
    | .ok _ => []
    | .error _ => [.observed (.traced (.exhausted r.name scope attempts))]) ++
    [.observed (.counted (.failovers scope reply.isOk)), .told (closingEvent scope attempts reply)]

end RetryHandler

/-- The call comes to these outcomes, up to the first success or to a number of them; the last one is the reply, or
the failure that was there before. -/
inductive Invocation.Tried (inv : Invocation σ) : Nat → Failure → List (Except Payload Reply) → Reply → Prop
  | spent {e : Failure} : Tried inv 0 e [] (.error e)
  | success {n : Nat} {e : Failure} {outcome : Except Payload Reply} {v : String} : inv.reply outcome = .ok v →
      Tried inv (n + 1) e [outcome] (.ok v)
  | failure {n : Nat} {e e' : Failure} {outcome : Except Payload Reply} {outcomes : List (Except Payload Reply)}
      {reply : Reply} : inv.reply outcome = .error e' → Tried inv n e' outcomes reply →
        Tried inv (n + 1) e (outcome :: outcomes) reply

section Unfolding

variable {r : RetryHandler σ} {scope : String}

theorem unfolds_retryLoop (hls : ∀ l ∈ r.listeners, ∀ event, (l event).Ends others) (hcall : inv.call.Ends others)
    {countdown attempts : Nat} (hcount : countdown + attempts = r.count) (e : Failure) :
    (r.retryLoop scope inv countdown attempts e).Unfolds others r.listeners inv fun xs out =>
      ∃ outcomes, inv.Tried countdown e outcomes out.1 ∧ out.2 = attempts + outcomes.length ∧
        xs = r.rounds scope attempts outcomes := by
  induction countdown generalizing attempts e with
  | zero =>
    refine (unfolds_of_observes (observes_done _)).mono ?_
    rintro xs out ⟨hxs, rfl⟩
    exact ⟨[], .spent, rfl, hxs⟩
  | succ countdown ih =>
    obtain rfl : countdown = r.count - (attempts + 1) := by omega
    -- One round: what is observed and told before the retry, the pause, and the attempt itself.
    refine .after (observes_log _) (.after (observes_count _) ?_)
    refine (unfolds_emit fun l hl => hls l hl _).bind fun _ _ htold => htold ▸ .after (observes_pause _) ?_
    refine (unfolds_attempt hcall).bind ?_
    rintro _ reply ⟨outcome, rfl, hreply⟩
    have hround : ∀ {outcomes : List (Except Payload Reply)},
        r.rounds scope attempts (outcome :: outcomes) =
          r.round scope attempts outcome ++ r.rounds scope (attempts + 1) outcomes := by
      intro outcomes
      rw [RetryHandler.rounds, List.zipIdx_cons, List.flatMap_cons, RetryHandler.rounds]
    cases reply with
    | ok v =>
      refine (unfolds_of_observes (observes_done _)).mono ?_
      rintro ys out ⟨rfl, rfl⟩
      exact ⟨[outcome], .success hreply.symm, rfl, by simp [RetryHandler.round, RetryHandler.rounds]⟩
    | error e' =>
      refine (ih (by omega) e').mono ?_
      rintro ys out ⟨outcomes, htried, hout, rfl⟩
      refine ⟨outcome :: outcomes, .failure hreply.symm htried, ?_, by simp [hround, RetryHandler.round]⟩
      rw [hout, List.length_cons]
      omega

theorem unfolds_conclude (hls : ∀ l ∈ r.listeners, ∀ event, (l event).Ends others) (reply : Reply) (attempts : Nat) :
    (r.conclude scope reply attempts).Unfolds others r.listeners inv fun xs _ =>
      xs = r.closing scope attempts reply := by
  cases reply with
  | ok v =>
    refine .after (observes_count _) ((unfolds_emit fun l hl => hls l hl _).mono ?_)
    rintro _ _ rfl
    rfl
  | error e =>
    refine .after (observes_log _) (.after (observes_count _) ((unfolds_emit fun l hl => hls l hl _).mono ?_))
    rintro _ _ rfl
    rfl

end Unfolding

/-! ## Outcomes in sequence -/

/-- How many outcomes there are up to the first success, or `n` if none of the first `n` is one. -/
def Invocation.firstSuccess (inv : Invocation σ) (o : Nat → Except Payload Reply) (n : Nat) : Nat :=
  ((List.range n).find? fun i => (inv.reply (o i)).isOk).elim n (· + 1)

theorem firstSuccess_succ (o : Nat → Except Payload Reply) (n : Nat) :
    inv.firstSuccess o (n + 1) =
      if (inv.reply (o 0)).isOk then 1 else inv.firstSuccess (fun i => o (i + 1)) n + 1 := by
  rw [Invocation.firstSuccess, List.range_succ_eq_map, List.find?_cons, List.find?_map]
  split
  · simp_all
  · rw [if_neg (by simp_all), Invocation.firstSuccess, Function.comp_def]
    cases (List.range n).find? fun i => (inv.reply (o (i + 1))).isOk <;> rfl

theorem firstSuccess_pos (o : Nat → Except Payload Reply) {n : Nat} (hn : 0 < n) : 0 < inv.firstSuccess o n := by
  cases n with
  | zero => exact hn
  | succ n =>
    rw [firstSuccess_succ]
    split
    · exact Nat.one_pos
    · exact Nat.succ_pos _

namespace Invocation.Tried

variable {n : Nat} {e : Failure} {outcomes : List (Except Payload Reply)} {reply : Reply}

theorem eq_firstSuccess (ht : inv.Tried n e outcomes reply) {o : Nat → Except Payload Reply}
    (ho : ∀ i outcome, outcomes[i]? = some outcome → outcome = o i) :
    outcomes = (List.range (inv.firstSuccess o n)).map o := by
  induction ht generalizing o with
  | spent => rfl
  | success hok =>
    obtain rfl := ho 0 _ rfl
    rw [firstSuccess_succ, if_pos (by rw [hok]; rfl)]
    rfl
  | failure herror _ ih =>
    obtain rfl := ho 0 _ rfl
    rw [firstSuccess_succ, if_neg (by rw [herror]; exact Bool.false_ne_true), List.range_succ_eq_map, List.map_cons,
      List.map_map]
    exact congrArg _ (ih fun i outcome hi => ho (i + 1) outcome hi)

theorem eq_reply (ht : inv.Tried n e outcomes reply) :
    reply = (outcomes.getLast?.map inv.reply).getD (.error e) := by
  induction ht with
  | spent => rfl
  | success hok => exact hok.symm
  | @failure n e e' outcome outcomes reply herror _ ih =>
    rw [ih, List.getLast?_cons]
    cases outcomes.getLast? with
    | none => exact herror.symm
    | some last => rfl

end Invocation.Tried

/-! ## What a handler makes of a failure -/

/-- The call keeps count of itself in the shared state, and comes to the outcomes of a sequence in order. -/
structure Invocation.Plays (others : Others σ) (ls : List (Listener σ FailoverEvent)) (inv : Invocation σ)
    (count : World σ → Nat) (o : Nat → Except Payload Reply) : Prop where
  outcome : ∀ h w, (inv.call.run others none h w).exit.end? = some (o (count w))
  counts : ∀ h w, count (inv.call.run others none h w).world = count w + 1
  observe : ∀ e w, count (w.observe others e) = count w
  listeners : ∀ l ∈ ls, ∀ event h w, count ((l event).run others none h w).world = count w

/-- How often the journal says that a counter grew. -/
def World.tally (c : Counter) (w : World σ) : Nat :=
  w.journal.countP fun
    | .counted c' => c' = c
    | _ => false

/-- Neither the call nor the listeners nor other threads make the counter grow. -/
structure LeavesAlone (others : Others σ) (ls : List (Listener σ FailoverEvent)) (inv : Invocation σ) (c : Counter) :
    Prop where
  waits : ∀ stop limit w, (others stop limit w).tally c = w.tally c
  call : ∀ h w, (inv.call.run others none h w).world.tally c = w.tally c
  listeners : ∀ l ∈ ls, ∀ event h w, ((l event).run others none h w).world.tally c = w.tally c

section Tally

variable {c : Counter}

theorem tally_observe (hwaits : ∀ stop limit w, (others stop limit w).tally c = w.tally c) (w : World σ) (e : Entry) :
    (w.observe others e).tally c = w.tally c + ([.observed e].filterMap Happening.counter?).count c := by
  cases e with
  | counted c' => by_cases hc : c' = c <;> simp [World.observe, World.tally, Happening.counter?, hc]
  | paused d =>
    rw [World.observe, hwaits]
    simp [World.tally, List.filterMap_cons, Happening.counter?]
  | sampled | traced | noted => simp [World.observe, World.tally, List.filterMap_cons, Happening.counter?]

theorem Heard.measure_eq {measure : World σ → Nat} {event : FailoverEvent} {h h' : Option Context} {w w' : World σ}
    (hheard : Heard others event ls h w h' w')
    (hls : ∀ l ∈ ls, ∀ event h w, measure ((l event).run others none h w).world = measure w) :
    measure w' = measure w := by
  induction hheard with
  | nobody => rfl
  | next _ _ ih =>
    exact (ih fun l hl => hls l (List.mem_cons_of_mem _ hl)).trans (hls _ List.mem_cons_self _ _ _)

theorem Happens.tally_eq {xs : List Happening} {h h' : Option Context} {w w' : World σ}
    (hxs : Happens others ls inv xs h w h' w') (hc : LeavesAlone others ls inv c) :
    w'.tally c = w.tally c + (xs.filterMap Happening.counter?).count c := by
  induction hxs with
  | nothing => rfl
  | @observed e xs _ _ _ _ _ ih =>
    rw [ih, tally_observe hc.waits, Nat.add_assoc, ← List.count_append, ← List.filterMap_append, List.singleton_append]
  | told hheard _ ih => rw [ih, hheard.measure_eq hc.listeners]; rfl
  | invoked _ _ ih => rw [ih, hc.call]; rfl

end Tally

theorem Happens.outcomes_eq {count : World σ → Nat} {o : Nat → Except Payload Reply}
    (hplays : inv.Plays others ls count o)
    {xs : List Happening} {h h' : Option Context} {w w' : World σ} (hxs : Happens others ls inv xs h w h' w') (i : Nat)
    (outcome : Except Payload Reply) (hi : (xs.filterMap Happening.outcome?)[i]? = some outcome) :
    outcome = o (count w + i) := by
  induction hxs generalizing i with
  | nothing => cases hi
  | observed _ ih => exact (ih i hi).trans (by rw [hplays.observe])
  | told hheard _ ih => exact (ih i hi).trans (by rw [hheard.measure_eq hplays.listeners])
  | invoked hend _ ih =>
    cases i with
    | zero =>
      cases hi
      exact Option.some.inj (hend.symm.trans (hplays.outcome _ _))
    | succ i =>
      rw [ih i hi, hplays.counts]
      congr 1
      omega

namespace RetryHandler

/-- The account of what a handler with a failure makes happen when the call comes to the outcomes `o`, and of the reply
that it returns. -/
structure Recounts (r : RetryHandler σ) (inv : Invocation σ) (scope : String) (o : Nat → Except Payload Reply)
    (xs : List Happening) (reply : Reply) : Prop where
  /-- The call is made up to its first success, or as often as the handler may. -/
  calls : xs.filterMap Happening.outcome? = (List.range (inv.firstSuccess o r.count)).map o
  /-- The listeners hear of each retry before it, and of the end after the last one. -/
  heard : xs.filter Happening.isHeard =
    ((List.range (inv.firstSuccess o r.count)).flatMap fun i =>
      [.told (.retry scope (i + 1) (r.pacing.pause i)), .invoked (o i)]) ++
        [.told (closingEvent scope (inv.firstSuccess o r.count) reply)]
  counters : xs.filterMap Happening.counter? =
    List.replicate (inv.firstSuccess o r.count) (.retries scope) ++ [.failovers scope reply.isOk]
  /-- Before each retry there is a pause, unless it is of no length. -/
  pauses : xs.filterMap Happening.pause? =
    ((List.range (inv.firstSuccess o r.count)).map r.pacing.pause).filter fun d => !d.isZero
  /-- The reply is that of the last call, or the failure that stands for its panic. -/
  last : reply = match o (inv.firstSuccess o r.count - 1) with
    | .ok last => last
    | .error _ => .error (.text ("invocation " ++ inv.name ++ " panicked"))

variable {r : RetryHandler σ} {scope : String}

theorem rounds_eq (o : Nat → Except Payload Reply) (k : Nat) :
    r.rounds scope 0 ((List.range k).map o) = (List.range k).flatMap fun i => r.round scope i (o i) := by
  have hzip : ((List.range k).map o).zipIdx = (List.range k).map fun i => (o i, i) :=
    List.ext_getElem (by simp) (by simp)
  rw [rounds, hzip, List.flatMap_map]

section Round

variable (o : Except Payload Reply) (attempts : Nat)

theorem filterMap_outcome?_round : (r.round scope attempts o).filterMap Happening.outcome? = [o] := by
  unfold round Duration.pauses
  split <;> rfl

theorem filter_isHeard_round : (r.round scope attempts o).filter Happening.isHeard =
    [.told (.retry scope (attempts + 1) (r.pacing.pause attempts)), .invoked o] := by
  unfold round Duration.pauses
  split <;> rfl

theorem filterMap_counter?_round : (r.round scope attempts o).filterMap Happening.counter? = [.retries scope] := by
  unfold round Duration.pauses
  split <;> rfl

theorem filterMap_pause?_round : (r.round scope attempts o).filterMap Happening.pause? =
    [r.pacing.pause attempts].filter fun d => !d.isZero := by
  unfold round Duration.pauses
  split <;> simp_all [List.filterMap_cons, Happening.pause?]

end Round

theorem filterMap_outcome?_rounds (attempts : Nat) (outcomes : List (Except Payload Reply)) :
    (r.rounds scope attempts outcomes).filterMap Happening.outcome? = outcomes := by
  rw [rounds, List.filterMap_flatMap]
  simp only [filterMap_outcome?_round]
  rw [← List.map_eq_flatMap, List.zipIdx_map_fst]

theorem filterMap_outcome?_closing (attempts : Nat) (reply : Reply) :
    (r.closing scope attempts reply).filterMap Happening.outcome? = [] := by
  cases reply <;> rfl

theorem recounts_rounds {e : Failure} {outcomes : List (Except Payload Reply)} {reply : Reply} (hcount : 0 < r.count)
    (ht : inv.Tried r.count e outcomes reply) {o : Nat → Except Payload Reply}
    (ho : ∀ i outcome, outcomes[i]? = some outcome → outcome = o i) :
    r.Recounts inv scope o (r.rounds scope 0 outcomes ++ r.closing scope outcomes.length reply) reply := by
  have hreply := ht.eq_reply
  obtain rfl := ht.eq_firstSuccess ho
  rw [rounds_eq, List.length_map, List.length_range]
  constructor
  case calls =>
    rw [List.filterMap_append, ← rounds_eq, filterMap_outcome?_rounds, filterMap_outcome?_closing, List.append_nil]
  case heard =>
    rw [List.filter_append, List.filter_flatMap]
    simp only [filter_isHeard_round]
    cases reply <;> rfl
  case counters =>
    rw [List.filterMap_append, List.filterMap_flatMap]
    simp only [filterMap_counter?_round]
    rw [← List.map_eq_flatMap, List.map_const', List.length_range]
    cases reply <;> rfl
  case pauses =>
    rw [List.filterMap_append, List.filterMap_flatMap, List.map_eq_flatMap, List.filter_flatMap]
    simp only [filterMap_pause?_round]
    cases reply <;> simp [closing, Happening.pause?]
  case last =>
    have hpos : inv.firstSuccess o r.count ≠ 0 := Nat.ne_of_gt (firstSuccess_pos o hcount)
    rw [hreply, List.getLast?_map, List.getLast?_range, if_neg hpos]
    show inv.reply (o (inv.firstSuccess o r.count - 1)) = _
    cases o (inv.firstSuccess o r.count - 1) <;> rfl

/-- **A handler and a failure.** A success stays as it is, and nothing happens. After a failure the handler makes the
call up to its first success, at most as often as it may, and returns what the last call comes to. Its listeners hear
of each retry, numbered from one on and with its pause, and of how the retries ended; the counters grow accordingly.
All this goes under the scope that is in force when the handler gets the failure, whatever listeners and calls do. -/
theorem recounts_failure (r : RetryHandler σ) (inv : Invocation σ) (hcount : 0 < r.count)
    (hls : ∀ l ∈ r.listeners, ∀ event, (l event).Ends others) (hcall : inv.call.Ends others) :
    (∀ v, r.handle inv (.ok v) = done (.ok v)) ∧
      ∀ e h w, ∃ xs reply h' w', (r.handle inv (.error e)).run others none h w = ⟨.value reply, h', w'⟩ ∧
        Happens others r.listeners inv xs h w h' w' ∧
        (∀ c, LeavesAlone others r.listeners inv c →
          w'.tally c = w.tally c + (xs.filterMap Happening.counter?).count c) ∧
        ∀ o, (∀ i outcome, (xs.filterMap Happening.outcome?)[i]? = some outcome → outcome = o i) →
          r.Recounts inv ((h.map Context.scope).getD inv.name) o xs reply := by
  refine ⟨fun v => rfl, fun e h w => ?_⟩
  have hunfolds : ∀ scope, ((r.retryLoop scope inv r.count 0 e).bind fun out =>
      (r.conclude scope out.1 out.2).bind fun _ => done out.1).Unfolds others r.listeners inv fun xs reply =>
        ∃ outcomes, inv.Tried r.count e outcomes reply ∧
          xs = r.rounds scope 0 outcomes ++ r.closing scope outcomes.length reply := by
    refine fun scope => (unfolds_retryLoop hls hcall (Nat.add_zero _) e).bind ?_
    rintro _ ⟨reply, attempts⟩ ⟨outcomes, htried, hattempts, rfl⟩
    obtain rfl : attempts = outcomes.length := hattempts.trans (Nat.zero_add _)
    refine (unfolds_conclude hls reply outcomes.length).bind fun _ _ hclosing => ?_
    refine (unfolds_of_observes (observes_done _)).mono ?_
    rintro _ _ ⟨rfl, rfl⟩
    exact ⟨outcomes, htried, by rw [hclosing, List.map_nil, List.append_nil]⟩
  obtain ⟨xs, reply, h', w', hrun, hxs, outcomes, htried, rfl⟩ := hunfolds ((h.map Context.scope).getD inv.name) h w
  refine ⟨_, reply, h', w', ?_, hxs, fun c hc => hxs.tally_eq hc, fun o ho => recounts_rounds hcount htried ?_⟩
  · rw [handle, bind_eq, run_bind, run_currentScope, Final.andThen_of_value rfl]
    exact hrun
  · rwa [List.filterMap_append, filterMap_outcome?_rounds, filterMap_outcome?_closing, List.append_nil] at ho

/-- Of two listeners one panics and the other detaches the context; the first retry fails and the second one panics, so
the handler returns the failure that stands for a panic. All three events go under the scope of the context that was
attached at first. -/
theorem recounts_failure_panicking :
    let r : RetryHandler Nat := ⟨2, .fixed (.ofNanos 5 (by decide)), 2, "just-retry",
      [fun _ => unwind (.text "listener bug"), fun _ => detach.bind fun _ => done ()]⟩
    let inv : Invocation Nat := ⟨"getBlock", [], (perform (.user (· + 1))).bind fun n =>
      if n = 0 then done (.error (.text "still down")) else unwind (.text "boom")⟩
    let o : Nat → Except Payload Reply := fun i =>
      if i = 0 then .ok (.error (.text "still down")) else .error (.text "boom")
    let panicked : Reply := .error (.text "invocation getBlock panicked")
    0 < r.count ∧ (∀ l ∈ r.listeners, ∀ event, (l event).Ends nobody) ∧ inv.call.Ends nobody ∧
      inv.firstSuccess o r.count = 2 ∧
      ∃ xs h' w', (r.handle inv (.error (.text "down"))).run nobody none (some ⟨"client", []⟩) (World.start 0) =
          ⟨.value panicked, h', w'⟩ ∧
        r.Recounts inv "client" o xs panicked ∧ w'.tally (.retries "client") = 2 := by
  intro r inv o panicked
  have hls : ∀ l ∈ r.listeners, ∀ event, (l event).Ends nobody := by
    simp only [r, List.forall_mem_cons, List.not_mem_nil, false_implies, implies_true, and_true]
    exact ⟨fun _ _ _ => rfl, fun _ _ _ => rfl⟩
  have hcall : ∀ h w, (inv.call.run nobody none h w).exit.end? = some (o w.user) := by
    intro h w
    by_cases hw : w.user = 0 <;> simp [inv, o, perform, Program.bind, run_act, Action.step, hw, Exit.end?]
  have hplays : inv.Plays nobody r.listeners World.user o := by
    refine ⟨hcall, fun h w => ?_, fun e w => by cases e <;> rfl, ?_⟩
    · by_cases hw : w.user = 0 <;> simp [inv, perform, Program.bind, run_act, Action.step, hw]
    · simp only [r, List.forall_mem_cons, List.not_mem_nil, false_implies, implies_true, and_true]
      exact ⟨fun _ _ _ => rfl, fun _ _ _ => rfl⟩
  have hends : inv.call.Ends nobody := fun h w => isEnd_of_end? (hcall h w)
  have halone : LeavesAlone nobody r.listeners inv (.retries "client") := by
    refine ⟨fun _ _ _ => rfl, fun h w => ?_, ?_⟩
    · by_cases hw : w.user = 0 <;> simp [inv, perform, Program.bind, run_act, Action.step, hw, World.tally]
    · simp only [r, List.forall_mem_cons, List.not_mem_nil, false_implies, implies_true, and_true]
      exact ⟨fun _ _ _ => rfl, fun _ _ _ => rfl⟩
  obtain ⟨-, hfailure⟩ := recounts_failure r inv (by decide) hls hends
  obtain ⟨xs, reply, h', w', hrun, hxs, htally, hrecounts⟩ :=
    hfailure (.text "down") (some ⟨"client", []⟩) (World.start 0)
  have haccount : r.Recounts inv "client" o xs reply :=
    hrecounts o fun i outcome hi => by simpa [World.start] using hxs.outcomes_eq hplays i outcome hi
  have htwo : inv.firstSuccess o r.count = 2 := by decide
  obtain rfl : reply = panicked := by
    rw [haccount.last, htwo]
    rfl
  have hgrown := htally _ halone
  rw [haccount.counters, htwo] at hgrown
  exact ⟨by decide, hls, hends, htwo, xs, h', w', hrun, haccount, hgrown⟩

end RetryHandler

end ResilientCalls
