import ResilientCalls.Program.Thread

/-!
# The steps of code and of its parts

Whatever stands around code on a thread, it goes on with what the code comes to: this is
`Thread.before`, with `Program.caught` for the panics. The steps of the whole are those of the part
until the part is over, and then those of what follows (`path_before`).
-/

namespace ResilientCalls

open Program

variable {σ α β γ : Type} {now : Nat} {h : Option Context}

namespace Program

theorem caught_caught_bind (p : Program σ α) (k : Except Payload α → Program σ β) :
    (p.caught.bind k).caught = p.caught.bind fun q => (k q).caught := by
  induction p <;> simp_all [caught, bind]

theorem bind_eq_caught_bind (p : Program σ α) (g : α → Program σ β) :
    p.bind g = p.caught.bind fun
      | .ok a => g a
      | .error e => unwind e := by
  induction p <;> simp_all [caught, bind]

theorem caught_bind_rethrow (p : Program σ α) : p.caught.bind rethrow = p := by
  induction p <;> simp_all [caught, bind, rethrow]

end Program

namespace Thread

/-- A thread that stands in the middle of a step does so for the code it has; a wait without a bound
has no deadline. -/
def Sound (x : Thread σ α) : Prop :=
  match x.stage, x.code with
  | .ready, _ | .waking _, _ | .resting _, .sleep .. => True
  | .looking deadline expired, .await _ bound _ => bound = none → deadline = none ∧ expired = false
  | .asleep deadline, .await _ bound _ => bound = none → deadline = none
  | .receiving _ deadline, .worker _ _ bound _ => bound = none → deadline = none
  | _, _ => False

theorem sound_fresh (p : Program σ α) (h : Option Context) : (fresh p h).Sound := trivial

theorem Sound.step {x y : Thread σ α} {e : Deed σ} (hx : x.Sound) (hdoes : x.Does now e y) : y.Sound := by
  cases hdoes with
  | @act β h h' a b k w w' hstep =>
    show Sound ⟨_, _, a.stageAfter b⟩
    unfold Action.stageAfter
    split <;> trivial
  | notify | lie | rise | find | giveUp | receive => trivial
  | come =>
    rintro rfl
    exact ⟨rfl, rfl⟩
  | doze => exact fun hbound => (hx hbound).1
  | @wake h i bound k deadline expired hover =>
    intro hbound
    have hdeadline := hx hbound
    refine ⟨hdeadline, Bool.eq_false_iff.2 fun htrue => ?_⟩
    obtain ⟨t, ht, -⟩ := hover htrue
    cases hdeadline.symm.trans ht
  | start =>
    rintro rfl
    rfl

theorem Sound.path {x y : Thread σ α} {es : List (Deed σ)} (hx : x.Sound) (hpath : x.Path es y) : y.Sound := by
  induction hpath with
  | rest => exact hx
  | go hdoes _ ih => exact ih (hx.step hdoes)

/-! ## Paths -/

theorem Path.append {x y z : Thread σ α} {es es' : List (Deed σ)} (h : x.Path es y) (h' : y.Path es' z) :
    x.Path (es ++ es') z := by
  induction h with
  | rest => exact h'
  | go hdoes _ ih => exact .go hdoes (ih h')

theorem Path.snoc {x y z : Thread σ α} {es : List (Deed σ)} {e : Deed σ} (h : x.Path es y)
    (hdoes : y.Does now e z) : x.Path (es ++ [e]) z :=
  h.append (.go hdoes (.rest z))

theorem over?_of_does {x y : Thread σ α} {e : Deed σ} (hdoes : x.Does now e y) : x.over? = none := by
  cases hdoes <;> rfl

theorem path_of_over {x y : Thread σ α} {es : List (Deed σ)} {r : Except Payload α} (hx : x.over? = some r)
    (hpath : x.Path es y) : es = [] ∧ y = x := by
  cases hpath with
  | rest => exact ⟨rfl, rfl⟩
  | go hdoes _ => cases hx.symm.trans (over?_of_does hdoes)

theorem does_of_waking {p : Program σ α} {i : FutureId} {e : Deed σ} {y : Thread σ α}
    (hdoes : Does now ⟨h, p, .waking i⟩ e y) : e = .notified i ∧ y = fresh p h := by
  cases hdoes
  exact ⟨rfl, rfl⟩

/-! ## The first steps of a path -/

theorem path_act {a : Action σ β} {k : β → Program σ α} {es : List (Deed σ)} {y : Thread σ α}
    (hpath : (fresh (.act a k) h).Path es y) :
    (es = [] ∧ y = fresh (.act a k) h) ∨
      ∃ b h' w w' es', a.step h w = (b, h', w') ∧ es = .did a b :: es' ∧
        Path ⟨h', k b, a.stageAfter b⟩ es' y := by
  cases hpath with
  | rest => exact .inl ⟨rfl, rfl⟩
  | go hdoes hrest =>
    cases hdoes with
    | act hstep => exact .inr ⟨_, _, _, _, _, hstep, rfl, hrest⟩

theorem path_waking {p : Program σ α} {i : FutureId} {es : List (Deed σ)} {y : Thread σ α}
    (hpath : Path ⟨h, p, .waking i⟩ es y) :
    (es = [] ∧ y = ⟨h, p, .waking i⟩) ∨ ∃ es', es = .notified i :: es' ∧ (fresh p h).Path es' y := by
  cases hpath with
  | rest => exact .inl ⟨rfl, rfl⟩
  | go hdoes hrest =>
    obtain ⟨rfl, rfl⟩ := does_of_waking hdoes
    exact .inr ⟨_, rfl, hrest⟩

theorem path_await {i : FutureId} {bound : Option Duration} {k : Option Reply → Program σ α} {stage : Stage}
    {es : List (Deed σ)} {y : Thread σ α} (hsound : Sound (⟨h, .await i bound k, stage⟩ : Thread σ α))
    (hpath : Path ⟨h, .await i bound k, stage⟩ es y) :
    (∃ stage', y = ⟨h, .await i bound k, stage'⟩) ∨
      ∃ es₁ seen es₂, es = es₁ ++ .awaited i bound seen :: es₂ ∧ (seen = none → bound ≠ none) ∧
        (fresh (k seen) h).Path es₂ y := by
  generalize hx : (⟨h, .await i bound k, stage⟩ : Thread σ α) = x at hpath
  induction hpath generalizing stage with
  | rest => exact .inl ⟨stage, hx.symm⟩
  | @go x y z now e es hdoes hrest ih =>
    subst hx
    have hy := hsound.step hdoes
    cases hdoes with
    | find => exact .inr ⟨[], _, es, rfl, nofun, hrest⟩
    | giveUp =>
      refine .inr ⟨[], _, es, rfl, fun _ hbound => ?_, hrest⟩
      cases (hsound hbound).2
    | come | doze | wake | notify =>
      rcases ih hy rfl with ⟨stage', rfl⟩ | ⟨es₁, seen, es₂, rfl, hseen, hrest⟩
      · exact .inl ⟨stage', rfl⟩
      · exact .inr ⟨_ :: es₁, seen, es₂, rfl, hseen, hrest⟩

theorem path_worker {c : Option Context} {body : Program σ β} {bound : Option Duration}
    {k : Delivery β → Program σ α} {es : List (Deed σ)} {y : Thread σ α}
    (hpath : (fresh (.worker c body bound k) h).Path es y) :
    (es = [] ∧ y = fresh (.worker c body bound k) h) ∨
      (∃ m deadline, es = [.started m ⟨β, c, body, bound⟩] ∧ y = ⟨h, .worker c body bound k, .receiving m deadline⟩) ∨
      ∃ m d es', es = .started m ⟨β, c, body, bound⟩ :: .answered m d :: es' ∧ (fresh (k d) h).Path es' y := by
  cases hpath with
  | rest => exact .inl ⟨rfl, rfl⟩
  | go hdoes hrest =>
    cases hdoes with
    | start =>
      cases hrest with
      | rest => exact .inr (.inl ⟨_, _, rfl, rfl⟩)
      | go hdoes' hrest' =>
        cases hdoes' with
        | receive hd => exact .inr (.inr ⟨_, _, _, rfl, hrest'⟩)

theorem path_sleep {d : Duration} {p : Program σ α} {es : List (Deed σ)} {y : Thread σ α}
    (hpath : (fresh (.sleep d p) h).Path es y) :
    (es = [] ∧ y = fresh (.sleep d p) h) ∨ (∃ wake, es = [.lay] ∧ y = ⟨h, .sleep d p, .resting wake⟩) ∨
      ∃ es', es = .lay :: .rose :: es' ∧ (fresh p h).Path es' y := by
  cases hpath with
  | rest => exact .inl ⟨rfl, rfl⟩
  | go hdoes hrest =>
    cases hdoes with
    | lie =>
      cases hrest with
      | rest => exact .inr (.inl ⟨_, rfl, rfl⟩)
      | go hdoes' hrest' =>
        cases hdoes' with
        | rise hwake => exact .inr (.inr ⟨_, rfl, hrest'⟩)

/-! ## Code and what follows it -/

/-- The thread with something to do after its code, whatever the code comes to. -/
def before (x : Thread σ α) (k : Except Payload α → Program σ β) : Thread σ β :=
  ⟨x.holder, x.code.caught.bind k, x.stage⟩

theorem fresh_before (p : Program σ α) (h : Option Context) (k : Except Payload α → Program σ β) :
    (fresh p h).before k = fresh (p.caught.bind k) h := rfl

theorem eq_of_over? {x : Thread σ α} {r : Except Payload α} (hx : x.over? = some r) :
    x = fresh (rethrow r) x.holder := by
  obtain ⟨holder, code, stage⟩ := x
  cases code <;> cases stage <;> cases hx <;> rfl

@[simp]
theorem over?_rethrow (r : Except Payload α) (h : Option Context) :
    (fresh (rethrow r : Program σ α) h).over? = some r := by
  cases r <;> rfl

theorem before_of_over {x : Thread σ α} {r : Except Payload α} (hx : x.over? = some r)
    (k : Except Payload α → Program σ β) : x.before k = fresh (k r) x.holder := by
  rw [eq_of_over? hx]
  cases r <;> rfl

theorem Does.before {x y : Thread σ α} {e : Deed σ} (hdoes : x.Does now e y)
    (k : Except Payload α → Program σ β) : (x.before k).Does now e (y.before k) := by
  cases hdoes with
  | act hstep => exact .act hstep
  | notify => exact .notify
  | lie => exact .lie
  | rise hwake => exact .rise hwake
  | come => exact .come
  | doze => exact .doze
  | wake hover => exact .wake hover
  | find => exact .find
  | giveUp => exact .giveUp
  | start => exact .start
  | receive hd => exact .receive hd

theorem does_before {x : Thread σ α} {k : Except Payload α → Program σ β} {e : Deed σ} {y : Thread σ β}
    (hsound : x.Sound) (hx : x.over? = none) (hdoes : (x.before k).Does now e y) :
    ∃ x', x.Does now e x' ∧ y = x'.before k := by
  obtain ⟨holder, code, stage⟩ := x
  cases code with
  | done a | unwind p =>
    -- Such code is over unless others are still to be woken.
    cases stage with
    | ready => cases hx
    | waking i =>
      obtain ⟨rfl, rfl⟩ := does_of_waking hdoes
      exact ⟨_, .notify, rfl⟩
    | resting | looking | asleep | receiving => exact hsound.elim
  | block =>
    cases hdoes
    exact ⟨_, .notify, rfl⟩
  | act a p =>
    cases hdoes with
    | act hstep => exact ⟨_, .act hstep, rfl⟩
    | notify => exact ⟨_, .notify, rfl⟩
  | sleep d p =>
    cases hdoes with
    | lie => exact ⟨_, .lie, rfl⟩
    | rise hwake => exact ⟨_, .rise hwake, rfl⟩
    | notify => exact ⟨_, .notify, rfl⟩
  | await i bound p =>
    cases hdoes with
    | come => exact ⟨_, .come, rfl⟩
    | doze => exact ⟨_, .doze, rfl⟩
    | wake hover => exact ⟨_, .wake hover, rfl⟩
    | find => exact ⟨_, .find, rfl⟩
    | giveUp => exact ⟨_, .giveUp, rfl⟩
    | notify => exact ⟨_, .notify, rfl⟩
  | worker c body bound p =>
    cases hdoes with
    | start => exact ⟨_, .start, rfl⟩
    | receive hd => exact ⟨_, .receive hd, rfl⟩
    | notify => exact ⟨_, .notify, rfl⟩

theorem Path.before {x y : Thread σ α} {es : List (Deed σ)} (hpath : x.Path es y)
    (k : Except Payload α → Program σ β) : (x.before k).Path es (y.before k) := by
  induction hpath with
  | rest => exact .rest _
  | go hdoes _ ih => exact .go (hdoes.before k) ih

/-- **Code and what follows it.** The thread is still with the code, or the code has come to an end and
the thread is with what follows. -/
theorem path_before {x : Thread σ α} {k : Except Payload α → Program σ β} {es : List (Deed σ)}
    {y : Thread σ β} (hsound : x.Sound) (hpath : (x.before k).Path es y) :
    (∃ x', x.Path es x' ∧ x'.over? = none ∧ y = x'.before k) ∨
      ∃ es₁ es₂ h r, es = es₁ ++ es₂ ∧ x.Path es₁ (fresh (rethrow r) h) ∧ (fresh (k r) h).Path es₂ y := by
  generalize hz : x.before k = z at hpath
  induction hpath generalizing x with
  | rest z =>
    cases hover : x.over? with
    | none => exact .inl ⟨x, .rest x, hover, hz.symm⟩
    | some r =>
      refine .inr ⟨[], [], x.holder, r, rfl, eq_of_over? hover ▸ .rest x, ?_⟩
      rw [← hz, before_of_over hover]
      exact .rest _
  | @go z z' y now e es hdoes hpath ih =>
    cases hover : x.over? with
    | none =>
      obtain ⟨x', hdoes', rfl⟩ := does_before hsound hover (hz ▸ hdoes)
      rcases ih (hsound.step hdoes') rfl with ⟨y', hy', hend, rfl⟩ | ⟨es₁, es₂, h, r, rfl, hfirst, hrest⟩
      · exact .inl ⟨y', .go hdoes' hy', hend, rfl⟩
      · exact .inr ⟨e :: es₁, es₂, h, r, rfl, .go hdoes' hfirst, hrest⟩
    | some r =>
      refine .inr ⟨[], e :: es, x.holder, r, rfl, eq_of_over? hover ▸ .rest x, ?_⟩
      rw [← before_of_over hover, hz]
      exact .go hdoes hpath

end Thread

end ResilientCalls
