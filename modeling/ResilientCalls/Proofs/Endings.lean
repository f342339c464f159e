import ResilientCalls.Listeners

/-!
# How runs end

Runs are compared by `Final.Same`: it leaves out what is left to do, which only matters to a run that
has not ended. `Program.Yields` says what value code ends with if it ends, and that it does not unwind;
`Program.Ends` says that it ends. Both pass from parts to wholes, and hold of telling listeners whatever
the listeners do, or as long as they end.
-/

namespace ResilientCalls

open Program

variable {σ α β γ ε : Type} {others : Others σ} {limit : Moment}

/-- What a run came to, if it came to an end. -/
def Exit.end? : Exit σ α → Option (Except Payload α)
  | .value a => some (.ok a)
  | .unwound p => some (.error p)
  | .pending _ => none

theorem eq_value_of_end? {exit : Exit σ α} {a : α} (h : exit.end? = some (.ok a)) : exit = .value a := by
  cases exit with
  | value b =>
    cases h
    rfl
  | unwound p => cases h
  | pending rest => cases h

theorem end?_of_isEnd {exit : Exit σ α} (hend : exit.isEnd = true) : ∃ r, exit.end? = some r := by
  cases exit with
  | value a => exact ⟨.ok a, rfl⟩
  | unwound p => exact ⟨.error p, rfl⟩
  | pending rest => cases hend

theorem isEnd_of_end? {exit : Exit σ α} {r : Except Payload α} (h : exit.end? = some r) : exit.isEnd = true := by
  cases exit with
  | value a => rfl
  | unwound p => rfl
  | pending rest => cases h

/-- The runs ended alike, on a thread with the same context and in the same shared state. -/
def Final.Same (f g : Final σ α) : Prop :=
  f.exit.end? = g.exit.end? ∧ f.holder = g.holder ∧ f.world = g.world

/-- Whether the run ended with a panic. -/
def Final.Unwinds (f : Final σ α) : Prop := ∃ p, f.exit = .unwound p

namespace Final

theorem Same.refl (f : Final σ α) : f.Same f := ⟨rfl, rfl, rfl⟩

theorem Same.trans {f g k : Final σ α} (hfg : f.Same g) (hgk : g.Same k) : f.Same k :=
  ⟨hfg.1.trans hgk.1, hfg.2.1.trans hgk.2.1, hfg.2.2.trans hgk.2.2⟩

theorem Same.not_unwinds {f g : Final σ α} (h : f.Same g) (hg : ¬ g.Unwinds) : ¬ f.Unwinds := by
  rintro ⟨p, hp⟩
  have hend := h.1
  rw [hp] at hend
  cases hexit : g.exit with
  | value a => rw [hexit] at hend; cases hend
  | unwound p' => exact hg ⟨p', hexit⟩
  | pending rest => rw [hexit] at hend; cases hend

theorem Same.of_eq {f g : Final σ α} (h : f = g) : f.Same g := h ▸ Same.refl f

theorem Same.andThen {f g : Final σ α} (h : f.Same g) (k : α → Program σ β) :
    (f.andThen others limit k).Same (g.andThen others limit k) := by
  obtain ⟨exit, holder, world⟩ := f
  obtain ⟨exit', holder', world'⟩ := g
  obtain ⟨hexit, rfl, rfl⟩ := h
  cases exit <;> cases exit' <;> simp only [Exit.end?] at hexit <;> cases hexit <;> exact ⟨rfl, rfl, rfl⟩

theorem andThen_congr {f : Final σ α} {k k' : α → Program σ β} (h : ∀ a, f.exit = .value a → k a = k' a) :
    (f.andThen others limit k).Same (f.andThen others limit k') := by
  obtain ⟨exit, holder, world⟩ := f
  cases exit with
  | value a =>
    exact Same.of_eq (congrArg (fun p => p.run others limit holder world) (h a rfl))
  | unwound p => exact Same.refl _
  | pending rest => exact ⟨rfl, rfl, rfl⟩

theorem andThen_of_value {f : Final σ α} {a : α} (hf : f.exit = .value a) (k : α → Program σ β) :
    f.andThen others limit k = (k a).run others limit f.holder f.world := by
  rw [andThen, hf]

theorem not_unwinds_done (a : α) {h : Option Context} {w : World σ} :
    ¬ ((done a : Program σ α).run others limit h w).Unwinds := by
  rintro ⟨p, hp⟩
  cases hp

theorem not_unwinds_andThen {f : Final σ α} {k : α → Program σ β} (hf : ¬ f.Unwinds)
    (hk : ∀ a h w, ¬ ((k a).run others limit h w).Unwinds) : ¬ (f.andThen others limit k).Unwinds := by
  obtain ⟨exit, holder, world⟩ := f
  cases exit with
  | value a => exact hk a holder world
  | unwound p => exact absurd ⟨p, rfl⟩ hf
  | pending rest =>
    rintro ⟨p, hp⟩
    cases hp

theorem andThen_andThen (f : Final σ α) (k : α → Program σ β) (k' : β → Program σ γ) :
    (f.andThen others limit k).andThen others limit k' =
      f.andThen others limit fun a => (k a).bind k' := by
  obtain ⟨exit, holder, world⟩ := f
  cases exit with
  | value a => exact (run_bind (k a) k' holder world).symm
  | unwound p => rfl
  | pending rest => simp only [andThen, bind_assoc]

theorem Same.bind {p : Program σ β} {q : β → Program σ γ} {f : Final σ α} {value : α → β}
    {h : Option Context} {w : World σ}
    (hp : (p.run others limit h w).Same (f.andThen others limit fun a => done (value a))) :
    ((p.bind q).run others limit h w).Same (f.andThen others limit fun a => q (value a)) := by
  rw [run_bind]
  refine (hp.andThen q).trans (.of_eq ?_)
  rw [andThen_andThen]
  rfl

end Final

/-! ## Code that comes to a value -/

/-- However the code ends, it ends with a value of this kind. -/
def Program.Yields (others : Others σ) (p : Program σ α) (good : α → Prop) : Prop :=
  ∀ h w outcome, (p.run others none h w).exit.end? = some outcome → ∃ a, good a ∧ outcome = .ok a

/-- The code always comes to an end. -/
def Program.Ends (others : Others σ) (p : Program σ α) : Prop :=
  ∀ h w, (p.run others none h w).exit.isEnd = true

theorem Program.Yields.exit_eq {p : Program σ α} {a : α} (hp : p.Yields others (· = a)) (he : p.Ends others)
    (h : Option Context) (w : World σ) : (p.run others none h w).exit = .value a := by
  have hyields := hp h w
  have hends := he h w
  cases hexit : (p.run others none h w).exit with
  | value a' =>
    obtain ⟨b, rfl, hb⟩ := hyields (.ok a') (by rw [hexit]; rfl)
    cases hb
    rfl
  | unwound payload =>
    obtain ⟨b, -, hb⟩ := hyields (.error payload) (by rw [hexit]; rfl)
    cases hb
  | pending rest =>
    rw [hexit] at hends
    cases hends

theorem Program.Yields.mono {p : Program σ α} {good good' : α → Prop} (hp : p.Yields others good)
    (hgood : ∀ a, good a → good' a) : p.Yields others good' := by
  intro h w outcome houtcome
  obtain ⟨a, ha, houtcome⟩ := hp h w outcome houtcome
  exact ⟨a, hgood a ha, houtcome⟩

theorem Program.Yields.not_unwinds {p : Program σ α} {good : α → Prop} (hp : p.Yields others good)
    (h : Option Context) (w : World σ) : ¬ (p.run others none h w).Unwinds := by
  rintro ⟨payload, hexit⟩
  obtain ⟨a, -, ha⟩ := hp h w (.error payload) (by rw [hexit]; rfl)
  cases ha

theorem yields_bind {p : Program σ α} {q : α → Program σ β} {good : α → Prop} {good' : β → Prop}
    (hp : p.Yields others good) (hq : ∀ a, good a → (q a).Yields others good') :
    (p.bind q).Yields others good' := by
  intro h w outcome houtcome
  have hfirst := hp h w
  rw [run_bind] at houtcome
  generalize p.run others none h w = f at hfirst houtcome
  obtain ⟨exit, holder, world⟩ := f
  cases exit with
  | value a =>
    obtain ⟨a', hgood, ha⟩ := hfirst _ rfl
    cases ha
    exact hq a hgood holder world outcome houtcome
  | unwound payload =>
    obtain ⟨a', -, ha⟩ := hfirst _ rfl
    cases ha
  | pending rest => cases houtcome

theorem yields_caught (p : Program σ α) : p.caught.Yields others fun _ => True := by
  intro h w outcome houtcome
  rw [run_caught] at houtcome
  generalize p.run others none h w = f at houtcome
  obtain ⟨exit, holder, world⟩ := f
  cases exit with
  | value a => cases houtcome; exact ⟨_, trivial, rfl⟩
  | unwound payload => cases houtcome; exact ⟨_, trivial, rfl⟩
  | pending rest => cases houtcome

theorem ends_bind {p : Program σ α} {q : α → Program σ β} (hp : p.Ends others)
    (hq : ∀ a, (q a).Ends others) : (p.bind q).Ends others := by
  intro h w
  have hfirst := hp h w
  rw [run_bind]
  generalize p.run others none h w = f at hfirst ⊢
  obtain ⟨exit, holder, world⟩ := f
  cases exit with
  | value a => exact hq a holder world
  | unwound payload => rfl
  | pending rest => cases hfirst

theorem ends_caught {p : Program σ α} (hp : p.Ends others) : p.caught.Ends others := by
  intro h w
  have hfirst := hp h w
  rw [run_caught]
  generalize p.run others none h w = f at hfirst ⊢
  obtain ⟨exit, holder, world⟩ := f
  cases exit with
  | value a => rfl
  | unwound payload => rfl
  | pending rest => cases hfirst

theorem ends_perform (a : Action σ β) : (perform a).Ends others := fun _ _ => rfl

theorem ends_withContext {body : Program σ α} (context : Context) (hbody : body.Ends others) :
    (withContext context body).Ends others := by
  refine ends_bind (ends_bind (ends_perform _) fun _ => ends_bind (ends_perform _) fun _ _ _ => rfl) fun guard => ?_
  refine ends_bind (ends_caught hbody) fun r => ends_bind (fun h w => ?_) fun _ h w => ?_
  · rw [exit_release]
    rfl
  · cases r <;> rfl

theorem yields_emit (ls : List (Listener σ ε)) (event : ε) :
    (emit ls event).Yields others fun _ => True := by
  induction ls with
  | nil => exact fun h w outcome houtcome => ⟨(), trivial, by cases houtcome; rfl⟩
  | cons l ls ih => exact yields_bind (yields_caught (l event)) fun _ _ => ih

theorem ends_emit {ls : List (Listener σ ε)} {event : ε} (hl : ∀ l ∈ ls, (l event).Ends others) :
    (emit ls event).Ends others := by
  induction ls with
  | nil => exact fun h w => rfl
  | cons l ls ih =>
    refine ends_bind (ends_caught (hl l (List.mem_cons_self ..))) fun _ => ?_
    exact ih fun l' hl' => hl l' (List.mem_cons_of_mem l hl')

end ResilientCalls
