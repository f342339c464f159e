import ResilientCalls.Proofs.Passages

/-!
# A stretch of a run, part by part

What a thread did tells where it stands, but for the moments it waits for. So code comes to its end at
one place of what a thread does (`Program.Goes.unique`), and a thread of a pool that goes through code
goes through its parts, one after the other (`Pool.Through.caught_bind`).
-/

namespace ResilientCalls

open Program

variable {σ α β : Type} {h h' h₁ h₁' : Option Context}

/-- The stage without the moments that are waited for. -/
def Stage.outline : Stage → Stage
  | resting _ => resting 0
  | looking _ expired => looking none expired
  | asleep _ => asleep none
  | receiving m _ => receiving m none
  | ready => ready
  | waking i => waking i

namespace Thread

/-- The thread without the moments it waits for. -/
def outline (x : Thread σ α) : Thread σ α := { x with stage := x.stage.outline }

@[simp]
theorem over?_outline (x : Thread σ α) : x.outline.over? = x.over? := by
  obtain ⟨holder, code, stage⟩ := x
  cases stage <;> rfl

theorem over?_eq_of_outline {x x' : Thread σ α} (hx : x.outline = x'.outline) : x.over? = x'.over? := by
  rw [← over?_outline x, hx, over?_outline]

theorem Does.outline_eq {x x' y y' : Thread σ α} {now now' : Nat} {e : Deed σ} (hx : x.outline = x'.outline)
    (hdoes : x.Does now e y) (hdoes' : x'.Does now' e y') : y.outline = y'.outline := by
  obtain ⟨holder', code', stage'⟩ := x'
  cases hdoes with
  | @act β h h₁ a b k w w₁ hstep =>
    obtain ⟨rfl, rfl, -⟩ := Thread.mk.injEq .. ▸ hx
    cases hdoes' with
    | @act _ _ h₁' _ _ _ w' w₁' hstep' =>
      have hholder := a.step_holder h w w'
      rw [hstep, hstep'] at hholder
      obtain rfl : h₁ = h₁' := hholder
      rfl
  | wake =>
    obtain ⟨rfl, rfl, -⟩ := Thread.mk.injEq .. ▸ hx
    cases hdoes' with
    | wake => rfl
  | notify | lie | rise | come | doze | find | giveUp | start | receive =>
    obtain ⟨rfl, rfl, -⟩ := Thread.mk.injEq .. ▸ hx
    cases hdoes'
    rfl

theorem Path.outline_eq {x x' y y' : Thread σ α} {L : List (Deed σ)} (hx : x.outline = x'.outline)
    (hpath : x.Path L y) (hpath' : x'.Path L y') : y.outline = y'.outline := by
  induction hpath generalizing x' with
  | rest =>
    cases hpath'
    exact hx
  | go hdoes _ ih =>
    cases hpath' with
    | go hdoes' hrest' => exact ih (hdoes.outline_eq hx hdoes') hrest'

theorem fresh_rethrow_inj {r r' : Except Payload α}
    (heq : fresh (rethrow r : Program σ α) h = fresh (rethrow r') h') : r = r' ∧ h = h' := by
  have hover := congrArg over? heq
  rw [over?_rethrow, over?_rethrow] at hover
  exact ⟨Option.some.inj hover, congrArg holder heq⟩

theorem Path.split {x z : Thread σ α} {L₁ L₂ : List (Deed σ)} (hpath : x.Path (L₁ ++ L₂) z) :
    ∃ y, x.Path L₁ y ∧ y.Path L₂ z := by
  induction L₁ generalizing x with
  | nil => exact ⟨x, .rest x, hpath⟩
  | cons e L₁ ih =>
    cases hpath with
    | go hdoes hrest =>
      obtain ⟨y, hfirst, hlast⟩ := ih hrest
      exact ⟨y, .go hdoes hfirst, hlast⟩

end Thread

theorem Program.Goes.ended {p : Program σ α} {L₁ L₂ : List (Deed σ)} {r : Except Payload α} {x : Thread σ α}
    (hgoes : p.Goes h L₁ r h₁) (hpath : (Thread.fresh p h).Path (L₁ ++ L₂) x) :
    L₂ = [] ∧ x = .fresh (rethrow r) h₁ := by
  obtain ⟨y, hfirst, hrest⟩ := hpath.split
  have hend : (Thread.fresh (rethrow r) h₁).outline = y.outline := hgoes.outline_eq rfl hfirst
  have hover : y.over? = some r := by rw [← Thread.over?_eq_of_outline hend, Thread.over?_rethrow]
  obtain ⟨rfl, rfl⟩ := Thread.path_of_over hover hrest
  have hholder : h₁ = x.holder := congrArg Thread.holder hend
  exact ⟨rfl, hholder ▸ Thread.eq_of_over? hover⟩

theorem Program.Goes.unique {p : Program σ α} {L₁ L₁' L₂ L₂' : List (Deed σ)} {r r' : Except Payload α}
    (hgoes : p.Goes h L₁ r h₁) (hgoes' : p.Goes h L₁' r' h₁') (hL : L₁ ++ L₂ = L₁' ++ L₂') :
    L₁ = L₁' ∧ L₂ = L₂' ∧ r = r' ∧ h₁ = h₁' := by
  rcases List.append_eq_append_iff.1 hL with ⟨as, rfl, rfl⟩ | ⟨as, rfl, rfl⟩
  · obtain ⟨rfl, hend⟩ := hgoes.ended hgoes'
    obtain ⟨rfl, rfl⟩ := Thread.fresh_rethrow_inj hend
    exact ⟨(List.append_nil _).symm, rfl, rfl, rfl⟩
  · obtain ⟨rfl, hend⟩ := hgoes'.ended hgoes
    obtain ⟨rfl, rfl⟩ := Thread.fresh_rethrow_inj hend
    exact ⟨List.append_nil _, rfl, rfl, rfl⟩

namespace Thread

variable {L : List (Deed σ)}

theorem path_caught_bind {p : Program σ α} {k : Except Payload α → Program σ β} {x : Thread σ β}
    (hpath : (fresh (p.caught.bind k) h).Path L x) :
    (∃ y, (fresh p h).Path L y) ∨
      ∃ r h₁ L₁ L₂, L = L₁ ++ L₂ ∧ p.Goes h L₁ r h₁ ∧ (fresh (k r) h₁).Path L₂ x := by
  rcases path_before (x := fresh p h) (sound_fresh p h) hpath with ⟨y, hy, -, -⟩ | ⟨L₁, L₂, h₁, r, rfl, hfirst, hrest⟩
  · exact .inl ⟨y, hy⟩
  · exact .inr ⟨r, h₁, L₁, L₂, rfl, hfirst, hrest⟩

theorem path_bind {p : Program σ α} {g : α → Program σ β} {x : Thread σ β} (hpath : (fresh (p.bind g) h).Path L x) :
    (∃ y, (fresh p h).Path L y) ∨
      ∃ a h₁ L₁ L₂, L = L₁ ++ L₂ ∧ p.Goes h L₁ (.ok a) h₁ ∧ (fresh (g a) h₁).Path L₂ x := by
  rw [bind_eq_caught_bind] at hpath
  rcases path_caught_bind hpath with hy | ⟨r, h₁, L₁, L₂, rfl, hfirst, hrest⟩
  · exact .inl hy
  · cases r with
    | ok a => exact .inr ⟨a, h₁, L₁, L₂, rfl, hfirst, hrest⟩
    | error e =>
      obtain ⟨rfl, -⟩ := path_of_over rfl hrest
      exact .inl ⟨_, by rw [List.append_nil]; exact hfirst⟩

end Thread

namespace Program

theorem caught_bind_caught_bind {γ : Type} (p : Program σ α) (k : Except Payload α → Program σ β)
    (k' : Except Payload β → Program σ γ) :
    (p.caught.bind k).caught.bind k' = p.caught.bind fun r => (k r).caught.bind k' := by
  induction p <;> simp_all [caught, bind]

end Program

namespace Pool

variable {P Q : Pool σ} {t : Nat} {es : List (Nat × Deed σ)} {r : Except Payload β}

/-- **Part by part.** Who goes through code and what follows it goes through the one and then the other. -/
theorem Through.caught_bind {p : Program σ α} {k : Except Payload α → Program σ β}
    (hthrough : P.Through t (p.caught.bind k) h es r h' Q) :
    ∃ es₁ es₂ r₁ h₁ P₁, es = es₁ ++ es₂ ∧ P.Through t p h es₁ r₁ h₁ P₁ ∧ P₁.Through t (k r₁) h₁ es₂ r h' Q := by
  obtain ⟨hrun, ⟨γ, k', hP, hQ⟩, hgoes⟩ := hthrough
  obtain ⟨r₁, h₁, L₁, L₂, hdeeds, hfirst, hrest⟩ := goes_caught_bind.1 hgoes
  rw [caught_bind_caught_bind] at hP
  rcases hrun.through hP with ⟨x, hpath, hover, -⟩ | ⟨es₁, es₂, r₁', h₁', P₁, rfl, hpart, hruns, hk⟩
  · rw [hdeeds] at hpath
    obtain ⟨-, rfl⟩ := hfirst.ended hpath
    rw [Thread.over?_rethrow] at hover
    cases hover
  · rw [deedsOf_append] at hdeeds
    obtain ⟨-, rfl, rfl, rfl⟩ := hfirst.unique hpart.goes hdeeds.symm
    exact ⟨es₁, es₂, r₁, h₁, P₁, rfl, hpart, hruns, ⟨γ, k', hk, hQ⟩, hrest⟩

theorem Through.makes_bind {p : Program σ α} {g : α → Program σ β} {a : α} {L : List (Deed σ)}
    (hp : p.Makes h L a h₁) (hthrough : P.Through t (p.bind g) h es r h' Q) :
    ∃ es₁ es₂ P₁, es = es₁ ++ es₂ ∧ P.Runs es₁ P₁ ∧ deedsOf t es₁ = L ∧ P₁.Through t (g a) h₁ es₂ r h' Q := by
  rw [bind_eq_caught_bind] at hthrough
  obtain ⟨es₁, es₂, r₁, h₂, P₁, rfl, hpart, hrest⟩ := hthrough.caught_bind
  obtain ⟨hdeeds, rfl, rfl⟩ := (hp _ _ _).1 hpart.goes
  exact ⟨es₁, es₂, P₁, rfl, hpart.run, hdeeds, hrest⟩

/-- **Code under a context.** The thread goes through the code with the context attached, and then has
what it had before. -/
theorem Through.withContext [Inhabited σ] {c : Context} {body : Program σ β}
    (hthrough : P.Through t (withContext c body) h es r h' Q) :
    ∃ es₁ es₂ es₃ P₁ P₂ h₁, es = es₁ ++ (es₂ ++ es₃) ∧ P.Runs es₁ P₁ ∧ deedsOf t es₁ = attaching c h ∧
      P₁.Through t body (some c) es₂ r h₁ P₂ ∧ P₂.Runs es₃ Q ∧ deedsOf t es₃ = releasing h h₁ ∧ h' = h := by
  obtain ⟨es₁, rest, P₁, rfl, hruns₁, hdeeds₁, hthrough⟩ := hthrough.makes_bind (makes_attach c)
  obtain ⟨es₂, es₃, r₁, h₁, P₂, rfl, hbody, hrest⟩ := hthrough.caught_bind
  obtain ⟨L, hdeeds, hlast⟩ := (makes_release _).bind.1 hrest.goes
  obtain ⟨rfl, rfl, rfl⟩ := goes_rethrow.1 hlast
  rw [List.append_nil] at hdeeds
  exact ⟨es₁, es₂, es₃, P₁, P₂, h₁, rfl, hruns₁, hdeeds₁, hbody, hrest.run, hdeeds, rfl⟩

end Pool

end ResilientCalls
