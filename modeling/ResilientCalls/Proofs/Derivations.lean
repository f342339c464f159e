import Mathlib.Data.List.Induction
import Mathlib.Data.List.Nodup
import ResilientCalls.Context

/-!
# Derived contexts

A context that is derived from the empty one, step by step, is a matter of the last steps only: of each kind it has
the strategy that was attached last, in the order of these attachments (`strategies_derived`), and its scope is the
last one set. The same holds of any value that each step replaces or leaves as it is (`foldl_latest`).
-/

namespace ResilientCalls

variable {α β γ : Type}

/-! ## The last of some steps -/

/-- What the last of some steps brings, among those that bring anything. -/
def latest? (f : α → Option β) (xs : List α) : Option β := (xs.filterMap f).getLast?

theorem latest?_cons (f : α → Option β) (x : α) (xs : List α) : latest? f (x :: xs) = (latest? f xs).or (f x) := by
  unfold latest?
  cases hx : f x with
  | none => rw [List.filterMap_cons_none hx, Option.or_none]
  | some b =>
    rw [List.filterMap_cons_some hx, List.getLast?_cons]
    cases (xs.filterMap f).getLast? <;> rfl

theorem latest?_map (f : α → Option β) (g : β → γ) (xs : List α) :
    latest? (fun x => (f x).map g) xs = (latest? f xs).map g := by
  rw [latest?, latest?, ← List.getLast?_map, List.map_filterMap]

theorem foldl_latest (get : γ → Option β) {step : γ → α → γ} {f : α → Option β}
    (hstep : ∀ c x, get (step c x) = (f x).or (get c)) (c : γ) (xs : List α) :
    get (xs.foldl step c) = (latest? f xs).or (get c) := by
  induction xs generalizing c with
  | nil => rfl
  | cons x xs ih => rw [List.foldl_cons, ih, hstep, latest?_cons, Option.or_assoc]

/-! ## Strategies of one kind -/

namespace Strategy

/-- The strategy, if it is of this kind. -/
def ofKind? (kind : StrategyKind) (s : Strategy) : Option Strategy := if s.kind = kind then some s else none

/-- Of the strategies of one kind the last one stays, where it stands. -/
def lastOfEachKind : List Strategy → List Strategy
  | [] => []
  | s :: ss => if ∃ t ∈ ss, t.kind = s.kind then lastOfEachKind ss else s :: lastOfEachKind ss

theorem mem_of_mem_lastOfEachKind {ss : List Strategy} {s : Strategy} (hs : s ∈ lastOfEachKind ss) : s ∈ ss := by
  induction ss with
  | nil => exact hs
  | cons t ss ih =>
    rw [lastOfEachKind] at hs
    split at hs
    · exact List.mem_cons_of_mem t (ih hs)
    · exact (List.mem_cons.1 hs).elim (fun heq => heq ▸ List.mem_cons_self) fun hs => List.mem_cons_of_mem t (ih hs)

theorem nodup_lastOfEachKind (ss : List Strategy) : ((lastOfEachKind ss).map kind).Nodup := by
  induction ss with
  | nil => exact List.nodup_nil
  | cons s ss ih =>
    rw [lastOfEachKind]
    split
    · exact ih
    · rename_i hlast
      refine List.nodup_cons.2 ⟨fun hmem => ?_, ih⟩
      obtain ⟨t, ht, hkind⟩ := List.mem_map.1 hmem
      exact hlast ⟨t, mem_of_mem_lastOfEachKind ht, hkind⟩

theorem lastOfEachKind_append_singleton (ss : List Strategy) (s : Strategy) :
    lastOfEachKind (ss ++ [s]) = (lastOfEachKind ss).filter (·.kind ≠ s.kind) ++ [s] := by
  induction ss with
  | nil => simp [lastOfEachKind]
  | cons t ss ih =>
    rw [List.cons_append, lastOfEachKind, lastOfEachKind, ih]
    by_cases hfollowed : ∃ u ∈ ss, u.kind = t.kind
    · obtain ⟨u, hu, hkind⟩ := hfollowed
      rw [if_pos ⟨u, List.mem_append_left _ hu, hkind⟩, if_pos ⟨u, hu, hkind⟩]
    · by_cases hkind : s.kind = t.kind
      · rw [if_pos ⟨s, List.mem_append_right _ (List.mem_singleton_self s), hkind⟩, if_neg hfollowed,
          List.filter_cons_of_neg (by simp [hkind])]
      · rw [if_neg, if_neg hfollowed, List.filter_cons_of_pos (by simpa using Ne.symm hkind), List.cons_append]
        rintro ⟨u, hu, huk⟩
        rcases List.mem_append.1 hu with hu | hu
        · exact hfollowed ⟨u, hu, huk⟩
        · exact hkind (List.mem_singleton.1 hu ▸ huk)

end Strategy

/-! ## Derivations -/

/-- A step from one context to the next. -/
inductive Derivation
  | scope (name : String)
  | strategy (s : Strategy)

namespace Derivation

/-- The scope that the step sets. -/
def scope? : Derivation → Option String
  | scope name => some name
  | strategy _ => none

/-- The strategy that the step attaches. -/
def strategy? : Derivation → Option Strategy
  | scope _ => none
  | strategy s => some s

/-- The strategy that the step attaches, if it is of this kind. -/
def attaches? (kind : StrategyKind) (d : Derivation) : Option Strategy := d.strategy?.bind (Strategy.ofKind? kind)

end Derivation

namespace Context

def derive (c : Context) : Derivation → Context
  | .scope name => c.withScope name
  | .strategy s => c.withStrategy s

/-- What steps in a row make of the empty context. -/
def derived (ds : List Derivation) : Context := ds.foldl derive .empty

/-- The strategy of a kind, as the accessor for strategies of its own type shows it. -/
def typed? (c : Context) : StrategyKind → Option Strategy
  | .connect => c.connect?.map .connect
  | .timeout => c.timeout?.map .timeout
  | .failover => c.failover?.map .failover
  | .retry => c.retry?.map .retry

theorem kind_of_get? {c : Context} {kind : StrategyKind} {s : Strategy} (hs : c.get? kind = some s) :
    s.kind = kind := by
  simpa using List.find?_some hs

theorem typed?_eq (c : Context) (kind : StrategyKind) : c.typed? kind = c.get? kind := by
  cases hs : c.get? kind with
  | none => cases kind <;> simp [typed?, connect?, timeout?, failover?, retry?, hs]
  | some s =>
    have hkind := kind_of_get? hs
    subst hkind
    cases s <;> simp [typed?, connect?, timeout?, failover?, retry?, Strategy.kind] at hs ⊢ <;> simp [hs]

theorem get?_derive (kind : StrategyKind) (c : Context) (d : Derivation) :
    (c.derive d).get? kind = (d.attaches? kind).or (c.get? kind) := by
  cases d with
  | scope name => rfl
  | strategy s =>
    rw [derive, get?_withStrategy, Derivation.attaches?, Derivation.strategy?, Option.bind_some, Strategy.ofKind?]
    split <;> rfl

theorem get?_withStrategies (kind : StrategyKind) (c : Context) (ss : List Strategy) :
    (c.withStrategies ss).get? kind = (latest? (Strategy.ofKind? kind) ss).or (c.get? kind) :=
  foldl_latest (fun c : Context => c.get? kind) (fun c s => get?_derive kind c (.strategy s)) c ss

theorem scope_withStrategies (c : Context) (ss : List Strategy) : (c.withStrategies ss).scope = c.scope := by
  induction ss generalizing c with
  | nil => rfl
  | cons s ss ih => exact ih (c.withStrategy s)

theorem strategies_derived (ds : List Derivation) :
    (derived ds).strategies = Strategy.lastOfEachKind (ds.filterMap Derivation.strategy?) := by
  induction ds using List.reverseRecOn with
  | nil => rfl
  | append_singleton ds d ih =>
    rw [derived, List.foldl_append, List.foldl_cons, List.foldl_nil, List.filterMap_append]
    cases d with
    | scope name =>
      have hnone : [Derivation.scope name].filterMap Derivation.strategy? = [] := rfl
      rw [hnone, List.append_nil]
      exact ih
    | strategy s =>
      have hadd : [Derivation.strategy s].filterMap Derivation.strategy? = [s] := rfl
      rw [hadd, Strategy.lastOfEachKind_append_singleton, ← ih]
      rfl

theorem get?_derived (kind : StrategyKind) (ds : List Derivation) :
    (derived ds).get? kind = latest? (Derivation.attaches? kind) ds := by
  rw [derived, foldl_latest (fun c : Context => c.get? kind) (get?_derive kind)]
  exact Option.or_none

theorem scope_derived (ds : List Derivation) : (derived ds).scope = (latest? Derivation.scope? ds).getD "" := by
  have hstep : ∀ (c : Context) (d : Derivation), some (c.derive d).scope = d.scope?.or (some c.scope) := fun c d => by
    cases d <;> rfl
  have hscope := foldl_latest (fun c : Context => some c.scope) hstep .empty ds
  cases hlast : latest? Derivation.scope? ds with
  | none => rw [hlast] at hscope; exact Option.some.inj hscope
  | some name => rw [hlast] at hscope; exact Option.some.inj hscope

/-! ## Contexts that resolve alike -/

/-- The contexts have the same scope and the same strategy of each kind, whatever their order. -/
structure Alike (c c' : Context) : Prop where
  scope : c'.scope = c.scope
  get? : ∀ kind, c'.get? kind = c.get? kind

namespace Alike

variable {c c' : Context}

theorem refl (c : Context) : c.Alike c := ⟨rfl, fun _ => rfl⟩

theorem symm (hc : c.Alike c') : c'.Alike c := ⟨hc.scope.symm, fun kind => (hc.get? kind).symm⟩

theorem withScope (hc : c.Alike c') (name : String) : (c.withScope name).Alike (c'.withScope name) := ⟨rfl, hc.get?⟩

theorem connect? (hc : c.Alike c') : c'.connect? = c.connect? := by rw [Context.connect?, hc.get?, Context.connect?]

theorem timeout? (hc : c.Alike c') : c'.timeout? = c.timeout? := by rw [Context.timeout?, hc.get?, Context.timeout?]

theorem failover? (hc : c.Alike c') : c'.failover? = c.failover? := by
  rw [Context.failover?, hc.get?, Context.failover?]

theorem retry? (hc : c.Alike c') : c'.retry? = c.retry? := by rw [Context.retry?, hc.get?, Context.retry?]

end Alike

theorem alike_derived {ds ds' : List Derivation} (hscope : latest? Derivation.scope? ds' = latest? Derivation.scope? ds)
    (hkinds : ∀ kind, latest? (Derivation.attaches? kind) ds' = latest? (Derivation.attaches? kind) ds) :
    (derived ds).Alike (derived ds') where
  scope := by rw [scope_derived, scope_derived, hscope]
  get? kind := by rw [get?_derived, get?_derived, hkinds]

end Context

end ResilientCalls
