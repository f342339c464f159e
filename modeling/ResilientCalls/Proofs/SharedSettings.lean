import ResilientCalls.Proofs.Derivations
import ResilientCalls.Proofs.Endings
import ResilientCalls.Requester.Settings

/-!
# Settings that go into one storage

Requesters are set up one after the other over one storage, and now and then the stored context is replaced. Settings
that are refused leave the storage alone, whatever else they ask for. All others replace what they are about and leave
the rest (`effect_build`). So each strategy comes from the latest settings for it since the whole context was replaced,
or from that context (`settings_last`).
-/

namespace ResilientCalls

open Program

variable {σ : Type} {others : Others σ} {limit : Moment} {i : StorageId}

/-! ## Settings by calls -/

/-- A call that makes one setting. -/
inductive Setting
  | name (name : String)
  | context (c : Context)
  | storage (i : StorageId)
  | timeout (bound : Duration)
  | retry (count : Nat) (interval : Duration)
  | connect (s : ConnectStrategy)
  | failover (s : FailoverStrategy)

namespace Setting

def context? : Setting → Option Context
  | context c => some c
  | _ => none

def storage? : Setting → Option StorageId
  | storage i => some i
  | _ => none

def timeout? : Setting → Option Duration
  | timeout bound => some bound
  | _ => none

def retry? : Setting → Option (Nat × Duration)
  | retry count interval => some (count, interval)
  | _ => none

def connect? : Setting → Option ConnectStrategy
  | connect s => some s
  | _ => none

def failover? : Setting → Option FailoverStrategy
  | failover s => some s
  | _ => none

/-- The strategy of this kind that the setting stands for, or why there is none. -/
def asks? (x : Setting) : StrategyKind → Option (Except Failure Strategy)
  | .timeout => x.timeout?.map fun d => Strategy.timeout <$> TimeoutStrategy.make d
  | .retry => x.retry?.map fun r => Strategy.retry <$> RetryStrategy.make r.1 r.2
  | .connect => x.connect?.map fun s => .ok (.connect s)
  | .failover => x.failover?.map fun s => .ok (.failover s)

end Setting

namespace Settings

/-- One more setting; an earlier one of the same kind goes. -/
def andThen (s : Settings) : Setting → Settings
  | .name name => { s with name := some name }
  | .context c => { s with context := some c }
  | .storage i => { s with storage := some i }
  | .timeout bound => { s with timeout := some bound }
  | .retry count interval => { s with retry := some (count, interval) }
  | .connect c => { s with connect := some c }
  | .failover f => { s with failover := some f }

/-- The settings that calls in a row make. -/
def ofCalls (xs : List Setting) : Settings := xs.foldl andThen .none

/-- The strategy that the last setting of this kind stands for. -/
def asked? (xs : List Setting) (kind : StrategyKind) : Option Strategy :=
  (latest? (Setting.asks? · kind) xs).bind Except.toOption

/-- The settings are refused, with this failure: their bound is zero, or else their number of retries. -/
inductive Refused (xs : List Setting) : Failure → Prop
  | timeout {bound : Duration} : latest? Setting.timeout? xs = some bound → bound.isZero = true →
      Refused xs (.invalidArgument "timeout must be greater than zero")
  | retry {interval : Duration} : (∀ bound, latest? Setting.timeout? xs = some bound → bound.isZero = false) →
      latest? Setting.retry? xs = some (0, interval) → Refused xs (.invalidArgument "retry count must be positive")

section Calls

variable (xs : List Setting)

theorem field_ofCalls {β : Type} {get : Settings → Option β} {f : Setting → Option β}
    (hget : ∀ s x, get (andThen s x) = (f x).or (get s)) (hnone : get .none = Option.none) :
    get (ofCalls xs) = latest? f xs := by
  rw [ofCalls, foldl_latest _ hget, hnone, Option.or_none]

theorem context_ofCalls : (ofCalls xs).context = latest? Setting.context? xs :=
  field_ofCalls xs (fun s x => by cases x <;> rfl) rfl

theorem storage_ofCalls : (ofCalls xs).storage = latest? Setting.storage? xs :=
  field_ofCalls xs (fun s x => by cases x <;> rfl) rfl

theorem timeout_ofCalls : (ofCalls xs).timeout = latest? Setting.timeout? xs :=
  field_ofCalls xs (fun s x => by cases x <;> rfl) rfl

theorem retry_ofCalls : (ofCalls xs).retry = latest? Setting.retry? xs :=
  field_ofCalls xs (fun s x => by cases x <;> rfl) rfl

theorem connect_ofCalls : (ofCalls xs).connect = latest? Setting.connect? xs :=
  field_ofCalls xs (fun s x => by cases x <;> rfl) rfl

theorem failover_ofCalls : (ofCalls xs).failover = latest? Setting.failover? xs :=
  field_ofCalls xs (fun s x => by cases x <;> rfl) rfl

end Calls

theorem make_timeout (t : TimeoutStrategy) : TimeoutStrategy.make t.timeout = .ok t := dif_pos t.timeout_pos

theorem make_retry (r : RetryStrategy) : RetryStrategy.make r.count r.interval = .ok r := dif_pos r.count_pos

theorem strategies_eq_ok {s : Settings} {t : Option TimeoutStrategy} {r : Option RetryStrategy}
    (ht : s.timeout = t.map TimeoutStrategy.timeout) (hr : s.retry = r.map fun r => (r.count, r.interval)) :
    s.strategies = .ok ((t.map Strategy.timeout).toList ++ (r.map Strategy.retry).toList ++
      (s.connect.map Strategy.connect).toList ++ (s.failover.map Strategy.failover).toList) := by
  unfold strategies
  rw [ht, hr]
  cases t with
  | none =>
    cases r with
    | none => rfl
    | some r => simp [make_retry]
  | some t =>
    cases r with
    | none => simp [make_timeout]
    | some r => simp [make_timeout, make_retry]; rfl

theorem zero_or_checked (bound : Option Duration) :
    (∃ d, bound = some d ∧ d.isZero = true) ∨ ∃ t : Option TimeoutStrategy, bound = t.map TimeoutStrategy.timeout := by
  cases bound with
  | none => exact .inr ⟨.none, rfl⟩
  | some d =>
    cases hzero : d.isZero with
    | true => exact .inl ⟨d, rfl, hzero⟩
    | false => exact .inr ⟨some ⟨d, hzero⟩, rfl⟩

theorem none_or_checked (retry : Option (Nat × Duration)) :
    (∃ interval, retry = some (0, interval)) ∨
      ∃ r : Option RetryStrategy, retry = r.map fun r => (r.count, r.interval) := by
  match retry with
  | .none => exact .inr ⟨.none, rfl⟩
  | some (0, interval) => exact .inl ⟨interval, rfl⟩
  | some (n + 1, interval) => exact .inr ⟨some ⟨n + 1, interval, n.succ_pos⟩, rfl⟩

section Checked

variable {xs : List Setting} {t : Option TimeoutStrategy} {r : Option RetryStrategy}
  (ht : latest? Setting.timeout? xs = t.map TimeoutStrategy.timeout)
  (hr : latest? Setting.retry? xs = r.map fun r => (r.count, r.interval))

include ht hr

theorem not_refused (e : Failure) : ¬ Refused xs e := by
  intro he
  cases he with
  | timeout hd hzero =>
    obtain ⟨t', -, rfl⟩ := Option.map_eq_some_iff.1 (ht.symm.trans hd)
    exact absurd hzero (by simp [t'.timeout_pos])
  | retry _ hd =>
    obtain ⟨r', -, hzero⟩ := Option.map_eq_some_iff.1 (hr.symm.trans hd)
    exact absurd (congrArg Prod.fst hzero) (Nat.ne_of_gt r'.count_pos)

theorem asked?_eq (kind : StrategyKind) : asked? xs kind = match kind with
    | .timeout => t.map Strategy.timeout
    | .retry => r.map Strategy.retry
    | .connect => (latest? Setting.connect? xs).map Strategy.connect
    | .failover => (latest? Setting.failover? xs).map Strategy.failover := by
  unfold asked? Setting.asks?
  cases kind with
  | timeout =>
    rw [latest?_map, ht]
    cases t <;> simp [make_timeout, Except.toOption]
  | retry =>
    rw [latest?_map, hr]
    cases r <;> simp [make_retry, Except.toOption]
  | connect | failover =>
    rw [latest?_map]
    cases latest? _ xs <;> rfl

end Checked

theorem strategies_ofCalls (xs : List Setting) :
    (∃ e, Refused xs e ∧ (ofCalls xs).strategies = .error e) ∨
      (∀ e, ¬ Refused xs e) ∧ ∃ ss, (ofCalls xs).strategies = .ok ss ∧
        ∀ kind, latest? (Strategy.ofKind? kind) ss = asked? xs kind := by
  rcases zero_or_checked (latest? Setting.timeout? xs) with ⟨d, hd, hzero⟩ | ⟨t, ht⟩
  · have hmake : TimeoutStrategy.make d = .error (.invalidArgument "timeout must be greater than zero") :=
      dif_neg (by simp [hzero])
    refine .inl ⟨_, .timeout hd hzero, ?_⟩
    rw [strategies, timeout_ofCalls, hd]
    simp [hmake]
    rfl
  rcases none_or_checked (latest? Setting.retry? xs) with ⟨interval, hr⟩ | ⟨r, hr⟩
  · have hmake : RetryStrategy.make 0 interval = .error (.invalidArgument "retry count must be positive") := rfl
    have hpos : ∀ d, latest? Setting.timeout? xs = some d → d.isZero = false := fun d hd => by
      obtain ⟨t', -, rfl⟩ := Option.map_eq_some_iff.1 (ht.symm.trans hd)
      exact t'.timeout_pos
    refine .inl ⟨_, .retry hpos hr, ?_⟩
    rw [strategies, timeout_ofCalls, retry_ofCalls, ht, hr]
    cases t with
    | none => simp [hmake]
    | some t =>
      simp only [Option.map_some, Option.mapM_some, make_timeout, hmake]
      rfl
  · refine .inr ⟨not_refused ht hr, _,
      strategies_eq_ok ((timeout_ofCalls xs).trans ht) ((retry_ofCalls xs).trans hr), fun kind => ?_⟩
    rw [asked?_eq ht hr, connect_ofCalls, failover_ofCalls]
    cases kind <;> cases t <;> cases r <;> cases latest? Setting.connect? xs <;>
      cases latest? Setting.failover? xs <;> rfl

end Settings

/-! ## What becomes of the storage -/

/-- The shared state with another context in a storage. -/
def World.store (w : World σ) (i : StorageId) (c : Context) : World σ :=
  { w with storages := fun j => if j = i then c else w.storages j }

@[simp] theorem storages_store (w : World σ) (i : StorageId) (c : Context) : (w.store i c).storages i = c := if_pos rfl

@[simp] theorem store_store (w : World σ) (i : StorageId) (c c' : Context) :
    (w.store i c).store i c' = w.store i c' := by
  simp only [World.store]
  congr 1
  funext j
  split <;> rfl

@[simp] theorem store_self (w : World σ) (i : StorageId) : w.store i (w.storages i) = w := by
  have hsame : (fun j => if j = i then w.storages i else w.storages j) = w.storages := by
    funext j
    split <;> simp_all
  rw [World.store, hsame]

theorem run_set (i : StorageId) (c : Context) (h : Option Context) (w : World σ) :
    (Storage.set i c).run others limit h w = ⟨.value (w.storages i), h, w.store i c⟩ := rfl

namespace Settings

theorem run_apply_of_error {s : Settings} {e : Failure} (hs : s.strategies = .error e) (h : Option Context)
    (w : World σ) : s.apply.run others limit h w = ⟨.value (.error e), h, w⟩ := by
  rw [apply, hs]
  rfl

theorem run_apply_of_ok {s : Settings} {ss : List Strategy} (hs : s.strategies = .ok ss) (hi : s.storage = some i)
    (h : Option Context) (w : World σ) :
    s.apply.run others limit h w =
      ⟨.value (.ok i), h, w.store i ((s.context.getD (w.storages i)).withStrategies ss)⟩ := by
  have hupdate : ∀ w : World σ, (if ss.isEmpty = true then done (.ok i)
      else (Storage.update i (·.withStrategies ss)).bind fun _ => done (.ok i) :
        Program σ (Except Failure StorageId)).run others limit h w =
          ⟨.value (.ok i), h, w.store i ((w.storages i).withStrategies ss)⟩ := fun w => by
    cases ss with
    | nil =>
      show _ = (⟨.value (.ok i), h, w.store i (w.storages i)⟩ : Final σ (Except Failure StorageId))
      rw [store_self]
      rfl
    | cons s ss => rfl
  rw [apply, hs]
  simp only [hi, bind_eq, pure_eq, done_bind]
  cases s.context with
  | none => exact hupdate w
  | some c =>
    rw [run_bind, run_set, Final.andThen_of_value rfl]
    exact (hupdate _).trans (by simp)

end Settings

/-- A change of a shared storage. -/
inductive Change
  /-- A requester is set up with these settings. -/
  | build (xs : List Setting)
  /-- The stored context is replaced. -/
  | put (c : Context)

/-- A change, and what it came to. -/
abbrev Change.Done := Change × Except Failure StorageId

namespace Change

def code (i : StorageId) : Change → Program σ (Except Failure StorageId)
  | build xs => (Settings.ofCalls xs).apply
  | put c => (Storage.set i c).bind fun _ => done (.ok i)

/-- Changes one after the other, each with what it came to. -/
def row (i : StorageId) : List Change → Program σ (List Done)
  | [] => return []
  | x :: xs => do
      let r ← x.code i
      let rest ← row i xs
      return (x, r) :: rest

/-- What a change that came to some end makes of the stored context. -/
inductive Effect (i : StorageId) : Done → Context → Context → Prop
  | put {c₀ c : Context} : Effect i (put c, .ok i) c₀ c
  /-- Refused settings change nothing. -/
  | refused {xs : List Setting} {e : Failure} {c : Context} : Settings.Refused xs e → Effect i (build xs, .error e) c c
  /-- The scope is that of the given context, or as it was. Each kind that the settings are about comes from its last
  setting; the others are as in the given context, or as they were. -/
  | accepted {xs : List Setting} {c₀ c : Context} : (∀ e, ¬ Settings.Refused xs e) →
      c.scope = ((latest? Setting.context? xs).getD c₀).scope →
      (∀ kind, c.get? kind =
        (Settings.asked? xs kind).or (((latest? Setting.context? xs).getD c₀).get? kind)) →
      Effect i (build xs, .ok i) c₀ c

/-- What changes in a row make of the stored context. -/
inductive Effects (i : StorageId) : List Done → Context → Context → Prop
  | nothing {c : Context} : Effects i [] c c
  | next {x : Done} {xs : List Done} {c₀ c₁ c : Context} : Effect i x c₀ c₁ → Effects i xs c₁ c →
      Effects i (x :: xs) c₀ c

/-- The context that took the place of the whole stored one. -/
def replaced? : Done → Option Context
  | (put c, _) => some c
  | (build xs, .ok _) => latest? Setting.context? xs
  | (build _, .error _) => none

/-- The strategy of a kind that went into the stored context with accepted settings. -/
def settled? (kind : StrategyKind) : Done → Option Strategy
  | (build xs, .ok _) => Settings.asked? xs kind
  | _ => none

theorem effect_build {xs : List Setting} (hi : latest? Setting.storage? xs = some i) (h : Option Context)
    (w : World σ) :
    ∃ r c, ((build xs).code i).run others limit h w = ⟨.value r, h, w.store i c⟩ ∧
      Effect i (build xs, r) (w.storages i) c := by
  rcases Settings.strategies_ofCalls xs with ⟨e, he, herror⟩ | ⟨hvalid, ss, hss, hasked⟩
  · exact ⟨_, w.storages i, by rw [store_self]; exact Settings.run_apply_of_error herror h w, .refused he⟩
  · refine ⟨_, _, Settings.run_apply_of_ok hss ((Settings.storage_ofCalls xs).trans hi) h w, ?_⟩
    rw [Settings.context_ofCalls]
    refine .accepted hvalid (Context.scope_withStrategies _ ss) fun kind => ?_
    rw [Context.get?_withStrategies, hasked]

theorem effects_row (others : Others σ) (limit : Moment) {xs : List Change}
    (hi : ∀ ys, build ys ∈ xs → latest? Setting.storage? ys = some i) (h : Option Context) (w : World σ) :
    ∃ done c, (row i xs).run others limit h w = ⟨.value done, h, w.store i c⟩ ∧ done.map Prod.fst = xs ∧
      Effects i done (w.storages i) c := by
  induction xs generalizing w with
  | nil => exact ⟨[], w.storages i, by rw [store_self]; rfl, rfl, .nothing⟩
  | cons x xs ih =>
    obtain ⟨r, c₁, hrun, heffect⟩ : ∃ r c, (x.code i).run others limit h w = ⟨.value r, h, w.store i c⟩ ∧
        Effect i (x, r) (w.storages i) c := by
      cases x with
      | build ys => exact effect_build (hi ys List.mem_cons_self) h w
      | put c => exact ⟨.ok i, c, rfl, .put⟩
    obtain ⟨done, c, hrest, rfl, hdone⟩ := ih (fun ys hys => hi ys (List.mem_cons_of_mem x hys)) (w.store i c₁)
    rw [storages_store] at hdone
    rw [store_store] at hrest
    refine ⟨(x, r) :: done, c, ?_, rfl, .next heffect hdone⟩
    rw [row, bind_eq, run_bind, hrun, Final.andThen_of_value rfl, bind_eq, run_bind, hrest, Final.andThen_of_value rfl]
    rfl

section Effects

variable {x : Done} {xs ys : List Done} {c₀ c : Context}

theorem Effect.scope (hx : Effect i x c₀ c) : c.scope = ((replaced? x).getD c₀).scope := by
  cases hx with
  | put | refused => rfl
  | accepted _ hscope => exact hscope

theorem Effect.get? (hx : Effect i x c₀ c) (kind : StrategyKind) :
    c.get? kind = (settled? kind x).or (((replaced? x).getD c₀).get? kind) := by
  cases hx with
  | put | refused => rfl
  | accepted _ _ hget => exact hget kind

theorem Effects.overlaid (hxs : Effects i xs c₀ c) (hnone : ∀ y ∈ xs, replaced? y = none) :
    c.scope = c₀.scope ∧ ∀ kind, c.get? kind = (latest? (settled? kind) xs).or (c₀.get? kind) := by
  induction hxs with
  | nothing => exact ⟨rfl, fun kind => rfl⟩
  | @next x xs c₀ c₁ c hx _ ih =>
    obtain ⟨hscope, hget⟩ := ih fun y hy => hnone y (List.mem_cons_of_mem x hy)
    have hfirst : replaced? x = none := hnone x List.mem_cons_self
    refine ⟨hscope.trans (by rw [hx.scope, hfirst]; rfl), fun kind => ?_⟩
    rw [hget, hx.get?, hfirst, latest?_cons, Option.or_assoc]
    rfl

theorem Effects.since (hxs : Effects i (ys ++ x :: xs) c₀ c) : ∃ c₁ c₂, Effect i x c₁ c₂ ∧ Effects i xs c₂ c := by
  induction ys generalizing c₀ with
  | nil =>
    cases hxs with
    | next hx hrest => exact ⟨_, _, hx, hrest⟩
  | cons y ys ih =>
    cases hxs with
    | next _ hrest => exact ih hrest

end Effects

/-- **Settings in one storage.** Whatever is set up over a storage and put there, each change does to the stored
context what is said of it, and nothing else. In the end each kind has the strategy that accepted settings asked for
last since the whole context was replaced, and apart from that all is as in the context that replaced it, or as it was
at first. -/
theorem settings_last (others : Others σ) (limit : Moment) {xs : List Change}
    (hi : ∀ ys, build ys ∈ xs → latest? Setting.storage? ys = some i) (h : Option Context) (w : World σ) :
    ∃ done c, (row i xs).run others limit h w = ⟨.value done, h, w.store i c⟩ ∧ done.map Prod.fst = xs ∧
      Effects i done (w.storages i) c ∧
      (∀ before x after c₁, done = before ++ x :: after → replaced? x = some c₁ → (∀ y ∈ after, replaced? y = none) →
        c.scope = c₁.scope ∧ ∀ kind, c.get? kind = (latest? (settled? kind) (x :: after)).or (c₁.get? kind)) ∧
      ((∀ y ∈ done, replaced? y = none) → c.scope = (w.storages i).scope ∧
        ∀ kind, c.get? kind = (latest? (settled? kind) done).or ((w.storages i).get? kind)) := by
  obtain ⟨done, c, hrun, hfst, heffects⟩ := effects_row others limit hi h w
  refine ⟨done, c, hrun, hfst, heffects, ?_, heffects.overlaid⟩
  rintro before x after c₁ rfl hx hafter
  obtain ⟨c₂, c₃, heffect, hrest⟩ := heffects.since
  obtain ⟨hscope, hget⟩ := hrest.overlaid hafter
  refine ⟨by rw [hscope, heffect.scope, hx]; rfl, fun kind => ?_⟩
  rw [hget, heffect.get?, hx, latest?_cons, Option.or_assoc]
  rfl

/-- Two requesters are set up over a storage after a context was put there, and between them settings are refused
that bring another context and a bound of zero. The second requester gets its last number of retries, the bound is
that of the first one, and the scope is still that of the context. -/
theorem settings_last_refused :
    let client : Context := ⟨"client", [.retry ⟨1, .zero, by decide⟩]⟩
    let bound : Duration := .ofNanos 5 (by decide)
    let xs := [put client, build [.timeout .zero, .storage 0, .timeout bound],
      build [.storage 0, .context ⟨"other", []⟩, .retry 7 .zero, .timeout .zero],
      build [.name "second", .retry 0 .zero, .storage 0, .retry 2 bound]]
    (∀ ys, build ys ∈ xs → latest? Setting.storage? ys = some 0) ∧
      ∃ done c, (row 0 xs).run nobody none none (World.start ()) =
          ⟨.value done, none, (World.start ()).store 0 c⟩ ∧
        done.map Prod.snd = [.ok 0, .ok 0, .error (.invalidArgument "timeout must be greater than zero"), .ok 0] ∧
        c.scope = "client" ∧ c.get? .timeout = some (.timeout ⟨bound, rfl⟩) ∧
        c.get? .retry = some (.retry ⟨2, bound, by decide⟩) := by
  intro client bound xs
  have hi : ∀ ys, build ys ∈ xs → latest? Setting.storage? ys = some 0 := by
    simp only [xs, List.mem_cons, List.not_mem_nil, or_false, reduceCtorEq, false_or, build.injEq]
    rintro ys (rfl | rfl | rfl) <;> rfl
  obtain ⟨done, c, hrun, -, -, hsince, -⟩ := settings_last nobody none hi none (World.start ())
  obtain rfl := Exit.value.inj (congrArg Final.exit hrun)
  obtain ⟨hscope, hget⟩ := hsince [] _ _ client rfl rfl (by simp [replaced?, latest?, Setting.context?])
  exact ⟨hi, _, c, hrun, rfl, hscope, hget .timeout, hget .retry⟩

end Change

end ResilientCalls
