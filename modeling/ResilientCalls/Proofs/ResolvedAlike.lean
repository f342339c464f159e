import ResilientCalls.Proofs.RetryPauses
import ResilientCalls.Proofs.UnreachedBound

/-!
# Requests under derived contexts

A request asks its context for one strategy of each kind and for nothing else. So of the steps by which the context
was derived only the last one for each kind matters, and requests under contexts that resolve alike are the same
(`Context.last_derivations_decide`): they are the same code but for the context that they attach, and client code that
answers alike sees them make the same attempts with the same pauses and return the same result.
-/

namespace ResilientCalls

open Program
open Piece

variable {σ : Type} {net : Network σ} {r : Requester σ} {inv : Invocation σ} {c c' : Context}

namespace Requester

/-- Requests under these contexts, with the same stages and handlers, do the same. -/
structure SameUnder (net : Network σ) (r : Requester σ) (inv : Invocation σ) (c c' : Context) : Prop where
  stages : Decoration.ofContext c' = Decoration.ofContext c
  handlers : (FailoverChain.ofContext c' : FailoverChain σ) = FailoverChain.ofContext c
  /-- The requests are the same code but for the context that they attach. -/
  code : ∃ body, r.under net c inv = withContext (c.withScope inv.name) body ∧
    r.under net c' inv = withContext (c'.withScope inv.name) body
  /-- In runs in which requests find these contexts they take courses of their own, and any two courses that tell of
  these runs are the same as far as client code answers alike in them. -/
  runs : ∀ {P P' Q Q' : Pool σ} {t t' : Nat} {h h' h₁ h₁' : Option Context} {es es' : List (Nat × Deed σ)}
    {res res' : Result}, P.Through t (r.request net inv) h es res h₁ Q →
    P'.Through t' (r.request net inv) h' es' res' h₁' Q' → r.Resolves P t h es c → r.Resolves P' t' h' es' c' →
      ∃ L L', Pool.deedsOf t es = r.basing h c ++ L ∧ Pool.deedsOf t' es' = r.basing h' c' ++ L' ∧
        (∃ x : Course σ, x.Tells net r inv c h L res) ∧ (∃ x' : Course σ, x'.Tells net r inv c' h' L' res') ∧
        ∀ x x' : Course σ, x.Tells net r inv c h L res → x'.Tells net r inv c' h' L' res' → x.Alike r x' →
          x.Same r inv x' ∧ res' = res

theorem exists_tells_resolved {P Q : Pool σ} {t : Nat} {h h' : Option Context} {es : List (Nat × Deed σ)} {res : Result}
    (hrequest : P.Through t (r.request net inv) h es res h' Q) (hc : r.Resolves P t h es c) :
    ∃ L, Pool.deedsOf t es = r.basing h c ++ L ∧ ∃ x : Course σ, x.Tells net r inv c h L res := by
  obtain ⟨base, L, x, hx, hdeeds, hbase⟩ := exists_tells hrequest
  obtain rfl := hc.eq hbase.attached hdeeds
  exact ⟨L, hdeeds, x, hx⟩

theorem execute_alike (hc : c.Alike c') : r.execute net c' inv = r.execute net c inv := by
  have hchain : (FailoverChain.ofContext c' : FailoverChain σ) = FailoverChain.ofContext c := by
    rw [FailoverChain.ofContext, hc.policies, FailoverChain.ofContext]
  unfold execute recover
  rw [hc.decoration, hchain, hc.scope]

theorem sameUnder_alike (hc : c.Alike c') : r.SameUnder net inv c c' where
  stages := hc.decoration
  handlers := by rw [FailoverChain.ofContext, hc.policies, FailoverChain.ofContext]
  code := ⟨_, rfl, by rw [under, execute_alike (hc.withScope inv.name)]⟩
  runs hrequest hrequest' hbase hbase' := by
    obtain ⟨L, hdeeds, x, hx⟩ := exists_tells_resolved hrequest hbase
    obtain ⟨L', hdeeds', x', hx'⟩ := exists_tells_resolved hrequest' hbase'
    refine ⟨L, L', hdeeds, hdeeds', ⟨x, hx⟩, ⟨x', hx'⟩, fun x x' hx hx' halike => ?_⟩
    have hsame := Course.determined_of_alike hx.course hx'.course (by rwa [hx.base, hx'.base]) halike
    exact ⟨hsame, by rw [← hx.result, ← hx'.result, hsame.result]⟩

end Requester

namespace Context

/-- **The last of each kind decides.** A derived context has at most one strategy of each kind, by the order of the
last attachments; asked for a kind, it has the strategy of that kind that was attached last, and its scope is the
last one set. So derivations with the same last scope and the same last strategies, whatever else they attach and in
whatever order, make for the same requests. -/
theorem last_derivations_decide (net : Network σ) (r : Requester σ) (inv : Invocation σ) :
    (∀ ds, ((derived ds).strategies.map Strategy.kind).Nodup ∧
      (derived ds).strategies = Strategy.lastOfEachKind (ds.filterMap Derivation.strategy?) ∧
      (∀ kind, (derived ds).get? kind = latest? (Derivation.attaches? kind) ds ∧
        (derived ds).typed? kind = latest? (Derivation.attaches? kind) ds) ∧
      (derived ds).scope = (latest? Derivation.scope? ds).getD "") ∧
    ∀ ds ds', latest? Derivation.scope? ds' = latest? Derivation.scope? ds →
      (∀ kind, latest? (Derivation.attaches? kind) ds' = latest? (Derivation.attaches? kind) ds) →
        (derived ds).Alike (derived ds') ∧ r.SameUnder net inv (derived ds) (derived ds') := by
  refine ⟨fun ds => ⟨?_, strategies_derived ds, fun kind => ⟨get?_derived kind ds, ?_⟩, scope_derived ds⟩,
    fun ds ds' hscope hkinds => ?_⟩
  · rw [strategies_derived]
    exact Strategy.nodup_lastOfEachKind _
  · rw [typed?_eq, get?_derived]
  · have halike := alike_derived hscope hkinds
    exact ⟨halike, Requester.sameUnder_alike halike⟩

theorem answersIn_hopeless {c : Context} (hconnect : c.connect? = none) (htimeout : c.timeout? = none) {a : Trial Unit}
    (ha : a.Of Requester.connected c Pool.hopeless) :
    answersIn a.pieces = [⟨Reply, .ok (.error (.text "down"))⟩] := by
  obtain ⟨hps, -, hqs⟩ := ha
  cases hps with
  | standing hs | asked hs | panicked hs => cases hconnect.symm.trans hs
  | unasked =>
    cases hqs with
    | bounded hs => cases htimeout.symm.trans hs
    | called _ hgoes =>
      obtain ⟨-, rfl, -⟩ := goes_done.1 hgoes
      rfl

/-- Two derivations attach a number of retries and a policy in either order, one of them after another number and
another scope. The contexts differ in their order, and a call that never succeeds does the same under both. -/
theorem last_derivations_decide_interleaved :
    let failover : Strategy := .failover ⟨[.ofRetryStrategy ⟨1, .ofNanos 5 (by decide), Nat.one_pos⟩]⟩
    let retry : Strategy := .retry ⟨2, .zero, Nat.two_pos⟩
    let c := derived
      [.strategy (.retry ⟨7, .zero, by decide⟩), .scope "other", .strategy failover, .strategy retry, .scope "client"]
    let c' := derived [.strategy retry, .scope "client", .strategy failover]
    let p := Requester.plain.request Requester.connected Pool.hopeless
    let pool (c : Context) : Pool Unit := .start (World.start ()) [⟨_, p, some c⟩]
    c.strategies = [failover, retry] ∧ c'.strategies = [retry, failover] ∧
      Requester.plain.SameUnder Requester.connected Pool.hopeless c c' ∧
      ∃ es es' h h' Q Q' res, ∃ x x' : Course Unit, (pool c).Through 0 p (some c) es res h Q ∧
        (pool c').Through 0 p (some c') es' res h' Q' ∧ x.Of Requester.connected Requester.plain Pool.hopeless ∧
        x'.Of Requester.connected Requester.plain Pool.hopeless ∧ x.base = c ∧ x'.base = c' ∧
        x.Same Requester.plain Pool.hopeless x' := by
  intro failover retry c c' p pool
  obtain ⟨-, hlast⟩ := last_derivations_decide Requester.connected Requester.plain Pool.hopeless
  obtain ⟨-, hsame⟩ : c.Alike c' ∧ _ := hlast _ _ rfl fun kind => by cases kind <;> rfl
  obtain ⟨res, hres⟩ := end?_of_isEnd (Pool.ends_hopeless (some c) (World.start ()))
  obtain ⟨res', hres'⟩ := end?_of_isEnd (Pool.ends_hopeless (some c') (World.start ()))
  obtain ⟨es, Q, hthrough, -, -⟩ := Pool.exists_through (P := pool c) (t := 0) rfl (alike_refl _) hres
  obtain ⟨es', Q', hthrough', -, -⟩ := Pool.exists_through (P := pool c') (t := 0) rfl (alike_refl _) hres'
  obtain ⟨L, L', -, -, ⟨x, hx⟩, ⟨x', hx'⟩, halike⟩ := hsame.runs hthrough hthrough' (.inl rfl) (.inl rfl)
  obtain ⟨g, -, hconclude⟩ := hx.course.rest
  obtain ⟨g', -, hconclude'⟩ := hx'.course.rest
  obtain ⟨hcourse, rfl⟩ := halike x x' hx hx' {
    attempts := fun i a a' ha ha' => by
      have hfirst := hx.course.of_mem_trials a (List.mem_of_getElem? ha)
      have hsecond := hx'.course.of_mem_trials a' (List.mem_of_getElem? ha')
      rw [hx.base] at hfirst
      rw [hx'.base] at hsecond
      rw [answersIn_hopeless rfl rfl hfirst, answersIn_hopeless rfl rfl hsecond]
    conversion := fun hconvert hconvert' => by
      have hfirst := (goes_done.1 (hconclude.goes hconvert)).2.1
      exact hfirst.trans (goes_done.1 (hconclude'.goes hconvert')).2.1.symm }
  exact ⟨rfl, rfl, hsame, es, es', _, _, Q, Q', _, x, x', hthrough, hthrough', hx.course, hx'.course, hx.base, hx'.base,
    hcourse⟩

end Context

end ResilientCalls
