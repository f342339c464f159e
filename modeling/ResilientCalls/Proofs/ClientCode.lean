import ResilientCalls.Proofs.RequestParts

/-!
# Code of clients

Client code moves the counters of requests only by the requests that it makes, and the code that these run for it
is client code again (`Program.Client`). It may make them under contexts, inside other requests, on workers, or in
the tasks of spawned requests (`client_request`, `client_spawn`, `client_runTask`).
-/

namespace ResilientCalls

open Program

variable {σ : Type}

/-- Code that books nothing but by requests. Their converters do not panic, and all that they run is such code. -/
inductive Program.Client : {α : Type} → Program σ α → Prop
  | done {α : Type} (a : α) : Client (.done a)
  | unwind {α : Type} (p : Payload) : Client (.unwind p : Program σ α)
  | block {α : Type} : Client (.block : Program σ α)
  | act {α β : Type} {a : Action σ β} {k : β → Program σ α} : (∀ b, (Deed.did a b).booking? = none) →
      (∀ b, Client (k b)) → Client (.act a k)
  | sleep {α : Type} {d : Duration} {k : Program σ α} : Client k → Client (.sleep d k)
  | await {α : Type} {i : FutureId} {bound : Option Duration} {k : Option Reply → Program σ α} :
      (∀ seen, Client (k seen)) → Client (.await i bound k)
  | worker {α β : Type} {c : Option Context} {body : Program σ β} {bound : Option Duration}
      {k : Delivery β → Program σ α} : Client body → (∀ d, Client (k d)) → Client (.worker c body bound k)
  | request {α : Type} {net : Network σ} {r : Requester σ} {inv : Invocation σ}
      {k : Requester.Result → Program σ α} :
      r.NeverPanics → (∀ i, Client (net i).isConnected) → (∀ i endpoint, Client ((net i).connect endpoint)) →
        Client inv.call → (∀ e, Client (r.convert e)) → (∀ l ∈ r.listeners, ∀ event, Client (l event)) →
          (∀ q, Client (k q)) → Client ((r.request net inv).caught.bind k)

section Parts

variable {α β : Type} {p : Program σ α} {g : α → Program σ β}

theorem client_rethrow (q : Except Payload α) : (rethrow q : Program σ α).Client := by
  cases q with
  | ok a => exact .done a
  | error e => exact .unwind e

theorem client_perform {a : Action σ β} (ha : ∀ b, (Deed.did a b).booking? = none) : (perform a).Client :=
  .act ha fun b => .done b

theorem Program.Client.bind (hp : p.Client) (hg : ∀ a, (g a).Client) : (p.bind g).Client := by
  induction hp with
  | done a => exact hg a
  | unwind e => exact .unwind e
  | block => exact .block
  | act ha _ ih => exact .act ha fun b => ih b hg
  | sleep _ ih => exact .sleep (ih hg)
  | await _ ih => exact .await fun seen => ih seen hg
  | worker hbody _ _ ih => exact .worker hbody fun d => ih d hg
  | request hconvert hask hconnect hcall hclient hlisten _ _ _ _ _ _ ih =>
    rw [bind_assoc]
    exact .request hconvert hask hconnect hcall hclient hlisten fun q => ih q hg

theorem Program.Client.caught (hp : p.Client) : p.caught.Client := by
  induction hp with
  | done a => exact .done _
  | unwind e => exact .done _
  | block => exact .block
  | act ha _ ih => exact .act ha ih
  | sleep _ ih => exact .sleep ih
  | await _ ih => exact .await ih
  | worker hbody _ _ ih => exact .worker hbody ih
  | request hconvert hask hconnect hcall hclient hlisten _ _ _ _ _ _ ih =>
    rw [caught_caught_bind]
    exact .request hconvert hask hconnect hcall hclient hlisten ih

theorem client_log (t : Trace) : (log t : Program σ Unit).Client := client_perform fun _ => rfl

theorem client_current : (current : Program σ (Option Context)).Client := client_perform fun _ => rfl

theorem client_currentScope (otherwise : String) : (currentScope otherwise : Program σ String).Client :=
  client_current.bind fun _ => .done _

theorem client_withContext (c : Context) (hp : p.Client) : (withContext c p).Client := by
  refine ((client_log _).bind fun _ => (client_perform fun _ => rfl).bind fun _ => .done _).bind fun guard => ?_
  refine hp.caught.bind fun q => .bind (client_perform (fun _ => rfl) |>.bind fun released => ?_) fun _ =>
    client_rethrow q
  cases released with
  | some c => exact client_log _
  | none => exact .done _

theorem client_underContext {inv : Invocation σ} (hcall : inv.call.Client) (h : Option Context) :
    (inv.underContext h).Client := by
  cases h with
  | some c => exact client_withContext c hcall
  | none => exact hcall

end Parts

section Requests

variable {net : Network σ} {r : Requester σ} {inv : Invocation σ}

theorem client_request (hconvert : r.NeverPanics) (hask : ∀ i, (net i).isConnected.Client)
    (hconnect : ∀ i endpoint, ((net i).connect endpoint).Client) (hcall : inv.call.Client)
    (hclient : ∀ e, (r.convert e).Client) (hlisten : ∀ l ∈ r.listeners, ∀ event, (l event).Client) :
    (r.request net inv).Client := by
  rw [← caught_bind_rethrow (r.request net inv)]
  exact .request hconvert hask hconnect hcall hclient hlisten client_rethrow

theorem client_spawn (r : Requester σ) : r.spawn.Client := by
  refine (client_perform fun _ => rfl).bind fun future => ?_
  refine .bind (client_current.bind fun c => ?_) fun context => ?_
  · cases c with
    | some c => exact .done _
    | none => exact client_perform fun _ => rfl
  · have hmake : (Chain.make future context : Program σ (Except Failure (Chain Unit))).Client := by
      refine .bind ((client_perform fun _ => rfl).bind fun _ => .done _) fun complete => ?_
      cases complete <;> exact .done _
    refine hmake.bind fun made => ?_
    cases made with
    | ok chain => exact .done _
    | error e => exact (client_perform fun _ => rfl).bind fun _ => .done _

theorem client_finishFailed {η : Type} (c : Chain η) (trace : String → Failure → Trace) {result : CompletionResult}
    (e : Failure) : (c.finishFailed trace result e : Program σ Unit).Client :=
  (client_currentScope _).bind fun _ => (client_log _).bind fun _ => (client_perform fun _ => rfl).bind fun _ =>
    (client_perform fun _ => rfl).bind fun _ => .done _

theorem client_finish (t : Task) (q : Requester.Result) : (t.finish q : Program σ Unit).Client := by
  match q with
  | .ok (.ok v) =>
    refine client_withContext _ ?_
    cases t.chain.handler with
    | none => exact client_finishFailed _ _ _
    | some handler =>
      exact (client_currentScope _).bind fun _ => (client_log _).bind fun _ =>
        (client_perform fun _ => rfl).bind fun _ => (client_perform fun _ => rfl).bind fun _ => .done _
  | .ok (.error e) => exact client_withContext _ (client_finishFailed _ _ _)
  | .error p =>
    exact .bind ((client_log _).bind fun _ => (client_perform fun _ => rfl).bind fun _ =>
      (client_perform fun _ => rfl).bind fun _ => .done _) fun _ => .unwind p

theorem client_runTask (hrequest : (r.request net inv).Client) (t : Task) : (r.runTask net inv t).Client := by
  rw [Requester.runTask_eq]
  exact (client_withContext _ hrequest).caught.bind (client_finish t)

end Requests

end ResilientCalls
