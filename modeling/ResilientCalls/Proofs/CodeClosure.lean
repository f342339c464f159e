import ResilientCalls.Proofs.AttemptContext

/-!
# What holds of client code and of the requests that run it

A request is put together from a few effects and the client code that it runs. So a property of code that these
effects have, and that goes from parts to wholes (`Program.Closed`), holds of requests as soon as it holds of their
client code (`Program.Closed.request`).
-/

namespace ResilientCalls

open Program

variable {σ : Type}

/-- A property of code that goes from parts to wholes, and that the effects of requests have. -/
structure Program.Closed (Good : (α : Type) → Program σ α → Prop) : Prop where
  done : ∀ {α : Type} (a : α), Good α (.done a)
  unwind : ∀ {α : Type} (p : Payload), Good α (.unwind p)
  bind : ∀ {α β : Type} {p : Program σ α} {g : α → Program σ β}, Good α p → (∀ a, Good β (g a)) → Good β (p.bind g)
  caught : ∀ {α : Type} {p : Program σ α}, Good α p → Good _ p.caught
  record : ∀ e, Good Unit (record e)
  holder : ∀ f, Good (Option Context) (perform (.holder f))
  get : ∀ i, Good Context (Storage.get i)
  sleep : ∀ d, Good Unit (.sleep d (.done ()))
  onWorker : ∀ {β : Type} {body : Program σ β} (bound : Option Duration), Good β body → Good _ (onWorker bound body)

namespace Program.Closed

variable {Good : (α : Type) → Program σ α → Prop} {α : Type} {net : Network σ} {r : Requester σ} {inv : Invocation σ}
  {c : Context} (hgood : Program.Closed Good)

include hgood

/-! ## Effects in a row -/

theorem count (counter : Counter) : Good Unit (count counter) := hgood.record _

theorem log (t : Trace) : Good Unit (log t) := hgood.record _

theorem pause (d : Duration) : Good Unit (pause d) := by
  unfold Program.pause
  split
  · exact hgood.done ()
  · exact hgood.bind (hgood.record _) fun _ => hgood.sleep d

theorem rethrow (q : Except Payload α) : Good α (rethrow q) := by
  cases q with
  | ok a => exact hgood.done a
  | error p => exact hgood.unwind p

theorem current : Good (Option Context) current := hgood.holder id

theorem currentScope (otherwise : String) : Good String (currentScope otherwise) :=
  hgood.bind hgood.current fun _ => hgood.done _

theorem attach (context : Context) : Good Guard (attach context) :=
  hgood.bind (hgood.log _) fun _ => hgood.bind (hgood.holder _) fun _ => hgood.done _

theorem release (g : Guard) : Good Unit g.release := by
  refine hgood.bind (hgood.holder _) fun released => ?_
  cases released with
  | some context => exact hgood.log _
  | none => exact hgood.done ()

theorem withContext (context : Context) {body : Program σ α} (hbody : Good α body) :
    Good α (withContext context body) :=
  hgood.bind (hgood.attach context) fun guard => hgood.bind (hgood.caught hbody) fun q =>
    hgood.bind (hgood.release guard) fun _ => hgood.rethrow q

theorem emit {ε : Type} {ls : List (Listener σ ε)} {event : ε} (hls : ∀ l ∈ ls, Good Unit (l event)) :
    Good Unit (emit ls event) := by
  induction ls with
  | nil => exact hgood.done ()
  | cons l ls ih =>
    refine hgood.bind (hgood.caught (hls l List.mem_cons_self)) fun _ => ?_
    exact ih fun l' hl' => hls l' (List.mem_cons_of_mem l hl')

/-! ## One attempt -/

theorem connectLoop {connector : Connector σ} (hconnect : ∀ endpoint, Good _ (connector.connect endpoint))
    (s : ConnectStrategy) (left attempt : Nat) (last : Failure) :
    Good _ (s.connectLoop connector left attempt last) := by
  induction left generalizing attempt last with
  | zero => exact hgood.bind (hgood.log _) fun _ => hgood.done _
  | succ left ih =>
    refine hgood.bind (hgood.log _) fun _ => hgood.bind (hconnect _) fun reply => ?_
    cases reply with
    | ok u => exact hgood.bind (hgood.count _) fun _ => hgood.done _
    | error e =>
      refine hgood.bind (hgood.count _) fun _ => ?_
      by_cases hlt : attempt < s.maxAttempts
      · simp only [if_pos hlt]
        exact hgood.bind (hgood.pause _) fun _ => ih _ _
      · simp only [if_neg hlt]
        exact ih _ _

theorem connectStage (hask : ∀ i, Good Bool (net i).isConnected)
    (hconnect : ∀ i endpoint, Good _ ((net i).connect endpoint)) : Good _ (c.connectStage net) := by
  unfold Context.connectStage
  cases c.connect? with
  | none => exact hgood.done _
  | some s =>
    refine hgood.bind (hask _) fun connected => ?_
    cases connected with
    | true => exact hgood.done _
    | false => exact hgood.connectLoop (hconnect _) _ _ _ _

theorem within (hcall : Good Reply inv.call) (bound : Duration) : Good Reply (inv.within bound).call := by
  refine hgood.bind hgood.current fun caller => hgood.bind (hgood.onWorker _ ?_) fun d => ?_
  · cases caller with
    | some context => exact hgood.withContext context hcall
    | none => exact hcall
  · cases d with
    | delivered reply | crashed => exact hgood.done _
    | elapsed =>
      exact hgood.bind (hgood.log _) fun _ => hgood.bind (hgood.currentScope _) fun _ =>
        hgood.bind (hgood.count _) fun _ => hgood.done _

theorem attempt (hcall : Good Reply inv.call) : Good Reply inv.attempt := by
  refine hgood.bind (hgood.caught hcall) fun q => ?_
  cases q <;> exact hgood.done _

theorem decorate (hask : ∀ i, Good Bool (net i).isConnected)
    (hconnect : ∀ i endpoint, Good _ ((net i).connect endpoint)) (hcall : Good Reply inv.call) :
    Good Reply (c.decorate net inv).attempt := by
  refine hgood.attempt ?_
  rw [call_decorate]
  refine hgood.bind (hgood.connectStage hask hconnect) fun q => ?_
  cases q with
  | error e => exact hgood.done _
  | ok u =>
    show Good Reply ((Decoration.ofContext c).bounded inv).call
    unfold Decoration.bounded
    split
    · exact hgood.within hcall _
    · exact hcall

/-! ## Failover -/

theorem retryLoop (hattempt : Good Reply inv.attempt) (p : RetryPolicy) (scope : String) (n attempts : Nat)
    (e : Failure) : Good _ ((RetryHandler.ofPolicy p).retryLoop scope inv n attempts e) := by
  induction n generalizing attempts e with
  | zero => exact hgood.done _
  | succ n ih =>
    refine hgood.bind (hgood.log _) fun _ => hgood.bind (hgood.count _) fun _ => hgood.bind (hgood.done _) fun _ =>
      hgood.bind (hgood.pause _) fun _ => hgood.bind hattempt fun reply => ?_
    cases reply with
    | ok v => exact hgood.done _
    | error e => exact ih _ e

theorem handle (hattempt : Good Reply inv.attempt) (p : RetryPolicy) (e : Failure) :
    Good Reply ((RetryHandler.ofPolicy p).handle inv (.error e)) := by
  refine hgood.bind (hgood.currentScope _) fun scope => hgood.bind (hgood.retryLoop hattempt p _ _ _ _) fun pair => ?_
  obtain ⟨reply, attempts⟩ := pair
  refine hgood.bind ?_ fun _ => hgood.done reply
  -- A handler of a policy has no listeners.
  cases reply with
  | ok v => exact hgood.bind (hgood.count _) fun _ => hgood.done _
  | error e => exact hgood.bind (hgood.log _) fun _ => hgood.bind (hgood.count _) fun _ => hgood.done _

theorem handleAll (hattempt : Good Reply inv.attempt) (ps : List RetryPolicy) (reply : Reply) :
    Good Reply (FailoverChain.handleAll inv (ps.map RetryPolicy.handler) reply) := by
  induction ps generalizing reply with
  | nil => exact hgood.done _
  | cons p ps ih =>
    cases reply with
    | ok v => exact hgood.done _
    | error e =>
      exact hgood.bind (hgood.log _) fun _ => hgood.bind (hgood.handle hattempt p e) fun reply => ih reply

theorem execute (hask : ∀ i, Good Bool (net i).isConnected)
    (hconnect : ∀ i endpoint, Good _ ((net i).connect endpoint)) (hcall : Good Reply inv.call) :
    Good _ (r.execute net c inv) := by
  have hattempt : Good Reply (c.decorate net inv).attempt := hgood.decorate hask hconnect hcall
  refine hgood.bind hattempt fun reply => ?_
  cases reply with
  | ok v => exact hgood.done _
  | error e =>
    refine hgood.bind (hgood.log _) fun _ => ?_
    split
    · exact hgood.done _
    · refine hgood.bind (hgood.log _) fun _ => hgood.bind ?_ fun reply => by cases reply <;> exact hgood.done _
      rw [FailoverChain.handle, handlers_ofContext]
      exact hgood.handleAll hattempt _ _

/-! ## The request -/

theorem base (r : Requester σ) : Good Context r.base := by
  refine hgood.bind hgood.current fun context => ?_
  cases context with
  | some context => exact hgood.done _
  | none => exact hgood.get _

theorem conclude (hconvert : ∀ e, Good RpcError (r.convert e))
    (hlisten : ∀ l ∈ r.listeners, ∀ event, Good Unit (l event))
    (scope : String) (outcome : Requester.Outcome) : Good _ (r.conclude scope outcome) := by
  have htell : ∀ (counter : Counter) (event : RequestEvent) (result : Except RpcError String),
      Good _ ((Program.count counter).bind fun _ => (ResilientCalls.emit r.listeners event).bind fun _ =>
        .done result) := fun counter event result =>
    hgood.bind (hgood.count counter) fun _ => hgood.bind (hgood.emit fun l hl => hlisten l hl event) fun _ =>
      hgood.done result
  cases outcome with
  | success v | recovered v => exact htell _ _ _
  | failed e => exact hgood.bind (hconvert e) fun error => hgood.bind (hgood.log _) fun _ => htell _ _ _

/-- **Requests and their client code.** A property that goes from parts to wholes holds of a request if it holds of
the client code that the request runs. -/
theorem request (hask : ∀ i, Good Bool (net i).isConnected)
    (hconnect : ∀ i endpoint, Good _ ((net i).connect endpoint)) (hcall : Good Reply inv.call)
    (hconvert : ∀ e, Good RpcError (r.convert e)) (hlisten : ∀ l ∈ r.listeners, ∀ event, Good Unit (l event)) :
    Good _ (r.request net inv) :=
  hgood.bind (hgood.base r) fun context => hgood.withContext (context.withScope inv.name) <|
    hgood.bind (hgood.execute hask hconnect hcall) fun outcome => hgood.bind (hgood.record _) fun _ =>
      hgood.conclude hconvert hlisten (context.withScope inv.name).scope outcome

end Program.Closed

end ResilientCalls
