import ResilientCalls.Proofs.CodeClosure
import ResilientCalls.Proofs.RequestOutcome

/-!
# Requests come to an end

A request ends if the client code that it runs does, the call, its connector, its conversion and its listeners
(`ends_request`). A call on a worker ends in any case if its bound elapses.
-/

namespace ResilientCalls

open Program

variable {σ : Type} {others : Others σ} {net : Network σ} {inv : Invocation σ} {r : Requester σ}

theorem ends_done {α : Type} (a : α) : (done a : Program σ α).Ends others := fun _ _ => rfl

theorem ends_onWorker {β : Type} {body : Program σ β} {bound : Option Duration} (hbody : body.Ends others) :
    (onWorker bound body).Ends others := by
  intro h w
  simp only [onWorker, run]
  split
  · rfl
  · rfl
  · rename_i rest hpending
    cases hdeadline : Moment.afterWait w.clock bound with
    | some t => rfl
    | none =>
      -- Without a deadline the body runs to its end.
      have hend : (body.run others none none w).exit.isEnd = true := hbody none w
      rw [hdeadline] at hpending
      have hpending : (body.run others none none w).exit = .pending rest := hpending
      rw [hpending] at hend
      cases hend

/-- The connectors come to an end, whatever they are asked. -/
def NetworkEnds (others : Others σ) (net : Network σ) : Prop :=
  ∀ i, (net i).isConnected.Ends others ∧ ∀ endpoint, ((net i).connect endpoint).Ends others

theorem closed_ends (others : Others σ) : Program.Closed fun α (p : Program σ α) => p.Ends others where
  done := ends_done
  unwind _ := fun _ _ => rfl
  bind := ends_bind
  caught := ends_caught
  record _ := ends_perform _
  holder _ := ends_perform _
  get _ := ends_perform _
  sleep _ := fun _ _ => rfl
  onWorker _ := ends_onWorker

/-- **Requests end.** A request comes to its end if the client code that it runs does. -/
theorem ends_request (hnet : NetworkEnds others net) (hcall : inv.call.Ends others)
    (hconvert : ∀ e, (r.convert e).Ends others) (hlisteners : r.ListenersEnd others) :
    (r.request net inv).Ends others :=
  (closed_ends others).request (fun i => (hnet i).1) (fun i => (hnet i).2) hcall hconvert hlisteners

end ResilientCalls
