import ResilientCalls.Attachment

/-!
# Invocations

A named unit of remote work that can be attempted again and again. Wrapping changes what an attempt
does and keeps the name and the parameters.
-/

namespace ResilientCalls

open Text (Layout)
open Program

variable {σ : Type}

/-- A named, repeatable call. -/
structure Invocation (σ : Type) where
  /-- The operation; also the scope of a request that makes the call. -/
  name : String
  /-- The bound parameters, for diagnostics. -/
  parameters : List Layout
  /-- What one attempt does. -/
  call : Program σ Reply

/-- The reply as success or failure. -/
def replyLayout : Reply → Layout
  | .ok v => .tuple "Success" [.text v]
  | .error e => .tuple "Failure" [e.layout]

namespace Invocation

/-- The same name and parameters around another call. -/
def wrap (inv : Invocation σ) (wrapper : Invocation σ → Program σ Reply) : Invocation σ :=
  { inv with call := wrapper inv }

/-- The failure that stands for a panic of the call. -/
def panicked (inv : Invocation σ) : Failure := .text ("invocation " ++ inv.name ++ " panicked")

/-- One attempt; a panic becomes a failure. -/
def attempt (inv : Invocation σ) : Program σ Reply := do
  match ← inv.call.caught with
  | .ok reply => return reply
  | .error _ => return .error inv.panicked

/-- The call as it would be written, with its parameters. -/
def toText (inv : Invocation σ) : String :=
  inv.name ++ "(" ++ ", ".intercalate (inv.parameters.map Layout.inline) ++ ")"

def layout (inv : Invocation σ) : Layout :=
  .struct "Invocation" [("name", .text inv.name), ("parameters", .list inv.parameters)]

@[simp]
theorem name_wrap (inv : Invocation σ) (wrapper : Invocation σ → Program σ Reply) :
    (inv.wrap wrapper).name = inv.name := rfl

@[simp]
theorem parameters_wrap (inv : Invocation σ) (wrapper : Invocation σ → Program σ Reply) :
    (inv.wrap wrapper).parameters = inv.parameters := rfl

end Invocation

end ResilientCalls
