import ResilientCalls.Program.Run

/-!
# Contexts in force

A thread has at most one context attached. Attaching another gives a guard that remembers the one
before; `withContext` releases its guard on every way out, so afterwards the thread has what it had.
A storage holds one context that all threads share.
-/

namespace ResilientCalls

open Text (Layout)
open Program

variable {σ α : Type}

/-- The context attached to this thread. -/
def current : Program σ (Option Context) := perform (.holder id)

/-- Detaches the context of this thread. -/
def detach : Program σ (Option Context) := perform (.holder fun _ => none)

/-- Remembers what was attached before. -/
structure Guard where
  /-- The context that the release puts back. -/
  previous : Option Context
deriving DecidableEq

/-- Attaches a context until the guard is released. -/
def attach (c : Context) : Program σ Guard := do
  log (.attached c.scope)
  let previous ← perform (.holder fun _ => some c)
  return ⟨previous⟩

/-- Puts back what the guard remembers, whatever is attached now. -/
def Guard.release (g : Guard) : Program σ Unit := do
  let released ← perform (.holder fun _ => g.previous)
  match released with
  | some c => log (.released c.scope)
  | none => pure ()

def Guard.layout (g : Guard) : Layout :=
  .struct "ContextGuard" [("previous", .option (g.previous.map Context.layout))]

/-- Runs code with a context attached and puts back the one before, also after a panic. -/
def withContext (c : Context) (body : Program σ α) : Program σ α := do
  let guard ← attach c
  body.ensuring guard.release

/-- The scope of the attached context, or another name if there is none. -/
def currentScope (otherwise : String) : Program σ String := do
  let c ← current
  return (c.map Context.scope).getD otherwise

/-! ## Storages -/

namespace Storage

def get (i : StorageId) : Program σ Context := perform (.storage i id)

/-- Stores another context and answers the one before. -/
def set (i : StorageId) (c : Context) : Program σ Context := perform (.storage i fun _ => c)

/-- Derives the stored context anew. -/
def update (i : StorageId) (f : Context → Context) : Program σ Unit := do
  let _ ← perform (.storage i f)

def layout (content : Context) : Layout := .tuple "ContextStorage" [content.layout]

end Storage

/-! ## Restoration -/

section Restoration

variable {others : Others σ} {limit : Moment}

/-- The thread afterwards has what the guard remembers. -/
theorem holder_release (g : Guard) (h : Option Context) (w : World σ) :
    (g.release.run others limit h w).holder = g.previous := by
  cases h <;> rfl

/-- Releasing a guard always ends. -/
theorem exit_release (g : Guard) (h : Option Context) (w : World σ) :
    (g.release.run others limit h w).exit = .value () := by
  cases h <;> rfl

/-- Whatever the code does to the thread's context, once it ends the thread has what it had. -/
theorem holder_withContext (c : Context) (body : Program σ α) (h : Option Context) (w : World σ)
    (hb : ((withContext c body).run others limit h w).exit.isEnd = true) :
    ((withContext c body).run others limit h w).holder = h := by
  have key : (withContext c body).run others limit h w =
      (body.caught.run others limit (some c)
        { w with journal := w.journal ++ [.traced (.attached c.scope)] }).andThen others limit
        fun r => (Guard.release ⟨h⟩).bind fun _ => rethrow r := by
    simp only [withContext, attach, log, record, perform, ensuring, bind_eq, Program.bind, pure_eq,
      run_act, Action.step, run_bind]
  rw [key] at hb ⊢
  generalize hf : body.caught.run others limit (some c) _ = f at hb ⊢
  obtain ⟨exit, holder, world⟩ := f
  rw [run_caught] at hf
  cases exit with
  | value r =>
    simp only [Final.andThen, run_bind]
    rw [exit_release]
    cases r <;> simp [rethrow, holder_release]
  | unwound p =>
    exfalso
    unfold Final.caught at hf
    split at hf <;> simp at hf
  | pending rest => simp [Final.andThen, Exit.isEnd] at hb

end Restoration

end ResilientCalls
