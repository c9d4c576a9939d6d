/-
Activities on a virtual clock. An activity starts at an instant and ends at a later one with a value; on
the way it takes steps that can be seen from outside, each at its instant. Instants are milliseconds
since some beginning.
-/

namespace Mediation

/-- An answer, and how long it takes until it is there. -/
structure Reply (α : Type) where
  /-- Milliseconds. -/
  delay : Nat := 0
  answer : α

/-- A step at its instant. -/
structure Timed (σ : Type) where
  time : Nat
  step : σ
  deriving DecidableEq, Repr

/-- How an activity went. -/
structure Course (σ α : Type) where
  value : α
  /-- Instant at which the activity ended. -/
  finish : Nat
  /-- The steps taken, the first one first. -/
  steps : List (Timed σ)

/-- An activity, by the instant at which it starts. -/
def Activity (σ α : Type) := Nat → Course σ α

namespace Activity

variable {σ τ α β : Type}

/-- Ends at once. -/
def done (a : α) : Activity σ α := fun now => ⟨a, now, []⟩

/-- One activity after the other. -/
def andThen (p : Activity σ α) (f : α → Activity σ β) : Activity σ β := fun now =>
  let c := p now
  let d := f c.value c.finish
  ⟨d.value, d.finish, c.steps ++ d.steps⟩

instance : Monad (Activity σ) where
  pure := done
  bind := andThen

/-- The present instant. -/
def now : Activity σ Nat := fun t => ⟨t, t, []⟩

/-- Takes a step, which takes no time. -/
def step (s : σ) : Activity σ Unit := fun t => ⟨(), t, [⟨t, s⟩]⟩

/-- Takes several steps, which take no time. -/
def allSteps (l : List σ) : Activity σ Unit := fun t => ⟨(), t, l.map (⟨t, ·⟩)⟩

/-- Waits for an answer. -/
def await (r : Reply α) : Activity σ α := fun t => ⟨r.answer, t + r.delay, []⟩

/-- Takes a step and waits for the answer to it. -/
def ask (s : σ) (r : Reply α) : Activity σ α := fun t => ⟨r.answer, t + r.delay, [⟨t, s⟩]⟩

/-- The same activity with its steps told in another way. -/
def mapSteps (f : σ → τ) (p : Activity σ α) : Activity τ α := fun t =>
  let c := p t
  ⟨c.value, c.finish, c.steps.map fun s => ⟨s.time, f s.step⟩⟩

instance : LawfulMonad (Activity σ) := LawfulMonad.mk' (Activity σ)
  (fun p => by funext t; simp [Functor.map, andThen, done])
  (fun a f => by funext t; simp [bind, pure, andThen, done])
  (fun p f g => by funext t; simp [bind, andThen])

end Activity

/-- An activity that may fail. -/
abbrev Attempt (ε σ α : Type) := ExceptT ε (Activity σ) α

end Mediation
