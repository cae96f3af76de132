import QuestLogic.Fault

/-!
# Steps

A step reads and changes a state and may meet a fault. There is no rollback: what a step changed
before the fault stays changed, so running one gives a state in either case.
-/

namespace QuestLogic

/-- A computation on states of type `σ` that may meet a fault. -/
abbrev Step (σ α : Type) := ExceptT Fault (StateM σ) α

namespace Step

variable {σ τ α : Type}

/-- The outcome of a step and the state it leaves. -/
def run (x : Step σ α) (s : σ) : Except Fault α × σ := x s

/-- Looks at the state, which stays as it is. -/
def view (f : σ → Except Fault α) : Step σ α := fun s => (f s, s)

/-- Replaces the state, or meets a fault and leaves it alone. -/
def attempt (f : σ → Except Fault (α × σ)) : Step σ α := fun s =>
  match f s with
  | .ok (a, s) => (.ok a, s)
  | .error e => (.error e, s)

/-- Replaces the state, or meets a fault and leaves it alone. -/
def update (f : σ → Except Fault σ) : Step σ Unit := attempt fun s => (f s).map ((), ·)

/-- Runs a step on a part of the state. -/
def zoom (get : σ → τ) (set : τ → σ → σ) (x : Step τ α) : Step σ α := fun s =>
  let (result, part) := x (get s)
  (result, set part s)

end Step

end QuestLogic
