import QuestLogic.Time

/-!
# The clock

The present, and the instant the party last slept.
-/

namespace QuestLogic

/-- The present, and when the party last slept. -/
structure Clock where
  now : Time
  lastSlept : Time
deriving DecidableEq, Inhabited

namespace Clock

/-- The start of the world. -/
def start : Clock := ⟨.zero, .zero⟩

/-- Time moves forward. -/
def advance (c : Clock) (span : Time) : Clock := { c with now := c.now + span }

/-- Time jumps, and the party counts as having just slept. -/
def jump (_ : Clock) (t : Time) : Clock := ⟨t, t⟩

/-- The party has slept at `t`. -/
def sleepAt (c : Clock) (t : Time) : Clock := { c with lastSlept := t }

/-- How long the party has been awake. -/
def awake (c : Clock) : Time := c.now - c.lastSlept

end Clock

end QuestLogic
