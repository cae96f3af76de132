import QuestLogic.Word

/-!
# Conditions

Seven conditions afflict a character, each to a degree from nothing to one hundred percent. All but
healing do harm.
-/

namespace QuestLogic

/-- What can ail a character. -/
inductive Condition where
  | sick | plagued | poisoned | drunk | healing | starving | nearDeath
deriving DecidableEq, Inhabited

namespace Condition

/-- The conditions in the order of their degrees. -/
def all : List Condition := [sick, plagued, poisoned, drunk, healing, starving, nearDeath]

/-- The position of a condition's degree. -/
def slot : Condition → Fin 7
  | sick => 0 | plagued => 1 | poisoned => 2 | drunk => 3 | healing => 4 | starving => 5
  | nearDeath => 6

def name : Condition → String
  | sick => "Sick" | plagued => "Plagued" | poisoned => "Poisoned" | drunk => "Drunk"
  | healing => "Healing" | starving => "Starving" | nearDeath => "NearDeath"

/-- The condition with the given name. -/
def ofName? (s : String) : Option Condition := all.find? (·.name = s)

/-- Every condition but healing does harm. -/
def isNegative (c : Condition) : Bool := c ≠ healing

end Condition

/-- How far each condition has gone, in percent. -/
structure Conditions where
  degrees : Vector UInt8 7
deriving DecidableEq

namespace Conditions

/-- Nothing ails the character. -/
def none : Conditions := ⟨.replicate 7 0⟩

instance : Inhabited Conditions := ⟨none⟩

/-- How far a condition has gone. -/
def degree (s : Conditions) (c : Condition) : UInt8 := s.degrees[c.slot]

/-- Whether a condition is present at all. -/
def isActive (s : Conditions) (c : Condition) : Bool := 0 < s.degree c

/-- Moves a condition up or down, between nothing and one hundred percent. -/
def adjust (s : Conditions) (c : Condition) (amount : Int) : Conditions :=
  ⟨s.degrees.set c.slot (clampByte 100 ((s.degree c).toNat + amount))⟩

/-- Whether anything harmful is present. -/
def anyNegative (s : Conditions) : Bool := Condition.all.any fun c => c.isNegative && s.isActive c

end Conditions

end QuestLogic
