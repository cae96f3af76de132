import QuestLogic.Script.Value

/-!
# Nesting

A record may hold fields that nobody reads. What they hold is passed over, which it has to be made
for: some words want parentheses behind them, others none, and only so many levels may be open at a
time. Brackets and parentheses open a level and each of their parts opens another, whether the part
is a value or a named field; `Some` opens one level in all.
-/

namespace QuestLogic.Script

namespace Nesting

/-- The levels that may be open at a time. -/
def limit : Nat := 128

/-- The levels that a record opens around the values of its fields. -/
def record : Nat := 2

/-- The levels that a list opens around its items. -/
def list : Nat := 2

/-- The level that a variant opens. -/
def variant : Nat := 1

/-- The level that parentheses around the one part of a variant open. -/
def part : Nat := 1

/-- The levels around the fields of a file. -/
def file : Nat := record

/-- The levels around the fields of a record in a list of the file. -/
def entry : Nat := file + list + record

/-- The levels around the coordinates of a position. -/
def position : Nat := entry + record

/-- The levels around the fields of a branch. -/
def branch : Nat := entry + list + record

/-- The levels around the operands of an action. -/
def action : Nat := entry + list + variant + record

/-- The levels around the fields of a flag write. -/
def flagWrite : Nat := entry + list + variant + part + record

/-- The levels around the words of a choice. -/
def choiceWords : Nat := branch + variant + record

/-- The levels around the operands of a choice. -/
def choice : Nat := branch + variant + part + variant + record

end Nesting

namespace Value

/-- The words that stand for a value by themselves. -/
def leafWords : List String :=
  ["None", "true", "false", "inf", "NaN", "inff32", "inff64", "NaNf32", "NaNf64"]

/-- The word before the value of an option. -/
def someWord : String := "Some"

/-- Whether parts in parentheses, however many, may follow a name. -/
def mayOpen (name : Option String) : Bool :=
  name.all fun word => word ≠ someWord && !leafWords.contains word

mutual

/-- Whether a value can be passed over where so many levels may still be opened. -/
def fits : Nat → Value → Bool
  | _, number _ | _, text _ | _, unit => true
  | _, word name => name ≠ someWord
  | room + 1, list items => itemsFit room items
  | room + 1, group name items =>
    if name = some someWord then onlyFits room items else mayOpen name && itemsFit room items
  | room + 1, record name fields => mayOpen name && fieldsFit room fields
  | 0, _ => false

/-- Whether the parts of a list or a group can be passed over. -/
def itemsFit : Nat → List Value → Bool
  | _, [] => true
  | 0, _ :: _ => false
  | room + 1, v :: rest => fits room v && itemsFit (room + 1) rest

/-- Whether there is one part, and it can be passed over. -/
def onlyFits : Nat → List Value → Bool
  | room, [v] => fits room v
  | _, _ => false

/-- Whether the fields of a record can be passed over. -/
def fieldsFit : Nat → List (String × Value) → Bool
  | _, [] => true
  | 0, _ :: _ => false
  | room + 1, (_, v) :: rest => fits room v && fieldsFit (room + 1) rest

end

end Value

end QuestLogic.Script
