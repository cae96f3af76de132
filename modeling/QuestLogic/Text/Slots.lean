/-!
# Text slots

A dialog text refers to ten slots as `@0` to `@9`, which the game fills with names and prices while
the dialog runs. Filling in is one pass from left to right: the contents of a slot are not looked at
again, and a reference to an empty slot stays as written.
-/

namespace QuestLogic

/-- The texts that a dialog refers to, and the name of the character in charge. -/
structure TextSlots where
  slots : Vector (Option String) 10
  inCharge : Option String
deriving DecidableEq

namespace TextSlots

/-- Nothing has been filled in. -/
def empty : TextSlots := ⟨.replicate 10 none, none⟩

instance : Inhabited TextSlots := ⟨empty⟩

/-- The text in a slot. -/
def get? (t : TextSlots) (index : Nat) : Option String := (t.slots[index]?).join

/-- Fills a slot; there are only ten. -/
def set (t : TextSlots) (index : Nat) (text : String) : TextSlots :=
  { t with slots := t.slots.setIfInBounds index (some text) }

/-- The text that a character after `@` refers to. -/
def reference? (t : TextSlots) (c : Char) : Option String :=
  if c.isDigit then t.get? (c.toNat - '0'.toNat) else none

/-- Replaces the references to filled slots. -/
def fill (t : TextSlots) : List Char → List Char
  | '@' :: c :: rest =>
    match t.reference? c with
    | some text => text.toList ++ t.fill rest
    | none => '@' :: t.fill (c :: rest)
  | c :: rest => c :: t.fill rest
  | [] => []

/-- A text with the references to filled slots replaced. -/
def substitute (t : TextSlots) (text : String) : String := String.ofList (t.fill text.toList)

end TextSlots

end QuestLogic
