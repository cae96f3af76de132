/-!
# Identities

The numbers by which a game refers to its characters, chapters, items and dialogs. Each is a type of
its own, so that an item cannot stand where a character is meant, and each has a printed form.
-/

namespace QuestLogic

/-- The digits of `n` in base sixteen, lower case, after `0x`. -/
def hexText (n : Nat) : String := "0x" ++ String.ofList (Nat.toDigits 16 n)

/-- A character, by position in the full cast. -/
structure CharId where
  val : UInt8
deriving DecidableEq, Inhabited

namespace CharId

def locklear : CharId := ⟨0⟩
def gorath : CharId := ⟨1⟩
def owyn : CharId := ⟨2⟩
def pug : CharId := ⟨3⟩
def james : CharId := ⟨4⟩
def patrus : CharId := ⟨5⟩

/-- The size of the full cast. -/
def castSize : Nat := 6

/-- Whether the number names one of the cast. -/
def isCast (c : CharId) : Bool := c.val.toNat < castSize

/-- Owyn, Pug and Patrus cast spells. -/
def isSpellCaster (c : CharId) : Bool := c = owyn || c = pug || c = patrus

/-- Locklear, Gorath and James fight with swords. -/
def isSwordsman (c : CharId) : Bool := c = locklear || c = gorath || c = james

instance : ToString CharId := ⟨fun c => s!"char:{c.val}"⟩

end CharId

/-- A chapter of the story. -/
structure Chapter where
  val : UInt8
deriving DecidableEq, Inhabited

namespace Chapter

def first : Chapter := ⟨1⟩
def last : Chapter := ⟨9⟩

/-- The story has chapters 1 to 9. -/
def inStory (c : Chapter) : Bool := 1 ≤ c.val.toNat && c.val.toNat ≤ 9

instance : ToString Chapter := ⟨fun c => s!"chapter {c.val}"⟩

end Chapter

/-- A zone of the world map. -/
structure Zone where
  val : UInt8
deriving DecidableEq, Inhabited

instance : ToString Zone := ⟨fun z => s!"zone {z.val}"⟩

/-- A kind of item. -/
structure ItemId where
  val : UInt8
deriving DecidableEq, Inhabited

instance : ToString ItemId := ⟨fun i => s!"item:{i.val}"⟩

/-- A spell. -/
structure SpellId where
  val : UInt16
deriving DecidableEq, Inhabited

/-- A monster, by position in the table of monster names. -/
structure MonsterId where
  val : UInt16
deriving DecidableEq, Inhabited

/-- The key of a dialog snippet. -/
structure Target where
  val : UInt32
deriving DecidableEq, Inhabited

instance : ToString Target := ⟨fun t => s!"dialog:{hexText t.val.toNat}"⟩

end QuestLogic
