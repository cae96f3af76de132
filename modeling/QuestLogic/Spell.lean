import QuestLogic.Identity

/-!
# Spells

A character has a book of the spells learnt, and a game knows which lasting spells are in effect.
Both are sets of small numbers, kept one bit each; numbers past the width are never in them.
-/

namespace QuestLogic

/-- The spells a character has learnt, one bit each. -/
structure SpellBook where
  bits : UInt64
deriving DecidableEq, Inhabited

namespace SpellBook

/-- A book has room for the spells below this number. -/
def capacity : Nat := 64

/-- Whether a spell has been learnt. -/
def knows (b : SpellBook) (s : SpellId) : Bool :=
  s.val.toNat < capacity && b.bits &&& (1 <<< s.val.toUInt64) ≠ 0

/-- The book with one more spell, if it has room for that number. -/
def learn? (b : SpellBook) (s : SpellId) : Option SpellBook :=
  if s.val.toNat < capacity then some ⟨b.bits ||| (1 <<< s.val.toUInt64)⟩ else none

/-- The spells of two books together. -/
def union (a b : SpellBook) : SpellBook := ⟨a.bits ||| b.bits⟩

end SpellBook

/-- The lasting spells in effect, one bit each. -/
structure ActiveSpells where
  bits : UInt16
deriving DecidableEq, Inhabited

namespace ActiveSpells

/-- No spell is in effect. -/
def none : ActiveSpells := ⟨0⟩

/-- Whether a spell is in effect. -/
def isActive (a : ActiveSpells) (spell : UInt16) : Bool :=
  spell.toNat < 16 && a.bits &&& (1 <<< spell) ≠ 0

/-- Notes that a spell is in effect, or no longer. -/
def set (a : ActiveSpells) (spell : UInt16) (on : Bool) : ActiveSpells :=
  if 16 ≤ spell.toNat then a
  else if on then ⟨a.bits ||| (1 <<< spell)⟩
  else ⟨a.bits &&& ~~~(1 <<< spell)⟩

end ActiveSpells

/-- The spells that last. -/
inductive StaticSpell where
  | dragonsBreath | candleGlow | stardusk | andTheLightShallLie | union | scentOfSarig
deriving DecidableEq, Inhabited

namespace StaticSpell

def all : List StaticSpell :=
  [dragonsBreath, candleGlow, stardusk, andTheLightShallLie, union, scentOfSarig]

/-- The number of a spell. -/
def code : StaticSpell → UInt16
  | dragonsBreath => 0 | candleGlow => 1 | stardusk => 2 | andTheLightShallLie => 3
  | union => 4 | scentOfSarig => 5

def name : StaticSpell → String
  | dragonsBreath => "DragonsBreath" | candleGlow => "CandleGlow" | stardusk => "Stardusk"
  | andTheLightShallLie => "AndTheLightShallLie" | union => "Union"
  | scentOfSarig => "ScentOfSarig"

/-- The spell with the given name. -/
def ofName? (s : String) : Option StaticSpell := all.find? (·.name = s)

end StaticSpell

end QuestLogic
