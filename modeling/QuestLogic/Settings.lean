import QuestLogic.Identity
import QuestLogic.Ledger.Basic
import QuestLogic.Royals

/-!
# Settings

What an author fixes about a game: how it begins, and the tables of names.
-/

namespace QuestLogic

/-- How a game begins. -/
structure Settings where
  /-- The seed of the random numbers. -/
  seed : UInt64
  /-- The chapter while nothing is loaded. -/
  chapter : Chapter
  /-- The purse while nothing is loaded. -/
  gold : Royals
  /-- The room for timed effects. -/
  ledgerCapacity : Nat
deriving DecidableEq

namespace Settings

/-- The settings of a game whose author fixed none. -/
def usual : Settings := ⟨12345, ⟨7⟩, .ofNat 1000, Ledger.maxCapacity⟩

instance : Inhabited Settings := ⟨usual⟩

end Settings

/-- The names of monsters and spells, by number. -/
structure NameTables where
  monsters : List String
  spells : List String
deriving DecidableEq, Inhabited

namespace NameTables

/-- Tables without names. -/
def empty : NameTables := ⟨[], []⟩

def monster? (t : NameTables) (m : MonsterId) : Option String := t.monsters[m.val.toNat]?

def spell? (t : NameTables) (s : SpellId) : Option String := t.spells[s.val.toNat]?

/-- Two tables, one after the other. -/
def append (a b : NameTables) : NameTables := ⟨a.monsters ++ b.monsters, a.spells ++ b.spells⟩

end NameTables

end QuestLogic
