import QuestLogic.Event.Pointer
import QuestLogic.Fault

/-!
# Flag ranges

The simple record is divided among the parts of a game, each with a range of consecutive flags.
-/

namespace QuestLogic

/-- A range of flags with a name. -/
structure FlagRange where
  name : String
  base : Nat
  count : Nat
deriving DecidableEq

namespace FlagRange

/-- One past the last flag. -/
def stop (r : FlagRange) : Nat := r.base + r.count

/-- Whether a flag belongs to the range. -/
def contains (r : FlagRange) (p : EventPtr) : Bool := r.base ≤ p.toNat && p.toNat < r.stop

/-- The flag at an index of the range. -/
def pointer (r : FlagRange) (index : Nat) : Except Fault EventPtr :=
  if index < r.count then .ok (UInt16.ofNat (r.base + index))
  else .error (.outsideRange r.name index r.count)

/-- All flags of the range. -/
def pointers (r : FlagRange) : List EventPtr :=
  (List.range r.count).map fun i => UInt16.ofNat (r.base + i)

/-- Flags that each character has in the two ranges of skill flags. -/
def perCharacter : Nat := 17

def uniqueEncounter : FlagRange := ⟨"unique encounter", 0x190, 0x12c0⟩
def recentEncounter : FlagRange := ⟨"recent encounter", 0x1450, 10⟩
def combatScouted : FlagRange := ⟨"combat scouted", 0x145a, 10⟩
def combatEncounter : FlagRange := ⟨"combat encounter", 0x1464, 0x3e8⟩
def skillSelected : FlagRange := ⟨"skill selected", 0x1856, 6 * perCharacter⟩
def skillImprovement : FlagRange := ⟨"skill improvement", 0x18ce, 6 * perCharacter⟩
def itemUsed : FlagRange := ⟨"item used", 0x194c, 4⟩
def templeSeen : FlagRange := ⟨"temple seen", 0x1950, 13⟩
def conversationInhibited : FlagRange := ⟨"conversation inhibited", 0x1a2c, 0xac⟩
def door : FlagRange := ⟨"door", 0x1b58, 0x104⟩
def lockSeen : FlagRange := ⟨"lock seen", 0x1c5c, 0x3c⟩
def conversationDiscussed : FlagRange := ⟨"conversation discussed", 0x1d4c, 0xac⟩

/-- Every range, by address. -/
def all : List FlagRange :=
  [uniqueEncounter, recentEncounter, combatScouted, combatEncounter, skillSelected,
    skillImprovement, itemUsed, templeSeen, conversationInhibited, door, lockSeen,
    conversationDiscussed]

end FlagRange

end QuestLogic
