import QuestLogic.Identity
import QuestLogic.Party.Skill
import QuestLogic.Royals

/-!
# Faults

Everything that can go wrong while a game runs, by cause, with the text that tells a player. A fault
of the save image ends a dialog script; any other fault skips the action that met it.
-/

namespace QuestLogic

/-- Why an operation did not go through. -/
inductive Fault where
  /-- An access of `width` bytes at `offset` reaches past the end of an image of `size` bytes. -/
  | corrupt (offset width size : Nat)
  | unknownSnippet (target : Target)
  /-- A range of `count` flags has no flag of that index. -/
  | outsideRange (range : String) (index count : Nat)
  | noSkillFlag (skill : SkillType) (range : String)
  | noUniqueEncounter (encounter tile : UInt8) (zone : Zone)
  | noStash (chapter : Chapter)
  | tooManyEffects (count capacity : Nat)
  | unknownEffectKind (kind : UInt8)
  | ledgerFull
  | savedChapter (chapter : UInt16)
  | noSave
  | unknownCharacter (id : CharId)
  | notInRoster (id : CharId)
  | noRoomInParty (item : ItemId)
  | noRoomWith (name : String) (item : ItemId)
  | notHeld (item : ItemId)
  | purseShort (held needed : Royals)
  | unitsShort (held : Nat) (item : ItemId) (needed : Nat)
  | noSpeaker
  | noSuchRole (slot : UInt8)
  | roleUnset (slot : UInt8)
  | noActiveMember (position : Nat)
  | noItemSelected
  | noOneToTest
  | spellOutOfRange (spell : SpellId)
  | noStart (chapter : Chapter)
  | endlessChain (first : Target)
deriving DecidableEq

namespace Fault

/-- Whether the save image is to blame. -/
def isCorruption : Fault → Bool
  | corrupt .. => true
  | _ => false

/-- What is wrong with an operation that the game refuses. -/
def reason : Fault → String
  | corrupt .. => "corrupt save image"
  | unknownSnippet _ => "unknown snippet"
  | outsideRange range index count => s!"{range} index {index} outside 0..{count}"
  | noSkillFlag skill range => s!"{skill} has no {range} flag"
  | noUniqueEncounter encounter tile zone =>
    s!"no unique encounter {encounter} on tile {tile} of {zone}"
  | noStash chapter => s!"no money stash for {chapter}"
  | tooManyEffects count capacity => s!"save holds {count} timed effects, capacity is {capacity}"
  | unknownEffectKind kind => s!"unknown timed effect type {kind}"
  | ledgerFull => "time expiring ledger is full"
  | savedChapter chapter => s!"save records chapter {chapter}"
  | noSave => "no save loaded"
  | unknownCharacter id => s!"no character {id} in party"
  | notInRoster id => s!"cannot activate {id}: not in roster"
  | noRoomInParty item => s!"no room in party for {item}"
  | noRoomWith name item => s!"{name} has no room for {item}"
  | notHeld item => s!"party does not hold {item}"
  | purseShort held needed => s!"purse holds {held}, needs {needed}"
  | unitsShort held item needed => s!"party holds {held} of {item}, needs {needed}"
  | noSpeaker => "no active character to speak"
  | noSuchRole slot => s!"dialog character slot {slot} out of range"
  | roleUnset slot => s!"dialog character slot {slot} is unset"
  | noActiveMember position => s!"no active character {position}"
  | noItemSelected => "no item selected"
  | noOneToTest => "no active character to test a skill"
  | spellOutOfRange spell => s!"spell {spell.val} is out of range"
  | noStart chapter => s!"no start location for {chapter}"
  | endlessChain first => s!"snippet chain from {first} does not end"

/-- The text of a fault. -/
def message : Fault → String
  | corrupt offset width size =>
    s!"Corrupt state: {width} byte(s) at offset {hexText offset} outside save image of " ++
      s!"{hexText size} bytes"
  | unknownSnippet target => s!"Dialog snippet not found: {target}"
  | f => s!"Invalid operation: {f.reason}"

end Fault

end QuestLogic
