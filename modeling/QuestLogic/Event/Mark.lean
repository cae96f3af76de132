import QuestLogic.Event.Range
import QuestLogic.Event.Store

/-!
# Marks

What a game remembers one bit at a time: doors opened, locks and temples seen, topics discussed,
encounters met, skills chosen. A mark says in the game's own terms what its flag stands for, and
`Mark.place` finds the flag.
-/

namespace QuestLogic

/-- Something a game remembers with one flag. -/
inductive Mark where
  /-- A door stands open. -/
  | door (n : UInt16)
  | lockSeen (n : UInt16)
  | templeSeen (n : UInt8)
  | itemUsed (n : UInt8)
  /-- A topic of conversation has been brought up. -/
  | discussed (topic : EventPtr)
  /-- A topic of conversation is not offered. -/
  | inhibited (topic : EventPtr)
  /-- An encounter has been met on the current tile. -/
  | recent (encounter : UInt8)
  /-- An enemy has been scouted on the current tile. -/
  | scouted (encounter : UInt8)
  /-- An encounter has been met in this chapter. -/
  | unique (zone : Zone) (tile encounter : UInt8)
  /-- A combat has been fought. -/
  | combat (n : UInt16)
  /-- The player trains this skill. -/
  | skillSelected (character : CharId) (skill : SkillType)
  /-- A skill has improved and the player has not looked. -/
  | skillUnseen (character : CharId) (skill : SkillType)
deriving DecidableEq

namespace Mark

/-- Encounters to a tile. -/
def encountersPerTile : Nat := 10

/-- Encounters to a zone. -/
def encountersPerZone : Nat := 400

/-- The flag of a skill in a range that has some for each character. -/
def skillPlace (range : FlagRange) (character : CharId) (skill : SkillType) :
    Except Fault EventPtr :=
  match skill.slot? with
  | some slot => range.pointer (character.val.toNat * FlagRange.perCharacter + slot)
  | none => .error (.noSkillFlag skill range.name)

/-- The flag of an encounter in the range that is cleared at the start of a chapter. -/
def uniquePlace (zone : Zone) (tile encounter : UInt8) : Except Fault EventPtr :=
  if zone.val = 0 || encountersPerTile ≤ encounter.toNat then
    .error (.noUniqueEncounter encounter tile zone)
  else
    FlagRange.uniqueEncounter.pointer
      ((zone.val.toNat - 1) * encountersPerZone + tile.toNat * encountersPerTile
        + encounter.toNat)

/-- The flag of a mark. Combats past the range have none: they are always as good as fought. -/
def place : Mark → Except Fault (Option EventPtr)
  | door n => some <$> FlagRange.door.pointer n.toNat
  | lockSeen n => some <$> FlagRange.lockSeen.pointer n.toNat
  | templeSeen n => some <$> FlagRange.templeSeen.pointer n.toNat
  | itemUsed n => some <$> FlagRange.itemUsed.pointer n.toNat
  | discussed p => some <$> FlagRange.conversationDiscussed.pointer p.toNat
  | inhibited p => some <$> FlagRange.conversationInhibited.pointer p.toNat
  | recent e => some <$> FlagRange.recentEncounter.pointer e.toNat
  | scouted e => some <$> FlagRange.combatScouted.pointer e.toNat
  | unique z t e => some <$> uniquePlace z t e
  | combat n =>
    if FlagRange.combatEncounter.count ≤ n.toNat then .ok none
    else some <$> FlagRange.combatEncounter.pointer n.toNat
  | skillSelected c s => some <$> skillPlace .skillSelected c s
  | skillUnseen c s => some <$> skillPlace .skillImprovement c s

end Mark

namespace Image

/-- Whether a mark is set. -/
def marked (m : Image) (k : Mark) : Except Fault Bool := do
  match ← k.place with
  | some p => m.readFlag p
  | none => return true

/-- Sets or clears a mark. -/
def setMark (k : Mark) (on : Bool) : Step Image Unit :=
  match k.place with
  | .ok (some p) => setFlag p on
  | .ok none => pure ()
  | .error e => throw e

/-- Temples are numbered 1 to 12. -/
def temples : List UInt8 := (List.range 12).map fun i => UInt8.ofNat (i + 1)

/-- Whether the party has seen more than one temple. -/
def manyTemplesSeen (m : Image) : Except Fault Bool := do
  let seen ← temples.filterM fun n => m.marked (.templeSeen n)
  return 1 < seen.length

/-- Forgets every encounter that is met once to a chapter. -/
def clearUnique : Step Image Unit := setFlags false FlagRange.uniqueEncounter.pointers

/-- Forgets what was met and scouted on a tile. -/
def clearTile : Step Image Unit :=
  setFlags false (FlagRange.recentEncounter.pointers ++ FlagRange.combatScouted.pointers)

/-- Marks every improvement of a character as seen, in unused places as well. -/
def clearUnseen (c : CharId) : Step Image Unit :=
  (List.range FlagRange.perCharacter).forM fun slot =>
    match FlagRange.skillImprovement.pointer (c.val.toNat * FlagRange.perCharacter + slot) with
    | .ok p => setFlag p false
    | .error e => throw e

end Image

end QuestLogic
