import QuestLogic.Session.Event

/-!
# Encounters

Whether an encounter that stands on a tile may happen, and what is noted once it has. Everything is
kept as marks and flags of the save image; without an image nothing is noted.
-/

namespace QuestLogic

/-- An encounter that stands on a tile. A flag of number zero is no flag. -/
structure Encounter where
  /-- The position among the encounters of its tile. -/
  index : UInt8
  tile : UInt8
  /-- The flag that must be set. -/
  requireSet : EventPtr
  /-- The flag that must be clear. -/
  requireClear : EventPtr
  /-- The flag that is set once the encounter has happened. -/
  setAfter : EventPtr
  /-- Happens once in a chapter. -/
  oncePerChapter : Bool
  /-- Happens however often it has happened before. -/
  always : Bool
deriving DecidableEq, Inhabited

namespace Session

/-- The mark of an encounter that is met once in a chapter. -/
def uniqueMark (s : Session) (e : Encounter) : Mark := .unique s.zone e.tile e.index

/-- Whether a flag is one and is set, or clear, as `value` says. -/
def flagIs (s : Session) (p : EventPtr) (value : Bool) : Except Fault Bool :=
  if p = 0 then .ok false else (s.eventState p).map fun w => decide (w ≠ 0) = value

/-- Whether the flags that an encounter names keep it from happening. -/
def isBlocked (s : Session) (e : Encounter) : Except Fault Bool := do
  let missing ← s.flagIs e.requireSet false
  let present ← s.flagIs e.requireClear true
  return missing || present

/-- Whether an encounter may happen; without an image all of them may. -/
def mayMeet (s : Session) (e : Encounter) : Except Fault Bool := do
  if s.save.isNone then return true
  let seen ← s.marked (s.uniqueMark e)
  let recent ← s.marked (.recent e.index)
  let blocked ← s.isBlocked e
  return !(seen || recent || blocked)

/-- Whether an encounter that is a combat may happen. -/
def mayFight (s : Session) (e : Encounter) (combat : UInt16) : Except Fault Bool := do
  let seen ← s.marked (s.uniqueMark e)
  let fought ← s.marked (.combat combat)
  let blocked ← s.isBlocked e
  return !(seen || fought || blocked)

/-- Sets the flag of an encounter that has happened. -/
def noteDone (e : Encounter) : Step Session Unit :=
  if e.setAfter = 0 then pure () else setEvent e.setAfter true

/-- Keeps an encounter from happening again in this chapter. -/
def noteUnique (e : Encounter) : Step Session Unit := do
  let s ← get
  setMark (s.uniqueMark e) true

/-- What is noted of an encounter that unlocked or closed something. -/
def noteSwitch (e : Encounter) : Step Session Unit := do
  noteDone e
  if e.oncePerChapter then noteUnique e else pure ()

/-- What is noted of an encounter that was a dialog. -/
def noteDialog (e : Encounter) : Step Session Unit := do
  noteDone e
  if e.always then pure ()
  else do
    if e.oncePerChapter then noteUnique e
    setMark (.recent e.index) true

/-- What is noted of an encounter that was a scene. -/
def noteScene (e : Encounter) : Step Session Unit := noteDone e

/-- Forgets what was met and scouted on a tile. -/
def clearTile : Step Session Unit := onSave Image.clearTile

end Session

/-- A quest that is won by fighting several combats. -/
structure CombatQuest where
  combats : List UInt16
  /-- The flags of the combats. -/
  fought : List EventPtr
  /-- The flag of the quest. -/
  won : EventPtr
deriving DecidableEq, Inhabited

namespace CombatQuest

/-- The quests of the story that are won by fighting. -/
def all : List CombatQuest :=
  [⟨[131, 132, 133, 134, 135], [0x14e7, 0x14e8, 0x14e9, 0x14ea, 0x14eb], 0xdb1c⟩,
    ⟨[610, 613, 615, 618, 619, 621], [0x16c6, 0x16c9, 0x16cb, 0x16ce, 0x16cf, 0x16d1], 0x1d17⟩]

/-- The quest that a combat belongs to. -/
def ofCombat? (combat : UInt16) : Option CombatQuest := all.find? (·.combats.contains combat)

end CombatQuest

namespace Session

/-- Whether all of some flags are set, looked at in order up to the first that is clear. -/
def allSet (s : Session) : List EventPtr → Except Fault Bool
  | [] => .ok true
  | p :: rest => do if ← s.eventFlag p then s.allSet rest else return false

/-- Wins the quest of a combat if all of its combats have been fought. -/
def noteCombat (combat : UInt16) : Step Session Unit := do
  match CombatQuest.ofCombat? combat with
  | some q =>
    if ← Step.view (·.allSet q.fought) then setEvent q.won true else pure ()
  | none => pure ()

end Session

end QuestLogic
