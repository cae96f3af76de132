import QuestLogic.Clock
import QuestLogic.Ledger.Record
import QuestLogic.Party.Basic
import QuestLogic.Random
import QuestLogic.Settings
import QuestLogic.Text.Slots

/-!
# Sessions

A session is a game that is being played: the party, the clock, the timed effects, the save image if
one is loaded, and the numbers that a dialog passes from its actions to its choices. Loading an
image derives from it everything that it records; saving writes the same things back.
-/

namespace QuestLogic

/-- A game that is being played. -/
structure Session where
  settings : Settings
  save : Option Image
  party : Party
  chapter : Chapter
  zone : Zone
  clock : Clock
  ledger : Ledger
  /-- The lasting spells that have time left. -/
  spells : ActiveSpells
  /-- How bright the light of the party is. -/
  light : UInt8
  dice : Dice
  names : NameTables
  texts : TextSlots
  activeCharacter : Option CharId
  /-- The character who speaks. -/
  speaker : Option CharId
  /-- The characters picked for the roles of a dialog. -/
  roles : Vector UInt8 6
  /-- The character whose skill was tested last. -/
  tested : Option CharId
  /-- The value of that skill. -/
  skillValue : Nat
  contextValue : UInt32
  contextVar : UInt32
  itemValue : Royals
  shop : UInt32
  bardReward : Royals
  /-- What the dialog leaves to the world when it ends. -/
  endState : Int16
  selectedItem : Option Item
  monster : Option MonsterId
  /-- Snippets left for the player to see, the oldest first. -/
  pending : List Target

namespace Session

/-- Marks a role for which nobody has been picked. -/
def noRole : UInt8 := 0xff

/-- A session with nothing loaded. -/
def ofSettings (settings : Settings) (party : Party) : Session where
  settings := settings
  save := none
  party := { party with gold := settings.gold }
  chapter := settings.chapter
  zone := ⟨1⟩
  clock := .start
  ledger := .empty settings.ledgerCapacity
  spells := .none
  light := 0
  dice := .fresh (.ofSeed settings.seed)
  names := .empty
  texts := .empty
  activeCharacter := party.active.head?
  speaker := none
  roles := .replicate 6 noRole
  tested := none
  skillValue := 0
  contextValue := 0
  contextVar := 0
  itemValue := .none
  shop := 0
  bardReward := .none
  endState := 0
  selectedItem := none
  monster := none
  pending := []

instance : Inhabited Session := ⟨ofSettings .usual .initial⟩

/-- Forgets what a dialog has gathered. -/
def clearDialog (s : Session) : Session :=
  { s with
    speaker := none, roles := .replicate 6 noRole, tested := none, skillValue := 0,
    contextValue := 0, endState := 0, pending := [] }

/-- The spells that a list of timed effects keeps in effect; of two entries the later counts. -/
def spellsOf (effects : List Effect) : ActiveSpells :=
  effects.foldl (fun a e => if e.kind = .spell then a.set e.subject (!e.duration.isZero) else a)
    .none

/-- The session with an image loaded: all that the image records replaces what was there. -/
def loaded (s : Session) (m : Image) : Except Fault Session := do
  let chapter ← m.readU16 Layout.chapter
  unless 1 ≤ chapter.toNat && chapter.toNat ≤ 9 do throw (.savedChapter chapter)
  let ledger ← Ledger.load m s.settings.ledgerCapacity
  let zone ← m.readU8 Layout.zone
  let now ← m.readU32 Layout.time
  let lastSlept ← m.readU32 Layout.lastSlept
  let gold ← m.readU32 Layout.gold
  return { s with
    chapter := ⟨chapter.toUInt8⟩, zone := ⟨zone⟩, clock := ⟨⟨now⟩, ⟨lastSlept⟩⟩,
    party.gold := ⟨gold⟩, spells := spellsOf ledger.entries, ledger, save := some m,
    activeCharacter := s.party.active.head? }.clearDialog

/-- A session with an image loaded. -/
def ofSave (settings : Settings) (party : Party) (m : Image) : Except Fault Session :=
  (ofSettings settings party).loaded m

/-- Loads an image. -/
def load (m : Image) : Step Session Unit := .update (·.loaded m)

/-- Reads the image, or takes a value that stands for a missing one. -/
def readSave {α : Type} (s : Session) (absent : α) (read : Image → Except Fault α) :
    Except Fault α :=
  match s.save with
  | some m => read m
  | none => .ok absent

/-- Runs a step on the image; without one nothing happens. -/
def onSave (x : Step Image Unit) : Step Session Unit := fun s =>
  match s.save with
  | some m =>
    let (result, m) := x m
    (result, { s with save := some m })
  | none => (.ok (), s)

/-- Runs a step on the party. -/
def onParty {α : Type} (x : Step Party α) : Step Session α :=
  .zoom (·.party) (fun p s => { s with party := p }) x

/-- Writes chapter, zone, purse, clock and ledger into the image. -/
def saveState : Step Session Unit := do
  let s ← get
  if s.save.isNone then throw .noSave
  onSave do
    Image.writeU16 Layout.chapter s.chapter.val.toUInt16
    Image.writeU8 Layout.zone s.zone.val
    Image.writeU32 Layout.gold s.party.gold.val
    Image.writeU32 Layout.time s.clock.now.ticks
    Image.writeU32 Layout.lastSlept s.clock.lastSlept.ticks
    s.ledger.store

/-- Begins a chapter, in the image as well. -/
def setChapter (c : Chapter) : Step Session Unit := do
  modify fun s => { s with chapter := c }
  onSave (Image.writeU16 Layout.chapter c.val.toUInt16)

/-- Rolls a number from `lo` to `hi`. -/
def roll (lo hi : UInt32) : Step Session UInt32 := do
  let (n, dice) := (← get).dice.roll lo hi
  modify fun s => { s with dice }
  return n

/-- Puts a character in charge and notes the name for texts. -/
def setActiveCharacter (id : CharId) : Step Session Unit := .update fun s => do
  let c ← s.party.member id
  return { s with activeCharacter := some id, texts.inCharge := some c.name }

end Session

end QuestLogic
