import QuestLogic.Ledger.Basic
import QuestLogic.Save.Image
import QuestLogic.Save.Layout

/-!
# The ledger in a save image

A save image holds the number of timed effects in two bytes and then eight bytes for each: its kind,
its flags, its subject and the time left. Loading accepts only known kinds and a number of effects
that the ledger has room for.
-/

namespace QuestLogic.Ledger

/-- Where the effect at a position stands. -/
def entryOffset (index : Nat) : Nat := Layout.effects + 2 + index * Layout.effectLength

/-- The effect at a position of the record. -/
def readEntry (m : Image) (index : Nat) : Except Fault Effect := do
  let offset := entryOffset index
  let code ← m.readU8 offset
  match EffectKind.ofCode? code with
  | some kind => return ⟨kind, ← m.readU8 (offset + 1), ← m.readU16 (offset + 2),
      ⟨← m.readU32 (offset + 4)⟩⟩
  | none => throw (.unknownEffectKind code)

/-- Reads the ledger of a save image. -/
def load (m : Image) (capacity : Nat) : Except Fault Ledger := do
  let capacity := min capacity maxCapacity
  let count := (← m.readU16 Layout.effects).toNat
  if capacity < count then throw (.tooManyEffects count capacity)
  return ⟨← (List.range count).mapM (readEntry m), capacity⟩

/-- Writes an effect at a position of the record. -/
def writeEntry (index : Nat) (e : Effect) : Step Image Unit := do
  let offset := entryOffset index
  Image.writeU8 offset e.kind.code
  Image.writeU8 (offset + 1) e.flags
  Image.writeU16 (offset + 2) e.subject
  Image.writeU32 (offset + 4) e.duration.ticks

/-- Writes effects from a position on. -/
def writeFrom (index : Nat) : List Effect → Step Image Unit
  | [] => pure ()
  | e :: rest => do
    writeEntry index e
    writeFrom (index + 1) rest

/-- Writes the ledger into a save image. -/
def store (l : Ledger) : Step Image Unit := do
  Image.writeU16 Layout.effects (UInt16.ofNat l.entries.length)
  writeFrom 0 l.entries

end QuestLogic.Ledger
