import QuestLogic.Event.Pointer
import QuestLogic.Save.Image

/-!
# The event store

Reading and writing flags of a save image. Reading a bit of the complex record yields the eight bits
from there on, so its lowest bit is the flag; writing a flag changes one bit and no other.
-/

namespace QuestLogic

/-- Bit `i` of a byte. -/
def getBit (b : UInt8) (i : Nat) : Bool := b.toBitVec.getLsbD i

/-- The byte with bit `i` set or cleared. -/
def withBit (b : UInt8) (i : Nat) (on : Bool) : UInt8 :=
  if on then b ||| 1 <<< UInt8.ofNat i else b &&& ~~~(1 <<< UInt8.ofNat i)

/-- A payload that writes flags. -/
structure FlagWrite where
  pointer : EventPtr
  /-- The bits of a whole byte that stay; otherwise the low half of a second pointer. -/
  mask : UInt8
  /-- The bits of a whole byte to set; otherwise the high half of the second pointer. -/
  data : UInt8
  /-- The bits of a whole byte to flip; otherwise a third pointer. -/
  flip : UInt16
  value : UInt16
deriving DecidableEq, Inhabited

namespace FlagWrite

/-- What the write makes of a whole byte. -/
def update (w : FlagWrite) (old : UInt8) : UInt8 := (old &&& w.mask ||| w.data) ^^^ w.flip.toUInt8

/-- The pointers of single flags; zero is none. -/
def pointers (w : FlagWrite) : List EventPtr :=
  [w.pointer, w.mask.toUInt16 ||| w.data.toUInt16 <<< 8, w.flip].filter (· ≠ 0)

end FlagWrite

namespace Image

/-- The value at a pointer: 0 or 1 in the simple record, eight bits in the complex one. -/
def readEvent (m : Image) (p : EventPtr) : Except Fault UInt8 :=
  match p.resolve with
  | .simple byte bit => return (← m.readU8 byte) >>> UInt8.ofNat bit &&& 1
  | .complexByte byte | .complexBit byte 0 => m.readU8 byte
  | .complexBit byte bit => return ((← m.readU16 byte) >>> UInt16.ofNat bit).toUInt8

/-- Whether the flag at a pointer is set. -/
def readFlag (m : Image) (p : EventPtr) : Except Fault Bool :=
  return getBit (← m.readEvent p) 0

/-- Sets or clears the flag at a pointer. -/
def setFlag (p : EventPtr) (on : Bool) : Step Image Unit := .update fun m => do
  let (byte, bit) := p.location
  return m.put byte (withBit (← m.readU8 byte) bit on)

/-- Sets or clears flags in order. -/
def setFlags (on : Bool) : List EventPtr → Step Image Unit
  | [] => pure ()
  | p :: rest => do
    setFlag p on
    setFlags on rest

/-- Rewrites a whole byte of the complex record, or else sets up to three single flags. -/
def applyWrite (w : FlagWrite) : Step Image Unit :=
  match w.pointer.resolve with
  | .complexByte byte => .update fun m => return m.put byte (w.update (← m.readU8 byte))
  | _ => setFlags (w.value ≠ 0) w.pointers

end Image

end QuestLogic
