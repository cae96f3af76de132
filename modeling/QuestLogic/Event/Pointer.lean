import QuestLogic.Save.Layout

/-!
# Event pointers

Every flag of a save image has a number. Numbers below `0xdac0` name one bit each of the simple
record. From there on ten numbers share a byte of the complex record: the first names the whole
byte, the others its bits, of which the ninth lies in the byte after. So two numbers may name one
bit; `EventPtr.location` is the bit that a number stands for.
-/

namespace QuestLogic

/-- The number of a flag. -/
abbrev EventPtr := UInt16

/-- What a number names. -/
inductive EventAddress where
  | simple (byte bit : Nat)
  | complexBit (byte bit : Nat)
  | complexByte (byte : Nat)
deriving DecidableEq

namespace EventAddress

def byte : EventAddress → Nat
  | simple b _ | complexBit b _ | complexByte b => b

/-- The bit within the byte, where the address names a single one. -/
def bit? : EventAddress → Option Nat
  | simple _ i | complexBit _ i => some i
  | complexByte _ => none

/-- The lowest bit that the address covers; a bit past the end of its byte belongs to the next. -/
def location : EventAddress → Nat × Nat
  | simple b i | complexBit b i => (b + i / 8, i % 8)
  | complexByte b => (b, 0)

end EventAddress

namespace EventPtr

/-- The first number of the complex record. -/
def complexBase : EventPtr := 0xdac0

/-- Byte and bit of a number, counted ten to the byte from the complex record. -/
def complexLocation (p : EventPtr) : Nat × Nat :=
  let offset := (p - complexBase).toNat
  (Layout.complexEvents + offset / 10, offset % 10 - 1)

/-- What a number names. -/
def resolve (p : EventPtr) : EventAddress :=
  if p < complexBase then .simple (Layout.simpleEvents + p.toNat / 8) (p.toNat % 8)
  else
    let (byte, bit) := p.complexLocation
    if (p - complexBase).toNat % 10 = 0 then .complexByte byte else .complexBit byte bit

/-- The byte and bit that a number stands for. -/
def location (p : EventPtr) : Nat × Nat := p.resolve.location

end EventPtr

end QuestLogic
