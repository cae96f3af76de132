import QuestLogic.Step

/-!
# Save images

A save image is a row of bytes; numbers in it have their low byte first. Every access is checked
against the end of the image, and one that reaches past it changes nothing.
-/

namespace QuestLogic

/-- The bytes of a saved game. -/
structure Image where
  bytes : Array UInt8
deriving DecidableEq, Inhabited

namespace Image

/-- The number of bytes. -/
def size (m : Image) : Nat := m.bytes.size

/-- An image of zeros. -/
def zeroed (size : Nat) : Image := ⟨.replicate size 0⟩

/-- The byte at an offset, and zero past the end. -/
def byteAt (m : Image) (offset : Nat) : UInt8 := m.bytes.getD offset 0

/-- Writes the byte at an offset; nothing happens past the end. -/
def put (m : Image) (offset : Nat) (b : UInt8) : Image := ⟨m.bytes.setIfInBounds offset b⟩

/-- An access must lie within the image. -/
def check (m : Image) (offset width : Nat) : Except Fault Unit :=
  if offset + width ≤ m.size then .ok () else .error (.corrupt offset width m.size)

def readU8 (m : Image) (offset : Nat) : Except Fault UInt8 := do
  m.check offset 1
  return m.byteAt offset

def readU16 (m : Image) (offset : Nat) : Except Fault UInt16 := do
  m.check offset 2
  return (m.byteAt offset).toUInt16 ||| (m.byteAt (offset + 1)).toUInt16 <<< 8

def readU32 (m : Image) (offset : Nat) : Except Fault UInt32 := do
  m.check offset 4
  return (m.byteAt offset).toUInt32 ||| (m.byteAt (offset + 1)).toUInt32 <<< 8 |||
    (m.byteAt (offset + 2)).toUInt32 <<< 16 ||| (m.byteAt (offset + 3)).toUInt32 <<< 24

def writeU8 (offset : Nat) (v : UInt8) : Step Image Unit := .update fun m => do
  m.check offset 1
  return m.put offset v

def writeU16 (offset : Nat) (v : UInt16) : Step Image Unit := .update fun m => do
  m.check offset 2
  return (m.put offset v.toUInt8).put (offset + 1) (v >>> 8).toUInt8

def writeU32 (offset : Nat) (v : UInt32) : Step Image Unit := .update fun m => do
  m.check offset 4
  return (((m.put offset v.toUInt8).put (offset + 1) (v >>> 8).toUInt8).put (offset + 2)
    (v >>> 16).toUInt8).put (offset + 3) (v >>> 24).toUInt8

/-- A write of a byte leaves the size alone. -/
@[simp] theorem size_put (m : Image) (offset : Nat) (b : UInt8) :
    (m.put offset b).size = m.size := by
  simp [put, size]

/-- A written byte is read back, and every other byte is what it was. -/
theorem byteAt_put (m : Image) (i j : Nat) (b : UInt8) (h : i < m.size) :
    (m.put i b).byteAt j = if i = j then b else m.byteAt j := by
  simp only [put, byteAt, size, Array.getD_eq_getD_getElem?, Array.getElem?_setIfInBounds] at *
  split <;> simp_all

end Image

end QuestLogic
