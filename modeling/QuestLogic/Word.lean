/-!
# Words

The stored quantities of a game are words of a fixed width. Arithmetic on them stops at the ends of
the width instead of wrapping, so each operation is an exact operation on numbers followed by one of
the roundings below; the lemmas say what each rounding yields as a number.
-/

namespace QuestLogic

/-- The 16-bit word nearest to `n`. -/
def nearest16 (n : Nat) : UInt16 := UInt16.ofNat (min n 65535)

/-- The 32-bit word nearest to `n`. -/
def nearest32 (n : Nat) : UInt32 := UInt32.ofNat (min n 4294967295)

/-- The byte nearest to `z` among `0, …, top`. -/
def clampByte (top : UInt8) (z : Int) : UInt8 := UInt8.ofNat (min z.toNat top.toNat)

/-- Rounding to 16 bits only cuts off what lies above them. -/
@[simp] theorem toNat_nearest16 (n : Nat) : (nearest16 n).toNat = min n 65535 := by
  simp only [nearest16, UInt16.toNat_ofNat']
  omega

/-- Rounding to 32 bits only cuts off what lies above them. -/
@[simp] theorem toNat_nearest32 (n : Nat) : (nearest32 n).toNat = min n 4294967295 := by
  simp only [nearest32, UInt32.toNat_ofNat']
  omega

/-- A clamped byte is the number itself, cut off at zero and at `top`. -/
@[simp] theorem toNat_clampByte (top : UInt8) (z : Int) :
    (clampByte top z).toNat = min z.toNat top.toNat := by
  have := top.toNat_lt
  simp only [clampByte, UInt8.toNat_ofNat']
  omega

end QuestLogic
