import Mathlib.Tactic.SplitIfs
import QuestLogic.Event.Store

/-!
# Bits of a save image

A flag is one bit of one byte. `EventPtr.seat` says which, from the number of the flag alone, and
`EventPtr.location_eq_seat` that resolving the number leads there; every seat lies below the end of
the flags, with the byte after it (`EventPtr.location_lt`). `Image.bit` reads a single bit, and
`bit_put_withBit` says what becomes of every bit of an image when one is written.
-/

namespace QuestLogic

theorem getBit_eq_testBit (b : UInt8) (i : Nat) : getBit b i = b.toNat.testBit i := by
  rw [getBit, BitVec.getLsbD, UInt8.toNat_toBitVec]

/-- A one moved to place `i` has just the bit `i`. -/
theorem getBit_one_shiftLeft {i : Nat} (hi : i < 8) (j : Nat) :
    getBit (1 <<< UInt8.ofNat i) j = decide (i = j) := by
  have hmod : i % 256 % 8 = i := by omega
  rw [getBit_eq_testBit]
  simp only [UInt8.toNat_shiftLeft, UInt8.toNat_ofNat', UInt8.reduceToNat, Nat.reducePow, hmod,
    Nat.one_shiftLeft]
  have hlt : 2 ^ i < 256 := Nat.pow_lt_pow_right (by decide : 1 < 2) hi
  rw [Nat.mod_eq_of_lt hlt, Nat.testBit_two_pow]

/-- Writing a bit of a byte sets that bit and no other. -/
theorem getBit_withBit (b : UInt8) {i : Nat} (hi : i < 8) (j : Nat) (on : Bool) :
    getBit (withBit b i on) j = if i = j then on else getBit b j := by
  have hone := getBit_one_shiftLeft hi j
  unfold getBit at hone ⊢
  unfold withBit
  cases on with
  | true =>
    rw [if_pos rfl, UInt8.toBitVec_or, BitVec.getLsbD_or, hone]
    by_cases h : i = j <;> simp [h]
  | false =>
    rw [if_neg (by decide), UInt8.toBitVec_and, UInt8.toBitVec_not, BitVec.getLsbD_and,
      BitVec.getLsbD_not, hone]
    by_cases h : i = j
    · simp [h]
    -- The complement of a byte has no bits past the eighth, just as the byte has none.
    · by_cases hj : j < 8
      · simp [h, hj]
      · simp [h, hj, BitVec.getLsbD_of_ge _ _ (Nat.le_of_not_lt hj)]

/-- A byte is not zero just if one of its bits is set. -/
theorem ne_zero_iff_getBit {b : UInt8} : b ≠ 0 ↔ ∃ i < 8, getBit b i = true := by
  simp only [getBit_eq_testBit]
  constructor
  · intro h
    have hne : b.toNat ≠ 0 := fun h0 => h (UInt8.toNat_inj.1 h0)
    obtain ⟨i, hi⟩ := Nat.exists_testBit_of_ne_zero hne
    refine ⟨i, Nat.lt_of_not_le fun hle => ?_, hi⟩
    have hlt : b.toNat < 2 ^ i :=
      Nat.lt_of_lt_of_le b.toNat_lt (Nat.pow_le_pow_right (Nat.zero_lt_succ 1) hle)
    rw [Nat.testBit_lt_two_pow hlt] at hi
    cases hi
  · rintro ⟨i, -, hi⟩ rfl
    rw [UInt8.toNat_zero, Nat.zero_testBit] at hi
    cases hi

/-- How many bits the value at an address has. -/
def EventAddress.width : EventAddress → Nat
  | simple _ _ => 1
  | complexBit _ _ | complexByte _ => 8

/-- The bit so many places after another, on into the bytes that follow. -/
def bitAfter (l : Nat × Nat) (j : Nat) : Nat × Nat := (l.1 + (l.2 + j) / 8, (l.2 + j) % 8)

/-- No address lies before its byte. -/
theorem EventAddress.byte_le_location (a : EventAddress) : a.byte ≤ a.location.1 := by
  cases a with
  | simple b i => exact Nat.le_add_right _ _
  | complexBit b i => exact Nat.le_add_right _ _
  | complexByte b => exact Nat.le_refl _

namespace EventPtr

/--
The byte and bit of a flag by its number. Below `0xdac0` eight flags share a byte. From there on ten
numbers do: the first two name its lowest bit, the next seven a bit each, and the last one the
lowest bit of the byte after.
-/
def seat (p : EventPtr) : Nat × Nat :=
  if p.toNat < 0xdac0 then (0x6e2 + p.toNat / 8, p.toNat % 8)
  else
    let byte := 0xb09 + (p.toNat - 0xdac0) / 10
    let rest := (p.toNat - 0xdac0) % 10
    if rest ≤ 1 then (byte, 0) else if rest = 9 then (byte + 1, 0) else (byte, rest - 1)

theorem toNat_sub_complexBase {p : EventPtr} (h : ¬p < complexBase) :
    (p - complexBase).toNat = p.toNat - 0xdac0 := by
  have hle : complexBase ≤ p := UInt16.not_lt.1 h
  rw [UInt16.toNat_sub_of_le _ _ hle]
  rfl

/-- A number of the simple record names its bit. -/
theorem resolve_of_lt {p : EventPtr} (h : p < complexBase) :
    p.resolve = .simple (Layout.simpleEvents + p.toNat / 8) (p.toNat % 8) := by
  rw [resolve, if_pos h]

/-- A number of the complex record names its byte, or a bit counted from it. -/
theorem resolve_of_not_lt {p : EventPtr} (h : ¬p < complexBase) :
    p.resolve =
      if (p.toNat - 0xdac0) % 10 = 0 then .complexByte (0xb09 + (p.toNat - 0xdac0) / 10)
      else .complexBit (0xb09 + (p.toNat - 0xdac0) / 10) ((p.toNat - 0xdac0) % 10 - 1) := by
  rw [resolve, if_neg h, complexLocation, toNat_sub_complexBase h]
  rfl

/-- Resolving a number leads to its seat. -/
theorem location_eq_seat (p : EventPtr) : p.location = p.seat := by
  by_cases h : p < complexBase
  · have hlt : p.toNat < 0xdac0 := UInt16.lt_iff_toNat_lt.1 h
    have hdiv : p.toNat % 8 / 8 = 0 := by omega
    rw [location, resolve_of_lt h, seat, if_pos hlt, EventAddress.location, hdiv, Nat.mod_mod,
      Nat.add_zero, Layout.simpleEvents]
  · have hge : ¬p.toNat < 0xdac0 := fun hlt => h (UInt16.lt_iff_toNat_lt.2 hlt)
    rw [location, resolve_of_not_lt h, seat, if_neg hge]
    generalize (p.toNat - 0xdac0) / 10 = byte
    have hrest : (p.toNat - 0xdac0) % 10 < 10 := Nat.mod_lt _ (by decide)
    generalize (p.toNat - 0xdac0) % 10 = rest at hrest
    dsimp only
    -- Only the last of the ten numbers has a bit past the end of its byte.
    split_ifs with h0 h1 h9 h1 h9
    · rw [EventAddress.location]
    · omega
    · omega
    · rw [EventAddress.location, Nat.div_eq_of_lt (by omega), Nat.mod_eq_of_lt (by omega),
        Nat.add_zero, Nat.sub_eq_zero_of_le h1]
    · rw [EventAddress.location, h9]
    · rw [EventAddress.location, Nat.div_eq_of_lt (by omega), Nat.mod_eq_of_lt (by omega),
        Nat.add_zero]

/-- A seat is a bit of a byte. -/
theorem location_snd_lt (p : EventPtr) : p.location.2 < 8 := by
  rw [location]
  cases p.resolve with
  | simple byte bit => exact Nat.mod_lt _ (by decide)
  | complexBit byte bit => exact Nat.mod_lt _ (by decide)
  | complexByte byte => exact Nat.zero_lt_succ 7

/-- A bit of the simple record lies in its byte. -/
theorem lt_of_resolve_simple {p : EventPtr} {byte bit : Nat} (h : p.resolve = .simple byte bit) :
    bit < 8 := by
  by_cases hp : p < complexBase
  · rw [resolve_of_lt hp, EventAddress.simple.injEq] at h
    omega
  · rw [resolve_of_not_lt hp] at h
    split_ifs at h

/-- A bit of the complex record lies in its byte or at the start of the next. -/
theorem le_of_resolve_complexBit {p : EventPtr} {byte bit : Nat}
    (h : p.resolve = .complexBit byte bit) : bit ≤ 8 := by
  by_cases hp : p < complexBase
  · rw [resolve_of_lt hp] at h
    cases h
  · rw [resolve_of_not_lt hp] at h
    split_ifs at h
    rw [EventAddress.complexBit.injEq] at h
    omega

/-- A seat is the first of the bits from it on. -/
theorem bitAfter_location_zero (p : EventPtr) : bitAfter p.location 0 = p.location := by
  have hlt := p.location_snd_lt
  rw [bitAfter, Nat.add_zero, Nat.div_eq_of_lt hlt, Nat.mod_eq_of_lt hlt, Nat.add_zero]

/-- Every flag, and the byte after it, lies below the end of the flags. -/
theorem location_lt (p : EventPtr) : p.location.1 + 1 < Layout.size := by
  have hp : p.toNat < 65536 := p.toNat_lt
  rw [location_eq_seat, seat, Layout.size]
  dsimp only
  split_ifs <;> dsimp only <;> omega

/-- A whole byte of flags, and the byte after it, lies below the end of the flags. -/
theorem lt_of_resolve_complexByte {p : EventPtr} {byte : Nat} (h : p.resolve = .complexByte byte) :
    byte + 1 < Layout.size := by
  have hlt := p.location_lt
  rw [location, h] at hlt
  exact hlt

/-- No flag lies before the first one. -/
theorem le_location (p : EventPtr) : Layout.simpleEvents ≤ p.location.1 := by
  rw [location_eq_seat, seat, Layout.simpleEvents]
  dsimp only
  split_ifs <;> dsimp only <;> omega

/-- No whole byte of flags lies before the first flag. -/
theorem le_of_resolve_complexByte {p : EventPtr} {byte : Nat} (h : p.resolve = .complexByte byte) :
    Layout.simpleEvents ≤ byte := by
  have hle := p.le_location
  rw [location, h] at hle
  exact hle

/-- In the simple record every number names a bit of its own. -/
theorem location_inj {p q : EventPtr} (hp : p.toNat < 0xdac0) (hq : q.toNat < 0xdac0) :
    p.location = q.location ↔ p = q := by
  refine ⟨fun h => UInt16.toNat_inj.1 ?_, congrArg location⟩
  rw [location_eq_seat, location_eq_seat, seat, seat, if_pos hp, if_pos hq, Prod.mk.injEq] at h
  omega

/-- A bit that stands before the complex record has one number only. -/
theorem location_eq_iff {p q : EventPtr} (hq : q.toNat < 0x2138) :
    p.location = q.location ↔ p = q := by
  refine ⟨fun h => ?_, congrArg location⟩
  by_cases hp : p.toNat < 0xdac0
  · exact (location_inj hp (by omega)).1 h
  · -- A number of the complex record names a later byte.
    rw [location_eq_seat, location_eq_seat, seat, seat, if_neg hp,
      if_pos (by omega : q.toNat < 0xdac0)] at h
    dsimp only at h
    split_ifs at h
    all_goals
      rw [Prod.mk.injEq] at h
      omega

end EventPtr

namespace Image

/-- A bit of an image, by byte and bit. -/
def bit (m : Image) (l : Nat × Nat) : Bool := getBit (m.byteAt l.1) l.2

/-- The image with the flag at a pointer set or cleared. -/
def withFlag (m : Image) (p : EventPtr) (on : Bool) : Image :=
  m.put p.location.1 (withBit (m.byteAt p.location.1) p.location.2 on)

@[simp] theorem size_withFlag (m : Image) (p : EventPtr) (on : Bool) :
    (m.withFlag p on).size = m.size := by
  rw [withFlag, size_put]

/-- Where the byte of a flag is there, writing the flag sets its bit and leaves every other bit of
the image alone. -/
theorem bit_withFlag_of_lt {m : Image} {p : EventPtr} (hp : p.location.1 < m.size) (on : Bool)
    (l : Nat × Nat) : (m.withFlag p on).bit l = if l = p.location then on else m.bit l := by
  rw [bit, withFlag, byteAt_put _ _ _ _ hp]
  -- Another byte is what it was, and of this one only the bit at the seat changes.
  by_cases hbyte : p.location.1 = l.1
  · rw [if_pos hbyte, getBit_withBit _ p.location_snd_lt]
    by_cases hbit : p.location.2 = l.2
    · rw [if_pos hbit, if_pos (Prod.ext hbyte.symm hbit.symm)]
    · rw [if_neg hbit, if_neg fun h => hbit (congrArg Prod.snd h).symm, hbyte]
      rfl
  · rw [if_neg hbyte, if_neg fun h => hbyte (congrArg Prod.fst h).symm]
    rfl

/-- In an image that reaches to the end of the flags every flag has its byte. -/
theorem bit_withFlag {m : Image} (hm : Layout.size ≤ m.size) (p : EventPtr) (on : Bool)
    (l : Nat × Nat) : (m.withFlag p on).bit l = if l = p.location then on else m.bit l :=
  bit_withFlag_of_lt (Nat.lt_of_lt_of_le (Nat.lt_of_succ_lt p.location_lt) hm) on l

end Image

end QuestLogic
