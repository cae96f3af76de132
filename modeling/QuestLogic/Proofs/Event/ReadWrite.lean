import QuestLogic.Proofs.Event.Location
import QuestLogic.Proofs.Save.Words

/-!
# Reading and writing flags

In an image that reaches to the end of the flags, reading a flag yields the bit at its seat
(`readFlag_eq`), although a bit of the complex record is read through a window of two bytes, and
writing a flag goes through (`run_setFlag`). So a flag that has been written reads as it was
written, under every number that names its bit, and no other bit of the image changes.
-/

namespace QuestLogic.Image

variable {m : Image}

/-- A bit of a byte moved down to the lowest place, where it stays alone. -/
theorem getBit_shiftRight_and_one (b : UInt8) {i : Nat} (hi : i < 8) (j : Nat) :
    getBit (b >>> UInt8.ofNat i &&& 1) j = (decide (j < 1) && getBit b i) := by
  have hmod : i % 2 ^ 8 % 8 = i := by omega
  rw [getBit_eq_testBit, getBit_eq_testBit, UInt8.toNat_and, UInt8.toNat_shiftRight,
    UInt8.toNat_ofNat', hmod, Nat.testBit_and, Nat.testBit_shiftRight]
  by_cases hj : j < 1
  · rw [decide_eq_true hj, Nat.lt_one_iff.1 hj, Nat.add_zero]
    exact Bool.and_comm _ _
  · have hone : Nat.testBit 1 j = false := Bool.eq_false_iff.2 fun h =>
      hj (Nat.lt_one_iff.2 (Nat.testBit_one_eq_true_iff_self_eq_zero.1 h))
    rw [decide_eq_false hj, Bool.false_and]
    exact (congrArg _ hone).trans (Bool.and_false _)

/-- The low byte of a 16-bit word moved down shows the bits from the one on that came lowest. -/
theorem getBit_window (a b : UInt8) {i j : Nat} (hi : i < 16) (hj : j < 8) :
    getBit (word16 a b >>> UInt16.ofNat i).toUInt8 j =
      if i + j < 8 then getBit a (i + j) else getBit b (i + j - 8) := by
  have ha := a.toNat_lt
  have hmod : i % 2 ^ 16 % 16 = i := by omega
  -- The word counts its bits on from the low byte into the high one.
  rw [getBit_eq_testBit, getBit_eq_testBit, getBit_eq_testBit, UInt16.toNat_toUInt8,
    UInt16.toNat_shiftRight, UInt16.toNat_ofNat', hmod, toNat_word16,
    Nat.testBit_mod_two_pow, Nat.testBit_shiftRight, Nat.add_comm a.toNat,
    show (256 : Nat) = 2 ^ 8 from rfl, Nat.mul_comm, Nat.testBit_two_pow_mul_add _ ha,
    decide_eq_true hj]
  exact Bool.true_and _

/-- The value has the bits from the seat of a number on, as many as its address has. -/
def Shows (m : Image) (p : EventPtr) (v : UInt8) : Prop :=
  ∀ j < 8, getBit v j = (decide (j < p.resolve.width) && m.bit (bitAfter p.location j))

/-- A number of the simple record reads as its bit. -/
theorem readEvent_simple {p : EventPtr} {byte bit : Nat} (hp : p.resolve = .simple byte bit)
    (hbit : bit < 8) (hm : byte + 1 ≤ m.size) : ∃ v, m.readEvent p = .ok v ∧ m.Shows p v := by
  refine ⟨m.byteAt byte >>> UInt8.ofNat bit &&& 1, ?_, fun j _ => ?_⟩
  · rw [readEvent, hp]
    dsimp only
    rw [readU8_of_le hm]
    rfl
  · rw [getBit_shiftRight_and_one _ hbit, hp, EventAddress.width]
    by_cases hj : j < 1
    · rw [Nat.lt_one_iff.1 hj, EventPtr.bitAfter_location_zero, EventPtr.location, hp,
        EventAddress.location, Image.bit, Nat.div_eq_of_lt hbit, Nat.mod_eq_of_lt hbit,
        Nat.add_zero]
    · rw [decide_eq_false hj, Bool.false_and, Bool.false_and]

/-- A byte of the complex record reads as it is. -/
theorem readEvent_complexByte {p : EventPtr} {byte : Nat} (hp : p.resolve = .complexByte byte)
    (hm : byte + 1 ≤ m.size) : ∃ v, m.readEvent p = .ok v ∧ m.Shows p v := by
  refine ⟨m.byteAt byte, ?_, fun j hj => ?_⟩
  · rw [readEvent, hp]
    exact readU8_of_le hm
  · rw [hp, EventAddress.width, decide_eq_true hj, Bool.true_and, EventPtr.location, hp,
      EventAddress.location, bitAfter, Nat.zero_add, Nat.div_eq_of_lt hj, Nat.mod_eq_of_lt hj]
    rfl

/-- A bit of the complex record reads as the eight bits so far from its byte, those past its end
from the byte after. -/
theorem readEvent_complexBit {p : EventPtr} {byte bit : Nat} (hp : p.resolve = .complexBit byte bit)
    (hbit : bit ≤ 8) (hm : byte + 2 ≤ m.size) : ∃ v, m.readEvent p = .ok v ∧ m.Shows p v := by
  have hwindow : ∀ j < 8, (decide (j < p.resolve.width) && m.bit (bitAfter p.location j)) =
      if bit + j < 8 then getBit (m.byteAt byte) (bit + j)
      else getBit (m.byteAt (byte + 1)) (bit + j - 8) := by
    intro j hj
    have hdiv : byte + bit / 8 + (bit % 8 + j) / 8 = byte + (bit + j) / 8 := by omega
    have hmod : (bit % 8 + j) % 8 = (bit + j) % 8 := by omega
    rw [hp, EventAddress.width, decide_eq_true hj, Bool.true_and, EventPtr.location, hp,
      EventAddress.location, bitAfter, Image.bit, hdiv, hmod]
    -- The window ends before the byte after does.
    split_ifs with h8
    · rw [Nat.div_eq_of_lt h8, Nat.mod_eq_of_lt h8, Nat.add_zero]
    · rw [show (bit + j) / 8 = 1 by omega, show (bit + j) % 8 = bit + j - 8 by omega]
  cases bit with
  | zero =>
    refine ⟨m.byteAt byte, ?_, fun j hj => ?_⟩
    · simp only [readEvent, hp]
      exact readU8_of_le (by omega)
    · rw [hwindow j hj, Nat.zero_add, if_pos hj]
  | succ bit =>
    refine ⟨(word16 (m.byteAt byte) (m.byteAt (byte + 1)) >>> UInt16.ofNat (bit + 1)).toUInt8,
      ?_, fun j hj => ?_⟩
    · simp only [readEvent, hp, readU16_of_le hm]
      rfl
    · rw [hwindow j hj, getBit_window _ _ (by omega) hj]

/-- Whatever the form of its address, a number reads as the bits from its seat on. -/
theorem readEvent_eq (hm : Layout.size ≤ m.size) (p : EventPtr) :
    ∃ v, m.readEvent p = .ok v ∧ m.Shows p v := by
  have hend := p.location_lt
  have hbyte := EventAddress.byte_le_location p.resolve
  -- No form of address reads past the byte after its seat.
  rw [EventPtr.location] at hend
  cases hp : p.resolve with
  | simple byte bit =>
    rw [hp] at hend hbyte
    rw [EventAddress.byte] at hbyte
    exact readEvent_simple hp (EventPtr.lt_of_resolve_simple hp) (by omega)
  | complexByte byte =>
    rw [hp] at hend hbyte
    rw [EventAddress.byte] at hbyte
    exact readEvent_complexByte hp (by omega)
  | complexBit byte bit =>
    rw [hp] at hend hbyte
    rw [EventAddress.byte] at hbyte
    exact readEvent_complexBit hp (EventPtr.le_of_resolve_complexBit hp) (by omega)

/-- Reading a flag yields the bit at its seat. -/
theorem readFlag_eq (hm : Layout.size ≤ m.size) (p : EventPtr) :
    m.readFlag p = .ok (m.bit p.location) := by
  obtain ⟨v, hread, hshows⟩ := readEvent_eq hm p
  have hwidth : 0 < p.resolve.width := by
    cases p.resolve <;> exact Nat.zero_lt_succ _
  have hbit := hshows 0 (Nat.zero_lt_succ 7)
  rw [decide_eq_true hwidth, Bool.true_and, EventPtr.bitAfter_location_zero] at hbit
  rw [readFlag, hread, ← hbit]
  rfl

/-- The value at a number is not zero just if one of its bits is set. -/
theorem Shows.ne_zero_iff {p : EventPtr} {v : UInt8} (h : m.Shows p v) :
    v ≠ 0 ↔ ∃ j < p.resolve.width, m.bit (bitAfter p.location j) = true := by
  have hwidth : p.resolve.width ≤ 8 := by
    cases p.resolve <;> exact Nat.le_of_ble_eq_true rfl
  rw [ne_zero_iff_getBit]
  constructor
  · rintro ⟨j, hj, hbit⟩
    rw [h j hj, Bool.and_eq_true, decide_eq_true_eq] at hbit
    exact ⟨j, hbit⟩
  · rintro ⟨j, hj, hbit⟩
    refine ⟨j, Nat.lt_of_lt_of_le hj hwidth, ?_⟩
    rw [h j (Nat.lt_of_lt_of_le hj hwidth), decide_eq_true hj, hbit]
    rfl

/-- Writing a flag goes through if its byte is there. -/
theorem run_setFlag_of_lt {p : EventPtr} (hp : p.location.1 < m.size) (on : Bool) :
    (setFlag p on).run m = (.ok (), m.withFlag p on) := by
  apply Step.run_update_ok
  dsimp only
  rw [readU8_of_le hp]
  rfl

/-- Writing a flag goes through. -/
theorem run_setFlag (hm : Layout.size ≤ m.size) (p : EventPtr) (on : Bool) :
    (setFlag p on).run m = (.ok (), m.withFlag p on) :=
  run_setFlag_of_lt (Nat.lt_of_lt_of_le (Nat.lt_of_succ_lt p.location_lt) hm) on

/-- If writing a flag went through, its byte was there and nothing else was done. -/
theorem setFlag_eq_ok {p : EventPtr} {on : Bool} {u : Unit} {m' : Image}
    (h : (setFlag p on).run m = (.ok u, m')) :
    p.location.1 < m.size ∧ m' = m.withFlag p on := by
  rcases Nat.lt_or_ge p.location.1 m.size with hlt | hge
  · rw [run_setFlag_of_lt hlt] at h
    cases h
    exact ⟨hlt, rfl⟩
  · have hcheck : m.check p.location.1 1 = .error (.corrupt p.location.1 1 m.size) :=
      check_of_lt (Nat.lt_succ_of_le hge)
    have hfault : (setFlag p on).run m = (.error (.corrupt p.location.1 1 m.size), m) :=
      Step.run_update_error (by dsimp only; rw [readU8, hcheck]; rfl)
    rw [hfault] at h
    cases h

/-- In the simple record a flag is the bit at its seat, if its byte is there. -/
theorem readFlag_simple {q : EventPtr} (hq : q.toNat < 0xdac0) :
    m.readFlag q =
      if q.location.1 < m.size then .ok (m.bit q.location)
      else .error (.corrupt q.location.1 1 m.size) := by
  have hlow : q < EventPtr.complexBase := UInt16.lt_iff_toNat_lt.2 hq
  have hbit : q.toNat % 8 < 8 := Nat.mod_lt _ (by decide)
  have hseat : q.location = (Layout.simpleEvents + q.toNat / 8, q.toNat % 8) := by
    rw [EventPtr.location, EventPtr.resolve_of_lt hlow, EventAddress.location,
      Nat.div_eq_of_lt hbit, Nat.mod_eq_of_lt hbit, Nat.add_zero]
  rw [hseat, readFlag, readEvent, EventPtr.resolve_of_lt hlow]
  dsimp only
  split_ifs with hm
  · rw [readU8_of_le hm]
    have hone := getBit_shiftRight_and_one (m.byteAt (Layout.simpleEvents + q.toNat / 8)) hbit 0
    rw [decide_eq_true Nat.zero_lt_one, Bool.true_and] at hone
    exact congrArg _ hone
  · rw [readU8, check_of_lt (Nat.lt_succ_of_le (Nat.le_of_not_lt hm))]
    rfl

/-- However short the image, where a flag has been written every flag of the simple record reads as
before but this one. -/
theorem readFlag_withFlag_of_lt {p q : EventPtr} (hp : p.location.1 < m.size)
    (hq : q.toNat < 0xdac0) (on : Bool) :
    (m.withFlag p on).readFlag q = if q.location = p.location then .ok on else m.readFlag q := by
  rw [readFlag_simple hq, readFlag_simple hq, size_withFlag, bit_withFlag_of_lt hp]
  by_cases heq : q.location = p.location
  · rw [if_pos heq, if_pos heq, if_pos (heq ▸ hp)]
  · rw [if_neg heq, if_neg heq]

/-- A written flag reads as it was written, and every other flag as before. -/
theorem readFlag_withFlag (hm : Layout.size ≤ m.size) (p q : EventPtr) (on : Bool) :
    (m.withFlag p on).readFlag q = if q.location = p.location then .ok on else m.readFlag q := by
  rw [readFlag_eq (by rwa [size_withFlag]), readFlag_eq hm, bit_withFlag hm]
  split_ifs <;> rfl

/--
Writing a flag of an image that reaches to the end of the flags goes through. Afterwards every flag
reads as it was written if its number names the same bit, and as before otherwise; and of all bits
of the image only the one at the seat of the flag has changed.
-/
theorem setFlag_readFlag (hm : Layout.size ≤ m.size) (p q : EventPtr) (on : Bool) :
    ∃ m', (setFlag p on).run m = (.ok (), m') ∧
      (∃ old, m.readFlag q = .ok old ∧
        m'.readFlag q = .ok (if q.seat = p.seat then on else old)) ∧
      m'.size = m.size ∧
      ∀ byte bit, getBit (m'.byteAt byte) bit =
        if (byte, bit) = p.seat then on else getBit (m.byteAt byte) bit := by
  refine ⟨m.withFlag p on, run_setFlag hm p on, ⟨_, readFlag_eq hm q, ?_⟩, size_withFlag m p on, ?_⟩
  · rw [readFlag_withFlag hm, readFlag_eq hm, ← EventPtr.location_eq_seat,
      ← EventPtr.location_eq_seat]
    split_ifs <;> rfl
  · intro byte bit
    rw [← EventPtr.location_eq_seat]
    exact bit_withFlag hm p on (byte, bit)

/-- An image of zeros has the size it was made with. -/
@[simp] theorem size_zeroed (n : Nat) : (zeroed n).size = n := Array.size_replicate

/-- A blank image reaches to the end of the flags. -/
theorem full_zeroed : Layout.size ≤ (zeroed Layout.size).size := Nat.le_of_eq (size_zeroed _).symm

/-- Every byte of an image of zeros is zero. -/
@[simp] theorem byteAt_zeroed (n i : Nat) : (zeroed n).byteAt i = 0 := by
  rw [byteAt, zeroed, Array.getD_eq_getD_getElem?, Array.getElem?_replicate]
  split_ifs <;> rfl

/-- Every bit of an image of zeros is clear. -/
@[simp] theorem bit_zeroed (n : Nat) (l : Nat × Nat) : (zeroed n).bit l = false := by
  rw [bit, byteAt_zeroed, getBit, UInt8.toBitVec_zero, BitVec.getLsbD_zero]

/-- In a blank image, the last of ten numbers and the first of the next ten name one bit. -/
theorem setFlag_readFlag_last_of_ten :
    Layout.size ≤ (zeroed Layout.size).size ∧
      ∃ m', (setFlag 0xdac9 true).run (zeroed Layout.size) = (.ok (), m') ∧
        m'.readFlag 0xdaca = .ok true := by
  have hm : Layout.size ≤ (zeroed Layout.size).size := Nat.le_of_eq (size_zeroed _).symm
  obtain ⟨m', hrun, ⟨old, -, hread⟩, -⟩ := setFlag_readFlag hm 0xdac9 0xdaca true
  rw [if_pos (by decide)] at hread
  exact ⟨hm, m', hrun, hread⟩

end QuestLogic.Image
