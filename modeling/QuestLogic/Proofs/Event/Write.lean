import QuestLogic.Proofs.Event.Flags

/-!
# What a payload writes

A payload has two meanings. If its pointer is the first of ten numbers of the complex record it
rewrites the byte that they share (`Image.run_applyWrite_byte`); otherwise it sets or clears up to
three flags, which may be of any form and may name one bit (`Image.run_applyWrite_flags`). To flags
that have their value already a write does nothing (`Image.withFlags_of_bits`), and a byte that has
been masked and filled stays as it is when that happens again, so that the same payload can be
written twice (`Image.applyWrite_law`).
-/

namespace QuestLogic

/-! ## Bits that are as they should be -/

/-- A byte is known by its eight bits. -/
theorem eq_of_getBit {a b : UInt8} (h : ∀ i < 8, getBit a i = getBit b i) : a = b := by
  apply UInt8.toBitVec_inj.1
  exact BitVec.eq_of_getLsbD_eq h

/-- To write a bit that has the value changes nothing. -/
theorem withBit_of_getBit {b : UInt8} {i : Nat} {on : Bool} (hi : i < 8) (h : getBit b i = on) :
    withBit b i on = b := by
  apply eq_of_getBit
  intro j _
  rw [getBit_withBit b hi]
  split_ifs with hij
  · rw [← hij, h]
  · rfl

namespace EventPtr

/-- The byte that a number names as a whole, which the first of each ten numbers of the complex
record does. -/
def wholeByte? (p : EventPtr) : Option Nat :=
  if 0xdac0 ≤ p.toNat ∧ (p.toNat - 0xdac0) % 10 = 0 then some (0xb09 + (p.toNat - 0xdac0) / 10)
  else none

/-- Resolving a number leads to a whole byte just if it names one. -/
theorem resolve_eq_complexByte_iff {p : EventPtr} {byte : Nat} :
    p.resolve = .complexByte byte ↔ p.wholeByte? = some byte := by
  unfold wholeByte?
  by_cases h : p < complexBase
  · have hlt : p.toNat < 0xdac0 := UInt16.lt_iff_toNat_lt.1 h
    rw [resolve_of_lt h, if_neg (by omega)]
    simp
  · have hge : 0xdac0 ≤ p.toNat := UInt16.le_iff_toNat_le.1 (UInt16.not_lt.1 h)
    rw [resolve_of_not_lt h]
    simp only [hge, true_and]
    split_ifs <;> simp

end EventPtr

namespace FlagWrite

/-- The payload names a flag: by its pointer, by the number that has the mask for its low half and
the data for its high one, or by the word that flips. Zero names no flag. -/
def Names (w : FlagWrite) (p : EventPtr) : Prop :=
  p ≠ 0 ∧ (p = w.pointer ∨ p.toNat = w.mask.toNat + w.data.toNat * 256 ∨ p = w.flip)

/-- The pointers of a payload are the flags that it names. -/
theorem mem_pointers_iff {w : FlagWrite} {p : EventPtr} : p ∈ w.pointers ↔ w.Names p := by
  have hpacked : p = w.mask.toUInt16 ||| w.data.toUInt16 <<< 8 ↔
      p.toNat = w.mask.toNat + w.data.toNat * 256 := by
    rw [← toNat_word16, word16, UInt16.toNat_inj]
  unfold pointers Names
  simp only [List.mem_filter, List.mem_cons, List.not_mem_nil, or_false, hpacked,
    decide_eq_true_eq]
  exact and_comm

/-- A byte that has been masked and filled stays as it is when that happens again, if nothing is
flipped. -/
theorem update_update {w : FlagWrite} (h : w.flip.toUInt8 = 0) (b : UInt8) :
    w.update (w.update b) = w.update b := by
  apply eq_of_getBit
  intro i _
  simp only [update, h, UInt8.xor_zero, getBit, UInt8.toBitVec_or, UInt8.toBitVec_and,
    BitVec.getLsbD_or, BitVec.getLsbD_and]
  cases w.data.toBitVec.getLsbD i <;> simp

end FlagWrite

namespace Image

variable {m : Image} {w : FlagWrite} {p : EventPtr} {on : Bool}

theorem withFlag_of_bit (h : m.bit p.location = on) : m.withFlag p on = m := by
  rw [withFlag, withBit_of_getBit p.location_snd_lt h, put_byteAt]

/-- To write flags that have their values changes nothing. -/
theorem withFlags_of_bits {ws : List (EventPtr × Bool)}
    (h : ∀ w ∈ ws, m.bit w.1.location = w.2) : m.withFlags ws = m := by
  induction ws with
  | nil => rfl
  | cons w rest ih =>
    obtain ⟨hw, hrest⟩ := List.forall_mem_cons.1 h
    show (m.withFlag w.1 w.2).withFlags rest = m
    rw [withFlag_of_bit hw]
    exact ih hrest

/-! ## The two meanings of a payload -/

/-- A payload whose pointer names a whole byte rewrites it. -/
theorem run_applyWrite_byte (hm : Layout.size ≤ m.size) {byte : Nat}
    (hbyte : w.pointer.wholeByte? = some byte) :
    (applyWrite w).run m = (.ok (), m.put byte (w.update (m.byteAt byte))) := by
  have hresolve := EventPtr.resolve_eq_complexByte_iff.2 hbyte
  have hlt := EventPtr.lt_of_resolve_complexByte hresolve
  unfold applyWrite
  rw [hresolve]
  apply Step.run_update_ok
  rw [readU8_of_le (by omega)]
  rfl

/-- Any other payload sets or clears the flags that it names. -/
theorem run_applyWrite_flags (hm : Layout.size ≤ m.size) (hbyte : w.pointer.wholeByte? = none) :
    (applyWrite w).run m = (.ok (), m.withFlags (allTo (w.value ≠ 0) w.pointers)) := by
  unfold applyWrite
  split
  · rename_i byte hresolve
    rw [EventPtr.resolve_eq_complexByte_iff.1 hresolve] at hbyte
    cases hbyte
  · exact run_setFlags hm _ _

/-- The flags that a payload names have its value, and every other bit is what it was. -/
theorem bit_applyWrite_flags (hm : Layout.size ≤ m.size) (l : Nat × Nat) :
    ((∃ p, w.Names p ∧ p.seat = l) → (m.withFlags (allTo on w.pointers)).bit l = on) ∧
      ((∀ p, w.Names p → p.seat ≠ l) → (m.withFlags (allTo on w.pointers)).bit l = m.bit l) := by
  constructor
  · rintro ⟨p, hp, hl⟩
    rw [← p.location_eq_seat] at hl
    exact bit_allTo hm ⟨p, FlagWrite.mem_pointers_iff.2 hp, hl⟩
  · intro hnone
    apply bit_allTo_of_untouched hm
    intro p hp
    rw [p.location_eq_seat]
    exact hnone p (FlagWrite.mem_pointers_iff.1 hp)

/-- The same flags can be written twice. -/
theorem withFlags_allTo_twice (hm : Layout.size ≤ m.size) (on : Bool) (ps : List EventPtr) :
    (m.withFlags (allTo on ps)).withFlags (allTo on ps) = m.withFlags (allTo on ps) := by
  apply withFlags_of_bits
  intro w hw
  obtain ⟨hp, hon⟩ := mem_allTo.1 hw
  rw [hon]
  exact bit_allTo hm ⟨w.1, hp, rfl⟩

/--
Writing a payload to an image that reaches to the end of the flags goes through. If its pointer
names a whole byte, that byte is masked, filled and flipped, and nothing else changes. Otherwise the
bits of the flags that the payload names are set, or cleared if its value is zero, and every other
bit is what it was. To write the same payload again changes nothing, unless it flips bits of a whole
byte.
-/
theorem applyWrite_law (hm : Layout.size ≤ m.size) (w : FlagWrite) :
    ∃ m', (applyWrite w).run m = (.ok (), m') ∧ m'.size = m.size ∧
      (∀ byte, w.pointer.wholeByte? = some byte → ∀ i, m'.byteAt i =
        if i = byte then ((m.byteAt byte &&& w.mask) ||| w.data) ^^^ w.flip.toUInt8
        else m.byteAt i) ∧
      (w.pointer.wholeByte? = none → ∀ l,
        ((∃ p, w.Names p ∧ p.seat = l) → m'.bit l = decide (w.value ≠ 0)) ∧
          ((∀ p, w.Names p → p.seat ≠ l) → m'.bit l = m.bit l)) ∧
      (w.pointer.wholeByte? = none ∨ w.flip.toUInt8 = 0 →
        (applyWrite w).run m' = (.ok (), m')) := by
  rcases hbyte : w.pointer.wholeByte? with _ | byte
  · refine ⟨_, run_applyWrite_flags hm hbyte, size_withFlags m _, nofun,
      fun _ l => bit_applyWrite_flags hm l, fun _ => ?_⟩
    rw [run_applyWrite_flags (by rwa [size_withFlags]) hbyte, withFlags_allTo_twice hm]
  · have hlt := EventPtr.lt_of_resolve_complexByte (EventPtr.resolve_eq_complexByte_iff.2 hbyte)
    have hread : ∀ i, (m.put byte (w.update (m.byteAt byte))).byteAt i =
        if i = byte then w.update (m.byteAt byte) else m.byteAt i := by
      intro i
      rw [byteAt_put m byte i _ (by omega)]
      simp only [eq_comm]
    refine ⟨_, run_applyWrite_byte hm hbyte, size_put m byte _, ?_, nofun, ?_⟩
    · intro byte' hbyte' i
      cases hbyte'
      exact hread i
    · rintro (h | hflip)
      · cases h
      · -- The byte is already what the payload makes of it.
        have hsame := put_byteAt (m.put byte (w.update (m.byteAt byte))) byte
        rw [hread, if_pos rfl] at hsame
        rw [run_applyWrite_byte (by rwa [size_put]) hbyte, hread, if_pos rfl,
          FlagWrite.update_update hflip, hsame]

/-- Three numbers of three forms name one bit, which a payload sets once; a second time it finds
nothing to do. -/
theorem applyWrite_law_one_bit :
    Layout.size ≤ (zeroed Layout.size).size ∧
      ∃ m', (applyWrite ⟨0xdac9, 0xca, 0xda, 0x2140, 1⟩).run (zeroed Layout.size) = (.ok (), m') ∧
        m'.bit (0xb0a, 0) = true ∧ m'.bit (0xb09, 7) = false ∧
        (applyWrite ⟨0xdac9, 0xca, 0xda, 0x2140, 1⟩).run m' = (.ok (), m') := by
  let w : FlagWrite := ⟨0xdac9, 0xca, 0xda, 0x2140, 1⟩
  have hwhole : w.pointer.wholeByte? = none := by decide
  obtain ⟨m', hrun, -, -, hflags, hagain⟩ := applyWrite_law full_zeroed w
  obtain ⟨hset, -⟩ := hflags hwhole (0xb0a, 0)
  obtain ⟨-, hkept⟩ := hflags hwhole (0xb09, 7)
  have hothers : ∀ p, w.Names p → p.seat ≠ (0xb09, 7) := by
    have hsum : w.mask.toNat + w.data.toNat * 256 = (0xdaca : EventPtr).toNat := by decide
    rintro p ⟨-, rfl | hpacked | rfl⟩
    · decide
    · obtain rfl : p = 0xdaca := UInt16.toNat_inj.1 (hpacked.trans hsum)
      decide
    · decide
  refine ⟨full_zeroed, m', hrun, hset ⟨0xdac9, ⟨by decide, .inl rfl⟩, by decide⟩, ?_,
    hagain (.inl hwhole)⟩
  rw [hkept hothers, bit_zeroed]

end Image

end QuestLogic
