import Mathlib.Tactic.SplitIfs
import QuestLogic.Proofs.Step
import QuestLogic.Save.Image

/-!
# Bytes and words of a save image

Every write to a save image lays consecutive bytes down from an offset (`Image.putBytes`) if they
fit, and otherwise meets a fault: `Image.Writes` says so of a step, and passes from two adjoining
writes to the write of both. What was laid down is there (`Image.Contains`) until it is written
over, and a word is read where its bytes are.
-/

namespace QuestLogic

/-! ## Words as bytes -/

/-- The 16-bit word with the given bytes, the low one first. -/
def word16 (a b : UInt8) : UInt16 := a.toUInt16 ||| b.toUInt16 <<< 8

/-- The 32-bit word with the given bytes, the low one first. -/
def word32 (a b c d : UInt8) : UInt32 :=
  a.toUInt32 ||| b.toUInt32 <<< 8 ||| c.toUInt32 <<< 16 ||| d.toUInt32 <<< 24

/-- The bytes of a 16-bit word. -/
def bytes16 (v : UInt16) : List UInt8 := [v.toUInt8, (v >>> 8).toUInt8]

/-- The bytes of a 32-bit word. -/
def bytes32 (v : UInt32) : List UInt8 :=
  [v.toUInt8, (v >>> 8).toUInt8, (v >>> 16).toUInt8, (v >>> 24).toUInt8]

@[simp] theorem length_bytes16 (v : UInt16) : (bytes16 v).length = 2 := rfl

@[simp] theorem length_bytes32 (v : UInt32) : (bytes32 v).length = 4 := rfl

/-- The number of a 16-bit word, from its bytes. -/
theorem toNat_word16 (a b : UInt8) : (word16 a b).toNat = a.toNat + b.toNat * 256 := by
  have ha := a.toNat_lt
  have hb := b.toNat_lt
  -- The low byte fits below the high one, so that side by side they add up.
  have hor := Nat.shiftLeft_add_eq_or_of_lt ha b.toNat
  rw [Nat.shiftLeft_eq] at hor
  have hmod : b.toNat * 2 ^ 8 % 2 ^ 16 = b.toNat * 2 ^ 8 := Nat.mod_eq_of_lt (by omega)
  rw [word16, UInt16.toNat_or, UInt16.toNat_shiftLeft, UInt8.toNat_toUInt16, UInt8.toNat_toUInt16,
    Nat.or_comm, Nat.shiftLeft_eq]
  simp only [UInt16.reduceToNat, Nat.reduceMod]
  rw [hmod, ← hor]
  omega

/-- The number of a 32-bit word, from its bytes. -/
theorem toNat_word32 (a b c d : UInt8) :
    (word32 a b c d).toNat =
      a.toNat + b.toNat * 256 + c.toNat * 65536 + d.toNat * 16777216 := by
  have ha := a.toNat_lt
  have hb := b.toNat_lt
  have hc := c.toNat_lt
  have hd := d.toNat_lt
  have hb' : b.toNat * 2 ^ 8 % 2 ^ 32 = b.toNat * 2 ^ 8 := Nat.mod_eq_of_lt (by omega)
  have hc' : c.toNat * 2 ^ 16 % 2 ^ 32 = c.toNat * 2 ^ 16 := Nat.mod_eq_of_lt (by omega)
  have hd' : d.toNat * 2 ^ 24 % 2 ^ 32 = d.toNat * 2 ^ 24 := Nat.mod_eq_of_lt (by omega)
  -- The bytes do not overlap, so putting them side by side adds them up, from the low one on.
  have h1 := Nat.shiftLeft_add_eq_or_of_lt ha b.toNat
  have h2 := Nat.shiftLeft_add_eq_or_of_lt (i := 16) (b := b.toNat <<< 8 + a.toNat)
    (by rw [Nat.shiftLeft_eq]; omega) c.toNat
  have h3 := Nat.shiftLeft_add_eq_or_of_lt (i := 24)
    (b := c.toNat <<< 16 + (b.toNat <<< 8 + a.toNat))
    (by simp only [Nat.shiftLeft_eq]; omega) d.toNat
  have hw : (word32 a b c d).toNat =
      d.toNat <<< 24 ||| (c.toNat <<< 16 ||| (b.toNat <<< 8 ||| a.toNat)) := by
    simp only [word32, UInt32.toNat_or, UInt32.toNat_shiftLeft, UInt8.toNat_toUInt32,
      UInt32.reduceToNat, Nat.reduceMod, Nat.shiftLeft_eq]
    rw [hb', hc', hd', Nat.or_comm, Nat.or_comm (_ ||| _) (c.toNat * _), Nat.or_comm a.toNat]
  rw [hw, ← h1, ← h2, ← h3]
  simp only [Nat.shiftLeft_eq]
  omega

/-- The bytes of a 16-bit word make it up. -/
theorem word16_bytes (v : UInt16) : word16 v.toUInt8 (v >>> 8).toUInt8 = v := by
  have hv := v.toNat_lt
  apply UInt16.toNat_inj.1
  rw [toNat_word16]
  simp only [UInt16.toNat_toUInt8, UInt16.toNat_shiftRight, UInt16.reduceToNat, Nat.reduceMod,
    Nat.shiftRight_eq_div_pow]
  omega

/-- The bytes of a 32-bit word make it up. -/
theorem word32_bytes (v : UInt32) :
    word32 v.toUInt8 (v >>> 8).toUInt8 (v >>> 16).toUInt8 (v >>> 24).toUInt8 = v := by
  have hv := v.toNat_lt
  apply UInt32.toNat_inj.1
  rw [toNat_word32]
  simp only [UInt32.toNat_toUInt8, UInt32.toNat_shiftRight, UInt32.reduceToNat, Nat.reduceMod,
    Nat.shiftRight_eq_div_pow]
  omega

/-- A 16-bit word is made up of the bytes that made it. -/
theorem bytes16_word16 (a b : UInt8) : bytes16 (word16 a b) = [a, b] := by
  have ha := a.toNat_lt
  have hb := b.toNat_lt
  have hlow : (word16 a b).toUInt8 = a := by
    apply UInt8.toNat_inj.1
    rw [UInt16.toNat_toUInt8, toNat_word16]
    omega
  have hhigh : (word16 a b >>> 8).toUInt8 = b := by
    apply UInt8.toNat_inj.1
    simp only [UInt16.toNat_toUInt8, UInt16.toNat_shiftRight, UInt16.reduceToNat, Nat.reduceMod,
      Nat.shiftRight_eq_div_pow, toNat_word16]
    omega
  rw [bytes16, hlow, hhigh]

/-- A 32-bit word is made up of the bytes that made it. -/
theorem bytes32_word32 (a b c d : UInt8) : bytes32 (word32 a b c d) = [a, b, c, d] := by
  have ha := a.toNat_lt
  have hb := b.toNat_lt
  have hc := c.toNat_lt
  have hd := d.toNat_lt
  -- Each byte is a digit to base 256 of the number.
  have hdigit : ∀ (k : UInt32) (x : UInt8),
      ((word32 a b c d).toNat / 2 ^ (k.toNat % 32)) % 256 = x.toNat →
      (word32 a b c d >>> k).toUInt8 = x := by
    intro k x h
    apply UInt8.toNat_inj.1
    rw [UInt32.toNat_toUInt8, UInt32.toNat_shiftRight, Nat.shiftRight_eq_div_pow]
    exact h
  have h0 : (word32 a b c d).toUInt8 = a := by
    apply UInt8.toNat_inj.1
    rw [UInt32.toNat_toUInt8, toNat_word32]
    omega
  have h8 : (word32 a b c d >>> 8).toUInt8 = b := hdigit 8 b (by
    rw [toNat_word32]
    simp only [UInt32.reduceToNat, Nat.reduceMod]
    omega)
  have h16 : (word32 a b c d >>> 16).toUInt8 = c := hdigit 16 c (by
    rw [toNat_word32]
    simp only [UInt32.reduceToNat, Nat.reduceMod]
    omega)
  have h24 : (word32 a b c d >>> 24).toUInt8 = d := hdigit 24 d (by
    rw [toNat_word32]
    simp only [UInt32.reduceToNat, Nat.reduceMod]
    omega)
  rw [bytes32, h0, h8, h16, h24]

namespace Image

/-! ## Checked access -/

/-- An access within the image passes. -/
theorem check_of_le {m : Image} {offset width : Nat} (h : offset + width ≤ m.size) :
    m.check offset width = .ok () := if_pos h

/-- An access past the end is a fault of the image. -/
theorem check_of_lt {m : Image} {offset width : Nat} (h : m.size < offset + width) :
    m.check offset width = .error (.corrupt offset width m.size) := if_neg (by omega)

theorem readU8_of_le {m : Image} {offset : Nat} (h : offset + 1 ≤ m.size) :
    m.readU8 offset = .ok (m.byteAt offset) := by
  rw [readU8, check_of_le h]
  rfl

theorem readU16_of_le {m : Image} {offset : Nat} (h : offset + 2 ≤ m.size) :
    m.readU16 offset = .ok (word16 (m.byteAt offset) (m.byteAt (offset + 1))) := by
  rw [readU16, check_of_le h]
  rfl

theorem readU32_of_le {m : Image} {offset : Nat} (h : offset + 4 ≤ m.size) :
    m.readU32 offset = .ok (word32 (m.byteAt offset) (m.byteAt (offset + 1))
      (m.byteAt (offset + 2)) (m.byteAt (offset + 3))) := by
  rw [readU32, check_of_le h]
  rfl

/-! ## Bytes laid down -/

/-- The image with bytes laid down from an offset; those past the end are lost. -/
def putBytes (m : Image) (offset : Nat) : List UInt8 → Image
  | [] => m
  | b :: rest => (m.put offset b).putBytes (offset + 1) rest

@[simp] theorem putBytes_nil (m : Image) (offset : Nat) : m.putBytes offset [] = m := rfl

@[simp] theorem size_putBytes (m : Image) (offset : Nat) (bs : List UInt8) :
    (m.putBytes offset bs).size = m.size := by
  induction bs generalizing m offset with
  | nil => rfl
  | cons b rest ih => rw [putBytes, ih, size_put]

/-- Laying down bytes after bytes is laying down both. -/
theorem putBytes_append (m : Image) (offset : Nat) (as bs : List UInt8) :
    m.putBytes offset (as ++ bs) = (m.putBytes offset as).putBytes (offset + as.length) bs := by
  induction as generalizing m offset with
  | nil => rfl
  | cons a rest ih =>
    rw [List.cons_append, putBytes, ih, putBytes, List.length_cons, Nat.add_assoc offset 1,
      Nat.add_comm 1]

/-- A byte other than the one written is what it was, wherever that lies. -/
theorem byteAt_put_of_ne (m : Image) {i j : Nat} (b : UInt8) (h : i ≠ j) :
    (m.put i b).byteAt j = m.byteAt j := by
  rw [put, byteAt, byteAt, Array.getD_eq_getD_getElem?, Array.getD_eq_getD_getElem?,
    Array.getElem?_setIfInBounds_ne h]

/-- A byte outside those laid down is what it was. -/
theorem byteAt_putBytes_of_disjoint {m : Image} {offset i : Nat} {bs : List UInt8}
    (hi : i < offset ∨ offset + bs.length ≤ i) : (m.putBytes offset bs).byteAt i = m.byteAt i := by
  induction bs generalizing m offset with
  | nil => rfl
  | cons b rest ih =>
    rw [List.length_cons] at hi
    rw [putBytes, ih (by omega), byteAt_put_of_ne _ _ (by omega)]

/-- A byte laid down is there. -/
theorem byteAt_putBytes {m : Image} {offset : Nat} (bs : List UInt8)
    (h : offset + bs.length ≤ m.size) (i : Nat) (hi : i < bs.length) :
    (m.putBytes offset bs).byteAt (offset + i) = bs[i] := by
  induction bs generalizing m offset i with
  | nil => cases hi
  | cons b rest ih =>
    rw [List.length_cons] at h hi
    have hrest : offset + 1 + rest.length ≤ (m.put offset b).size := by
      rw [size_put]
      omega
    cases i with
    | zero =>
      -- The rest is laid down after the first byte and leaves it where it is.
      rw [Nat.add_zero, putBytes, byteAt_putBytes_of_disjoint (by omega),
        byteAt_put _ _ _ _ (by omega), if_pos rfl]
      rfl
    | succ i =>
      rw [putBytes, ← Nat.add_assoc, Nat.add_right_comm, ih hrest i (by omega)]
      rfl

/-- The bytes fit into the image. -/
def Fits (m : Image) (offset : Nat) (bs : List UInt8) : Prop :=
  bs = [] ∨ offset + bs.length ≤ m.size

theorem Fits.le {m : Image} {offset : Nat} {bs : List UInt8} (h : m.Fits offset bs)
    (hne : bs ≠ []) : offset + bs.length ≤ m.size := h.resolve_left hne

theorem fits_putBytes {m : Image} {offset offset' : Nat} {as bs : List UInt8} :
    (m.putBytes offset' as).Fits offset bs ↔ m.Fits offset bs := by
  rw [Fits, Fits, size_putBytes]

/-- Bytes fit one after the other if they fit together. -/
theorem fits_append {m : Image} {offset : Nat} {as bs : List UInt8} :
    m.Fits offset (as ++ bs) ↔ m.Fits offset as ∧ m.Fits (offset + as.length) bs := by
  cases as with
  | nil => simp [Fits]
  | cons a as =>
    cases bs with
    | nil => simp [Fits]
    | cons b bs =>
      simp only [Fits, List.cons_append, List.length_cons, List.length_append, reduceCtorEq,
        false_or]
      omega

/-- A step lays bytes down from an offset if they fit. If they do not, it lays some of them down and
meets a fault of the image. -/
structure Writes (x : Step Image Unit) (offset : Nat) (bs : List UInt8) : Prop where
  run_of_fits : ∀ {m : Image}, m.Fits offset bs → x.run m = (.ok (), m.putBytes offset bs)
  run_of_not_fits : ∀ {m : Image}, ¬m.Fits offset bs →
    ∃ e n, x.run m = (.error e, m.putBytes offset (bs.take n)) ∧ e.isCorruption = true

namespace Writes

variable {x y : Step Image Unit} {offset : Nat} {as bs : List UInt8}

/-- A write that went through fitted. -/
theorem of_run_ok (hx : Writes x offset bs) {m m' : Image} {u : Unit}
    (h : x.run m = (.ok u, m')) : m.Fits offset bs ∧ m' = m.putBytes offset bs := by
  by_cases hfit : m.Fits offset bs
  · rw [hx.run_of_fits hfit] at h
    cases h
    exact ⟨hfit, rfl⟩
  · obtain ⟨e, n, hrun, -⟩ := hx.run_of_not_fits hfit
    rw [hrun] at h
    cases h

/-- If a write and what follows went through, the bytes fitted and the rest came after them. -/
theorem of_run_bind_ok (hx : Writes x offset bs) {m m' : Image} {u : Unit}
    (h : (x >>= fun _ => y).run m = (.ok u, m')) :
    m.Fits offset bs ∧ y.run (m.putBytes offset bs) = (.ok u, m') := by
  obtain ⟨_, m₁, hrun, hrest⟩ := Step.run_bind_eq_ok h
  obtain ⟨hfit, rfl⟩ := hx.of_run_ok hrun
  exact ⟨hfit, hrest⟩

/-- Nothing is written by doing nothing. -/
theorem pure (offset : Nat) : Writes (Pure.pure ()) offset [] where
  run_of_fits _ := rfl
  run_of_not_fits h := absurd (.inl rfl) h

/-- Two adjoining writes are one. -/
theorem append (hx : Writes x offset as) (hy : Writes y (offset + as.length) bs) :
    Writes (x >>= fun _ => y) offset (as ++ bs) where
  run_of_fits := by
    intro m h
    obtain ⟨h1, h2⟩ := fits_append.1 h
    rw [Step.run_bind_ok (hx.run_of_fits h1), hy.run_of_fits (fits_putBytes.2 h2), putBytes_append]
  run_of_not_fits := by
    intro m h
    -- Whichever write does not fit stops on the way, and what has been laid down is a first part of
    -- both.
    by_cases h1 : m.Fits offset as
    · have h2 : ¬(m.putBytes offset as).Fits (offset + as.length) bs := fun h2 =>
        h (fits_append.2 ⟨h1, fits_putBytes.1 h2⟩)
      obtain ⟨e, n, hrun, he⟩ := hy.run_of_not_fits h2
      refine ⟨e, as.length + n, ?_, he⟩
      rw [Step.run_bind_ok (hx.run_of_fits h1), hrun, List.take_length_add_append, putBytes_append]
    · obtain ⟨e, n, hrun, he⟩ := hx.run_of_not_fits h1
      refine ⟨e, min n as.length, ?_, he⟩
      rw [Step.run_bind_error hrun, List.take_append_of_le_length (Nat.min_le_right _ _),
        List.take_eq_take_min]

end Writes

/-- A checked write of some bytes. -/
theorem writes_update {f : Image → Except Fault Image} {offset : Nat} {bs : List UInt8}
    (hne : bs ≠ [])
    (hf : ∀ m : Image, f m = do m.check offset bs.length; return m.putBytes offset bs) :
    Writes (.update f) offset bs where
  run_of_fits h := Step.run_update_ok (by rw [hf, check_of_le (h.le hne)]; rfl)
  run_of_not_fits := by
    intro m h
    have hlt : m.size < offset + bs.length := Nat.lt_of_not_le fun hle => h (.inr hle)
    refine ⟨.corrupt offset bs.length m.size, 0, ?_, rfl⟩
    rw [List.take_zero, putBytes_nil]
    exact Step.run_update_error (by rw [hf, check_of_lt hlt]; rfl)

theorem writes_writeU8 (offset : Nat) (v : UInt8) : Writes (writeU8 offset v) offset [v] :=
  writes_update (List.cons_ne_nil _ _) fun _ => rfl

theorem writes_writeU16 (offset : Nat) (v : UInt16) :
    Writes (writeU16 offset v) offset (bytes16 v) :=
  writes_update (List.cons_ne_nil _ _) fun _ => rfl

theorem writes_writeU32 (offset : Nat) (v : UInt32) :
    Writes (writeU32 offset v) offset (bytes32 v) :=
  writes_update (List.cons_ne_nil _ _) fun _ => rfl

/-! ## Words read back -/

/-- The image has these bytes from an offset on. -/
def Contains (m : Image) (offset : Nat) (bs : List UInt8) : Prop :=
  ∀ (i : Nat) (hi : i < bs.length), offset + i < m.size ∧ m.byteAt (offset + i) = bs[i]

variable {m : Image} {offset offset' : Nat} {as bs : List UInt8}

/-- Bytes that fit are there once they are laid down. -/
theorem contains_putBytes (h : m.Fits offset bs) : (m.putBytes offset bs).Contains offset bs := by
  intro i hi
  have hle := h.le (List.ne_nil_of_length_pos (Nat.zero_lt_of_lt hi))
  refine ⟨?_, byteAt_putBytes bs hle i hi⟩
  rw [size_putBytes]
  omega

/-- Bytes stay where they are while others are laid down elsewhere. -/
theorem Contains.putBytes (h : m.Contains offset bs)
    (hdisjoint : offset' + as.length ≤ offset ∨ offset + bs.length ≤ offset') :
    (m.putBytes offset' as).Contains offset bs := by
  intro i hi
  rw [size_putBytes, byteAt_putBytes_of_disjoint (by omega)]
  exact h i hi

/-- An image has bytes one after the other if it has both. -/
theorem contains_append : m.Contains offset (as ++ bs) ↔
    m.Contains offset as ∧ m.Contains (offset + as.length) bs := by
  constructor
  · intro h
    constructor
    · intro i hi
      have hboth := h i (by rw [List.length_append]; omega)
      rwa [List.getElem_append_left hi] at hboth
    · intro i hi
      have hboth := h (as.length + i) (by rw [List.length_append]; omega)
      rw [List.getElem_append_right (by omega), ← Nat.add_assoc] at hboth
      simpa using hboth
  · rintro ⟨has, hbs⟩ i hi
    rw [List.length_append] at hi
    by_cases hlt : i < as.length
    · rw [List.getElem_append_left hlt]
      exact has i hlt
    · rw [List.getElem_append_right (by omega)]
      have hright := hbs (i - as.length) (by omega)
      rwa [show offset + as.length + (i - as.length) = offset + i by omega] at hright

/-- A byte that is there is read. -/
theorem Contains.readU8 {v : UInt8} (h : m.Contains offset [v]) : m.readU8 offset = .ok v := by
  obtain ⟨hlt, hbyte⟩ := h 0 (Nat.zero_lt_succ 0)
  rw [readU8_of_le hlt]
  exact congrArg _ hbyte

/-- A 16-bit word that is there is read. -/
theorem Contains.readU16 {v : UInt16} (h : m.Contains offset (bytes16 v)) :
    m.readU16 offset = .ok v := by
  obtain ⟨-, h0⟩ := h 0 (by simp)
  obtain ⟨hlt, h1⟩ := h 1 (by simp)
  rw [Nat.add_zero] at h0
  rw [readU16_of_le hlt, h0, h1]
  exact congrArg _ (word16_bytes v)

/-- A 32-bit word that is there is read. -/
theorem Contains.readU32 {v : UInt32} (h : m.Contains offset (bytes32 v)) :
    m.readU32 offset = .ok v := by
  obtain ⟨-, h0⟩ := h 0 (by simp)
  obtain ⟨-, h1⟩ := h 1 (by simp)
  obtain ⟨-, h2⟩ := h 2 (by simp)
  obtain ⟨hlt, h3⟩ := h 3 (by simp)
  rw [Nat.add_zero] at h0
  rw [readU32_of_le hlt, h0, h1, h2, h3]
  exact congrArg _ (word32_bytes v)

/-- An access that passes lies within the image. -/
theorem le_of_check {width : Nat} {u : Unit} (h : m.check offset width = .ok u) :
    offset + width ≤ m.size := by
  rcases Nat.lt_or_ge m.size (offset + width) with hlt | hle
  · rw [check_of_lt hlt] at h
    cases h
  · exact hle

/-- The bytes that stand in an image are there. -/
theorem contains_range {n : Nat} (h : offset + n ≤ m.size) :
    m.Contains offset ((List.range n).map fun i => m.byteAt (offset + i)) := by
  intro i hi
  rw [List.length_map, List.length_range] at hi
  refine ⟨by omega, ?_⟩
  rw [List.getElem_map, List.getElem_range]

/-- A byte that is read is there. -/
theorem contains_of_readU8 {v : UInt8} (h : m.readU8 offset = .ok v) : m.Contains offset [v] := by
  obtain ⟨_, hcheck, hread⟩ := Except.bind_eq_ok.1 h
  cases hread
  exact contains_range (n := 1) (le_of_check hcheck)

/-- A 16-bit word that is read is there. -/
theorem contains_of_readU16 {v : UInt16} (h : m.readU16 offset = .ok v) :
    m.Contains offset (bytes16 v) := by
  obtain ⟨_, hcheck, hread⟩ := Except.bind_eq_ok.1 h
  have hword : word16 (m.byteAt offset) (m.byteAt (offset + 1)) = v := Except.ok.inj hread
  rw [← hword, bytes16_word16]
  exact contains_range (n := 2) (le_of_check hcheck)

/-- A 32-bit word that is read is there. -/
theorem contains_of_readU32 {v : UInt32} (h : m.readU32 offset = .ok v) :
    m.Contains offset (bytes32 v) := by
  obtain ⟨_, hcheck, hread⟩ := Except.bind_eq_ok.1 h
  have hword : word32 (m.byteAt offset) (m.byteAt (offset + 1)) (m.byteAt (offset + 2))
      (m.byteAt (offset + 3)) = v := Except.ok.inj hread
  rw [← hword, bytes32_word32]
  exact contains_range (n := 4) (le_of_check hcheck)

/-! ## Bytes laid down again -/

/-- Bytes that are there fit. -/
theorem Contains.fits (h : m.Contains offset bs) : m.Fits offset bs := by
  rcases hlen : bs.length with _ | n
  · exact .inl (List.length_eq_zero_iff.1 hlen)
  · obtain ⟨hlt, -⟩ := h n (by omega)
    exact .inr (by omega)

/-- A byte put down where it stands changes nothing. -/
theorem put_byteAt (m : Image) (i : Nat) : m.put i (m.byteAt i) = m := by
  have hbytes : m.bytes.setIfInBounds i (m.bytes.getD i 0) = m.bytes := by
    by_cases hi : i < m.bytes.size
    · rw [Array.setIfInBounds, dif_pos hi, Array.getD_eq_getD_getElem?,
        Array.getElem?_eq_getElem hi, Option.getD_some, Array.set_getElem_self]
    · rw [Array.setIfInBounds, dif_neg hi]
  rw [put, byteAt, hbytes]

/-- Bytes laid down where they are change nothing. -/
theorem Contains.putBytes_eq (h : m.Contains offset bs) : m.putBytes offset bs = m := by
  induction bs generalizing offset with
  | nil => rfl
  | cons b rest ih =>
    have h : m.Contains offset ([b] ++ rest) := h
    obtain ⟨hfirst, hrest⟩ := contains_append.1 h
    obtain ⟨-, hbyte⟩ := hfirst 0 (Nat.zero_lt_succ _)
    have hbyte : m.byteAt offset = b := hbyte
    rw [Image.putBytes, ← hbyte, put_byteAt]
    exact ih hrest

end Image

end QuestLogic
