import QuestLogic.Proofs.Event.Mark

/-!
# Flags written one after the other

Whatever writes several flags to an image that reaches to the end of them leaves
`Image.withFlags`. A bit that none of the flags names is what it was
(`bit_withFlags_of_untouched`), and one to which only one value is written has that value
(`bit_withFlags_of_agree`). To clear a range is to write all of its flags, and so is to clear those
of a character, who has some only if among the cast (`run_clearUnseen`).
-/

namespace QuestLogic

namespace FlagRange

/-- The flags of a range have the numbers from its first one up to its end. -/
theorem toNat_of_mem_pointers {r : FlagRange} {p : EventPtr} (hr : r.stop ≤ 65536)
    (hp : p ∈ r.pointers) : r.base ≤ p.toNat ∧ p.toNat < r.stop := by
  obtain ⟨i, hi, rfl⟩ := List.mem_map.1 hp
  rw [List.mem_range] at hi
  rw [stop] at hr ⊢
  rw [UInt16.toNat_ofNat_of_lt' (by rw [UInt16.size]; omega)]
  omega

/-- In the simple record a flag outside of a range is none of the flags of the range. -/
theorem location_ne {r : FlagRange} {p q : EventPtr} (hr : r.stop ≤ 0xdac0)
    (hp : p ∈ r.pointers) (hq : q.toNat < 0xdac0) (hout : r.contains q = false) :
    p.location ≠ q.location := by
  obtain ⟨hlow, hhigh⟩ := toNat_of_mem_pointers (Nat.le_trans hr (by decide)) hp
  intro heq
  rw [(EventPtr.location_inj (by omega) hq).1 heq] at hlow hhigh
  rw [contains, decide_eq_true hlow, decide_eq_true hhigh] at hout
  cases hout

/-- Ranges of the simple record that follow one another have no flag in common. -/
theorem location_ne_of_stop_le {r r' : FlagRange} {p q : EventPtr} (h : r.stop ≤ r'.base)
    (hr' : r'.stop ≤ 0xdac0) (hp : p ∈ r.pointers) (hq : q ∈ r'.pointers) :
    p.location ≠ q.location := by
  have hbase : r'.base ≤ r'.stop := Nat.le_add_right _ _
  obtain ⟨hlow, hhigh⟩ := toNat_of_mem_pointers (Nat.le_trans hr' (by decide)) hq
  refine location_ne (by omega) hp (by omega) ?_
  rw [contains, decide_eq_false (by omega : ¬q.toNat < r.stop), Bool.and_false]

/-- Ranges that differ lie one before the other. -/
theorem stop_le_of_ne : ∀ r ∈ all, ∀ r' ∈ all, r ≠ r' → r.stop ≤ r'.base ∨ r'.stop ≤ r.base := by
  decide

/-- Every range ends before the complex record. -/
theorem stop_le_of_mem : ∀ r ∈ all, r.stop ≤ 0x2138 := by
  decide

/-- Ranges that differ have no flag in common. -/
theorem location_ne_of_mem {r r' : FlagRange} {p q : EventPtr} (hr : r ∈ all) (hr' : r' ∈ all)
    (hne : r ≠ r') (hp : p ∈ r.pointers) (hq : q ∈ r'.pointers) : p.location ≠ q.location := by
  have hend : ∀ r ∈ all, r.stop ≤ 0xdac0 := fun r h => Nat.le_trans (stop_le_of_mem r h) (by decide)
  rcases stop_le_of_ne r hr r' hr' hne with hle | hle
  · exact location_ne_of_stop_le hle (hend r' hr') hp hq
  · exact (location_ne_of_stop_le hle (hend r hr) hq hp).symm

end FlagRange

namespace Image

/-- Writes flags one after the other. -/
def writeEach : List (EventPtr × Bool) → Step Image Unit
  | [] => pure ()
  | (p, on) :: rest => do
    setFlag p on
    writeEach rest

/-- The image with flags written one after the other. -/
def withFlags (m : Image) (ws : List (EventPtr × Bool)) : Image :=
  ws.foldl (fun m w => m.withFlag w.1 w.2) m

variable {m : Image} {ws : List (EventPtr × Bool)} {l : Nat × Nat} {on : Bool}

@[simp] theorem withFlags_nil (m : Image) : m.withFlags [] = m := rfl

@[simp] theorem withFlags_append (m : Image) (ws ws' : List (EventPtr × Bool)) :
    m.withFlags (ws ++ ws') = (m.withFlags ws).withFlags ws' := List.foldl_append

@[simp] theorem size_withFlags (m : Image) (ws : List (EventPtr × Bool)) :
    (m.withFlags ws).size = m.size := by
  induction ws generalizing m with
  | nil => rfl
  | cons w rest ih => exact (ih (m.withFlag w.1 w.2)).trans (size_withFlag m w.1 w.2)

/-- In an image that reaches to the end of the flags they are all written. -/
theorem run_writeEach (hm : Layout.size ≤ m.size) (ws : List (EventPtr × Bool)) :
    (writeEach ws).run m = (.ok (), m.withFlags ws) := by
  induction ws generalizing m with
  | nil => rfl
  | cons w rest ih =>
    rw [writeEach, Step.run_bind_ok (run_setFlag hm w.1 w.2)]
    exact ih (by rwa [size_withFlag])

/-! ## Bits -/

/-- Flags leave every byte before the first of them alone. -/
theorem byteAt_withFlags_of_lt {i : Nat} (hi : i < Layout.simpleEvents) :
    (m.withFlags ws).byteAt i = m.byteAt i := by
  induction ws generalizing m with
  | nil => rfl
  | cons w rest ih =>
    have hflag := w.1.le_location
    exact (ih (m := m.withFlag w.1 w.2)).trans (byteAt_put_of_ne m _ (by omega))

/-- Bytes laid down before the first flag leave every flag alone. -/
theorem bit_putBytes {offset : Nat} {bs : List UInt8}
    (h : offset + bs.length ≤ Layout.simpleEvents) (hl : Layout.simpleEvents ≤ l.1) :
    (m.putBytes offset bs).bit l = m.bit l := by
  rw [bit, bit, byteAt_putBytes_of_disjoint (.inr (Nat.le_trans h hl))]

/-- Bytes before the first flag stay where they are while flags are written. -/
theorem Contains.withFlags {offset : Nat} {bs : List UInt8} (h : m.Contains offset bs)
    (hend : offset + bs.length ≤ Layout.simpleEvents) : (m.withFlags ws).Contains offset bs := by
  intro i hi
  rw [size_withFlags, byteAt_withFlags_of_lt (by omega)]
  exact h i hi

/-- A bit has the value that was last written to it, or the one that it had. -/
theorem bit_withFlags (hm : Layout.size ≤ m.size) (ws : List (EventPtr × Bool)) (l : Nat × Nat) :
    (m.withFlags ws).bit l =
      ws.foldl (fun b w => if l = w.1.location then w.2 else b) (m.bit l) := by
  induction ws generalizing m with
  | nil => rfl
  | cons w rest ih =>
    have hlater := ih (m := m.withFlag w.1 w.2) (by rwa [size_withFlag])
    rwa [bit_withFlag hm] at hlater

/-- A bit that no flag names is what it was. -/
theorem bit_withFlags_of_untouched (hm : Layout.size ≤ m.size) (h : ∀ w ∈ ws, w.1.location ≠ l) :
    (m.withFlags ws).bit l = m.bit l := by
  induction ws generalizing m with
  | nil => rfl
  | cons w rest ih =>
    obtain ⟨hw, hrest⟩ := List.forall_mem_cons.1 h
    have hlater := ih (m := m.withFlag w.1 w.2) (by rwa [size_withFlag]) hrest
    rw [bit_withFlag hm, if_neg (Ne.symm hw)] at hlater
    exact hlater

/-- A bit to which one value is written, and no other, has it. -/
theorem bit_withFlags_of_agree (hm : Layout.size ≤ m.size) (hsome : ∃ w ∈ ws, w.1.location = l)
    (hall : ∀ w ∈ ws, w.1.location = l → w.2 = on) : (m.withFlags ws).bit l = on := by
  induction ws generalizing m with
  | nil =>
    obtain ⟨w, hw, -⟩ := hsome
    cases hw
  | cons w rest ih =>
    obtain ⟨hw, hrest⟩ := List.forall_mem_cons.1 hall
    have hfull : Layout.size ≤ (m.withFlag w.1 w.2).size := by rwa [size_withFlag]
    -- If the rest does not come to the bit, the first flag has written it.
    by_cases hlater : ∃ w' ∈ rest, w'.1.location = l
    · exact ih hfull hlater hrest
    · have huntouched : ∀ w' ∈ rest, w'.1.location ≠ l := fun w' hw' heq =>
        hlater ⟨w', hw', heq⟩
      have hfirst : w.1.location = l := by
        obtain ⟨w', hw', heq⟩ := hsome
        rcases List.mem_cons.1 hw' with rfl | hw'
        · exact heq
        · exact absurd heq (huntouched w' hw')
      refine (bit_withFlags_of_untouched hfull huntouched).trans ?_
      rw [bit_withFlag hm, if_pos hfirst.symm, hw hfirst]

/-! ## Flags that are cleared -/

/-- Flags with one value for all of them. -/
def allTo (on : Bool) (ps : List EventPtr) : List (EventPtr × Bool) := ps.map (·, on)

theorem allTo_append (on : Bool) (ps qs : List EventPtr) :
    allTo on (ps ++ qs) = allTo on ps ++ allTo on qs := List.map_append

theorem mem_allTo {ps : List EventPtr} {w : EventPtr × Bool} :
    w ∈ allTo on ps ↔ w.1 ∈ ps ∧ w.2 = on := by
  rw [allTo, List.mem_map]
  constructor
  · rintro ⟨p, hp, rfl⟩
    exact ⟨hp, rfl⟩
  · rintro ⟨hp, rfl⟩
    exact ⟨w.1, hp, rfl⟩

/-- What all of the flags are written to, each of them has. -/
theorem bit_allTo {ps : List EventPtr} (hm : Layout.size ≤ m.size)
    (h : ∃ p ∈ ps, p.location = l) : (m.withFlags (allTo on ps)).bit l = on := by
  obtain ⟨p, hp, hl⟩ := h
  exact bit_withFlags_of_agree hm ⟨(p, on), mem_allTo.2 ⟨hp, rfl⟩, hl⟩ fun w hw _ =>
    (mem_allTo.1 hw).2

theorem bit_allTo_of_untouched {ps : List EventPtr} (hm : Layout.size ≤ m.size)
    (h : ∀ p ∈ ps, p.location ≠ l) : (m.withFlags (allTo on ps)).bit l = m.bit l :=
  bit_withFlags_of_untouched hm fun w hw => h w.1 (mem_allTo.1 hw).1

theorem run_setFlags (hm : Layout.size ≤ m.size) (on : Bool) (ps : List EventPtr) :
    (setFlags on ps).run m = (.ok (), m.withFlags (allTo on ps)) := by
  induction ps generalizing m with
  | nil => rfl
  | cons p rest ih =>
    rw [setFlags, Step.run_bind_ok (run_setFlag hm p on)]
    exact ih (by rwa [size_withFlag])

theorem run_clearUnique (hm : Layout.size ≤ m.size) :
    clearUnique.run m =
      (.ok (), m.withFlags (allTo false FlagRange.uniqueEncounter.pointers)) :=
  run_setFlags hm false _

/-- The flag of a character at a place among the improvements. -/
def unseenFlag (c : CharId) (slot : Nat) : EventPtr :=
  UInt16.ofNat (FlagRange.skillImprovement.base + (c.val.toNat * FlagRange.perCharacter + slot))

/-- The flags of the improvements of a character. -/
def unseenFlags (c : CharId) : List EventPtr :=
  (List.range FlagRange.perCharacter).map (unseenFlag c)

/-- One of the cast has all of the flags. -/
theorem pointer_unseen {c : CharId} (hc : c.isCast = true) {slot : Nat} (hslot : slot < 17) :
    FlagRange.skillImprovement.pointer (c.val.toNat * FlagRange.perCharacter + slot) =
      .ok (unseenFlag c slot) := by
  rw [CharId.isCast, decide_eq_true_eq, CharId.castSize] at hc
  refine FlagRange.pointer_of_lt ?_
  change c.val.toNat * 17 + slot < 102
  omega

/-- The flags of one of the cast are all cleared. -/
theorem run_clearUnseen (hm : Layout.size ≤ m.size) {c : CharId} (hc : c.isCast = true) :
    (clearUnseen c).run m = (.ok (), m.withFlags (allTo false (unseenFlags c))) := by
  have hslots : ∀ slot ∈ List.range FlagRange.perCharacter, slot < 17 := fun slot h =>
    List.mem_range.1 h
  unfold clearUnseen unseenFlags
  -- Whatever places are gone through, each of them has a flag.
  revert hslots
  induction List.range FlagRange.perCharacter generalizing m with
  | nil => exact fun _ => rfl
  | cons slot rest ih =>
    intro hslots
    obtain ⟨hslot, hrest⟩ := List.forall_mem_cons.1 hslots
    rw [List.forM, pointer_unseen hc hslot]
    dsimp only
    rw [Step.run_bind_ok (run_setFlag hm _ _)]
    exact ih (by rwa [size_withFlag]) hrest

/-- The flags of one of the cast are among those of all characters. -/
theorem mem_unseenFlags {c : CharId} (hc : c.isCast = true) {p : EventPtr}
    (hp : p ∈ unseenFlags c) : p ∈ FlagRange.skillImprovement.pointers := by
  obtain ⟨slot, hslot, rfl⟩ := List.mem_map.1 hp
  exact FlagRange.mem_pointers (pointer_unseen hc (List.mem_range.1 hslot))

/-- Only the cast have flags that can be cleared. -/
theorem isCast_of_clearUnseen {c : CharId} {m' : Image} {u : Unit}
    (h : (clearUnseen c).run m = (.ok u, m')) : c.isCast = true := by
  refine Decidable.byContradiction fun hc => ?_
  rw [CharId.isCast, decide_eq_true_eq, CharId.castSize] at hc
  have hnone : FlagRange.skillImprovement.pointer (c.val.toNat * FlagRange.perCharacter + 0) =
      .error (.outsideRange FlagRange.skillImprovement.name
        (c.val.toNat * FlagRange.perCharacter + 0) FlagRange.skillImprovement.count) := by
    refine FlagRange.pointer_of_le ?_
    change 102 ≤ c.val.toNat * 17 + 0
    omega
  -- The first place is already past the range.
  have hrange : List.range FlagRange.perCharacter = 0 :: (List.range 16).map (· + 1) := by decide
  rw [clearUnseen, hrange, List.forM, hnone] at h
  obtain ⟨_, _, hfirst, -⟩ := Step.run_bind_eq_ok h
  cases hfirst

end Image

end QuestLogic
