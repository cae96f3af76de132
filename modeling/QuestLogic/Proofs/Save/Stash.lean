import QuestLogic.Proofs.Save.Change

/-!
# Purses that stay set aside

The purses set aside at the chapters stand one after the other, past the timed effects and before
the flags. So a flag never touches them (`Image.Change.stashed`), and to set one of them aside
leaves the others alone (`Image.stashed_of_setStash`).
-/

namespace QuestLogic.Image

variable {m m' : Image} {d : Image.Deed} {c k : Chapter} {gold : Royals}

/-- A purse is read where it stands. -/
theorem stashed_of_offset {offset : Nat} (h : stashOffset c = .ok offset) :
    m.stashed c = Royals.mk <$> m.readU32 offset := by
  rw [stashed, h]
  rfl

/-- No purse reaches out of the part of the image that is theirs. -/
theorem stashOffset_within {offset : Nat} (h : stashOffset c = .ok offset) :
    Layout.stash ≤ offset ∧ offset + 4 ≤ Layout.simpleEvents := by
  obtain ⟨n, hn, rfl⟩ := stashOffset_eq_ok h
  rw [Layout.stash, Layout.simpleEvents]
  omega

/-- The purses of different chapters do not overlap. -/
theorem stashOffset_apart {a b : Nat} (ha : stashOffset c = .ok a) (hb : stashOffset k = .ok b)
    (hne : k ≠ c) : a + 4 ≤ b ∨ b + 4 ≤ a := by
  have hval : k.val.toNat ≠ c.val.toNat := fun h =>
    hne (congrArg Chapter.mk (UInt8.toNat_inj.1 h))
  unfold stashOffset Chapter.inStory at ha hb
  split_ifs at ha hb with hc hk
  rw [Bool.and_eq_true, decide_eq_true_eq, decide_eq_true_eq] at hc hk
  rw [Except.ok.injEq] at ha hb
  omega

/-- Words are read from their bytes. -/
theorem readU32_congr {offset : Nat} (hsize : m'.size = m.size)
    (h : ∀ i < 4, m'.byteAt (offset + i) = m.byteAt (offset + i)) :
    m'.readU32 offset = m.readU32 offset := by
  have h0 : m'.byteAt offset = m.byteAt offset := h 0 (by omega)
  rcases Nat.lt_or_ge m.size (offset + 4) with hlt | hle
  · rw [readU32, readU32, check_of_lt hlt, check_of_lt (by omega), hsize]
    rfl
  · rw [readU32_of_le hle, readU32_of_le (by omega), h0, h 1 (by omega), h 2 (by omega),
      h 3 (by omega)]

/-- A purse is what it was if its bytes are. -/
theorem stashed_congr (hsize : m'.size = m.size)
    (h : ∀ offset, stashOffset c = .ok offset →
      ∀ i < 4, m'.byteAt (offset + i) = m.byteAt (offset + i)) :
    m'.stashed c = m.stashed c := by
  rcases hoffset : stashOffset c with e | offset
  · rw [stashed, stashed, hoffset]
    rfl
  · rw [stashed_of_offset hoffset, stashed_of_offset hoffset,
      readU32_congr hsize (h offset hoffset)]

/-- The write lies outside the part of the image where the purses stand. -/
def Deed.SparesStash : Deed → Prop
  | .flag _ _ | .byte _ => True
  | .word offset bs => offset + bs.length ≤ Layout.stash ∨ Layout.simpleEvents ≤ offset

/-- Fields before the purses do not reach into them. -/
theorem sparesStash_of_field {offset width : Nat} (h : d.OfField offset width)
    (hend : offset + width ≤ Layout.stash) : d.SparesStash := by
  obtain ⟨hbs⟩ := h
  exact .inl (Nat.le_trans (Nat.add_le_add_left hbs offset) hend)

/-- Flags lie past the purses, so that writing them leaves every purse alone. -/
theorem Change.stashed (h : Change d m m') (hd : d.SparesStash) (c : Chapter) :
    m'.stashed c = m.stashed c := by
  refine stashed_congr h.size_eq fun offset hoffset i hi => ?_
  obtain ⟨hlow, hhigh⟩ := stashOffset_within hoffset
  cases h with
  | @flag _ p on _ =>
    have hflag := p.le_location
    exact byteAt_put_of_ne m _ (by omega)
  | byte hp _ =>
    have hbyte := EventPtr.le_of_resolve_complexByte hp
    exact byteAt_put_of_ne m _ (by omega)
  | word _ start bs =>
    refine byteAt_putBytes_of_disjoint ?_
    change start + bs.length ≤ Layout.stash ∨ Layout.simpleEvents ≤ start at hd
    omega

/-- A purse is set aside where the chapter has one. -/
theorem setStash_eq_ok {u : Unit} (h : (setStash c gold).run m = (.ok u, m')) :
    ∃ offset, stashOffset c = .ok offset ∧ m.Fits offset (bytes32 gold.val) ∧
      m' = m.putBytes offset (bytes32 gold.val) := by
  unfold setStash at h
  split at h
  · rename_i offset hoffset
    obtain ⟨hfit, hput⟩ := (writes_writeU32 _ _).of_run_ok h
    exact ⟨offset, hoffset, hfit, hput⟩
  · cases h

/-- A purse that has been set aside is there, and those of the other chapters are what they were. -/
theorem stashed_of_setStash {u : Unit} (h : (setStash c gold).run m = (.ok u, m')) :
    m'.stashed c = .ok gold ∧ ∀ k ≠ c, m'.stashed k = m.stashed k := by
  obtain ⟨offset, hoffset, hfit, rfl⟩ := setStash_eq_ok h
  refine ⟨?_, fun k hk => stashed_congr (size_putBytes _ _ _) fun other hother i hi => ?_⟩
  · rw [stashed_of_offset hoffset, (contains_putBytes hfit).readU32]
    rfl
  · have hapart := stashOffset_apart hoffset hother hk
    refine byteAt_putBytes_of_disjoint ?_
    rw [length_bytes32]
    omega

end QuestLogic.Image
