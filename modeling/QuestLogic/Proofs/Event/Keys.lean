import QuestLogic.Proofs.Event.Flags

/-!
# Marks that are kept apart

A mark within its range (`Mark.InRange`) has the flag at its index (`Mark.place_of_inRange`), and
range and index tell which mark it is (`Mark.ofIndex_index`), so that marks that differ have flags
that differ. All of them stand before the complex record. So to write one mark leaves every other
as it was, and a mark past its range changes nothing (`Image.setMark_apart`).
-/

namespace QuestLogic

/-- A stored skill is the one at its position. -/
theorem SkillType.stored_slot {t : SkillType} (h : t ∈ stored) :
    ∃ slot : Fin 16, t.slot? = some slot ∧ stored[slot.val]? = some t := by
  cases t with
  | totalHealth | gainHealth => exact absurd h (by decide)
  | _ => exact ⟨_, rfl, rfl⟩

/-- A skill that is not stored has no position. -/
theorem SkillType.slot?_eq_none {t : SkillType} (h : t ∉ stored) : t.slot? = none := by
  cases t with
  | totalHealth | gainHealth => rfl
  | _ => exact absurd (by decide) h

/-- The fault is reported as an operation that the game refuses. -/
def Fault.IsRefusal (e : Fault) : Prop := e.message = "Invalid operation: " ++ e.reason

namespace Mark

/-- The place of a skill in a range that has a row of skills for each character. -/
def row (c : CharId) (t : SkillType) : Nat :=
  c.val.toNat * FlagRange.perCharacter + (t.slot?.map Fin.val).getD 0

/-- The index of a mark in its range. -/
def index : Mark → Nat
  | door n | lockSeen n | combat n => n.toNat
  | templeSeen n | itemUsed n => n.toNat
  | discussed p | inhibited p => p.toNat
  | recent e | scouted e => e.toNat
  | unique z t e => uniqueIndex z t e
  | skillSelected c t | skillUnseen c t => row c t

/-- The mark has a key of its own: any but that of an encounter that is met once in a chapter. -/
def Keyed : Mark → Prop
  | unique _ _ _ => False
  | _ => True

/-- The key of a mark is within its range, and a skill is one of those that are stored for one of
the cast. -/
def InRange : Mark → Prop
  | unique _ _ _ => False
  | skillSelected c t | skillUnseen c t => c.isCast = true ∧ t ∈ SkillType.stored
  | k => k.index < k.range.count

instance : DecidablePred InRange
  | unique _ _ _ => instDecidableFalse
  | skillSelected _ _ | skillUnseen _ _ => instDecidableAnd
  | door _ | lockSeen _ | templeSeen _ | itemUsed _ | discussed _ | inhibited _ | recent _
  | scouted _ | combat _ => Nat.decLt _ _

/-- The mark at an index of a range, told from where the range begins. -/
def ofIndex (r : FlagRange) (i : Nat) : Option Mark :=
  match r.base with
  | 0x1b58 => some (door (.ofNat i))
  | 0x1c5c => some (lockSeen (.ofNat i))
  | 0x1950 => some (templeSeen (.ofNat i))
  | 0x194c => some (itemUsed (.ofNat i))
  | 0x1d4c => some (discussed (.ofNat i))
  | 0x1a2c => some (inhibited (.ofNat i))
  | 0x1450 => some (recent (.ofNat i))
  | 0x145a => some (scouted (.ofNat i))
  | 0x1464 => some (combat (.ofNat i))
  | 0x1856 => (SkillType.stored[i % 17]?).map (skillSelected ⟨.ofNat (i / 17)⟩)
  | 0x18ce => (SkillType.stored[i % 17]?).map (skillUnseen ⟨.ofNat (i / 17)⟩)
  | _ => none

variable {k k' : Mark} {c : CharId} {t : SkillType}

theorem row_eq {slot : Fin 16} (h : t.slot? = some slot) :
    row c t = c.val.toNat * 17 + slot.val := by
  rw [row, h]
  rfl

/-- A row is told apart from the others, and so is every skill in it. -/
theorem map_row (h : t ∈ SkillType.stored) (f : CharId → SkillType → Mark) :
    (SkillType.stored[row c t % 17]?).map (f ⟨.ofNat (row c t / 17)⟩) = some (f c t) := by
  obtain ⟨slot, hslot, hstored⟩ := SkillType.stored_slot h
  have hrow := row_eq (c := c) hslot
  have hdiv : row c t / 17 = c.val.toNat := by omega
  have hmod : row c t % 17 = slot.val := by omega
  rw [hmod, hstored, hdiv, UInt8.ofNat_toNat]
  rfl

/-- Range and index tell which mark it is. -/
theorem ofIndex_index (h : k.InRange) : ofIndex k.range k.index = some k := by
  cases k with
  | door n => exact congrArg (some ∘ door) UInt16.ofNat_toNat
  | lockSeen n => exact congrArg (some ∘ lockSeen) UInt16.ofNat_toNat
  | templeSeen n => exact congrArg (some ∘ templeSeen) UInt8.ofNat_toNat
  | itemUsed n => exact congrArg (some ∘ itemUsed) UInt8.ofNat_toNat
  | discussed p => exact congrArg (some ∘ discussed) UInt16.ofNat_toNat
  | inhibited p => exact congrArg (some ∘ inhibited) UInt16.ofNat_toNat
  | recent e => exact congrArg (some ∘ recent) UInt8.ofNat_toNat
  | scouted e => exact congrArg (some ∘ scouted) UInt8.ofNat_toNat
  | combat n => exact congrArg (some ∘ combat) UInt16.ofNat_toNat
  | unique => exact h.elim
  | skillSelected c t => exact map_row h.2 skillSelected
  | skillUnseen c t => exact map_row h.2 skillUnseen

/-- The rows of the cast lie within the ranges of skills. -/
theorem row_lt (hc : c.isCast = true) (h : t ∈ SkillType.stored) :
    row c t < 6 * FlagRange.perCharacter := by
  obtain ⟨slot, hslot, -⟩ := SkillType.stored_slot h
  rw [CharId.isCast, decide_eq_true_eq, CharId.castSize] at hc
  rw [row_eq hslot, FlagRange.perCharacter]
  omega

/-- Nobody outside the cast has a row there. -/
theorem le_row (hc : ¬c.isCast = true) : 6 * FlagRange.perCharacter ≤ row c t := by
  rw [CharId.isCast, decide_eq_true_eq, CharId.castSize] at hc
  rw [row, FlagRange.perCharacter]
  omega

theorem index_lt (h : k.InRange) : k.index < k.range.count := by
  cases k with
  | unique => exact h.elim
  | skillSelected c t | skillUnseen c t => exact row_lt h.1 h.2
  | _ => exact h

/-- The flag at the index of a mark. -/
def flag (k : Mark) : EventPtr := .ofNat (k.range.base + k.index)

/-- The flags of marks stand before the complex record, in the order of their ranges. -/
theorem toNat_flag (h : k.InRange) :
    k.flag.toNat = k.range.base + k.index ∧ k.flag.toNat < 0x2138 := by
  have hindex := index_lt h
  have hstop := FlagRange.stop_le_of_mem _ k.range_mem_all
  rw [FlagRange.stop] at hstop
  have hflag : k.flag.toNat = k.range.base + k.index :=
    UInt16.toNat_ofNat_of_lt' (by rw [UInt16.size]; omega)
  exact ⟨hflag, by omega⟩

theorem skillPlace_of_stored {r : FlagRange} (h : t ∈ SkillType.stored) :
    skillPlace r c t = r.pointer (row c t) := by
  obtain ⟨slot, hslot, -⟩ := SkillType.stored_slot h
  rw [skillPlace, row, hslot]
  rfl

/-- A mark within its range has the flag at its index. -/
theorem place_of_inRange (h : k.InRange) : k.place = .ok (some k.flag) := by
  have hpointer : k.range.pointer k.index = .ok k.flag := FlagRange.pointer_of_lt (index_lt h)
  have hplace : some <$> k.range.pointer k.index = .ok (some k.flag) := by
    rw [hpointer]
    rfl
  cases k with
  | unique => exact h.elim
  | combat n => exact (if_neg (Nat.not_le.2 (index_lt h))).trans hplace
  | skillSelected c t => rw [place, skillPlace_of_stored h.2]; exact hplace
  | skillUnseen c t => rw [place, skillPlace_of_stored h.2]; exact hplace
  | _ => exact hplace

/-- A skill that is not stored for one of the cast has no flag. -/
theorem skillPlace_error {r : FlagRange} (hr : r.count = 6 * FlagRange.perCharacter)
    (h : ¬(c.isCast = true ∧ t ∈ SkillType.stored)) :
    ∃ e, skillPlace r c t = .error e ∧ e.IsRefusal := by
  by_cases ht : t ∈ SkillType.stored
  · have hle : r.count ≤ row c t := hr ▸ le_row fun hc => h ⟨hc, ht⟩
    exact ⟨_, (skillPlace_of_stored ht).trans (FlagRange.pointer_of_le hle), rfl⟩
  · refine ⟨.noSkillFlag t r.name, ?_, rfl⟩
    rw [skillPlace, SkillType.slot?_eq_none ht]

/-- A mark past its range has no flag, and only a combat needs none. -/
theorem place_of_not_inRange (hk : k.Keyed) (h : ¬k.InRange) (hcombat : ∀ n, k ≠ .combat n) :
    ∃ e, k.place = .error e ∧ e.IsRefusal := by
  have hmap : ∀ {x : Except Fault EventPtr}, (∃ e, x = .error e ∧ e.IsRefusal) →
      ∃ e, some <$> x = .error e ∧ e.IsRefusal := by
    rintro _ ⟨e, rfl, he⟩
    exact ⟨e, rfl, he⟩
  cases k with
  | unique => exact hk.elim
  | combat n => exact absurd rfl (hcombat n)
  | skillSelected c t | skillUnseen c t => exact hmap (skillPlace_error rfl h)
  | _ => exact hmap ⟨_, FlagRange.pointer_of_le (Nat.le_of_not_lt h), rfl⟩

/-- Marks with one flag are the same. -/
theorem eq_of_location_flag (h : k.InRange) (h' : k'.InRange)
    (heq : k.flag.location = k'.flag.location) : k = k' := by
  by_cases hrange : k.range = k'.range
  · obtain ⟨hflag, hlt⟩ := toNat_flag h
    obtain ⟨hflag', hlt'⟩ := toNat_flag h'
    have hsame : k.flag = k'.flag := (EventPtr.location_eq_iff hlt').1 heq
    have hindex : k.index = k'.index := by
      rw [hsame, hflag', hrange] at hflag
      omega
    have hmark := ofIndex_index h
    rw [hrange, hindex, ofIndex_index h'] at hmark
    exact (Option.some.inj hmark).symm
  · exact absurd heq (FlagRange.location_ne_of_mem k.range_mem_all k'.range_mem_all hrange
      (mem_range (place_of_inRange h)) (mem_range (place_of_inRange h')))

end Mark

namespace EventPtr

/-- A number of the complex record names a byte of that record. -/
theorem complexEvents_le_location {p : EventPtr} (hp : complexBase ≤ p) :
    Layout.complexEvents ≤ p.location.1 := by
  have hge : 0xdac0 ≤ p.toNat := UInt16.le_iff_toNat_le.1 hp
  rw [location_eq_seat, seat, Layout.complexEvents]
  dsimp only
  split_ifs <;> dsimp only <;> omega

/-- Only numbers of the complex record name whole bytes. -/
theorem complexEvents_le_of_resolve {p : EventPtr} {byte : Nat}
    (h : p.resolve = .complexByte byte) : Layout.complexEvents ≤ byte := by
  have hp : complexBase ≤ p := UInt16.not_lt.1 fun hlt => by
    rw [resolve_of_lt hlt] at h
    cases h
  have hle := complexEvents_le_location hp
  rwa [location, h] at hle

end EventPtr

/-- The write goes to numbers of the complex record and to no others. -/
def FlagWrite.IsComplex (w : FlagWrite) : Prop :=
  (∃ byte, w.pointer.resolve = .complexByte byte) ∨ ∀ p ∈ w.pointers, EventPtr.complexBase ≤ p

namespace Image

variable {m m' : Image} {k k' : Mark}

/-- A mark within its range reads as the bit of its flag. -/
theorem marked_of_inRange (hm : Layout.size ≤ m.size) (h : k.InRange) :
    m.marked k = .ok (m.bit k.flag.location) := by
  rw [marked_of_place (Mark.place_of_inRange h), readFlag_eq hm]

theorem run_setMark_of_inRange (hm : Layout.size ≤ m.size) (h : k.InRange) (on : Bool) :
    (setMark k on).run m = (.ok (), m.withFlag k.flag on) := by
  rw [setMark_of_place (Mark.place_of_inRange h), run_setFlag hm]

/-- The images have the same bytes before the complex record. -/
structure SameSimple (m m' : Image) : Prop where
  size : m'.size = m.size
  byteAt : ∀ i < Layout.complexEvents, m'.byteAt i = m.byteAt i

theorem SameSimple.refl (m : Image) : SameSimple m m := ⟨rfl, fun _ _ => rfl⟩

theorem SameSimple.trans {m'' : Image} (h : SameSimple m m') (h' : SameSimple m' m'') :
    SameSimple m m'' :=
  ⟨h'.size.trans h.size, fun i hi => (h'.byteAt i hi).trans (h.byteAt i hi)⟩

/-- A byte of the complex record is none of those before it. -/
theorem sameSimple_put {i : Nat} (hi : Layout.complexEvents ≤ i) (b : UInt8) :
    SameSimple m (m.put i b) :=
  ⟨size_put m i b, fun _ hj => byteAt_put_of_ne m b (Nat.ne_of_gt (Nat.lt_of_lt_of_le hj hi))⟩

/-- No mark is read from the complex record. -/
theorem SameSimple.marked (h : SameSimple m m') (hm : Layout.size ≤ m.size) (hk : k.InRange) :
    m'.marked k = m.marked k := by
  obtain ⟨-, hlt⟩ := Mark.toNat_flag hk
  have hbyte : k.flag.location.1 < Layout.complexEvents := by
    rw [EventPtr.location_eq_seat, EventPtr.seat, if_pos (by omega), Layout.complexEvents]
    dsimp only
    omega
  rw [marked_of_inRange (by rwa [h.size]) hk, marked_of_inRange hm hk, bit, bit, h.byteAt _ hbyte]

theorem sameSimple_setFlag (hm : Layout.size ≤ m.size) {p : EventPtr}
    (hp : EventPtr.complexBase ≤ p) (on : Bool) : SameSimple m ((setFlag p on).run m).2 := by
  rw [run_setFlag hm]
  exact sameSimple_put (EventPtr.complexEvents_le_location hp) _

theorem sameSimple_setFlags (hm : Layout.size ≤ m.size) {ps : List EventPtr}
    (hps : ∀ p ∈ ps, EventPtr.complexBase ≤ p) (on : Bool) :
    SameSimple m ((setFlags on ps).run m).2 := by
  induction ps generalizing m with
  | nil => exact .refl m
  | cons p rest ih =>
    obtain ⟨hp, hrest⟩ := List.forall_mem_cons.1 hps
    have hfirst := sameSimple_setFlag hm hp on
    rw [setFlags, Step.run_bind_ok (run_setFlag hm p on)]
    rw [run_setFlag hm] at hfirst
    exact hfirst.trans (ih (by rwa [size_withFlag]) hrest)

theorem sameSimple_applyWrite (hm : Layout.size ≤ m.size) {w : FlagWrite} (hw : w.IsComplex) :
    SameSimple m ((applyWrite w).run m).2 := by
  unfold applyWrite
  split
  · rename_i byte hbyte
    have hle := EventPtr.complexEvents_le_of_resolve hbyte
    have hend := EventPtr.lt_of_resolve_complexByte hbyte
    rw [Step.run_update_ok (by rw [readU8_of_le (by omega)]; rfl)]
    exact sameSimple_put hle _
  · rename_i hbits
    refine sameSimple_setFlags hm (hw.resolve_left ?_) _
    rintro ⟨byte, hbyte⟩
    exact hbits byte hbyte

/--
In an image that reaches to the end of the flags, to write a mark within its range makes it read as
written and leaves what is read for every other such mark as it was. Past its range a combat is
accepted and ignored, and any other mark is refused; the image stays what it was. Nothing that is
written to the complex record changes what is read for a mark.
-/
theorem setMark_apart (hm : Layout.size ≤ m.size) :
    (∀ k : Mark, k.InRange → ∀ on, ∃ m', (setMark k on).run m = (.ok (), m') ∧
      m'.marked k = .ok on ∧ ∀ k' : Mark, k'.InRange → k' ≠ k →
        ∃ old, m.marked k' = .ok old ∧ m'.marked k' = .ok old) ∧
    (∀ n, ¬(Mark.combat n).InRange → ∀ on, (setMark (.combat n) on).run m = (.ok (), m)) ∧
    (∀ k : Mark, k.Keyed → ¬k.InRange → (∀ n, k ≠ .combat n) → ∀ on, ∃ e,
      (setMark k on).run m = (.error e, m) ∧ m.marked k = .error e ∧ e.IsRefusal) ∧
    (∀ p : EventPtr, EventPtr.complexBase ≤ p → ∀ on, ∀ k : Mark, k.InRange →
      ((setFlag p on).run m).2.marked k = m.marked k) ∧
    ∀ w : FlagWrite, w.IsComplex → ∀ k : Mark, k.InRange →
      ((applyWrite w).run m).2.marked k = m.marked k := by
  refine ⟨fun k hk on => ?_, fun n hn on => ?_, fun k hkeyed hk hcombat on => ?_,
    fun p hp on k hk => (sameSimple_setFlag hm hp on).marked hm hk,
    fun w hw k hk => (sameSimple_applyWrite hm hw).marked hm hk⟩
  · refine ⟨_, run_setMark_of_inRange hm hk on, ?_,
      fun k' hk' hne => ⟨_, marked_of_inRange hm hk', ?_⟩⟩
    · rw [marked_of_inRange (by rwa [size_withFlag]) hk, bit_withFlag hm, if_pos rfl]
    · rw [marked_of_inRange (by rwa [size_withFlag]) hk', bit_withFlag hm,
        if_neg fun heq => hne (Mark.eq_of_location_flag hk' hk heq)]
  · have hplace : (Mark.combat n).place = .ok none := if_pos (Nat.le_of_not_lt hn)
    rw [setMark, hplace]
    rfl
  · obtain ⟨e, hplace, he⟩ := Mark.place_of_not_inRange hkeyed hk hcombat
    refine ⟨e, ?_, ?_, he⟩
    · rw [setMark, hplace]
      rfl
    · rw [marked, hplace]
      rfl

/-- In a blank image, the last door is opened without the first lock being seen, there is no door
after it, the first combat past the range is ignored, and a write to the complex record opens no
door. -/
theorem setMark_apart_last_door :
    Layout.size ≤ (zeroed Layout.size).size ∧
      (∃ m', (setMark (.door 0x103) true).run (zeroed Layout.size) = (.ok (), m') ∧
        m'.marked (.door 0x103) = .ok true ∧ m'.marked (.lockSeen 0) = .ok false) ∧
      (∃ e, (setMark (.door 0x104) true).run (zeroed Layout.size) =
        (.error e, zeroed Layout.size) ∧ e.IsRefusal) ∧
      (setMark (.combat 0x3e8) true).run (zeroed Layout.size) = (.ok (), zeroed Layout.size) ∧
      ((setFlag 0xdac0 true).run (zeroed Layout.size)).2.marked (.door 0) = .ok false ∧
      ((applyWrite ⟨0xdac0, 0, 0xff, 0, 0⟩).run (zeroed Layout.size)).2.marked (.door 0) =
        .ok false := by
  have hdoor : (Mark.door 0x103).InRange := by decide
  have hlock : (Mark.lockSeen 0).InRange := by decide
  have hfirst : (Mark.door 0).InRange := by decide
  have hblank : ∀ {k : Mark}, k.InRange → (zeroed Layout.size).marked k = .ok false := fun hk => by
    rw [marked_of_inRange full_zeroed hk, bit_zeroed]
  obtain ⟨hwritten, hcombat, hrefused, hflag, hbyte⟩ := setMark_apart full_zeroed
  refine ⟨full_zeroed, ?_, ?_, hcombat _ (by decide) true, ?_, ?_⟩
  · obtain ⟨m', hrun, hread, hothers⟩ := hwritten _ hdoor true
    obtain ⟨old, hold, hkept⟩ := hothers _ hlock (by decide)
    rw [hblank hlock] at hold
    cases hold
    exact ⟨m', hrun, hread, hkept⟩
  · obtain ⟨e, hrun, -, he⟩ := hrefused (.door 0x104) trivial (by decide) (by simp) true
    exact ⟨e, hrun, he⟩
  · rw [hflag 0xdac0 (by decide) true _ hfirst, hblank hfirst]
  · rw [hbyte _ (.inl ⟨0xb09, rfl⟩) _ hfirst, hblank hfirst]

end Image

end QuestLogic
