import QuestLogic.Event.Mark
import QuestLogic.Proofs.Event.ReadWrite

/-!
# Marks and their flags

A mark that has a flag is read and written through that flag. The flags of the encounters that are
met once in a chapter are numbered by zone, tile and place on the tile, forty tiles to the zone; but
a tile may have any number, so that the fortieth of one zone is the first of the next
(`Image.setMark_unique_frame`).
-/

namespace QuestLogic

namespace FlagRange

theorem pointer_of_lt {r : FlagRange} {i : Nat} (h : i < r.count) :
    r.pointer i = .ok (.ofNat (r.base + i)) := if_pos h

theorem pointer_of_le {r : FlagRange} {i : Nat} (h : r.count ≤ i) :
    r.pointer i = .error (.outsideRange r.name i r.count) := if_neg (Nat.not_lt.2 h)

/-- A flag at an index of a range is one of its flags. -/
theorem mem_pointers {r : FlagRange} {i : Nat} {p : EventPtr} (h : r.pointer i = .ok p) :
    p ∈ r.pointers := by
  unfold FlagRange.pointer at h
  split_ifs at h with hi
  cases h
  exact List.mem_map.2 ⟨i, List.mem_range.2 hi, rfl⟩

/-- An index past a range is no fault of the image. -/
theorem pointer_error {r : FlagRange} {i : Nat} {e : Fault} (h : r.pointer i = .error e) :
    e.isCorruption = false := by
  unfold FlagRange.pointer at h
  split_ifs at h
  cases h
  rfl

end FlagRange

namespace Mark

/-- To have no flag is no fault of the image. -/
theorem place_error {k : Mark} {e : Fault} (h : k.place = .error e) : e.isCorruption = false := by
  have hsome : ∀ x : Except Fault EventPtr, (some <$> x) = .error e → x = .error e := by
    rintro (e' | p) h'
    · cases h'
      rfl
    · cases h'
  cases k with
  | combat n =>
    rw [Mark.place] at h
    split_ifs at h
    exact FlagRange.pointer_error (hsome _ h)
  | unique z t n =>
    have h' := hsome _ h
    unfold Mark.uniquePlace at h'
    split_ifs at h'
    · cases h'
      rfl
    · exact FlagRange.pointer_error h'
  | skillSelected c t | skillUnseen c t =>
    have h' := hsome _ h
    unfold Mark.skillPlace at h'
    split at h'
    · exact FlagRange.pointer_error h'
    · cases h'
      rfl
  | _ => exact FlagRange.pointer_error (hsome _ h)

/-- The range that has the flags of marks of a kind. -/
def range : Mark → FlagRange
  | door _ => .door
  | lockSeen _ => .lockSeen
  | templeSeen _ => .templeSeen
  | itemUsed _ => .itemUsed
  | discussed _ => .conversationDiscussed
  | inhibited _ => .conversationInhibited
  | recent _ => .recentEncounter
  | scouted _ => .combatScouted
  | unique _ _ _ => .uniqueEncounter
  | combat _ => .combatEncounter
  | skillSelected _ _ => .skillSelected
  | skillUnseen _ _ => .skillImprovement

theorem range_mem_all (k : Mark) : k.range ∈ FlagRange.all := by
  cases k
  all_goals
    rw [range]
    decide

/-- The flag of a mark is one of its range. -/
theorem mem_range {k : Mark} {p : EventPtr} (h : k.place = .ok (some p)) :
    p ∈ k.range.pointers := by
  have hsome : ∀ x : Except Fault EventPtr, (some <$> x) = .ok (some p) → x = .ok p := by
    rintro (e | q) h'
    · cases h'
    · cases h'
      rfl
  cases k with
  | combat n =>
    rw [Mark.place] at h
    split_ifs at h
    · cases h
    · exact FlagRange.mem_pointers (hsome _ h)
  | unique z t n =>
    have h' := hsome _ h
    unfold Mark.uniquePlace at h'
    split_ifs at h'
    exact FlagRange.mem_pointers h'
  | skillSelected c t | skillUnseen c t =>
    have h' := hsome _ h
    unfold Mark.skillPlace at h'
    split at h'
    · exact FlagRange.mem_pointers h'
    · cases h'
  | _ => exact FlagRange.mem_pointers (hsome _ h)

/-! ## Encounters met once in a chapter -/

/-- The position of an encounter among the flags of those that are met once in a chapter. -/
def uniqueIndex (zone : Zone) (tile encounter : UInt8) : Nat :=
  (zone.val.toNat - 1) * encountersPerZone + tile.toNat * encountersPerTile + encounter.toNat

/-- Which encounters have a flag among those that are met once in a chapter. -/
theorem uniquePlace_eq_ok {zone : Zone} {tile encounter : UInt8} {p : EventPtr} :
    uniquePlace zone tile encounter = .ok p ↔
      zone.val ≠ 0 ∧ encounter.toNat < 10 ∧ uniqueIndex zone tile encounter < 0x12c0 ∧
        p = UInt16.ofNat (0x190 + uniqueIndex zone tile encounter) := by
  unfold uniquePlace
  -- Without a zone, or past the ten places of a tile, a key is refused before anything is counted.
  by_cases hkey : zone.val ≠ 0 ∧ encounter.toNat < 10
  · obtain ⟨hzone, hplace⟩ := hkey
    have hplace' : ¬encountersPerTile ≤ encounter.toNat := Nat.not_le.2 hplace
    rw [if_neg (by simp [hzone, hplace']), FlagRange.pointer]
    change (if uniqueIndex zone tile encounter < 0x12c0 then _ else _) = _ ↔ _
    split_ifs with hrange
    · simp only [Except.ok.injEq, hplace, hrange, true_and, ne_eq, hzone, not_false_eq_true]
      exact eq_comm
    · simp only [hrange, false_and, and_false]
  · have hbad : zone.val = 0 ∨ encountersPerTile ≤ encounter.toNat := by
      rwa [Decidable.not_and_iff_or_not, Decidable.not_not, Nat.not_lt] at hkey
    rw [if_pos (by simpa using hbad), ← and_assoc]
    simp only [hkey, false_and, reduceCtorEq]

/-- Two encounters share a position if they have the same place on tiles that are numbered alike
when the zones, of forty tiles each, are counted through. -/
theorem uniqueIndex_eq_iff {zone zone' : Zone} {tile tile' encounter encounter' : UInt8}
    (hzone : zone.val ≠ 0) (hzone' : zone'.val ≠ 0) (hplace : encounter.toNat < 10)
    (hplace' : encounter'.toNat < 10) :
    uniqueIndex zone tile encounter = uniqueIndex zone' tile' encounter' ↔
      encounter = encounter' ∧
        40 * zone.val.toNat + tile.toNat = 40 * zone'.val.toNat + tile'.toNat := by
  have h : zone.val.toNat ≠ 0 := fun h => hzone (UInt8.toNat_inj.1 h)
  have h' : zone'.val.toNat ≠ 0 := fun h => hzone' (UInt8.toNat_inj.1 h)
  rw [uniqueIndex, uniqueIndex, encountersPerZone, encountersPerTile, ← UInt8.toNat_inj]
  -- The place is what is left over by ten; the tiles and zones that remain are counted together.
  omega

/-- Positions within the range have flags of their own. -/
theorem location_uniquePointer {i j : Nat} (hi : i < 0x12c0) (hj : j < 0x12c0) :
    EventPtr.location (UInt16.ofNat (0x190 + i)) = EventPtr.location (UInt16.ofNat (0x190 + j)) ↔
      i = j := by
  have hi' : (UInt16.ofNat (0x190 + i)).toNat = 0x190 + i :=
    UInt16.toNat_ofNat_of_lt' (by rw [UInt16.size]; omega)
  have hj' : (UInt16.ofNat (0x190 + j)).toNat = 0x190 + j :=
    UInt16.toNat_ofNat_of_lt' (by rw [UInt16.size]; omega)
  rw [EventPtr.location_inj (by omega) (by omega), ← UInt16.toNat_inj, hi', hj']
  omega

end Mark

namespace Image

variable {m : Image} {k : Mark} {p : EventPtr}

/-- A mark with a flag is read from it. -/
theorem marked_of_place (h : k.place = .ok (some p)) : m.marked k = m.readFlag p := by
  rw [marked, h]
  rfl

/-- A mark with a flag is written to it. -/
theorem setMark_of_place (h : k.place = .ok (some p)) (on : Bool) :
    setMark k on = setFlag p on := by
  rw [setMark, h]

/-- In an image that reaches to the end of the flags a mark is accepted just if it has a flag or
needs none. -/
theorem run_setMark_eq_ok (hm : Layout.size ≤ m.size) {on : Bool} :
    ((setMark k on).run m).1 = .ok () ↔ ∃ p, k.place = .ok p := by
  rw [setMark]
  rcases h : k.place with e | _ | p
  · simp
  · simp
  · simp [run_setFlag hm]

theorem place_unique {z : Zone} {t n : UInt8} {p : Option EventPtr} :
    (Mark.unique z t n).place = .ok p ↔ ∃ q, Mark.uniquePlace z t n = .ok q ∧ p = some q := by
  rw [Mark.place]
  rcases Mark.uniquePlace z t n with e | q
  · simp [Functor.map, Except.map]
  · simp [Functor.map, Except.map, eq_comm]

/-- Writing a flag leaves what is read for another number alone just if it names another bit. -/
theorem setFlag_frame_iff (hm : Layout.size ≤ m.size) {p q : EventPtr} :
    (∀ v, ((setFlag p v).run m).2.readFlag q = m.readFlag q) ↔ q.location ≠ p.location := by
  simp only [run_setFlag hm, readFlag_withFlag hm]
  constructor
  -- If both name the same bit, then writing its opposite is seen.
  · intro h heq
    have hnot := h !m.bit q.location
    rw [if_pos heq, readFlag_eq hm, Except.ok.injEq] at hnot
    exact absurd hnot (Bool.not_not_eq.2 rfl)
  · intro hne v
    rw [if_neg hne]

/--
Setting or clearing the mark of one encounter that is met once in a chapter leaves what is read for
another alone, unless both have the same place on tiles that are numbered alike when the zones are
counted through, forty tiles to each. So encounters that differ, on tiles below forty, are kept
apart.
-/
theorem setMark_unique_frame (hm : Layout.size ≤ m.size) {z z' : Zone} {t t' n n' : UInt8}
    {on on' : Bool} (hk : ((setMark (.unique z t n) on).run m).1 = .ok ())
    (hk' : ((setMark (.unique z' t' n') on').run m).1 = .ok ()) :
    ((∀ v, ((setMark (.unique z t n) v).run m).2.marked (.unique z' t' n') =
        m.marked (.unique z' t' n')) ↔
      ¬(n = n' ∧ 40 * z.val.toNat + t.toNat = 40 * z'.val.toNat + t'.toNat)) ∧
    (t.toNat < 40 → t'.toNat < 40 → (z, t, n) ≠ (z', t', n') →
      ∀ v, ((setMark (.unique z t n) v).run m).2.marked (.unique z' t' n') =
        m.marked (.unique z' t' n')) := by
  obtain ⟨_, hplace⟩ := (run_setMark_eq_ok hm).1 hk
  obtain ⟨p, hp, rfl⟩ := place_unique.1 hplace
  obtain ⟨_, hplace'⟩ := (run_setMark_eq_ok hm).1 hk'
  obtain ⟨q, hq, rfl⟩ := place_unique.1 hplace'
  obtain ⟨hz, hn, hi, rfl⟩ := Mark.uniquePlace_eq_ok.1 hp
  obtain ⟨hz', hn', hi', rfl⟩ := Mark.uniquePlace_eq_ok.1 hq
  simp only [setMark_of_place hplace, marked_of_place hplace', setFlag_frame_iff hm]
  rw [Ne, Mark.location_uniquePointer hi' hi, eq_comm,
    Mark.uniqueIndex_eq_iff hz hz' hn hn']
  refine ⟨Iff.rfl, fun ht ht' hne heq => hne ?_⟩
  -- With fewer than forty tiles to each, zone and tile can be told from the count.
  obtain ⟨rfl, hzt⟩ := heq
  have hzone : z.val = z'.val := UInt8.toNat_inj.1 (by omega)
  have htile : t = t' := UInt8.toNat_inj.1 (by omega)
  cases z
  cases z'
  cases hzone
  rw [htile]

/-- The last encounter of a zone of forty tiles and the first of the next zone are kept apart. -/
theorem setMark_unique_frame_next_zone :
    Layout.size ≤ (zeroed Layout.size).size ∧
      ((setMark (.unique ⟨1⟩ 39 9) true).run (zeroed Layout.size)).1 = .ok () ∧
      ((setMark (.unique ⟨2⟩ 0 0) true).run (zeroed Layout.size)).1 = .ok () ∧
      ∀ v, ((setMark (.unique ⟨1⟩ 39 9) v).run (zeroed Layout.size)).2.marked (.unique ⟨2⟩ 0 0) =
        (zeroed Layout.size).marked (.unique ⟨2⟩ 0 0) := by
  have hm : Layout.size ≤ (zeroed Layout.size).size := Nat.le_of_eq (size_zeroed _).symm
  have hk : ((setMark (.unique ⟨1⟩ 39 9) true).run (zeroed Layout.size)).1 = .ok () :=
    (run_setMark_eq_ok hm).2 ⟨some 0x31f, rfl⟩
  have hk' : ((setMark (.unique ⟨2⟩ 0 0) true).run (zeroed Layout.size)).1 = .ok () :=
    (run_setMark_eq_ok hm).2 ⟨some 0x320, rfl⟩
  exact ⟨hm, hk, hk', (setMark_unique_frame hm hk hk').1.2 (by decide)⟩

/-- In a blank image, to note an encounter on the fortieth tile of the first zone is to note the one
on tile zero of the second, although both are accepted and differ. -/
theorem setMark_unique_tile_forty :
    Mark.unique ⟨1⟩ 40 0 ≠ Mark.unique ⟨2⟩ 0 0 ∧
      (∃ m', (setMark (.unique ⟨1⟩ 40 0) true).run (zeroed Layout.size) = (.ok (), m') ∧
        m'.marked (.unique ⟨2⟩ 0 0) = .ok true) ∧
      ((setMark (.unique ⟨2⟩ 0 0) true).run (zeroed Layout.size)).1 = .ok () ∧
      (zeroed Layout.size).marked (.unique ⟨2⟩ 0 0) = .ok false := by
  have hm : Layout.size ≤ (zeroed Layout.size).size := Nat.le_of_eq (size_zeroed _).symm
  have hp : (Mark.unique ⟨1⟩ 40 0).place = .ok (some 0x320) := rfl
  have hq : (Mark.unique ⟨2⟩ 0 0).place = .ok (some 0x320) := rfl
  refine ⟨by decide, ⟨(zeroed Layout.size).withFlag 0x320 true, ?_, ?_⟩,
    (run_setMark_eq_ok hm).2 ⟨_, hq⟩, ?_⟩
  · rw [setMark_of_place hp, run_setFlag hm]
  · rw [marked_of_place hq, readFlag_withFlag hm, if_pos rfl]
  · rw [marked_of_place hq, readFlag_eq hm, bit, byteAt_zeroed]
    rfl

end Image

end QuestLogic
