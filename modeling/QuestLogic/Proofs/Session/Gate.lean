import QuestLogic.Proofs.Session.Encounter
import QuestLogic.Proofs.Session.Opening

/-!
# What the gates make of a flag

A flag is written as one bit, and the gates that look at it do not all look at that bit: a choice
and an encounter ask whether the value at its number is zero, and the value at a number of the
complex record is the eight bits from its seat on. The gates never disagree with one another
(`Session.run_setEvent_gates`). With what has been written they agree for every flag that is set and
every flag of the simple record; a flag of the complex record that has been cleared passes for clear
just if none of the seven bits after its own is set (`Session.setEvent_gates_iff`).
-/

namespace QuestLogic

/-- The bits that are part of the value at a number besides the one at its seat: none in the simple
record, and the next seven in the complex one. -/
def EventPtr.neighbours (p : EventPtr) : List (Nat × Nat) :=
  if p.toNat < 0xdac0 then [] else (List.range 7).map fun j => bitAfter p.seat (j + 1)

namespace EventPtr

variable {p : EventPtr}

theorem neighbours_of_lt (h : p.toNat < 0xdac0) : p.neighbours = [] := if_pos h

/-- The value at a number has one bit at its seat and the others at its neighbours. -/
theorem mem_neighbours {l : Nat × Nat} :
    l ∈ p.neighbours ↔ ∃ j, j + 1 < p.resolve.width ∧ bitAfter p.location (j + 1) = l := by
  unfold neighbours
  rw [location_eq_seat]
  by_cases h : p < complexBase
  · have hlt : p.toNat < 0xdac0 := UInt16.lt_iff_toNat_lt.1 h
    rw [if_pos hlt, resolve_of_lt h]
    simp [EventAddress.width]
  · have hge : ¬p.toNat < 0xdac0 := fun hlt => h (UInt16.lt_iff_toNat_lt.2 hlt)
    have hwidth : p.resolve.width = 8 := by
      rw [resolve_of_not_lt h]
      split_ifs <;> rfl
    rw [if_neg hge, hwidth]
    simp only [List.mem_map, List.mem_range]
    exact exists_congr fun j => and_congr_left' Nat.succ_lt_succ_iff.symm

/-- No number is a neighbour of itself. -/
theorem location_ne_of_mem_neighbours {l : Nat × Nat} (hl : l ∈ p.neighbours) : l ≠ p.location := by
  obtain ⟨j, hj, rfl⟩ := mem_neighbours.1 hl
  have hwidth : p.resolve.width ≤ 8 := by
    cases p.resolve <;> simp [EventAddress.width]
  have hbit := p.location_snd_lt
  intro heq
  have hsnd : (p.location.2 + (j + 1)) % 8 = p.location.2 := congrArg Prod.snd heq
  omega

end EventPtr

namespace Image

variable {m : Image} {p : EventPtr} {on : Bool}

/-- The value at a number is not zero if its bit is set or one of its neighbours is. -/
theorem isSet_iff : m.IsSet p ↔ m.bit p.location = true ∨ p.neighbours.any m.bit = true := by
  simp only [List.any_eq_true, EventPtr.mem_neighbours]
  constructor
  · rintro ⟨_ | j, hj, hbit⟩
    · rw [EventPtr.bitAfter_location_zero] at hbit
      exact .inl hbit
    · exact .inr ⟨_, ⟨j, hj, rfl⟩, hbit⟩
  · rintro (hbit | ⟨l, ⟨j, hj, rfl⟩, hbit⟩)
    · refine ⟨0, ?_, by rwa [EventPtr.bitAfter_location_zero]⟩
      cases p.resolve <;> simp [EventAddress.width]
    · exact ⟨j + 1, hj, hbit⟩

/-- The neighbours of a flag are what they were when it is written. -/
theorem any_neighbours_withFlag (hm : Layout.size ≤ m.size) (p : EventPtr) (on : Bool) :
    p.neighbours.any (m.withFlag p on).bit = p.neighbours.any m.bit := by
  rw [Bool.eq_iff_iff, List.any_eq_true, List.any_eq_true]
  have hkept : ∀ l ∈ p.neighbours, (m.withFlag p on).bit l = m.bit l := by
    intro l hl
    rw [bit_withFlag hm, if_neg (EventPtr.location_ne_of_mem_neighbours hl)]
  constructor
  · rintro ⟨l, hl, hbit⟩
    exact ⟨l, hl, hkept l hl ▸ hbit⟩
  · rintro ⟨l, hl, hbit⟩
    exact ⟨l, hl, (hkept l hl).symm ▸ hbit⟩

/-- Once a flag has been written, the value at its number is not zero if it was set or a neighbour
is. -/
theorem isSet_withFlag (hm : Layout.size ≤ m.size) (p : EventPtr) (on : Bool) :
    (m.withFlag p on).IsSet p ↔ (on || p.neighbours.any m.bit) = true := by
  rw [isSet_iff, any_neighbours_withFlag hm, bit_withFlag hm, if_pos rfl, Bool.or_eq_true]

end Image

namespace Session

variable {s t : Session} {m : Image} {p : EventPtr} {on on' : Bool}

/-- The gates that look at a flag: a choice about it, and the two conditions of an encounter, which
either keep the encounter from happening or are as good as no condition. -/
structure GatesRead (t : Session) (p : EventPtr) (on : Bool) : Prop where
  choice : ∀ expected, t.holds (.eventFlag p expected) = .ok (on == expected)
  requireSet : ∀ e : Encounter, t.isBlocked { e with requireSet := p } =
    if on then t.isBlocked { e with requireSet := 0 } else .ok true
  requireClear : ∀ e : Encounter, t.isBlocked { e with requireClear := p } =
    if on then .ok true else t.isBlocked { e with requireClear := 0 }

/-- A choice holds for one value of a flag only. -/
theorem GatesRead.unique (h : t.GatesRead p on) (h' : t.GatesRead p on') : on = on' := by
  have heq := (h.choice true).symm.trans (h'.choice true)
  rw [Except.ok.injEq, beq_true, beq_true] at heq
  exact heq

/-- The gates look at whether the value at a number is zero. -/
theorem gatesRead_of_eventState {v : UInt8} (hsave : t.save = some m) (hm : Layout.size ≤ m.size)
    (hp : p ≠ 0) (hv : t.eventState p = .ok v) : t.GatesRead p (decide (v ≠ 0)) := by
  -- Whatever else an encounter asks for can be read.
  have hflag : ∀ value, t.flagIs p value = .ok (decide (decide (v ≠ 0) = value)) := by
    intro value
    rw [flagIs, if_neg hp, hv]
    rfl
  have hother : ∀ q value, ∃ b, t.flagIs q value = .ok b := fun q value =>
    (flagIs_eq hsave hm q value).imp fun _ h => h.1
  have hnone : ∀ value, t.flagIs 0 value = .ok false := fun _ => if_pos rfl
  refine ⟨fun expected => ?_, fun e => ?_, fun e => ?_⟩
  · rw [holds, hv]
    rfl
  · obtain ⟨b, hb⟩ := hother e.requireClear true
    simp only [isBlocked, hflag, hnone, hb]
    cases hon : decide (v ≠ 0) <;> rfl
  · obtain ⟨b, hb⟩ := hother e.requireSet false
    simp only [isBlocked, hflag, hnone, hb]
    cases hon : decide (v ≠ 0) <;> cases b <;> rfl

/-- Writing a flag goes through, and then every gate takes it to be set if it was set or a neighbour
is. -/
theorem run_setEvent_gates (hsave : s.save = some m) (hm : Layout.size ≤ m.size) (hp : p ≠ 0)
    (hchapter : p ≠ chapterPointer) (on : Bool) :
    ∃ t, (setEvent p on).run s = (.ok (), t) ∧ t.GatesRead p (on || p.neighbours.any m.bit) := by
  let t : Session := { s with save := some (m.withFlag p on) }
  have hrun : (setEvent p on).run s = (.ok (), t) := run_setEvent_of_save hsave hm p on
  have htsave : t.save = some (m.withFlag p on) := rfl
  have htm : Layout.size ≤ (m.withFlag p on).size := by rwa [Image.size_withFlag]
  obtain ⟨v, hv, hset⟩ := eventState_eq htsave htm p
  have hvalue : decide (v ≠ 0) = (on || p.neighbours.any m.bit) := by
    rw [Bool.eq_iff_iff, decide_eq_true_eq, hset, IsSet, if_neg hchapter, Image.isSet_withFlag hm]
  refine ⟨t, hrun, ?_⟩
  rw [← hvalue]
  exact gatesRead_of_eventState htsave htm hp hv

/--
Writing a flag to an image that reaches to the end of the flags goes through. Then all gates agree
on the flag: they take it to be set if it was set, or if one of its neighbours is. So they agree
with what was written just if it was set or none of its neighbours is, and of the simple record they
always do.
-/
theorem setEvent_gates_iff (hsave : s.save = some m) (hm : Layout.size ≤ m.size) (hp : p ≠ 0)
    (hchapter : p ≠ chapterPointer) (on : Bool) :
    ∃ t, (setEvent p on).run s = (.ok (), t) ∧
      t.GatesRead p (on || p.neighbours.any m.bit) ∧
      (t.GatesRead p on ↔ on = true ∨ ∀ l ∈ p.neighbours, m.bit l = false) ∧
      (p.toNat < 0xdac0 → t.GatesRead p on) := by
  obtain ⟨t, hrun, hgates⟩ := run_setEvent_gates hsave hm hp hchapter on
  have hagree : (on || p.neighbours.any m.bit) = on ↔
      on = true ∨ ∀ l ∈ p.neighbours, m.bit l = false := by
    rcases on with _ | _
    · simp
    · simp
  refine ⟨t, hrun, hgates, ?_, fun hlt => ?_⟩
  · rw [← hagree]
    constructor
    · exact fun h => hgates.unique h
    · intro h
      rwa [h] at hgates
  · rw [EventPtr.neighbours_of_lt hlt, List.any_nil, Bool.or_false] at hgates
    exact hgates

/-- On a blank image a flag of the complex record that has been cleared passes for clear. -/
theorem setEvent_gates_iff_onBlank :
    onBlank.save = some (.zeroed Layout.size) ∧ Layout.size ≤ (Image.zeroed Layout.size).size ∧
      (0xdac1 : EventPtr) ≠ 0 ∧ (0xdac1 : EventPtr) ≠ chapterPointer ∧
      ∃ t, (setEvent 0xdac1 false).run onBlank = (.ok (), t) ∧ t.GatesRead 0xdac1 false := by
  have hm : Layout.size ≤ (Image.zeroed Layout.size).size := Image.full_zeroed
  have hp : (0xdac1 : EventPtr) ≠ 0 := by decide
  have hchapter : (0xdac1 : EventPtr) ≠ chapterPointer := by decide
  obtain ⟨t, hrun, -, hgates, -⟩ := setEvent_gates_iff (s := onBlank) rfl hm hp hchapter false
  exact ⟨rfl, hm, hp, hchapter, t, hrun, hgates.2 (.inr fun l _ => Image.bit_zeroed _ l)⟩

/-- Where the bit after it is set, a flag of the complex record that has been cleared passes for set
at every gate. -/
theorem setEvent_gates_beside_set_flag :
    ∃ (s : Session) (m : Image), s.save = some m ∧ Layout.size ≤ m.size ∧
      (0xdac1 : EventPtr) ≠ 0 ∧ (0xdac1 : EventPtr) ≠ chapterPointer ∧
      ∃ t, (setEvent 0xdac1 false).run s = (.ok (), t) ∧
        t.holds (.eventFlag 0xdac1 false) = .ok false ∧
        t.isBlocked { ambush with requireClear := 0xdac1 } = .ok true ∧
        ¬t.GatesRead 0xdac1 false := by
  let m : Image := (Image.zeroed Layout.size).withFlag 0xdac2 true
  have hm : Layout.size ≤ m.size := by
    rw [Image.size_withFlag]
    exact Image.full_zeroed
  have hp : (0xdac1 : EventPtr) ≠ 0 := by decide
  have hchapter : (0xdac1 : EventPtr) ≠ chapterPointer := by decide
  have hset : m.bit (0xb09, 1) = true := by
    rw [Image.bit_withFlag Image.full_zeroed, if_pos (by decide)]
  have hbeside : (false || (0xdac1 : EventPtr).neighbours.any m.bit) = true := by
    rw [Bool.false_or, List.any_eq_true]
    exact ⟨(0xb09, 1), by decide, hset⟩
  obtain ⟨t, hrun, hgates⟩ :=
    run_setEvent_gates (s := { onBlank with save := some m }) rfl hm hp hchapter false
  rw [hbeside] at hgates
  refine ⟨_, m, rfl, hm, hp, hchapter, t, hrun, hgates.choice false, hgates.requireClear ambush, ?_⟩
  intro hclear
  cases hclear.unique hgates

end Session

end QuestLogic
