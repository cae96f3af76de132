import QuestLogic.Proofs.Session.Event

/-!
# When a combat may happen

A combat may happen if its encounter has not been met in this chapter, the flags that the encounter
names are as they should be, and the combat has not been fought. A combat past the range of combat
flags is never recorded as fought, and all the same it never happens: to be asked for a flag that it
does not have counts as having been fought (`Session.mayFight_iff`).
-/

namespace QuestLogic

namespace Image

/-- Some bit of the value at a number is set. -/
def IsSet (m : Image) (p : EventPtr) : Prop :=
  ∃ j < p.resolve.width, m.bit (bitAfter p.location j) = true

/-- The combat has a flag, and it is set. -/
def Fought (m : Image) (combat : UInt16) : Prop :=
  ∃ p, FlagRange.combatEncounter.pointer combat.toNat = .ok p ∧ m.bit p.location = true

variable {m : Image} {combat : UInt16}

/-- A combat below the end of the range is marked as its flag says. -/
theorem marked_combat (hm : Layout.size ≤ m.size) (h : combat.toNat < 0x3e8) :
    ∃ fought, m.marked (.combat combat) = .ok fought ∧ (fought = true ↔ m.Fought combat) := by
  have hcount : ¬FlagRange.combatEncounter.count ≤ combat.toNat := Nat.not_le.2 h
  have hflag : FlagRange.combatEncounter.pointer combat.toNat =
      .ok (UInt16.ofNat (FlagRange.combatEncounter.base + combat.toNat)) := if_pos h
  have hplace : (Mark.combat combat).place =
      .ok (some (UInt16.ofNat (FlagRange.combatEncounter.base + combat.toNat))) := by
    rw [Mark.place, if_neg hcount, hflag]
    rfl
  refine ⟨_, (marked_of_place hplace).trans (readFlag_eq hm _), fun hbit => ⟨_, hflag, hbit⟩, ?_⟩
  rintro ⟨p, hp, hbit⟩
  rw [hflag, Except.ok.injEq] at hp
  rwa [hp]

/-- A combat past the range has no flag, and counts as marked. -/
theorem marked_combat_of_le (h : 0x3e8 ≤ combat.toNat) :
    m.marked (.combat combat) = .ok true ∧ ¬m.Fought combat := by
  have hcount : FlagRange.combatEncounter.count ≤ combat.toNat := h
  refine ⟨by rw [marked, Mark.place, if_pos hcount]; rfl, ?_⟩
  rintro ⟨p, hp, -⟩
  rw [FlagRange.pointer, if_neg (Nat.not_lt.2 hcount)] at hp
  cases hp

end Image

namespace Session

variable {s : Session} {m : Image} {e : Encounter} {p : EventPtr}

/-- The value at a pointer is not zero. The chapter gauge has the current chapter for its value. -/
def IsSet (s : Session) (m : Image) (p : EventPtr) : Prop :=
  if p = chapterPointer then s.chapter.val ≠ 0 else m.IsSet p

/-- The flags that an encounter names are as they should be; number zero names none. -/
structure Permits (s : Session) (m : Image) (e : Encounter) : Prop where
  set : e.requireSet ≠ 0 → s.IsSet m e.requireSet
  clear : e.requireClear ≠ 0 → ¬s.IsSet m e.requireClear

/-- The marks of a session are those of its image. -/
theorem marked_of_save (hsave : s.save = some m) (k : Mark) : s.marked k = m.marked k := by
  unfold marked
  rw [readSave, hsave]

/-- A flag is read from the image unless it stands for the chapter. -/
theorem eventFlag_eq (hsave : s.save = some m) (hm : Layout.size ≤ m.size) {p : EventPtr}
    (hp : p ≠ chapterPointer) : s.eventFlag p = .ok (m.bit p.location) := by
  rw [eventFlag, if_neg hp, readSave, hsave]
  exact Image.readFlag_eq hm p

/-- A flag that is written is written to the image. -/
theorem run_setEvent_of_save (hsave : s.save = some m) (hm : Layout.size ≤ m.size) (p : EventPtr)
    (on : Bool) :
    (setEvent p on).run s = (.ok (), { s with save := some (m.withFlag p on) }) := by
  rw [setEvent, run_onSave_some hsave, Image.run_setFlag hm]

/-- Every value can be read, and it is zero just if nothing is set there. -/
theorem eventState_eq (hsave : s.save = some m) (hm : Layout.size ≤ m.size) (p : EventPtr) :
    ∃ v, s.eventState p = .ok v ∧ (v ≠ 0 ↔ s.IsSet m p) := by
  unfold eventState IsSet
  split_ifs with hp
  · exact ⟨_, rfl, Iff.rfl⟩
  · obtain ⟨v, hread, hshows⟩ := Image.readEvent_eq hm p
    refine ⟨v, ?_, hshows.ne_zero_iff⟩
    rw [readSave, hsave]
    exact hread

/-- A flag is looked at only if it is one. -/
theorem flagIs_eq (hsave : s.save = some m) (hm : Layout.size ≤ m.size) (p : EventPtr)
    (value : Bool) :
    ∃ b, s.flagIs p value = .ok b ∧ (b = true ↔ p ≠ 0 ∧ (s.IsSet m p ↔ value = true)) := by
  unfold flagIs
  split_ifs with hp
  · exact ⟨false, rfl, by simp [hp]⟩
  · obtain ⟨v, hv, hset⟩ := eventState_eq hsave hm p
    refine ⟨decide (v ≠ 0) = value, by rw [hv]; rfl, ?_⟩
    rw [← hset, and_iff_right hp, decide_eq_true_eq]
    rcases value with _ | _
    · simp
    · simp

/-- An encounter is blocked unless the flags that it names are as they should be. -/
theorem isBlocked_eq (hsave : s.save = some m) (hm : Layout.size ≤ m.size) (e : Encounter) :
    ∃ blocked, s.isBlocked e = .ok blocked ∧ (blocked = true ↔ ¬s.Permits m e) := by
  obtain ⟨missing, hmissing, hset⟩ := flagIs_eq hsave hm e.requireSet false
  obtain ⟨present, hpresent, hclear⟩ := flagIs_eq hsave hm e.requireClear true
  refine ⟨missing || present, by rw [isBlocked, hmissing, hpresent]; rfl, ?_⟩
  rw [Bool.or_eq_true, hset, hclear]
  constructor
  · rintro (⟨hne, hunset⟩ | ⟨hne, hset'⟩) ⟨hneeded, hbarred⟩
    · exact absurd (hunset.1 (hneeded hne)) (by decide)
    · exact hbarred hne (hset'.2 rfl)
  · intro hnot
    by_contra hneither
    obtain ⟨hneeded, hbarred⟩ := not_or.1 hneither
    refine hnot ⟨fun hne => ?_, fun hne hset' => hbarred ⟨hne, iff_of_true hset' rfl⟩⟩
    by_contra hunset
    exact hneeded ⟨hne, iff_of_false hunset (by decide)⟩

/-- What is decided of a combat, once everything has been read. -/
theorem mayFight_of_marked (hsave : s.save = some m) (hm : Layout.size ≤ m.size) {met fought : Bool}
    {combat : UInt16} (hmet : s.marked (s.uniqueMark e) = .ok met)
    (hfought : m.marked (.combat combat) = .ok fought) :
    ∃ may, s.mayFight e combat = .ok may ∧
      (may = true ↔ met = false ∧ s.Permits m e ∧ fought = false) := by
  obtain ⟨blocked, hblocked, hpermits⟩ := isBlocked_eq hsave hm e
  have hread : s.marked (.combat combat) = .ok fought := (marked_of_save hsave _).trans hfought
  refine ⟨!(met || fought || blocked), by rw [mayFight, hmet, hread, hblocked]; rfl, ?_⟩
  have hfree : blocked = false ↔ s.Permits m e := by
    rw [← Bool.not_eq_true, hpermits, not_not]
  rw [← hfree, Bool.not_eq_true', Bool.or_eq_false_iff, Bool.or_eq_false_iff, and_assoc,
    and_comm (a := blocked = false)]

/--
Over an image that reaches to the end of the flags it can always be told whether a combat may
happen, if it can be told whether its encounter has been met in this chapter. A combat that has a
flag may happen just if the encounter has not been met, the flags that it names are as they should
be, and the combat has not been fought. One that has no flag is never recorded as fought, and never
happens.
-/
theorem mayFight_iff (hsave : s.save = some m) (hm : Layout.size ≤ m.size) {met : Bool}
    (hmet : s.marked (s.uniqueMark e) = .ok met) (combat : UInt16) :
    ∃ may, s.mayFight e combat = .ok may ∧
      (combat.toNat < 0x3e8 →
        (may = true ↔ met = false ∧ s.Permits m e ∧ ¬m.Fought combat)) ∧
      (0x3e8 ≤ combat.toNat → ¬m.Fought combat ∧ may = false) := by
  rcases Nat.lt_or_ge combat.toNat 0x3e8 with hlt | hge
  · obtain ⟨fought, hfought, hflag⟩ := Image.marked_combat hm hlt
    obtain ⟨may, hmay, hiff⟩ := mayFight_of_marked hsave hm hmet hfought
    refine ⟨may, hmay, fun _ => ?_, fun hge => absurd hlt (Nat.not_lt.2 hge)⟩
    rw [hiff, ← hflag, Bool.not_eq_true]
  · obtain ⟨hfought, hnever⟩ := Image.marked_combat_of_le (m := m) hge
    obtain ⟨may, hmay, hiff⟩ := mayFight_of_marked hsave hm hmet hfought
    refine ⟨may, hmay, fun hlt => absurd hlt (Nat.not_lt.2 hge), fun _ => ⟨hnever, ?_⟩⟩
    rw [← Bool.not_eq_true, hiff]
    rintro ⟨-, -, hfalse⟩
    cases hfalse

/-- A new game on a blank image. -/
def onBlank : Session := { ofSettings .usual .initial with save := some (.zeroed Layout.size) }

/-- An encounter that a set flag would keep from happening. -/
def ambush : Encounter := ⟨2, 5, 0, 0x40, 0, false, false⟩

/-- In a new game on a blank image nothing has been met and nothing is set. -/
theorem onBlank_clear : onBlank.marked (onBlank.uniqueMark ambush) = .ok false ∧
    onBlank.Permits (.zeroed Layout.size) ambush := by
  have hm : Layout.size ≤ (Image.zeroed Layout.size).size := Image.full_zeroed
  have hplace : (onBlank.uniqueMark ambush).place = .ok (some 0x1c4) := rfl
  refine ⟨?_, fun h => absurd rfl h, fun _ => ?_⟩
  · rw [marked_of_save rfl, Image.marked_of_place hplace, Image.readFlag_eq hm, Image.bit_zeroed]
  · rw [IsSet, if_neg (by decide)]
    rintro ⟨j, -, hbit⟩
    rw [Image.bit_zeroed] at hbit
    cases hbit

/-- In a new game a combat that has not been fought may happen. -/
theorem mayFight_iff_onBlank :
    onBlank.save = some (.zeroed Layout.size) ∧ Layout.size ≤ (Image.zeroed Layout.size).size ∧
      onBlank.marked (onBlank.uniqueMark ambush) = .ok false ∧
      onBlank.mayFight ambush 131 = .ok true := by
  have hm : Layout.size ≤ (Image.zeroed Layout.size).size := Image.full_zeroed
  obtain ⟨hmet, hpermits⟩ := onBlank_clear
  obtain ⟨may, hmay, hiff, -⟩ := mayFight_iff rfl hm hmet 131
  have hfought : ¬(Image.zeroed Layout.size).Fought 131 := by
    rintro ⟨p, -, hbit⟩
    rw [Image.bit_zeroed] at hbit
    cases hbit
  refine ⟨rfl, hm, hmet, hmay.trans (congrArg _ ?_)⟩
  exact (hiff (by decide)).2 ⟨rfl, hpermits, hfought⟩

/-- In a new game the first combat without a flag, which is not recorded as fought, does not happen,
although nothing else is in its way. -/
theorem mayFight_without_flag :
    onBlank.save = some (.zeroed Layout.size) ∧ Layout.size ≤ (Image.zeroed Layout.size).size ∧
      onBlank.marked (onBlank.uniqueMark ambush) = .ok false ∧
      onBlank.Permits (.zeroed Layout.size) ambush ∧
      ¬(Image.zeroed Layout.size).Fought 0x3e8 ∧ onBlank.mayFight ambush 0x3e8 = .ok false := by
  have hm : Layout.size ≤ (Image.zeroed Layout.size).size := Image.full_zeroed
  obtain ⟨hmet, hpermits⟩ := onBlank_clear
  have hge : 0x3e8 ≤ (0x3e8 : UInt16).toNat := by decide
  obtain ⟨hfought, hnever⟩ := Image.marked_combat_of_le (m := .zeroed Layout.size) hge
  obtain ⟨may, hmay, hiff⟩ := mayFight_of_marked rfl hm hmet hfought
  refine ⟨rfl, hm, hmet, hpermits, hnever, hmay.trans (congrArg _ ?_)⟩
  rw [← Bool.not_eq_true, hiff]
  rintro ⟨-, -, hfalse⟩
  cases hfalse

end Session

end QuestLogic
