import QuestLogic.Proofs.Party.Change

/-!
# Characters within their ranges

A skill within its range stands at most at its maximum, in its true value as in its current one, and
no training lifts the maximum past one hundred (`Skill.Within`). Each of the operations on a skill
keeps it there: what they write is cut to the maximum, and the one that moves the maximum moves it
first and the value after it (`Skill.within_raise`). The same holds of conditions, which go no
further than one hundred percent. So a character stays within its ranges whatever play does to it
(`Character.Change.inRange`).
-/

namespace QuestLogic

/-- A clamped byte is at most the bound to which it is cut. -/
theorem clampByte_le (top : UInt8) (z : Int) : clampByte top z ≤ top := by
  rw [UInt8.le_iff_toNat_le, toNat_clampByte]
  exact Nat.min_le_right _ _

theorem UInt8.le_top (b : UInt8) : b ≤ 255 :=
  UInt8.le_iff_toNat_le.2 (Nat.le_of_lt_succ b.toNat_lt)

namespace Skill

/-- Neither value is above the maximum, which is at most `top`. -/
structure Within (top : UInt8) (r : Skill) : Prop where
  current_le : r.current ≤ r.max
  trueSkill_le : r.trueSkill ≤ r.max
  max_le : r.max ≤ top

variable {top : UInt8} {r : Skill}

theorem within_fresh {max value : UInt8} (hvalue : value ≤ max) (hmax : max ≤ top) :
    (fresh max value).Within top :=
  ⟨hvalue, hvalue, hmax⟩

theorem within_recompute (htrue : r.trueSkill ≤ r.max) (hmax : r.max ≤ top) :
    r.recompute.Within top :=
  ⟨clampByte_le _ _, htrue, hmax⟩

theorem Within.setValue (h : r.Within top) (value : Int) : (r.setValue value).Within top :=
  ⟨clampByte_le _ _, clampByte_le _ _, h.max_le⟩

theorem Within.full (h : r.Within top) : r.full.Within top :=
  ⟨UInt8.le_refl _, UInt8.le_refl _, h.max_le⟩

theorem Within.train (h : r.Within top) (amount : Int) : (r.train amount).Within top := by
  have htrained : (recompute { r with
      trueSkill := clampByte r.max (r.trueSkill.toNat + amount) }).Within top :=
    within_recompute (clampByte_le _ _) h.max_le
  unfold Skill.train
  dsimp only
  split_ifs
  · exact ⟨htrained.current_le, htrained.trueSkill_le, htrained.max_le⟩
  · exact htrained

/-- A maximum that is moved, even down, takes the values with it. -/
theorem within_raise (r : Skill) (amount : Int) : (r.raise amount).Within 255 :=
  within_recompute (clampByte_le _ _) (UInt8.le_top _)

theorem Within.absorb (h : r.Within top) (amount : Int) : (r.absorb amount).1.Within top :=
  ⟨clampByte_le _ _, clampByte_le _ _, h.max_le⟩

theorem Within.look (h : r.Within top) : Within top { r with unseen := false } :=
  ⟨h.current_le, h.trueSkill_le, h.max_le⟩

end Skill

namespace Skills

/-- How far the maximum of the skill at a place may go: as far as training does, except for health
and stamina. -/
def ceiling (slot : Fin 16) : UInt8 := if slot.val < 2 then 255 else cap

/-- Every skill is within its range. -/
def InRange (s : Skills) : Prop := ∀ slot : Fin 16, s.records[slot].Within (ceiling slot)

variable {s : Skills}

theorem inRange_uniform (health stamina trained : UInt8) :
    (uniform health stamina trained).InRange := by
  have hle : min trained cap ≤ cap := by
    change (if trained ≤ cap then trained else cap) ≤ cap
    split_ifs with h
    · exact h
    · exact UInt8.le_refl _
  intro slot
  have hget : (uniform health stamina trained).records[slot] =
      if 1 = slot.val then .fresh stamina stamina
      else if 0 = slot.val then .fresh health health else .fresh cap (min trained cap) := by
    simp only [uniform, Fin.getElem_fin, Vector.getElem_set, Vector.getElem_replicate]
  rw [hget, ceiling]
  by_cases hstamina : 1 = slot.val
  · rw [if_pos hstamina, if_pos (by omega)]
    exact Skill.within_fresh (UInt8.le_refl _) (UInt8.le_top _)
  · by_cases hhealth : 0 = slot.val
    · rw [if_neg hstamina, if_pos hhealth, if_pos (by omega)]
      exact Skill.within_fresh (UInt8.le_refl _) (UInt8.le_top _)
    · rw [if_neg hstamina, if_neg hhealth, if_neg (by omega)]
      exact Skill.within_fresh hle (UInt8.le_refl _)

theorem InRange.record (hs : s.InRange) (t : SkillType) :
    (s.record t).Within (ceiling (t.slot?.getD 0)) := hs _

/-- A change of one skill leaves the others as they are. -/
theorem records_modify (s : Skills) (t : SkillType) (f : Skill → Skill) (slot : Fin 16) :
    (s.modify t f).records[slot] =
      if (t.slot?.getD 0).val = slot.val then f (s.record t) else s.records[slot] :=
  Vector.getElem_set (t.slot?.getD 0).isLt slot.isLt

/-- A change of one skill leaves the others within their ranges. -/
theorem InRange.modify (hs : s.InRange) {t : SkillType} {f : Skill → Skill}
    (hf : (f (s.record t)).Within (ceiling (t.slot?.getD 0))) : (s.modify t f).InRange := by
  intro slot
  rw [records_modify]
  split_ifs with heq
  · rwa [← Fin.ext heq]
  · exact hs slot

theorem InRange.absorb (hs : s.InRange) (t : SkillType) (amount : Int) :
    (s.absorb t amount).1.InRange := by
  unfold Skills.absorb
  split_ifs
  · exact hs
  · exact hs.modify ((hs.record t).absorb amount)

theorem InRange.adjustTotalHealth (hs : s.InRange) (amount : Int) :
    (s.adjustTotalHealth amount).InRange := by
  unfold Skills.adjustTotalHealth
  split_ifs
  · exact (hs.absorb _ _).absorb _ _
  · exact (hs.absorb _ _).absorb _ _

/-- The maximum that is moved is never that of a trained skill. -/
theorem InRange.raiseMaximum (hs : s.InRange) {t : SkillType} (ht : t = .health ∨ t = .stamina)
    (amount : Int) : (s.raiseMaximum t amount).InRange := by
  refine hs.modify ?_
  rcases ht with rfl | rfl
  · exact Skill.within_raise _ amount
  · exact Skill.within_raise _ amount

theorem InRange.improve (hs : s.InRange) (t : SkillType) (amount : Int) :
    (s.improve t amount).InRange := by
  cases t with
  | totalHealth => exact hs.adjustTotalHealth amount
  | gainHealth => exact hs.raiseMaximum (.inl rfl) amount
  | health | stamina => exact hs.modify ((hs.record _).setValue _)
  | _ => exact hs.modify ((hs.record _).train amount)

theorem InRange.heal (hs : s.InRange) : s.heal.InRange := by
  have hhealth : (s.modify .health Skill.full).InRange := hs.modify (hs.record .health).full
  exact hhealth.modify (hhealth.record .stamina).full

theorem InRange.clearUnseen (hs : s.InRange) : s.clearUnseen.InRange := by
  intro slot
  have hget : s.clearUnseen.records[slot] = { s.records[slot] with unseen := false } :=
    Vector.getElem_map _ slot.isLt
  rw [hget]
  exact (hs slot).look

end Skills

namespace Conditions

/-- No condition goes further than one hundred percent. -/
def InRange (s : Conditions) : Prop := ∀ slot : Fin 7, s.degrees[slot] ≤ 100

variable {s : Conditions}

theorem inRange_none : none.InRange := by
  intro slot
  have hget : none.degrees[slot] = 0 := Vector.getElem_replicate slot.isLt
  rw [hget]
  decide

/-- A change of one condition leaves the others as they are. -/
theorem degrees_adjust (s : Conditions) (k : Condition) (amount : Int) (slot : Fin 7) :
    (s.adjust k amount).degrees[slot] = if k.slot.val = slot.val then
      clampByte 100 ((s.degree k).toNat + amount) else s.degrees[slot] :=
  Vector.getElem_set k.slot.isLt slot.isLt

theorem InRange.adjust (hs : s.InRange) (k : Condition) (amount : Int) :
    (s.adjust k amount).InRange := by
  intro slot
  rw [degrees_adjust]
  split_ifs
  · exact clampByte_le _ _
  · exact hs slot

/-- Only the condition that is moved changes, and it stays within one hundred percent. -/
theorem toNat_degree_adjust (s : Conditions) (k k' : Condition) (amount : Int) :
    ((s.adjust k amount).degree k').toNat =
      if k = k' then min 100 ((s.degree k).toNat + amount).toNat else (s.degree k').toNat := by
  have hslot : k.slot.val = k'.slot.val ↔ k = k' := by
    cases k <;> cases k' <;> decide
  rw [degree, degrees_adjust, apply_ite UInt8.toNat, toNat_clampByte, Nat.min_comm]
  exact if_congr hslot rfl rfl

end Conditions

namespace Character

/-- Skills and conditions are within their ranges. -/
structure InRange (c : Character) : Prop where
  skills : c.skills.InRange
  conditions : c.conditions.InRange

variable {c d : Character}

theorem inRange_fresh (id : CharId) (name : String) : (fresh id name).InRange :=
  ⟨Skills.inRange_uniform 40 40 30, Conditions.inRange_none⟩

/-- Whatever play does to a character at once keeps it within its ranges. -/
theorem Change.inRange (h : Change c d) (hc : c.InRange) : d.InRange := by
  obtain ⟨hskills, hconditions⟩ := hc
  cases h with
  | health amount => exact ⟨hskills.adjustTotalHealth amount, hconditions⟩
  | condition k amount => exact ⟨hskills, hconditions.adjust k amount⟩
  | improve t amount => exact ⟨hskills.improve t amount, hconditions⟩
  | raise ht amount => exact ⟨hskills.raiseMaximum ht amount, hconditions⟩
  | seen => exact ⟨hskills.clearUnseen, hconditions⟩
  | restore => exact ⟨hskills.heal, Conditions.inRange_none⟩
  | inventory | spells => exact ⟨hskills, hconditions⟩

/-- The range of a skill by its name: training reaches one hundred. -/
theorem InRange.record (hc : c.InRange) {t : SkillType} (ht : t ∈ SkillType.stored) :
    (c.skills.record t).current ≤ (c.skills.record t).max ∧
      (c.skills.record t).trueSkill ≤ (c.skills.record t).max ∧
      (t ≠ .health → t ≠ .stamina → (c.skills.record t).max ≤ 100) := by
  obtain ⟨hcurrent, htrue, hmax⟩ := hc.skills.record t
  refine ⟨hcurrent, htrue, fun hhealth hstamina => ?_⟩
  cases t with
  | health => exact absurd rfl hhealth
  | stamina => exact absurd rfl hstamina
  | totalHealth | gainHealth => exact absurd ht (by decide)
  | _ => exact hmax

end Character

namespace Party

variable {p q : Party}

/-- Every member is within the ranges of a character. -/
def InRange (p : Party) : Prop := ∀ c ∈ p.roster, c.InRange

/-- The cast is so when the story begins. -/
theorem inRange_initial : initial.InRange := by
  intro c hc
  have hcast : ∀ c ∈ Character.cast, ∃ id name, c = .fresh id name := by
    simp [Character.cast]
  obtain ⟨id, name, rfl⟩ := hcast c hc
  exact Character.inRange_fresh id name

theorem Change.inRange (h : Change p q) (hp : p.InRange) : q.InRange := by
  cases h with
  | march h =>
    unfold setActive at h
    split at h <;> cases h
    exact hp
  | members h => exact Character.forall_mem_of_forall₂ Character.Change.inRange h hp
  | _ => exact hp

end Party

end QuestLogic
