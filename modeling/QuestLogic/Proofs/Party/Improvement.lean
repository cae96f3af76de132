import QuestLogic.Proofs.Party.Health

/-!
# What points make of skills and conditions

Points that are gained in a skill, or lost, are added to a value, and the sum is cut off at nothing
and at the maximum (`clamped`). Which value that is depends on the skill: training moves the true
value and the current one follows with its modifier (`Skill.Trains`), health and stamina are moved
in both values at once (`Skill.Moves`), a raise of health moves the maximum and then the value
(`Skill.Raises`), and of total health one skill takes what fits and another what is left
(`Skills.Shares`). All skills that the name does not lead to are as they were
(`Skills.improves_improve`). A condition is moved in the same way, within one hundred percent, and
the others are as they were (`Conditions.moves_adjust`).
-/

namespace QuestLogic

/-- A number cut off at nothing and at a top. -/
def clamped (top : Nat) (z : Int) : Int := max 0 (min z top)

theorem toNat_clampByte_eq_clamped (top : UInt8) (z : Int) :
    ((clampByte top z).toNat : Int) = clamped top.toNat z := by
  rw [toNat_clampByte, clamped]
  omega

/-! ## One skill -/

namespace Skill

/-- The value of a skill has been moved by some points, true and current at once. -/
structure Moves (amount : Int) (r r' : Skill) : Prop where
  current : r'.current.toNat = clamped r.max.toNat (r.current.toNat + amount)
  trueSkill : r'.trueSkill = r'.current
  rest : r' = { r with trueSkill := r'.trueSkill, current := r'.current }

/-- A skill has been trained by some points. The current value is the true one with the modifier,
and a gain waits to be seen. -/
structure Trains (amount : Int) (r r' : Skill) : Prop where
  trueSkill : r'.trueSkill.toNat = clamped r.max.toNat (r.trueSkill.toNat + amount)
  current : r'.current.toNat = clamped r.max.toNat (r'.trueSkill.toNat + r.modifier.toInt)
  unseen : r'.unseen = (r.unseen || decide (0 < amount))
  rest : r' = { r with
    trueSkill := r'.trueSkill, current := r'.current, unseen := r'.unseen }

/-- The maximum of a skill has been moved by some points, and its value within the new maximum. -/
structure Raises (amount : Int) (r r' : Skill) : Prop where
  max : r'.max.toNat = clamped 255 (r.max.toNat + amount)
  trueSkill : r'.trueSkill.toNat = clamped r'.max.toNat (r.trueSkill.toNat + amount)
  current : r'.current.toNat = clamped r'.max.toNat (r'.trueSkill.toNat + r.modifier.toInt)
  rest : r' = { r with max := r'.max, trueSkill := r'.trueSkill, current := r'.current }

/-- A skill has taken what fits of some points, and is what it was if there are none. -/
def Takes (amount : Int) (r r' : Skill) : Prop := if amount = 0 then r' = r else Moves amount r r'

theorem moves_setValue (r : Skill) (amount : Int) :
    Moves amount r (r.setValue (r.current.toNat + amount)) :=
  ⟨toNat_clampByte_eq_clamped _ _, rfl, rfl⟩

theorem moves_absorb (r : Skill) (amount : Int) : Moves amount r (r.absorb amount).1 :=
  ⟨toNat_clampByte_eq_clamped _ _, rfl, rfl⟩

theorem trains_train (r : Skill) (amount : Int) : Trains amount r (r.train amount) := by
  unfold train
  dsimp only
  -- Only a gain is left to be seen.
  split_ifs with hgain
  · refine ⟨toNat_clampByte_eq_clamped _ _, toNat_clampByte_eq_clamped _ _, ?_, rfl⟩
    rw [decide_eq_true (show 0 < amount from hgain), Bool.or_true]
  · refine ⟨toNat_clampByte_eq_clamped _ _, toNat_clampByte_eq_clamped _ _, ?_, rfl⟩
    rw [decide_eq_false (show ¬0 < amount from hgain), Bool.or_false]
    rfl

theorem raises_raise (r : Skill) (amount : Int) : Raises amount r (r.raise amount) :=
  ⟨toNat_clampByte_eq_clamped _ _, toNat_clampByte_eq_clamped _ _,
    toNat_clampByte_eq_clamped _ _, rfl⟩

end Skill

/-! ## All skills -/

/-- The stored skills that the name of a skill leads to. -/
def SkillType.leadsTo : SkillType → List SkillType
  | totalHealth => [health, stamina]
  | gainHealth => [health]
  | t => [t]

namespace Skills

variable {s : Skills} {t u : SkillType} {amount : Int}

/-- Two skills have taken some points, the first as many as fit and the second those that are
left. -/
structure Shares (t u : SkillType) (amount : Int) (s s' : Skills) : Prop where
  fst : (s.record t).Takes amount (s'.record t)
  snd : (s.record u).Takes
    (amount - ((s'.record t).current.toNat - (s.record t).current.toNat)) (s'.record u)
  others : ∀ v : SkillType, (t.slot?.getD 0).val ≠ (v.slot?.getD 0).val →
    (u.slot?.getD 0).val ≠ (v.slot?.getD 0).val → s'.record v = s.record v

theorem takes_absorb (s : Skills) (t : SkillType) (amount : Int) :
    (s.record t).Takes amount ((s.absorb t amount).1.record t) ∧
      (s.absorb t amount).2 =
        amount - (((s.absorb t amount).1.record t).current.toNat - (s.record t).current.toNat) := by
  unfold Skill.Takes absorb
  split_ifs with hzero
  · subst hzero
    exact ⟨rfl, by simp⟩
  · dsimp only
    rw [record_modify_self]
    exact ⟨(s.record t).moves_absorb amount, rfl⟩

theorem shares_absorb (hne : (t.slot?.getD 0).val ≠ (u.slot?.getD 0).val) (amount : Int) :
    Shares t u amount s ((s.absorb t amount).1.absorb u (s.absorb t amount).2).1 := by
  obtain ⟨hfst, hleft⟩ := s.takes_absorb t amount
  have hother := (revalues_absorb s t amount).other
  generalize s.absorb t amount = r at hfst hleft hother ⊢
  have hsnd := (r.1.takes_absorb u r.2).1
  have hsame := (revalues_absorb r.1 u r.2).other
  -- When its turn comes the second skill is what it was at first.
  rw [hother u hne] at hsnd
  refine ⟨?_, ?_, fun v hvt hvu => (hsame v hvu).trans (hother v hvt)⟩
  · rwa [hsame t hne.symm]
  · rwa [hsame t hne.symm, ← hleft]

/-- What some points in a skill make of the records to which its name leads. -/
def Scores (t : SkillType) (amount : Int) (s s' : Skills) : Prop :=
  match t with
  | .totalHealth =>
    if 0 ≤ amount then Shares .health .stamina amount s s' else Shares .stamina .health amount s s'
  | .gainHealth => (s.record .health).Raises amount (s'.record .health)
  | .health | .stamina => (s.record t).Moves amount (s'.record t)
  | t => (s.record t).Trains amount (s'.record t)

/-- What some points in a skill make of the skills of a character. -/
structure Improves (t : SkillType) (amount : Int) (s s' : Skills) : Prop where
  scores : Scores t amount s s'
  /-- Skills to which the name does not lead are as they were. -/
  others : ∀ u ∈ SkillType.stored, u ∉ t.leadsTo → s'.record u = s.record u

theorem leadsTo_subset_stored (t : SkillType) : t.leadsTo ⊆ SkillType.stored := by
  cases t <;> decide

/-- A stored skill to which a name does not lead has a record of its own. -/
theorem slot_ne_of_not_mem_leadsTo (hu : u ∈ SkillType.stored) (hout : u ∉ t.leadsTo)
    {v : SkillType} (hv : v ∈ t.leadsTo) : (v.slot?.getD 0).val ≠ (u.slot?.getD 0).val := by
  have hapart : ∀ v ∈ SkillType.stored, ∀ u ∈ SkillType.stored,
      (v.slot?.getD 0).val = (u.slot?.getD 0).val → v = u := by decide
  exact fun heq => hout (hapart v (leadsTo_subset_stored t hv) u hu heq ▸ hv)

theorem shares_adjustTotalHealth (s : Skills) (amount : Int) :
    if 0 ≤ amount then Shares .health .stamina amount s (s.adjustTotalHealth amount)
    else Shares .stamina .health amount s (s.adjustTotalHealth amount) := by
  unfold adjustTotalHealth
  split_ifs
  · exact shares_absorb (by decide) amount
  · exact shares_absorb (by decide) amount

/-- A change of the one record to which a name leads leaves the other stored skills as they are. -/
theorem improves_modify {f : Skill → Skill} (ht : t.leadsTo = [u])
    (hscores : ∀ s', s'.record u = f (s.record u) → Scores t amount s s') :
    Improves t amount s (s.modify u f) := by
  refine ⟨hscores _ (record_modify_self s u f), fun v hv hout => record_modify_of_ne s f ?_⟩
  exact slot_ne_of_not_mem_leadsTo hv hout (ht ▸ List.mem_singleton_self u)

/-- Points in a skill move the records to which its name leads, and no others. -/
theorem improves_improve (s : Skills) (t : SkillType) (amount : Int) :
    Improves t amount s (s.improve t amount) := by
  cases t with
  | totalHealth =>
    -- Health and stamina come in an order that depends on the sign, and both are led to.
    have hshares := s.shares_adjustTotalHealth amount
    refine ⟨hshares, fun u hu hout => ?_⟩
    have hhealth := slot_ne_of_not_mem_leadsTo hu hout (v := .health) (by decide)
    have hstamina := slot_ne_of_not_mem_leadsTo hu hout (v := .stamina) (by decide)
    change (s.adjustTotalHealth amount).record u = s.record u
    split_ifs at hshares
    · exact hshares.others u hhealth hstamina
    · exact hshares.others u hstamina hhealth
  | gainHealth =>
    change Improves _ amount s (s.modify .health (·.raise amount))
    refine improves_modify rfl fun s' h => ?_
    change Skill.Raises amount _ (s'.record .health)
    exact h ▸ Skill.raises_raise _ amount
  | health | stamina =>
    change Improves _ amount s (s.modify _ fun r => r.setValue (r.current.toNat + amount))
    refine improves_modify rfl fun s' h => ?_
    change Skill.Moves amount _ (s'.record _)
    exact h ▸ Skill.moves_setValue _ amount
  | _ =>
    change Improves _ amount s (s.modify _ (·.train amount))
    refine improves_modify rfl fun s' h => ?_
    change Skill.Trains amount _ (s'.record _)
    exact h ▸ Skill.trains_train _ amount

end Skills

/-! ## Conditions -/

namespace Conditions

/-- A condition has moved by some points, within one hundred percent. -/
structure Moves (k : Condition) (amount : Int) (s s' : Conditions) : Prop where
  degree : (s'.degree k).toNat = clamped 100 ((s.degree k).toNat + amount)
  others : ∀ k' ≠ k, s'.degree k' = s.degree k'

theorem moves_adjust (s : Conditions) (k : Condition) (amount : Int) :
    Moves k amount s (s.adjust k amount) := by
  refine ⟨?_, fun k' hne => UInt8.toNat_inj.1 ?_⟩
  · rw [toNat_degree_adjust, if_pos rfl, clamped]
    omega
  · rw [toNat_degree_adjust, if_neg (Ne.symm hne)]

end Conditions

end QuestLogic
