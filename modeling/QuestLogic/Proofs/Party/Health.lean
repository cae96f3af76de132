import QuestLogic.Proofs.Party.Range
import QuestLogic.Session.Passage

/-!
# Health and rest

Health and stamina take a change one after the other, each as much of it as fits. Where neither is
above its maximum the two together move by the whole change, to the nearest total in their range
(`Skills.Fit.adjustTotalHealth`), and the second of them is only reached once the first can take no
more (`Skills.adjusts_adjustTotalHealth`). An hour of rest heals by a share of full health, and by
what is missing to the ceiling if that is less, so that a number of hours heal by as many shares up
to the ceiling and no further (`Character.rests_hours`).
-/

namespace QuestLogic

namespace Skills

variable {s : Skills} {t u : SkillType} {amount : Int}

/-- Health and stamina are not above their maxima. -/
structure Fit (s : Skills) : Prop where
  health : (s.record .health).current ≤ (s.record .health).max
  stamina : (s.record .stamina).current ≤ (s.record .stamina).max

theorem record_modify_self (s : Skills) (t : SkillType) (f : Skill → Skill) :
    (s.modify t f).record t = f (s.record t) :=
  (records_modify s t f _).trans (if_pos rfl)

theorem record_modify_of_ne (s : Skills) (f : Skill → Skill)
    (h : (t.slot?.getD 0).val ≠ (u.slot?.getD 0).val) : (s.modify t f).record u = s.record u :=
  (records_modify s t f _).trans (if_neg h)

/-- What a skill takes of a change moves it to the nearest value in its range, and what it does not
take is left. -/
structure Absorbs (t : SkillType) (amount : Int) (s : Skills) (r : Skills × Int) : Prop where
  current : ((r.1.record t).current.toNat : Int) =
    max 0 (min ((s.record t).current.toNat + amount) (s.record t).max.toNat)
  rest : r.2 = amount - ((r.1.record t).current.toNat - (s.record t).current.toNat)
  max : (r.1.record t).max = (s.record t).max
  other : ∀ u : SkillType, (t.slot?.getD 0).val ≠ (u.slot?.getD 0).val → r.1.record u = s.record u

theorem absorbs_absorb (h : (s.record t).current ≤ (s.record t).max) (amount : Int) :
    Absorbs t amount s (s.absorb t amount) := by
  have hle := UInt8.le_iff_toNat_le.1 h
  unfold absorb
  split_ifs with hzero
  · subst hzero
    refine ⟨?_, ?_, rfl, fun _ _ => rfl⟩
    · dsimp only
      omega
    · dsimp only
      omega
  · have hafter : ((s.modify t fun _ => ((s.record t).absorb amount).1).record t) =
        ((s.record t).absorb amount).1 := record_modify_self s t _
    refine ⟨?_, ?_, ?_, fun u hu => record_modify_of_ne s _ hu⟩
    · rw [hafter, Skill.absorb, toNat_clampByte]
      omega
    · rw [hafter, Skill.absorb]
    · rw [hafter, Skill.absorb]

/-- Two skills that take a change one after the other move together by all of it, to the nearest
total in their range. -/
structure MovesTogether (t u : SkillType) (amount : Int) (s s' : Skills) : Prop where
  fst_le : (s'.record t).current.toNat ≤ (s'.record t).max.toNat
  snd_le : (s'.record u).current.toNat ≤ (s'.record u).max.toNat
  fst_max : (s'.record t).max = (s.record t).max
  snd_max : (s'.record u).max = (s.record u).max
  total : ((s'.record t).current.toNat + (s'.record u).current.toNat : Int) =
    max 0 (min ((s.record t).current.toNat + (s.record u).current.toNat + amount)
      ((s.record t).max.toNat + (s.record u).max.toNat))

theorem movesTogether_absorb (ht : (s.record t).current ≤ (s.record t).max)
    (hu : (s.record u).current ≤ (s.record u).max)
    (hne : (t.slot?.getD 0).val ≠ (u.slot?.getD 0).val) (amount : Int) :
    MovesTogether t u amount s ((s.absorb t amount).1.absorb u (s.absorb t amount).2).1 := by
  have hfst := absorbs_absorb ht amount
  generalize s.absorb t amount = r at hfst ⊢
  have hother := hfst.other u hne
  have hsnd := absorbs_absorb (s := r.1) (t := u) (by rwa [hother]) r.2
  generalize r.1.absorb u r.2 = r' at hsnd ⊢
  have hsame := hsnd.other t hne.symm
  have hcurrent := hfst.current
  have hrest := hfst.rest
  have hcurrent' := hsnd.current
  rw [hother] at hcurrent'
  rw [UInt8.le_iff_toNat_le] at ht hu
  have hmax : (r'.1.record t).max = (s.record t).max := hsame ▸ hfst.max
  have hmax' : (r'.1.record u).max = (s.record u).max := hother ▸ hsnd.max
  refine ⟨?_, ?_, hmax, hmax', ?_⟩
  · rw [hmax, hsame]
    omega
  · rw [hmax']
    omega
  · rw [hsame]
    omega

/-- Health and stamina move together by all of a change, to the nearest total in their range, and
neither ends above its maximum. -/
theorem Fit.adjustTotalHealth (h : s.Fit) (amount : Int) :
    (s.adjustTotalHealth amount).Fit ∧
      (s.adjustTotalHealth amount).maxTotalHealth = s.maxTotalHealth ∧
      ((s.adjustTotalHealth amount).totalHealth : Int) =
        max 0 (min (s.totalHealth + amount) s.maxTotalHealth) := by
  unfold Skills.adjustTotalHealth totalHealth maxTotalHealth
  split_ifs
  · have hmoves := movesTogether_absorb h.health h.stamina (by decide) amount
    have htotal := hmoves.total
    rw [hmoves.fst_max, hmoves.snd_max]
    refine ⟨⟨UInt8.le_iff_toNat_le.2 hmoves.fst_le, UInt8.le_iff_toNat_le.2 hmoves.snd_le⟩, rfl, ?_⟩
    push_cast
    exact htotal
  -- Damage drains stamina first.
  · have hmoves := movesTogether_absorb h.stamina h.health (by decide) amount
    have htotal := hmoves.total
    rw [hmoves.fst_max, hmoves.snd_max]
    refine ⟨⟨UInt8.le_iff_toNat_le.2 hmoves.snd_le, UInt8.le_iff_toNat_le.2 hmoves.fst_le⟩, rfl, ?_⟩
    push_cast
    omega

/-! ### Which of the two gives way -/

/-- Nothing has changed but the value of one skill, true and current. -/
structure Revalues (t : SkillType) (s s' : Skills) : Prop where
  value : s'.record t = s.record t ∨
    ∃ v, s'.record t = { s.record t with trueSkill := v, current := v }
  other : ∀ u : SkillType, (t.slot?.getD 0).val ≠ (u.slot?.getD 0).val → s'.record u = s.record u

theorem revalues_absorb (s : Skills) (t : SkillType) (amount : Int) :
    Revalues t s (s.absorb t amount).1 := by
  unfold absorb
  split_ifs
  · exact ⟨.inl rfl, fun _ _ => rfl⟩
  · exact ⟨.inr ⟨_, record_modify_self s t _⟩, fun _ hu => record_modify_of_ne s _ hu⟩

/-- Names that lead to one record lead to the same. -/
theorem record_congr (s : Skills) (h : (t.slot?.getD 0).val = (u.slot?.getD 0).val) :
    s.record t = s.record u :=
  congrArg (fun slot : Fin 16 => s.records[slot]) (Fin.ext h)

/-- A skill of which nothing is asked is what it was. -/
theorem absorb_zero (s : Skills) (t : SkillType) : s.absorb t 0 = (s, 0) := if_pos rfl

/-- Of two skills that take a change one after the other, the second is only reached once the first
can take no more, and no skill changes but in its value. -/
structure GivesWay (t u : SkillType) (amount : Int) (s s' : Skills) : Prop where
  full : 0 ≤ amount → s'.record u ≠ s.record u → (s'.record t).current = (s'.record t).max
  spent : amount < 0 → s'.record u ≠ s.record u → (s'.record t).current = 0
  values : ∀ v, s'.record v = s.record v ∨
    ∃ x, s'.record v = { s.record v with trueSkill := x, current := x }
  others : ∀ v : SkillType, (t.slot?.getD 0).val ≠ (v.slot?.getD 0).val →
    (u.slot?.getD 0).val ≠ (v.slot?.getD 0).val → s'.record v = s.record v

theorem givesWay_absorb (ht : (s.record t).current ≤ (s.record t).max)
    (hne : (t.slot?.getD 0).val ≠ (u.slot?.getD 0).val) (amount : Int) :
    GivesWay t u amount s ((s.absorb t amount).1.absorb u (s.absorb t amount).2).1 := by
  have habsorbs := absorbs_absorb ht amount
  have hfst := revalues_absorb s t amount
  generalize s.absorb t amount = r at habsorbs hfst ⊢
  have hsnd := revalues_absorb r.1 u r.2
  have hsame := hsnd.other t hne.symm
  have hother := hfst.other u hne
  -- Where nothing is left of the change, the second skill is what it was.
  have hrest : ((r.1.absorb u r.2).1.record u) ≠ s.record u → r.2 ≠ 0 := fun hu hzero => by
    rw [hzero, absorb_zero] at hu
    exact hu hother
  have hcurrent := habsorbs.current
  have hleft := habsorbs.rest
  rw [UInt8.le_iff_toNat_le] at ht
  refine ⟨fun hgain hu => ?_, fun hloss hu => ?_, fun v => ?_, fun v hvt hvu => ?_⟩
  · have hmore := hrest hu
    rw [hsame, ← UInt8.toNat_inj, habsorbs.max]
    omega
  · have hmore := hrest hu
    rw [hsame, ← UInt8.toNat_inj]
    change _ = 0
    omega
  · by_cases hvt : (t.slot?.getD 0).val = (v.slot?.getD 0).val
    · rw [← record_congr _ hvt, ← record_congr s hvt, hsame]
      exact hfst.value
    · rw [← hfst.other v hvt]
      by_cases hvu : (u.slot?.getD 0).val = (v.slot?.getD 0).val
      · rw [← record_congr _ hvu, ← record_congr r.1 hvu]
        exact hsnd.value
      · exact .inl (hsnd.other v hvu)
  · rw [hsnd.other v hvu, hfst.other v hvt]

/-- What a change of total health makes of the skills of a character. -/
structure Adjusts (amount : Int) (s s' : Skills) : Prop where
  total : (s'.totalHealth : Int) = max 0 (min (s.totalHealth + amount) s.maxTotalHealth)
  /-- A gain reaches stamina only once health is at its maximum. -/
  gain : 0 ≤ amount → s'.record .stamina ≠ s.record .stamina →
    (s'.record .health).current = (s'.record .health).max
  /-- A loss reaches health only once no stamina is left. -/
  loss : amount < 0 → s'.record .health ≠ s.record .health → (s'.record .stamina).current = 0
  /-- A skill that changes has a new value, true and current, and keeps all else, its maximum as
  well. -/
  values : ∀ t, s'.record t = s.record t ∨
    ∃ v, s'.record t = { s.record t with trueSkill := v, current := v }
  /-- The other fourteen skills are what they were. -/
  others : ∀ t ∈ SkillType.stored, t ≠ .health → t ≠ .stamina → s'.record t = s.record t

/--
Where neither health nor stamina is above its maximum, a change of total health makes the total the
old one and the change, to the nearest in its range. What is gained goes to health first and what is
lost is taken from stamina first, each with its true value; their maxima and all other skills stay
as they are.
-/
theorem adjusts_adjustTotalHealth (h : s.Fit) (amount : Int) :
    Adjusts amount s (s.adjustTotalHealth amount) := by
  have htotal := (h.adjustTotalHealth amount).2.2
  have hapart : ∀ v ∈ SkillType.stored, v ≠ .health → v ≠ .stamina →
      (SkillType.health.slot?.getD 0).val ≠ (v.slot?.getD 0).val ∧
        (SkillType.stamina.slot?.getD 0).val ≠ (v.slot?.getD 0).val := by decide
  unfold Skills.adjustTotalHealth at htotal ⊢
  split_ifs at htotal ⊢ with hgain
  · have hway := givesWay_absorb h.health (u := .stamina) (by decide) amount
    exact ⟨htotal, hway.full, fun hloss => absurd hgain (Int.not_le.2 hloss), hway.values,
      fun v hv hhealth hstamina => hway.others v (hapart v hv hhealth hstamina).1
        (hapart v hv hhealth hstamina).2⟩
  · have hway := givesWay_absorb h.stamina (u := .health) (by decide) amount
    exact ⟨htotal, fun hpos => absurd hpos hgain, hway.spent, hway.values,
      fun v hv hhealth hstamina => hway.others v (hapart v hv hhealth hstamina).2
        (hapart v hv hhealth hstamina).1⟩

/-- Of fifty points of damage thirty use up the stamina, and twenty are taken from health. -/
theorem adjusts_adjustTotalHealth_wounded :
    (uniform 40 30 20).Fit ∧
      Adjusts (-50) (uniform 40 30 20) ((uniform 40 30 20).adjustTotalHealth (-50)) ∧
      (((uniform 40 30 20).adjustTotalHealth (-50)).record .stamina).current = 0 ∧
      (((uniform 40 30 20).adjustTotalHealth (-50)).record .health).current = 20 := by
  have hfit : (uniform 40 30 20).Fit := ⟨by decide, by decide⟩
  exact ⟨hfit, adjusts_adjustTotalHealth hfit (-50), by decide, by decide⟩

end Skills

namespace Character

variable {c : Character} {how : Pastime} {percent ceiling : UInt8}

/-- The total that rest does not exceed. -/
def restTop (c : Character) (ceiling : UInt8) : Nat :=
  c.skills.maxTotalHealth * ceiling.toNat / 100

/-- What an hour of rest heals. -/
def restShare (c : Character) (percent : UInt8) : Nat :=
  max (c.skills.maxTotalHealth * percent.toNat / 100) 1

/-- Health after some hours of rest: as it was if it was at the ceiling, and otherwise healed by as
many shares up to the ceiling. -/
def rested (total top share hours : Nat) : Nat :=
  if top ≤ total then total else min top (total + hours * share)

theorem le_rested (total top share hours : Nat) : total ≤ rested total top share hours := by
  unfold rested
  split_ifs
  · exact Nat.le_refl _
  · have hmore : total ≤ total + hours * share := Nat.le_add_right _ _
    omega

/-- Hours of rest come one after the other. -/
theorem rested_succ (total top share hours : Nat) :
    rested total top share (hours + 1) = rested (rested total top share 1) top share hours := by
  unfold rested
  rw [Nat.succ_mul, Nat.one_mul]
  generalize hours * share = more
  split_ifs <;> omega

/-- What rest leaves of a character. -/
structure Rests (percent ceiling : UInt8) (hours : Nat) (c d : Character) : Prop where
  fit : d.skills.Fit
  max : d.skills.maxTotalHealth = c.skills.maxTotalHealth
  conditions : d.conditions = c.conditions
  total : d.skills.totalHealth =
    rested c.skills.totalHealth (c.restTop ceiling) (c.restShare percent) hours

theorem rests_rest (h : c.skills.Fit) (percent : UInt8) (hceiling : ceiling ≤ 100) :
    Rests percent ceiling 1 c (c.rest percent ceiling) := by
  have htop : c.restTop ceiling ≤ c.skills.maxTotalHealth := by
    have hle : ceiling.toNat ≤ 100 := UInt8.le_iff_toNat_le.1 hceiling
    have hmul := Nat.mul_le_mul_left c.skills.maxTotalHealth hle
    unfold restTop
    omega
  have hrest : c.rest percent ceiling =
      if c.skills.totalHealth < c.restTop ceiling then
        c.adjustHealth
          (min (c.restShare percent) (c.restTop ceiling - c.skills.totalHealth) : Nat)
      else c := rfl
  rw [hrest]
  split_ifs with hlt
  · obtain ⟨hfit, hmax, htotal⟩ := h.adjustTotalHealth
      (min (c.restShare percent) (c.restTop ceiling - c.skills.totalHealth) : Nat)
    refine ⟨hfit, hmax, rfl, ?_⟩
    rw [rested, if_neg (Nat.not_le.2 hlt), Nat.one_mul]
    change (c.skills.adjustTotalHealth _).totalHealth = _
    omega
  · refine ⟨h, rfl, rfl, ?_⟩
    rw [rested, if_pos (Nat.le_of_not_lt hlt)]

/-- Whoever has no condition does not suffer from any. -/
theorem foldl_suffer_eq_self (h : ∀ k, c.conditions.isActive k = false) (ks : List Condition) :
    ks.foldl suffer c = c := by
  induction ks with
  | nil => rfl
  | cons k rest ih =>
    have hsuffer : c.suffer k = c := by
      rw [suffer, h k]
      rfl
    rw [List.foldl_cons, hsuffer, ih]

/-- For whoever sleeps and has no condition an hour is one of rest. -/
theorem hour_eq_rest (hawake : how.awake = false) (hheal : 0 < how.healPercent)
    (hwell : ∀ k, c.conditions.isActive k = false) :
    c.hour how false = c.rest how.healPercent how.healCeiling := by
  unfold hour
  dsimp only
  rw [if_neg Bool.false_ne_true, foldl_suffer_eq_self hwell, if_pos]
  rw [hawake, decide_eq_true hheal]
  rfl

/-- Whoever sleeps and has no condition rests for as many hours as pass. -/
theorem rests_hours (hawake : how.awake = false) (hheal : 0 < how.healPercent)
    (hceiling : how.healCeiling ≤ 100) (hfit : c.skills.Fit)
    (hwell : ∀ k, c.conditions.isActive k = false) (n : Nat) :
    Rests how.healPercent how.healCeiling n c (hours how false n c) := by
  induction n generalizing c with
  | zero =>
    refine ⟨hfit, rfl, rfl, ?_⟩
    rw [rested, Nat.zero_mul]
    change c.skills.totalHealth = _
    split_ifs <;> omega
  | succ n ih =>
    have hfirst := rests_rest hfit how.healPercent hceiling
    have hlater := ih hfirst.fit fun k => by rw [hfirst.conditions, hwell]
    rw [hours, hour_eq_rest hawake hheal hwell]
    refine ⟨hlater.fit, hlater.max.trans hfirst.max, hlater.conditions.trans hfirst.conditions, ?_⟩
    rw [hlater.total, hfirst.total, rested_succ _ _ _ n]
    unfold restTop restShare
    rw [hfirst.max]

end Character

end QuestLogic
