import QuestLogic.Proofs.Party.Health
import QuestLogic.Proofs.Session.Hours

/-!
# Rest within a day

A party that sleeps and heals for some hours of a day has every hour charged to the members on the
road, and whoever of them has no condition is healed by as many shares of full health up to the
ceiling, and no further (`Session.passTime_rests`). A fault that the pass over the ledger may meet
comes after the hours and takes nothing back.
-/

namespace QuestLogic

namespace Party

variable {p q : Party} {place : Nat} {c : Character}

/-- In a party that fares alike someone fares alike at the same place. -/
theorem SameHealth.exists_getElem? (h : SameHealth p q) (hc : p.roster[place]? = some c) :
    ∃ d, q.roster[place]? = some d ∧ d.vitals = c.vitals := by
  have hget := congrArg (·[place]?) h.vitals
  simp only [List.getElem?_map] at hget
  rw [hc, Option.map_some, Option.map_eq_some_iff] at hget
  exact hget

end Party

namespace Session

variable {s : Session} {span : Time} {how : Pastime} {place : Nat} {c : Character}

/-- A stretch that begins no day leaves whoever is on the road as its hours do. -/
theorem vitals_passTime_within_day (how : Pastime)
    (hday : (s.clock.advance span).now.days = s.clock.now.days)
    (hplace : place ∈ s.party.marching) (hc : s.party.roster[place]? = some c) :
    ∃ d, ((passTime span how).run s).2.party.roster[place]? = some d ∧
      d.vitals = (Character.hours how (tiredAt how (s.clock.advance span))
        (hoursWithin span s.clock) c).vitals := by
  rw [passTime_eq, Step.run_bind_ok (run_dawn_within_day hday)]
  refine (allowsPass_steady.reduceLedger span _).1.health.exists_getElem? ?_
  rw [Party.getElem?_mapActive, hc, Option.map_some, if_pos (List.contains_iff_mem.2 hplace)]

/--
Time that begins no day and is spent asleep, with some healing and a ceiling of at most full health,
leaves the total health of a member on the road as it was if it was at or above the ceiling. If it
was below, it is healed by a share of full health for each hour that begins, and by at least one
point, up to the ceiling. It never becomes less. This holds of whoever has no condition and neither
health nor stamina above its maximum. The members on the road are those that are found by their
numbers, if nobody shares one of these.
-/
theorem passTime_rests (hday : (s.clock.advance span).now.days = s.clock.now.days)
    (hawake : how.awake = false) (hheal : 0 < how.healPercent) (hceiling : how.healCeiling ≤ 100) :
    (∀ place ∈ s.party.marching, ∀ c, s.party.roster[place]? = some c → c.skills.Fit →
      (∀ k, c.conditions.isActive k = false) →
      ∃ d, ((passTime span how).run s).2.party.roster[place]? = some d ∧ d.id = c.id ∧
        (c.skills.maxTotalHealth * how.healCeiling.toNat / 100 ≤ c.skills.totalHealth →
          d.skills.totalHealth = c.skills.totalHealth) ∧
        (c.skills.totalHealth < c.skills.maxTotalHealth * how.healCeiling.toNat / 100 →
          d.skills.totalHealth = min (c.skills.maxTotalHealth * how.healCeiling.toNat / 100)
            (c.skills.totalHealth + hoursWithin span s.clock *
              max 1 (c.skills.maxTotalHealth * how.healPercent.toNat / 100))) ∧
        c.skills.totalHealth ≤ d.skills.totalHealth) ∧
    ((∀ id ∈ s.party.active, ¬(s.party.roster.map (·.id)).Duplicate id) →
      s.party.marching = s.party.active.eraseDups.filterMap s.party.place?) := by
  refine ⟨fun place hplace c hc hfit hwell => ?_, Party.marching_eq⟩
  obtain ⟨d, hd, hvitals⟩ := vitals_passTime_within_day how hday hplace hc
  have htired : tiredAt how (s.clock.advance span) = false := by
    rw [tiredAt, hawake, Bool.false_and]
  rw [htired] at hvitals
  obtain ⟨hid, hskills, -⟩ := Character.vitals_eq.1 hvitals
  have hrests := Character.rests_hours hawake hheal hceiling hfit hwell (hoursWithin span s.clock)
  have htotal := hrests.total
  rw [← hskills] at htotal
  refine ⟨d, hd, hid.trans (c.leads_hours how _ _).id_eq, fun hle => ?_, fun hlt => ?_, ?_⟩
  · rw [htotal]
    exact if_pos hle
  · rw [htotal, Nat.max_comm]
    exact if_neg (Nat.not_le.2 hlt)
  · rw [htotal]
    exact Character.le_rested _ _ _ _

/-- A party that has lost twenty points each. -/
def wounded : Session := { onBlank with party := onBlank.party.mapRoster (·.adjustHealth (-20)) }

/-- Three hours of sleep heal two points each, but for the last, which reaches the ceiling. -/
theorem passTime_rests_three_hours :
    let how : Pastime := ⟨false, false, 3, 79⟩
    (wounded.clock.advance (.ofHours 3)).now.days = wounded.clock.now.days ∧
      how.awake = false ∧ 0 < how.healPercent ∧ how.healCeiling ≤ 100 ∧
      0 ∈ wounded.party.marching ∧
      ∃ c d, wounded.party.roster[0]? = some c ∧
        ((passTime (.ofHours 3) how).run wounded).2.party.roster[0]? = some d ∧
        c.skills.totalHealth = 60 ∧ d.skills.totalHealth = 63 := by
  intro how
  have hday : (wounded.clock.advance (.ofHours 3)).now.days = wounded.clock.now.days := by
    decide +kernel
  have hawake : how.awake = false := rfl
  have hheal : 0 < how.healPercent := by decide
  have hceiling : how.healCeiling ≤ 100 := by decide
  have hplace : 0 ∈ wounded.party.marching := by decide +kernel
  let c : Character := (Character.fresh .locklear "Locklear").adjustHealth (-20)
  have hfit : c.skills.Fit := ⟨by decide +kernel, by decide +kernel⟩
  have hwell : ∀ k, c.conditions.isActive k = false := fun k => by cases k <;> rfl
  obtain ⟨hrests, -⟩ := passTime_rests hday hawake hheal hceiling
  obtain ⟨d, hd, -, -, hbelow, -⟩ := hrests 0 hplace c rfl hfit hwell
  refine ⟨hday, hawake, hheal, hceiling, hplace, c, d, rfl, hd, by decide +kernel, ?_⟩
  rw [hbelow (by decide +kernel)]
  decide +kernel

end Session

end QuestLogic
