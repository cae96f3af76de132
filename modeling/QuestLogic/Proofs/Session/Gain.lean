import QuestLogic.Proofs.Party.Improvement
import QuestLogic.Proofs.Random
import QuestLogic.Proofs.Session.Refusal

/-!
# Gains

A dialog lets characters gain in a skill or in a condition. The amount is settled by one roll before
anybody is looked for, so that everyone gains the same, and where the two bounds agree nothing is
rolled (`Session.perform_gain`). The bounds may be negative, and the roll is cut to their distance
with a remainder that is not. What the amount makes of a character is told by the skill or the
condition alone (`Gain.improves_give`).
-/

namespace QuestLogic

/-- What a dialog lets a character gain in. -/
inductive Gain where
  | skill (type : SkillType)
  | condition (type : Condition)

namespace Gain

/-- The characters that an operand `who` means gain an amount between two bounds. -/
def action (g : Gain) (who : UInt8) (min max : Int16) : Action :=
  match g with
  | .skill type => .gainSkill who type min max
  | .condition type => .gainCondition who type min max

/-- A character gains an amount. -/
def give (g : Gain) (amount : Int) (c : Character) : Character :=
  match g with
  | .skill type => { c with skills := c.skills.improve type amount }
  | .condition type => c.adjustCondition type amount

/-- What an amount makes of whoever gains it. The skills to which a name leads take it, or the
condition is moved by it, and nothing else of the character changes. -/
def Improves (g : Gain) (amount : Int) (c d : Character) : Prop :=
  match g with
  | .skill type => c.skills.Improves type amount d.skills ∧ d = { c with skills := d.skills }
  | .condition type =>
    c.conditions.Moves type amount d.conditions ∧ d = { c with conditions := d.conditions }

theorem improves_give (g : Gain) (amount : Int) (c : Character) :
    g.Improves amount c (g.give amount c) := by
  cases g with
  | skill type => exact ⟨c.skills.improves_improve type amount, rfl⟩
  | condition type => exact ⟨c.conditions.moves_adjust type amount, rfl⟩

theorem id_give (g : Gain) (amount : Int) (c : Character) : (g.give amount c).id = c.id := by
  cases g <;> rfl

end Gain

namespace Session

variable {s : Session} {min max : Int16}

/-! ## Amounts -/

/-- A roll is read and cut to the distance of two bounds. -/
def cutRoll (min max : Int16) (n : UInt32) : Int :=
  min.toInt + n.toInt32.toInt % (max.toInt - min.toInt)

/-- Between two bounds of which the first is less, any roll comes out from the first up to but not
including the second. -/
theorem cutRoll_within (h : min < max) (n : UInt32) :
    min.toInt ≤ cutRoll min max n ∧ cutRoll min max n < max.toInt := by
  have hpos : 0 < max.toInt - min.toInt := Int.sub_pos_of_lt (Int16.lt_iff_toInt_lt.1 h)
  have hle := Int.emod_nonneg n.toInt32.toInt (Int.ne_of_gt hpos)
  have hlt := Int.emod_lt_of_pos n.toInt32.toInt hpos
  unfold cutRoll
  omega

/-- Between different bounds one number is drawn. -/
theorem run_rollAmount_of_ne (h : min ≠ max) {n : UInt32} {source : RandomSource}
    (hdraw : s.dice.source.draw 0 rollLimit = (n, source)) :
    (rollAmount min max).run s =
      (.ok (cutRoll min max n),
        { s with dice := ⟨source, ⟨0, rollLimit, n⟩ :: s.dice.rolls⟩ }) := by
  have hroll : (roll 0 rollLimit).run s =
      (.ok n, { s with dice := ⟨source, ⟨0, rollLimit, n⟩ :: s.dice.rolls⟩ }) := by
    have hdice : s.dice.roll 0 rollLimit = (n, ⟨source, ⟨0, rollLimit, n⟩ :: s.dice.rolls⟩) := by
      unfold Dice.roll
      rw [hdraw]
    rw [roll, Step.run_bind_ok (Step.run_get s), hdice]
    rfl
  rw [rollAmount, if_neg h, Step.run_bind_ok hroll]
  rfl

/-- Between bounds that agree nothing is drawn. -/
theorem run_rollAmount_self (max : Int16) (s : Session) :
    (rollAmount max max).run s = (.ok max.toInt, s) := by
  rw [rollAmount, if_pos rfl, Step.run_pure]

/-! ## Gains -/

/-- Once the amount is settled, whoever is meant gains it. -/
theorem run_perform_gain {g : Gain} {who : UInt8} {ids : List CharId} {amount : Int} {t : Session}
    (hroll : (rollAmount min max).run s = (.ok amount, t)) (htargets : t.targets who = .ok ids)
    (hids : ∀ id ∈ ids, id ∈ t.party.roster.map (·.id)) :
    (perform (g.action who min max)).run s =
      (.ok (), { t with party := t.party.changeNamed ids (g.give amount) }) := by
  have hperform : perform (g.action who min max) =
      rollAmount min max >>= fun amount => changeTargets who (g.give amount) := by
    cases g <;> rfl
  have hview : (Step.view (·.targets who)).run t = (.ok ids, t) := by
    rw [Step.run_view, htargets]
  rw [hperform, Step.run_bind_ok hroll, changeTargets, Step.run_bind_ok hview,
    run_changeMembers (g.id_give amount) hids]

/--
Where the characters that an operand means are in the roster, a gain between two bounds draws one
number, and everyone who is meant gains the same amount, which is at least the first bound and less
than the second, whatever the number is. Where the bounds agree nothing is drawn and the amount is
the bound. Whoever is meant gains once for each time that the number comes, and nobody else changes.
A gain moves the skills or the condition that it names by its amount, within their ranges, and
leaves all else of the character as it was. The number is from 0 to `0xfff` with every generator and
with every script.
-/
theorem perform_gain (g : Gain) {who : UInt8} {ids : List CharId}
    (htargets : s.targets who = .ok ids) (hids : ∀ id ∈ ids, (s.party.member? id).isSome) :
    (∀ min max : Int16, min < max →
      ∃ n source amount, s.dice.source.draw 0 0xfff = (n, source) ∧
        min.toInt ≤ amount ∧ amount < max.toInt ∧
        (perform (g.action who min max)).run s =
          (.ok (), { s with
            dice := ⟨source, ⟨0, 0xfff, n⟩ :: s.dice.rolls⟩
            party := s.party.changeNamed ids (g.give amount) })) ∧
    (∀ max : Int16, (perform (g.action who max max)).run s =
      (.ok (), { s with party := s.party.changeNamed ids (g.give max.toInt) })) ∧
    (ids.Nodup → ∀ f, s.party.changeNamed ids f = { s.party with
      roster := s.party.roster.mapIdx fun place c =>
        if ∃ id ∈ ids, s.party.place? id = some place then f c else c }) ∧
    (∀ amount c, g.Improves amount c (g.give amount c)) ∧
    (∀ state, (RandomSource.shifting state).Within 0 0xfff) ∧
    ∀ values next, (RandomSource.scripted values next).Within 0 0xfff := by
  have hroster : ∀ id ∈ ids, id ∈ s.party.roster.map (·.id) := fun id hid =>
    Party.mem_ids_iff.2 (Option.isSome_iff_exists.1 (hids id hid))
  have hrange : (0 : UInt32) ≤ 0xfff := by decide
  refine ⟨fun min max hlt => ?_, fun max => ?_, fun hnodup => Party.changeNamed_of_nodup hnodup,
    g.improves_give, RandomSource.within_shifting hrange, RandomSource.within_scripted hrange⟩
  · obtain ⟨hmin, hmax⟩ := cutRoll_within hlt (s.dice.source.draw 0 rollLimit).1
    refine ⟨_, _, _, rfl, hmin, hmax, ?_⟩
    exact run_perform_gain (run_rollAmount_of_ne (Int16.ne_of_lt hlt) rfl) htargets hroster
  · exact run_perform_gain (run_rollAmount_self max s) htargets hroster

/-- Everyone on the road gains in picking locks, or loses. -/
theorem perform_gain_lockpick :
    let s := ofSettings .usual .initial
    let ids : List CharId := [.locklear, .owyn, .gorath]
    s.targets 0 = .ok ids ∧ (∀ id ∈ ids, (s.party.member? id).isSome) ∧ (-3 : Int16) < 5 ∧
      ∃ n source amount, s.dice.source.draw 0 0xfff = (n, source) ∧ -3 ≤ amount ∧ amount < 5 ∧
        (perform (.gainSkill 0 .lockpick (-3) 5)).run s =
          (.ok (), { s with
            dice := ⟨source, ⟨0, 0xfff, n⟩ :: s.dice.rolls⟩
            party := s.party.changeNamed ids ((Gain.skill .lockpick).give amount) }) ∧
        ∀ c : Character, (c.skills.record .lockpick).Trains amount
          (((Gain.skill .lockpick).give amount c).skills.record .lockpick) := by
  intro s ids
  have htargets : s.targets 0 = .ok ids := rfl
  have hids : ∀ id ∈ ids, (s.party.member? id).isSome := by decide
  have hlt : (-3 : Int16) < 5 := by decide
  obtain ⟨hgain, -, -, himproves, -⟩ := perform_gain (.skill .lockpick) htargets hids
  obtain ⟨n, source, amount, hdraw, hmin, hmax, hrun⟩ := hgain (-3) 5 hlt
  exact ⟨htargets, hids, hlt, n, source, amount, hdraw, hmin, hmax, hrun,
    fun c => (himproves amount c).1.scores⟩

end Session

end QuestLogic
