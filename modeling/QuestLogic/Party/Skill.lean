import QuestLogic.Word

/-!
# Skills

A character has sixteen stored skills. Two further names address them indirectly: total health is
health and stamina together, and gaining health raises the maximum of health for good. Healing fills
health before stamina, and damage drains stamina before health.
-/

namespace QuestLogic

/-- The skills that dialogs name. -/
inductive SkillType where
  | health | stamina | speed | strength | defense | crossbow | melee | casting | assessment
  | armorcraft | weaponcraft | barding | haggling | lockpick | scouting | stealth
  | totalHealth | gainHealth
deriving DecidableEq, Inhabited

namespace SkillType

/-- The stored skills in the order of their records. -/
def stored : List SkillType :=
  [health, stamina, speed, strength, defense, crossbow, melee, casting, assessment,
    armorcraft, weaponcraft, barding, haggling, lockpick, scouting, stealth]

/-- The position of a skill's record; the two indirect names have none. -/
def slot? : SkillType → Option (Fin 16)
  | health => some 0 | stamina => some 1 | speed => some 2 | strength => some 3
  | defense => some 4 | crossbow => some 5 | melee => some 6 | casting => some 7
  | assessment => some 8 | armorcraft => some 9 | weaponcraft => some 10 | barding => some 11
  | haggling => some 12 | lockpick => some 13 | scouting => some 14 | stealth => some 15
  | totalHealth => none | gainHealth => none

def name : SkillType → String
  | health => "Health" | stamina => "Stamina" | speed => "Speed" | strength => "Strength"
  | defense => "Defense" | crossbow => "Crossbow" | melee => "Melee" | casting => "Casting"
  | assessment => "Assessment" | armorcraft => "Armorcraft" | weaponcraft => "Weaponcraft"
  | barding => "Barding" | haggling => "Haggling" | lockpick => "Lockpick"
  | scouting => "Scouting" | stealth => "Stealth"
  | totalHealth => "TotalHealth" | gainHealth => "GainHealth"

/-- The skill with the given name. -/
def ofName? (s : String) : Option SkillType :=
  (stored ++ [totalHealth, gainHealth]).find? (·.name = s)

instance : ToString SkillType := ⟨name⟩

end SkillType

/-- One stored skill. -/
structure Skill where
  max : UInt8
  /-- The value without passing effects. -/
  trueSkill : UInt8
  /-- The value that counts. -/
  current : UInt8
  experience : UInt8
  /-- Added to the true value to give the current one. -/
  modifier : Int8
  selected : Bool
  /-- An improvement that the player has not looked at. -/
  unseen : Bool
deriving DecidableEq, Inhabited

namespace Skill

/-- A skill at a value, without experience or modifier. -/
def fresh (max value : UInt8) : Skill := ⟨max, value, value, 0, 0, false, false⟩

/-- The current value is the true one plus the modifier, within the skill's range. -/
def recompute (s : Skill) : Skill :=
  { s with current := clampByte s.max (s.trueSkill.toNat + s.modifier.toInt) }

/-- Sets the value, true and current, to the nearest in the skill's range. -/
def setValue (s : Skill) (value : Int) : Skill :=
  { s with trueSkill := clampByte s.max value, current := clampByte s.max value }

/-- The skill at its maximum. -/
def full (s : Skill) : Skill := { s with trueSkill := s.max, current := s.max }

/-- Trains a skill; a gain waits to be seen. -/
def train (s : Skill) (amount : Int) : Skill :=
  let s := { s with trueSkill := clampByte s.max (s.trueSkill.toNat + amount) }.recompute
  if amount > 0 then { s with unseen := true } else s

/-- Moves the maximum and the value together. -/
def raise (s : Skill) (amount : Int) : Skill :=
  let top := clampByte 255 (s.max.toNat + amount)
  { s with max := top, trueSkill := clampByte top (s.trueSkill.toNat + amount) }.recompute

/-- Takes as much of a change as fits; what is left comes back with the skill. -/
def absorb (s : Skill) (amount : Int) : Skill × Int :=
  let after := clampByte s.max (s.current.toNat + amount)
  ({ s with trueSkill := after, current := after }, amount - (after.toNat - s.current.toNat))

end Skill

/-- The stored skills of a character. -/
structure Skills where
  records : Vector Skill 16
deriving DecidableEq

namespace Skills

/-- Training reaches one hundred. -/
def cap : UInt8 := 100

/-- Full health and stamina, and every trained skill at one value. -/
def uniform (health stamina trained : UInt8) : Skills :=
  let trained := Skill.fresh cap (min trained cap)
  ⟨((Vector.replicate 16 trained).set 0 (.fresh health health)).set 1 (.fresh stamina stamina)⟩

/-- The skills a character starts with. -/
def initial : Skills := uniform 40 40 30

instance : Inhabited Skills := ⟨initial⟩

/-- The record of a skill; both indirect names lead to health. -/
def record (s : Skills) (t : SkillType) : Skill := s.records[t.slot?.getD 0]

/-- Changes the record of a skill. -/
def modify (s : Skills) (t : SkillType) (f : Skill → Skill) : Skills :=
  ⟨s.records.set (t.slot?.getD 0) (f (s.record t))⟩

/-- Health and stamina together. -/
def totalHealth (s : Skills) : Nat :=
  (s.record .health).current.toNat + (s.record .stamina).current.toNat

/-- The most that health and stamina can be together. -/
def maxTotalHealth (s : Skills) : Nat :=
  (s.record .health).max.toNat + (s.record .stamina).max.toNat

/-- The value that a test of the skill sees. -/
def value (s : Skills) : SkillType → Nat
  | .totalHealth => s.totalHealth
  | .gainHealth => (s.record .health).max.toNat
  | t => (s.record t).current.toNat

/-- Lets a skill take what fits of a change, unless nothing is left of it. -/
def absorb (s : Skills) (t : SkillType) (amount : Int) : Skills × Int :=
  if amount = 0 then (s, 0)
  else
    let (r, rest) := (s.record t).absorb amount
    (s.modify t fun _ => r, rest)

/-- Heals health before stamina, or damages stamina before health. -/
def adjustTotalHealth (s : Skills) (amount : Int) : Skills :=
  let (fst, snd) : SkillType × SkillType :=
    if 0 ≤ amount then (.health, .stamina) else (.stamina, .health)
  let (s, rest) := s.absorb fst amount
  (s.absorb snd rest).1

/-- Moves the maximum of a skill together with its value. -/
def raiseMaximum (s : Skills) (t : SkillType) (amount : Int) : Skills := s.modify t (·.raise amount)

/-- Moves a skill by a number of points. -/
def improve (s : Skills) (t : SkillType) (amount : Int) : Skills :=
  match t with
  | .totalHealth => s.adjustTotalHealth amount
  | .gainHealth => s.raiseMaximum .health amount
  | .health | .stamina => s.modify t fun r => r.setValue (r.current.toNat + amount)
  | t => s.modify t (·.train amount)

/-- Health and stamina at their maxima. -/
def heal (s : Skills) : Skills := (s.modify .health Skill.full).modify .stamina Skill.full

/-- Every improvement has been looked at. -/
def clearUnseen (s : Skills) : Skills := ⟨s.records.map fun r => { r with unseen := false }⟩

/-- Whether some improvement has not been looked at. -/
def anyUnseen (s : Skills) : Bool := s.records.toList.any (·.unseen)

end Skills

end QuestLogic
