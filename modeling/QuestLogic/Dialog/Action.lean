import QuestLogic.Event.Store
import QuestLogic.Identity
import QuestLogic.Ledger.Basic
import QuestLogic.Party.Condition
import QuestLogic.Party.Skill

/-!
# Actions

What a dialog does to the game when one of its snippets is shown.
-/

namespace QuestLogic

/-- Actions that have rules of their own. -/
inductive SpecialAction where
  | reduceGold | increaseGold | repairAllEquippedArmor | resetCombatState | setCombatState
  | copyStandardInnToShop0 | copyStandardInnToShop1 | increaseContextVar | gamble
  | repairAndBlessEquippedSwords | returnAlcoholToShops | resetGambleValueTo | beginCombat
  | extinguishAllLightSources | emptyArlieContainer | cheatIncreaseSkill | unifyOwynAndPugsSpells
  | unknown (code : UInt16)
deriving DecidableEq, Inhabited

namespace SpecialAction

/-- The special actions that have a name. -/
def named : List SpecialAction :=
  [reduceGold, increaseGold, repairAllEquippedArmor, resetCombatState, setCombatState,
    copyStandardInnToShop0, copyStandardInnToShop1, increaseContextVar, gamble,
    repairAndBlessEquippedSwords, returnAlcoholToShops, resetGambleValueTo, beginCombat,
    extinguishAllLightSources, emptyArlieContainer, cheatIncreaseSkill, unifyOwynAndPugsSpells]

def name : SpecialAction → String
  | reduceGold => "ReduceGold"
  | increaseGold => "IncreaseGold"
  | repairAllEquippedArmor => "RepairAllEquippedArmor"
  | resetCombatState => "ResetCombatState"
  | setCombatState => "SetCombatState"
  | copyStandardInnToShop0 => "CopyStandardInnToShop0"
  | copyStandardInnToShop1 => "CopyStandardInnToShop1"
  | increaseContextVar => "Increase753f"
  | gamble => "Gamble"
  | repairAndBlessEquippedSwords => "RepairAndBlessEquippedSwords"
  | returnAlcoholToShops => "ReturnAlcoholToShops"
  | resetGambleValueTo => "ResetGambleValueTo"
  | beginCombat => "BeginCombat"
  | extinguishAllLightSources => "ExtinguishAllLightSources"
  | emptyArlieContainer => "EmptyArlieContainer"
  | cheatIncreaseSkill => "CheatIncreaseSkill"
  | unifyOwynAndPugsSpells => "UnifyOwynAndPugsSpells"
  | unknown _ => "Unknown"

/-- The special action with the given name. -/
def ofName? (s : String) : Option SpecialAction := named.find? (·.name = s)

end SpecialAction

/--
An action of a dialog. An operand `who` of 0 or 1 means every active member, and a larger one the
character in role `who - 2`.
-/
inductive Action where
  /-- Leaves a snippet for the player to see next. -/
  | pushNextDialog (target : Target)
  | setFlag (write : FlagWrite)
  | giveItem (item : ItemId) (who : UInt8) (quantity : UInt16)
  | loseItem (item : ItemId) (quantity : UInt16)
  | loseNOfItem (item : ItemId) (quantity : UInt16)
  | gainSkill (who : UInt8) (skill : SkillType) (min max : Int16)
  | gainCondition (who : UInt8) (condition : Condition) (min max : Int16)
  /-- Heals by a percentage; a full heal cures everything. -/
  | healCharacters (who : UInt8) (percent : UInt16)
  | elapseTime (time : Time)
  /-- Sets a flag for a while. -/
  | setAddResetState (event : EventPtr) (duration : Time)
  | setTimeExpiringState (kind : EffectKind) (flags : UInt8) (subject : UInt16) (duration : Time)
  | setEndOfDialogState (state : Int16)
  | updateCharacters (active : List CharId)
  /-- Remembers the best value of a skill if `which` is 1, and the worst otherwise. -/
  | loadSkillValue (which : UInt8) (skill : SkillType)
  | learnSpell (who : UInt8) (spell : SpellId)
  | special (action : SpecialAction) (operand₁ operand₂ operand₃ : UInt16)
  | setTextVariable (which what : UInt8)
  | unknown (kind : UInt16) (data : List UInt8)
deriving DecidableEq, Inhabited

end QuestLogic
