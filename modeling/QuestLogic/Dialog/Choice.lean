import QuestLogic.Event.Pointer
import QuestLogic.Identity

/-!
# Choices

A choice is a condition on the running game that gates a branch of a dialog. A dialog file stores it
as three words: the first tells the kind of choice by its range, and the other two are operands.
-/

namespace QuestLogic

/-- A number of the running game that a choice can test. -/
inductive Gauge where
  | context | money | cantAfford | chapter | nightTime | dayTime | timeBetween | skillCheck
  | itemValue | contextVar | shop | zone | gambler
deriving DecidableEq, Inhabited

namespace Gauge

def all : List Gauge :=
  [context, money, cantAfford, chapter, nightTime, dayTime, timeBetween, skillCheck, itemValue,
    contextVar, shop, zone, gambler]

/-- The word by which a dialog file knows a gauge. -/
def code : Gauge → UInt16
  | context => 0x7530 | money => 0x7531 | cantAfford => 0x7533 | chapter => 0x7537
  | nightTime => 0x7539 | dayTime => 0x753a | timeBetween => 0x753c | skillCheck => 0x753d
  | itemValue => 0x753e | contextVar => 0x753f | shop => 0x7542 | zone => 0x7543
  | gambler => 0x754d

/-- The gauge with the given code. -/
def ofCode? (n : UInt16) : Option Gauge := all.find? (·.code = n)

def name : Gauge → String
  | context => "Context" | money => "Money" | cantAfford => "CantAfford" | chapter => "Chapter"
  | nightTime => "NightTime" | dayTime => "DayTime" | timeBetween => "TimeBetween"
  | skillCheck => "SkillCheck" | itemValue => "ItemValue" | contextVar => "ContextVar"
  | shop => "Shop" | zone => "Zone" | gambler => "Gambler"

/-- The gauge with the given name. -/
def ofName? (s : String) : Option Gauge := all.find? (·.name = s)

end Gauge

/-- A condition on the party that has rules of its own. -/
inductive Scenario where
  | mortificationOfTheFlesh | plagued | haveSixSuitsOfArmor | allPartyArmorIsGoodCondition
  | poisonedDelekhanArmyChests | anyCharacterSansWeapon | anyCharacterHasNegativeCondition
  | anyCharacterIsUnhealthy | allPartyMembersHaveNapthaMask | normalFoodInArlieChest
  | poisonedFoodInArlieChest
deriving DecidableEq, Inhabited

namespace Scenario

/-- The scenarios in the order of their codes. -/
def all : List Scenario :=
  [mortificationOfTheFlesh, plagued, haveSixSuitsOfArmor, allPartyArmorIsGoodCondition,
    poisonedDelekhanArmyChests, anyCharacterSansWeapon, anyCharacterHasNegativeCondition,
    anyCharacterIsUnhealthy, allPartyMembersHaveNapthaMask, normalFoodInArlieChest,
    poisonedFoodInArlieChest]

/-- The scenario with the given code, counted from zero. -/
def ofCode? (n : UInt16) : Option Scenario := all[n.toNat]?

def name : Scenario → String
  | mortificationOfTheFlesh => "MortificationOfTheFlesh"
  | plagued => "Plagued"
  | haveSixSuitsOfArmor => "HaveSixSuitsOfArmor"
  | allPartyArmorIsGoodCondition => "AllPartyArmorIsGoodCondition"
  | poisonedDelekhanArmyChests => "PoisonedDelekhanArmyChests"
  | anyCharacterSansWeapon => "AnyCharacterSansWeapon"
  | anyCharacterHasNegativeCondition => "AnyCharacterHasNegativeCondition"
  | anyCharacterIsUnhealthy => "AnyCharacterIsUnhealthy"
  | allPartyMembersHaveNapthaMask => "AllPartyMembersHaveNapthaMask"
  | normalFoodInArlieChest => "NormalFoodInArlieChest"
  | poisonedFoodInArlieChest => "PoisonedFoodInArlieChest"

/-- The scenario with the given name. -/
def ofName? (s : String) : Option Scenario := all.find? (·.name = s)

end Scenario

/-- A condition that gates a branch of a dialog. -/
inductive Choice where
  /-- Always holds. -/
  | noChoice
  /-- A topic that the player picks. -/
  | conversation (event : EventPtr)
  /-- A question that the player answers. -/
  | query (index : UInt16)
  /-- A flag is set, or is not. -/
  | eventFlag (event : EventPtr) (expected : Bool)
  /-- A gauge lies in a range. -/
  | gauge (gauge : Gauge) (min max : UInt16)
  | scenario (scenario : Scenario)
  /-- The party holds an item, or does not. -/
  | inventory (item : ItemId) (present : Bool)
  /-- Someone carries a certain note. -/
  | haveNote (note : UInt16)
  /-- A spell is in effect. -/
  | castSpell (spell : UInt16)
  /-- Chance, which the player sees rolled. -/
  | random (range : UInt16)
  /-- A comparison with a byte of the complex record. -/
  | complexEvent (event : EventPtr) (xorMask expected mustEqual chapterMask : UInt8)
  /-- A word that says nothing. -/
  | unknown (word : UInt16)
deriving DecidableEq, Inhabited

namespace Choice

/-- The low byte of a word. -/
private def lowByte (w : UInt16) : UInt8 := w.toUInt8

/-- The high byte of a word. -/
private def highByte (w : UInt16) : UInt8 := (w >>> 8).toUInt8

/-- The choice that three stored words stand for. -/
def ofWords (word operand₀ operand₁ : UInt16) : Choice :=
  if word = 0 then noChoice
  else if word ≤ 0xab then conversation word
  else if word ≤ 0x1ff then query word
  else if word ≤ 0x1fff then eventFlag word (operand₀ ≠ 0)
  else if word ≤ 0x75ff then
    match Gauge.ofCode? word with
    | some g => gauge g operand₀ operand₁
    | none => unknown word
  else if word ≤ 0x9cff then
    match Scenario.ofCode? (word &&& ~~~0x9c40) with
    | some s => scenario s
    | none => unknown word
  else if word ≤ 0xc3ff then inventory ⟨(word + 0x3cb0).toUInt8⟩ (operand₀ ≠ 0)
  else if word ≤ 0xc7ff then haveNote (word + 0x38c8)
  else if word ≤ 0xcbff then castSpell (word - 0xcb21)
  else if word ≤ 0xcfff then random (word + 0x30f8)
  else if word ≤ 0xdfff then
    complexEvent word (lowByte operand₀) (highByte operand₀) (lowByte operand₁) (highByte operand₁)
  else unknown word

end Choice

end QuestLogic
