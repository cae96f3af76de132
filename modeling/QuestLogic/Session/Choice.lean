import QuestLogic.Session.Event

/-!
# Which choices hold

A choice is decided by looking at the session, which it never changes. Topics, questions and chance
are left to the player, so they do not hold by themselves.
-/

namespace QuestLogic.Session

/-- Whether it is night: before four in the morning and from eight in the evening. -/
def isNight (s : Session) : Bool := !(4 ≤ s.clock.now.hourOfDay && s.clock.now.hourOfDay < 20)

/-- The value of a gauge. -/
def gauge (s : Session) : Gauge → Nat
  | .context => s.contextValue.toNat
  | .money => s.party.gold.sovereigns
  | .cantAfford => (decide (s.itemValue.toNat < s.party.gold.toNat)).toNat
  | .chapter => s.chapter.val.toNat
  | .nightTime => s.isNight.toNat
  | .dayTime => (!s.isNight).toNat
  | .timeBetween => s.clock.now.hourOfDay
  | .skillCheck => s.skillValue
  | .itemValue => s.itemValue.toNat
  | .contextVar => s.contextVar.toNat
  | .shop => s.shop.toNat
  | .zone => s.zone.val.toNat
  | .gambler => s.bardReward.toNat

/-- An upper bound that is no bound. -/
def unbounded : UInt16 := 0xffff

/-- Whether a gauge lies in a range. -/
def gaugeWithin (s : Session) (g : Gauge) (min max : UInt16) : Bool :=
  min.toNat ≤ s.gauge g && (max = unbounded || s.gauge g ≤ max.toNat)

/-- Suits of armor that a quest asks for. -/
def suitsWanted : UInt32 := 6

/-- Whether a scenario is the case. What lies in far-off containers is not known. -/
def inScenario (s : Session) : Scenario → Bool
  | .mortificationOfTheFlesh => s.party.activeMembers.any (·.conditions.isActive .starving)
  | .plagued => s.party.activeMembers.any (·.conditions.isActive .plagued)
  | .haveSixSuitsOfArmor => suitsWanted ≤ s.party.itemCount .standardArmor
  | .allPartyArmorIsGoodCondition =>
    s.party.activeMembers.all fun c =>
      !c.inventory.items.any fun i => i.kind = .armor && i.isRepairable
  | .anyCharacterSansWeapon => s.party.activeMembers.any (·.lacksWeapon)
  | .anyCharacterHasNegativeCondition => s.party.activeMembers.any (·.conditions.anyNegative)
  | .anyCharacterIsUnhealthy =>
    s.party.activeMembers.any fun c => c.conditions.anyNegative || !c.isHealed
  | .allPartyMembersHaveNapthaMask => s.party.activeMembers.all (·.inventory.holds .napthaMask)
  | .poisonedDelekhanArmyChests | .normalFoodInArlieChest | .poisonedFoodInArlieChest => false

/--
Compares the value at a pointer. A pointer that falls on a higher bit of a complex byte is compared
as a range while an image is loaded; otherwise the value is masked, and must have all of the
expected bits or any of them.
-/
def complexHolds (s : Session) (p : EventPtr) (xorMask expected mustEqual : UInt8) :
    Except Fault Bool := do
  let state ← s.eventState p
  if s.save.isSome && p.complexLocation.2 ≠ 0 then
    return xorMask ≤ state && state ≤ expected
  let masked := (state ^^^ xorMask) &&& expected
  return if mustEqual ≠ 0 then masked = expected else masked ≠ 0

/-- Whether a choice holds. -/
def holds (s : Session) : Choice → Except Fault Bool
  | .noChoice => .ok true
  | .eventFlag p expected => return ((← s.eventState p) ≠ 0) == expected
  | .gauge g min max => .ok (s.gaugeWithin g min max)
  | .scenario k => .ok (s.inScenario k)
  | .inventory item present => .ok (s.party.holds item == present)
  | .haveNote note =>
    .ok (s.party.activeMembers.any fun c =>
      c.inventory.items.any fun i => i.id = .note && i.quantity = note)
  | .castSpell spell => .ok (s.spells.isActive spell)
  | .complexEvent p xorMask expected mustEqual _ => s.complexHolds p xorMask expected mustEqual
  | .conversation _ | .query _ | .random _ | .unknown _ => .ok false

end QuestLogic.Session
