import QuestLogic.Dialog.Action
import QuestLogic.Session.Passage
import QuestLogic.Session.Role

/-!
# What actions do

`Session.perform` carries out one action, and `Session.performAll` a list of them. An action that
meets a fault keeps what it has done so far and the list goes on, unless the save image is to blame.
-/

namespace QuestLogic

namespace Character

/-- The armor a character wears is as good as new. -/
def repairArmor (c : Character) : Character :=
  let repair (i : Item) : Item :=
    if i.equipped && i.kind = .armor then { i with quantity := Item.fullCondition } else i
  { c with inventory.items := c.inventory.items.map repair }

/-- Heals by a percentage of full health; a full heal cures everything. -/
def treat (c : Character) (percent : UInt16) : Character :=
  if 100 ≤ percent then c.restore
  else c.adjustHealth (c.skills.maxTotalHealth * percent.toNat / 100 : Nat)

end Character

namespace Session

/-- The pointer by which a flag write sets the item value. -/
def itemValuePointer : EventPtr := Gauge.itemValue.code

/-- The pointer by which a flag write sets the context variable. -/
def contextVarPointer : EventPtr := Gauge.contextVar.code

/-- Writes flags, or one of the two numbers that are written as if they were flags. -/
def writeFlag (w : FlagWrite) : Step Session Unit :=
  if w.pointer = itemValuePointer then
    modify fun s => { s with itemValue := ⟨w.value.toUInt32⟩ }
  else if w.pointer = contextVarPointer then
    modify fun s => { s with contextVar := w.value.toUInt32 }
  else onSave (Image.applyWrite w)

/-- Whether an operand `who` means every active member. -/
def meansEveryone (who : UInt8) : Bool := who ≤ 1

/-- The characters that an operand `who` means. -/
def targets (s : Session) (who : UInt8) : Except Fault (List CharId) :=
  if meansEveryone who then .ok s.party.active else return [← s.role (who - 2)]

/-- Changes one character, who must be in the roster. -/
def changeMember (id : CharId) (f : Character → Character) : Step Session Unit :=
    .update fun s => do
  let _ ← s.party.member id
  return { s with party := s.party.modifyMember id f }

/-- Changes characters in turn; one named twice is changed twice. -/
def changeMembers (f : Character → Character) : List CharId → Step Session Unit
  | [] => pure ()
  | id :: rest => do
    changeMember id f
    changeMembers f rest

/-- Changes the characters that an operand `who` means. -/
def changeTargets (who : UInt8) (f : Character → Character) : Step Session Unit := do
  changeMembers f (← Step.view (·.targets who))

/-- Hands an item to one character. -/
def giveTo (id : CharId) (item : Item) : Step Session Unit := .update fun s => do
  let c ← s.party.member id
  match c.inventory.add? item with
  | some inventory =>
    return { s with party := s.party.modifyMember id fun c => { c with inventory } }
  | none => throw (.noRoomWith c.name item.id)

/-- Hands an item to the party or to the character in a role. Coins always go to the purse. -/
def give (item : Item) (who : UInt8) : Step Session Unit :=
  if meansEveryone who || item.id.isMoney then
    onParty (.update fun p => (p.gainItem item).map (·.2))
  else do
    let id ← Step.view (·.role (who - 2))
    giveTo id item

/-- The highest roll for a gain or a gamble. -/
def rollLimit : UInt32 := 0xfff

/-- An amount from `min` up to but not including `max`; nothing is rolled when they agree. The roll
is read as a signed number. -/
def rollAmount (min max : Int16) : Step Session Int :=
  if min = max then pure max.toInt
  else do
    let n ← roll 0 rollLimit
    return min.toInt + n.toInt32.toInt % (max.toInt - min.toInt)

/-- Begins a timed effect. -/
def addEffect (kind : EffectKind) (subject : UInt16) (flags : UInt8) (duration : Time) :
    Step Session Unit := .update fun s =>
  match s.ledger.add? kind subject flags duration with
  | some ledger => .ok { s with ledger }
  | none => .error .ledgerFull

/-- Remembers who is best or worst at a skill. -/
def testSkill (skill : SkillType) (best : Bool) : Step Session Unit := .update fun s =>
  match s.party.skillValue? skill best with
  | some (id, value) => .ok { s with tested := some id, skillValue := value }
  | none => .error .noOneToTest

/-- Teaches a spell to a character. -/
def teach (id : CharId) (spell : SpellId) : Step Session Unit := .update fun s => do
  let c ← s.party.member id
  match c.spells.learn? spell with
  | some spells => return { s with party := s.party.modifyMember id fun c => { c with spells } }
  | none => throw (.spellOutOfRange spell)

/-- Two characters teach each other all that they know. -/
def shareSpells (a b : CharId) : Step Session Unit := .update fun s => do
  let spells := (← s.party.member a).spells.union (← s.party.member b).spells
  let learn (c : Character) : Character := { c with spells }
  return { s with party := (s.party.modifyMember a learn).modifyMember b learn }

/-- Pays a bard, whose reward grows by what the party is paid. -/
def payBard (reward : Royals) (s : Session) : Session :=
  { s with party.gold := s.party.gold + reward, bardReward := s.bardReward + reward }

/--
One round of dice. The party wins when its roll, cut to its chance, beats the gambler's; a win pays
the reward, and the context value tells the outcome.
-/
def gamble (chance gamblerChance reward : UInt16) : Step Session Unit := do
  let mine ← roll 0 rollLimit
  let theirs ← roll 0 rollLimit
  let cut (n : UInt32) (c : UInt16) : Nat := n.toNat % max c.toNat 1
  if cut theirs gamblerChance < cut mine chance then
    modify fun s => { s.payBard ⟨reward.toUInt32⟩ with contextValue := 1 }
  else modify fun s => { s with contextValue := 0 }

/-- Carries out a special action. Those on shops, chests and combats are left to the world. -/
def performSpecial (a : SpecialAction) (operand₁ operand₂ operand₃ : UInt16) : Step Session Unit :=
  match a with
  | .reduceGold => modify fun s => { s with party.gold := s.party.gold - s.itemValue }
  | .increaseGold => modify fun s => { s with party.gold := s.party.gold + s.itemValue }
  | .repairAllEquippedArmor => modify (·.mapActive Character.repairArmor)
  | .resetCombatState => setMark (.combat operand₁) false
  | .setCombatState => setMark (.combat operand₁) true
  | .increaseContextVar =>
    modify fun s => { s with contextVar := nearest32 (s.contextVar.toNat + operand₁.toNat) }
  | .gamble => gamble operand₁ operand₂ operand₃
  | .resetGambleValueTo => modify fun s => { s with bardReward := ⟨operand₁.toUInt32⟩ }
  | .extinguishAllLightSources => modify extinguish
  | .unifyOwynAndPugsSpells => shareSpells .owyn .pug
  | .copyStandardInnToShop0 | .copyStandardInnToShop1 | .repairAndBlessEquippedSwords
  | .returnAlcoholToShops | .beginCombat | .emptyArlieContainer | .cheatIncreaseSkill
  | .unknown _ => pure ()

/-- The name of the monster that a dialog is about. -/
def monsterName (s : Session) : String := (s.monster.bind s.names.monster?).getD "no monster"

/-- Puts a text into a slot. -/
def setText (slot : UInt8) (text : String) : Step Session Unit :=
  modify fun s => { s with texts := s.texts.set slot.toNat text }

/--
Fills a text slot by source: `0x7` and `0xb` to `0xf` name a character and give a role as well, and
the others are the monster, the selected item, its value twice, and the shopkeeper.
-/
def setTextVariable (slot source : UInt8) : Step Session Unit := do
  let s ← get
  if source = 0x7 || (0xb ≤ source && source ≤ 0xf) then fillRole slot source
  else if source = 0x11 then setText slot s.monsterName
  else if source = 0x12 then do
    let name ← Step.view selectedItemName
    setText slot name
  else if source = 0x13 || source = 0x19 then setText slot (toString s.itemValue)
  else if source = 0x1c then setText slot "shopkeeper"
  else pure ()

/-- Carries out an action. -/
def perform : Action → Step Session Unit
  | .pushNextDialog target => modify fun s => { s with pending := s.pending ++ [target] }
  | .setFlag write => writeFlag write
  | .giveItem item who quantity => give (.loose item quantity) who
  | .loseItem item quantity =>
    onParty (.update fun p => (p.loseItem item quantity.toNat).map (·.2))
  | .loseNOfItem item quantity => onParty (.update (·.loseExactly item quantity.toNat))
  | .gainSkill who skill min max => do
    let amount ← rollAmount min max
    changeTargets who fun c => { c with skills := c.skills.improve skill amount }
  | .gainCondition who condition min max => do
    let amount ← rollAmount min max
    changeTargets who (·.adjustCondition condition amount)
  | .healCharacters who percent => changeTargets who (·.treat percent)
  | .elapseTime time => elapse time
  | .setAddResetState event duration => do
    setEvent event true
    addEffect .resetState event Effect.apart duration
  | .setTimeExpiringState kind flags subject duration => addEffect kind subject flags duration
  | .setEndOfDialogState state => modify fun s => { s with endState := state }
  | .updateCharacters active => onParty (.update (·.setActive active))
  | .loadSkillValue which skill => testSkill skill (which = 1)
  | .learnSpell who spell => do
    let id ← Step.view (·.role who)
    teach id spell
  | .special a operand₁ operand₂ operand₃ => performSpecial a operand₁ operand₂ operand₃
  | .setTextVariable which what => setTextVariable which what
  | .unknown _ _ => pure ()

/-- Carries out an action and passes over a fault that does not come from the save image. -/
def performOrSkip (a : Action) : Step Session Unit := fun s =>
  match perform a s with
  | (.error e, s) => (if e.isCorruption then .error e else .ok (), s)
  | done => done

/-- Carries out actions in order; a fault of the save image leaves the rest undone. -/
def performAll : List Action → Step Session Unit
  | [] => pure ()
  | a :: rest => do
    performOrSkip a
    performAll rest

end Session

end QuestLogic
