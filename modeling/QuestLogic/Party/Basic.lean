import QuestLogic.Party.Character
import QuestLogic.Step

/-!
# The party

The roster of characters with the few who are active, the common purse and the key ring. Only active
members take part in dialogs. Changes reach the active members in marching order: each roster place
once, and a place that is taken is filled by the last one that was left.
-/

namespace QuestLogic

/-- A roster, the members who travel, the purse and the key ring. -/
structure Party where
  gold : Royals
  roster : List Character
  active : List CharId
  keys : Inventory
deriving DecidableEq

namespace Party

/-- The full cast, with Locklear, Owyn and Gorath travelling. -/
def initial : Party := ⟨.none, Character.cast, [.locklear, .owyn, .gorath], default⟩

instance : Inhabited Party := ⟨initial⟩

/-- The character of that number, the first if there are several. -/
def member? (p : Party) (id : CharId) : Option Character := p.roster.find? (·.id = id)

/-- The character of that number, who must be in the roster. -/
def member (p : Party) (id : CharId) : Except Fault Character :=
  match p.member? id with
  | some c => .ok c
  | none => .error (.unknownCharacter id)

/-- Changes the character of that number, the first if there are several. -/
def modifyMember (p : Party) (id : CharId) (f : Character → Character) : Party :=
  match p.roster.findIdx? (·.id = id) with
  | some i => { p with roster := p.roster.modify i f }
  | none => p

/-- Puts other members on the road, all of whom must be in the roster. -/
def setActive (p : Party) (active : List CharId) : Except Fault Party :=
  match active.find? fun id => (p.member? id).isNone with
  | some missing => .error (.notInRoster missing)
  | none => .ok { p with active }

/-- A party of a roster and the members on the road. -/
def ofRoster (roster : List Character) (active : List CharId) : Except Fault Party :=
  setActive ⟨.none, roster, [], default⟩ active

/-- Whether a character travels with the party. -/
def isActive (p : Party) (id : CharId) : Bool := p.active.contains id

/-- The active members as they are looked at, in party order and as often as they are named. -/
def activeMembers (p : Party) : List Character := p.active.filterMap p.member?

/-- The list without the element at a position, whose place the last element takes. -/
def takeOut {α : Type} (xs : List α) (i : Nat) : List α :=
  match xs.getLast? with
  | some last => (xs.set i last).dropLast
  | none => []

/-- The places of the given members among those that are left. -/
def placesAmong : List CharId → List (Character × Nat) → List Nat
  | [], _ => []
  | id :: rest, left =>
    match left.findIdx? (·.1.id = id) with
    | some i => (left[i]?.map (·.2)).toList ++ placesAmong rest (takeOut left i)
    | none => placesAmong rest left

/-- The roster places of the active members in marching order, each at most once. -/
def marching (p : Party) : List Nat := placesAmong p.active p.roster.zipIdx

/-- Changes every active member. -/
def mapActive (p : Party) (f : Character → Character) : Party :=
  let places := p.marching
  { p with roster := p.roster.mapIdx fun i c => if places.contains i then f c else c }

/-- The first place in marching order whose character passes a test. -/
def firstMarching? (p : Party) (test : Character → Bool) : Option Nat :=
  p.marching.find? fun i => p.roster[i]?.any test

/-- Who leads a chapter's party while Pug is absent. -/
def chapterLeader (c : Chapter) : CharId :=
  let leaders : List CharId :=
    [.locklear, .james, .james, .gorath, .james, .owyn, .james, .owyn, .pug]
  leaders[c.val.toNat - 1]?.getD .pug

/-- Pug leads whenever he travels with the party. -/
def leader (p : Party) (c : Chapter) : CharId :=
  if p.isActive .pug then .pug else chapterLeader c

/-- Whether the key ring or an active member holds an item. -/
def holds (p : Party) (item : ItemId) : Bool :=
  p.keys.holds item || p.activeMembers.any (·.inventory.holds item)

/-- The units of an item on the key ring and with the active members, in a word like theirs. -/
def itemCount (p : Party) (item : ItemId) : UInt32 :=
  p.keys.count item + p.activeMembers.foldl (fun n c => n + c.inventory.count item) 0

/--
Gives an item to the first active member with room for it. Coins go to the purse, and nobody
receives them.
-/
def gainItem (p : Party) (item : Item) : Except Fault (Option CharId × Party) :=
  match item.id.moneyValue? item.quantity.toNat with
  | some value => .ok (none, { p with gold := p.gold + value })
  | none =>
    match p.firstMarching? (·.inventory.canAdd item) with
    | some i =>
      let receive (c : Character) : Character :=
        { c with inventory := (c.inventory.add? item).getD c.inventory }
      .ok (p.roster[i]?.map (·.id), { p with roster := p.roster.modify i receive })
    | none => .error (.noRoomInParty item.id)

/-- Takes units of an item from the character at a place, and says how many there were. -/
def takeFrom (p : Party) (item : ItemId) (units i : Nat) : Nat × Party :=
  match p.roster[i]? with
  | some c =>
    let (taken, inventory) := c.inventory.removeUnits item units
    (taken, { p with roster := p.roster.set i { c with inventory } })
  | none => (0, p)

/-- Takes units of an item from the key ring, and says how many there were. -/
def takeKeys (p : Party) (item : ItemId) (units : Nat) : Nat × Party :=
  let (taken, keys) := p.keys.removeUnits item units
  (taken, { p with keys })

/--
Takes up to `units` of an item from the first active member who holds it, or else from the key ring.
Coins come out of the purse, as far as it goes.
-/
def loseItem (p : Party) (item : ItemId) (units : Nat) : Except Fault (Nat × Party) :=
  match item.moneyValue? units with
  | some value => .ok (units, { p with gold := p.gold - value })
  | none =>
    match p.firstMarching? (·.inventory.holds item) with
    | some i => .ok (p.takeFrom item units i)
    | none =>
      if p.keys.holds item then .ok (p.takeKeys item units) else .error (.notHeld item)

/-- Takes units of an item from the characters at the given places, then from the key ring. -/
def takeInTurn (item : ItemId) : List Nat → Nat → Party → Party
  | [], units, p => (p.takeKeys item units).2
  | i :: rest, units, p =>
    let (taken, p) := p.takeFrom item units i
    takeInTurn item rest (units - taken) p

/-- Takes exactly `units` of an item from as many holders as it needs, if there are that many. -/
def loseExactly (p : Party) (item : ItemId) (units : Nat) : Except Fault Party :=
  match item.moneyValue? units with
  | some value =>
    if p.gold.toNat < value.toNat then .error (.purseShort p.gold value)
    else .ok { p with gold := p.gold - value }
  | none =>
    if (p.itemCount item).toNat < units then
      .error (.unitsShort (p.itemCount item).toNat item units)
    else .ok (takeInTurn item p.marching units p)

/-- The first of the active members with the best value of a skill, or with the worst. -/
def skillValue? (p : Party) (skill : SkillType) (best : Bool) : Option (CharId × Nat) :=
  p.activeMembers.foldl (fun found c =>
    let value := c.skills.value skill
    match found with
    | some (_, v) =>
      if (if best then value ≤ v else v ≤ value) then found else some (c.id, value)
    | none => some (c.id, value)) none

end Party

end QuestLogic
