import QuestLogic.Identity
import QuestLogic.Royals

/-!
# Items

The catalogue of items, and an item as it lies in an inventory. The quantity of an item counts units
for what can be stacked, charges for lights, and percent of full condition for weapons and armor.
-/

namespace QuestLogic

/-- What an item is for. -/
inductive ItemKind where
  | sword | staff | crossbow | armor | light | ration | note | money | other
deriving DecidableEq, Inhabited

def ItemKind.name : ItemKind → String
  | sword => "Sword" | staff => "Staff" | crossbow => "Crossbow" | armor => "Armor"
  | light => "Light" | ration => "Ration" | note => "Note" | money => "Money" | other => "Other"

/-- A catalogue entry. -/
structure ItemInfo where
  name : String
  kind : ItemKind
  /-- Units of it merge into one entry. -/
  stackable : Bool
  /-- It is gone once its quantity is used up. -/
  consumable : Bool
deriving DecidableEq, Inhabited

namespace ItemId

def sword : ItemId := ⟨0⟩
def quarterstaff : ItemId := ⟨1⟩
def crossbow : ItemId := ⟨2⟩
def standardArmor : ItemId := ⟨3⟩
def torch : ItemId := ⟨4⟩
def lantern : ItemId := ⟨5⟩
def rations : ItemId := ⟨6⟩
def spoiledRations : ItemId := ⟨7⟩
def poisonedRations : ItemId := ⟨8⟩
def napthaMask : ItemId := ⟨9⟩
def note : ItemId := ⟨10⟩
def ale : ItemId := ⟨11⟩
def sovereigns : ItemId := ⟨12⟩
def royals : ItemId := ⟨13⟩

/-- The catalogue, by position. -/
def catalogue : List ItemInfo :=
  [⟨"Sword", .sword, false, false⟩,
    ⟨"Quarterstaff", .staff, false, false⟩,
    ⟨"Crossbow", .crossbow, false, false⟩,
    ⟨"Standard Armor", .armor, false, false⟩,
    ⟨"Torch", .light, false, true⟩,
    ⟨"Lantern", .light, false, false⟩,
    ⟨"Rations", .ration, true, true⟩,
    ⟨"Spoiled Rations", .ration, true, true⟩,
    ⟨"Poisoned Rations", .ration, true, true⟩,
    ⟨"Naptha Mask", .other, false, false⟩,
    ⟨"Note", .note, false, false⟩,
    ⟨"Ale", .other, true, true⟩,
    ⟨"Sovereigns", .money, true, true⟩,
    ⟨"Royals", .money, true, true⟩]

/-- The catalogue entry of an item. -/
def info? (i : ItemId) : Option ItemInfo := catalogue[i.val.toNat]?

def name (i : ItemId) : String := (i.info?.map (·.name)).getD "Unknown Item"

/-- An item outside the catalogue serves no known purpose. -/
def kind (i : ItemId) : ItemKind := (i.info?.map (·.kind)).getD .other

/-- An item outside the catalogue does not stack. -/
def isStackable (i : ItemId) : Bool := (i.info?.map (·.stackable)).getD false

/-- Whether a character fights with it. -/
def isWeapon (i : ItemId) : Bool :=
  i.kind = .sword || i.kind = .staff || i.kind = .crossbow

/-- What a number of units adds to the purse; only coins do. -/
def moneyValue? (i : ItemId) (units : Nat) : Option Royals :=
  if i = sovereigns then some (.ofSovereigns units)
  else if i = royals then some (.ofNat units)
  else none

/-- Whether the item is a coin, which goes to the purse. -/
def isMoney (i : ItemId) : Bool := i = sovereigns || i = royals

end ItemId

/-- An item in an inventory. -/
structure Item where
  id : ItemId
  quantity : UInt16
  equipped : Bool
deriving DecidableEq, Inhabited

namespace Item

/-- An item that nobody wears. -/
def loose (id : ItemId) (quantity : UInt16) : Item := ⟨id, quantity, false⟩

def kind (i : Item) : ItemKind := i.id.kind

def isStackable (i : Item) : Bool := i.id.isStackable

/-- The condition of a weapon or armor that needs no repair. -/
def fullCondition : UInt16 := 100

/-- Weapons and armor below full condition can be repaired. -/
def isRepairable (i : Item) : Bool :=
  (i.id.isWeapon || i.kind = .armor) && i.quantity < fullCondition

/-- The units an entry stands for: its quantity if it stacks, otherwise one. -/
def units (i : Item) : Nat := if i.isStackable then i.quantity.toNat else 1

end Item

end QuestLogic
