import QuestLogic.Party.Item

/-!
# Inventories

An inventory is a list of entries with room for so many. Adding a stackable item merges it into the
first entry of that item; removing units works through the entries from the front.
-/

namespace QuestLogic

/-- Entries in the order they were added, and how many there is room for. -/
structure Inventory where
  items : List Item
  capacity : Nat
deriving DecidableEq

namespace Inventory

/-- The room in an ordinary inventory. -/
def usualCapacity : Nat := 20

/-- An inventory with nothing in it. -/
def empty (capacity : Nat) : Inventory := ⟨[], capacity⟩

/-- Given entries in an inventory of ordinary room, which they may exceed. -/
def ofItems (items : List Item) : Inventory := ⟨items, usualCapacity⟩

instance : Inhabited Inventory := ⟨empty usualCapacity⟩

/-- The position of the first entry of an item. -/
def find? (v : Inventory) (id : ItemId) : Option Nat := v.items.findIdx? (·.id = id)

/-- Whether some entry is of the item, even an empty stack. -/
def holds (v : Inventory) (id : ItemId) : Bool := v.items.any (·.id = id)

/-- The units of an item over all its entries, in a word that starts again at zero when it is
full. -/
def count (v : Inventory) (id : ItemId) : UInt32 :=
  (v.items.filter (·.id = id)).foldl (fun n i => n + .ofNat i.units) 0

/-- Whether an item would find room. -/
def canAdd (v : Inventory) (i : Item) : Bool :=
  (i.isStackable && v.holds i.id) || v.items.length < v.capacity

/-- Adds to the first entry of the same item, up to a full word. -/
def merge (i : Item) : List Item → List Item
  | [] => []
  | e :: rest =>
    if e.id = i.id then
      { e with quantity := nearest16 (e.quantity.toNat + i.quantity.toNat) } :: rest
    else e :: merge i rest

/-- The inventory with one more item, if there is room for it. -/
def add? (v : Inventory) (i : Item) : Option Inventory :=
  if i.isStackable && v.holds i.id then some { v with items := merge i v.items }
  else if v.items.length < v.capacity then some { v with items := v.items ++ [i] }
  else none

/--
Takes up to `units` of an item from the front: whole entries while they last, then part of a stack.
A stack that holds nothing is removed on the way. The number is what was taken.
-/
def take (id : ItemId) : Nat → List Item → Nat × List Item
  | 0, items => (0, items)
  | _, [] => (0, [])
  | units + 1, e :: rest =>
    if e.id = id then
      if units + 1 < e.units then
        (units + 1, { e with quantity := e.quantity - UInt16.ofNat (units + 1) } :: rest)
      else
        let (taken, rest) := take id (units + 1 - e.units) rest
        (e.units + taken, rest)
    else
      let (taken, rest) := take id (units + 1) rest
      (taken, e :: rest)

/-- Removes up to `units` of an item and says how many there were. -/
def removeUnits (v : Inventory) (id : ItemId) (units : Nat) : Nat × Inventory :=
  let (taken, items) := take id units v.items
  (taken, { v with items })

/-- Removes the entry at a position. -/
def removeAt (v : Inventory) (index : Nat) : Inventory :=
  { v with items := v.items.eraseIdx index }

/-- Changes the entry at a position. -/
def modifyAt (v : Inventory) (index : Nat) (f : Item → Item) : Inventory :=
  { v with items := v.items.modify index f }

/-- The position of the first light that is worn. -/
def equippedLight? (v : Inventory) : Option Nat :=
  v.items.findIdx? fun i => i.equipped && i.kind = .light

end Inventory

end QuestLogic
