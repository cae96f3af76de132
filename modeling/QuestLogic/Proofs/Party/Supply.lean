import Mathlib.Algebra.GroupWithZero.Nat
import QuestLogic.Proofs.Lists
import QuestLogic.Proofs.Party.Marching

/-!
# How much there is of an item

What there is of an item in an inventory and with a party is a number (`Inventory.supply`,
`Party.supply`). Play counts it in a word, which starts again at zero when it is full, so that a
count tells the number modulo `2 ^ 32` (`Inventory.count_eq`, `Party.itemCount_eq`) and is right as
long as the number is less (`Party.toNat_itemCount`). Taking units of an item from an inventory
yields as many as there are, and leaves the rest (`Inventory.fst_take`, `Inventory.add_tally_take`).
-/

namespace QuestLogic

/-- Words that are added up one by one make the word of their sum. -/
theorem foldl_add_ofNat {α : Type} {f : α → UInt32} {g : α → Nat} (h : ∀ x, f x = .ofNat (g x))
    (xs : List α) (n : Nat) :
    xs.foldl (fun w x => w + f x) (.ofNat n) = .ofNat (n + xs.foldr (fun x m => g x + m) 0) := by
  induction xs generalizing n with
  | nil => rfl
  | cons x rest ih =>
    rw [List.foldl_cons, h, ← UInt32.ofNat_add, ih, List.foldr_cons, Nat.add_assoc]

/-! ## In an inventory -/

namespace Inventory

/-- The units of an item over some entries. -/
def tally (id : ItemId) (items : List Item) : Nat :=
  (items.filter (·.id = id)).foldr (fun i n => i.units + n) 0

/-- The units of an item in an inventory, however many they are. -/
def supply (v : Inventory) (id : ItemId) : Nat := tally id v.items

variable {v w u : Inventory} {id other : ItemId}

@[simp] theorem tally_nil (id : ItemId) : tally id [] = 0 := rfl

theorem tally_cons_of_eq {e : Item} (h : e.id = id) (rest : List Item) :
    tally id (e :: rest) = e.units + tally id rest := by
  rw [tally, List.filter_cons_of_pos (by simpa using h)]
  rfl

theorem tally_cons_of_ne {e : Item} (h : e.id ≠ id) (rest : List Item) :
    tally id (e :: rest) = tally id rest := by
  rw [tally, List.filter_cons_of_neg (by simpa using h)]
  rfl

theorem tally_append (id : ItemId) (items items' : List Item) :
    tally id (items ++ items') = tally id items + tally id items' := by
  induction items with
  | nil => exact (Nat.zero_add _).symm
  | cons e rest ih =>
    rw [List.cons_append]
    by_cases he : e.id = id
    · rw [tally_cons_of_eq he, tally_cons_of_eq he, ih, Nat.add_assoc]
    · rw [tally_cons_of_ne he, tally_cons_of_ne he, ih]

/-- The count is what there is, in a word. -/
theorem count_eq (v : Inventory) (id : ItemId) : v.count id = .ofNat (v.supply id) := by
  have hsum := foldl_add_ofNat (f := fun i : Item => .ofNat i.units) (g := Item.units)
    (fun _ => rfl) (v.items.filter (·.id = id)) 0
  rwa [Nat.zero_add] at hsum

/-- The count is right as long as a word holds what there is. -/
theorem toNat_count (h : v.supply id < 2 ^ 32) : (v.count id).toNat = v.supply id := by
  rw [count_eq, UInt32.toNat_ofNat_of_lt' h]

/-! ## Taking -/

/-- As many units are taken as there are, up to those that are asked for. -/
theorem fst_take (id : ItemId) (units : Nat) (items : List Item) :
    (take id units items).1 = min units (tally id items) := by
  induction items generalizing units with
  | nil => cases units <;> simp [take]
  | cons e rest ih =>
    rcases units with _ | n
    · simp [take]
    · unfold take
      split_ifs with hid hpart
      · rw [tally_cons_of_eq hid]
        dsimp only
        omega
      · rw [tally_cons_of_eq hid]
        dsimp only
        rw [ih]
        omega
      · rw [tally_cons_of_ne hid]
        exact ih _

/-- What is left of a stack of which fewer units are taken than it has. -/
theorem units_add_of_lt {e : Item} {n : Nat} (h : n < e.units) (hn : n ≠ 0) :
    n + ({ e with quantity := e.quantity - UInt16.ofNat n } : Item).units = e.units := by
  have hlt := e.quantity.toNat_lt
  unfold Item.units at h ⊢
  rw [show Item.isStackable { e with quantity := e.quantity - UInt16.ofNat n } = e.isStackable
    from rfl]
  -- An entry that does not stack is one unit, of which no part can be taken.
  split_ifs at h ⊢ with hstack
  · simp only [UInt16.toNat_sub, UInt16.toNat_ofNat']
    omega
  · exact absurd (Nat.lt_one_iff.1 h) hn

/-- What is taken and what is left are what there was. -/
theorem add_tally_take (id : ItemId) (units : Nat) (items : List Item) :
    (take id units items).1 + tally id (take id units items).2 = tally id items := by
  induction items generalizing units with
  | nil => cases units <;> simp [take]
  | cons e rest ih =>
    rcases units with _ | n
    · simp [take]
    · unfold take
      split_ifs with hid hpart
      · have hunits := units_add_of_lt hpart (Nat.succ_ne_zero n)
        dsimp only
        rw [tally_cons_of_eq hid, tally_cons_of_eq (by exact hid)]
        omega
      · have hrest := ih (n + 1 - e.units)
        dsimp only
        rw [tally_cons_of_eq hid]
        omega
      · dsimp only
        rw [tally_cons_of_ne hid, tally_cons_of_ne hid]
        exact ih (n + 1)

/-! ## Removing -/

/-- Nothing differs but the entries of one item. -/
structure SameBut (id : ItemId) (v w : Inventory) : Prop where
  capacity : w.capacity = v.capacity
  others : w.items.filter (·.id ≠ id) = v.items.filter (·.id ≠ id)

theorem SameBut.refl (id : ItemId) (v : Inventory) : SameBut id v v := ⟨rfl, rfl⟩

theorem SameBut.trans (h : SameBut id v w) (h' : SameBut id w u) : SameBut id v u :=
  ⟨h'.capacity.trans h.capacity, h'.others.trans h.others⟩

/-- There is as much of any other item. -/
theorem SameBut.supply_eq (h : SameBut id v w) (hne : other ≠ id) :
    w.supply other = v.supply other := by
  have hfilter : ∀ x : Inventory, x.items.filter (·.id = other) =
      (x.items.filter (·.id ≠ id)).filter (·.id = other) := fun x => by
    rw [List.filter_filter]
    refine List.filter_congr fun e _ => ?_
    by_cases he : e.id = other
    · simp [he, hne]
    · simp [he]
  rw [supply, supply, tally, tally, hfilter, hfilter, h.others]

theorem filter_ne_cons_of_eq {e : Item} (h : e.id = id) (rest : List Item) :
    (e :: rest).filter (·.id ≠ id) = rest.filter (·.id ≠ id) :=
  List.filter_cons_of_neg (by simpa using h)

theorem filter_ne_cons_of_ne {e : Item} (h : e.id ≠ id) (rest : List Item) :
    (e :: rest).filter (·.id ≠ id) = e :: rest.filter (·.id ≠ id) :=
  List.filter_cons_of_pos (by simpa using h)

/-- Taking units leaves the entries of other items as they are. -/
theorem filter_ne_take (id : ItemId) (units : Nat) (items : List Item) :
    (take id units items).2.filter (·.id ≠ id) = items.filter (·.id ≠ id) := by
  induction items generalizing units with
  | nil => cases units <;> rfl
  | cons e rest ih =>
    rcases units with _ | n
    · rfl
    · unfold take
      split_ifs with hid
      · rw [filter_ne_cons_of_eq hid, filter_ne_cons_of_eq (by exact hid)]
      · rw [filter_ne_cons_of_eq hid]
        exact ih _
      · rw [filter_ne_cons_of_ne hid, filter_ne_cons_of_ne hid, ih]

theorem sameBut_removeUnits (v : Inventory) (id : ItemId) (units : Nat) :
    SameBut id v (v.removeUnits id units).2 := ⟨rfl, filter_ne_take id units v.items⟩

/-- As many units are removed as are asked for, or as there are. -/
theorem supply_removeUnits (v : Inventory) (id : ItemId) (units : Nat) :
    (v.removeUnits id units).2.supply id = v.supply id - units := by
  have htaken := add_tally_take id units v.items
  rw [fst_take] at htaken
  change tally id (take id units v.items).2 = tally id v.items - units
  omega

theorem removeUnits_zero (v : Inventory) (id : ItemId) : (v.removeUnits id 0).2 = v := by
  rw [removeUnits, take]

/-- Removing units of an item leaves no more of any. -/
theorem supply_removeUnits_le (v : Inventory) (id other : ItemId) (units : Nat) :
    (v.removeUnits id units).2.supply other ≤ v.supply other := by
  rcases eq_or_ne other id with rfl | hne
  · rw [supply_removeUnits]
    exact Nat.sub_le _ _
  · exact Nat.le_of_eq ((sameBut_removeUnits v id units).supply_eq hne)

end Inventory

/-! ## With a party -/

namespace Party

variable {p q : Party} {item : ItemId}

/-- The units of an item on the key ring and with the active members, however many they are. -/
def supply (p : Party) (item : ItemId) : Nat :=
  p.keys.supply item + p.activeMembers.foldr (fun c n => c.inventory.supply item + n) 0

/-- The count is what there is, in a word. -/
theorem itemCount_eq (p : Party) (item : ItemId) : p.itemCount item = .ofNat (p.supply item) := by
  have hsum := foldl_add_ofNat (f := fun c : Character => c.inventory.count item)
    (fun c => c.inventory.count_eq item) p.activeMembers 0
  rw [Nat.zero_add] at hsum
  rw [itemCount, supply, Inventory.count_eq, UInt32.ofNat_add, ← hsum]
  rfl

/-- The count is right as long as a word holds what there is. -/
theorem toNat_itemCount (h : p.supply item < 2 ^ 32) :
    (p.itemCount item).toNat = p.supply item := by
  rw [itemCount_eq, UInt32.toNat_ofNat_of_lt' h]

/-- Parties that have equally much of an item count equally much of it. -/
theorem itemCount_congr (h : q.supply item = p.supply item) :
    q.itemCount item = p.itemCount item := by
  rw [itemCount_eq, itemCount_eq, h]

/-- A party has the units that an active member has. -/
theorem supply_member_le {id : CharId} {c : Character} (hid : id ∈ p.active)
    (hc : p.member? id = some c) : c.inventory.supply item ≤ p.supply item := by
  have hmember : c ∈ p.activeMembers := List.mem_filterMap.2 ⟨id, hid, hc⟩
  exact Nat.le_trans (le_foldr_of_mem (·.inventory.supply item) hmember) (Nat.le_add_left _ _)

/-- A party has no more units than before if nobody does. -/
theorem supply_le (hactive : q.active = p.active)
    (hkeys : q.keys.supply item ≤ p.keys.supply item)
    (hmember : ∀ id, (p.member? id = none ∧ q.member? id = none) ∨ ∃ c d, p.member? id = some c ∧
      q.member? id = some d ∧ d.inventory.supply item ≤ c.inventory.supply item) :
    q.supply item ≤ p.supply item := by
  refine Nat.add_le_add hkeys ?_
  rw [activeMembers, activeMembers, hactive]
  induction p.active with
  | nil => exact Nat.le_refl 0
  | cons id rest ih =>
    obtain ⟨hp, hq⟩ | ⟨c, d, hp, hq, hle⟩ := hmember id
    · rwa [List.filterMap_cons_none hp, List.filterMap_cons_none hq]
    · rw [List.filterMap_cons_some hp, List.filterMap_cons_some hq]
      exact Nat.add_le_add hle ih

/-- A party has as many units as before if everyone does. -/
theorem supply_congr (hactive : q.active = p.active)
    (hkeys : q.keys.supply item = p.keys.supply item)
    (hmember : ∀ id, (q.member? id).map (·.inventory.supply item) =
      (p.member? id).map (·.inventory.supply item)) :
    q.supply item = p.supply item := by
  have hsupplies : ∀ r : Party, r.supply item = r.keys.supply item +
      (r.active.filterMap fun id => (r.member? id).map (·.inventory.supply item)).foldr
        (· + ·) 0 := fun r => by
    rw [supply, activeMembers, ← List.map_filterMap, List.foldr_map]
  rw [hsupplies, hsupplies, hkeys, hactive, List.filterMap_congr fun id _ => hmember id]

/-! ## Someone replaced -/

variable {c d : Character} {place : Nat}

/-- Replacing someone by another of the same number changes no number. -/
theorem map_id_set (hc : p.roster[place]? = some c) (hid : d.id = c.id) :
    (p.roster.set place d).map (·.id) = p.roster.map (·.id) := by
  obtain ⟨hplace, rfl⟩ := List.getElem?_eq_some_iff.1 hc
  rw [List.map_set]
  refine List.ext_getElem (List.length_set) fun i hi hi' => ?_
  rw [List.getElem_set]
  split_ifs with hi
  · subst hi
    rw [List.getElem_map, hid]
  · rfl

/-- Who is found once someone has been replaced by another of the same number. -/
theorem member?_set (hc : p.roster[place]? = some c) (hid : d.id = c.id) (id : CharId) :
    member? { p with roster := p.roster.set place d } id =
      if p.place? id = some place then some d else p.member? id := by
  obtain ⟨hplace, -⟩ := List.getElem?_eq_some_iff.1 hc
  rw [member?_eq, member?_eq, place?_congr (map_id_set hc hid)]
  rcases p.place? id with _ | i
  · rfl
  · rw [Option.bind_some, Option.bind_some, List.getElem?_set, if_pos hplace]
    simp only [Option.some.injEq, eq_comm]

/-- A party has no more units than before if whoever replaces someone has no more. -/
theorem supply_set_le (hc : p.roster[place]? = some c) (hid : d.id = c.id)
    (hle : d.inventory.supply item ≤ c.inventory.supply item) :
    supply { p with roster := p.roster.set place d } item ≤ p.supply item := by
  refine supply_le rfl (Nat.le_refl _) fun id => ?_
  rw [member?_set hc hid]
  split_ifs with hplace
  · exact .inr ⟨c, d, by rw [member?_eq, hplace, Option.bind_some, hc], rfl, hle⟩
  · rcases p.member? id with _ | b
    · exact .inl ⟨rfl, rfl⟩
    · exact .inr ⟨b, b, rfl, rfl, Nat.le_refl _⟩

/-- A party has as many units as before if whoever replaces someone does. -/
theorem supply_set (hc : p.roster[place]? = some c) (hid : d.id = c.id)
    (hsame : d.inventory.supply item = c.inventory.supply item) :
    supply { p with roster := p.roster.set place d } item = p.supply item := by
  refine supply_congr rfl rfl fun id => ?_
  rw [member?_set hc hid]
  split_ifs with hplace
  · rw [member?_eq, hplace, Option.bind_some, hc, Option.map_some, Option.map_some, hsame]
  · rfl

/-- A party has as many units as before if nobody's belongings have changed. -/
theorem supply_congr_of_belongings (hactive : q.active = p.active) (hkeys : q.keys = p.keys)
    (hroster : q.roster.map (fun c => (c.id, c.inventory)) =
      p.roster.map fun c => (c.id, c.inventory)) : q.supply item = p.supply item := by
  have hmember : ∀ (r : Party) (id : CharId), (r.member? id).map (·.inventory.supply item) =
      ((r.roster.map fun c => (c.id, c.inventory)).find? (·.1 = id)).map (·.2.supply item) :=
    fun r id => by
      rw [member?, List.find?_map, Option.map_map]
      rfl
  exact supply_congr hactive (by rw [hkeys]) fun id => by rw [hmember, hmember, hroster]

end Party

end QuestLogic
