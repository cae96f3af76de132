import Mathlib.Data.List.Nodup
import QuestLogic.Proofs.Party.Change
import QuestLogic.Proofs.Party.Meal

/-!
# Tidy inventories

An inventory is tidy if it holds no more entries than it has room for, and of no item that stacks
more than one (`Inventory.Tidy`). Both depend on nothing but which items its entries are of. What is
added joins the stack that is there, or finds room and starts the only one; what is taken away
leaves some of the entries; and whatever is done to an entry, it stays one of its item. So an
inventory stays tidy through all that play does to it (`Inventory.Change.tidy`). What play keeps of
any inventory it keeps of all that a party carries (`Party.Change.carries`). A party whose
inventories are tidy never has more of an item that stacks than it can count
(`Party.Carries.supply_lt`).
-/

namespace QuestLogic

namespace Inventory

/-- The items of the entries that stack. -/
def stackedItems (v : Inventory) : List ItemId := (v.items.map (·.id)).filter (·.isStackable)

/-- There is room for every entry, and no item that stacks has two of them. -/
structure Tidy (v : Inventory) : Prop where
  fits : v.items.length ≤ v.capacity
  distinct : v.stackedItems.Nodup

variable {v w : Inventory}

theorem tidy_empty (capacity : Nat) : (empty capacity).Tidy := ⟨Nat.zero_le _, List.nodup_nil⟩

/-- Of an item that stacks there is at most one entry. -/
theorem Tidy.length_filter_le (hv : v.Tidy) {id : ItemId} (hid : id.isStackable = true) :
    (v.items.filter (·.id = id)).length ≤ 1 := by
  have hcount : v.stackedItems.count id = (v.items.filter (·.id = id)).length := by
    rw [stackedItems, List.count_filter hid, List.count_eq_countP, List.countP_map,
      List.countP_eq_length_filter]
    rfl
  rw [← hcount]
  exact List.nodup_iff_count_le_one.1 hv.distinct id

/-- And no more of it than one entry holds. -/
theorem Tidy.supply_le (hv : v.Tidy) {id : ItemId} (hid : id.isStackable = true) :
    v.supply id ≤ 65535 := by
  have hunits : ∀ e : Item, e.units ≤ 65535 := fun e => by
    have hlt := e.quantity.toNat_lt
    unfold Item.units
    split_ifs <;> omega
  have hlength := hv.length_filter_le hid
  have htotal : v.supply id ≤ (v.items.filter (·.id = id)).length * 65535 :=
    foldr_le_length_mul fun e _ => hunits e
  omega

/-- An inventory stays tidy if nothing is left of it but entries that it had, though each may be
changed into another of its item. -/
theorem Tidy.of_sublist (hv : v.Tidy) {items : List Item}
    (h : (items.map (·.id)).Sublist (v.items.map (·.id))) : Tidy { v with items } := by
  have hlength := h.length_le
  rw [List.length_map, List.length_map] at hlength
  exact ⟨Nat.le_trans hlength hv.fits, hv.distinct.sublist (h.filter _)⟩

/-! ## Adding -/

/-- Merging changes one entry, which stays of its item. -/
theorem map_id_merge (i : Item) (items : List Item) :
    (merge i items).map (·.id) = items.map (·.id) := by
  induction items with
  | nil => rfl
  | cons e rest ih =>
    unfold merge
    split_ifs
    · rfl
    · rw [List.map_cons, ih, List.map_cons]

/-- An entry for which there is room joins the others, unless it could have been merged. -/
theorem Tidy.push (hv : v.Tidy) {i : Item} (hroom : v.items.length < v.capacity)
    (hnew : ¬(i.isStackable && v.holds i.id) = true) : Tidy { v with items := v.items ++ [i] } := by
  refine ⟨?_, ?_⟩
  · rw [List.length_append, List.length_singleton]
    exact hroom
  · rw [stackedItems, List.map_append, List.filter_append, List.map_singleton,
      List.filter_cons, List.filter_nil]
    split_ifs with hstack
    -- An item that stacks is not merged only if the inventory did not hold it.
    · refine List.nodup_append'.2 ⟨hv.distinct, List.nodup_singleton _, ?_⟩
      rw [List.disjoint_singleton]
      intro hmem
      obtain ⟨e, he, hid⟩ := List.mem_map.1 (List.mem_filter.1 hmem).1
      refine hnew (Bool.and_eq_true_iff.2 ⟨hstack, List.any_eq_true.2 ⟨e, he, ?_⟩⟩)
      rw [decide_eq_true_eq]
      exact hid
    · rw [List.append_nil]
      exact hv.distinct

theorem Tidy.add (hv : v.Tidy) {i : Item} (h : v.add? i = some w) : w.Tidy := by
  unfold add? at h
  split_ifs at h with hmerge hroom
  · cases h
    exact hv.of_sublist (map_id_merge i v.items ▸ List.Sublist.refl _)
  · cases h
    exact hv.push hroom hmerge

/-! ## Taking away -/

/-- What is left after taking units are entries that were there. -/
theorem sublist_take (id : ItemId) (units : Nat) (items : List Item) :
    ((take id units items).2.map (·.id)).Sublist (items.map (·.id)) := by
  induction items generalizing units with
  | nil => cases units <;> exact List.Sublist.refl _
  | cons e rest ih =>
    rcases units with _ | n
    · exact List.Sublist.refl _
    · unfold take
      split_ifs
      · exact List.Sublist.refl _
      · exact (ih _).cons _
      · exact (ih _).cons_cons _

theorem Tidy.removeUnits (hv : v.Tidy) (id : ItemId) (units : Nat) :
    (v.removeUnits id units).2.Tidy :=
  hv.of_sublist (sublist_take id units v.items)

/-! ## Changing entries -/

/-- A light that burns down is gone or stays what it is. -/
theorem Tidy.burnDown (hv : v.Tidy) (position : Nat) : (Session.burnDown v position).Tidy := by
  unfold Session.burnDown
  split
  · rename_i i _
    dsimp only
    generalize i.quantity - _ = quantity
    have hdimmed := map_modify (g := Item.id) (f := fun i => { i with quantity, equipped := false })
      (fun _ => rfl) v.items position
    split_ifs
    · exact hv.of_sublist ((List.eraseIdx_sublist _ _).map _)
    · exact hv.of_sublist (hdimmed ▸ List.Sublist.refl _)
  · exact hv

theorem Tidy.map (hv : v.Tidy) {f : Item → Item} (hf : ∀ i, (f i).id = i.id) :
    Tidy { v with items := v.items.map f } := by
  have hsame : (v.items.map f).map (·.id) = v.items.map (·.id) := by
    rw [List.map_map]
    exact List.map_congr_left fun i _ => hf i
  exact hv.of_sublist (hsame ▸ List.Sublist.refl _)

/-! ## Play -/

/-- Whatever play does to an inventory at once keeps it tidy. -/
theorem Change.tidy (h : v.Change w) (hv : v.Tidy) : w.Tidy := by
  cases h with
  | add h => exact hv.add h
  | take id units => exact hv.removeUnits id units
  | burn position => exact hv.burnDown position
  | tend hf => exact hv.map hf

/-- No inventory gains or loses room. -/
theorem Change.capacity (h : v.Change w) : w.capacity = v.capacity := by
  cases h with
  | add h =>
    unfold add? at h
    split_ifs at h
    all_goals
      cases h
      rfl
  | burn position =>
    unfold Session.burnDown
    split
    · dsimp only
      split_ifs <;> rfl
    · rfl
  | take | tend => rfl

end Inventory

variable {P : Inventory → Prop}

/-- What play keeps of any inventory it keeps of the belongings of a character. -/
theorem Character.Change.carries (hP : ∀ {v w : Inventory}, v.Change w → P v → P w)
    {c d : Character} (h : Change c d) (hc : P c.inventory) : P d.inventory := by
  cases h with
  | inventory h => exact hP h hc
  | _ => exact hc

namespace Party

variable {p q : Party}

/-- What play keeps of any inventory it keeps of all that a party carries. -/
theorem Change.carries (hP : ∀ {v w : Inventory}, v.Change w → P v → P w) (h : Change p q)
    (hp : p.Carries P) : q.Carries P := by
  cases h with
  | purse => exact ⟨hp.keys, hp.roster⟩
  | march h =>
    obtain ⟨rfl, -⟩ := setActive_eq_ok h
    exact ⟨hp.keys, hp.roster⟩
  | members h =>
    exact ⟨hp.keys, Character.forall_mem_of_forall₂
      (Q := fun c => P c.inventory) (fun h hc => h.carries hP hc) h hp.roster⟩
  | keys h => exact ⟨hP h hp.keys, hp.roster⟩

/-- A party whose inventories are tidy and that names fewer than `2 ^ 16` members has no more units
of an item that stacks than a word holds. -/
theorem Carries.supply_lt (hp : p.Carries Inventory.Tidy) (hactive : p.active.length < 2 ^ 16)
    {item : ItemId} (hitem : item.isStackable = true) : p.supply item < 2 ^ 32 := by
  have hkeys := hp.keys.supply_le hitem
  have hmembers : p.activeMembers.foldr (fun c n => c.inventory.supply item + n) 0 ≤
      p.activeMembers.length * 65535 := by
    refine foldr_le_length_mul fun c hc => ?_
    obtain ⟨id, -, hmember⟩ := List.mem_filterMap.1 hc
    exact (hp.roster c (List.mem_of_find?_eq_some hmember)).supply_le hitem
  have hlength : p.activeMembers.length ≤ p.active.length := List.length_filterMap_le _ _
  rw [supply]
  omega

theorem Carries.countsFood (hp : p.Carries Inventory.Tidy) (hactive : p.active.length < 2 ^ 16) :
    p.CountsFood := fun _ hfood => hp.supply_lt hactive (ItemId.isStackable_of_mem_foods hfood)

/-- Nobody carries anything when the story begins. -/
theorem carries_initial (h : P default) : initial.Carries P := by
  refine ⟨h, fun c hc => ?_⟩
  have hcast : ∀ c ∈ Character.cast, c.inventory = default := by decide
  rwa [hcast c hc]

end Party

end QuestLogic
