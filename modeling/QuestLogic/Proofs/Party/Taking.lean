import QuestLogic.Proofs.Party.Removal

/-!
# Taking units turn by turn

Units of an item are taken from an inventory in turns (`Inventory.turn?`). A turn looks for the
first entry of the item, takes from it what is still asked for, as far as there is so much, and
removes an entry of which nothing is left. An empty stack gives nothing and is removed all the same,
so that a turn need not bring what is asked for any nearer. But a turn that does not remove an entry
of the item is the last, and so the turns end, after as many as there are entries of the item at
most, and in one way only, which is what removing units comes to
(`Inventory.endsAfter_removeUnits`). What is taken is what is asked for or all that there is, there
is less of the item by so much, and the entries of all other items are as they were. The count of
the item tells the same as long as a word holds what there is (`Inventory.takesUpTo_removeUnits`).
-/

namespace QuestLogic

namespace Inventory

/-! ## Turns -/

/-- One turn at taking units of an item, from what has been taken so far and what is left. There is
none once enough has been taken or no entry of the item is found. -/
def turn? (id : ItemId) (units : Nat) : Nat × Inventory → Option (Nat × Inventory)
  | (taken, v) =>
    if taken < units then do
      let place ← v.find? id
      let e ← v.items[place]?
      if e.isStackable then
        let part := min (units - taken) e.quantity.toNat
        let rest := e.quantity - UInt16.ofNat part
        let left := if rest = 0 then v.removeAt place
          else v.modifyAt place fun e => { e with quantity := rest }
        return (taken + part, left)
      else return (taken + 1, v.removeAt place)
    else none

/-- From one state the turns end in another, after so many of them. -/
inductive EndsAfter (id : ItemId) (units : Nat) :
    Nat → Nat × Inventory → Nat × Inventory → Prop
  | done {s} (h : turn? id units s = none) : EndsAfter id units 0 s s
  | turn {n s t u} (h : turn? id units s = some t) (rest : EndsAfter id units n t u) :
      EndsAfter id units (n + 1) s u

variable {id : ItemId} {units taken n m : Nat} {s t u : Nat × Inventory} {v : Inventory} {e : Item}

/-- There is one number of turns after which they end, and one state in which they do. -/
theorem EndsAfter.unique (h : EndsAfter id units n s t) (h' : EndsAfter id units m s u) :
    m = n ∧ u = t := by
  induction h generalizing m with
  | done h =>
    cases h' with
    | done => exact ⟨rfl, rfl⟩
    | turn hturn => cases h.symm.trans hturn
  | turn h _ ih =>
    cases h' with
    | done hdone => cases h.symm.trans hdone
    | turn hturn hrest =>
      obtain rfl := Option.some.inj (h.symm.trans hturn)
      obtain ⟨rfl, rfl⟩ := ih hrest
      exact ⟨rfl, rfl⟩

/-- The inventory with an entry before all others. -/
def behind (e : Item) (v : Inventory) : Inventory := { v with items := e :: v.items }

/-- An entry of another item is passed over. -/
theorem turn?_behind (h : e.id ≠ id) (taken : Nat) (v : Inventory) :
    turn? id units (taken, v.behind e) =
      (turn? id units (taken, v)).map fun s => (s.1, s.2.behind e) := by
  have hfind : (v.behind e).find? id = (v.find? id).map (· + 1) := by
    rw [find?, behind, List.findIdx?_cons, if_neg (by simpa using h), find?]
  rw [turn?, turn?, hfind]
  split_ifs with htaken
  · rcases v.find? id with _ | place
    · rfl
    · simp only [Option.map_some, Option.bind_eq_bind, Option.bind_some, behind,
        List.getElem?_cons_succ]
      rcases v.items[place]? with _ | f
      · rfl
      · simp only [Option.bind_some]
        split_ifs <;> rfl
  · rfl

theorem EndsAfter.behind (he : e.id ≠ id) (h : EndsAfter id units n s t) :
    EndsAfter id units n (s.1, s.2.behind e) (t.1, t.2.behind e) := by
  induction h with
  | done h => exact .done (by rw [turn?_behind he, h, Option.map_none])
  | turn h _ ih => exact .turn (by rw [turn?_behind he, h, Option.map_some]) ih

/-- There is no turn once enough has been taken. -/
theorem turn?_of_le (h : units ≤ taken) (v : Inventory) : turn? id units (taken, v) = none :=
  if_neg (Nat.not_lt.2 h)

/-- There is no turn where no entry is left. -/
theorem turn?_empty (taken capacity : Nat) : turn? id units (taken, empty capacity) = none := by
  rw [turn?]
  split_ifs <;> rfl

/-- A turn at the first entry takes a part of it if there is more than is still asked for, and
otherwise all of it. -/
theorem turn?_front (he : e.id = id) (h : taken < units) (v : Inventory) :
    turn? id units (taken, v.behind e) = some (
      if units - taken < e.units then
        (units, v.behind { e with quantity := e.quantity - UInt16.ofNat (units - taken) })
      else (taken + e.units, v)) := by
  have hfind : (v.behind e).find? id = some 0 := by
    rw [find?, behind, List.findIdx?_cons, if_pos (decide_eq_true he)]
  rw [turn?, if_pos h, hfind]
  simp only [Option.bind_eq_bind, Option.bind_some, behind, List.getElem?_cons_zero]
  by_cases hstack : e.isStackable
  · have hunits : e.units = e.quantity.toNat := if_pos hstack
    rw [if_pos hstack, hunits]
    have hlt := e.quantity.toNat_lt
    by_cases hpart : units - taken < e.quantity.toNat
    · have hrest : e.quantity - UInt16.ofNat (units - taken) ≠ 0 := by
        rw [Ne, ← UInt16.toNat_inj, UInt16.toNat_sub, UInt16.toNat_ofNat', UInt16.toNat_zero]
        omega
      rw [if_pos hpart, Nat.min_eq_left (Nat.le_of_lt hpart), if_neg hrest,
        Nat.add_sub_cancel' (Nat.le_of_lt h)]
      rfl
    · rw [if_neg hpart, Nat.min_eq_right (Nat.le_of_not_lt hpart), UInt16.ofNat_toNat,
        UInt16.sub_self, if_pos rfl]
      rfl
  · have hunits : e.units = 1 := if_neg hstack
    have hone : ¬units - taken < 1 := Nat.not_lt.2 (Nat.sub_pos_of_lt h)
    rw [if_neg hstack, hunits, if_neg hone]
    rfl

/-! ## Where the turns end -/

/-- The turns end where `take` does, and there is at most one for each entry of the item. -/
theorem exists_endsAfter_take (id : ItemId) (units capacity taken : Nat) (items : List Item) :
    ∃ turns ≤ items.countP (·.id = id),
      EndsAfter id units turns (taken, ⟨items, capacity⟩)
        (taken + (take id (units - taken) items).1,
          ⟨(take id (units - taken) items).2, capacity⟩) := by
  induction items generalizing taken with
  | nil =>
    have hnone : take id (units - taken) [] = (0, []) := by cases units - taken <;> rfl
    rw [hnone]
    exact ⟨0, Nat.zero_le _, .done (turn?_empty taken capacity)⟩
  | cons e rest ih =>
    by_cases htaken : taken < units
    · obtain ⟨n, hn⟩ := Nat.exists_eq_succ_of_ne_zero (Nat.sub_ne_zero_of_lt htaken)
      rw [hn, take, ← Nat.succ_eq_add_one, ← hn]
      -- A turn at the first entry takes part of it and is the last, or leaves what is behind it.
      split_ifs with hid hpart
      · have hfront := turn?_front hid htaken ⟨rest, capacity⟩
        rw [if_pos hpart] at hfront
        refine ⟨1, ?_, ?_⟩
        · rw [List.countP_cons_of_pos (by simpa using hid)]
          exact Nat.succ_le_succ (Nat.zero_le _)
        · rw [Nat.add_sub_cancel' (Nat.le_of_lt htaken)]
          exact .turn hfront (.done (turn?_of_le (Nat.le_refl units) _))
      · have hfront := turn?_front hid htaken ⟨rest, capacity⟩
        rw [if_neg hpart] at hfront
        obtain ⟨turns, hle, hends⟩ := ih (taken + e.units)
        rw [Nat.add_assoc, Nat.sub_add_eq] at hends
        refine ⟨turns + 1, ?_, .turn hfront hends⟩
        rw [List.countP_cons_of_pos (by simpa using hid)]
        exact Nat.succ_le_succ hle
      · obtain ⟨turns, hle, hends⟩ := ih taken
        refine ⟨turns, ?_, hends.behind hid⟩
        rw [List.countP_cons_of_neg (by simpa using hid)]
        exact hle
    · have hle := Nat.le_of_not_lt htaken
      rw [Nat.sub_eq_zero_of_le hle, take]
      exact ⟨0, Nat.zero_le _, .done (turn?_of_le hle _)⟩

/-- The turns end as removing units does, after one for each entry of the item at most, and they
end in no other way. -/
theorem endsAfter_removeUnits (v : Inventory) (id : ItemId) (units : Nat) :
    ∃ turns ≤ v.items.countP (·.id = id),
      ∀ n s, EndsAfter id units n (0, v) s ↔ n = turns ∧ s = v.removeUnits id units := by
  obtain ⟨turns, hle, hends⟩ := exists_endsAfter_take id units v.capacity 0 v.items
  rw [Nat.zero_add] at hends
  refine ⟨turns, hle, fun n s => ⟨hends.unique, ?_⟩⟩
  rintro ⟨rfl, rfl⟩
  exact hends

/-- Units of an item have been taken from an inventory, as many as there were of those that were
asked for. -/
structure TakesUpTo (id : ItemId) (units : Nat) (v : Inventory) (taken : Nat) (w : Inventory) :
    Prop where
  /-- The turns end, after one for each entry of the item at most, and in one way only. -/
  ends : ∃ turns ≤ v.items.countP (·.id = id),
    ∀ n s, EndsAfter id units n (0, v) s ↔ n = turns ∧ s = (taken, w)
  /-- The units that are asked for are taken, or all that there are. -/
  amount : taken = min units (v.supply id)
  /-- What is taken is missing from what there is of the item. -/
  supply : w.supply id + taken = v.supply id
  /-- As long as a word holds what there is, the units are counted so before and after. -/
  counted : v.supply id < 2 ^ 32 →
    taken = min units (v.count id).toNat ∧ (w.count id).toNat + taken = (v.count id).toNat
  /-- The entries of all other items are the same, in the same order. -/
  others : SameBut id v w

/-- Removing units takes up to so many of them. -/
theorem takesUpTo_removeUnits (v : Inventory) (id : ItemId) (units : Nat) :
    TakesUpTo id units v (v.removeUnits id units).1 (v.removeUnits id units).2 := by
  have hamount : (v.removeUnits id units).1 = min units (v.supply id) := fst_take id units v.items
  have hsupply : (v.removeUnits id units).2.supply id + (v.removeUnits id units).1 =
      v.supply id := by
    rw [Nat.add_comm]
    exact add_tally_take id units v.items
  refine ⟨endsAfter_removeUnits v id units, hamount, hsupply, fun hword => ?_,
    sameBut_removeUnits v id units⟩
  rw [toNat_count hword, toNat_count (by omega)]
  exact ⟨hamount, hsupply⟩

-- An empty stack is gone, though nothing was taken from it.
example : (ofItems [.loose .rations 0, .loose .torch 4, .loose .rations 5]).removeUnits .rations 2 =
    (2, ofItems [.loose .torch 4, .loose .rations 3]) := by decide

end Inventory

end QuestLogic
