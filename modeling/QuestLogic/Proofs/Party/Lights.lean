import QuestLogic.Proofs.Party.Vitals

/-!
# Lights that go out

The light that goes out is the first that is worn, with the first of the active members who wears
one, in the order in which changes come to them. It loses a charge and is put away, and a torch
without a charge is gone (`Item.spent?`). `Party.GoesOut` says so of a party before and after, and
putting out a light of a session does this to its party (`Session.goesOut_putOut`). However many
lights go out one after the other, there is one way only for them to do so (`Party.GoOut.unique`),
neither the purse nor the key ring changes, and everyone fares as before (`Party.GoOut.unharmed`).
-/

namespace QuestLogic

namespace Item

/-- The item gives light: it is a light that somebody wears. -/
def IsBurning (i : Item) : Prop := i.equipped = true ∧ i.kind = .light

/-- What is left of a light that goes out. It has a charge less, unless it had none, and nobody
wears it; of a torch that has no charge left nothing remains. -/
def spent? (i : Item) : Option Item :=
  if i.id = .torch ∧ i.quantity.toNat ≤ 1 then none
  else some { i with quantity := UInt16.ofNat (i.quantity.toNat - 1), equipped := false }

theorem isBurning_iff {i : Item} : (i.equipped && i.kind = .light) = true ↔ i.IsBurning := by
  simp [IsBurning]

end Item

namespace Inventory

/-- No light of the inventory is worn. -/
def IsDark (v : Inventory) : Prop := ∀ i ∈ v.items, ¬i.IsBurning

/-- The first light that is worn goes out, and all other entries stay as they are. -/
def Dims (v w : Inventory) : Prop :=
  ∃ front i back, v.items = front ++ i :: back ∧ (∀ j ∈ front, ¬j.IsBurning) ∧ i.IsBurning ∧
    w = { v with items := front ++ i.spent?.toList ++ back }

variable {v : Inventory}

/-- An inventory is dark just if no worn light is found in it. -/
theorem equippedLight?_eq_none : v.equippedLight? = none ↔ v.IsDark := by
  unfold equippedLight?
  rw [List.findIdx?_eq_none_iff]
  exact forall₂_congr fun i _ => by rw [← Item.isBurning_iff, Bool.not_eq_true]

/-- A quantity goes down by one, unless it is zero. -/
theorem quantity_pred (n : UInt16) :
    n - (if n = 0 then 0 else 1) = UInt16.ofNat (n.toNat - 1) := by
  have hlt : n.toNat < 65536 := n.toNat_lt
  apply UInt16.toNat_inj.1
  by_cases h : n = 0
  · subst h
    rfl
  · have hpos : n.toNat ≠ 0 := fun hzero => h (UInt16.toNat_inj.1 hzero)
    rw [if_neg h]
    simp only [UInt16.toNat_sub, UInt16.toNat_ofNat', UInt16.reduceToNat]
    omega

/-- There is one way only for the first light to go out. -/
theorem Dims.unique {w w' : Inventory} (h : v.Dims w) (h' : v.Dims w') : w = w' := by
  obtain ⟨front, i, back, hitems, hfront, hi, rfl⟩ := h
  obtain ⟨front', i', back', hitems', hfront', hi', rfl⟩ := h'
  obtain ⟨rfl, rfl, rfl⟩ := eq_of_split_at_first (hitems.symm.trans hitems') hfront hi hfront' hi'
  rfl

theorem Dims.not_isDark {w : Inventory} (h : v.Dims w) : ¬v.IsDark := by
  obtain ⟨front, i, back, hitems, -, hi, -⟩ := h
  exact fun hdark => hdark i (hitems ▸ List.mem_append_right _ List.mem_cons_self) hi

/-- Burning down the worn light that is found makes it go out. -/
theorem dims_burnDown {position : Nat} (h : v.equippedLight? = some position) :
    v.Dims (Session.burnDown v position) := by
  obtain ⟨hlt, hworn, hbefore⟩ := List.findIdx?_eq_some_iff_getElem.1 h
  obtain ⟨front, i, back, hitems, rfl, -⟩ := List.exists_of_modify id hlt
  have hi : v.items[front.length]? = some i := by simp [hitems]
  have hburning : i.IsBurning := by
    obtain ⟨_, hfound⟩ := List.getElem?_eq_some_iff.1 hi
    rw [← Item.isBurning_iff, ← hfound]
    exact hworn
  have hfront : ∀ j ∈ front, ¬j.IsBurning := by
    intro j hj
    obtain ⟨k, hk, rfl⟩ := List.mem_iff_getElem.1 hj
    rw [← Item.isBurning_iff]
    have hfound : v.items[k] = front[k] := by
      simp only [hitems, List.getElem_append_left hk]
    simpa only [hfound] using hbefore k hk
  refine ⟨front, i, back, hitems, hfront, hburning, ?_⟩
  -- The entry has no charge left just if it had no more than one.
  have hspent : UInt16.ofNat (i.quantity.toNat - 1) = 0 ↔ i.quantity.toNat ≤ 1 := by
    have hlt : i.quantity.toNat < 65536 := i.quantity.toNat_lt
    rw [← UInt16.toNat_inj, UInt16.toNat_ofNat', UInt16.toNat_zero]
    omega
  unfold Session.burnDown Item.spent?
  rw [hi]
  dsimp only
  rw [quantity_pred]
  simp only [Bool.and_eq_true, decide_eq_true_eq, hspent]
  split_ifs with hgone
  · rw [removeAt, hitems, List.eraseIdx_append_of_length_le (Nat.le_refl _)]
    simp
  · rw [modifyAt, hitems, List.modify_eq_take_drop, List.take_left, List.drop_left]
    simp

end Inventory

namespace Party

/-- One light goes out, if an active member wears one: no one whom a change comes to before wears a
light, and it is the first light of whoever does. -/
inductive GoesOut : Party → Party → Prop
  | dark {p : Party} (h : ∀ place ∈ p.marching, ∀ c, p.roster[place]? = some c →
      c.inventory.IsDark) : GoesOut p p
  | light {p : Party} {ahead behind : List Nat} {place : Nat} {c : Character} {v : Inventory}
      (horder : p.marching = ahead ++ place :: behind)
      (hahead : ∀ i ∈ ahead, ∀ d, p.roster[i]? = some d → d.inventory.IsDark)
      (hplace : p.roster[place]? = some c) (hdims : c.inventory.Dims v) :
      GoesOut p { p with roster := p.roster.set place { c with inventory := v } }

/-- So many lights go out, one after the other. -/
def GoOut : Nat → Party → Party → Prop
  | 0, p, q => q = p
  | n + 1, p, q => ∃ r, p.GoesOut r ∧ GoOut n r q

/-- Purse and key ring are the same, and everyone fares alike. -/
structure Unharmed (p q : Party) : Prop where
  gold : q.gold = p.gold
  keys : q.keys = p.keys
  health : p.SameHealth q

variable {p q r : Party} {n : Nat}

/-- There is one way only for a light of the party to go out. -/
theorem GoesOut.unique (h : p.GoesOut q) (h' : p.GoesOut r) : q = r := by
  have hlit : ∀ {ahead behind : List Nat} {place : Nat} {c : Character} {v : Inventory},
      p.marching = ahead ++ place :: behind → p.roster[place]? = some c → c.inventory.Dims v →
      ¬∀ i ∈ p.marching, ∀ d, p.roster[i]? = some d → d.inventory.IsDark := by
    intro ahead behind place c v horder hplace hdims hdark
    have hmem : place ∈ p.marching := horder ▸ List.mem_append_right _ List.mem_cons_self
    exact hdims.not_isDark (hdark place hmem c hplace)
  rcases h with hdark | ⟨horder, hahead, hplace, hdims⟩
  all_goals rcases h' with hdark' | ⟨horder', hahead', hplace', hdims'⟩
  · rfl
  · exact absurd hdark (hlit horder' hplace' hdims')
  · exact absurd hdark' (hlit horder hplace hdims)
  -- Both are the light of the first member who wears one.
  · obtain ⟨-, rfl, -⟩ := eq_of_split_at_first
      (P := fun i => ∃ c, p.roster[i]? = some c ∧ ¬c.inventory.IsDark)
      (horder.symm.trans horder') (fun i hi ⟨d, hd, hlight⟩ => hlight (hahead i hi d hd))
      ⟨_, hplace, hdims.not_isDark⟩ (fun i hi ⟨d, hd, hlight⟩ => hlight (hahead' i hi d hd))
      ⟨_, hplace', hdims'.not_isDark⟩
    obtain rfl := Option.some.inj (hplace.symm.trans hplace')
    rw [hdims.unique hdims']

theorem GoesOut.unharmed (h : p.GoesOut q) : p.Unharmed q := by
  cases h with
  | dark => exact ⟨rfl, rfl, .refl p⟩
  | @light _ _ place c v _ _ hplace _ =>
    refine ⟨rfl, rfl, rfl, ?_⟩
    have hvitals : (p.roster.map (·.vitals))[place]? = some c.vitals := by
      rw [List.getElem?_map, hplace, Option.map_some]
    obtain ⟨hlt, hsame⟩ := List.getElem?_eq_some_iff.1 hvitals
    rw [List.map_set, show Character.vitals { c with inventory := v } = c.vitals from rfl, ← hsame]
    exact List.set_getElem_self hlt

/-- Lights that go out do no harm. -/
theorem GoOut.unharmed (h : GoOut n p q) : p.Unharmed q := by
  induction n generalizing p with
  | zero =>
    obtain rfl := h
    exact ⟨rfl, rfl, .refl q⟩
  | succ n ih =>
    obtain ⟨r, hfirst, hrest⟩ := h
    have hr := hfirst.unharmed
    have hq := ih hrest
    exact ⟨hq.gold.trans hr.gold, hq.keys.trans hr.keys, hr.health.trans hq.health⟩

/-- There is one way only for so many lights to go out. -/
theorem GoOut.unique (h : GoOut n p q) (h' : GoOut n p r) : q = r := by
  induction n generalizing p with
  | zero => exact h.trans h'.symm
  | succ n ih =>
    obtain ⟨u, hfirst, hrest⟩ := h
    obtain ⟨u', hfirst', hrest'⟩ := h'
    obtain rfl := hfirst.unique hfirst'
    exact ih hrest hrest'

/-- More lights go out after the first ones. -/
theorem GoOut.trans {k : Nat} (h : GoOut n p q) (h' : GoOut k q r) :
    GoOut (n + k) p r := by
  induction n generalizing p with
  | zero =>
    obtain rfl := h
    rwa [Nat.zero_add]
  | succ n ih =>
    obtain ⟨u, hfirst, hrest⟩ := h
    rw [Nat.add_right_comm]
    exact ⟨u, hfirst, ih hrest⟩

end Party

namespace Session

/-- A light of the party goes out, whoever wears it. -/
theorem goesOut_putOut (s : Session) : s.party.GoesOut s.putOut.2.party := by
  unfold putOut
  dsimp only
  split
  · rename_i place hfirst
    obtain ⟨hworn, ahead, behind, horder, hahead⟩ := List.find?_eq_some_iff_append.1 hfirst
    obtain ⟨c, hplace, hlight⟩ := (Option.any_eq_true _ _).1 hworn
    obtain ⟨position, hposition⟩ := Option.isSome_iff_exists.1 hlight
    have hdark : ∀ i ∈ ahead, ∀ d, s.party.roster[i]? = some d → d.inventory.IsDark := by
      intro i hi d hd
      have hnone := hahead i hi
      simpa [hd, ← Inventory.equippedLight?_eq_none] using hnone
    have hlit := Party.GoesOut.light horder hdark hplace (Inventory.dims_burnDown hposition)
    rw [List.modify_eq_set_getElem?, hplace]
    simpa [hposition] using hlit
  · rename_i hnone
    refine .dark fun place hmem c hc => ?_
    have hdark := List.find?_eq_none.1 hnone place hmem
    simpa [hc, ← Inventory.equippedLight?_eq_none] using hdark

/-- Nothing but the party changes, and it is dark. -/
theorem putOut_eq (s : Session) :
    s.putOut.2 = { s with light := 0, party := s.putOut.2.party } := by
  unfold putOut
  dsimp only
  split <;> rfl

end Session

end QuestLogic
