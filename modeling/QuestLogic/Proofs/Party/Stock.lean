import Mathlib.Data.List.Basic
import Mathlib.Tactic.SplitIfs
import QuestLogic.Proofs.Lists
import QuestLogic.Proofs.Step
import QuestLogic.Session.Passage

/-!
# What a party carries

`Inventory.Lasting P G` says that play keeps `P` of an inventory as long as it hands out only what
`G` allows: whatever is added, taken, burnt down or tended. What lasts for an inventory lasts for
the key ring and for everyone's belongings, through every step of a party (`Party.carrying`). The
food that is there in units lasts (`Inventory.lasting_stocked`): nothing but an addition of no units
makes an empty stack of it.
-/

namespace QuestLogic

/-- Play keeps `P` of an inventory, as long as it hands out only what `G` allows. -/
structure Inventory.Lasting (P : Inventory → Prop) (G : Item → Prop) : Prop where
  add {v w : Inventory} {i : Item} (hi : G i) (h : v.add? i = some w) (hv : P v) : P w
  take {v : Inventory} (id : ItemId) (units : Nat) (hv : P v) : P (v.removeUnits id units).2
  burn {v : Inventory} {position : Nat} (h : v.equippedLight? = some position) (hv : P v) :
    P (Session.burnDown v position)
  tend {v : Inventory} {f : Item → Item}
    (h : ∀ i, (f i).id = i.id ∧ (i.isStackable = true → (f i).quantity = i.quantity))
    (hv : P v) : P { v with items := v.items.map f }

namespace Character

/-- A meal changes conditions only; the food is taken apart from it. -/
theorem eat_eq (c : Character) (meal : Option ItemId) :
    c.eat meal = { c with conditions := (c.eat meal).conditions } := by
  unfold eat
  split
  · rfl
  · split_ifs <;> rfl

theorem id_eat (c : Character) (meal : Option ItemId) : (c.eat meal).id = c.id := by
  rw [eat_eq]

theorem inventory_eat (c : Character) (meal : Option ItemId) :
    (c.eat meal).inventory = c.inventory := by
  rw [eat_eq]

end Character

namespace Party

/-- `P` holds of the key ring and of the belongings of everyone in the roster. -/
structure Carries (P : Inventory → Prop) (p : Party) : Prop where
  keys : P p.keys
  roster : ∀ c ∈ p.roster, P c.inventory

/-- What a party carries keeps `P`. -/
abbrev carrying (P : Inventory → Prop) : Rule Party := .keeping (Carries P)

variable {P : Inventory → Prop} {G : Item → Prop} {p : Party}

/-! ## Members -/

/-- A change of the character at a place. -/
theorem Carries.modify (hp : p.Carries P) (place : Nat) {f : Character → Character}
    (hf : ∀ c, P c.inventory → P (f c).inventory) :
    Carries P { p with roster := p.roster.modify place f } :=
  ⟨hp.keys, forall_mem_modify hp.roster fun c _ => hf c⟩

/-- A change of the member of a number. -/
theorem Carries.modifyMember (hp : p.Carries P) (id : CharId) {f : Character → Character}
    (hf : ∀ c, P c.inventory → P (f c).inventory) : (p.modifyMember id f).Carries P := by
  unfold Party.modifyMember
  split
  · exact hp.modify _ hf
  · exact hp

/-- A change of every active member. -/
theorem Carries.mapActive (hp : p.Carries P) {f : Character → Character}
    (hf : ∀ c, P c.inventory → P (f c).inventory) : (p.mapActive f).Carries P := by
  refine ⟨hp.keys, fun c hc => ?_⟩
  obtain ⟨i, hi, rfl⟩ := List.mem_mapIdx.1 hc
  have hmember := hp.roster _ (List.getElem_mem hi)
  split_ifs
  · exact hf _ hmember
  · exact hmember

/-! ## Taking away -/

/-- Whatever is taken away from a party, and whatever it eats, keeps `I`. -/
structure Enduring (I : Party → Prop) : Prop where
  gold {p : Party} (gold : Royals) (hp : I p) : I { p with gold }
  takeFrom {p : Party} (item : ItemId) (units place : Nat) (hp : I p) :
    I (p.takeFrom item units place).2
  takeKeys {p : Party} (item : ItemId) (units : Nat) (hp : I p) : I (p.takeKeys item units).2
  eat {p : Party} (eater : CharId) (meal : Option ItemId) (hp : I p) :
    I (p.modifyMember eater (·.eat meal))

namespace Enduring

variable {I : Party → Prop} (hI : Enduring I)

include hI

theorem takeInTurn (item : ItemId) (places : List Nat) (units : Nat) (hp : I p) :
    I (takeInTurn item places units p) := by
  induction places generalizing units p with
  | nil => exact hI.takeKeys item units hp
  | cons i rest ih => exact ih _ (hI.takeFrom item units i hp)

theorem obeys_loseItem (item : ItemId) (units : Nat) :
    (Rule.keeping I).Obeys (.update fun p => (p.loseItem item units).map (·.2)) := by
  refine Rule.obeys_keeping_update fun p q h hp => ?_
  unfold loseItem at h
  repeat' split at h
  all_goals cases h
  · exact hI.gold _ hp
  · exact hI.takeFrom item units _ hp
  · exact hI.takeKeys item units hp

theorem obeys_loseExactly (item : ItemId) (units : Nat) :
    (Rule.keeping I).Obeys (.update (·.loseExactly item units)) := by
  refine Rule.obeys_keeping_update fun p q h hp => ?_
  unfold loseExactly at h
  repeat' split at h
  all_goals cases h
  · exact hI.gold _ hp
  · exact hI.takeInTurn item _ units hp

/-- Who eats takes the food from someone who has it. -/
theorem obeys_serve (eater : CharId) (food : ItemId) :
    (Rule.keeping I).Obeys (serve eater food) := by
  have hlose := hI.obeys_loseExactly food 1
  intro p
  refine Rule.holds_get_bind ?_
  split
  · rename_i place _
    refine Rule.holds_bind (Rule.holds_set (hI.takeFrom food 1 place)) fun _ q _ => ?_
    split_ifs
    · exact hlose q
    · exact Rule.holds_pure _ q
  · exact hlose p

theorem obeys_dine (eaters : List CharId) : (Rule.keeping I).Obeys (dine eaters) := by
  induction eaters with
  | nil => exact Rule.obeys_pure _
  | cons eater rest ih =>
    refine Rule.obeys_get_bind fun p => ?_
    have heat : (Rule.keeping I).Obeys (modify fun q : Party => q.modifyMember eater
        (·.eat p.nextMeal?)) :=
      Rule.obeys_modify fun q hq => hI.eat eater _ hq
    dsimp only
    split
    · exact (hI.obeys_serve eater _).bind fun _ => heat.bind fun _ => ih
    · exact heat.bind fun _ => ih

theorem obeys_meal : (Rule.keeping I).Obeys meal :=
  Rule.obeys_get_bind fun p => hI.obeys_dine p.active

end Enduring

/-! ## Carrying -/

section

variable (hP : Inventory.Lasting P G)

include hP

theorem Carries.takeFrom (hp : p.Carries P) (item : ItemId) (units place : Nat) :
    (p.takeFrom item units place).2.Carries P := by
  unfold Party.takeFrom
  split
  · rename_i c hc
    have hmember := hp.roster c (List.mem_of_getElem? hc)
    refine ⟨hp.keys, fun d hd => ?_⟩
    obtain hd | rfl := List.mem_or_eq_of_mem_set hd
    · exact hp.roster d hd
    · exact hP.take item units hmember
  · exact hp

/-- What lasts for inventories endures for the party that carries them. -/
theorem enduring_carries : Enduring (Carries P) where
  gold _ hp := ⟨hp.keys, hp.roster⟩
  takeFrom item units place hp := hp.takeFrom hP item units place
  takeKeys item units hp := ⟨hP.take item units hp.keys, hp.roster⟩
  eat eater meal hp := hp.modifyMember eater fun c hc => by rwa [c.inventory_eat]

theorem carrying_gainItem {item : Item} (hi : G item) :
    (carrying P).Obeys (.update fun p => (p.gainItem item).map (·.2)) := by
  refine Rule.obeys_keeping_update fun p q h hp => ?_
  unfold gainItem at h
  -- Money goes to the purse, and anything else to the first member who has room for it.
  repeat' split at h
  all_goals cases h
  · exact ⟨hp.keys, hp.roster⟩
  · refine hp.modify _ fun c hc => ?_
    rcases hadd : c.inventory.add? item with _ | v
    · exact hc
    · exact hP.add hi hadd hc

end

theorem carrying_setActive (active : List CharId) :
    (carrying P).Obeys (.update (·.setActive active)) := by
  refine Rule.obeys_keeping_update fun p q h hp => ?_
  unfold setActive at h
  split at h
  · cases h
  · cases h
    exact ⟨hp.keys, hp.roster⟩

end Party

/-! ## Food -/

/-- What can be eaten. -/
def foods : List ItemId := [.rations, .spoiledRations, .poisonedRations]

/-- The item is no empty stack of food. -/
def Item.IsFilled (i : Item) : Prop := i.id ∈ foods → i.quantity ≠ 0

/-- Food stacks. -/
theorem ItemId.isStackable_of_mem_foods {id : ItemId} (h : id ∈ foods) : id.isStackable = true := by
  revert id
  decide

/-- Food gives no light. -/
theorem ItemId.kind_of_mem_foods {id : ItemId} (h : id ∈ foods) : id.kind = .ration := by
  revert id
  decide

/-- Filled food is there in units. -/
theorem Item.IsFilled.units_pos {i : Item} (h : i.IsFilled) (hid : i.id ∈ foods) : 0 < i.units := by
  rw [units, isStackable, ItemId.isStackable_of_mem_foods hid, if_pos rfl]
  exact Nat.pos_of_ne_zero fun hzero => h hid (UInt16.toNat_inj.1 hzero)

namespace Inventory

/-- No stack of food is empty. -/
def Stocked (v : Inventory) : Prop := ∀ i ∈ v.items, i.IsFilled

variable {v : Inventory} {items : List Item}

/-- What is added to a stack only fills it. -/
theorem isFilled_merge (i : Item) (h : ∀ e ∈ items, e.IsFilled) :
    ∀ e ∈ merge i items, e.IsFilled := by
  induction items with
  | nil => exact h
  | cons e rest ih =>
    obtain ⟨he, hrest⟩ := List.forall_mem_cons.1 h
    unfold merge
    split_ifs
    · refine List.forall_mem_cons.2 ⟨fun hid hzero => he hid ?_, hrest⟩
      have hsum := (toNat_nearest16 _).symm.trans (congrArg UInt16.toNat hzero)
      rw [UInt16.toNat_zero] at hsum
      have hnone : e.quantity.toNat = 0 := by omega
      exact UInt16.toNat_inj.1 hnone
    · exact List.forall_mem_cons.2 ⟨he, ih hrest⟩

/-- What is left of a stack is left in units. -/
theorem isFilled_take (id : ItemId) (units : Nat) (h : ∀ e ∈ items, e.IsFilled) :
    ∀ e ∈ (take id units items).2, e.IsFilled := by
  induction items generalizing units with
  | nil => cases units <;> exact h
  | cons e rest ih =>
    obtain ⟨he, hrest⟩ := List.forall_mem_cons.1 h
    rcases units with _ | n
    · exact h
    · unfold take
      split_ifs with hid hpart
      · refine List.forall_mem_cons.2 ⟨fun hfood hzero => ?_, hrest⟩
        rw [Item.units, Item.isStackable, ItemId.isStackable_of_mem_foods hfood,
          if_pos rfl] at hpart
        have hleft := UInt16.toNat_inj.2 hzero
        have hlt := e.quantity.toNat_lt
        simp only [UInt16.toNat_sub, UInt16.toNat_ofNat', UInt16.toNat_zero] at hleft
        omega
      · exact ih _ hrest
      · exact List.forall_mem_cons.2 ⟨he, ih _ hrest⟩

/-- A light that burns down is no food. -/
theorem stocked_burnDown {position : Nat} (h : v.equippedLight? = some position)
    (hv : v.Stocked) : (Session.burnDown v position).Stocked := by
  obtain ⟨hlt, hworn, -⟩ := List.findIdx?_eq_some_iff_getElem.1 h
  rw [Bool.and_eq_true, decide_eq_true_eq] at hworn
  have hremoved : (v.removeAt position).Stocked := fun i hi => hv i (List.mem_of_mem_eraseIdx hi)
  have hdimmed : ∀ quantity : UInt16,
      (v.modifyAt position fun i => { i with quantity, equipped := false }).Stocked := by
    refine fun quantity => forall_mem_modify hv fun i hi _ hfood => ?_
    rw [List.getElem?_eq_getElem hlt, Option.some.injEq] at hi
    subst hi
    have hkind := hworn.2.symm.trans (ItemId.kind_of_mem_foods hfood)
    cases hkind
  unfold Session.burnDown
  rw [List.getElem?_eq_getElem hlt]
  dsimp only
  generalize v.items[position].quantity - _ = quantity
  split_ifs
  · exact hremoved
  · exact hdimmed quantity

/-- Food that is there in units lasts, as long as no empty stack of it is handed out. -/
theorem lasting_stocked : Lasting Stocked Item.IsFilled where
  add hi h hv := by
    unfold add? at h
    split_ifs at h
    · cases h
      exact isFilled_merge _ hv
    · cases h
      exact List.forall_mem_append.2 ⟨hv, List.forall_mem_singleton.2 hi⟩
  take id units hv := isFilled_take id units hv
  burn h hv := stocked_burnDown h hv
  tend h hv := by
    refine List.forall_mem_map.2 fun i hi hid => ?_
    rw [(h i).1] at hid
    rw [(h i).2 (ItemId.isStackable_of_mem_foods hid)]
    exact hv i hi hid

end Inventory

end QuestLogic
