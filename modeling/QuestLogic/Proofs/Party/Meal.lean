import QuestLogic.Proofs.Party.Stock
import QuestLogic.Proofs.Party.Supply

/-!
# Meals

A member is served just if there is a unit of the food, his own or one that the party counts
(`Party.hinges_serve`), and a meal goes through just if there is a unit whenever some food is found
(`Party.hinges_meal`). A party without empty stacks of food always has one, as long as a word holds
the units of each kind of food (`Party.Carries.fed`).
-/

namespace QuestLogic

/-- Filled food that is held is there in units. -/
theorem Inventory.Stocked.supply_pos {v : Inventory} {id : ItemId} (hv : v.Stocked)
    (hid : id ∈ foods) (h : v.holds id = true) : 0 < v.supply id := by
  obtain ⟨e, he, hfound⟩ := List.any_eq_true.1 h
  obtain rfl := of_decide_eq_true hfound
  have hmem : e ∈ v.items.filter (·.id = e.id) := List.mem_filter.2 ⟨he, decide_eq_true rfl⟩
  exact Nat.lt_of_lt_of_le ((hv e he).units_pos hid) (le_foldr_of_mem Item.units hmem)

/-! ## Steps that run out of food -/

/-- From a state a step goes through just if `C` holds, and otherwise it meets the fault of a food
of which not a unit is there. -/
def Hinges {σ : Type} (C : Prop) (x : Step σ Unit) (s : σ) : Prop :=
  (C ∧ (x.run s).1 = .ok ()) ∨
    (¬C ∧ ∃ food ∈ foods, (x.run s).1 = .error (.unitsShort 0 food 1))

namespace Hinges

variable {σ : Type} {C D : Prop} {x y : Step σ Unit} {s t : σ}

/-- A step that goes through hinges on nothing. -/
theorem of_ok (h : (x.run s).1 = .ok ()) : Hinges True x s := .inl ⟨trivial, h⟩

theorem of_run_eq (h : x.run s = y.run t) (hy : Hinges C y t) : Hinges C x s := by
  rwa [Hinges, h]

theorem iff (hx : Hinges C x s) : (x.run s).1 = .ok () ↔ C := by
  obtain ⟨hC, hok⟩ | ⟨hC, food, -, herror⟩ := hx
  · exact iff_of_true hok hC
  · rw [herror]
    exact iff_of_false (fun h => by cases h) hC

/-- A sequence goes through just if both of its parts do. -/
theorem bind (hx : Hinges C x s) (hy : Hinges D y (x.run s).2) :
    Hinges (C ∧ D) (do x; y) s := by
  rcases hrun : x.run s with ⟨r, t⟩
  rw [Hinges, hrun] at hx
  rw [hrun] at hy
  obtain ⟨hC, hok⟩ | ⟨hC, food, hfood, herror⟩ := hx
  · obtain rfl : r = .ok () := hok
    rw [Hinges, Step.run_bind_ok hrun]
    obtain ⟨hD, hdone⟩ | ⟨hD, hfault⟩ := hy
    · exact .inl ⟨⟨hC, hD⟩, hdone⟩
    · exact .inr ⟨fun h => hD h.2, hfault⟩
  · obtain rfl : r = .error (.unitsShort 0 food 1) := herror
    rw [Hinges, Step.run_bind_error hrun]
    exact .inr ⟨fun h => hC h.1, food, hfood, rfl⟩

/-- What goes through anyway makes no difference. -/
theorem bind_of_ok (hx : Hinges C x s) (hy : (y.run (x.run s).2).1 = .ok ()) :
    Hinges C (do x; y) s := by
  have h := hx.bind (of_ok hy)
  rwa [and_true] at h

end Hinges

namespace Party

variable {p q : Party} {item : ItemId}

/-! ## Units of a party -/

variable {c : Character} {units place : Nat}

theorem takeFrom_of_getElem? (hc : p.roster[place]? = some c) : p.takeFrom item units place =
    ((c.inventory.removeUnits item units).1,
      { p with
        roster := p.roster.set place
          { c with inventory := (c.inventory.removeUnits item units).2 } }) := by
  rw [takeFrom, hc]

/-- As many units are taken from a member as there are, up to those that are asked for. -/
theorem fst_takeFrom (hc : p.roster[place]? = some c) :
    (p.takeFrom item units place).1 = min units (c.inventory.supply item) := by
  rw [takeFrom_of_getElem? hc]
  exact Inventory.fst_take item units _

/-- What is taken from a member leaves no more of anything. -/
theorem supply_takeFrom_le (p : Party) (item other : ItemId) (units place : Nat) :
    (p.takeFrom item units place).2.supply other ≤ p.supply other := by
  rcases hc : p.roster[place]? with _ | c
  · rw [takeFrom, hc]
  · rw [takeFrom_of_getElem? hc]
    exact supply_set_le hc rfl (c.inventory.supply_removeUnits_le item other units)

/-- Where a member has nothing that could be taken, the party has as many units as before. -/
theorem supply_takeFrom (hc : p.roster[place]? = some c) (hnone : c.inventory.supply item = 0) :
    (p.takeFrom item units place).2.supply item = p.supply item := by
  rw [takeFrom_of_getElem? hc]
  refine supply_set hc rfl ?_
  rw [Inventory.supply_removeUnits, hnone, Nat.zero_sub]

/-- Nothing is taken unless there is enough. -/
theorem loseExactly_cases (hitem : item.moneyValue? units = none) :
    (units ≤ (p.itemCount item).toNat ∧
        p.loseExactly item units = .ok (takeInTurn item p.marching units p)) ∨
      ((p.itemCount item).toNat < units ∧
        p.loseExactly item units =
          .error (.unitsShort (p.itemCount item).toNat item units)) := by
  rw [loseExactly, hitem]
  dsimp only
  split_ifs with h
  · exact .inr ⟨h, rfl⟩
  · exact .inl ⟨Nat.le_of_not_lt h, rfl⟩

/-- Food is no money. -/
theorem moneyValue?_of_mem_foods {food : ItemId} (h : food ∈ foods) (units : Nat) :
    food.moneyValue? units = none := by
  have hcoins : food ≠ .sovereigns ∧ food ≠ .royals := by
    revert food
    decide
  rw [ItemId.moneyValue?, if_neg hcoins.1, if_neg hcoins.2]

/-! ## Meals -/

/-- A unit of food is taken from the party just if it counts one. -/
theorem hinges_loseExactly {food : ItemId} (hfood : food ∈ foods) (p : Party) :
    Hinges (0 < (p.itemCount food).toNat) (.update (·.loseExactly food 1)) p := by
  obtain ⟨hpos, h⟩ | ⟨hzero, h⟩ := p.loseExactly_cases (moneyValue?_of_mem_foods hfood 1)
  · exact .inl ⟨hpos, congrArg Prod.fst (Step.run_update_ok h)⟩
  · rw [Nat.lt_one_iff.1 hzero] at h
    exact .inr ⟨Nat.not_lt.2 (Nat.le_of_lt_succ hzero), food, hfood,
      congrArg Prod.fst (Step.run_update_error h)⟩

/-- There is a unit of the food for whoever eats: one of his own, or one that the party counts. -/
def Serves (p : Party) (eater : CharId) (food : ItemId) : Prop :=
  (∃ c, p.member? eater = some c ∧ 0 < c.inventory.supply food) ∨ 0 < (p.itemCount food).toNat

/-- A member is served just if there is a unit of the food. -/
theorem hinges_serve {food : ItemId} (hfood : food ∈ foods) (eater : CharId) (p : Party) :
    Hinges (p.Serves eater food) (serve eater food) p := by
  refine .of_run_eq (Step.run_bind_ok (Step.run_get p) _) ?_
  split
  · rename_i place hplace
    obtain ⟨c, hc, hmember⟩ := exists_of_place? hplace
    have htaken : (p.takeFrom food 1 place).1 = min 1 (c.inventory.supply food) := fst_takeFrom hc
    refine .of_run_eq (Step.run_bind_ok (Step.run_set p _) _) ?_
    -- One's own food comes first, and if there is none of it the others have as much as before.
    split_ifs with htook
    · have htook' : min 1 (c.inventory.supply food) = 0 := htaken ▸ htook
      have hnone : c.inventory.supply food = 0 := by omega
      have hcount : (p.takeFrom food 1 place).2.itemCount food = p.itemCount food :=
        itemCount_congr (supply_takeFrom hc hnone)
      have hothers : p.Serves eater food ↔ 0 < (p.itemCount food).toNat :=
        or_iff_right fun ⟨d, hd, hpos⟩ => by
          obtain rfl := Option.some.inj (hmember.symm.trans hd)
          omega
      rw [hothers, ← hcount]
      exact hinges_loseExactly hfood _
    · have htook' : min 1 (c.inventory.supply food) ≠ 0 := htaken ▸ htook
      exact .inl ⟨.inl ⟨c, hmember, by omega⟩, rfl⟩
  · rename_i hplace
    have hmember : p.member? eater = none := by
      rw [member?_eq, show p.place? eater = none from hplace, Option.bind_none]
    have hothers : p.Serves eater food ↔ 0 < (p.itemCount food).toNat :=
      or_iff_right fun ⟨d, hd, _⟩ => by
        rw [hmember] at hd
        cases hd
    rw [hothers]
    exact hinges_loseExactly hfood p

/-- There is a unit of the food that the party finds first for whoever eats. -/
def Provided (p : Party) (eater : CharId) : Prop :=
  ∀ food, p.nextMeal? = some food → p.Serves eater food

/-- Whenever one of the members eats, there is a unit of the food that the party finds first. -/
def Fed : List CharId → Party → Prop
  | [], _ => True
  | eater :: rest, p => p.Provided eater ∧ Fed rest ((dine [eater]).run p).2

theorem nextMeal?_eq_some {food : ItemId} (h : p.nextMeal? = some food) :
    food ∈ foods ∧ p.holds food = true :=
  ⟨List.mem_of_find?_eq_some h, List.find?_some h⟩

/-- Members eat one after the other. -/
theorem run_dine_cons (eater : CharId) (rest : List CharId) (p : Party) :
    (dine (eater :: rest)).run p = (do
      dine [eater]
      dine rest).run p := by
  refine congrArg (Step.run · p) ?_
  simp only [dine, bind_assoc]
  refine congrArg (get >>= ·) (funext fun q => ?_)
  rcases q.nextMeal? with _ | food <;> simp only [bind_assoc, pure_bind]

/-- A member eats just if there is a unit of the food that the party finds first. -/
theorem hinges_dine_singleton (eater : CharId) (p : Party) :
    Hinges (p.Provided eater) (dine [eater]) p := by
  refine .of_run_eq (Step.run_bind_ok (Step.run_get p) _) ?_
  rcases hmeal : p.nextMeal? with _ | food
  · have hprovided : p.Provided eater := fun food hfood => by
      rw [hmeal] at hfood
      cases hfood
    exact .inl ⟨hprovided, rfl⟩
  · have hprovided : p.Provided eater ↔ p.Serves eater food := by
      rw [Provided, hmeal]
      exact ⟨fun h => h food rfl, fun h _ hfood => Option.some.inj hfood ▸ h⟩
    rw [hprovided]
    exact (hinges_serve (nextMeal?_eq_some hmeal).1 eater p).bind_of_ok rfl

/-- Members eat just if there is a unit of the food whenever one of them does. -/
theorem hinges_dine (eaters : List CharId) (p : Party) : Hinges (Fed eaters p) (dine eaters) p := by
  induction eaters generalizing p with
  | nil => exact .of_ok rfl
  | cons eater rest ih =>
    refine .of_run_eq (run_dine_cons eater rest p) ?_
    exact (hinges_dine_singleton eater p).bind (ih _)

/-- The party has its meal just if there is a unit of the food whenever one of them eats. -/
theorem hinges_meal (p : Party) : Hinges (Fed p.active p) meal p :=
  .of_run_eq (Step.run_bind_ok (Step.run_get p) _) (hinges_dine p.active p)

/-! ## Food that can be counted -/

/-- A word holds the units of each kind of food. -/
def CountsFood (p : Party) : Prop := ∀ food ∈ foods, p.supply food < 2 ^ 32

theorem CountsFood.of_supply_le (hp : p.CountsFood) (h : ∀ food, q.supply food ≤ p.supply food) :
    q.CountsFood := fun food hfood => Nat.lt_of_le_of_lt (h food) (hp food hfood)

/-- Food that is taken away or eaten leaves less to be counted. -/
theorem enduring_countsFood : Enduring CountsFood where
  gold _ hp := hp
  takeFrom item units place hp :=
    hp.of_supply_le fun food => supply_takeFrom_le _ item food units place
  takeKeys item units hp := hp.of_supply_le fun food =>
    Nat.add_le_add_right (Inventory.supply_removeUnits_le _ item food units) _
  eat eater meal hp := hp.of_supply_le fun food => Nat.le_of_eq <| by
    unfold modifyMember
    split
    · refine supply_congr_of_belongings rfl rfl (map_modify (fun c => ?_) _ _)
      rw [c.id_eat, c.inventory_eat]
    · rfl

/-- A party without empty stacks of food has a unit of the food that it holds. -/
theorem Carries.supply_pos (hp : p.Carries Inventory.Stocked) {food : ItemId}
    (hfood : food ∈ foods) (h : p.holds food = true) : 0 < p.supply food := by
  rw [holds, Bool.or_eq_true, List.any_eq_true] at h
  obtain hkeys | ⟨c, hc, hmember⟩ := h
  · exact Nat.lt_of_lt_of_le (hp.keys.supply_pos hfood hkeys) (Nat.le_add_right _ _)
  · obtain ⟨id, hid, hfound⟩ := List.mem_filterMap.1 hc
    have hstocked := hp.roster c (List.mem_of_find?_eq_some hfound)
    exact Nat.lt_of_lt_of_le (hstocked.supply_pos hfood hmember) (supply_member_le hid hfound)

/-- A party without empty stacks of food has a unit of what it finds. -/
theorem Carries.provided (hp : p.Carries Inventory.Stocked) (hcount : p.CountsFood)
    (eater : CharId) : p.Provided eater := by
  intro food hmeal
  obtain ⟨hfood, hholds⟩ := nextMeal?_eq_some hmeal
  refine .inr ?_
  rw [toNat_itemCount (hcount food hfood)]
  exact hp.supply_pos hfood hholds

/-- A party without empty stacks of food always has a unit of what it finds. -/
theorem Carries.fed (hp : p.Carries Inventory.Stocked) (hcount : p.CountsFood)
    (eaters : List CharId) : Fed eaters p := by
  have hdine := (enduring_carries Inventory.lasting_stocked).obeys_dine
  induction eaters generalizing p with
  | nil => trivial
  | cons eater rest ih =>
    have hleft := (enduring_countsFood.obeys_dine [eater] p).1 hcount
    exact ⟨hp.provided hcount eater, ih ((hdine [eater] p).1 hp) hleft⟩

end Party

end QuestLogic
