import QuestLogic.Proofs.Party.Company
import QuestLogic.Proofs.Party.Range
import QuestLogic.Proofs.Party.Removal

/-!
# Who eats what

The members on the road eat in their order, each of them the best food that is left, wherever it is
(`Party.run_dine_singleton`). So what a member eats is told by the rank alone: good food as long as
it lasts, then spoiled, then poisoned (`Party.ration`). After the meal each kind is short of as many
units as there were eaters who came to it, what the food does to each of them is told by its kind
(`Character.Eats`), and nothing else has changed (`Party.meal_by_rank`).
-/

namespace QuestLogic

/-! ## Food that is taken -/

/-- Nothing differs but the entries of food. -/
structure Inventory.SameButFood (v w : Inventory) : Prop where
  capacity : w.capacity = v.capacity
  others : w.items.filter (·.id ∉ foods) = v.items.filter (·.id ∉ foods)

namespace Inventory

variable {v w u : Inventory} {id : ItemId}

theorem SameButFood.refl (v : Inventory) : v.SameButFood v := ⟨rfl, rfl⟩

theorem SameButFood.trans (h : v.SameButFood w) (h' : w.SameButFood u) : v.SameButFood u :=
  ⟨h'.capacity.trans h.capacity, h'.others.trans h.others⟩

/-- The entries of one kind of food are entries of food. -/
theorem SameBut.sameButFood (hid : id ∈ foods) (h : SameBut id v w) : v.SameButFood w := by
  have hfilter : ∀ x : Inventory, x.items.filter (·.id ∉ foods) =
      (x.items.filter (·.id ≠ id)).filter (·.id ∉ foods) := by
    intro x
    rw [List.filter_filter]
    refine List.filter_congr fun e _ => ?_
    by_cases he : e.id = id
    · simp [he, hid]
    · simp [he]
  exact ⟨h.capacity, by rw [hfilter, hfilter, h.others]⟩

/-- Of an item that is not held there is no unit. -/
theorem supply_eq_zero (h : v.holds id = false) : v.supply id = 0 := by
  have hnone : v.items.filter (·.id = id) = [] :=
    List.filter_eq_nil_iff.2 fun e he => by simpa using List.any_eq_false.1 h e he
  rw [supply, tally, hnone]
  rfl

end Inventory

/-! ## What food does -/

/-- How far a condition has gone after a meal or, where there is none, after going without. Good and
spoiled food still hunger, spoiled food makes sick, poisoned food poisons, and no condition goes
further than one hundred percent. -/
def Condition.degreeAfter (meal : Option ItemId) (n : Nat) : Condition → Nat
  | .starving =>
    if meal = none then min 100 (n + 5)
    else if meal = some .poisonedRations then n
    else min 100 (n - 100)
  | .sick => if meal = some .spoiledRations then min 100 (n + 3) else n
  | .poisoned => if meal = some .poisonedRations then min 100 (n + 4) else n
  | _ => n

namespace Character

variable {c d e : Character} {meal : Option ItemId} {item : ItemId}

/-- Nothing differs but the food that the character has. -/
def SameButFood (c d : Character) : Prop :=
  ∃ v, c.inventory.SameButFood v ∧ d = { c with inventory := v }

theorem SameButFood.refl (c : Character) : c.SameButFood c := ⟨_, .refl _, rfl⟩

theorem SameButFood.trans (h : c.SameButFood d) (h' : d.SameButFood e) : c.SameButFood e := by
  obtain ⟨v, hv, rfl⟩ := h
  obtain ⟨w, hw, rfl⟩ := h'
  exact ⟨w, hv.trans hw, rfl⟩

theorem SameButFood.id_eq (h : c.SameButFood d) : d.id = c.id := by
  obtain ⟨v, -, rfl⟩ := h
  rfl

/-- Whoever parts with a kind of food parts with food. -/
theorem Parts.sameButFood (hitem : item ∈ foods) (h : c.Parts item d) : c.SameButFood d := by
  obtain ⟨v, hv, rfl⟩ := h
  exact ⟨v, hv.sameButFood hitem, rfl⟩

/-- A meal does to a character what it does to one who has other food. -/
theorem SameButFood.eat (h : c.SameButFood d) (meal : Option ItemId) :
    (c.eat meal).SameButFood (d.eat meal) := by
  obtain ⟨v, hv, rfl⟩ := h
  refine ⟨v, by rwa [inventory_eat], ?_⟩
  unfold Character.eat
  split
  · rfl
  · split_ifs <;> rfl

theorem eat_rations (c : Character) :
    c.eat (some .rations) = c.adjustCondition .starving (-100) := rfl

theorem eat_spoiledRations (c : Character) : c.eat (some .spoiledRations) =
    (c.adjustCondition .starving (-100)).adjustCondition .sick 3 := rfl

theorem eat_poisonedRations (c : Character) :
    c.eat (some .poisonedRations) = c.adjustCondition .poisoned 4 := rfl

/-- What a meal does to each condition. -/
theorem degree_eat (c : Character) (hmeal : ∀ food, meal = some food → food ∈ foods)
    (k : Condition) : ((c.eat meal).conditions.degree k).toNat =
      k.degreeAfter meal (c.conditions.degree k).toNat := by
  rcases meal with _ | food
  · rw [eat, adjustCondition, Conditions.toNat_degree_adjust]
    cases k with
    | starving =>
      show min 100 _ = min 100 _
      omega
    | _ => rfl
  · have hfood := hmeal food rfl
    simp only [foods, List.mem_cons, List.not_mem_nil, or_false] at hfood
    obtain rfl | rfl | rfl := hfood
    · rw [eat_rations, adjustCondition, Conditions.toNat_degree_adjust]
      cases k with
      | starving =>
        show min 100 _ = min 100 _
        omega
      | _ => rfl
    · rw [eat_spoiledRations, adjustCondition, adjustCondition, Conditions.toNat_degree_adjust]
      simp only [Conditions.toNat_degree_adjust]
      cases k with
      | starving =>
        show min 100 _ = min 100 _
        omega
      | _ => rfl
    · rw [eat_poisonedRations, adjustCondition, Conditions.toNat_degree_adjust]
      cases k <;> rfl

/-- What has become of a character who has had a meal, or none: each condition is as far as the meal
takes it, and nothing else differs but food that the character had. -/
structure Eats (meal : Option ItemId) (c d : Character) : Prop where
  degree : ∀ k, (d.conditions.degree k).toNat = k.degreeAfter meal (c.conditions.degree k).toNat
  /-- Whoever is fed does not starve, as no condition goes past one hundred percent. -/
  cleared : meal = some .rations ∨ meal = some .spoiledRations →
    c.conditions.degree .starving ≤ 100 → d.conditions.degree .starving = 0
  food : c.inventory.SameButFood d.inventory
  rest : d = { c with conditions := d.conditions, inventory := d.inventory }

variable {meal : Option ItemId}

/-- A character eats by eating, whatever becomes of its food. -/
theorem eats_of_sameButFood (hmeal : ∀ food, meal = some food → food ∈ foods)
    (h : (c.eat meal).SameButFood d) : c.Eats meal d := by
  obtain ⟨v, hv, rfl⟩ := h
  have hdegree := c.degree_eat hmeal
  refine ⟨hdegree, fun hfed hle => ?_, by rwa [inventory_eat] at hv, ?_⟩
  · have hstarving := hdegree .starving
    have hn : (c.conditions.degree .starving).toNat ≤ 100 := UInt8.le_iff_toNat_le.1 hle
    have hgood : meal ≠ none ∧ meal ≠ some .poisonedRations := by
      obtain rfl | rfl := hfed
      all_goals decide
    rw [Condition.degreeAfter, if_neg hgood.1, if_neg hgood.2] at hstarving
    apply UInt8.toNat_inj.1
    rw [UInt8.toNat_zero]
    dsimp only
    omega
  · dsimp only
    rw [eat_eq]

end Character

namespace Party

variable {p q r : Party} {food item : ItemId} {taken : Option ItemId} {eater : CharId}
  {eaters : List CharId}

/-! ## What is left to eat -/

/-- The food that is left for the member of a rank: good as long as it lasts, then spoiled, then
poisoned. -/
def ration (p : Party) (k : Nat) : Option ItemId :=
  let good := p.supply .rations
  let spoiled := p.supply .spoiledRations
  let poisoned := p.supply .poisonedRations
  if k < good then some .rations
  else if k < good + spoiled then some .spoiledRations
  else if k < good + spoiled + poisoned then some .poisonedRations
  else none

theorem mem_foods_of_ration {k : Nat} (h : p.ration k = some food) : food ∈ foods := by
  unfold ration at h
  dsimp only at h
  split_ifs at h
  all_goals
    cases h
    decide

/-- The first ration is of the best food that there is. -/
theorem ration_zero_cases (p : Party) :
    (p.ration 0 = some .rations ∧ 0 < p.supply .rations) ∨
      (p.ration 0 = some .spoiledRations ∧ p.supply .rations = 0 ∧
        0 < p.supply .spoiledRations) ∨
      (p.ration 0 = some .poisonedRations ∧ p.supply .rations = 0 ∧
        p.supply .spoiledRations = 0 ∧ 0 < p.supply .poisonedRations) ∨
      (p.ration 0 = none ∧ p.supply .rations = 0 ∧ p.supply .spoiledRations = 0 ∧
        p.supply .poisonedRations = 0) := by
  unfold ration
  dsimp only
  split_ifs with hgood hspoiled hpoisoned
  · exact .inl ⟨rfl, hgood⟩
  · exact .inr (.inl ⟨rfl, by omega, by omega⟩)
  · exact .inr (.inr (.inl ⟨rfl, by omega, by omega, by omega⟩))
  · exact .inr (.inr (.inr ⟨rfl, by omega, by omega, by omega⟩))

/-- Without empty stacks, food that is held is there in units. -/
theorem Carries.holds_iff (hp : p.Carries Inventory.Stocked) (hfood : food ∈ foods) :
    p.holds food = true ↔ 0 < p.supply food := by
  refine ⟨hp.supply_pos hfood, fun hpos => ?_⟩
  by_contra hnone
  rw [Bool.not_eq_true, holds, Bool.or_eq_false_iff] at hnone
  obtain ⟨hkeys, hmembers⟩ := hnone
  have hsum : (p.holdings food p.active).sum = 0 := by
    refine List.sum_eq_zero_iff_forall_eq_nat.2 fun n hn => ?_
    obtain ⟨c, hc, rfl⟩ := List.mem_map.1 hn
    exact Inventory.supply_eq_zero (Bool.eq_false_iff.2 (List.any_eq_false.1 hmembers c hc))
  rw [supply_eq, Inventory.supply_eq_zero hkeys, hsum] at hpos
  exact absurd hpos (Nat.lt_irrefl 0)

/-- The next to eat finds the ration of the first rank. -/
theorem Carries.nextMeal?_eq (hp : p.Carries Inventory.Stocked) : p.nextMeal? = p.ration 0 := by
  have hholds : ∀ food ∈ foods, p.holds food = decide (0 < p.supply food) := by
    intro food hfood
    rw [Bool.eq_iff_iff, hp.holds_iff hfood, decide_eq_true_eq]
  have hgood := hholds .rations (by decide)
  have hspoiled := hholds .spoiledRations (by decide)
  have hpoisoned := hholds .poisonedRations (by decide)
  simp only [nextMeal?, List.find?_cons, List.find?_nil, hgood, hspoiled, hpoisoned]
  obtain ⟨hration, hg⟩ | ⟨hration, hg, hs⟩ | ⟨hration, hg, hs, hp⟩ | ⟨hration, hg, hs, hp⟩ :=
    p.ration_zero_cases
  · simp [hration, hg]
  · simp [hration, hg, hs]
  · simp [hration, hg, hs, hp]
  · simp [hration, hg, hs, hp]

/-! ## One unit of food -/

/-- A unit of the food has been taken from someone on the road or from the key ring, or nothing if
there is none. -/
structure Gives (taken : Option ItemId) (p q : Party) : Prop where
  gold : q.gold = p.gold
  active : q.active = p.active
  supply : ∀ item, q.supply item + (if taken = some item then 1 else 0) = p.supply item
  roster : List.Forall₂ (fun c d => c.SameButFood d ∧ (c.id ∉ p.active → d = c)) p.roster q.roster
  ring : p.keys.SameButFood q.keys

theorem Gives.refl (p : Party) : Gives none p p where
  gold := rfl
  active := rfl
  supply _ := rfl
  roster := List.forall₂_same.2 fun c _ => ⟨.refl c, fun _ => rfl⟩
  ring := .refl p.keys

theorem Gives.ids_eq (h : Gives taken p q) : q.roster.map (·.id) = p.roster.map (·.id) :=
  ids_eq_of_forall₂ (fun hc => hc.1.id_eq) h.roster

theorem Gives.supply_self (h : Gives (some food) p q) : q.supply food + 1 = p.supply food := by
  have hsupply := h.supply food
  rwa [if_pos rfl] at hsupply

theorem Gives.supply_of_ne (h : Gives (some food) p q) (hne : item ≠ food) :
    q.supply item = p.supply item := by
  have hsupply := h.supply item
  rwa [if_neg (by simpa using hne.symm), Nat.add_zero] at hsupply

/-- Nothing is taken, and then something. -/
theorem Gives.trans (h : Gives none p q) (h' : Gives taken q r) : Gives taken p r where
  gold := h'.gold.trans h.gold
  active := h'.active.trans h.active
  supply item := (h'.supply item).trans (h.supply item)
  roster := by
    refine forall₂_trans h.roster h'.roster fun {c d e} hc hd => ⟨hc.1.trans hd.1, fun hout => ?_⟩
    obtain rfl := hc.2 hout
    rw [h.active] at hd
    exact hd.2 hout
  ring := h.ring.trans h'.ring

/-- The number of units of each item, if it is one unit of the food that is missing. -/
theorem supply_add_of_taken (htaken : q.supply food + 1 = p.supply food)
    (hothers : ∀ item ≠ food, q.supply item = p.supply item) (item : ItemId) :
    q.supply item + (if some food = some item then 1 else 0) = p.supply item := by
  rcases eq_or_ne item food with rfl | hne
  · rwa [if_pos rfl]
  · rw [if_neg (by simpa using hne.symm), Nat.add_zero, hothers item hne]

/-- Whoever gives food alone is someone on the road. -/
theorem OnlyFrom.roster_of_food {ids : List CharId} (h : OnlyFrom food ids p q)
    (hfood : food ∈ foods) (hids : ∀ id ∈ ids, id ∈ p.active) :
    List.Forall₂ (fun c d => c.SameButFood d ∧ (c.id ∉ p.active → d = c)) p.roster q.roster :=
  List.Forall₂.imp (fun _ _ hc =>
    ⟨hc.1.sameButFood hfood, fun hout => hc.2 fun hid => hout (hids _ hid)⟩) h

/-- A party that has lost one unit of food has given it. -/
theorem Loses.gives (h : Loses food 1 p q) (hfood : food ∈ foods) : Gives (some food) p q where
  gold := h.gold
  active := h.active
  supply := supply_add_of_taken h.supply h.others
  roster := h.roster.roster_of_food hfood fun _ hid => hid
  ring := h.ring.sameButFood hfood

/-- Among the holdings of the members only those of whoever gives are others. -/
theorem sum_holdings_of_onlyFrom {ids : List CharId} {id : CharId} {c d : Character}
    (h : OnlyFrom item [id] p q) (hids : ids.Nodup) (hid : id ∈ ids) (hc : p.member? id = some c)
    (hd : q.member? id = some d) :
    (q.holdings item ids).sum + c.inventory.supply item =
      (p.holdings item ids).sum + d.inventory.supply item := by
  have hothers : ∀ ids' : List CharId, id ∉ ids' → q.holdings item ids' = p.holdings item ids' :=
    fun ids' hout => holdings_congr fun id' hid' =>
      h.member?_eq (by simpa using fun heq : id' = id => hout (heq ▸ hid'))
  induction ids with
  | nil => cases hid
  | cons id' rest ih =>
    obtain ⟨hout, hrest⟩ := List.nodup_cons.1 hids
    rcases eq_or_ne id' id with rfl | hne
    · rw [holdings_cons_some hc, holdings_cons_some hd, List.sum_cons, List.sum_cons,
        hothers rest hout]
      omega
    · have hsame : q.member? id' = p.member? id' := h.member?_eq (by simpa using hne)
      have hlater := ih hrest ((List.mem_cons.1 hid).resolve_left hne.symm)
      rcases hmember : p.member? id' with _ | b
      · rwa [holdings_cons_none hmember, holdings_cons_none (hsame.trans hmember)]
      · rw [holdings_cons_some hmember, holdings_cons_some (hsame.trans hmember), List.sum_cons,
          List.sum_cons]
        omega

/-- Someone on the road who has a unit of the food gives it, and otherwise nothing is taken. -/
theorem gives_takeFrom {place : Nat} (hactive : p.active.Nodup) (heater : eater ∈ p.active)
    (hfood : food ∈ foods) (hplace : p.place? eater = some place) :
    ∃ n q, p.takeFrom food 1 place = (n, q) ∧ Gives (if n = 0 then none else some food) p q := by
  obtain ⟨c, d, q, hc, hd, htake, hsupply, honly, -, hgold, hroad, hkeys⟩ :=
    takeFrom_of_place? hplace food 1
  have hsum := sum_holdings_of_onlyFrom honly hactive heater hc hd
  have hothers : ∀ item ≠ food, q.supply item = p.supply item := fun item hne =>
    supply_congr hroad (by rw [hkeys]) (honly.supply_eq hne)
  have hfewer : q.supply food + min 1 (c.inventory.supply food) = p.supply food := by
    rw [supply_eq, supply_eq, hroad, hkeys]
    omega
  refine ⟨_, q, htake, hgold, hroad, fun item => ?_, ?_, by rw [hkeys]; exact .refl p.keys⟩
  · by_cases hn : min 1 (c.inventory.supply food) = 0
    · rw [if_pos hn, if_neg nofun, Nat.add_zero]
      rcases eq_or_ne item food with rfl | hne
      · omega
      · exact hothers item hne
    · rw [if_neg hn]
      exact supply_add_of_taken (by omega) hothers item
  · refine honly.roster_of_food hfood fun id hid => ?_
    rwa [List.mem_singleton.1 hid]

theorem isMoney_of_mem_foods (hfood : food ∈ foods) : food.isMoney = false := by
  revert food
  decide

/-- Whoever eats has a unit of the food from somewhere, if the party has one and no more than it can
count. -/
theorem run_serve (hids : (p.roster.map (·.id)).Nodup) (hactive : p.active.Nodup)
    (heater : eater ∈ p.active) (hfood : food ∈ foods) (hword : p.supply food < 2 ^ 32)
    (hpos : 0 < p.supply food) :
    ∃ q, (serve eater food).run p = (.ok (), q) ∧ Gives (some food) p q := by
  have hlose : ∀ r : Party, (r.roster.map (·.id)).Nodup → r.active.Nodup →
      r.supply food = p.supply food →
      ∃ q, (Step.update (·.loseExactly food 1)).run r = (.ok (), q) ∧ Gives (some food) r q := by
    intro r hids hactive hsupply
    have hword' : r.supply food < 2 ^ 32 := hsupply ▸ hword
    obtain ⟨-, q, hrun, hloses⟩ | ⟨hshort, -⟩ :=
      run_loseExactly_units hids hactive (isMoney_of_mem_foods hfood) hword' 1
    · exact ⟨q, hrun, hloses.gives hfood⟩
    · rw [toNat_itemCount hword'] at hshort
      omega
  rw [serve, Step.run_bind_ok (Step.run_get p)]
  split
  · rename_i place hplace
    obtain ⟨n, r, htake, hgives⟩ := gives_takeFrom hactive heater hfood hplace
    rw [htake]
    dsimp only
    rw [Step.run_bind_ok (Step.run_set p r)]
    -- One's own food comes first, and if there is none of it the others have as much as before.
    split_ifs at hgives ⊢ with hn
    · have hsupply : r.supply food = p.supply food := hgives.supply food
      obtain ⟨q, hrun, hlost⟩ :=
        hlose r (hgives.ids_eq ▸ hids) (hgives.active ▸ hactive) hsupply
      exact ⟨q, hrun, hgives.trans hlost⟩
    · exact ⟨r, rfl, hgives⟩
  · exact hlose p hids hactive rfl

/-! ## One after the other -/

/-- What has become of a character once some have eaten in turn, each the meal of his rank. -/
structure Dined (eaters : List CharId) (meals : Nat → Option ItemId) (c d : Character) : Prop where
  eats : ∀ k, eaters[k]? = some c.id → (c.eat (meals k)).SameButFood d
  fasts : c.id ∉ eaters → c.SameButFood d

section

variable {meals later : Nat → Option ItemId} {c d e : Character}

theorem Dined.id_eq (h : Dined eaters meals c d) : d.id = c.id := by
  by_cases hmem : c.id ∈ eaters
  · obtain ⟨k, hk⟩ := List.mem_iff_getElem?.1 hmem
    exact (h.eats k hk).id_eq.trans (c.id_eat _)
  · exact (h.fasts hmem).id_eq

/-- One eats, whoever has taken the food. -/
theorem dined_singleton (h : c.SameButFood d) (eater : CharId) (meals : Nat → Option ItemId) :
    Dined [eater] meals c (if d.id = eater then d.eat (meals 0) else d) where
  eats k hk := by
    rcases k with _ | k
    · obtain rfl : eater = c.id := Option.some.inj hk
      rw [if_pos h.id_eq]
      exact h.eat _
    · cases hk
  fasts hnone := by
    rw [if_neg (by rw [h.id_eq]; simpa using hnone)]
    exact h

/-- The first eats, and then the rest, each of whom moves up a rank. -/
theorem Dined.cons (hout : eater ∉ eaters) (hlater : ∀ k, later k = meals (k + 1))
    (h : Dined [eater] meals c d) (h' : Dined eaters later d e) :
    Dined (eater :: eaters) meals c e where
  eats k hk := by
    have hid := h.id_eq
    cases k with
    | zero =>
      obtain rfl : eater = c.id := Option.some.inj hk
      exact (h.eats 0 rfl).trans (h'.fasts (hid ▸ hout))
    | succ k =>
      have hk' : eaters[k]? = some c.id := hk
      have hne : c.id ∉ [eater] := by
        rw [List.mem_singleton]
        rintro rfl
        exact hout (List.mem_of_getElem? hk')
      have hmeal := h'.eats k (hid ▸ hk')
      rw [hlater] at hmeal
      exact ((h.fasts hne).eat _).trans hmeal
  fasts hnone := by
    rw [List.mem_cons, not_or] at hnone
    have hfirst := h.fasts (by simpa using hnone.1)
    exact hfirst.trans (h'.fasts (by rw [hfirst.id_eq]; exact hnone.2))

end

/-- The members of some numbers have eaten in turn what is left for their ranks. -/
structure Feeds (eaters : List CharId) (p q : Party) : Prop where
  gold : q.gold = p.gold
  active : q.active = p.active
  good : q.supply .rations = p.supply .rations - eaters.length
  spoiled : q.supply .spoiledRations =
    p.supply .spoiledRations - (eaters.length - p.supply .rations)
  poisoned : q.supply .poisonedRations = p.supply .poisonedRations -
    (eaters.length - p.supply .rations - p.supply .spoiledRations)
  roster : List.Forall₂ (fun c d => Dined eaters p.ration c d ∧
    (c.id ∉ p.active → d.inventory = c.inventory)) p.roster q.roster
  ring : p.keys.SameButFood q.keys

/-- When one has eaten, everyone moves up a rank. -/
theorem Feeds.ration_succ (h : Feeds [eater] p q) (k : Nat) : q.ration k = p.ration (k + 1) := by
  obtain ⟨-, -, hgood, hspoiled, hpoisoned, -, -⟩ := h
  rw [List.length_singleton] at hgood hspoiled hpoisoned
  unfold ration
  dsimp only
  rw [hgood, hspoiled, hpoisoned]
  refine if_congr (by omega) rfl (if_congr (by omega) rfl (if_congr (by omega) rfl rfl))

/-- The first eats, and then the rest. -/
theorem Feeds.cons (hout : eater ∉ eaters) (h : Feeds [eater] p q) (h' : Feeds eaters q r) :
    Feeds (eater :: eaters) p r := by
  have hration := h.ration_succ
  obtain ⟨hgold, hactive, hgood, hspoiled, hpoisoned, hroster, hring⟩ := h
  rw [List.length_singleton] at hgood hspoiled hpoisoned
  refine ⟨h'.gold.trans hgold, h'.active.trans hactive, ?_, ?_, ?_, ?_, hring.trans h'.ring⟩
  · rw [h'.good, hgood, List.length_cons]
    omega
  · rw [h'.spoiled, hgood, hspoiled, List.length_cons]
    omega
  · rw [h'.poisoned, hgood, hspoiled, hpoisoned, List.length_cons]
    omega
  refine forall₂_trans hroster h'.roster fun {c d e} hc hd =>
    ⟨hc.1.cons hout hration hd.1, fun hroad => ?_⟩
  have hlater := hd.2 (by rwa [hc.1.id_eq, hactive])
  exact hlater.trans (hc.2 hroad)

/-- Once the first has been given his ration, one unit is missing of the best food that there
was. -/
theorem Gives.supplies (h : Gives (p.ration 0) p r) :
    r.supply .rations = p.supply .rations - 1 ∧
      r.supply .spoiledRations =
        p.supply .spoiledRations - (1 - p.supply .rations) ∧
      r.supply .poisonedRations = p.supply .poisonedRations -
        (1 - p.supply .rations - p.supply .spoiledRations) := by
  obtain ⟨hration, hg⟩ | ⟨hration, hg, hs⟩ | ⟨hration, hg, hs, hp⟩ | ⟨hration, hg, hs, hp⟩ :=
    p.ration_zero_cases
  all_goals rw [hration] at h
  · have hgood := h.supply_self
    rw [h.supply_of_ne (by decide : ItemId.spoiledRations ≠ .rations),
      h.supply_of_ne (by decide : ItemId.poisonedRations ≠ .rations)]
    omega
  · have hspoiled := h.supply_self
    rw [h.supply_of_ne (by decide : ItemId.rations ≠ .spoiledRations),
      h.supply_of_ne (by decide : ItemId.poisonedRations ≠ .spoiledRations)]
    omega
  · have hpoisoned := h.supply_self
    rw [h.supply_of_ne (by decide : ItemId.rations ≠ .poisonedRations),
      h.supply_of_ne (by decide : ItemId.spoiledRations ≠ .poisonedRations)]
    omega
  · have hgood : r.supply .rations = _ := h.supply .rations
    have hspoiled : r.supply .spoiledRations = _ := h.supply .spoiledRations
    have hpoisoned : r.supply .poisonedRations = _ := h.supply .poisonedRations
    omega

/-- A change of characters that leaves their belongings alone leaves the party what it has. -/
theorem supply_mapRoster {f : Character → Character} (hid : ∀ c, (f c).id = c.id)
    (hinventory : ∀ c, (f c).inventory = c.inventory) (p : Party) (item : ItemId) :
    (p.mapRoster f).supply item = p.supply item := by
  refine supply_congr_of_belongings rfl rfl ?_
  rw [mapRoster, List.map_map]
  exact List.map_congr_left fun c _ => by rw [Function.comp_apply, hid, hinventory]

/-- Whoever is given a unit of food eats it, and whoever is given none goes without. -/
theorem feeds_of_gives (hids : (p.roster.map (·.id)).Nodup) (h : Gives (p.ration 0) p r)
    (eater : CharId) :
    Feeds [eater] p (r.modifyMember eater (·.eat (p.ration 0))) := by
  let f : Character → Character := fun c => if c.id = eater then c.eat (p.ration 0) else c
  have hid : ∀ c, (f c).id = c.id := by
    intro c
    show (if _ then _ else _ : Character).id = _
    split_ifs
    · exact c.id_eat _
    · rfl
  have hinventory : ∀ c, (f c).inventory = c.inventory := by
    intro c
    show (if _ then _ else _ : Character).inventory = _
    split_ifs
    · exact c.inventory_eat _
    · rfl
  obtain ⟨hgood, hspoiled, hpoisoned⟩ := h.supplies
  rw [modifyMember_eq_map (h.ids_eq ▸ hids) eater]
  refine ⟨h.gold, h.active, ?_, ?_, ?_, ?_, h.ring⟩
  · exact (supply_mapRoster hid hinventory r _).trans hgood
  · exact (supply_mapRoster hid hinventory r _).trans hspoiled
  · exact (supply_mapRoster hid hinventory r _).trans hpoisoned
  show List.Forall₂ _ p.roster (r.roster.map f)
  rw [List.forall₂_map_right_iff]
  refine h.roster.imp fun c d hc => ⟨dined_singleton hc.1 eater p.ration, fun hroad => ?_⟩
  rw [hinventory, hc.2 hroad]

/-- Each of the members eats what is left for the first rank. -/
theorem run_dine_singleton (hids : (p.roster.map (·.id)).Nodup) (hactive : p.active.Nodup)
    (hp : p.Carries Inventory.Stocked) (hcounts : p.CountsFood) (heater : eater ∈ p.active) :
    ∃ q, (dine [eater]).run p = (.ok (), q) ∧ Feeds [eater] p q := by
  have hmeal := hp.nextMeal?_eq
  rcases hration : p.ration 0 with _ | food
  · rw [hration] at hmeal
    have hfeeds := feeds_of_gives hids (hration ▸ Gives.refl p) eater
    rw [hration] at hfeeds
    refine ⟨_, ?_, hfeeds⟩
    rw [dine, Step.run_bind_ok (Step.run_get p), hmeal]
    rfl
  · rw [hration] at hmeal
    have hfood := mem_foods_of_ration hration
    have hpos : 0 < p.supply food := hp.supply_pos hfood (nextMeal?_eq_some hmeal).2
    obtain ⟨r, hrun, hgives⟩ := run_serve hids hactive heater hfood (hcounts food hfood) hpos
    have hfeeds := feeds_of_gives hids (hration ▸ hgives) eater
    rw [hration] at hfeeds
    refine ⟨_, ?_, hfeeds⟩
    rw [dine, Step.run_bind_ok (Step.run_get p), hmeal]
    dsimp only
    rw [Step.run_bind_ok hrun]
    rfl

/-- The members of some numbers eat in turn, and the meal goes through. -/
theorem run_dine (hids : (p.roster.map (·.id)).Nodup) (hactive : p.active.Nodup)
    (hp : p.Carries Inventory.Stocked) (hcounts : p.CountsFood) (heaters : eaters.Nodup)
    (hroad : ∀ id ∈ eaters, id ∈ p.active) :
    ∃ q, (dine eaters).run p = (.ok (), q) ∧ Feeds eaters p q := by
  -- Whoever eats leaves the others a party that is as well-ordered as the one before.
  induction eaters generalizing p with
  | nil =>
    refine ⟨p, rfl, rfl, rfl, (Nat.sub_zero _).symm, ?_, ?_, ?_, .refl p.keys⟩
    · rw [List.length_nil, Nat.zero_sub, Nat.sub_zero]
    · rw [List.length_nil, Nat.zero_sub, Nat.zero_sub, Nat.sub_zero]
    · exact List.forall₂_same.2 fun c _ => ⟨⟨nofun, fun _ => .refl c⟩, fun _ => rfl⟩
  | cons eater rest ih =>
    obtain ⟨hout, hrest⟩ := List.nodup_cons.1 heaters
    obtain ⟨heater, hlater⟩ := List.forall_mem_cons.1 hroad
    obtain ⟨q, hrun, hfirst⟩ := run_dine_singleton hids hactive hp hcounts heater
    have hq : q.Carries Inventory.Stocked := by
      have hkept := ((enduring_carries Inventory.lasting_stocked).obeys_dine [eater] p).1 hp
      rwa [hrun] at hkept
    have hcountsq : q.CountsFood := by
      have hkept := (enduring_countsFood.obeys_dine [eater] p).1 hcounts
      rwa [hrun] at hkept
    have hidsq : (q.roster.map (·.id)).Nodup :=
      ids_eq_of_forall₂ (fun hc => hc.1.id_eq) hfirst.roster ▸ hids
    obtain ⟨r, hrun', hfeeds⟩ := ih hidsq (hfirst.active ▸ hactive) hq hcountsq hrest
      (hfirst.active ▸ hlater)
    refine ⟨r, ?_, hfirst.cons hout hfeeds⟩
    rw [run_dine_cons, Step.run_bind_ok hrun, hrun']

/-! ## The day's meal -/

/-- The members on the road have eaten by rank. -/
structure EatsByRank (p q : Party) : Prop where
  gold : q.gold = p.gold
  active : q.active = p.active
  /-- Each of them has eaten what is left for his rank, and everyone else is as before. -/
  roster : List.Forall₂ (fun c d =>
    (∀ k, p.active[k]? = some c.id → c.Eats (p.ration k) d) ∧ (c.id ∉ p.active → d = c))
    p.roster q.roster
  ring : p.keys.SameButFood q.keys
  good : q.supply .rations + min p.active.length (p.supply .rations) = p.supply .rations
  spoiled : q.supply .spoiledRations +
    min (p.active.length - p.supply .rations) (p.supply .spoiledRations) =
      p.supply .spoiledRations
  poisoned : q.supply .poisonedRations +
    min (p.active.length - p.supply .rations - p.supply .spoiledRations)
      (p.supply .poisonedRations) = p.supply .poisonedRations

namespace EatsByRank

/-- Whoever is found by number is found again, and has eaten at his rank if he has one. -/
theorem member_cases (h : EatsByRank p q) (id : CharId) :
    (p.member? id = none ∧ q.member? id = none) ∨
      ∃ c d, p.member? id = some c ∧ q.member? id = some d ∧
        (∀ k, p.active[k]? = some id → c.Eats (p.ration k) d) ∧ (id ∉ p.active → d = c) := by
  have hkeep : ∀ {c d : Character}, (∀ k, p.active[k]? = some c.id → c.Eats (p.ration k) d) ∧
      (c.id ∉ p.active → d = c) → d.id = c.id := by
    rintro c d ⟨heats, hsame⟩
    by_cases hroad : c.id ∈ p.active
    · obtain ⟨k, hk⟩ := List.mem_iff_getElem?.1 hroad
      rw [(heats k hk).rest]
    · rw [hsame hroad]
  obtain hnone | ⟨c, d, hc, hd, heats⟩ := member_cases_of_forall₂ hkeep h.roster id
  · exact .inl hnone
  · rw [id_of_member? hc] at heats
    exact .inr ⟨c, d, hc, hd, heats⟩

/-- The member of a rank has eaten what is left for it. -/
theorem member (h : EatsByRank p q) {k : Nat} {id : CharId} {c : Character}
    (hk : p.active[k]? = some id) (hc : p.member? id = some c) :
    ∃ d, q.member? id = some d ∧ c.Eats (p.ration k) d := by
  obtain ⟨hnone, -⟩ | ⟨c', d, hc', hd, heats, -⟩ := h.member_cases id
  · rw [hc] at hnone
    cases hnone
  · rw [hc, Option.some.injEq] at hc'
    subst hc'
    exact ⟨d, hd, heats k hk⟩

/-- Whoever is not on the road is who it was. -/
theorem member?_eq (h : EatsByRank p q) {id : CharId} (hid : id ∉ p.active) :
    q.member? id = p.member? id := by
  obtain ⟨hp, hq⟩ | ⟨c, d, hp, hq, -, hsame⟩ := h.member_cases id
  · rw [hp, hq]
  · rw [hp, hq, hsame hid]

end EatsByRank

/--
In a party in which no two characters share a number, none is named twice, no stack of food is empty
and a word holds the units of each kind of food the day's meal goes through. The member of each rank
eats what is left for it, good food as long as it lasts, then spoiled, then poisoned, and goes
without when there is none; so many units of each are gone as were eaten. Nothing else of the party
has changed.
-/
theorem meal_by_rank (hids : (p.roster.map (·.id)).Nodup) (hactive : p.active.Nodup)
    (hp : p.Carries Inventory.Stocked) (hcounts : p.CountsFood) :
    ∃ q, meal.run p = (.ok (), q) ∧ EatsByRank p q := by
  obtain ⟨q, hrun, hfeeds⟩ := run_dine hids hactive hp hcounts hactive fun _ hid => hid
  refine ⟨q, (Step.run_bind_ok (Step.run_get p) _).trans hrun, hfeeds.gold, hfeeds.active, ?_,
    hfeeds.ring, ?_, ?_, ?_⟩
  · refine hfeeds.roster.imp fun c d hc => ⟨fun k hk => ?_, fun hout => ?_⟩
    · exact Character.eats_of_sameButFood (fun _ => mem_foods_of_ration) (hc.1.eats k hk)
    · obtain ⟨v, -, rfl⟩ := hc.1.fasts hout
      have hkept := hc.2 hout
      dsimp only at hkept
      rw [hkept]
  · rw [hfeeds.good]
    omega
  · rw [hfeeds.spoiled]
    omega
  · rw [hfeeds.poisoned]
    omega

/-- Owyn has a good ration, Locklear a spoiled one, and a poisoned one hangs on the key ring. Pug
has nine good ones but stays behind. -/
def hungry : Party :=
  let laden (c : Character) (items : List Item) : Character :=
    { c with inventory := .ofItems items }
  let roster := [laden (.fresh .locklear "Locklear") [.loose .spoiledRations 1],
    .fresh .gorath "Gorath", laden (.fresh .owyn "Owyn") [.loose .rations 1],
    laden (.fresh .pug "Pug") [.loose .rations 9], .fresh .james "James"]
  ⟨.none, roster, [.gorath, .locklear, .owyn, .james],
    .ofItems [.loose .poisonedRations 1]⟩

/-- Gorath eats what Owyn has, who is poisoned by what hangs on the key ring, and James starves. -/
theorem meal_by_rank_hungry :
    (hungry.roster.map (·.id)).Nodup ∧ hungry.active.Nodup ∧ hungry.Carries Inventory.Stocked ∧
      hungry.CountsFood ∧ ∃ q, meal.run hungry = (.ok (), q) ∧ q.supply .rations = 0 ∧
        q.supply .poisonedRations = 0 ∧ q.member? .pug = hungry.member? .pug ∧
        ∃ owyn james, q.member? .owyn = some owyn ∧ owyn.conditions.degree .poisoned = 4 ∧
          q.member? .james = some james ∧ james.conditions.degree .starving = 5 := by
  have hids : (hungry.roster.map (·.id)).Nodup := by decide
  have hactive : hungry.active.Nodup := by decide
  have hstocked : hungry.Carries Inventory.Stocked := by
    constructor
    · show ∀ i ∈ hungry.keys.items, i.id ∈ foods → i.quantity ≠ 0
      decide
    · show ∀ c ∈ hungry.roster, ∀ i ∈ c.inventory.items, i.id ∈ foods → i.quantity ≠ 0
      decide
  have hcounts : hungry.CountsFood := by
    show ∀ food ∈ foods, hungry.supply food < 2 ^ 32
    decide +kernel
  obtain ⟨q, hrun, hmeal⟩ := meal_by_rank hids hactive hstocked hcounts
  have hsupplies : hungry.supply .rations = 1 ∧ hungry.supply .spoiledRations = 1 ∧
      hungry.supply .poisonedRations = 1 ∧ hungry.active.length = 4 := by decide +kernel
  obtain ⟨hgood, hspoiled, hpoisoned, hlength⟩ := hsupplies
  have hgoodLeft := hmeal.good
  have hpoisonedLeft := hmeal.poisoned
  rw [hlength, hgood] at hgoodLeft
  rw [hlength, hgood, hspoiled, hpoisoned] at hpoisonedLeft
  have hthird : hungry.active[2]? = some .owyn := rfl
  have hfourth : hungry.active[3]? = some .james := rfl
  obtain ⟨owyn, howyn, hsick⟩ := hmeal.member hthird rfl
  obtain ⟨james, hjames, hhungry⟩ := hmeal.member hfourth rfl
  refine ⟨hids, hactive, hstocked, hcounts, q, hrun, by omega, by omega,
    hmeal.member?_eq (by decide), owyn, james, howyn, UInt8.toNat_inj.1 ?_, hjames,
    UInt8.toNat_inj.1 ?_⟩
  · exact (hsick.degree .poisoned).trans (by decide +kernel)
  · exact (hhungry.degree .starving).trans (by decide +kernel)

end Party

end QuestLogic
