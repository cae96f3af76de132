import Mathlib.Algebra.GroupWithZero.Nat
import Mathlib.Data.List.Forall2
import QuestLogic.Proofs.Party.Meal

/-!
# Units that are taken from several holders

Units are taken from the members on the road in their order, from each as many as are still asked
for, and what is left is told by `drain`. Taking them from one member after the other and then from
the key ring does this (`Party.partsWith_takeInTurn`). So a party that has the units, and no more
than it can count, parts with just so many of them and with nothing else
(`Party.loseExactly_exact`).
-/

namespace QuestLogic

/-! ## Taking from the front -/

/-- What is left of some holdings when so many units are taken, from the front as far as they
last. -/
def drain : Nat → List Nat → List Nat
  | _, [] => []
  | units, n :: rest => (n - units) :: drain (units - n) rest

/-- The units that are taken are missing in the end, unless there were fewer. -/
theorem sum_drain (units : Nat) (holdings : List Nat) :
    (drain units holdings).sum = holdings.sum - units := by
  induction holdings generalizing units with
  | nil => exact (Nat.zero_sub units).symm
  | cons n rest ih =>
    rw [drain, List.sum_cons, List.sum_cons, ih]
    omega

/-- Nothing is left where more is asked for than there is. -/
theorem eq_zero_of_mem_drain {units n : Nat} {holdings : List Nat} (h : holdings.sum ≤ units)
    (hn : n ∈ drain units holdings) : n = 0 := by
  have hsum := sum_drain units holdings
  have hle : n ≤ (drain units holdings).sum := le_foldr_of_mem id hn
  omega

/-! ## One holder after the other -/

namespace Character

variable {c d e : Character} {item : ItemId}

/-- Whoever parts with units of an item parts with nothing else. -/
def Parts (item : ItemId) (c d : Character) : Prop :=
  ∃ v, c.inventory.SameBut item v ∧ d = { c with inventory := v }

theorem Parts.refl (item : ItemId) (c : Character) : Parts item c c := ⟨_, .refl item _, rfl⟩

theorem Parts.trans (h : Parts item c d) (h' : Parts item d e) : Parts item c e := by
  obtain ⟨v, hv, rfl⟩ := h
  obtain ⟨w, hw, rfl⟩ := h'
  exact ⟨w, hv.trans hw, rfl⟩

theorem Parts.id_eq (h : Parts item c d) : d.id = c.id := by
  obtain ⟨v, -, rfl⟩ := h
  rfl

/-- A character has as many units of any other item as before. -/
theorem Parts.supply_eq {other : ItemId} (h : Parts item c d) (hne : other ≠ item) :
    d.inventory.supply other = c.inventory.supply other := by
  obtain ⟨v, hv, rfl⟩ := h
  exact hv.supply_eq hne

end Character

namespace Party

variable {p q r : Party} {item : ItemId} {units : Nat} {ids : List CharId}

/-- Where everyone keeps the number that they had, the numbers are the same. -/
theorem ids_eq_of_forall₂ {R : Character → Character → Prop}
    (hR : ∀ {c d}, R c d → d.id = c.id) (h : List.Forall₂ R p.roster q.roster) :
    q.roster.map (·.id) = p.roster.map (·.id) := by
  rw [← List.forall₂_eq_eq_eq, List.forall₂_map_left_iff, List.forall₂_map_right_iff]
  exact h.flip.imp fun _ _ => hR

/-- And whoever is found by number is found again. -/
theorem member_cases_of_forall₂ {R : Character → Character → Prop}
    (hR : ∀ {c d}, R c d → d.id = c.id) (h : List.Forall₂ R p.roster q.roster) (id : CharId) :
    (p.member? id = none ∧ q.member? id = none) ∨
      ∃ c d, p.member? id = some c ∧ q.member? id = some d ∧ R c d := by
  unfold member?
  generalize p.roster = cs, q.roster = ds at h ⊢
  induction h with
  | nil => exact .inl ⟨rfl, rfl⟩
  | @cons c d _ _ hc _ ih =>
    rw [List.find?_cons, List.find?_cons, hR hc]
    by_cases hid : c.id = id
    · rw [decide_eq_true hid]
      exact .inr ⟨c, d, rfl, rfl, hc⟩
    · rw [decide_eq_false hid]
      exact ih

/-- What the members of these numbers have of an item, one after the other. -/
def holdings (p : Party) (item : ItemId) (ids : List CharId) : List Nat :=
  (ids.filterMap p.member?).map (·.inventory.supply item)

/-- Nobody parts with anything but the item, and nobody at all but the given members. -/
def OnlyFrom (item : ItemId) (ids : List CharId) (p q : Party) : Prop :=
  List.Forall₂ (fun c d => c.Parts item d ∧ (c.id ∉ ids → d = c)) p.roster q.roster

theorem supply_eq (p : Party) (item : ItemId) :
    p.supply item = p.keys.supply item + (p.holdings item p.active).sum := by
  rw [supply, holdings, List.sum, List.foldr_map]
  rfl

namespace OnlyFrom

theorem refl (item : ItemId) (ids : List CharId) (p : Party) : OnlyFrom item ids p p :=
  List.forall₂_same.2 fun c _ => ⟨.refl item c, fun _ => rfl⟩

/-- Some members part with the item, and then others. -/
theorem trans {ids' : List CharId} (h : OnlyFrom item ids p q) (h' : OnlyFrom item ids' q r) :
    OnlyFrom item (ids ++ ids') p r := by
  refine forall₂_trans h h' fun {c d e} hc hd => ⟨hc.1.trans hd.1, fun hout => ?_⟩
  rw [List.mem_append, not_or] at hout
  obtain rfl := hc.2 hout.1
  exact hd.2 hout.2

/-- Whoever is found by number is found again. -/
theorem member_cases (h : OnlyFrom item ids p q) (id : CharId) :
    (p.member? id = none ∧ q.member? id = none) ∨
      ∃ c d, p.member? id = some c ∧ q.member? id = some d ∧ c.Parts item d ∧
        (id ∉ ids → d = c) := by
  obtain hnone | ⟨c, d, hc, hd, hparts, hsame⟩ :=
    member_cases_of_forall₂ (fun hc => hc.1.id_eq) h id
  · exact .inl hnone
  · exact .inr ⟨c, d, hc, hd, hparts, id_of_member? hc ▸ hsame⟩

/-- Whoever does not part with anything is who it was. -/
theorem member?_eq (h : OnlyFrom item ids p q) {id : CharId} (hid : id ∉ ids) :
    q.member? id = p.member? id := by
  obtain ⟨hp, hq⟩ | ⟨c, d, hp, hq, -, hsame⟩ := h.member_cases id
  · rw [hp, hq]
  · rw [hp, hq, hsame hid]

/-- The members have what they had of anything else. -/
theorem supply_eq (h : OnlyFrom item ids p q) {other : ItemId} (hne : other ≠ item) (id : CharId) :
    (q.member? id).map (·.inventory.supply other) =
      (p.member? id).map (·.inventory.supply other) := by
  obtain ⟨hp, hq⟩ | ⟨c, d, hp, hq, hparts, -⟩ := h.member_cases id
  · rw [hp, hq]
  · rw [hp, hq, Option.map_some, Option.map_some, hparts.supply_eq hne]

end OnlyFrom

theorem holdings_cons_none {id : CharId} (h : p.member? id = none) (rest : List CharId) :
    p.holdings item (id :: rest) = p.holdings item rest := by
  rw [holdings, List.filterMap_cons_none h, holdings]

theorem holdings_cons_some {id : CharId} {c : Character} (h : p.member? id = some c)
    (rest : List CharId) :
    p.holdings item (id :: rest) = c.inventory.supply item :: p.holdings item rest := by
  rw [holdings, List.filterMap_cons_some h, List.map_cons, holdings]

/-- What members have who are found as they were. -/
theorem holdings_congr (h : ∀ id ∈ ids, q.member? id = p.member? id) :
    q.holdings item ids = p.holdings item ids := by
  rw [holdings, holdings, List.filterMap_congr h]

/-- A member from whom units are taken gives those that are asked for, or all that there are, and
nobody else parts with anything. -/
theorem takeFrom_of_place? {id : CharId} {place : Nat} (h : p.place? id = some place)
    (item : ItemId) (units : Nat) : ∃ c d q, p.member? id = some c ∧ q.member? id = some d ∧
      p.takeFrom item units place = (min units (c.inventory.supply item), q) ∧
      d.inventory.supply item = c.inventory.supply item - units ∧ OnlyFrom item [id] p q ∧
      (∀ id', q.place? id' = p.place? id') ∧ q.gold = p.gold ∧ q.active = p.active ∧
      q.keys = p.keys := by
  obtain ⟨c, hc, hmember⟩ := exists_of_place? h
  let d : Character := { c with inventory := (c.inventory.removeUnits item units).2 }
  have hd : d.id = c.id := rfl
  refine ⟨c, d, { p with roster := p.roster.set place d }, hmember, ?_, ?_, ?_, ?_,
    place?_congr (map_id_set hc hd), rfl, rfl, rfl⟩
  · rw [member?_set hc hd, if_pos h]
  · rw [takeFrom_of_getElem? hc, ← fst_takeFrom hc, takeFrom_of_getElem? hc]
  · exact c.inventory.supply_removeUnits item units
  · obtain ⟨hplace, rfl⟩ := List.getElem?_eq_some_iff.1 hc
    refine List.forall₂_iff_get.2 ⟨List.length_set.symm, fun i hi hi' => ?_⟩
    simp only [List.get_eq_getElem, List.getElem_set]
    split_ifs with hsame
    · subst hsame
      exact ⟨⟨_, Inventory.sameBut_removeUnits _ item units, rfl⟩,
        fun hout => absurd (List.mem_singleton.2 (id_of_member? hmember)) hout⟩
    · exact ⟨.refl item _, fun _ => rfl⟩

/-- Units of an item have been taken from the given members in turn, and then from the key ring. -/
structure PartsWith (item : ItemId) (units : Nat) (ids : List CharId) (p q : Party) : Prop where
  gold : q.gold = p.gold
  active : q.active = p.active
  roster : OnlyFrom item ids p q
  members : q.holdings item ids = drain units (p.holdings item ids)
  keys : q.keys = (p.keys.removeUnits item (units - (p.holdings item ids).sum)).2

/-- Taking units in turn takes from each member what is still asked for. -/
theorem partsWith_takeInTurn (hids : ids.Nodup) :
    PartsWith item units ids p (takeInTurn item (ids.filterMap p.place?) units p) := by
  induction ids generalizing p units with
  | nil => exact ⟨rfl, rfl, .refl item [] p, rfl, rfl⟩
  | cons id rest ih =>
    obtain ⟨hid, hrest⟩ := List.nodup_cons.1 hids
    rcases hplace : p.place? id with _ | place
    -- Nobody has the number, and nothing is taken.
    · have hnone : p.member? id = none := by rw [member?_eq, hplace, Option.bind_none]
      have hlater : PartsWith item units rest p _ := ih hrest
      rw [List.filterMap_cons_none hplace]
      have hnone' := (hlater.roster.member?_eq hid).trans hnone
      refine ⟨hlater.gold, hlater.active, (OnlyFrom.refl item [id] p).trans hlater.roster, ?_, ?_⟩
      · rw [holdings_cons_none hnone, holdings_cons_none hnone', hlater.members]
      · rw [holdings_cons_none hnone, hlater.keys]
    · obtain ⟨c, d, q, hc, hd, htake, hcount, honly, hplaces, hgold, hactive, hkeys⟩ :=
        takeFrom_of_place? hplace item units
      rw [List.filterMap_cons_some hplace, takeInTurn, htake]
      -- The member gives units first, and the others are as they were.
      have hlater : PartsWith item (units - c.inventory.supply item) rest q _ := ih hrest
      rw [List.filterMap_congr fun id' _ => hplaces id'] at hlater
      have hothers : q.holdings item rest = p.holdings item rest := holdings_congr fun id' hid' =>
        honly.member?_eq (by simpa using fun h : id' = id => hid (h ▸ hid'))
      have hagain := (hlater.roster.member?_eq hid).trans hd
      have htaken : units - min units (c.inventory.supply item) =
          units - c.inventory.supply item := by omega
      dsimp only
      rw [htaken]
      refine ⟨hlater.gold.trans hgold, hlater.active.trans hactive, honly.trans hlater.roster,
        ?_, ?_⟩
      · rw [holdings_cons_some hc, holdings_cons_some hagain, drain, hcount, hlater.members,
          hothers]
      · rw [holdings_cons_some hc, List.sum_cons, hlater.keys, hothers, hkeys, Nat.sub_add_eq]

/-! ## Exactly so many units -/

/-- A party has parted with just so many units of an item. -/
structure Loses (item : ItemId) (units : Nat) (p q : Party) : Prop where
  gold : q.gold = p.gold
  active : q.active = p.active
  /-- So many units are missing, and they are missing from the count. -/
  supply : q.supply item + units = p.supply item
  count : (q.itemCount item).toNat + units = (p.itemCount item).toNat
  others : ∀ other ≠ item, q.supply other = p.supply other
  counts : ∀ other ≠ item, q.itemCount other = p.itemCount other
  /-- Nobody who is not on the road parts with anything, and the others with nothing else. -/
  roster : OnlyFrom item p.active p q
  ring : p.keys.SameBut item q.keys
  /-- The members give in their order what they have, as long as more is asked for. -/
  members : q.holdings item q.active = drain units (p.holdings item p.active)
  /-- The key ring gives only what none of them has left. -/
  exhausted : q.keys ≠ p.keys → ∀ n ∈ q.holdings item q.active, n = 0

theorem PartsWith.loses (h : PartsWith item units p.active p q) (hunits : units ≤ p.supply item)
    (hword : p.supply item < 2 ^ 32) : Loses item units p q := by
  have hring : p.keys.SameBut item q.keys := h.keys ▸ p.keys.sameBut_removeUnits item _
  have hmembers : q.holdings item q.active = drain units (p.holdings item p.active) := by
    rw [h.active, h.members]
  have hsupply : q.supply item + units = p.supply item := by
    rw [supply_eq] at hunits ⊢
    rw [supply_eq, hmembers, sum_drain, h.keys, Inventory.supply_removeUnits]
    omega
  have hothers : ∀ other ≠ item, q.supply other = p.supply other := fun other hne =>
    supply_congr h.active (hring.supply_eq hne) (h.roster.supply_eq hne)
  refine ⟨h.gold, h.active, hsupply, ?_, hothers, fun other hne =>
    itemCount_congr (hothers other hne), h.roster, hring, hmembers, fun hkeys => ?_⟩
  · rw [toNat_itemCount (by omega), toNat_itemCount hword, hsupply]
  -- If the members had as many units as are asked for, the key ring gives none.
  · rw [hmembers]
    refine fun n => eq_zero_of_mem_drain (Nat.le_of_not_lt fun hlt => hkeys ?_)
    rw [h.keys, Nat.sub_eq_zero_of_le (Nat.le_of_lt hlt), Inventory.removeUnits_zero]

end Party

/-- What one coin is worth in royals. -/
def ItemId.price (coin : ItemId) : Nat := if coin = .sovereigns then Royals.perSovereign else 1

/-- What so many coins are worth in royals. No purse holds more than a full word, and no amount is
greater. -/
def ItemId.worth (coin : ItemId) (units : Nat) : Nat := min (units * coin.price) 4294967295

/-- The coins that one action can ask for are worth less than the greatest amount. -/
theorem ItemId.worth_toNat (coin : ItemId) (quantity : UInt16) :
    coin.worth quantity.toNat = quantity.toNat * coin.price := by
  have hlt := quantity.toNat_lt
  have hprice : coin.price ≤ Royals.perSovereign := by
    unfold price
    split_ifs <;> decide
  exact Nat.min_eq_left (Nat.le_trans (Nat.mul_le_mul (Nat.le_of_lt hlt) hprice) (by decide))

/-- Coins have their worth, and nothing else has one. -/
theorem ItemId.moneyValue?_eq (item : ItemId) (units : Nat) :
    item.moneyValue? units = if item.isMoney then some (.ofNat (item.worth units)) else none := by
  have hworth : ∀ n, Royals.ofNat (min n 4294967295) = .ofNat n := fun n =>
    congrArg Royals.mk (UInt32.toNat_inj.1 (by simp))
  unfold moneyValue? isMoney worth price
  rw [hworth]
  by_cases hsovereigns : item = .sovereigns
  · simp [hsovereigns, Royals.ofSovereigns]
  · simp [hsovereigns]

theorem ItemId.moneyValue?_eq_none {item : ItemId} (h : item.isMoney = false) (units : Nat) :
    item.moneyValue? units = none := by
  rw [item.moneyValue?_eq, h, if_neg Bool.false_ne_true]

namespace Party

variable {p q : Party} {item : ItemId} {units : Nat}

/-- The purse has the worth of the coins, or the party counts the units of an item that is no
coin. -/
def Covers (p : Party) (item : ItemId) (units : Nat) : Prop :=
  if item.isMoney then item.worth units ≤ p.gold.toNat else units ≤ (p.itemCount item).toNat

instance (p : Party) (item : ItemId) (units : Nat) : Decidable (p.Covers item units) :=
  inferInstanceAs (Decidable (if item.isMoney then item.worth units ≤ p.gold.toNat
    else units ≤ (p.itemCount item).toNat))

/-- Coins leave the purse if it has their worth, and otherwise the purse is short of them. -/
theorem run_loseExactly_coins (hcoin : item.isMoney = true) (p : Party) (units : Nat) :
    (item.worth units ≤ p.gold.toNat ∧ (Step.update (·.loseExactly item units)).run p =
        (.ok (), { p with gold := p.gold - .ofNat (item.worth units) })) ∨
      (p.gold.toNat < item.worth units ∧ (Step.update (·.loseExactly item units)).run p =
        (.error (.purseShort p.gold (.ofNat (item.worth units))), p)) := by
  have hvalue := item.moneyValue?_eq units
  rw [if_pos hcoin] at hvalue
  have hworth : (Royals.ofNat (item.worth units)).toNat = item.worth units := by
    rw [Royals.toNat_ofNat, ItemId.worth]
    omega
  rcases Nat.lt_or_ge p.gold.toNat (item.worth units) with hlt | hle
  · refine .inr ⟨hlt, Step.run_update_error ?_⟩
    rw [loseExactly, hvalue]
    exact if_pos (by rwa [hworth])
  · refine .inl ⟨hle, Step.run_update_ok ?_⟩
    rw [loseExactly, hvalue]
    exact if_neg (by rwa [hworth, Nat.not_lt])

/-- Units of anything else are taken from whoever has them if there are enough, and no more than can
be counted. -/
theorem run_loseExactly_units (hids : (p.roster.map (·.id)).Nodup) (hactive : p.active.Nodup)
    (hitem : item.isMoney = false) (hword : p.supply item < 2 ^ 32) (units : Nat) :
    (units ≤ (p.itemCount item).toNat ∧ ∃ q, (Step.update (·.loseExactly item units)).run p =
        (.ok (), q) ∧ Loses item units p q) ∨
      ((p.itemCount item).toNat < units ∧ (Step.update (·.loseExactly item units)).run p =
        (.error (.unitsShort (p.itemCount item).toNat item units), p)) := by
  have hplaces : p.marching = p.active.filterMap p.place? := marching_eq_lookedAt hids hactive
  obtain ⟨hle, h⟩ | ⟨hlt, h⟩ := p.loseExactly_cases (ItemId.moneyValue?_eq_none hitem units)
  · rw [hplaces] at h
    have hunits : units ≤ p.supply item := by rwa [← toNat_itemCount hword]
    exact .inl ⟨hle, _, Step.run_update_ok h, (partsWith_takeInTurn hactive).loses hunits hword⟩
  · exact .inr ⟨hlt, Step.run_update_error h⟩

/--
In a party in which no two characters share a number and none is named twice, and in which a word
holds the units of an item unless it is a coin, exactly so many units of the item are lost if the
party covers them, and otherwise nothing is, with a fault. Coins leave the purse by their worth,
which is their price for as many as one action can ask for, and nothing else is touched. Of any
other item the party then has so many units less and as many of everything else, and counts them so;
members who are not on the road part with nothing, those who are give in their order what they have,
and the key ring gives only what none of them has left.
-/
theorem loseExactly_exact (hids : (p.roster.map (·.id)).Nodup) (hactive : p.active.Nodup)
    (item : ItemId) (hword : item.isMoney = false → p.supply item < 2 ^ 32) (units : Nat) :
    (p.Covers item units → ∃ q,
      (Step.update (·.loseExactly item units)).run p = (.ok (), q) ∧
        (item.isMoney = true → q = { p with gold := q.gold } ∧
          q.gold.toNat + item.worth units = p.gold.toNat) ∧
        (item.isMoney = false → Loses item units p q)) ∧
      (¬p.Covers item units → ∃ e,
        (Step.update (·.loseExactly item units)).run p = (.error e, p)) ∧
      (item.isMoney = false → (p.itemCount item).toNat = p.supply item) ∧
      ∀ quantity : UInt16, item.worth quantity.toNat = quantity.toNat * item.price := by
  unfold Covers
  by_cases hcoin : item.isMoney = true
  · rw [if_pos hcoin]
    have hnone : item.isMoney = false → False := fun hitem => absurd hcoin (by simp [hitem])
    obtain ⟨hle, h⟩ | ⟨hlt, h⟩ := run_loseExactly_coins hcoin p units
    · refine ⟨fun _ => ⟨_, h, fun _ => ⟨rfl, ?_⟩, fun hitem => (hnone hitem).elim⟩,
        fun hshort => absurd hle hshort, fun hitem => (hnone hitem).elim, item.worth_toNat⟩
      have hworth : item.worth units ≤ 4294967295 := Nat.min_le_right _ _
      rw [Royals.toNat_sub, Royals.toNat_ofNat]
      omega
    · exact ⟨fun hle => absurd hlt (Nat.not_lt.2 hle), fun _ => ⟨_, h⟩,
        fun hitem => (hnone hitem).elim, item.worth_toNat⟩
  · rw [if_neg hcoin]
    have hitem : item.isMoney = false := Bool.eq_false_iff.2 hcoin
    have hcount := toNat_itemCount (hword hitem)
    obtain ⟨hle, q, h, hloses⟩ | ⟨hlt, h⟩ :=
      run_loseExactly_units hids hactive hitem (hword hitem) units
    · exact ⟨fun _ => ⟨q, h, fun hmoney => absurd hmoney hcoin, fun _ => hloses⟩,
        fun hshort => absurd hle hshort, fun _ => hcount, item.worth_toNat⟩
    · exact ⟨fun hle => absurd hlt (Nat.not_lt.2 hle), fun _ => ⟨_, h⟩, fun _ => hcount,
        item.worth_toNat⟩

/-- Gorath and Locklear have three rations each, Gorath in two stacks. Pug has nine but stays
behind, and two hang on the key ring. -/
def provisioned : Party :=
  let laden (c : Character) (quantities : List UInt16) : Character :=
    { c with inventory := .ofItems (quantities.map (.loose .rations)) }
  let roster := [laden (.fresh .locklear "Locklear") [3], laden (.fresh .pug "Pug") [9],
    laden (.fresh .gorath "Gorath") [1, 2]]
  ⟨.none, roster, [.gorath, .locklear], .ofItems [.loose .rations 2]⟩

/-- Of these rations seven are lost, one of them from the key ring. -/
theorem loseExactly_exact_provisioned :
    (provisioned.roster.map (·.id)).Nodup ∧ provisioned.active.Nodup ∧
      provisioned.supply .rations < 2 ^ 32 ∧ provisioned.Covers .rations 7 ∧
      ∃ q, (Step.update (·.loseExactly .rations 7)).run provisioned = (.ok (), q) ∧
        q.holdings .rations q.active = [0, 0] ∧ q.keys.supply .rations = 1 ∧
        q.member? .pug = provisioned.member? .pug := by
  have hids : (provisioned.roster.map (·.id)).Nodup := by decide
  have hactive : provisioned.active.Nodup := by decide
  have hword : provisioned.supply .rations < 2 ^ 32 := by decide +kernel
  have hcovers : provisioned.Covers .rations 7 := by decide +kernel
  obtain ⟨q, hrun, -, hloses⟩ :=
    (loseExactly_exact hids hactive .rations (fun _ => hword) 7).1 hcovers
  have hq := hloses rfl
  have hleft : q.holdings .rations q.active = [0, 0] := hq.members.trans (by decide +kernel)
  have hsupply : q.supply .rations + 7 = 8 := hq.supply.trans (by decide +kernel)
  rw [supply_eq, hleft] at hsupply
  exact ⟨hids, hactive, hword, hcovers, q, hrun, hleft, by simpa using hsupply,
    hq.roster.member?_eq (by decide)⟩

end Party

end QuestLogic
