import QuestLogic.Proofs.Party.Removal

/-!
# Who receives an item

An inventory has room for an item just if the item can be added (`Inventory.isSome_add?`), and
adding it changes one stack or appends one entry (`Inventory.receives_add?`), so that there is as
much more of the item (`Inventory.Receives.gains`). In a party the first of the members on the road
who has room receives it, and nobody does if none of them has (`Party.gainItem_first`).
-/

namespace QuestLogic

namespace Inventory

variable {v w : Inventory} {i : Item} {items : List Item} {id : ItemId}

/-- An item can be added just where there is room for it. -/
theorem isSome_add? (v : Inventory) (i : Item) : (v.add? i).isSome = v.canAdd i := by
  unfold add? canAdd
  split_ifs with hmerge hroom
  · rw [hmerge]
    rfl
  · rw [decide_eq_true hroom, Bool.or_true]
    rfl
  · rw [Bool.not_eq_true] at hmerge
    rw [hmerge, decide_eq_false hroom]
    rfl

/-- What an inventory becomes that receives an item. -/
inductive Receives (v : Inventory) (i : Item) : Inventory → Prop
  /-- An item that stacks joins the first entry of it, up to a full word. -/
  | merged {front back : List Item} {e : Item} (hstack : i.isStackable = true)
      (hitems : v.items = front ++ e :: back) (hfront : ∀ j ∈ front, j.id ≠ i.id)
      (he : e.id = i.id) : Receives v i { v with
        items := front ++ { e with
          quantity := nearest16 (e.quantity.toNat + i.quantity.toNat) } :: back }
  /-- Otherwise it comes last, if there is room for one more entry. -/
  | appended (hnew : i.isStackable = true → v.holds i.id = false)
      (hroom : v.items.length < v.capacity) : Receives v i { v with items := v.items ++ [i] }

/-- Merging changes the first entry of the item. -/
theorem merge_append {front back : List Item} {e : Item} (hfront : ∀ j ∈ front, j.id ≠ i.id)
    (he : e.id = i.id) : merge i (front ++ e :: back) =
      front ++ { e with quantity := nearest16 (e.quantity.toNat + i.quantity.toNat) } :: back := by
  induction front with
  | nil => exact if_pos he
  | cons j rest ih =>
    obtain ⟨hj, hrest⟩ := List.forall_mem_cons.1 hfront
    rw [List.cons_append, merge, if_neg hj, ih hrest, List.cons_append]

theorem receives_add? (h : v.add? i = some w) : v.Receives i w := by
  unfold add? at h
  split_ifs at h with hmerge hroom
  · cases h
    obtain ⟨hstack, hholds⟩ := Bool.and_eq_true_iff.1 hmerge
    obtain ⟨e, hfound⟩ :=
      Option.isSome_iff_exists.1 (List.find?_isSome.2 (List.any_eq_true.1 hholds))
    obtain ⟨he, front, back, hitems, hfront⟩ := List.find?_eq_some_iff_append.1 hfound
    have hfront' : ∀ j ∈ front, j.id ≠ i.id := fun j hj => by simpa using hfront j hj
    have he' : e.id = i.id := of_decide_eq_true he
    rw [hitems, merge_append hfront' he']
    exact .merged hstack hitems hfront' he'
  · cases h
    refine .appended (fun hstack => ?_) hroom
    simpa [hstack] using hmerge

/-! ## How much there is then -/

/-- The quantity of the first entry of an item, if there is one. -/
def firstStack (v : Inventory) (id : ItemId) : Nat :=
  ((v.items.find? (·.id = id)).map (·.quantity.toNat)).getD 0

/-- There is as much more of an item as was received, and as much of any other as before. -/
structure Gains (i : Item) (v w : Inventory) : Prop where
  /-- The stack that it joins stops at a full word. -/
  stackable : i.isStackable = true → w.supply i.id + v.firstStack i.id =
    v.supply i.id + min (v.firstStack i.id + i.quantity.toNat) 65535
  single : i.isStackable = false → w.supply i.id = v.supply i.id + 1
  others : v.SameBut i.id w

theorem Receives.gains (h : v.Receives i w) : Gains i v w := by
  cases h with
  | @merged front back e hstack hitems hfront he =>
    have hfirst : v.firstStack i.id = e.quantity.toNat := by
      have hnone : front.find? (·.id = i.id) = none :=
        List.find?_eq_none.2 fun j hj => by simpa using hfront j hj
      rw [firstStack, hitems, List.find?_append, hnone, Option.none_or,
        List.find?_cons_of_pos (by simpa using he)]
      rfl
    have hunits : ∀ n : UInt16, ({ e with quantity := n } : Item).units = n.toNat := fun n => by
      have hsame : ({ e with quantity := n } : Item).isStackable = true := by
        rw [Item.isStackable, he]
        exact hstack
      rw [Item.units, if_pos hsame]
    refine ⟨fun _ => ?_, fun hsingle => absurd hstack (by simp [hsingle]), rfl, ?_⟩
    · rw [hfirst, supply, supply, hitems, tally_append, tally_append,
        tally_cons_of_eq he, tally_cons_of_eq (by exact he), hunits, hunits e.quantity,
        toNat_nearest16]
      omega
    · rw [hitems, List.filter_append, List.filter_append, filter_ne_cons_of_eq he,
        filter_ne_cons_of_eq (by exact he)]
  | appended hnew hroom =>
    have hsupply : supply { v with items := v.items ++ [i] } i.id = v.supply i.id + i.units := by
      rw [supply, tally_append, tally_cons_of_eq rfl, tally_nil, Nat.add_zero, supply]
    refine ⟨fun hstack => ?_, fun hsingle => ?_, rfl, ?_⟩
    · have hnone : v.firstStack i.id = 0 := by
        have hfind : v.items.find? (·.id = i.id) = none :=
          List.find?_eq_none.2 (List.any_eq_false.1 (hnew hstack))
        rw [firstStack, hfind]
        rfl
      have hlt := i.quantity.toNat_lt
      rw [hsupply, hnone, Item.units, if_pos hstack]
      omega
    · rw [hsupply, Item.units, hsingle]
      rfl
    · rw [List.filter_append, filter_ne_cons_of_eq rfl, List.filter_nil, List.append_nil]

end Inventory

namespace Party

variable {p q : Party} {item : Item} {id : CharId} {c : Character}

/-- The first of the members on the road who has room for an item. -/
def FirstToTake (p : Party) (item : Item) (id : CharId) (c : Character) : Prop :=
  ∃ before after, p.active = before ++ id :: after ∧ p.member? id = some c ∧
    c.inventory.canAdd item = true ∧
    ∀ id' ∈ before, ∀ d, p.member? id' = some d → d.inventory.canAdd item = false

/-- Whoever on the road has room for an item, looked for in party order. -/
def receiver? (p : Party) (item : Item) : Option CharId :=
  p.active.find? fun id => (p.member? id).any (·.inventory.canAdd item)

/-- The first who has room is found, and nobody else. -/
theorem receiver?_eq_some : p.receiver? item = some id ↔ ∃ c, p.FirstToTake item id c := by
  have hfull : ∀ id', (!(p.member? id').any (·.inventory.canAdd item)) = true ↔
      ∀ d, p.member? id' = some d → d.inventory.canAdd item = false := fun id' => by
    rcases p.member? id' with _ | d <;> simp
  rw [receiver?, List.find?_eq_some_iff_append, Option.any_eq_true]
  constructor
  · rintro ⟨⟨c, hc, hroom⟩, before, after, hactive, hbefore⟩
    exact ⟨c, before, after, hactive, hc, hroom, fun id' h => (hfull id').1 (hbefore id' h)⟩
  · rintro ⟨c, before, after, hactive, hc, hroom, hbefore⟩
    exact ⟨⟨c, hc, hroom⟩, before, after, hactive, fun id' h => (hfull id').2 (hbefore id' h)⟩

/-- Where no number is shared and none is named twice, the first to pass a test is the first of the
members as they are looked at. -/
theorem firstMarching?_eq (hids : (p.roster.map (·.id)).Nodup) (hactive : p.active.Nodup)
    (test : Character → Bool) :
    p.firstMarching? test = (p.active.find? fun id => (p.member? id).any test).bind p.place? := by
  have htest : ∀ id, (p.member? id).any test =
      (p.place? id).any fun i => (p.roster[i]?).any test := fun id => by
    rw [member?_eq, Option.any_bind]
    rfl
  rw [firstMarching?, marching_eq_lookedAt hids hactive, lookedAt, List.find?_filterMap]
  simp only [htest]

/-- The first who has room for an item receives it. -/
theorem run_gainItem_some (hids : (p.roster.map (·.id)).Nodup) (hactive : p.active.Nodup)
    (hitem : item.id.isMoney = false) (h : p.FirstToTake item id c) :
    ∃ place v, p.roster[place]? = some c ∧ c.inventory.Receives item v ∧
      (Step.attempt (·.gainItem item)).run p =
        (.ok (some id), { p with roster := p.roster.set place { c with inventory := v } }) := by
  have hreceiver : p.receiver? item = some id := receiver?_eq_some.2 ⟨c, h⟩
  obtain ⟨-, -, -, hc, hroom, -⟩ := h
  obtain rfl := id_of_member? hc
  rw [member?_eq] at hc
  obtain ⟨place, hplace, hget⟩ := Option.bind_eq_some_iff.1 hc
  have hfirst : p.firstMarching? (·.inventory.canAdd item) = some place := by
    rw [firstMarching?_eq hids hactive, ← receiver?, hreceiver, Option.bind_some, hplace]
  -- There is room for the item, so that it is added.
  obtain ⟨v, hv⟩ := Option.isSome_iff_exists.1 ((c.inventory.isSome_add? item).trans hroom)
  refine ⟨place, v, hget, Inventory.receives_add? hv, Step.run_attempt_ok ?_⟩
  rw [gainItem, ItemId.moneyValue?_eq_none hitem]
  dsimp only
  rw [hfirst]
  dsimp only
  rw [hget, List.modify_eq_set_getElem?, hget, Option.map_eq_map, Option.map_some, Option.map_some,
    Option.getD_some, hv]
  rfl

/-- If nobody has room for the item nobody receives it. -/
theorem run_gainItem_none (hids : (p.roster.map (·.id)).Nodup) (hactive : p.active.Nodup)
    (hitem : item.id.isMoney = false) (h : ∀ id c, ¬p.FirstToTake item id c) :
    (Step.attempt (·.gainItem item)).run p = (.error (.noRoomInParty item.id), p) := by
  have hreceiver : p.receiver? item = none := by
    refine Option.eq_none_iff_forall_ne_some.2 fun id hid => ?_
    obtain ⟨c, hc⟩ := receiver?_eq_some.1 hid
    exact h id c hc
  have hfirst : p.firstMarching? (·.inventory.canAdd item) = none := by
    rw [firstMarching?_eq hids hactive, ← receiver?, hreceiver, Option.bind_none]
  refine Step.run_attempt_error ?_
  rw [gainItem, ItemId.moneyValue?_eq_none hitem]
  dsimp only
  rw [hfirst]

/--
In a party in which no two characters share a number and none is named twice, an item that is no
coin goes to the first of the members on the road who has room for it. Then nothing changes but that
one's inventory, which holds as much more of the item, all other entries being where they were. If
none of them has room there is a fault, and nothing changes. An inventory has room for an item just
if the item can be added to it.
-/
theorem gainItem_first (hids : (p.roster.map (·.id)).Nodup) (hactive : p.active.Nodup)
    (hitem : item.id.isMoney = false) :
    (∀ id, (∃ q, (Step.attempt (·.gainItem item)).run p = (.ok (some id), q)) ↔
      ∃ c, p.FirstToTake item id c) ∧
    (∀ id q, (Step.attempt (·.gainItem item)).run p = (.ok (some id), q) →
      ∃ c place v, p.FirstToTake item id c ∧ p.roster[place]? = some c ∧
        q = { p with roster := p.roster.set place { c with inventory := v } } ∧
        c.inventory.Receives item v ∧ c.inventory.Gains item v) ∧
    ((∀ id c, ¬p.FirstToTake item id c) →
      (Step.attempt (·.gainItem item)).run p = (.error (.noRoomInParty item.id), p)) ∧
    ∀ (v : Inventory) (i : Item), v.canAdd i = true ↔ (v.add? i).isSome = true := by
  have hnone := run_gainItem_none hids hactive hitem
  have hfound : ∀ id q, (Step.attempt (·.gainItem item)).run p = (.ok (some id), q) →
      ∃ c, p.FirstToTake item id c := by
    intro id q h
    by_cases hsome : ∃ id c, p.FirstToTake item id c
    · obtain ⟨id', c, hc⟩ := hsome
      obtain ⟨place, v, -, -, hrun⟩ := run_gainItem_some hids hactive hitem hc
      cases hrun.symm.trans h
      exact ⟨c, hc⟩
    · rw [hnone fun id c hc => hsome ⟨id, c, hc⟩] at h
      cases h
  refine ⟨fun id => ⟨fun ⟨q, h⟩ => hfound id q h, fun ⟨c, hc⟩ => ?_⟩, fun id q h => ?_, hnone,
    fun v i => by rw [v.isSome_add? i]⟩
  · obtain ⟨place, v, -, -, hrun⟩ := run_gainItem_some hids hactive hitem hc
    exact ⟨_, hrun⟩
  · obtain ⟨c, hc⟩ := hfound id q h
    obtain ⟨place, v, hget, hreceives, hrun⟩ := run_gainItem_some hids hactive hitem hc
    cases hrun.symm.trans h
    exact ⟨c, place, v, hc, hget, rfl, hreceives, hreceives.gains⟩

/-- Locklear, whose rations almost fill a stack. -/
def stocked : Character :=
  { Character.fresh .locklear "Locklear" with inventory := .ofItems [.loose .rations 65534] }

/-- Gorath marches first and has room for his sword alone, and Locklear follows. -/
def crowded : Party :=
  let gorath : Character :=
    { Character.fresh .gorath "Gorath" with inventory := ⟨[.loose .sword 100], 1⟩ }
  ⟨.none, [stocked, gorath], [.gorath, .locklear], default⟩

/-- Three rations go to Locklear, whose stack is full with one of them. -/
theorem gainItem_first_crowded :
    (crowded.roster.map (·.id)).Nodup ∧ crowded.active.Nodup ∧ ItemId.rations.isMoney = false ∧
      ∃ q v, (Step.attempt (·.gainItem (.loose .rations 3))).run crowded =
          (.ok (some .locklear), q) ∧
        { stocked with inventory := v } ∈ q.roster ∧ v.supply .rations = 65535 := by
  have hids : (crowded.roster.map (·.id)).Nodup := by decide
  have hactive : crowded.active.Nodup := by decide
  have hitem : ItemId.rations.isMoney = false := by decide
  obtain ⟨hiff, hgiven, -⟩ :=
    @gainItem_first crowded (.loose .rations 3) hids hactive hitem
  have hfirst : crowded.FirstToTake (.loose .rations 3) .locklear stocked := by
    refine ⟨[.gorath], [], rfl, rfl, by decide, fun id hid d hd => ?_⟩
    obtain rfl := List.mem_singleton.1 hid
    obtain rfl := Option.some.inj hd
    decide
  obtain ⟨q, hq⟩ := (hiff .locklear).2 ⟨stocked, hfirst⟩
  obtain ⟨c, place, v, ⟨-, -, -, hc, -⟩, hget, rfl, -, hgains⟩ := hgiven .locklear q hq
  obtain rfl : stocked = c := Option.some.inj hc
  have hplace : place < crowded.roster.length := (List.getElem?_eq_some_iff.1 hget).1
  refine ⟨hids, hactive, hitem, _, v, hq, List.mem_set hplace _, ?_⟩
  have hbefore : stocked.inventory.supply .rations = 65534 := by decide
  have hstack : stocked.inventory.firstStack .rations = 65534 := by decide
  have hsupply : v.supply .rations + stocked.inventory.firstStack .rations =
      stocked.inventory.supply .rations + min (stocked.inventory.firstStack .rations + 3) 65535 :=
    hgains.stackable (by decide)
  omega

end Party

end QuestLogic
