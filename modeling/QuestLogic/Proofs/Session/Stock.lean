import QuestLogic.Proofs.Party.Stock
import QuestLogic.Proofs.Session.Action
import QuestLogic.Proofs.Session.Save

/-!
# What a party carries through play

What lasts for an inventory lasts through everything that time brings
(`Session.allowsTime_carrying`) and through every action, as long as no action hands out what is not
allowed (`Session.carrying_perform`). What touches the party is gone through case by case; the rest
makes changes that are none of the party's (`Session.carrying_of_obeys`).
-/

namespace QuestLogic

namespace Character

/-! ## What leaves belongings alone -/

theorem inventory_suffer (c : Character) (k : Condition) :
    (c.suffer k).inventory = c.inventory := by
  unfold suffer
  split_ifs <;> rfl

theorem inventory_rest (c : Character) (percent ceiling : UInt8) :
    (c.rest percent ceiling).inventory = c.inventory := by
  unfold rest
  dsimp only
  split_ifs <;> rfl

theorem inventory_hour (how : Pastime) (tired : Bool) (c : Character) :
    (c.hour how tired).inventory = c.inventory := by
  have hsuffer : ∀ (ks : List Condition) (c : Character),
      (ks.foldl suffer c).inventory = c.inventory := by
    intro ks
    induction ks with
    | nil => exact fun c => rfl
    | cons k rest ih => exact fun c => (ih _).trans (c.inventory_suffer k)
  unfold hour
  dsimp only
  split_ifs
  all_goals simp only [inventory_rest, hsuffer, adjustHealth]

theorem inventory_hours (how : Pastime) (tired : Bool) (n : Nat) (c : Character) :
    (hours how tired n c).inventory = c.inventory := by
  induction n generalizing c with
  | zero => rfl
  | succ n ih => exact (ih _).trans (inventory_hour how tired c)

theorem inventory_recover (c : Character) : c.recover.inventory = c.inventory := by
  unfold recover
  split_ifs <;> rfl

theorem inventory_treat (c : Character) (percent : UInt16) :
    (c.treat percent).inventory = c.inventory := by
  unfold treat
  split_ifs <;> rfl

end Character

/-- Armor does not stack. -/
theorem ItemId.isStackable_of_kind_armor {id : ItemId} (h : id.kind = .armor) :
    id.isStackable = false := by
  have hcatalogue : ∀ info ∈ catalogue, info.kind = .armor → info.stackable = false := by decide
  unfold kind at h
  unfold isStackable
  rcases hinfo : id.info? with _ | info
  · rfl
  · rw [hinfo] at h
    exact hcatalogue info (List.mem_of_getElem? hinfo) h

/-- Repairs mend armor, of which no number of units depends. -/
theorem Inventory.Lasting.repairArmor {P : Inventory → Prop} {G : Item → Prop}
    (hP : Inventory.Lasting P G) {c : Character} (hc : P c.inventory) :
    P c.repairArmor.inventory := by
  refine hP.tend (fun i => ?_) hc
  split_ifs with h
  · rw [Bool.and_eq_true, decide_eq_true_eq] at h
    refine ⟨rfl, fun hstack => ?_⟩
    rw [Item.isStackable, ItemId.isStackable_of_kind_armor h.2] at hstack
    cases hstack
  · exact ⟨rfl, fun _ => rfl⟩

namespace Session

/-- What the party carries keeps `P`. -/
abbrev carrying (P : Inventory → Prop) : Rule Session := .keeping (·.party.Carries P)

variable {P : Inventory → Prop} {G : Item → Prop} {K : Deed → Prop}

/-- The change is none of the party's. -/
def Deed.SparesParty : Deed → Prop
  | .party | .regroup => False
  | _ => True

/-- Other changes leave what the party carries alone. -/
theorem Change.carries {s t : Session} {d : Deed} (h : Change d s t) (hd : d.SparesParty)
    (hs : s.party.Carries P) : t.party.Carries P := by
  cases h with
  | party | regroup => exact hd.elim
  | load h =>
    obtain ⟨_, _, _, _, _, _, -, -, -, -, -, -, -, rfl⟩ := loaded_eq_ok.1 h
    exact ⟨hs.keys, hs.roster⟩
  | note h => rwa [h.party]
  | _ => exact hs

/-- A step that touches no party leaves what the party carries alone. -/
theorem carrying_of_obeys {α : Type} {x : Step Session α}
    (hx : (rule Deed.SparesParty).Obeys x) : (carrying P).Obeys x :=
  Rule.obeys_keeping fun s hs => (hx s).1.keeps (fun hd h => h.carries hd) hs

theorem carrying_onParty {α : Type} {x : Step Party α} (hx : (Party.carrying P).Obeys x) :
    (carrying P).Obeys (onParty x) :=
  Rule.obeys_zoom (fun _ _ h => h) (fun _ _ _ _ => trivial) hx

theorem carrying_mapActive {f : Character → Character}
    (hf : ∀ c, P c.inventory → P (f c).inventory) : (carrying P).Obeys (modify (·.mapActive f)) :=
  Rule.obeys_modify fun _ hs => hs.mapActive hf

/-! ## Time -/

section

variable (hP : Inventory.Lasting P G)

include hP

/-- A light that goes out burns down. -/
theorem carries_putOut {s : Session} (hs : s.party.Carries P) : s.putOut.2.party.Carries P := by
  unfold putOut
  dsimp only
  split
  · refine hs.modify _ fun c hc => ?_
    rcases h : c.inventory.equippedLight? with _ | position
    · exact hc
    · exact hP.burn h hc
  · exact hs

/-- What a pass over the ledger does keeps what lasts. -/
theorem allowsPass_carrying : AllowsPass (carrying P) where
  setEvent _ _ := carrying_of_obeys (obeys_setEvent trivial)
  putOut _ := carries_putOut hP
  ledger _ _ _ _ hs := hs

/-- What time brings keeps what lasts. -/
theorem allowsTime_carrying : AllowsTime (carrying P) where
  grow := carrying_mapActive fun _ hc => hc
  meal := carrying_onParty (Party.enduring_carries hP).obeys_meal
  recover := carrying_mapActive fun c hc => by rwa [c.inventory_recover]
  hours how n := Rule.obeys_modify fun _ hs =>
    hs.mapActive fun c hc => by rwa [Character.inventory_hours]
  clock _ _ hs := hs
  pass span := (allowsPass_carrying hP).reduceLedger span

/-! ## Actions -/

theorem carrying_giveTo (id : CharId) {item : Item} (hi : G item) :
    (carrying P).Obeys (giveTo id item) := by
  refine Rule.obeys_keeping_update fun s t h hs => ?_
  obtain ⟨c, hc, h⟩ := Except.bind_eq_ok.1 h
  split at h
  · rename_i v hv
    cases h
    have hmember := hs.roster c (List.mem_of_find?_eq_some (Party.member_eq_ok.1 hc))
    exact hs.modifyMember id fun _ _ => hP.add hi hv hmember
  · cases h

theorem carrying_give {item : Item} (hi : G item) (who : UInt8) :
    (carrying P).Obeys (give item who) := by
  unfold give
  split_ifs
  · exact carrying_onParty (Party.carrying_gainItem hP hi)
  · exact Rule.obeys_keeping_view.bind fun id => carrying_giveTo hP id hi

theorem carrying_extinguish : (carrying P).Obeys (modify extinguish) := by
  refine Rule.obeys_modify fun s hs => hs.mapActive fun c hc => hP.tend (fun i => ?_) hc
  unfold putAway
  split_ifs <;> exact ⟨rfl, fun _ => rfl⟩

end

/-- Changes of members that leave their belongings alone. -/
theorem carrying_changeMembers {f : Character → Character}
    (hf : ∀ c, (f c).inventory = c.inventory) (ids : List CharId) :
    (carrying P).Obeys (changeMembers f ids) := by
  induction ids with
  | nil => exact Rule.obeys_pure _
  | cons id rest ih =>
    refine Rule.Obeys.bind (Rule.obeys_keeping_update fun s t h hs => ?_) fun _ => ih
    obtain ⟨c, -, h⟩ := Except.bind_eq_ok.1 h
    cases h
    exact hs.modifyMember id fun c hc => by rwa [hf c]

theorem carrying_changeTargets (who : UInt8) {f : Character → Character}
    (hf : ∀ c, (f c).inventory = c.inventory) : (carrying P).Obeys (changeTargets who f) :=
  Rule.obeys_keeping_view.bind (carrying_changeMembers hf)

theorem carrying_teach (id : CharId) (spell : SpellId) : (carrying P).Obeys (teach id spell) := by
  refine Rule.obeys_keeping_update fun s t h hs => ?_
  obtain ⟨c, -, h⟩ := Except.bind_eq_ok.1 h
  split at h
  · cases h
    exact hs.modifyMember id fun _ hc => hc
  · cases h

theorem carrying_shareSpells (a b : CharId) : (carrying P).Obeys (shareSpells a b) := by
  refine Rule.obeys_keeping_update fun s t h hs => ?_
  obtain ⟨c, -, h⟩ := Except.bind_eq_ok.1 h
  obtain ⟨d, -, h⟩ := Except.bind_eq_ok.1 h
  have hlearn : ∀ {p : Party} (id : CharId), p.Carries P →
      (p.modifyMember id fun e => { e with spells := c.spells.union d.spells }).Carries P :=
    fun id hp => hp.modifyMember id fun _ he => he
  cases h
  exact hlearn b (hlearn a hs)

/-- What changes the purse and what is noted changes nothing that is carried. -/
theorem carrying_purse {f : Session → Session}
    (hf : ∀ s, (f s).party.keys = s.party.keys ∧ (f s).party.roster = s.party.roster) :
    (carrying P).Obeys (modify f) := by
  refine Rule.obeys_modify fun s hs => ?_
  obtain ⟨hkeys, hroster⟩ := hf s
  exact ⟨hkeys ▸ hs.keys, hroster ▸ hs.roster⟩

theorem carrying_gamble (chance gamblerChance reward : UInt16) :
    (carrying P).Obeys (gamble chance gamblerChance reward) :=
  obeys_gamble_of_roll (carrying_of_obeys (obeys_roll trivial _ _))
    (carrying_purse fun _ => ⟨rfl, rfl⟩) (carrying_purse fun _ => ⟨rfl, rfl⟩) chance gamblerChance

end Session

/-- The action hands out nothing but what `G` allows. -/
def Action.HandsOut (G : Item → Prop) : Action → Prop
  | .giveItem item _ quantity => G (.loose item quantity)
  | _ => True

namespace Session

variable {P : Inventory → Prop} {G : Item → Prop}

theorem carrying_performSpecial (hP : Inventory.Lasting P G) (a : SpecialAction)
    (x y z : UInt16) : (carrying P).Obeys (performSpecial a x y z) := by
  cases a with
  | reduceGold | increaseGold | increaseContextVar | resetGambleValueTo =>
    exact carrying_purse fun s => ⟨rfl, rfl⟩
  | repairAllEquippedArmor => exact carrying_mapActive fun c hc => hP.repairArmor hc
  | resetCombatState | setCombatState =>
    exact carrying_of_obeys (obeys_setMark fun _ _ => trivial)
  | gamble => exact carrying_gamble x y z
  | extinguishAllLightSources => exact carrying_extinguish hP
  | unifyOwynAndPugsSpells => exact carrying_shareSpells _ _
  | _ => exact Rule.obeys_pure _

/-- An action keeps what lasts, as long as it hands out nothing but what is allowed. -/
theorem carrying_perform (hP : Inventory.Lasting P G) {a : Action} (ha : a.HandsOut G) :
    (carrying P).Obeys (perform a) := by
  have hamount : ∀ min max, (carrying P).Obeys (rollAmount min max) := fun min max =>
    carrying_of_obeys (obeys_rollAmount trivial min max)
  cases a with
  | giveItem item who quantity => exact carrying_give hP ha who
  | loseItem item quantity =>
    exact carrying_onParty ((Party.enduring_carries hP).obeys_loseItem _ _)
  | loseNOfItem item quantity =>
    exact carrying_onParty ((Party.enduring_carries hP).obeys_loseExactly _ _)
  | gainSkill who skill min max =>
    exact (hamount min max).bind fun _ => carrying_changeTargets who fun c => rfl
  | gainCondition who condition min max =>
    exact (hamount min max).bind fun _ => carrying_changeTargets who fun c => rfl
  | healCharacters who percent =>
    exact carrying_changeTargets who fun c => c.inventory_treat percent
  | elapseTime time => exact (allowsTime_carrying hP).elapse time
  | updateCharacters active => exact carrying_onParty (Party.carrying_setActive active)
  | learnSpell who spell => exact Rule.obeys_keeping_view.bind fun id => carrying_teach id spell
  | special a x y z => exact carrying_performSpecial hP a x y z
  -- The other actions are made of changes that are none of the party's.
  | setFlag write =>
    refine carrying_of_obeys (obeys_perform fun d hd => ?_)
    obtain rfl | ⟨w, -, rfl⟩ := hd
    all_goals exact trivial
  | setAddResetState event duration =>
    refine carrying_of_obeys (obeys_perform fun d hd => ?_)
    obtain rfl | rfl := hd
    all_goals exact trivial
  | setTextVariable which what =>
    refine carrying_of_obeys (obeys_perform fun d hd => ?_)
    obtain rfl | rfl := hd
    all_goals exact trivial
  | unknown kind data => exact Rule.obeys_pure _
  | _ =>
    refine carrying_of_obeys (obeys_perform fun d hd => ?_)
    cases hd
    exact trivial

end Session

end QuestLogic
