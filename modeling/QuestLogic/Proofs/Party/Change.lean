import Mathlib.Data.List.Forall2
import Mathlib.Logic.Relation
import Mathlib.Tactic.SplitIfs
import QuestLogic.Proofs.Step
import QuestLogic.Session.Action

/-!
# What play does to a party

However long an operation on the party is, it is made of a few changes, listed in
`Inventory.Change`, `Character.Change` and `Party.Change`. `Party.rule` says of a step that it is
made of them and meets no fault of the save image; every step that a session takes on its party
obeys it. What each of the changes keeps is kept by all of play.
-/

namespace QuestLogic

open Relation (ReflTransGen)

/-! ## Inventories -/

/-- What play does to an inventory at once. -/
inductive Inventory.Change : Inventory → Inventory → Prop
  | add {v w : Inventory} {i : Item} (h : v.add? i = some w) : Change v w
  | take (v : Inventory) (id : ItemId) (units : Nat) : Change v (v.removeUnits id units).2
  | burn (v : Inventory) (position : Nat) : Change v (Session.burnDown v position)
  | tend (v : Inventory) {f : Item → Item} (h : ∀ i, (f i).id = i.id) :
    Change v { v with items := v.items.map f }

/-! ## Characters -/

namespace Character

/-- What play does to a character at once. -/
inductive Change : Character → Character → Prop
  | health (c : Character) (amount : Int) : Change c (c.adjustHealth amount)
  | condition (c : Character) (k : Condition) (amount : Int) : Change c (c.adjustCondition k amount)
  | improve (c : Character) (t : SkillType) (amount : Int) :
    Change c { c with skills := c.skills.improve t amount }
  | raise (c : Character) {t : SkillType} (h : t = .health ∨ t = .stamina) (amount : Int) :
    Change c { c with skills := c.skills.raiseMaximum t amount }
  | seen (c : Character) : Change c { c with skills := c.skills.clearUnseen }
  | restore (c : Character) : Change c c.restore
  | inventory {c : Character} {v : Inventory} (h : c.inventory.Change v) :
    Change c { c with inventory := v }
  | spells (c : Character) (b : SpellBook) : Change c { c with spells := b }

/-- One character comes from another by changes of play. -/
def Leads : Character → Character → Prop := ReflTransGen Change

theorem Leads.refl (c : Character) : Leads c c := ReflTransGen.refl

theorem Leads.trans {a b c : Character} (h : Leads a b) (h' : Leads b c) : Leads a c :=
  ReflTransGen.trans h h'

theorem Change.leads {c d : Character} (h : Change c d) : Leads c d := ReflTransGen.single h

/-- What every change keeps of a character is kept. -/
theorem Leads.keeps {Q : Character → Prop} (hQ : ∀ {c d}, Change c d → Q c → Q d) {c d : Character}
    (h : Leads c d) (hc : Q c) : Q d := by
  induction h with
  | refl => exact hc
  | tail _ h ih => exact hQ h ih

/-- What every change keeps is kept of characters each of whom comes of the one in its place. -/
theorem forall_mem_of_forall₂ {Q : Character → Prop} (hQ : ∀ {c d}, Change c d → Q c → Q d)
    {cs ds : List Character} (h : List.Forall₂ Leads cs ds) (hcs : ∀ c ∈ cs, Q c) :
    ∀ d ∈ ds, Q d := by
  induction h with
  | nil => exact hcs
  | cons hlead _ ih =>
    rw [List.forall_mem_cons] at hcs ⊢
    exact ⟨hlead.keeps hQ hcs.1, ih hcs.2⟩

/-- Whatever a condition does in an hour is a change of play. -/
theorem leads_suffer (c : Character) (k : Condition) : Leads c (c.suffer k) := by
  unfold suffer
  split_ifs
  · exact (Change.health c _).leads.trans (Change.condition _ k _).leads
  · exact .refl c

theorem leads_rest (c : Character) (percent ceiling : UInt8) :
    Leads c (c.rest percent ceiling) := by
  unfold rest
  dsimp only
  split_ifs
  · exact (Change.health c _).leads
  · exact .refl c

/-- An hour is made of changes of play. -/
theorem leads_hour (how : Pastime) (tired : Bool) (c : Character) : Leads c (c.hour how tired) := by
  have hsuffer : ∀ (ks : List Condition) (c : Character), Leads c (ks.foldl suffer c) := by
    intro ks
    induction ks with
    | nil => exact .refl
    | cons k rest ih => exact fun c => (leads_suffer c k).trans (ih _)
  have htired : Leads c (if tired then c.adjustHealth (sleeplessness c.id) else c) := by
    split_ifs
    · exact (Change.health c _).leads
    · exact .refl c
  have hrest : ∀ d : Character, Leads d (if !how.awake && 0 < how.healPercent then
      d.rest how.healPercent how.healCeiling else d) := by
    intro d
    split_ifs
    · exact leads_rest d _ _
    · exact .refl d
  exact (htired.trans (hsuffer Condition.all _)).trans (hrest _)

theorem leads_hours (how : Pastime) (tired : Bool) (n : Nat) (c : Character) :
    Leads c (hours how tired n c) := by
  induction n generalizing c with
  | zero => exact .refl c
  | succ n ih => exact (leads_hour how tired c).trans (ih _)

theorem leads_grow (c : Character) : Leads c c.grow :=
  (Change.raise c (.inl rfl) 1).leads.trans (Change.raise _ (.inr rfl) 1).leads

theorem leads_recover (c : Character) : Leads c c.recover := by
  unfold recover
  split_ifs
  · exact (Change.condition c _ _).leads
  · exact .refl c

theorem leads_eat (c : Character) (meal : Option ItemId) : Leads c (c.eat meal) := by
  unfold eat
  split
  · exact (Change.condition c _ _).leads
  · split_ifs
    · exact (Change.condition c _ _).leads
    · exact (Change.condition c _ _).leads.trans (Change.condition _ _ _).leads
    · exact (Change.condition c _ _).leads

theorem leads_treat (c : Character) (percent : UInt16) : Leads c (c.treat percent) := by
  unfold treat
  split_ifs
  · exact (Change.restore c).leads
  · exact (Change.health c _).leads

/-- Repairs change no item for another. -/
theorem leads_repairArmor (c : Character) : Leads c c.repairArmor := by
  refine (Change.inventory (.tend c.inventory fun i => ?_)).leads
  split_ifs <;> rfl

/-- Lights that are put away stay what they are. -/
theorem leads_putAway (c : Character) :
    Leads c { c with inventory.items := c.inventory.items.map Session.putAway } := by
  refine (Change.inventory (.tend c.inventory fun i => ?_)).leads
  unfold Session.putAway
  split_ifs <;> rfl

/-- Something that is added, if there is room for it. -/
theorem leads_receive (c : Character) (i : Item) :
    Leads c { c with inventory := (c.inventory.add? i).getD c.inventory } := by
  rcases h : c.inventory.add? i with _ | v
  · exact .refl c
  · exact (Change.inventory (.add h)).leads

end Character

/-! ## Parties -/

namespace Party

/-- What play does to a party at once. -/
inductive Change : Party → Party → Prop
  | purse (p : Party) (gold : Royals) : Change p { p with gold }
  | march {p q : Party} {active : List CharId} (h : p.setActive active = .ok q) : Change p q
  | members {p : Party} {roster : List Character}
    (h : List.Forall₂ Character.Leads p.roster roster) : Change p { p with roster }
  | keys {p : Party} {keys : Inventory} (h : p.keys.Change keys) : Change p { p with keys }

/-- One party comes from another by changes of play. -/
def Leads : Party → Party → Prop := ReflTransGen Change

theorem Leads.refl (p : Party) : Leads p p := ReflTransGen.refl

theorem Leads.trans {p q r : Party} (h : Leads p q) (h' : Leads q r) : Leads p r :=
  ReflTransGen.trans h h'

theorem Change.leads {p q : Party} (h : Change p q) : Leads p q := ReflTransGen.single h

/-- A party changes as play changes it, and no fault is one of the save image. -/
def rule : Rule Party where
  leads := Leads
  permits e _ := e.isCorruption = false
  refl := .refl
  trans := .trans

variable {p q : Party}

/-- Whatever is done to the members of a party by place is done to each of them. -/
theorem change_members {roster : List Character} (hlen : roster.length = p.roster.length)
    (h : ∀ (i : Nat) (hi : i < p.roster.length) (hi' : i < roster.length),
      Character.Leads p.roster[i] roster[i]) : Change p { p with roster } :=
  .members (List.forall₂_iff_get.2 ⟨hlen.symm, h⟩)

/-- A change of the character at a place. -/
theorem change_modify (p : Party) (place : Nat) {f : Character → Character}
    (h : ∀ c, p.roster[place]? = some c → Character.Leads c (f c)) :
    Change p { p with roster := p.roster.modify place f } := by
  refine change_members (List.length_modify _ _ _) fun i hi hi' => ?_
  rw [List.getElem_modify]
  split_ifs with hplace
  · subst hplace
    exact h _ (List.getElem?_eq_getElem hi)
  · exact .refl _

/-- A change of the member of a number. -/
theorem leads_modifyMember (p : Party) (id : CharId) {f : Character → Character}
    (h : ∀ c, p.member? id = some c → Character.Leads c (f c)) : Leads p (p.modifyMember id f) := by
  unfold modifyMember
  split
  · rename_i place hplace
    refine (change_modify p place fun c hc => h c ?_).leads
    -- Who is found by number stands at the place that is changed.
    rw [member?, List.find?_eq_bind_findIdx?_getElem?, hplace]
    exact hc
  · exact .refl p

/-- A change of every active member. -/
theorem leads_mapActive (p : Party) {f : Character → Character}
    (h : ∀ c, Character.Leads c (f c)) : Leads p (p.mapActive f) := by
  refine (change_members (List.length_mapIdx) fun i hi hi' => ?_).leads
  rw [List.getElem_mapIdx]
  split_ifs
  · exact h _
  · exact .refl _

theorem leads_takeFrom (p : Party) (item : ItemId) (units place : Nat) :
    Leads p (p.takeFrom item units place).2 := by
  unfold takeFrom
  split
  · rename_i c hc
    refine (change_members (List.length_set) fun i hi hi' => ?_).leads
    rw [List.getElem_set]
    split_ifs with hplace
    · subst hplace
      rw [List.getElem?_eq_getElem hi, Option.some.injEq] at hc
      rw [hc]
      exact (Character.Change.inventory (.take c.inventory item units)).leads
    · exact .refl _
  · exact .refl p

theorem leads_takeKeys (p : Party) (item : ItemId) (units : Nat) :
    Leads p (p.takeKeys item units).2 :=
  (Change.keys (.take p.keys item units)).leads

theorem leads_takeInTurn (item : ItemId) (places : List Nat) (units : Nat) (p : Party) :
    Leads p (takeInTurn item places units p) := by
  induction places generalizing units p with
  | nil => exact leads_takeKeys p item units
  | cons i rest ih => exact (leads_takeFrom p item units i).trans (ih _ _)

/-! ## Steps on a party -/

theorem member_eq_ok {id : CharId} {c : Character} :
    p.member id = .ok c ↔ p.member? id = some c := by
  unfold member
  rcases p.member? id with _ | c' <;> simp

/-- A member is there or unknown. -/
theorem member_error {id : CharId} {e : Fault} (h : p.member id = .error e) :
    e = .unknownCharacter id := by
  unfold member at h
  split at h <;> cases h
  rfl

theorem obeys_gainItem (item : Item) :
    rule.Obeys (.update fun p => (p.gainItem item).map (·.2)) := by
  refine Rule.obeys_update (fun p q h => ?_) fun p e h => ?_
  all_goals
    unfold gainItem at h
    -- Money goes to the purse, and anything else to the first member who has room for it.
    repeat' split at h
  · cases h
    exact (Change.purse p _).leads
  · cases h
    exact (change_modify p _ fun c _ => c.leads_receive item).leads
  · cases h
  · cases h
  · cases h
  · cases h
    rfl

theorem obeys_loseItem (item : ItemId) (units : Nat) :
    rule.Obeys (.update fun p => (p.loseItem item units).map (·.2)) := by
  refine Rule.obeys_update (fun p q h => ?_) fun p e h => ?_
  all_goals
    unfold loseItem at h
    -- Money comes from the purse, and anything else from a member or from the shared keys.
    repeat' split at h
  · cases h
    exact (Change.purse p _).leads
  · cases h
    exact leads_takeFrom p item units _
  · cases h
    exact leads_takeKeys p item units
  · cases h
  · cases h
  · cases h
  · cases h
  · cases h
    rfl

theorem obeys_loseExactly (item : ItemId) (units : Nat) :
    rule.Obeys (.update (·.loseExactly item units)) := by
  refine Rule.obeys_update (fun p q h => ?_) fun p e h => ?_
  all_goals
    unfold loseExactly at h
    -- There has to be enough before anything is taken.
    repeat' split at h
  · cases h
  · cases h
    exact (Change.purse p _).leads
  · cases h
  · cases h
    exact leads_takeInTurn item _ units p
  · cases h
    rfl
  · cases h
  · cases h
    rfl
  · cases h

theorem obeys_setActive (active : List CharId) : rule.Obeys (.update (·.setActive active)) := by
  refine Rule.obeys_update (fun p q h => (Change.march h).leads) fun p e h => ?_
  unfold setActive at h
  split at h <;> cases h
  rfl

/-- Who eats takes the food from someone who has it. -/
theorem obeys_serve (eater : CharId) (food : ItemId) : rule.Obeys (serve eater food) := by
  intro p
  unfold serve
  refine Rule.holds_get_bind ?_
  -- One's own food comes first; who has none, or is not there, eats that of the others.
  split
  · refine Rule.holds_bind (Rule.holds_set (leads_takeFrom p food 1 _)) fun _ q _ => ?_
    split_ifs
    · exact obeys_loseExactly food 1 q
    · exact Rule.holds_pure _ q
  · exact obeys_loseExactly food 1 p

theorem obeys_dine (eaters : List CharId) : rule.Obeys (dine eaters) := by
  induction eaters with
  | nil => exact Rule.obeys_pure _
  | cons eater rest ih =>
    unfold dine
    refine Rule.obeys_get_bind fun p => ?_
    have heat : rule.Obeys (modify fun q : Party => q.modifyMember eater (·.eat p.nextMeal?)) :=
      Rule.obeys_modify fun q => leads_modifyMember q eater fun c _ => c.leads_eat _
    dsimp only
    split
    · exact (obeys_serve eater _).bind fun _ => heat.bind fun _ => ih
    · exact heat.bind fun _ => ih

theorem obeys_meal : rule.Obeys meal := Rule.obeys_get_bind fun p => obeys_dine p.active

end Party

end QuestLogic
