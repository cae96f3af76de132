import QuestLogic.Proofs.Party.Change
import QuestLogic.Proofs.Party.Company
import QuestLogic.Proofs.Party.Marching
import QuestLogic.Session.Passage

/-!
# What an hour depends on

What an hour does to the skills and the conditions of a character depends on these and on who it is,
and on nothing else (`Character.heeds_hours`): what somebody carries is of no account. So two
parties of which the same members are on the road and everyone is as well fare alike
(`Party.SameHealth.mapActive`). Hours come one after the other (`Character.hours_add`).
-/

namespace QuestLogic

namespace Character

variable {c d : Character} {f g : Character → Character}

/-- Who a character is, and how it fares. -/
def vitals (c : Character) : CharId × Skills × Conditions := (c.id, c.skills, c.conditions)

theorem vitals_eq : c.vitals = d.vitals ↔
    c.id = d.id ∧ c.skills = d.skills ∧ c.conditions = d.conditions := by
  rw [vitals, vitals, Prod.mk.injEq, Prod.mk.injEq]

/-- What is changed of who a character is and how it fares depends on nothing else. -/
def Heeds (f : Character → Character) : Prop :=
  ∀ c d : Character, c.vitals = d.vitals → (f c).vitals = (f d).vitals

theorem Heeds.comp (hg : Heeds g) (hf : Heeds f) : Heeds (g ∘ f) :=
  fun c d h => hg _ _ (hf c d h)

theorem heeds_adjustHealth (amount : Int) : Heeds (·.adjustHealth amount) := fun c d h => by
  obtain ⟨hid, hskills, hconditions⟩ := vitals_eq.1 h
  exact vitals_eq.2 ⟨hid, congrArg (·.adjustTotalHealth amount) hskills, hconditions⟩

theorem heeds_adjustCondition (k : Condition) (amount : Int) :
    Heeds (·.adjustCondition k amount) := fun c d h => by
  obtain ⟨hid, hskills, hconditions⟩ := vitals_eq.1 h
  exact vitals_eq.2 ⟨hid, hskills, congrArg (·.adjust k amount) hconditions⟩

theorem heeds_suffer (k : Condition) : Heeds (·.suffer k) := fun c d h => by
  obtain ⟨-, -, hconditions⟩ := vitals_eq.1 h
  change (c.suffer k).vitals = (d.suffer k).vitals
  rw [suffer, suffer, hconditions]
  split_ifs
  · exact heeds_adjustCondition k _ _ _ (heeds_adjustHealth _ c d h)
  · exact h

theorem heeds_foldl_suffer (ks : List Condition) : Heeds (ks.foldl suffer) := by
  induction ks with
  | nil => exact fun _ _ h => h
  | cons k rest ih => exact ih.comp (heeds_suffer k)

theorem heeds_rest (percent ceiling : UInt8) : Heeds (·.rest percent ceiling) := fun c d h => by
  obtain ⟨-, hskills, -⟩ := vitals_eq.1 h
  change (c.rest percent ceiling).vitals = (d.rest percent ceiling).vitals
  rw [rest, rest, hskills]
  split_ifs
  · exact heeds_adjustHealth _ c d h
  · exact h

theorem heeds_sleepless (tired : Bool) :
    Heeds fun c => if tired then c.adjustHealth (sleeplessness c.id) else c := fun c d h => by
  obtain ⟨hid, -, -⟩ := vitals_eq.1 h
  dsimp only
  rw [hid]
  split_ifs
  · exact heeds_adjustHealth _ c d h
  · exact h

theorem heeds_hour (how : Pastime) (tired : Bool) : Heeds (hour how tired) := fun c d h => by
  have hsuffer := heeds_foldl_suffer Condition.all _ _ (heeds_sleepless tired c d h)
  rw [hour, hour]
  dsimp only at hsuffer ⊢
  generalize Condition.all.foldl suffer _ = c' at hsuffer ⊢
  generalize Condition.all.foldl suffer _ = d' at hsuffer ⊢
  split_ifs
  · exact heeds_rest _ _ c' d' hsuffer
  · exact hsuffer

/-- Hours heed nothing else either. -/
theorem heeds_hours (how : Pastime) (tired : Bool) (n : Nat) : Heeds (hours how tired n) := by
  induction n with
  | zero => exact fun _ _ h => h
  | succ n ih => exact ih.comp (heeds_hour how tired)

/-- Nobody becomes somebody else. -/
theorem Leads.id_eq (h : Leads c d) : d.id = c.id := by
  induction h with
  | refl => rfl
  | tail _ h ih =>
    cases h
    all_goals exact ih

/-- Some hours and then some more are all of them. -/
theorem hours_add (how : Pastime) (tired : Bool) (m n : Nat) :
    hours how tired n ∘ hours how tired m = hours how tired (m + n) := by
  induction m with
  | zero => rw [Nat.zero_add]; rfl
  | succ m ih =>
    funext c
    rw [Nat.succ_add, hours, ← ih]
    rfl

end Character

namespace Party

variable {p q r : Party} {f g : Character → Character}

/-! ## Who is on the road -/

theorem takeOut_map {α β : Type} (h : α → β) (xs : List α) (i : Nat) :
    takeOut (xs.map h) i = (takeOut xs i).map h := by
  unfold takeOut
  rw [List.getLast?_map]
  rcases xs.getLast? with _ | last
  · rfl
  · dsimp only [Option.map_some]
    rw [List.map_dropLast, List.map_set]

/-- Of those that are left only the numbers and the places count. -/
theorem placesAmong_congr {left left' : List (Character × Nat)}
    (h : left.map (fun e => (e.1.id, e.2)) = left'.map (fun e => (e.1.id, e.2)))
    (ids : List CharId) : placesAmong ids left = placesAmong ids left' := by
  induction ids generalizing left left' with
  | nil => rfl
  | cons id rest ih =>
    have hfind : left.findIdx? (·.1.id = id) = left'.findIdx? (·.1.id = id) := by
      have hmap := congrArg (List.findIdx? fun e => decide (e.1 = id)) h
      rwa [List.findIdx?_map, List.findIdx?_map] at hmap
    rw [placesAmong, placesAmong, hfind]
    split
    · rename_i i _
      have hplace : left[i]?.map (·.2) = left'[i]?.map (·.2) := by
        have hget := congrArg (fun l => (l[i]?).map (·.2)) h
        rw [List.getElem?_map, List.getElem?_map, Option.map_map, Option.map_map] at hget
        exact hget
      have hrest : (takeOut left i).map (fun e => (e.1.id, e.2)) =
          (takeOut left' i).map (fun e => (e.1.id, e.2)) := by
        rw [← takeOut_map, ← takeOut_map, h]
      rw [hplace, ih hrest]
    · exact ih h

/-- The marching order is told by the numbers of the roster and of those on the road. -/
theorem marching_congr (hactive : q.active = p.active)
    (hids : q.roster.map (·.id) = p.roster.map (·.id)) : q.marching = p.marching := by
  rw [marching, marching, hactive]
  refine placesAmong_congr ?_ _
  have hzip : ∀ xs : List Character, xs.zipIdx.map (fun e => (e.1.id, e.2)) =
      (xs.map (·.id)).zipIdx := fun xs => List.zipIdx_map.symm
  rw [hzip, hzip, hids]

/-! ## Parties that fare alike -/

/-- The same members are on the road, and everyone in the roster fares alike. -/
structure SameHealth (p q : Party) : Prop where
  active : q.active = p.active
  vitals : q.roster.map (·.vitals) = p.roster.map (·.vitals)

namespace SameHealth

theorem refl (p : Party) : SameHealth p p := ⟨rfl, rfl⟩

theorem symm (h : SameHealth p q) : SameHealth q p := ⟨h.active.symm, h.vitals.symm⟩

theorem trans (h : SameHealth p q) (h' : SameHealth q r) : SameHealth p r :=
  ⟨h'.active.trans h.active, h'.vitals.trans h.vitals⟩

theorem marching (h : SameHealth p q) : q.marching = p.marching := by
  refine marching_congr h.active ?_
  have hids := congrArg (List.map Prod.fst) h.vitals
  rwa [List.map_map, List.map_map] at hids

/-- A change that heeds nothing else is the same to both. -/
theorem mapActive (h : SameHealth p q) (hf : Character.Heeds f) :
    SameHealth (p.mapActive f) (q.mapActive f) := by
  refine ⟨h.active, List.ext_getElem? fun i => ?_⟩
  have hi := congrArg (fun l : List (CharId × Skills × Conditions) => l[i]?) h.vitals
  simp only [List.getElem?_map] at hi
  simp only [List.getElem?_map, getElem?_mapActive, h.marching, Option.map_map]
  rcases hq : q.roster[i]? with _ | d
  all_goals
    rcases hp : p.roster[i]? with _ | c
    all_goals simp only [hq, hp, Option.map_none, Option.map_some] at hi ⊢
  · cases hi
  · cases hi
  · refine congrArg some ?_
    dsimp only [Function.comp_apply]
    split_ifs
    · exact hf d c (Option.some.inj hi)
    · exact Option.some.inj hi

end SameHealth

/-- A change of the character at a place that heeds neither skills nor conditions. -/
theorem sameHealth_modify (p : Party) (place : Nat) (hf : ∀ c, (f c).vitals = c.vitals) :
    SameHealth p { p with roster := p.roster.modify place f } :=
  ⟨rfl, map_modify hf p.roster place⟩

/-- Changes that leave the numbers alone reach the same members one after the other. -/
theorem mapActive_mapActive (p : Party) (hf : ∀ c, (f c).id = c.id) :
    (p.mapActive f).mapActive g = p.mapActive (g ∘ f) := by
  have hsame := sameCompany_mapActive p hf
  have hmarching := marching_congr hsame.active hsame.ids
  unfold mapActive at hmarching ⊢
  dsimp only at hmarching ⊢
  rw [hmarching, List.mapIdx_mapIdx]
  refine congrArg (Party.mk _ · _ _) (congrArg (List.mapIdx · _) ?_)
  funext i c
  rw [Function.comp_apply]
  split_ifs <;> rfl

end Party

end QuestLogic
