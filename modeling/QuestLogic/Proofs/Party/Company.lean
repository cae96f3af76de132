import Mathlib.Tactic.SplitIfs
import QuestLogic.Proofs.Lists
import QuestLogic.Proofs.Party.Change
import QuestLogic.Proofs.Party.Marching

/-!
# A company that stays together

Most of what befalls the members of a party leaves the purse, the marching order and the numbers of
the roster alone (`Party.SameCompany`). Where no two characters share a number, a change by number
changes whoever has it (`Party.modifyMember_eq_map`), and a change of the active members reaches all
of those that are looked at (`Party.mem_activeMembers_mapActive`). Several numbers change whoever
they name, and as often as they do so (`Party.changeNamed_cons`).
-/

namespace QuestLogic

namespace Character

/-- The improvements of a character have been looked at. -/
def see (c : Character) : Character := { c with skills := c.skills.clearUnseen }

/-- A character whose improvements have been looked at has none that have not. -/
theorem anyUnseen_see (c : Character) : c.see.skills.anyUnseen = false := by
  rw [see, Skills.clearUnseen, Skills.anyUnseen, Vector.toList_map, List.any_map]
  exact List.any_eq_false.2 fun r _ h => by cases h

/-- Whoever has been restored is at full health, and stays so when improvements are looked at. -/
theorem isHealed_see_restore (c : Character) : c.restore.see.isHealed = true := by
  rw [isHealed, decide_eq_true_eq, Skills.totalHealth, Skills.maxTotalHealth]
  simp [restore, see, Skills.clearUnseen, Skills.heal, Skills.modify, Skills.record,
    SkillType.slot?, Skill.full]

end Character

namespace Party

variable {p q r : Party} {f : Character → Character}

/-- The purse, the members on the road and the numbers of the roster are the same. -/
structure SameCompany (p q : Party) : Prop where
  gold : q.gold = p.gold
  active : q.active = p.active
  ids : q.roster.map (·.id) = p.roster.map (·.id)

/-- Changes every member, active or not. -/
def mapRoster (p : Party) (f : Character → Character) : Party :=
  { p with roster := p.roster.map f }

theorem SameCompany.refl (p : Party) : SameCompany p p := ⟨rfl, rfl, rfl⟩

theorem SameCompany.trans (h : SameCompany p q) (h' : SameCompany q r) : SameCompany p r :=
  ⟨h'.gold.trans h.gold, h'.active.trans h.active, h'.ids.trans h.ids⟩

/-- A change of the character at a place keeps the company together if it keeps the number. -/
theorem sameCompany_modify (p : Party) (place : Nat) (hf : ∀ c, (f c).id = c.id) :
    SameCompany p { p with roster := p.roster.modify place f } :=
  ⟨rfl, rfl, map_modify hf p.roster place⟩

theorem sameCompany_modifyMember (p : Party) (id : CharId) (hf : ∀ c, (f c).id = c.id) :
    SameCompany p (p.modifyMember id f) := by
  unfold modifyMember
  split
  · exact sameCompany_modify p _ hf
  · exact .refl p

/-- Who stands at a place is changed if marching comes to it. -/
theorem getElem?_mapActive (p : Party) (f : Character → Character) (place : Nat) :
    (p.mapActive f).roster[place]? =
      p.roster[place]?.map fun c => if p.marching.contains place then f c else c :=
  List.getElem?_mapIdx

/-- A change of the active members that keeps what a function makes of each. -/
theorem map_mapActive {β : Type} {g : Character → β} (hf : ∀ c, g (f c) = g c) (p : Party) :
    (p.mapActive f).roster.map g = p.roster.map g := by
  refine List.ext_getElem? fun i => ?_
  rw [List.getElem?_map, List.getElem?_map, getElem?_mapActive, Option.map_map]
  refine Option.map_congr fun c _ => ?_
  rw [Function.comp_apply, apply_ite g, hf, ite_self]

theorem sameCompany_mapActive (p : Party) (hf : ∀ c, (f c).id = c.id) :
    SameCompany p (p.mapActive f) := ⟨rfl, rfl, map_mapActive hf p⟩

theorem sameCompany_mapRoster (p : Party) (hf : ∀ c, (f c).id = c.id) :
    SameCompany p (p.mapRoster f) := by
  refine ⟨rfl, rfl, ?_⟩
  rw [mapRoster, List.map_map]
  exact List.map_congr_left fun c _ => hf c

/-! ## Changes by number -/

/-- Whoever is in the roster is found there. -/
theorem exists_member {id : CharId} (h : id ∈ p.roster.map (·.id)) : ∃ c, p.member id = .ok c := by
  obtain ⟨c, hc, hid⟩ := List.mem_map.1 h
  have hfound : (p.roster.find? (·.id = id)).isSome = true :=
    List.find?_isSome.2 ⟨c, hc, decide_eq_true hid⟩
  obtain ⟨d, hd⟩ := Option.isSome_iff_exists.1 hfound
  exact ⟨d, member_eq_ok.2 hd⟩

/-- The numbers of the roster are those by which somebody is found. -/
theorem mem_ids_iff {id : CharId} :
    id ∈ p.roster.map (·.id) ↔ ∃ c, p.member? id = some c := by
  constructor
  · intro h
    obtain ⟨c, hc⟩ := exists_member h
    exact ⟨c, member_eq_ok.1 hc⟩
  · rintro ⟨c, hc⟩
    exact List.mem_map.2 ⟨c, List.mem_of_find?_eq_some hc, id_of_member? hc⟩

/-- Where no two characters share a number, a change by number changes whoever has it. -/
theorem modifyMember_eq_map (hids : (p.roster.map (·.id)).Nodup) (id : CharId) :
    p.modifyMember id f = p.mapRoster fun c => if c.id = id then f c else c := by
  unfold modifyMember mapRoster
  split
  · rename_i i hi
    obtain ⟨hlt, hid, -⟩ := List.findIdx?_eq_some_iff_getElem.1 hi
    rw [decide_eq_true_eq] at hid
    refine congrArg (fun roster => { p with roster }) (List.ext_getElem? fun j => ?_)
    rw [List.getElem?_modify, List.getElem?_map]
    rcases hj : p.roster[j]? with _ | c
    · rfl
    -- The place that is changed is the only one with the number.
    · obtain ⟨hjlt, rfl⟩ := List.getElem?_eq_some_iff.1 hj
      have hlt' : i < (p.roster.map (·.id)).length := by rwa [List.length_map]
      have hjlt' : j < (p.roster.map (·.id)).length := by rwa [List.length_map]
      have hinj : (p.roster.map (·.id))[j] = (p.roster.map (·.id))[i] ↔ j = i :=
        hids.getElem_inj_iff
      rw [List.getElem_map, List.getElem_map, hid] at hinj
      exact congrArg some (if_congr (eq_comm.trans hinj.symm) rfl rfl)
  · rename_i hnone
    have hother : ∀ c ∈ p.roster, (if c.id = id then f c else c) = c := fun c hc =>
      if_neg (of_decide_eq_false (List.findIdx?_eq_none_iff.1 hnone c hc))
    rw [List.map_congr_left hother, List.map_id']

/-- How often some numbers name the character at a roster place. -/
def timesNamed (p : Party) (ids : List CharId) (place : Nat) : Nat :=
  ids.countP fun id => p.place? id = some place

/-- The characters of some numbers have been changed, each as often as it is named. -/
def changeNamed (p : Party) (ids : List CharId) (f : Character → Character) : Party :=
  { p with roster := p.roster.mapIdx fun place c => f^[p.timesNamed ids place] c }

@[simp] theorem changeNamed_nil (p : Party) (f : Character → Character) :
    p.changeNamed [] f = p := by
  refine congrArg (fun roster => { p with roster }) (List.ext_getElem? fun i => ?_)
  rw [List.getElem?_mapIdx]
  exact Option.map_id'

theorem timesNamed_cons (p : Party) (id : CharId) (ids : List CharId) (place : Nat) :
    p.timesNamed (id :: ids) place =
      p.timesNamed ids place + if p.place? id = some place then 1 else 0 := by
  rw [timesNamed, List.countP_cons]
  simp only [decide_eq_true_eq]
  rfl

/-- To change the characters of some numbers is to change the first and then the others. -/
theorem changeNamed_cons (hf : ∀ c, (f c).id = c.id) (id : CharId) (ids : List CharId) :
    p.changeNamed (id :: ids) f = (p.modifyMember id f).changeNamed ids f := by
  have htimes : ∀ place, (p.modifyMember id f).timesNamed ids place = p.timesNamed ids place :=
    fun place => by
      simp only [timesNamed, place?_congr (sameCompany_modifyMember p id hf).ids]
  unfold changeNamed
  simp only [htimes, timesNamed_cons]
  unfold modifyMember
  split
  · rename_i i hi
    have hplace : p.place? id = some i := hi
    refine congrArg (fun roster => { p with roster }) (List.ext_getElem? fun j => ?_)
    rw [List.getElem?_mapIdx, List.getElem?_mapIdx, List.getElem?_modify, hplace]
    rcases p.roster[j]? with _ | c
    · rfl
    · by_cases hj : i = j
      · simp [hj]
      · simp [hj]
  · rename_i hnone
    have hplace : p.place? id = none := hnone
    rw [hplace]
    rfl

/-- Where no number comes twice, each names one character once. -/
theorem timesNamed_of_nodup {ids : List CharId} (hids : ids.Nodup) (place : Nat) :
    p.timesNamed ids place = if ∃ id ∈ ids, p.place? id = some place then 1 else 0 := by
  induction ids with
  | nil => simp [timesNamed]
  | cons id rest ih =>
    obtain ⟨hid, hrest⟩ := List.nodup_cons.1 hids
    rw [timesNamed_cons, ih hrest]
    by_cases hplace : p.place? id = some place
    · have hother : ¬∃ id' ∈ rest, p.place? id' = some place := by
        rintro ⟨id', hid', hplace'⟩
        exact hid (place?_inj hplace hplace' ▸ hid')
      rw [if_neg hother, if_pos hplace, if_pos ⟨id, List.mem_cons_self, hplace⟩]
    · simp [hplace]

/-- Where no number comes twice, whoever is named is changed once and nobody else is. -/
theorem changeNamed_of_nodup {ids : List CharId} (hids : ids.Nodup) (f : Character → Character) :
    p.changeNamed ids f = { p with
      roster := p.roster.mapIdx fun place c =>
        if ∃ id ∈ ids, p.place? id = some place then f c else c } := by
  unfold changeNamed
  simp only [timesNamed_of_nodup hids]
  refine congrArg (fun roster => { p with roster }) (List.ext_getElem? fun place => ?_)
  rw [List.getElem?_mapIdx, List.getElem?_mapIdx]
  split_ifs
  · rfl
  · rfl

/-- The improvements of some members have been looked at, one after the other. -/
def seeEach (ids : List CharId) (p : Party) : Party :=
  ids.foldl (fun p id => p.modifyMember id Character.see) p

/-- Where no two characters share a number, to look at the improvements of everyone in turn is to
look at those of each. -/
theorem seeEach_eq_map (hids : (p.roster.map (·.id)).Nodup) (ids : List CharId) :
    seeEach ids p = p.mapRoster fun c => if c.id ∈ ids then c.see else c := by
  induction ids generalizing p with
  | nil =>
    have hnone : (fun c : Character => if c.id ∈ ([] : List CharId) then c.see else c) = id :=
      funext fun c => if_neg List.not_mem_nil
    rw [hnone, mapRoster, List.map_id]
    rfl
  | cons id rest ih =>
    have hfirst := modifyMember_eq_map (f := Character.see) hids id
    have hsame := (sameCompany_modifyMember p id (f := Character.see) fun _ => rfl).ids
    rw [seeEach, List.foldl_cons]
    refine (ih (by rwa [hsame])).trans ?_
    rw [hfirst, mapRoster, mapRoster, mapRoster]
    refine congrArg (fun roster => { p with roster }) ?_
    dsimp only
    rw [List.map_map]
    refine List.map_congr_left fun c _ => ?_
    have htwice : c.see.see = c.see := by
      simp [Character.see, Skills.clearUnseen, Function.comp_def]
    rw [Function.comp_apply]
    by_cases hid : c.id = id
    · rw [if_pos hid, if_pos (List.mem_cons.2 (.inl hid)), htwice, ite_self]
    · rw [if_neg hid]
      exact if_congr (by rw [List.mem_cons, or_iff_right hid]) rfl rfl

theorem seeEach_roster (hids : (p.roster.map (·.id)).Nodup) :
    seeEach (p.roster.map (·.id)) p = p.mapRoster Character.see := by
  rw [seeEach_eq_map hids]
  refine congrArg (fun roster => { p with roster }) (List.map_congr_left fun c hc => if_pos ?_)
  exact List.mem_map_of_mem hc

/-! ## Active members -/

/-- A change of every character that keeps the numbers changes every active member. -/
theorem activeMembers_mapRoster (p : Party) (hf : ∀ c, (f c).id = c.id) :
    (p.mapRoster f).activeMembers = p.activeMembers.map f := by
  rw [activeMembers, activeMembers, List.map_filterMap]
  refine List.filterMap_congr fun id _ => ?_
  rw [member?, member?, mapRoster, List.find?_map]
  simp only [Function.comp_def, hf]

/-- Where no two characters share a number, a change of the active members reaches all of those that
are looked at. -/
theorem mem_activeMembers_mapActive (hids : (p.roster.map (·.id)).Nodup)
    (hf : ∀ c, (f c).id = c.id) {c : Character} (hc : c ∈ (p.mapActive f).activeMembers) :
    ∃ d ∈ p.roster, c = f d := by
  have hplace : ∀ id, (p.mapActive f).place? id = p.place? id :=
    place?_congr (sameCompany_mapActive p hf).ids
  rw [activeMembers_eq, lookedAt, List.mem_filterMap] at hc
  obtain ⟨i, hi, hget⟩ := hc
  obtain ⟨id, hid, hfound⟩ := List.mem_filterMap.1 hi
  -- Marching comes to every place that is looked at.
  have hmarch : i ∈ p.marching := by
    rw [marching_eq fun id _ => List.nodup_iff_forall_not_duplicate.1 hids id, List.mem_filterMap]
    exact ⟨id, List.mem_eraseDups.2 hid, (hplace id).symm.trans hfound⟩
  rw [getElem?_mapActive, Option.map_eq_some_iff] at hget
  obtain ⟨d, hd, hchanged⟩ := hget
  refine ⟨d, List.mem_of_getElem? hd, ?_⟩
  rw [← hchanged, if_pos (List.contains_iff_mem.2 hmarch)]

/-! ## Recovery -/

/-- The active members have been restored, and everyone's improvements looked at. -/
def refreshed (p : Party) : Party := seeEach (p.roster.map (·.id)) (p.mapActive Character.restore)

theorem refreshed_eq (hids : (p.roster.map (·.id)).Nodup) :
    p.refreshed = (p.mapActive Character.restore).mapRoster Character.see := by
  have hsame := (sameCompany_mapActive p (f := Character.restore) fun _ => rfl).ids
  rw [refreshed, ← hsame, seeEach_roster (by rwa [hsame])]

theorem sameCompany_refreshed (hids : (p.roster.map (·.id)).Nodup) : SameCompany p p.refreshed := by
  rw [refreshed_eq hids]
  have hrestored := sameCompany_mapActive p (f := Character.restore) fun _ => rfl
  exact hrestored.trans (sameCompany_mapRoster _ fun _ => rfl)

/-- Nobody has an improvement left that has not been looked at. -/
theorem anyUnseen_refreshed (hids : (p.roster.map (·.id)).Nodup) {c : Character}
    (hc : c ∈ p.refreshed.roster) : c.skills.anyUnseen = false := by
  rw [refreshed_eq hids] at hc
  obtain ⟨d, -, rfl⟩ := List.mem_map.1 hc
  exact d.anyUnseen_see

/-- Nothing ails an active member, and all of them are at full health. -/
theorem healthy_refreshed (hids : (p.roster.map (·.id)).Nodup) {c : Character}
    (hc : c ∈ p.refreshed.activeMembers) :
    (∀ k, c.conditions.degree k = 0) ∧ c.isHealed = true := by
  rw [refreshed_eq hids, activeMembers_mapRoster _ (f := Character.see) fun _ => rfl] at hc
  obtain ⟨d, hd, rfl⟩ := List.mem_map.1 hc
  have hkeep : ∀ e : Character, e.restore.id = e.id := fun _ => rfl
  obtain ⟨b, -, rfl⟩ := mem_activeMembers_mapActive hids hkeep hd
  exact ⟨fun k => Vector.getElem_replicate _, b.isHealed_see_restore⟩

end Party

end QuestLogic
