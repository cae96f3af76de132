import Mathlib.Data.List.NodupEquivFin
import Mathlib.Data.List.Perm.Basic
import QuestLogic.Proofs.Step
import QuestLogic.Party.Basic

/-!
# Who is looked at and who is changed

Active members are looked at by number, each number anew (`Party.lookedAt`), and changed in marching
order, in which a place that is taken is gone (`Party.marching`). So marching comes to no place
twice (`Party.nodup_marching`), and where no two characters share a number it comes to the places
that are looked at, without the repeats (`Party.marching_eq`). Nothing keeps a number from being
named twice, so that the two need not agree (`Party.marching_lookedAt`).
-/

namespace QuestLogic.Party

/-! ## Taking out -/

/-- What is taken out of a list is gone from it, and nothing else is. -/
theorem perm_takeOut {α : Type} {xs : List α} {i : Nat} {x : α} (h : xs[i]? = some x) :
    xs.Perm (x :: takeOut xs i) := by
  obtain ⟨hi, rfl⟩ := List.getElem?_eq_some_iff.1 h
  have hxs : xs ≠ [] := List.ne_nil_of_length_pos (Nat.zero_lt_of_lt hi)
  obtain ⟨ys, last, rfl⟩ : ∃ ys last, xs = ys ++ [last] :=
    ⟨_, _, (List.dropLast_append_getLast hxs).symm⟩
  rw [List.length_append, List.length_singleton] at hi
  rw [takeOut, List.getLast?_concat]
  dsimp only
  rcases Nat.lt_or_ge i ys.length with hlt | hge
  -- The last one takes the place of what is taken out from before it.
  · rw [List.set_append_left _ _ hlt, List.dropLast_concat, List.getElem_append_left hlt]
    have hset : (ys.set i last).Perm (last :: ys.eraseIdx i) := List.set_perm_cons_eraseIdx hlt last
    have hys : ys.Perm (ys[i] :: ys.eraseIdx i) := (List.getElem_cons_eraseIdx_perm hlt).symm
    refine (List.perm_append_singleton last ys).trans ((hys.cons last).trans ?_)
    exact (List.Perm.swap _ _ _).trans (hset.symm.cons _)
  · obtain rfl : i = ys.length := by omega
    rw [List.set_append_right _ _ (Nat.le_refl _), Nat.sub_self, List.set_cons_zero,
      List.dropLast_concat, List.getElem_concat_length rfl]
    exact List.perm_append_singleton last ys

theorem mem_of_mem_takeOut {α : Type} {xs : List α} {i : Nat} {x y : α} (h : xs[i]? = some x)
    (hy : y ∈ takeOut xs i) : y ∈ xs :=
  (perm_takeOut h).symm.subset (List.mem_cons_of_mem _ hy)

variable {p q : Party} {ids : List CharId} {left : List (Character × Nat)}

/-- Whoever is found among those that are left is one of them. -/
theorem getElem?_of_findIdx? {id : CharId} {k : Nat} (h : left.findIdx? (·.1.id = id) = some k) :
    ∃ c i, left[k]? = some (c, i) ∧ c.id = id := by
  obtain ⟨hk, hid, -⟩ := List.findIdx?_eq_some_iff_getElem.1 h
  exact ⟨_, _, List.getElem?_eq_getElem hk, of_decide_eq_true hid⟩

/-- The places that are left, and the one of whoever is taken out. -/
theorem perm_places {c : Character} {i k : Nat} (h : left[k]? = some (c, i)) :
    (left.map (·.2)).Perm (i :: (takeOut left k).map (·.2)) :=
  (perm_takeOut h).map (·.2)

/-- The places that are found among those that are left are left, and there is no more of them. -/
theorem subperm_placesAmong (ids : List CharId) (left : List (Character × Nat)) :
    (placesAmong ids left).Subperm (left.map (·.2)) := by
  induction ids generalizing left with
  | nil => exact List.nil_subperm
  | cons id rest ih =>
    rw [placesAmong]
    split
    · rename_i k hk
      obtain ⟨c, i, hc, -⟩ := getElem?_of_findIdx? hk
      rw [hc]
      exact ((List.subperm_cons i).2 (ih _)).trans (perm_places hc).symm.subperm
    · exact ih left

/-- No two places of the roster are the same. -/
theorem nodup_places (p : Party) : (p.roster.zipIdx.map (·.2)).Nodup := by
  rw [List.zipIdx_map_snd]
  exact List.nodup_range'

/-- Marching comes to no place twice. -/
theorem nodup_marching (p : Party) : p.marching.Nodup := by
  obtain ⟨l, hperm, hsub⟩ := subperm_placesAmong p.active p.roster.zipIdx
  exact hperm.nodup_iff.1 (p.nodup_places.sublist hsub)

/-! ## Looking at the members -/

/-- The place of the character of that number, the first if there are several. -/
def place? (p : Party) (id : CharId) : Option Nat := p.roster.findIdx? (·.id = id)

theorem member?_eq (p : Party) (id : CharId) : p.member? id = (p.place? id).bind (p.roster[·]?) :=
  List.find?_eq_bind_findIdx?_getElem?

/-- Whoever is found by number has that number. -/
theorem id_of_member? {id : CharId} {c : Character} (h : p.member? id = some c) : c.id = id := by
  simpa using List.find?_some h

/-- Whoever is found by number stands at the place of the number. -/
theorem exists_of_place? {id : CharId} {place : Nat} (h : p.place? id = some place) :
    ∃ c, p.roster[place]? = some c ∧ p.member? id = some c := by
  obtain ⟨hlt, -, -⟩ := List.findIdx?_eq_some_iff_getElem.1 h
  refine ⟨_, List.getElem?_eq_getElem hlt, ?_⟩
  rw [member?_eq, h, Option.bind_some, List.getElem?_eq_getElem hlt]

/-- Who stands where is told by the numbers alone. -/
theorem place?_congr (h : q.roster.map (·.id) = p.roster.map (·.id)) (id : CharId) :
    q.place? id = p.place? id := by
  have hmap : ∀ r : Party, r.place? id = (r.roster.map (·.id)).findIdx? (· = id) := fun r => by
    rw [List.findIdx?_map]
    rfl
  rw [hmap, hmap, h]

/-- No two numbers name the same place. -/
theorem place?_inj {id id' : CharId} {place : Nat} (h : p.place? id = some place)
    (h' : p.place? id' = some place) : id = id' := by
  obtain ⟨hlt, hid, -⟩ := List.findIdx?_eq_some_iff_getElem.1 h
  obtain ⟨_, hid', -⟩ := List.findIdx?_eq_some_iff_getElem.1 h'
  rw [decide_eq_true_eq] at hid hid'
  exact hid.symm.trans hid'

/-- The roster places of the active members as they are looked at. -/
def lookedAt (p : Party) : List Nat := p.active.filterMap p.place?

/-- The active members are those at the places that are looked at. -/
theorem activeMembers_eq (p : Party) : p.activeMembers = p.lookedAt.filterMap (p.roster[·]?) := by
  rw [activeMembers, lookedAt, List.filterMap_filterMap]
  exact List.filterMap_congr fun id _ => p.member?_eq id

/-- Every active member is in the roster. -/
def Manned (p : Party) : Prop := ∀ id ∈ p.active, (p.place? id).isSome

theorem setActive_eq_ok {active : List CharId} (h : p.setActive active = .ok q) :
    q = { p with active } ∧ q.Manned := by
  unfold setActive at h
  split at h
  · cases h
  · rename_i hfind
    cases h
    refine ⟨rfl, fun id hid => ?_⟩
    have hmember := List.find?_eq_none.1 hfind id hid
    simpa [member?, place?] using hmember

/-- Only members of the roster are ever put on the road. -/
theorem manned_of_foldlM {changes : List (List CharId)} (hp : p.Manned)
    (h : changes.foldlM setActive p = .ok q) : q.Manned ∧ q.roster = p.roster := by
  induction changes generalizing p with
  | nil =>
    cases h
    exact ⟨hp, rfl⟩
  | cons active rest ih =>
    rw [List.foldlM_cons] at h
    obtain ⟨r, hr, hrest⟩ := Except.bind_eq_ok.1 h
    obtain ⟨rfl, hmanned⟩ := setActive_eq_ok hr
    obtain ⟨hq, hroster⟩ := ih hmanned hrest
    exact ⟨hq, hroster⟩

/-- Where no place is looked at twice, no number is named twice. -/
theorem nodup_active_of_lookedAt (hp : p.Manned) (h : p.lookedAt.Nodup) : p.active.Nodup := by
  refine (List.pairwise_filterMap.1 h).imp_of_mem fun {id id'} hid _ hne heq => ?_
  obtain ⟨i, hi⟩ := Option.isSome_iff_exists.1 (hp id hid)
  subst heq
  exact hne i hi i hi rfl

/-! ## Numbers that nobody shares -/

/-- Those that are left have the numbers of these at the places where they are looked at. -/
def Tracks (p : Party) (ids : List CharId) (left : List (Character × Nat)) : Prop :=
  ∀ id ∈ ids, ∀ i, p.place? id = some i ↔ ∃ c, (c, i) ∈ left ∧ c.id = id

/-- A number that nobody shares is that of one place at most. -/
theorem tracks_zipIdx (h : ∀ id ∈ ids, ¬(p.roster.map (·.id)).Duplicate id) :
    p.Tracks ids p.roster.zipIdx := by
  intro id hid i
  rw [place?, List.findIdx?_eq_some_iff_getElem]
  constructor
  · rintro ⟨hi, hfound, -⟩
    exact ⟨_, List.mem_zipIdx_iff_getElem?.2 (List.getElem?_eq_getElem hi),
      of_decide_eq_true hfound⟩
  · rintro ⟨c, hc, rfl⟩
    obtain ⟨hi, hc⟩ := List.getElem?_eq_some_iff.1 (List.mem_zipIdx_iff_getElem?.1 hc)
    refine ⟨hi, decide_eq_true (congrArg Character.id hc), fun j hj hfound => h _ hid ?_⟩
    -- Another one with the number would stand before the first.
    have hlen : (p.roster.map (·.id)).length = p.roster.length := List.length_map _
    refine List.duplicate_iff_exists_distinct_get.2
      ⟨⟨j, by omega⟩, ⟨i, by omega⟩, hj, ?_, ?_⟩
    · simpa using (of_decide_eq_true hfound).symm
    · simpa using (congrArg Character.id hc).symm

variable {c : Character} {i k : Nat}

/-- Whoever is left stands where the number is looked at. -/
theorem Tracks.place_eq (h : p.Tracks ids left) (hk : left[k]? = some (c, i)) (hid : c.id ∈ ids) :
    p.place? c.id = some i :=
  (h c.id hid i).2 ⟨c, List.mem_of_getElem? hk, rfl⟩

/-- A number that nobody is left with is not one of the roster. -/
theorem Tracks.place_eq_none {id : CharId} (h : p.Tracks ids left) (hid : id ∈ ids)
    (habsent : ∀ e ∈ left, e.1.id ≠ id) : p.place? id = none := by
  refine Option.eq_none_iff_forall_ne_some.2 fun i hi => ?_
  obtain ⟨c, hc, hcid⟩ := (h id hid i).1 hi
  exact habsent _ hc hcid

/-- Nobody is left with the number of someone who is taken out. -/
theorem Tracks.absent_takeOut (h : p.Tracks ids left) (hleft : (left.map (·.2)).Nodup)
    (hk : left[k]? = some (c, i)) (hid : c.id ∈ ids) : ∀ e ∈ takeOut left k, e.1.id ≠ c.id := by
  intro e he heq
  have hplace := (h c.id hid e.2).2 ⟨e.1, mem_of_mem_takeOut hk he, heq⟩
  rw [h.place_eq hk hid, Option.some.injEq] at hplace
  -- The two would stand at one place.
  obtain ⟨hi, -⟩ := List.nodup_cons.1 ((perm_places hk).nodup_iff.1 hleft)
  exact hi (hplace ▸ List.mem_map_of_mem he)

/-- Others are still where they were when someone is taken out. -/
theorem Tracks.takeOut (h : p.Tracks ids left) (hk : left[k]? = some (c, i)) (hid : c.id ∉ ids) :
    p.Tracks ids (takeOut left k) := by
  intro id' hid' j
  rw [h id' hid' j]
  refine exists_congr fun d => ?_
  rw [(perm_takeOut hk).mem_iff, List.mem_cons]
  constructor
  · rintro ⟨heq | hd, rfl⟩
    · cases heq
      exact absurd hid' hid
    · exact ⟨hd, rfl⟩
  · exact fun ⟨hd, heq⟩ => ⟨.inr hd, heq⟩

/-- Where nobody is left with a number, it may as well not be named. -/
theorem placesAmong_filter {id : CharId} (hid : ∀ e ∈ left, e.1.id ≠ id) (ids : List CharId) :
    placesAmong (ids.filter fun k => !k == id) left = placesAmong ids left := by
  induction ids generalizing left with
  | nil => rfl
  | cons k rest ih =>
    by_cases hk : k = id
    · have hnone : left.findIdx? (·.1.id = k) = none :=
        List.findIdx?_eq_none_iff.2 fun e he => decide_eq_false (hk ▸ hid e he)
      rw [List.filter_cons_of_neg (by simp [hk]), ih hid, placesAmong, hnone]
    · rw [List.filter_cons_of_pos (by simpa using hk), placesAmong, placesAmong]
      split
      · rename_i n hn
        obtain ⟨c, i, hc, -⟩ := getElem?_of_findIdx? hn
        -- Whoever is left after one is taken out was left before.
        rw [ih fun e he => hid e (mem_of_mem_takeOut hc he)]
      · rw [ih hid]

/-- Those that are left are found where they are looked at, each once. -/
theorem placesAmong_eq (h : p.Tracks ids left) (hleft : (left.map (·.2)).Nodup) :
    placesAmong ids left = ids.eraseDups.filterMap p.place? := by
  -- Once nobody is left with a number, it may be dropped from those that are named later.
  induction hlen : ids.length using Nat.strong_induction_on generalizing ids left with
  | _ n ih =>
  rcases ids with _ | ⟨id, rest⟩
  · rfl
  · have hlater : ∀ {left'}, p.Tracks (rest.filter fun k => !k == id) left' →
        (left'.map (·.2)).Nodup → (∀ e ∈ left', e.1.id ≠ id) →
        placesAmong rest left' = (rest.filter fun k => !k == id).eraseDups.filterMap p.place? := by
      intro left' htracks hnodup habsent
      have hshort : (rest.filter fun k => !k == id).length < n := by
        rw [← hlen, List.length_cons]
        exact Nat.lt_succ_of_le (List.length_filter_le _ _)
      rw [← placesAmong_filter habsent, ih _ hshort htracks hnodup rfl]
    have htracks : p.Tracks (rest.filter fun k => !k == id) left := fun k hk =>
      h k (List.mem_cons_of_mem _ (List.mem_of_mem_filter hk))
    rw [placesAmong, List.eraseDups_cons, List.filterMap_cons]
    split
    · rename_i k hk
      obtain ⟨c, i, hc, rfl⟩ := getElem?_of_findIdx? hk
      obtain ⟨-, hnodup⟩ := List.nodup_cons.1 ((perm_places hc).nodup_iff.1 hleft)
      have habsent := h.absent_takeOut hleft hc List.mem_cons_self
      rw [hc, h.place_eq hc List.mem_cons_self,
        hlater (htracks.takeOut hc (by simp)) hnodup habsent]
      rfl
    · rename_i hnone
      have habsent : ∀ e ∈ left, e.1.id ≠ id := fun e he =>
        of_decide_eq_false (List.findIdx?_eq_none_iff.1 hnone e he)
      rw [h.place_eq_none List.mem_cons_self habsent]
      exact hlater htracks hleft habsent

/-- Where no two characters share a number of the members on the road, marching comes to the places
that are looked at, without the repeats. -/
theorem marching_eq (h : ∀ id ∈ p.active, ¬(p.roster.map (·.id)).Duplicate id) :
    p.marching = p.active.eraseDups.filterMap p.place? :=
  placesAmong_eq (tracks_zipIdx h) p.nodup_places

/-- A list without repeats has none to lose. -/
theorem eraseDups_eq_self {xs : List CharId} (h : xs.Nodup) : xs.eraseDups = xs := by
  induction h with
  | nil => rfl
  | @cons x rest hx _ ih =>
    have hfilter : (rest.filter fun k => !k == x) = rest :=
      List.filter_eq_self.2 fun k hk => by simpa using (hx k hk).symm
    rw [List.eraseDups_cons, hfilter, ih]

/-- Where no number is shared and none is named twice, members are changed as they are looked at. -/
theorem marching_eq_lookedAt (hids : (p.roster.map (·.id)).Nodup) (hactive : p.active.Nodup) :
    p.marching = p.lookedAt := by
  have halone : ∀ id ∈ p.active, ¬(p.roster.map (·.id)).Duplicate id := fun id _ =>
    List.nodup_iff_forall_not_duplicate.1 hids id
  rw [marching_eq halone, eraseDups_eq_self hactive, lookedAt]

/--
Whatever members of its roster a party puts on the road, looking at them and changing them comes to
the same places in the same order only if no number is named twice. Where no two characters share a
number of those on the road, changing them comes to the places that are looked at without the
repeats, so that then this is all it takes.
-/
theorem marching_lookedAt {roster : List Character} {active : List CharId}
    {changes : List (List CharId)} (hnew : ofRoster roster active = .ok q)
    (hset : changes.foldlM setActive q = .ok p) :
    (p.marching = p.lookedAt → p.active.Nodup) ∧
    ((∀ id ∈ p.active, ¬(roster.map (·.id)).Duplicate id) →
      p.marching = p.active.eraseDups.filterMap p.place? ∧
      (p.marching = p.lookedAt ↔ p.active.Nodup)) := by
  obtain ⟨rfl, hmanned⟩ := setActive_eq_ok hnew
  obtain ⟨hp, hroster⟩ := manned_of_foldlM hmanned hset
  have honce : p.marching = p.lookedAt → p.active.Nodup := fun h =>
    nodup_active_of_lookedAt hp (h ▸ nodup_marching p)
  refine ⟨honce, fun halone => ?_⟩
  have heq : p.marching = p.active.eraseDups.filterMap p.place? :=
    marching_eq (by rwa [hroster])
  refine ⟨heq, honce, fun hnodup => ?_⟩
  rw [heq, eraseDups_eq_self hnodup, lookedAt]

/-- The party of the story looks at and changes the same members when Pug comes in. -/
theorem marching_lookedAt_pug : ∃ q p,
    ofRoster Character.cast [.locklear, .owyn, .gorath] = .ok q ∧
      [[.pug, .owyn]].foldlM setActive q = .ok p ∧ p.lookedAt = [3, 2] ∧
      p.marching = p.lookedAt := by
  let q : Party := ⟨.none, Character.cast, [.locklear, .owyn, .gorath], default⟩
  let p : Party := { q with active := [.pug, .owyn] }
  have hnew : ofRoster Character.cast [.locklear, .owyn, .gorath] = .ok q := rfl
  have hset : [[.pug, .owyn]].foldlM setActive q = .ok p := rfl
  obtain ⟨-, halone⟩ := marching_lookedAt hnew hset
  exact ⟨q, p, hnew, hset, rfl, (halone (by decide)).2.2 (by decide)⟩

/-- A member who is named twice is looked at twice and changed once, and of two who share a number
the one that is changed need not be the one that is looked at. -/
theorem marching_lookedAt_differ :
    (∃ p, ofRoster Character.cast [.locklear, .locklear] = .ok p ∧ p.lookedAt = [0, 0] ∧
      p.marching = [0]) ∧
    ∃ p, ofRoster [.fresh .gorath "Gorath", .fresh .locklear "First", .fresh .locklear "Second"]
        [.gorath, .locklear] = .ok p ∧ p.lookedAt = [0, 1] ∧ p.marching = [0, 2] :=
  ⟨⟨_, rfl, rfl, rfl⟩, ⟨_, rfl, rfl, rfl⟩⟩

end QuestLogic.Party
