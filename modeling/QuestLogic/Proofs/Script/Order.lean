import Mathlib
import QuestLogic.Proofs.Script.Library

/-!
# Texts in any order

A text is loaded if it can be read and what it defines is consistent with what the texts before it
defined; its definitions then come after theirs (`Library.loads_loadWith`). So texts can be loaded
one after the other just if all of them can be read and what they define together is consistent,
which is no matter of their order; and then each target and each chapter has the one definition that
some text gives it (`Library.loadEach_order`).
-/

namespace QuestLogic

/-! ## What texts define -/

/-- The beginning of a chapter under the chapter. -/
def ChapterEntry.keyed (e : ChapterEntry) : Chapter × ChapterStart := (e.chapter, e.start)

theorem ChapterEntry.map_keyed_fst (entries : List ChapterEntry) :
    (entries.map keyed).map Prod.fst = entries.map (·.chapter) := List.map_map

/-- The chapter is one of the nine, and it begins within a day. -/
structure ChapterEntry.Usable (e : ChapterEntry) : Prop where
  inStory : 1 ≤ e.chapter.val.toNat ∧ e.chapter.val.toNat ≤ 9
  byDay : e.startHour.toNat < 24

theorem NameTables.append_empty (names : NameTables) : names.append .empty = names := by
  rw [append, empty, List.append_nil, List.append_nil]

/-- What texts define, in the order in which they do. -/
structure Definitions where
  snippets : List (Target × Snippet) := []
  chapters : List ChapterEntry := []
  /-- The snippets that open every chapter, of which there should be one at most. -/
  common : List Target := []
  names : NameTables := .empty
  /-- The settings, of which there should be one at most as well. -/
  settings : List Settings := []

namespace Definitions

variable {d : Definitions}

/-- One thing after another. -/
def append (d d' : Definitions) : Definitions where
  snippets := d.snippets ++ d'.snippets
  chapters := d.chapters ++ d'.chapters
  common := d.common ++ d'.common
  names := d.names.append d'.names
  settings := d.settings ++ d'.settings

/-- What all of them define together. -/
def gather (ds : List Definitions) : Definitions where
  snippets := ds.flatMap (·.snippets)
  chapters := ds.flatMap (·.chapters)
  common := ds.flatMap (·.common)
  names := ⟨ds.flatMap (·.names.monsters), ds.flatMap (·.names.spells)⟩
  settings := ds.flatMap (·.settings)

/-- Every beginning is usable, and nothing is defined twice. -/
structure Consistent (d : Definitions) : Prop where
  usable : ∀ e ∈ d.chapters, e.Usable
  targets : (d.snippets.map Prod.fst).Nodup
  chapters : (d.chapters.map (·.chapter)).Nodup
  common : d.common.length ≤ 1
  settings : d.settings.length ≤ 1

/-- The library with these definitions. -/
def library (d : Definitions) : Library where
  dialogs := ⟨d.snippets⟩
  story := ⟨d.chapters.map ChapterEntry.keyed, d.common.head?⟩
  names := d.names
  settings := d.settings.head?

theorem append_assoc (d d' d'' : Definitions) :
    (d.append d').append d'' = d.append (d'.append d'') := by
  simp only [append, NameTables.append, List.append_assoc]

/-- To define nothing leaves definitions as they are. -/
theorem append_gather_nil (d : Definitions) : d.append (gather []) = d := by
  simp only [append, NameTables.append, gather, List.flatMap_nil, List.append_nil]

/-- What is consistent was so before the last of it came. -/
theorem Consistent.of_append {d' : Definitions} (h : (d.append d').Consistent) :
    d.Consistent where
  usable e he := h.usable e (List.mem_append_left _ he)
  targets := h.targets.sublist ((List.sublist_append_left _ _).map _)
  chapters := h.chapters.sublist ((List.sublist_append_left _ _).map _)
  common := Nat.le_trans (List.sublist_append_left _ _).length_le h.common
  settings := Nat.le_trans (List.sublist_append_left _ _).length_le h.settings

theorem consistent_gather_nil : (gather []).Consistent :=
  ⟨fun _ he => absurd he List.not_mem_nil, List.nodup_nil, List.nodup_nil, Nat.zero_le 1,
    Nat.zero_le 1⟩

end Definitions

/-- What a text defines, if it can be read. -/
def Library.Reader.read? (r : Library.Reader) : Library.Topic × String → Option Definitions
  | (.snippets, text) => (r.snippets text).map fun snippets => { snippets }
  | (.chapters, text) => (r.chapters text).map fun file =>
    { chapters := file.entries, common := file.commonSnippet.toList }
  | (.names, text) => (r.names text).map fun names => { names }
  | (.settings, text) => (r.settings text).map fun settings => { settings := [settings] }

/-! ## Tables -/

section Tables

variable {K V : Type} {table : List (K × V)} {k : K} {v : V}

/-- An entry can be added under a key that is free. -/
theorem nodup_keys_concat (h : (table.map Prod.fst).Nodup) {e : K × V} :
    ((table ++ [e]).map Prod.fst).Nodup ↔ e.1 ∉ table.map Prod.fst := by
  rw [List.map_append, List.map_singleton, ← List.concat_eq_append, List.nodup_concat]
  exact and_iff_left h

/-- Of entries with no key twice the first ones have none twice either. -/
theorem nodup_keys_of_cons {e : K × V} {rest : List (K × V)}
    (h : ((table ++ e :: rest).map Prod.fst).Nodup) : ((table ++ [e]).map Prod.fst).Nodup :=
  h.sublist (((List.singleton_sublist.2 List.mem_cons_self).append_left _).map _)

variable [DecidableEq K]

theorem lookup_isSome_iff_mem_keys : (table.lookup k).isSome = true ↔ k ∈ table.map Prod.fst := by
  rw [List.lookup_isSome_iff, List.mem_map]
  exact exists_congr fun e => and_congr_right fun _ => beq_iff_eq.trans eq_comm

/-- In a table with no key twice, what is found under a key is what stands there. -/
theorem lookup_eq_some_iff_mem (h : (table.map Prod.fst).Nodup) :
    table.lookup k = some v ↔ (k, v) ∈ table := by
  constructor
  · intro hfound
    obtain ⟨before, rest, rfl, -⟩ := List.lookup_eq_some_iff.1 hfound
    exact List.mem_append_right _ List.mem_cons_self
  · intro hmem
    obtain ⟨v', hfound⟩ := Option.isSome_iff_exists.1
      (lookup_isSome_iff_mem_keys.2 (List.mem_map_of_mem (f := Prod.fst) hmem))
    obtain ⟨before, rest, hsplit, -⟩ := List.lookup_eq_some_iff.1 hfound
    have hmem' : (k, v') ∈ table := hsplit ▸ List.mem_append_right _ List.mem_cons_self
    rw [hfound, (Prod.mk.inj (List.inj_on_of_nodup_map h hmem' hmem rfl)).2]

theorem DialogStore.contains_iff_mem_keys {dialogs : DialogStore} {t : Target} :
    dialogs.contains t = true ↔ t ∈ dialogs.entries.map Prod.fst := lookup_isSome_iff_mem_keys

theorem Story.isSome_find?_iff_mem_keys {story : Story} {c : Chapter} :
    (story.find? c).isSome = true ↔ c ∈ story.starts.map Prod.fst := lookup_isSome_iff_mem_keys

end Tables

namespace Library

variable {l l' : Library}

/-! ## Steps that go through -/

/-- The step of loading goes through and makes the one library the other. -/
def Loads (x : Loading Unit) (l l' : Library) : Prop := x.run.run l = (.ok (), l')

theorem loads_pure : Loads (pure ()) l l' ↔ l' = l := by
  constructor
  · intro h
    cases h
    rfl
  · rintro rfl
    rfl

theorem not_loads_throw {e : LoadFault} : ¬Loads (throw e) l l' := fun h => by cases h

theorem loads_bind {x y : Loading Unit} :
    Loads (x >>= fun _ => y) l l' ↔ ∃ l₁, Loads x l l₁ ∧ Loads y l₁ l' := by
  unfold Loads
  rw [Loading.run_bind]
  rcases x.run.run l with ⟨e | _, l₁⟩
  · exact iff_of_false (fun h => by cases h) fun ⟨_, h, _⟩ => by cases h
  · exact ⟨fun h => ⟨l₁, rfl, h⟩, fun ⟨_, h, h'⟩ => by cases h; exact h'⟩

/-- A text is loaded if it can be read and what it says can be added. -/
theorem loads_expected {α : Type} {a : Option α} {f : α → Loading Unit} :
    Loads (expected a >>= f) l l' ↔ ∃ v, a = some v ∧ Loads (f v) l l' := by
  cases a with
  | none => exact iff_of_false not_loads_throw fun ⟨_, h, _⟩ => by cases h
  | some v => exact ⟨fun h => ⟨v, rfl, h⟩, fun ⟨_, h, h'⟩ => by cases h; exact h'⟩

/-- A step that stops if something is taken goes through if it is not. -/
theorem loads_guarded {x : Loading Unit} {taken : Prop} [Decidable taken] (e : LoadFault)
    (l₁ : Library) {l₂ : Library}
    (hrun : x.run.run l = if taken then (.error e, l₁) else (.ok (), l₂)) :
    Loads x l l' ↔ ¬taken ∧ l' = l₂ := by
  rw [Loads, hrun]
  split_ifs with htaken
  · exact iff_of_false (fun h => by cases h) fun h => h.1 htaken
  · exact ⟨fun h => ⟨htaken, (Prod.mk.inj h).2.symm⟩, fun h => by rw [h.2]⟩

/-! ## Adding definitions -/

/-- Entries are added to a table in order, under keys that are free. -/
theorem loads_each {K V : Type} (table : Library → List (K × V))
    (put : Library → List (K × V) → Library) {add : K → V → Loading Unit}
    {each : List (K × V) → Loading Unit} (hnil : each [] = pure ())
    (hcons : ∀ e rest, each (e :: rest) = add e.1 e.2 >>= fun _ => each rest)
    (hadd : ∀ k v l l', Loads (add k v) l l' ↔
      k ∉ (table l).map Prod.fst ∧ l' = put l (table l ++ [(k, v)]))
    (htable : ∀ l es, table (put l es) = es) (hput : ∀ l es es', put (put l es) es' = put l es')
    (hsame : ∀ l, put l (table l) = l) (hl : ((table l).map Prod.fst).Nodup) (es : List (K × V)) :
    Loads (each es) l l' ↔
      ((table l ++ es).map Prod.fst).Nodup ∧ l' = put l (table l ++ es) := by
  induction es generalizing l with
  | nil =>
    rw [hnil, loads_pure, List.append_nil, hsame]
    exact ⟨fun h => ⟨hl, h⟩, And.right⟩
  | cons e rest ih =>
    have hnodup : ((table l ++ [e]).map Prod.fst).Nodup ↔ e.1 ∉ (table l).map Prod.fst :=
      nodup_keys_concat hl
    -- The rest is added to the table that has the first entry in it.
    have hrest : ∀ l₁, l₁ = put l (table l ++ [e]) → ((table l ++ [e]).map Prod.fst).Nodup →
        (Loads (each rest) l₁ l' ↔ ((table l ++ e :: rest).map Prod.fst).Nodup ∧
          l' = put l (table l ++ e :: rest)) := by
      rintro _ rfl hl₁
      rw [ih (by rwa [htable]), htable, hput, List.append_assoc]
      rfl
    rw [hcons, loads_bind]
    constructor
    · rintro ⟨l₁, hadded, hloads⟩
      obtain ⟨hnew, hl₁⟩ := (hadd _ _ _ _).1 hadded
      exact (hrest l₁ hl₁ (hnodup.2 hnew)).1 hloads
    · intro h
      have hl₁ := nodup_keys_of_cons h.1
      exact ⟨_, (hadd _ _ _ _).2 ⟨hnodup.1 hl₁, rfl⟩, (hrest _ rfl hl₁).2 h⟩

theorem loads_addSnippet {t : Target} {snippet : Snippet} :
    Loads (addSnippet t snippet) l l' ↔ t ∉ l.dialogs.entries.map Prod.fst ∧
      l' = { l with dialogs := ⟨l.dialogs.entries ++ [(t, snippet)]⟩ } := by
  rw [← DialogStore.contains_iff_mem_keys]
  refine loads_guarded (.snippetTwice t) l ?_
  change ((if l.dialogs.contains t = true then _ else _ : Loading Unit).run.run l) = _
  rw [DialogStore.insert]
  split_ifs <;> rfl

theorem loads_addSnippets (hl : (l.dialogs.entries.map Prod.fst).Nodup)
    (snippets : List (Target × Snippet)) :
    Loads (addSnippets snippets) l l' ↔
      ((l.dialogs.entries ++ snippets).map Prod.fst).Nodup ∧
        l' = { l with dialogs := ⟨l.dialogs.entries ++ snippets⟩ } :=
  loads_each (·.dialogs.entries) (fun l es => { l with dialogs := ⟨es⟩ })
    rfl (fun _ _ => rfl) (fun _ _ _ _ => loads_addSnippet) (fun _ _ => rfl) (fun _ _ _ => rfl)
    (fun _ => rfl) hl snippets

theorem loads_addStart {c : Chapter} {start : ChapterStart} :
    Loads (addStart c start) l l' ↔ c ∉ l.story.starts.map Prod.fst ∧
      l' = { l with story.starts := l.story.starts ++ [(c, start)] } := by
  rw [← Story.isSome_find?_iff_mem_keys]
  refine loads_guarded (.chapterTwice c) { l with story := l.story.insert c start } ?_
  change ((if (l.story.find? c).isSome = true then _ else _ : Loading Unit).run.run _) = _
  rw [Story.insert]
  split_ifs <;> rfl

theorem loads_addStarts (hl : (l.story.starts.map Prod.fst).Nodup)
    (starts : List (Chapter × ChapterStart)) :
    Loads (addStarts starts) l l' ↔
      ((l.story.starts ++ starts).map Prod.fst).Nodup ∧
        l' = { l with story.starts := l.story.starts ++ starts } :=
  loads_each (·.story.starts) (fun l es => { l with story.starts := es })
    rfl (fun _ _ => rfl) (fun _ _ _ _ => loads_addStart) (fun _ _ => rfl) (fun _ _ _ => rfl)
    (fun _ => rfl) hl starts

theorem loads_addCommonSnippet {t : Target} :
    Loads (addCommonSnippet t) l l' ↔ ¬l.story.commonSnippet.isSome = true ∧
      l' = { l with story.commonSnippet := some t } := by
  refine loads_guarded .commonSnippetTwice { l with story.commonSnippet := some t } ?_
  change ((if l.story.commonSnippet.isSome = true then _ else _ : Loading Unit).run.run _) = _
  split_ifs <;> rfl

theorem loads_addSettings {settings : Settings} :
    Loads (addSettings settings) l l' ↔ ¬l.settings.isSome = true ∧
      l' = { l with settings := some settings } := by
  refine loads_guarded .settingsTwice { l with settings := some settings } ?_
  change ((if l.settings.isSome = true then _ else _ : Loading Unit).run.run _) = _
  split_ifs <;> rfl

/-- The beginnings of a file can be gathered if they are usable and no chapter begins twice. -/
theorem startsFrom_eq_ok {starts : List (Chapter × ChapterStart)} {entries : List ChapterEntry}
    (before : List (Chapter × ChapterStart)) (hbefore : (before.map Prod.fst).Nodup) :
    startsFrom before entries = .ok starts ↔
      (∀ e ∈ entries, e.Usable) ∧
      ((before ++ entries.map ChapterEntry.keyed).map Prod.fst).Nodup ∧
      starts = before ++ entries.map ChapterEntry.keyed := by
  induction entries generalizing before with
  | nil =>
    rw [startsFrom, List.map_nil, List.append_nil, Except.ok.injEq, eq_comm]
    exact ⟨fun h => ⟨fun e he => absurd he List.not_mem_nil, hbefore, h⟩, fun h => h.2.2⟩
  | cons e rest ih =>
    have hnodup : ((before ++ [e.keyed]).map Prod.fst).Nodup ↔
        e.chapter ∉ before.map Prod.fst := nodup_keys_concat hbefore
    have hstory : (!e.chapter.inStory) = true ↔
        ¬(1 ≤ e.chapter.val.toNat ∧ e.chapter.val.toNat ≤ 9) := by
      rw [Bool.not_eq_true', Bool.eq_false_iff, Chapter.inStory, ne_eq, Bool.and_eq_true,
        decide_eq_true_eq, decide_eq_true_eq]
    rw [startsFrom, List.forall_mem_cons]
    split_ifs with houtside hlate htaken
    · exact iff_of_false (fun h => by cases h) fun h => hstory.1 houtside h.1.1.inStory
    · exact iff_of_false (fun h => by cases h) fun h => absurd h.1.1.byDay (Nat.not_lt.2 hlate)
    · refine iff_of_false (fun h => by cases h) fun h => ?_
      exact hnodup.1 (nodup_keys_of_cons h.2.1) (lookup_isSome_iff_mem_keys.1 htaken)
    · have hfree := hnodup.2 fun h => htaken (lookup_isSome_iff_mem_keys.2 h)
      have husable : e.Usable :=
        ⟨Decidable.not_not.1 fun h => houtside (hstory.2 h), Nat.lt_of_not_le hlate⟩
      have hsplit : before ++ (e :: rest).map ChapterEntry.keyed =
          before ++ [e.keyed] ++ rest.map ChapterEntry.keyed := by
        rw [List.append_assoc]
        rfl
      rw [show (e.chapter, e.start) = e.keyed from rfl, ih _ hfree, and_iff_right husable, hsplit]

/-! ## Adding what texts define -/

/-- The step of loading adds what is defined to any library, if that is consistent with it. -/
def Adds (x : Loading Unit) (d' : Definitions) : Prop :=
  ∀ d : Definitions, d.Consistent → ∀ l', Loads x d.library l' ↔
    (d.append d').Consistent ∧ l' = (d.append d').library

theorem Adds.bind {x y : Loading Unit} {d d' : Definitions} (hx : Adds x d) (hy : Adds y d') :
    Adds (x >>= fun _ => y) (d.append d') := by
  intro base hbase l'
  rw [loads_bind, ← Definitions.append_assoc]
  constructor
  · rintro ⟨l₁, hfirst, hrest⟩
    obtain ⟨hd, rfl⟩ := (hx base hbase _).1 hfirst
    exact (hy _ hd l').1 hrest
  · rintro ⟨hd', hl'⟩
    have hd := hd'.of_append
    exact ⟨_, (hx base hbase _).2 ⟨hd, rfl⟩, (hy _ hd l').2 ⟨hd', hl'⟩⟩

theorem adds_addSnippets (snippets : List (Target × Snippet)) :
    Adds (addSnippets snippets) { snippets } := by
  intro d hd l'
  have hsum : d.append { snippets } = { d with snippets := d.snippets ++ snippets } := by
    simp [Definitions.append, NameTables.append_empty]
  rw [hsum, loads_addSnippets hd.targets]
  refine and_congr_left fun _ => ⟨fun h => ?_, fun h => h.targets⟩
  exact ⟨hd.usable, h, hd.chapters, hd.common, hd.settings⟩

/-- Beginnings that have been gathered are added if they are those of further chapters. -/
theorem adds_addStarts {entries : List ChapterEntry} {starts : List (Chapter × ChapterStart)}
    (h : startsFrom [] entries = .ok starts) : Adds (addStarts starts) { chapters := entries } := by
  intro d hd l'
  let sum : Definitions := { d with chapters := d.chapters ++ entries }
  have hsum : d.append { chapters := entries } = sum := by
    simp [sum, Definitions.append, NameTables.append_empty]
  obtain ⟨husable, -, hstarts⟩ := (startsFrom_eq_ok [] List.nodup_nil).1 h
  rw [List.nil_append] at hstarts
  have hentries : d.library.story.starts ++ starts = sum.chapters.map ChapterEntry.keyed := by
    rw [hstarts]
    exact List.map_append.symm
  have hkeys : (d.library.story.starts.map Prod.fst).Nodup := by
    rw [Definitions.library, ChapterEntry.map_keyed_fst]
    exact hd.chapters
  rw [hsum, loads_addStarts hkeys, hentries, ChapterEntry.map_keyed_fst]
  refine and_congr_left fun _ => ⟨fun h => ?_, fun h => h.chapters⟩
  exact ⟨List.forall_mem_append.2 ⟨hd.usable, husable⟩, hd.targets, h, hd.common, hd.settings⟩

/-- What opens every chapter is added if nothing does yet. -/
theorem adds_common (common : Option Target) :
    Adds (if let some t := common then addCommonSnippet t else pure ())
      { common := common.toList } := by
  intro d hd l'
  have hsum : d.append { common := common.toList } =
      { d with common := d.common ++ common.toList } := by
    simp [Definitions.append, NameTables.append_empty]
  rw [hsum]
  cases common with
  | none =>
    rw [loads_pure, Option.toList_none, List.append_nil]
    exact ⟨fun h => ⟨hd, h⟩, And.right⟩
  | some t =>
    rw [loads_addCommonSnippet, Definitions.library]
    rcases hcommon : d.common with _ | ⟨t', rest⟩
    · refine ⟨fun h => ⟨?_, h.2⟩, fun h => ⟨Bool.false_ne_true, h.2⟩⟩
      exact ⟨hd.usable, hd.targets, hd.chapters, Nat.le_refl 1, hd.settings⟩
    · refine iff_of_false (fun h => h.1 rfl) fun h => ?_
      have hlength := h.1.common
      rw [List.length_append, List.length_cons, Option.toList_some, List.length_singleton]
        at hlength
      omega

theorem adds_addChapters (f : ChapterFile) :
    Adds (addChapters f) { chapters := f.entries, common := f.commonSnippet.toList } := by
  obtain ⟨entries, common⟩ := f
  rw [addChapters]
  rcases hstarts : startsFrom [] entries with e | starts
  -- If a file cannot be used, then nothing it is added to is consistent.
  · intro d hd l'
    refine iff_of_false not_loads_throw fun h => ?_
    have hd' := h.1
    have husable : ∀ e ∈ entries, e.Usable := fun e he =>
      hd'.usable e (List.mem_append_right _ he)
    have hkeys : (([] ++ entries.map ChapterEntry.keyed).map Prod.fst).Nodup := by
      rw [List.nil_append, ChapterEntry.map_keyed_fst]
      exact hd'.chapters.sublist ((List.sublist_append_right _ _).map _)
    have hok := (startsFrom_eq_ok [] List.nodup_nil).2 ⟨husable, hkeys, rfl⟩
    rw [hstarts] at hok
    cases hok
  · have hsum : Definitions.append { chapters := entries } { common := common.toList } =
        { chapters := entries, common := common.toList } := by
      simp [Definitions.append, NameTables.append_empty]
    rw [← hsum]
    exact (adds_addStarts hstarts).bind (adds_common common)

theorem adds_addNames (names : NameTables) : Adds (addNames names) { names } := by
  intro d hd l'
  have hsum : d.append { names } = { d with names := d.names.append names } := by
    simp [Definitions.append]
  have hloads : Loads (addNames names) d.library l' ↔
      l' = { d.library with names := d.names.append names } :=
    ⟨fun h => (Prod.mk.inj h).2.symm, fun h => by rw [h]; rfl⟩
  rw [hsum, hloads]
  exact ⟨fun h => ⟨⟨hd.usable, hd.targets, hd.chapters, hd.common, hd.settings⟩, h⟩,
    And.right⟩

theorem adds_addSettings (settings : Settings) :
    Adds (addSettings settings) { settings := [settings] } := by
  intro d hd l'
  have hsum : d.append { settings := [settings] } =
      { d with settings := d.settings ++ [settings] } := by
    simp [Definitions.append, NameTables.append_empty]
  rw [hsum, loads_addSettings, Definitions.library]
  rcases hsettings : d.settings with _ | ⟨settings', rest⟩
  · refine ⟨fun h => ⟨?_, h.2⟩, fun h => ⟨Bool.false_ne_true, h.2⟩⟩
    exact ⟨hd.usable, hd.targets, hd.chapters, hd.common, Nat.le_refl 1⟩
  · refine iff_of_false (fun h => h.1 rfl) fun h => ?_
    have hlength := h.1.settings
    rw [List.length_append, List.length_cons, List.length_singleton] at hlength
    omega

/-! ## Texts -/

/-- A text is loaded if it can be read and what it defines is consistent with what is there. -/
theorem loads_expected_map {α : Type} {a : Option α} {f : α → Loading Unit} {g : α → Definitions}
    (h : ∀ v, Adds (f v) (g v)) {d : Definitions} (hd : d.Consistent) :
    Loads (expected a >>= f) d.library l' ↔ ∃ d', a.map g = some d' ∧
      (d.append d').Consistent ∧ l' = (d.append d').library := by
  rw [loads_expected]
  cases a with
  | none => exact iff_of_false (fun ⟨_, h, _⟩ => by cases h) fun ⟨_, h, _⟩ => by cases h
  | some v =>
    simp only [Option.map_some, Option.some.injEq, exists_eq_left']
    exact h v d hd l'

theorem loads_loadWith {d : Definitions} (hd : d.Consistent) (r : Reader) (x : Topic × String) :
    Loads (loadWith r x.1 x.2) d.library l' ↔ ∃ d', r.read? x = some d' ∧
      (d.append d').Consistent ∧ l' = (d.append d').library := by
  obtain ⟨topic, text⟩ := x
  cases topic with
  | snippets => exact loads_expected_map adds_addSnippets hd
  | chapters => exact loads_expected_map adds_addChapters hd
  | names => exact loads_expected_map adds_addNames hd
  | settings => exact loads_expected_map adds_addSettings hd

/-- Loads texts one after the other, up to the first that does not go through. -/
def loadEach (r : Reader) : List (Topic × String) → Loading Unit
  | [] => pure ()
  | x :: rest => do
    loadWith r x.1 x.2
    loadEach r rest

/-- What texts define together, as far as they can be read. -/
def Reader.definitions (r : Reader) (texts : List (Topic × String)) : Definitions :=
  .gather (texts.filterMap r.read?)

theorem Reader.definitions_cons {r : Reader} {x : Topic × String} {d : Definitions}
    (h : r.read? x = some d) (rest : List (Topic × String)) :
    r.definitions (x :: rest) = d.append (r.definitions rest) := by
  rw [definitions, List.filterMap_cons_some h]
  rfl

/-- Texts can be loaded if all of them can be read and what they add up to is consistent. -/
theorem loads_loadEach {d : Definitions} (hd : d.Consistent) (r : Reader)
    (texts : List (Topic × String)) :
    Loads (loadEach r texts) d.library l' ↔ (∀ x ∈ texts, (r.read? x).isSome = true) ∧
      (d.append (r.definitions texts)).Consistent ∧
      l' = (d.append (r.definitions texts)).library := by
  induction texts generalizing d with
  | nil =>
    rw [loadEach, loads_pure, Reader.definitions, List.filterMap_nil, Definitions.append_gather_nil]
    exact ⟨fun h => ⟨fun x hx => absurd hx List.not_mem_nil, hd, h⟩, fun h => h.2.2⟩
  | cons x rest ih =>
    rw [loadEach, loads_bind, List.forall_mem_cons]
    constructor
    · rintro ⟨l₁, hfirst, hrest⟩
      obtain ⟨d', hread, hd', rfl⟩ := (loads_loadWith hd r x).1 hfirst
      rw [Reader.definitions_cons hread, ← Definitions.append_assoc, hread]
      obtain ⟨hreads, hsum⟩ := (ih hd').1 hrest
      exact ⟨⟨rfl, hreads⟩, hsum⟩
    -- What all of the texts define is consistent, and so is what the first ones do.
    · rintro ⟨⟨hx, hreads⟩, hsum⟩
      obtain ⟨d', hread⟩ := Option.isSome_iff_exists.1 hx
      rw [Reader.definitions_cons hread, ← Definitions.append_assoc] at hsum
      have hd' := hsum.1.of_append
      exact ⟨_, (loads_loadWith hd r x).2 ⟨d', hread, hd', rfl⟩, (ih hd').2 ⟨hreads, hsum⟩⟩

end Library

/-! ## Orders -/

namespace Definitions

variable {d d' : Definitions}

/-- The same definitions in another order. -/
structure Rearranges (d' d : Definitions) : Prop where
  snippets : d'.snippets.Perm d.snippets
  chapters : d'.chapters.Perm d.chapters
  common : d'.common.Perm d.common
  settings : d'.settings.Perm d.settings

theorem rearranges_gather {ds ds' : List Definitions} (h : ds'.Perm ds) :
    (gather ds').Rearranges (gather ds) :=
  ⟨h.flatMap_right _, h.flatMap_right _, h.flatMap_right _, h.flatMap_right _⟩

theorem Consistent.rearranged (hd : d.Consistent) (h : d'.Rearranges d) : d'.Consistent where
  usable e he := hd.usable e (h.chapters.mem_iff.1 he)
  targets := (h.snippets.map _).nodup_iff.2 hd.targets
  chapters := (h.chapters.map _).nodup_iff.2 hd.chapters
  common := h.common.length_eq ▸ hd.common
  settings := h.settings.length_eq ▸ hd.settings

/-- Each target has the snippet that is defined for it. -/
theorem Consistent.find?_dialogs (hd : d.Consistent) (t : Target) (snippet : Snippet) :
    d.library.dialogs.find? t = some snippet ↔ (t, snippet) ∈ d.snippets :=
  lookup_eq_some_iff_mem hd.targets

/-- Each chapter has the beginning that is defined for it. -/
theorem Consistent.find?_story (hd : d.Consistent) (c : Chapter) (start : ChapterStart) :
    d.library.story.find? c = some start ↔ ∃ e ∈ d.chapters, e.chapter = c ∧ e.start = start := by
  have hkeys : ((d.chapters.map ChapterEntry.keyed).map Prod.fst).Nodup := by
    rw [ChapterEntry.map_keyed_fst]
    exact hd.chapters
  rw [Story.find?, library, lookup_eq_some_iff_mem hkeys, List.mem_map]
  refine exists_congr fun e => and_congr_right fun _ => ?_
  exact Prod.mk.injEq _ _ _ _ ▸ Iff.rfl

/-- What opens every chapter is the one snippet that is to do so. -/
theorem Consistent.commonSnippet (hd : d.Consistent) (t : Target) :
    d.library.story.commonSnippet = some t ↔ t ∈ d.common := by
  obtain hlength | hlength := Nat.le_one_iff_eq_zero_or_eq_one.1 hd.common
  · rw [library, List.eq_nil_of_length_eq_zero hlength]
    exact iff_of_false (fun h => by cases h) List.not_mem_nil
  · obtain ⟨t', ht'⟩ := List.length_eq_one_iff.1 hlength
    rw [library, ht', List.mem_singleton, List.head?_cons, Option.some.injEq, eq_comm]

/-- In whatever order things are defined, the same is found. -/
theorem Consistent.same_library (hd : d.Consistent) (h : d'.Rearranges d) :
    (∀ t, d'.library.dialogs.find? t = d.library.dialogs.find? t) ∧
    (∀ c, d'.library.story.find? c = d.library.story.find? c) ∧
    d'.library.story.commonSnippet = d.library.story.commonSnippet := by
  have hd' := hd.rearranged h
  refine ⟨fun t => Option.ext fun snippet => ?_, fun c => Option.ext fun start => ?_,
    Option.ext fun t => ?_⟩
  · rw [hd'.find?_dialogs, hd.find?_dialogs, h.snippets.mem_iff]
  · rw [hd'.find?_story, hd.find?_story]
    exact exists_congr fun e => and_congr_left fun _ => h.chapters.mem_iff
  · rw [hd'.commonSnippet, hd.commonSnippet, h.common.mem_iff]

end Definitions

namespace Library

/--
However texts are read, loading them one after the other goes through just if all of them can be
read and what they define together is consistent. Then each target has the snippet that a text
defines for it, each chapter the beginning, and what opens every chapter is the snippet that a text
names for that; and in any other order the same texts go through as well and the same is found.
-/
theorem loadEach_order (r : Reader) (texts : List (Topic × String)) :
    ((∃ l, Loads (loadEach r texts) .empty l) ↔
      (∀ x ∈ texts, (r.read? x).isSome = true) ∧ (r.definitions texts).Consistent) ∧
    ∀ l, Loads (loadEach r texts) .empty l →
      (∀ t snippet, l.dialogs.find? t = some snippet ↔
        (t, snippet) ∈ (r.definitions texts).snippets) ∧
      (∀ c start, l.story.find? c = some start ↔
        ∃ e ∈ (r.definitions texts).chapters, e.chapter = c ∧ e.start = start) ∧
      (∀ t, l.story.commonSnippet = some t ↔ t ∈ (r.definitions texts).common) ∧
      ∀ texts', texts'.Perm texts → ∃ l', Loads (loadEach r texts') .empty l' ∧
        (∀ t, l'.dialogs.find? t = l.dialogs.find? t) ∧
        (∀ c, l'.story.find? c = l.story.find? c) ∧
        l'.story.commonSnippet = l.story.commonSnippet := by
  have hloads : ∀ texts l, Loads (loadEach r texts) .empty l ↔
      (∀ x ∈ texts, (r.read? x).isSome = true) ∧ (r.definitions texts).Consistent ∧
        l = (r.definitions texts).library := fun texts l =>
    loads_loadEach Definitions.consistent_gather_nil r texts
  refine ⟨⟨fun ⟨l, hl⟩ => ?_, fun h => ⟨_, (hloads texts _).2 ⟨h.1, h.2, rfl⟩⟩⟩, fun l hl => ?_⟩
  · obtain ⟨hread, hd, -⟩ := (hloads texts l).1 hl
    exact ⟨hread, hd⟩
  · obtain ⟨hread, hd, rfl⟩ := (hloads texts l).1 hl
    refine ⟨hd.find?_dialogs, hd.find?_story, hd.commonSnippet, fun texts' hperm => ?_⟩
    have hrearranges : (r.definitions texts').Rearranges (r.definitions texts) :=
      Definitions.rearranges_gather (hperm.filterMap _)
    refine ⟨_, (hloads texts' _).2 ⟨fun x hx => hread x (hperm.mem_iff.1 hx),
      hd.rearranged hrearranges, rfl⟩, hd.same_library hrearranges⟩

/-- A text with the beginning of a chapter. -/
def announcement : Topic × String :=
  (.chapters, "(chapters: [(chapter: 4, zone: 1)], common_snippet: Some(17))")

/-- A text with the snippet that it names. -/
def tale : Topic × String := (.snippets, "(snippets: [(target: 17)])")

/-- The snippet may be loaded before or after the chapter that names it. -/
theorem loadEach_order_tale : ∃ l l', Loads (loadEach .script [announcement, tale]) .empty l ∧
    l.dialogs.find? ⟨17⟩ = some ⟨[], []⟩ ∧
    l.story.find? ⟨4⟩ = some ⟨⟨1⟩, .origin, .ofHours 0, none⟩ ∧
    Loads (loadEach .script [tale, announcement]) .empty l' ∧
    (∀ t, l'.dialogs.find? t = l.dialogs.find? t) ∧
    (∀ c, l'.story.find? c = l.story.find? c) ∧
    l'.story.commonSnippet = some ⟨17⟩ := by
  have hannouncement : Reader.script.read? announcement =
      some { chapters := [⟨⟨4⟩, ⟨1⟩, .origin, 0, none⟩], common := [⟨17⟩] } := by cbv
  have htale : Reader.script.read? tale = some { snippets := [(⟨17⟩, ⟨[], []⟩)] } := by cbv
  have hdefinitions : Reader.script.definitions [announcement, tale] =
      { snippets := [(⟨17⟩, ⟨[], []⟩)], chapters := [⟨⟨4⟩, ⟨1⟩, .origin, 0, none⟩],
        common := [⟨17⟩] } := by
    rw [Reader.definitions_cons hannouncement, Reader.definitions_cons htale]
    rfl
  have hread : ∀ x ∈ [announcement, tale], (Reader.script.read? x).isSome = true := by
    simp [hannouncement, htale]
  have hconsistent : (Reader.script.definitions [announcement, tale]).Consistent := by
    rw [hdefinitions]
    refine ⟨fun e he => ?_, by decide, by decide, by decide, by decide⟩
    obtain rfl := List.mem_singleton.1 he
    exact ⟨by decide, by decide⟩
  obtain ⟨hgoes, hfound⟩ := loadEach_order .script [announcement, tale]
  obtain ⟨l, hl⟩ := hgoes.2 ⟨hread, hconsistent⟩
  obtain ⟨hdialogs, hstory, hcommon, horder⟩ := hfound l hl
  obtain ⟨l', hl', hdialogs', hstory', hcommon'⟩ := horder [tale, announcement] (.swap ..)
  rw [hdefinitions] at hdialogs hstory hcommon
  exact ⟨l, l', hl, (hdialogs _ _).2 List.mem_cons_self,
    (hstory _ _).2 ⟨_, List.mem_cons_self, rfl, rfl⟩, hl', hdialogs', hstory',
    hcommon'.trans ((hcommon _).2 List.mem_cons_self)⟩

end Library

end QuestLogic
