import Mathlib.Tactic.SplitIfs
import QuestLogic.Script.Files

/-!
# What a library holds once it is loaded

Loading may stop halfway, and what it had loaded by then stays. However texts are read, a library
into which some have been loaded has no beginning but for chapters of the story
(`Library.Loaded.inStory`). A library is finished just if it is closed: every target that is named
in it is that of a snippet (`Library.finish_eq_ok`).
-/

namespace QuestLogic

/-! ## Steps of loading -/

namespace Loading

variable {α β : Type} {I : Library → Prop} {l : Library}

/-- What a step of loading leaves loaded, whether it goes through or not. -/
def after (x : Loading α) (l : Library) : Library := (x.run.run l).2

/-- What a step of loading leaves loaded has a property if what was loaded before it had. -/
def Keeps (I : Library → Prop) (x : Loading α) : Prop := ∀ l, I l → I (after x l)

/-- What follows a step of loading starts from what the step leaves, unless it stopped. -/
theorem run_bind (x : Loading α) (f : α → Loading β) (l : Library) :
    (x >>= f).run.run l = match x.run.run l with
      | (.ok a, l') => (f a).run.run l'
      | (.error e, l') => (.error e, l') := by
  change (ExceptT.bindCont f) _ _ = _
  unfold ExceptT.run StateT.run
  rcases x l with ⟨_ | a, l'⟩ <;> rfl

theorem after_bind (x : Loading α) (f : α → Loading β) (l : Library) :
    after (x >>= f) l = match x.run.run l with
      | (.ok a, l') => after (f a) l'
      | (.error _, l') => l' := by
  rw [after, run_bind]
  rcases x.run.run l with ⟨_ | a, l'⟩ <;> rfl

theorem keeps_pure (a : α) : Keeps I (pure a : Loading α) := fun _ h => h

theorem keeps_throw (e : LoadFault) : Keeps I (throw e : Loading α) := fun _ h => h

theorem Keeps.bind {x : Loading α} {f : α → Loading β} (hx : Keeps I x) (hf : ∀ a, Keeps I (f a)) :
    Keeps I (x >>= f) := by
  intro l hl
  have hfirst := hx l hl
  rw [after] at hfirst
  rw [after_bind]
  rcases hrun : x.run.run l with ⟨e | a, l'⟩
  · rw [hrun] at hfirst
    exact hfirst
  · rw [hrun] at hfirst
    exact hf a l' hfirst

end Loading

namespace Library

open Loading

variable {l l' : Library}

/-! ## Ways to read texts -/

/-- How the texts on each topic are read. -/
structure Reader where
  snippets : String → Option (List (Target × Snippet))
  chapters : String → Option ChapterFile
  names : String → Option NameTables
  settings : String → Option Settings

/-- The notation in which scripts are written. -/
def Reader.script : Reader where
  snippets text := (Script.Value.ofText? text).bind Snippet.fileOfValue?
  chapters text := (Script.Value.ofText? text).bind ChapterFile.ofValue?
  names text := (Script.Value.ofText? text).bind NameTables.ofValue?
  settings text := (Script.Value.ofText? text).bind Settings.ofValue?

/-- What a text has been found to say. -/
def expected {α : Type} : Option α → Loading α
  | some a => pure a
  | none => throw .malformed

/-- Loads a text on a topic as it is read. -/
def loadWith (r : Reader) (topic : Topic) (text : String) : Loading Unit :=
  match topic with
  | .snippets => expected (r.snippets text) >>= addSnippets
  | .chapters => expected (r.chapters text) >>= addChapters
  | .names => expected (r.names text) >>= addNames
  | .settings => expected (r.settings text) >>= addSettings

/-- Texts are read in the notation of scripts. -/
theorem loadText_eq (topic : Topic) (text : String) :
    loadText topic text = loadWith .script topic text := by
  have hparsed : ∀ {α : Type} (read : Script.Value → Option α),
      parsed read text = expected ((Script.Value.ofText? text).bind read) := by
    intro α read
    unfold parsed expected
    cases (Script.Value.ofText? text).bind read <;> rfl
  cases topic
  all_goals
    unfold loadText loadWith
    rw [hparsed]
    rfl

/-- The library is what any number of texts leave loaded, one after the other, whether they go
through or not. -/
inductive Loaded (r : Reader) : Library → Prop
  | empty : Loaded r .empty
  | load {l : Library} (h : Loaded r l) (topic : Topic) (text : String) :
    Loaded r (after (loadWith r topic text) l)

/-! ## Files and directories -/

/-- A file is one text, or none. -/
theorem keeps_loadFound (f : File) : Keeps (Loaded .script) (loadFound f) := by
  unfold loadFound
  split
  · exact keeps_throw _
  · split
    · intro l hl
      rw [loadText_eq]
      exact hl.load _ _
    · exact keeps_pure _

theorem keeps_loadFile (d : Directory) (path : String) :
    Keeps (Loaded .script) (loadFile d path) := by
  unfold loadFile
  split
  · exact keeps_loadFound _
  · exact keeps_throw _

theorem keeps_loadFiles (files : List File) : Keeps (Loaded .script) (loadFiles files) := by
  induction files with
  | nil => exact keeps_pure _
  | cons f rest ih => exact (keeps_loadFound f).bind fun _ => ih

/-- A directory is some texts one after the other, up to the first that does not go through. -/
theorem keeps_loadDirectory (d : Directory) (path : String) :
    Keeps (Loaded .script) (loadDirectory d path) := by
  unfold loadDirectory
  split
  · exact keeps_loadFiles _
  · exact keeps_throw _

/-! ## Beginnings -/

/-- There are beginnings for chapters of the story only. -/
def InStory (l : Library) : Prop := ∀ e ∈ l.story.starts, e.1.inStory = true

/-- The beginnings that a file defines are for chapters of the story. -/
theorem inStory_of_startsFrom {before starts : List (Chapter × ChapterStart)}
    {entries : List ChapterEntry} (h : startsFrom before entries = .ok starts)
    (hbefore : ∀ e ∈ before, e.1.inStory = true) : ∀ e ∈ starts, e.1.inStory = true := by
  induction entries generalizing before with
  | nil =>
    cases h
    exact hbefore
  | cons e rest ih =>
    unfold startsFrom at h
    split_ifs at h with hstory
    refine ih h fun e' he' => ?_
    rcases List.mem_append.1 he' with hold | hnew
    · exact hbefore e' hold
    · rw [List.mem_singleton.1 hnew]
      simpa using hstory

/-- To add a beginning for a chapter of the story keeps to the story. -/
theorem inStory_insert {story : Story} {c : Chapter} (hc : c.inStory = true) (start : ChapterStart)
    (hstory : ∀ e ∈ story.starts, e.1.inStory = true) :
    ∀ e ∈ (story.insert c start).starts, e.1.inStory = true := by
  intro e he
  unfold Story.insert at he
  split_ifs at he
  · obtain ⟨e', he', rfl⟩ := List.mem_map.1 he
    split_ifs
    · exact hc
    · exact hstory e' he'
  · rcases List.mem_append.1 he with hold | hnew
    · exact hstory e hold
    · rw [List.mem_singleton.1 hnew]
      exact hc

/-- A beginning is there even if adding it stops. -/
theorem after_addStart (c : Chapter) (start : ChapterStart) (l : Library) :
    after (addStart c start) l = { l with story := l.story.insert c start } := by
  rw [addStart]
  change after (if (l.story.find? c).isSome = true then _ else _) _ = _
  split_ifs <;> rfl

theorem keeps_addStarts {starts : List (Chapter × ChapterStart)}
    (h : ∀ e ∈ starts, e.1.inStory = true) : Keeps InStory (addStarts starts) := by
  induction starts with
  | nil => exact keeps_pure _
  | cons e rest ih =>
    obtain ⟨hc, hrest⟩ := List.forall_mem_cons.1 h
    have hadd : Keeps InStory (addStart e.1 e.2) := fun l hl => by
      rw [after_addStart]
      exact inStory_insert hc e.2 hl
    exact hadd.bind fun _ => ih hrest

/-- What leaves the beginnings alone keeps to the story. -/
theorem keeps_of_starts {α : Type} {x : Loading α}
    (h : ∀ l, (after x l).story.starts = l.story.starts) : Keeps InStory x := by
  intro l hl
  rw [InStory, h]
  exact hl

theorem keeps_addChapters (f : ChapterFile) : Keeps InStory (addChapters f) := by
  have hcommon : ∀ t, Keeps InStory (addCommonSnippet t) := fun t => keeps_of_starts fun l => by
    rw [addCommonSnippet]
    change (after (if l.story.commonSnippet.isSome = true then _ else _) _).story.starts = _
    split_ifs <;> rfl
  obtain ⟨entries, common⟩ := f
  rw [addChapters]
  rcases hstarts : startsFrom [] entries with e | starts
  -- Nothing of a file is added of which something cannot be used.
  · exact keeps_throw e
  · have hstory := inStory_of_startsFrom hstarts fun e he => absurd he List.not_mem_nil
    have hadd := keeps_addStarts hstory
    cases common with
    | none => exact hadd.bind fun _ => keeps_pure _
    | some t => exact hadd.bind fun _ => hcommon t

theorem keeps_addSnippets (snippets : List (Target × Snippet)) :
    Keeps InStory (addSnippets snippets) := by
  induction snippets with
  | nil => exact keeps_pure _
  | cons e rest ih =>
    have hadd : Keeps InStory (addSnippet e.1 e.2) := keeps_of_starts fun l => by
      rw [addSnippet]
      change (after (if l.dialogs.contains e.1 = true then _ else _) l).story.starts = _
      split_ifs <;> rfl
    exact hadd.bind fun _ => ih

theorem keeps_expected {α : Type} {I : Library → Prop} (a : Option α) : Keeps I (expected a) := by
  cases a with
  | none => exact keeps_throw _
  | some a => exact keeps_pure a

/-- However texts are read, what they leave loaded has beginnings for chapters of the story only. -/
theorem Loaded.inStory {r : Reader} (h : Loaded r l) : l.InStory := by
  induction h with
  | empty => exact fun e he => absurd he List.not_mem_nil
  | load h topic text ih =>
    cases topic with
    | snippets => exact (keeps_expected _).bind keeps_addSnippets _ ih
    | chapters => exact (keeps_expected _).bind keeps_addChapters _ ih
    | names =>
      exact (keeps_expected _).bind (fun names => keeps_of_starts fun l => rfl) _ ih
    | settings =>
      refine (keeps_expected _).bind (fun settings => keeps_of_starts fun l => ?_) _ ih
      rw [addSettings]
      change (after (if l.settings.isSome = true then _ else _) _).story.starts = _
      split_ifs <;> rfl

/-! ## Finishing -/

/-- Every target that is named in the library is that of a snippet. -/
structure Closed (l : Library) : Prop where
  /-- The branches of snippets lead to snippets. -/
  branches : ∀ e ∈ l.dialogs.entries, ∀ b ∈ e.2.branches, l.dialogs.contains b.target = true
  /-- So do the beginnings of chapters. -/
  starts : ∀ e ∈ l.story.starts, ∀ t, e.2.snippet = some t → l.dialogs.contains t = true
  /-- So does what opens every chapter. -/
  common : ∀ t, l.story.commonSnippet = some t → l.dialogs.contains t = true

theorem closed_iff : l.Closed ↔ ∀ r ∈ l.references, l.dialogs.contains r.1 = true := by
  unfold references
  constructor
  · rintro ⟨hbranches, hstarts, hcommon⟩ r hr
    rcases List.mem_append.1 hr with hr | hr
    · rcases List.mem_append.1 hr with hr | hr
      · obtain ⟨e, he, hr⟩ := List.mem_flatMap.1 hr
        obtain ⟨b, hb, rfl⟩ := List.mem_map.1 hr
        exact hbranches e he b hb
      · obtain ⟨e, he, hr⟩ := List.mem_filterMap.1 hr
        obtain ⟨t, ht, rfl⟩ := Option.map_eq_some_iff.1 hr
        exact hstarts e he t ht
    · obtain ⟨t, ht, rfl⟩ := Option.map_eq_some_iff.1 (Option.mem_toList.1 hr)
      exact hcommon t ht
  · intro h
    constructor
    · intro e he b hb
      refine h (b.target, .snippet e.1) (List.mem_append_left _ (List.mem_append_left _ ?_))
      exact List.mem_flatMap.2 ⟨e, he, List.mem_map_of_mem hb⟩
    · intro e he t ht
      refine h (t, .chapter e.1) (List.mem_append_left _ (List.mem_append_right _ ?_))
      exact List.mem_filterMap.2 ⟨e, he, congrArg (Option.map (·, Referrer.chapter e.1)) ht⟩
    · intro t ht
      refine h (t, .story) (List.mem_append_right _ (Option.mem_toList.2 ?_))
      rw [ht]
      rfl

/-- A library is finished just if it is closed, and is then what it was. -/
theorem finish_eq_ok : l.finish = .ok l' ↔ l' = l ∧ l.Closed := by
  rw [closed_iff, finish]
  constructor
  · intro h
    split at h
    · cases h
    · rename_i hnone
      cases h
      refine ⟨rfl, fun r hr => ?_⟩
      have hcontained := List.find?_eq_none.1 hnone r hr
      simpa using hcontained
  · rintro ⟨rfl, hcontained⟩
    rw [List.find?_eq_none.2 fun r hr => by simp [hcontained r hr]]

/-- A library that is not closed is refused with a target that is missing. -/
theorem finish_of_not_closed (h : ¬l.Closed) : ∃ t source,
    l.finish = .error (.missingSnippet t source) ∧ (t, source) ∈ l.references ∧
      l.dialogs.contains t = false := by
  rcases hfound : l.references.find? fun r => !l.dialogs.contains r.1 with _ | ⟨t, source⟩
  · have hfinish : l.finish = .ok l := by rw [finish, hfound]
    exact absurd (finish_eq_ok.1 hfinish).2 h
  · have hmissing := List.find?_some hfound
    rw [Bool.not_eq_true'] at hmissing
    refine ⟨t, source, ?_, List.mem_of_find?_eq_some hfound, hmissing⟩
    rw [finish, hfound]

end Library

end QuestLogic
