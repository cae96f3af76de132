import QuestLogic.Script.Chapter
import QuestLogic.Script.Dialog

/-!
# Libraries

A library is what scripts have been loaded into: dialogs, the story, names and settings. Everything
may be defined once; a script that defines something again stops there, and what it defined before
that stays. `Library.finish` checks that every target that is named somewhere is that of a snippet.
-/

namespace QuestLogic

/-- Everything that scripts define. -/
structure Library where
  dialogs : DialogStore
  story : Story
  names : NameTables
  settings : Option Settings
deriving DecidableEq

/-- Who names a target. -/
inductive Referrer where
  | snippet (t : Target)
  | chapter (c : Chapter)
  /-- The story, for the snippet that opens every chapter. -/
  | story
deriving DecidableEq, Inhabited

instance : ToString Referrer where
  toString
    | .snippet t => toString t
    | .chapter c => toString c
    | .story => "common chapter snippet"

/-- Why scripts cannot be loaded. -/
inductive LoadFault where
  /-- A file or a directory is not there, or holds something other than text. -/
  | unreadable
  /-- A text says nothing of the expected form. -/
  | malformed
  | outsideStory (c : Chapter)
  | lateStart (c : Chapter) (hour : UInt32)
  | snippetTwice (t : Target)
  | chapterTwice (c : Chapter)
  | commonSnippetTwice
  | settingsTwice
  | missingSnippet (t : Target) (source : Referrer)
deriving DecidableEq, Inhabited

namespace LoadFault

/-- The text of a fault. -/
def message : LoadFault → String
  | unreadable => "IO error:"
  | malformed => "RON parse error:"
  | outsideStory c => s!"Invalid schema: {c} outside 1..=9"
  | lateStart c hour => s!"Invalid schema: {c} starts at hour {hour}"
  | snippetTwice t => s!"Duplicate definition: snippet {t}"
  | chapterTwice c => s!"Duplicate definition: {c}"
  | commonSnippetTwice => "Duplicate definition: common chapter snippet"
  | settingsTwice => "Duplicate definition: config"
  | missingSnippet t source => s!"Missing required field: {t} referenced by {source}"

end LoadFault

/-- A step that loads something into a library, and leaves what it had loaded when it fails. -/
abbrev Loading (α : Type) := ExceptT LoadFault (StateM Library) α

namespace Library

/-- A library without definitions. -/
def empty : Library := ⟨.empty, .empty, .empty, none⟩

instance : Inhabited Library := ⟨empty⟩

/-- Adds a snippet under a target that is free. -/
def addSnippet (t : Target) (s : Snippet) : Loading Unit := do
  let l ← get
  if l.dialogs.contains t then throw (.snippetTwice t)
  set { l with dialogs := l.dialogs.insert t s }

/-- Adds snippets in order. -/
def addSnippets : List (Target × Snippet) → Loading Unit
  | [] => pure ()
  | (t, s) :: rest => do
    addSnippet t s
    addSnippets rest

/-- Hours in a day. -/
def hoursPerDay : Nat := 24

/-- The beginnings that a file defines, after those that were looked at before. -/
def startsFrom (before : List (Chapter × ChapterStart)) :
    List ChapterEntry → Except LoadFault (List (Chapter × ChapterStart))
  | [] => .ok before
  | e :: rest =>
    if !e.chapter.inStory then .error (.outsideStory e.chapter)
    else if hoursPerDay ≤ e.startHour.toNat then .error (.lateStart e.chapter e.startHour)
    else if (before.lookup e.chapter).isSome then .error (.chapterTwice e.chapter)
    else startsFrom (before ++ [(e.chapter, e.start)]) rest

/-- Adds a beginning; one that was there gives way before the fault. -/
def addStart (c : Chapter) (start : ChapterStart) : Loading Unit := do
  let l ← get
  set { l with story := l.story.insert c start }
  if (l.story.find? c).isSome then throw (.chapterTwice c)

/-- Adds beginnings in order. -/
def addStarts : List (Chapter × ChapterStart) → Loading Unit
  | [] => pure ()
  | (c, start) :: rest => do
    addStart c start
    addStarts rest

/-- Names the snippet that opens every chapter; one that was named gives way before the fault. -/
def addCommonSnippet (t : Target) : Loading Unit := do
  let l ← get
  set { l with story.commonSnippet := some t }
  if l.story.commonSnippet.isSome then throw .commonSnippetTwice

/-- Adds the beginnings of a file, if all of them can be used. -/
def addChapters (f : ChapterFile) : Loading Unit := do
  let starts ← (startsFrom [] f.entries : Except LoadFault _)
  addStarts starts
  if let some t := f.commonSnippet then addCommonSnippet t

/-- Adds names after those that are there. -/
def addNames (names : NameTables) : Loading Unit :=
  modify fun l => { l with names := l.names.append names }

/-- Adds settings; those that were there give way before the fault. -/
def addSettings (settings : Settings) : Loading Unit := do
  let l ← get
  set { l with settings := some settings }
  if l.settings.isSome then throw .settingsTwice

/-- What a script can be about. -/
inductive Topic where
  | snippets | chapters | names | settings
deriving DecidableEq, Inhabited

/-- What a text says in the form that is expected of it. -/
def parsed {α : Type} (read : Script.Value → Option α) (text : String) : Loading α :=
  match (Script.Value.ofText? text).bind read with
  | some a => pure a
  | none => throw .malformed

/-- Loads a text on a topic. -/
def loadText (topic : Topic) (text : String) : Loading Unit :=
  match topic with
  | .snippets => do
    let snippets ← parsed Snippet.fileOfValue? text
    addSnippets snippets
  | .chapters => do
    let file ← parsed ChapterFile.ofValue? text
    addChapters file
  | .names => do
    let names ← parsed NameTables.ofValue? text
    addNames names
  | .settings => do
    let settings ← parsed Settings.ofValue? text
    addSettings settings

/-- Every target that is named, with who names it. -/
def references (l : Library) : List (Target × Referrer) :=
  (l.dialogs.entries.flatMap fun (t, s) => s.branches.map fun b => (b.target, .snippet t)) ++
    (l.story.starts.filterMap fun (c, start) => start.snippet.map (·, .chapter c)) ++
    (l.story.commonSnippet.map (·, Referrer.story)).toList

/-- The library, if every target that is named is that of a snippet. -/
def finish (l : Library) : Except LoadFault Library :=
  match l.references.find? fun (t, _) => !l.dialogs.contains t with
  | some (t, source) => .error (.missingSnippet t source)
  | none => .ok l

end Library

end QuestLogic
