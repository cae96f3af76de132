import QuestLogic.Script.Field
import QuestLogic.Settings
import QuestLogic.Story.Start

/-!
# Chapters, names and settings in scripts

How the beginnings of chapters, the tables of names and the settings of a game are written.
-/

namespace QuestLogic

open Script Script.FieldReader

/-- The beginning of a chapter as an author writes it. -/
structure ChapterEntry where
  chapter : Chapter
  zone : Zone
  position : Position
  /-- The hour after midnight. -/
  startHour : UInt32
  snippet : Option Target
deriving DecidableEq, Inhabited

/-- The beginnings of chapters in one file. -/
structure ChapterFile where
  entries : List ChapterEntry
  commonSnippet : Option Target
deriving DecidableEq, Inhabited

namespace Position

/-- The map's corner. -/
def origin : Position := ⟨0, 0⟩

/-- The position that a record describes. -/
def ofValue? : Value → Option Position :=
  Value.record? "Position" Nesting.position do
    return ⟨← required "x" Value.u32?, ← required "y" Value.u32?⟩

end Position

/-- The target that a value names, if it names one. -/
def Target.optionOfValue? (v : Value) : Option (Option Target) :=
  v.option? fun v => v.u32?.map Target.mk

namespace ChapterEntry

/-- The beginning of a chapter that a record describes. -/
def ofValue? : Value → Option ChapterEntry :=
  Value.record? "ChapterDef" Nesting.entry do
    return ⟨⟨← required "chapter" Value.u8?⟩, ⟨← required "zone" Value.u8?⟩,
      ← optional "position" .origin Position.ofValue?, ← optional "start_hour" 0 Value.u32?,
      ← optional "snippet" none Target.optionOfValue?⟩

/-- How the chapter begins. -/
def start (e : ChapterEntry) : ChapterStart :=
  ⟨e.zone, e.position, .ofHours e.startHour.toNat, e.snippet⟩

end ChapterEntry

namespace ChapterFile

/-- The beginnings of chapters that a record describes. -/
def ofValue? : Value → Option ChapterFile :=
  Value.record? "ChapterFile" Nesting.file do
    return ⟨← required "chapters" (Value.list? ChapterEntry.ofValue?),
      ← optional "common_snippet" none Target.optionOfValue?⟩

end ChapterFile

namespace NameTables

/-- The tables of names that a record describes. -/
def ofValue? : Value → Option NameTables :=
  Value.record? "ContentTables" Nesting.file do
    return ⟨← optional "monster_names" [] (Value.list? Value.string?),
      ← optional "spell_names" [] (Value.list? Value.string?)⟩

end NameTables

namespace Settings

/-- The settings that a record describes; what it leaves out is as usual. -/
def ofValue? : Value → Option Settings :=
  let gold : Value → Option Royals := fun v => v.u32?.map Royals.mk
  let chapter : Value → Option Chapter := fun v => v.u8?.map Chapter.mk
  let capacity : Value → Option Nat := fun v => v.u64?.map UInt64.toNat
  Value.record? "GameConfig" Nesting.file do
    return ⟨← optional "rng_seed" usual.seed Value.u64?,
      ← optional "default_chapter" usual.chapter chapter,
      ← optional "default_gold" usual.gold gold,
      ← optional "ledger_capacity" usual.ledgerCapacity capacity⟩

end Settings

end QuestLogic
