import QuestLogic.Fault
import QuestLogic.Time

/-!
# Chapter starts

Where and when each chapter of the story begins.
-/

namespace QuestLogic

/-- A place on the world map. -/
structure Position where
  x : UInt32
  y : UInt32
deriving DecidableEq, Inhabited

/-- How a chapter begins. -/
structure ChapterStart where
  zone : Zone
  position : Position
  /-- The time after midnight. -/
  timeElapsed : Time
  /-- The first snippet of the chapter. -/
  snippet : Option Target
deriving DecidableEq, Inhabited

/-- The beginnings of the chapters, in the order they were added. -/
structure Story where
  starts : List (Chapter × ChapterStart)
  /-- The snippet whose actions open every chapter. -/
  commonSnippet : Option Target
deriving DecidableEq, Inhabited

namespace Story

/-- A story that is not told. -/
def empty : Story := ⟨[], none⟩

/-- How a chapter begins, if it has been told. -/
def find? (s : Story) (c : Chapter) : Option ChapterStart := s.starts.lookup c

/-- How a chapter begins. -/
def start (s : Story) (c : Chapter) : Except Fault ChapterStart :=
  match s.find? c with
  | some start => .ok start
  | none => .error (.noStart c)

/-- The story with a beginning for a chapter, in the place of one that it had. -/
def insert (s : Story) (c : Chapter) (start : ChapterStart) : Story :=
  if (s.find? c).isSome then
    { s with starts := s.starts.map fun e => if e.1 = c then (c, start) else e }
  else { s with starts := s.starts ++ [(c, start)] }

end Story

end QuestLogic
