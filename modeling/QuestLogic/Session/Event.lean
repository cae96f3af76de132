import QuestLogic.Dialog.Choice
import QuestLogic.Event.Mark
import QuestLogic.Save.Stash
import QuestLogic.Session.Basic

/-!
# Flags of a session

Without a save image every flag reads as clear and writes are lost; only temples count as seen. The
number of the chapter gauge, read as a flag, is the current chapter.
-/

namespace QuestLogic.Session

/-- The number that reads as the current chapter. -/
def chapterPointer : EventPtr := Gauge.chapter.code

/-- The value at a pointer. -/
def eventState (s : Session) (p : EventPtr) : Except Fault UInt8 :=
  if p = chapterPointer then .ok s.chapter.val else s.readSave 0 (·.readEvent p)

/-- Whether the flag at a pointer is set. -/
def eventFlag (s : Session) (p : EventPtr) : Except Fault Bool :=
  if p = chapterPointer then .ok (getBit s.chapter.val 0) else s.readSave false (·.readFlag p)

/-- Sets or clears the flag at a pointer. -/
def setEvent (p : EventPtr) (on : Bool) : Step Session Unit := onSave (Image.setFlag p on)

/-- Whether a mark is set. -/
def marked (s : Session) (k : Mark) : Except Fault Bool :=
  s.readSave (k matches .templeSeen _) (·.marked k)

/-- Sets or clears a mark. -/
def setMark (k : Mark) (on : Bool) : Step Session Unit := onSave (Image.setMark k on)

/-- Whether the party has seen more than one temple. -/
def manyTemplesSeen (s : Session) : Except Fault Bool := s.readSave false (·.manyTemplesSeen)

end QuestLogic.Session
