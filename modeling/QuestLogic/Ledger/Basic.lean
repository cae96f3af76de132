import QuestLogic.Identity
import QuestLogic.Time

/-!
# The ledger of timed effects

Effects that run out are kept in the order they began: burning lights, spells, and flags to be set
or reset later. Adding one merges it with a running effect of the same kind and subject, unless it
asks to stand apart. The ledger never grows past its capacity.
-/

namespace QuestLogic

/-- What a timed effect does. -/
inductive EffectKind where
  | nothing | light | spell | setState | resetState
deriving DecidableEq, Inhabited

namespace EffectKind

/-- The kinds in the order of their codes. -/
def all : List EffectKind := [nothing, light, spell, setState, resetState]

/-- The number by which a save image knows a kind. -/
def code : EffectKind → UInt8
  | nothing => 0 | light => 1 | spell => 2 | setState => 3 | resetState => 4

/-- The kind with the given code. -/
def ofCode? (n : UInt8) : Option EffectKind := all.find? (·.code = n)

def name : EffectKind → String
  | nothing => "None" | light => "Light" | spell => "Spell" | setState => "SetState"
  | resetState => "ResetState"

/-- The kind with the given name. -/
def ofName? (s : String) : Option EffectKind := all.find? (·.name = s)

end EffectKind

/-- A timed effect. -/
structure Effect where
  kind : EffectKind
  /-- How the effect was added. -/
  flags : UInt8
  /-- The light, the spell or the flag that the effect is about. -/
  subject : UInt16
  /-- The time left. -/
  duration : Time
deriving DecidableEq, Inhabited

namespace Effect

/-- Asks that a running effect be extended. -/
def extend : UInt8 := 0x80

/-- Asks that the effect stand apart from a running one. -/
def apart : UInt8 := 0x40

/-- Whether an effect that is added joins a running one; to extend wins over to stand apart. -/
def merges (flags : UInt8) : Bool := flags &&& extend ≠ 0 || flags &&& apart = 0

/-- Whether two effects are of one kind and subject. -/
def isAbout (e : Effect) (kind : EffectKind) (subject : UInt16) : Bool :=
  e.kind = kind && e.subject = subject

/-- The effect with less time left. -/
def decay (e : Effect) (span : Time) : Effect := { e with duration := e.duration - span }

end Effect

/-- Timed effects in the order they began, and how many there may be. -/
structure Ledger where
  entries : List Effect
  capacity : Nat
deriving DecidableEq

namespace Ledger

/-- The most effects that a save image has room for. -/
def maxCapacity : Nat := 20

/-- A ledger without effects. -/
def empty (capacity : Nat) : Ledger := ⟨[], min capacity maxCapacity⟩

instance : Inhabited Ledger := ⟨empty maxCapacity⟩

/-- Gives the first entry of a kind and subject a new duration, extended or replaced. -/
def renew (kind : EffectKind) (subject : UInt16) (flags : UInt8) (duration : Time) :
    List Effect → List Effect
  | [] => []
  | e :: rest =>
    if e.isAbout kind subject then
      let renewed := if flags &&& Effect.extend ≠ 0 then e.duration + duration else duration
      { e with duration := renewed } :: rest
    else e :: renew kind subject flags duration rest

/-- The first entry of a kind and subject. -/
def find? (l : Ledger) (kind : EffectKind) (subject : UInt16) : Option Effect :=
  l.entries.find? (·.isAbout kind subject)

/-- The ledger with one more effect, merged or at the end; nothing when it is full. -/
def add? (l : Ledger) (kind : EffectKind) (subject : UInt16) (flags : UInt8) (duration : Time) :
    Option Ledger :=
  if Effect.merges flags && (l.find? kind subject).isSome then
    some { l with entries := renew kind subject flags duration l.entries }
  else if l.entries.length < l.capacity then
    some { l with entries := l.entries ++ [⟨kind, flags, subject, duration⟩] }
  else none

/-- A light that burns, or burns longer. -/
def addLight? (l : Ledger) (light : UInt16) (duration : Time) : Option Ledger :=
  l.add? .light light Effect.extend duration

/-- A spell that lasts, or lasts longer. -/
def addSpell? (l : Ledger) (spell : UInt16) (duration : Time) : Option Ledger :=
  l.add? .spell spell Effect.extend duration

/-- Changes the entry at a position. -/
def modifyAt (l : Ledger) (index : Nat) (f : Effect → Effect) : Ledger :=
  { l with entries := l.entries.modify index f }

/-- Drops the entries whose time has run out. -/
def removeExpired (l : Ledger) : Ledger :=
  { l with entries := l.entries.filter fun e => !e.duration.isZero }

/-- Drops the entries of a kind. -/
def removeKind (l : Ledger) (kind : EffectKind) : Ledger :=
  { l with entries := l.entries.filter fun e => e.kind ≠ kind }

/-- Whether an effect of a kind has time left. -/
def hasActive (l : Ledger) (kind : EffectKind) : Bool :=
  l.entries.any fun e => e.kind = kind && !e.duration.isZero

end Ledger

end QuestLogic
