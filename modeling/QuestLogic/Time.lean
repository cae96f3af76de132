import QuestLogic.Word

/-!
# Game time

Time is counted in ticks of two seconds. Instants and spans share one type; sums stop at the largest
count and differences at zero.
-/

namespace QuestLogic

/-- An instant or a span, in ticks. -/
structure Time where
  ticks : UInt32
deriving DecidableEq, Inhabited

namespace Time

/-- The number of ticks. -/
def toNat (t : Time) : Nat := t.ticks.toNat

/-- The span of `n` ticks, or the longest there is. -/
def ofNat (n : Nat) : Time := ⟨nearest32 n⟩

/-- Ticks to the hour. -/
def perHour : Nat := 1800

/-- Ticks to the day. -/
def perDay : Nat := 43200

/-- No time at all. -/
def zero : Time := ⟨0⟩

/-- A span of whole hours. -/
def ofHours (n : Nat) : Time := ofNat (n * perHour)

/-- One hour. -/
def oneHour : Time := ⟨1800⟩

/-- One day. -/
def oneDay : Time := ⟨43200⟩

def seconds (t : Time) : Nat := t.toNat * 2
def minutes (t : Time) : Nat := t.seconds / 60
def hours (t : Time) : Nat := t.toNat / perHour
def days (t : Time) : Nat := t.toNat / perDay
def hourOfDay (t : Time) : Nat := t.hours % 24
def minuteOfHour (t : Time) : Nat := t.minutes % 60

/-- Whether no time is left. -/
def isZero (t : Time) : Bool := t.toNat = 0

instance : Add Time := ⟨fun a b => ofNat (a.toNat + b.toNat)⟩
instance : Sub Time := ⟨fun a b => ofNat (a.toNat - b.toNat)⟩

/-- What is left of a span after taking away another as often as it fits; nothing fits never. -/
def rem? (a b : Time) : Option Time := if b.isZero then none else some (ofNat (a.toNat % b.toNat))

/-- A number below sixty in two digits. -/
private def twoDigits (n : Nat) : String := if n < 10 then s!"0{n}" else s!"{n}"

/-- Days are counted from zero; the hour and the minute have two digits. -/
instance : ToString Time where
  toString t := s!"day {t.days} {twoDigits t.hourOfDay}:{twoDigits t.minuteOfHour}"

@[simp] theorem toNat_ofNat (n : Nat) : (ofNat n).toNat = min n 4294967295 := toNat_nearest32 n

/-- A sum of spans stops at the longest. -/
@[simp] theorem toNat_add (a b : Time) : (a + b).toNat = min (a.toNat + b.toNat) 4294967295 :=
  toNat_ofNat _

/-- A difference of spans stops at zero. -/
@[simp] theorem toNat_sub (a b : Time) : (a - b).toNat = a.toNat - b.toNat := by
  have h : a.toNat < 2 ^ 32 := a.ticks.toNat_lt
  change (ofNat _).toNat = _
  rw [toNat_ofNat]
  omega

end Time

end QuestLogic
