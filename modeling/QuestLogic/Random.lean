/-!
# Random numbers

Rolls are drawn from a source: a generator that shifts and xors a 64-bit state, so that a seed fixes
every roll, a written script, or one of another kind that the game is given. Dice hold a source and
remember what they rolled.
-/

namespace QuestLogic

/-- Where random numbers come from. -/
inductive RandomSource where
  /-- A generator in the given state. -/
  | shifting (state : UInt64)
  /-- Numbers handed out in order from position `next`, starting over at the end. -/
  | scripted (values : List UInt32) (next : Nat)
  /-- A source of another kind: what it answers to the last of some requests in a row, each for a
  number between two bounds. -/
  | other (answer : List (UInt32 × UInt32) → UInt32)
deriving Inhabited

namespace RandomSource

/-- A generator never leaves the state zero, so the seed zero stands for one. -/
def ofSeed (seed : UInt64) : RandomSource := .shifting (if seed = 0 then 1 else seed)

/-- One round of the generator. -/
def shift (x : UInt64) : UInt64 :=
  let x := x ^^^ (x <<< 13)
  let x := x ^^^ (x >>> 7)
  x ^^^ (x <<< 17)

/--
A number from `lo` to `hi`, both included. A generator asked for a single number leaves its state
alone; a script moves on whatever is asked, and its numbers are moved into the range. A source of
another kind is trusted to keep to the range.
-/
def draw (lo hi : UInt32) : RandomSource → UInt32 × RandomSource
  | .shifting state =>
    if hi ≤ lo then (lo, .shifting state)
    else
      let state := shift state
      let span := (hi - lo).toUInt64 + 1
      (lo + (state % span).toUInt32, .shifting state)
  | .scripted values next =>
    match values[next]? with
    | none => (lo, .scripted values next)
    | some v => (max lo (min v (max lo hi)), .scripted values ((next + 1) % values.length))
  | .other answer => (answer [(lo, hi)], .other fun later => answer ((lo, hi) :: later))

end RandomSource

/-- A roll: the range that was asked for and the number that came. -/
structure Roll where
  lo : UInt32
  hi : UInt32
  result : UInt32
deriving DecidableEq, Inhabited

/-- A source of numbers with the rolls made so far, the latest first. -/
structure Dice where
  source : RandomSource
  rolls : List Roll
deriving Inhabited

namespace Dice

/-- Dice that have not been rolled. -/
def fresh (source : RandomSource) : Dice := ⟨source, []⟩

/-- Rolls a number from `lo` to `hi`. -/
def roll (d : Dice) (lo hi : UInt32) : UInt32 × Dice :=
  let (n, source) := d.source.draw lo hi
  (n, ⟨source, ⟨lo, hi, n⟩ :: d.rolls⟩)

end Dice

end QuestLogic
