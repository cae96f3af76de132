/-!
# The layout of a save image

Where each part of a saved game stands.
-/

namespace QuestLogic.Layout

/-- The current chapter, two bytes. -/
def chapter : Nat := 0x5a

/-- The purse in royals, four bytes. -/
def gold : Nat := 0x66

/-- The present, four bytes. -/
def time : Nat := 0x6a

/-- When the party last slept, four bytes. -/
def lastSlept : Nat := 0x6e

/-- The current zone, one byte. -/
def zone : Nat := 0x76

/-- The number of timed effects in two bytes, then eight bytes for each. -/
def effects : Nat := 0x618

/-- The length of a timed effect. -/
def effectLength : Nat := 8

/-- The purses set aside at the start of each chapter, four bytes for each of nine. -/
def stash : Nat := 0x6ba

/-- The flags with a bit each. -/
def simpleEvents : Nat := 0x6e2

/-- The flags that share a byte ten by ten. -/
def complexEvents : Nat := 0xb09

/-- The first byte past every flag. -/
def size : Nat := 0x2240

end QuestLogic.Layout
