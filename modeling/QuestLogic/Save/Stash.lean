import QuestLogic.Save.Image
import QuestLogic.Save.Layout

/-!
# Purses set aside

A save image keeps the purse with which each chapter began.
-/

namespace QuestLogic.Image

/-- Where the purse of a chapter stands; only chapters of the story have one. -/
def stashOffset (c : Chapter) : Except Fault Nat :=
  if c.inStory then .ok (Layout.stash + (c.val.toNat - 1) * 4) else .error (.noStash c)

/-- The purse set aside at a chapter. -/
def stashed (m : Image) (c : Chapter) : Except Fault Royals := do
  return ⟨← m.readU32 (← stashOffset c)⟩

/-- Sets a purse aside at a chapter. -/
def setStash (c : Chapter) (gold : Royals) : Step Image Unit :=
  match stashOffset c with
  | .ok offset => writeU32 offset gold.val
  | .error e => throw e

end QuestLogic.Image
