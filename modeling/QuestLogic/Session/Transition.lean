import QuestLogic.Dialog.Snippet
import QuestLogic.Session.Action
import QuestLogic.Session.Choice
import QuestLogic.Story.Start

/-!
# Chains and chapters

A chain of snippets carries out the actions of one snippet after another, each time moving on along
the last branch that holds. A chapter begins on the morning after the present day: timed effects run
out, what is met once in a chapter may be met again, the purse is set aside or brought back, the
party recovers, and then a chain tells how the chapter opens.
-/

namespace QuestLogic.Session

/-- The most snippets with branches that a chain passes through. -/
def maxChain : Nat := 64

/-- The target of the last branch that holds; all of them are tested. -/
def lastHolding (s : Session) : List Branch → Except Fault (Option Target)
  | [] => .ok none
  | b :: rest => do
    let holds ← s.holds b.choice
    let later ← s.lastHolding rest
    return later.or (if holds then some b.target else none)

/-- The rest of a chain that began at `first` and may pass through so many snippets. -/
def chainFrom (d : DialogStore) (first : Target) : Nat → Target → Step Session Unit
  | 0, _ => throw (.endlessChain first)
  | left + 1, current => do
    let snippet ← Step.view fun _ => d.get current
    performAll snippet.actions
    match ← Step.view (·.lastHolding snippet.branches) with
    | none => pure ()
    | some next =>
      let following ← Step.view fun _ => d.get next
      if following.branches.isEmpty then
        if next = current then pure () else performAll following.actions
      else chainFrom d first left next

/--
A chain of snippets. It ends where no branch holds, or with the actions of a snippet that has no
branches.
-/
def chain (d : DialogStore) (first : Target) : Step Session Unit := chainFrom d first maxChain first

/-- The morning on which a chapter begins: the next midnight, and the time that the chapter adds. -/
def morning (now timeElapsed : Time) : Time :=
  let next := now + .oneDay
  next - .ofNat (next.toNat % Time.perDay) + timeElapsed

/-- How often a new chapter takes time from timed effects. -/
def expiryRounds : Nat := 80

/-- How much time it takes each time. -/
def expirySpan : Time := ⟨0x7530⟩

/-- Takes time from timed effects so many times. -/
def expire : Nat → Step Session Unit
  | 0 => pure ()
  | n + 1 => do
    reduceLedger expirySpan
    expire n

/-- Replaces the purse. -/
def setGold (gold : Royals) : Step Session Unit := modify fun s => { s with party.gold := gold }

/-- The flag that chapter 3 clears. -/
def chapter3Flag : EventPtr := 0x1fbc

/-- The flag that chapter 7 sets. -/
def chapter7Flag : EventPtr := 0x1ab1

/-- What happens to the purse, and to single flags, when a chapter begins. -/
def settlePurse (c : Chapter) : Step Session Unit := do
  if c.val = 3 then setEvent chapter3Flag false
  else if c.val = 4 then setGold .none
  else if 5 ≤ c.val && c.val ≤ 8 then
    let gold ← Step.view fun s => s.readSave .none (·.stashed ⟨c.val - 1⟩)
    setGold gold
    if c.val = 7 then setEvent chapter7Flag true else pure ()
  else pure ()

/-- Every improvement of these characters counts as seen, in the save image as well. -/
def clearUnseen : List CharId → Step Session Unit
  | [] => pure ()
  | id :: rest => do
    changeMember id fun c => { c with skills := c.skills.clearUnseen }
    onSave (Image.clearUnseen id)
    clearUnseen rest

/-- Carries out the actions of a snippet, if one is named. -/
def performSnippet (d : DialogStore) : Option Target → Step Session Unit
  | some t => do
    let snippet ← Step.view fun _ => d.get t
    performAll snippet.actions
  | none => pure ()

/-- Begins a chapter, and says where the party now stands. -/
def transition (c : Chapter) (story : Story) (d : DialogStore) : Step Session ChapterStart := do
  let start ← Step.view fun _ => story.start c
  setChapter c
  modify fun s => { s with zone := start.zone }
  modify fun s => { s with clock := s.clock.jump (morning s.clock.now start.timeElapsed) }
  expire expiryRounds
  onSave Image.clearUnique
  if c ≠ .first then
    let s ← get
    onSave (Image.setStash c s.party.gold)
  settlePurse c
  modify (·.mapActive Character.restore)
  clearUnseen ((← get).party.roster.map (·.id))
  performSnippet d story.commonSnippet
  if let some first := start.snippet then chain d first
  return start

end QuestLogic.Session
