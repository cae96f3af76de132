import QuestLogic.Script.Files
import QuestLogic.Session.Transition

/-!
# The dialog runner

A command that loads a directory of scripts, starts a game on a blank save image in a chapter, runs
a chain of snippets and reports where that leaves the party. Reading the arguments and making the
report are functions; only the files have to be fetched in between.
-/

namespace QuestLogic.Runner

/-- What the runner is asked to do. -/
structure Request where
  directory : String
  target : Target
  chapter : Chapter
deriving DecidableEq, Inhabited

/-- What the runner has to say. -/
structure Report where
  succeeded : Bool
  output : List String
  errors : List String
deriving DecidableEq, Inhabited

/-- The number that a text writes in a base, up to `top`; a plus sign may come first. -/
def number? (base top : Nat) (text : List Char) : Option Nat := do
  let digits := if text.head? = some '+' then text.drop 1 else text
  if digits.isEmpty then none
  let n ← digits.foldlM (Script.Token.addDigit? base) 0
  if n ≤ top then some n else none

/-- The target that a text names, in base ten or, after `0x`, in base sixteen. -/
def target? (text : String) : Option Target :=
  let n := match text.toList with
    | '0' :: 'x' :: digits => number? 16 0xffffffff digits
    | digits => number? 10 0xffffffff digits
  n.map fun n => ⟨UInt32.ofNat n⟩

/-- The chapter of the story that a text names. -/
def chapter? (text : String) : Option Chapter :=
  ((number? 10 0xff text.toList).map fun n => Chapter.mk (UInt8.ofNat n)).filter (·.inStory)

/-- The chapter that the arguments name, or the usual one. -/
def chapterOf? : List String → Option Chapter
  | text :: _ => chapter? text
  | [] => some Settings.usual.chapter

/-- The request that arguments make, or what is wrong with them. -/
def Request.ofArguments : List String → Except String Request
  | directory :: target :: rest =>
    match target? target with
    | none => .error s!"bad target: {target}"
    | some t =>
      match chapterOf? rest with
      | none => .error "chapter must be 1..=9"
      | some c => .ok ⟨directory, t, c⟩
  | _ => .error "usage: dialog_runner <script-dir> <target> [chapter]"

/-- A report that ends in a fault. -/
def failure (output : List String) (line : String) : Report := ⟨false, output, [line]⟩

/-- The scripts of a directory, all of them and without a reference into nowhere. -/
def library (scripts : Option Library.Directory) : Except LoadFault Library :=
  match scripts with
  | none => .error .unreadable
  | some d =>
    match (Library.loadDirectory d "").run.run .empty with
    | (.ok (), l) => l.finish
    | (.error e, _) => .error e

/-- The image of a game that begins in a chapter. -/
def blankImage (c : Chapter) (gold : Royals) : Except Fault Image :=
  let write : Step Image Unit := do
    Image.writeU16 Layout.chapter c.val.toUInt16
    Image.writeU8 Layout.zone 1
    Image.writeU32 Layout.gold gold.val
  match write (.zeroed Layout.size) with
  | (.ok (), m) => .ok m
  | (.error e, _) => .error e

/-- The game that a request starts. -/
def session (l : Library) (c : Chapter) : Except Fault Session := do
  let settings := l.settings.getD .usual
  let s ← Session.ofSave settings .initial (← blankImage c settings.gold)
  return { s with names := l.names }

/-- A line on the health of a character. -/
def healthLine (c : Character) : String :=
  s!"  {c.name}: health {c.skills.totalHealth}/{c.skills.maxTotalHealth}"

/-- Where a chain has left the party. -/
def summary (s : Session) : List String :=
  [s!"{s.chapter}, {s.zone}", s!"Time: {s.clock.now}", s!"Purse: {s.party.gold}",
    s!"Timed effects: {s.ledger.entries.length}"] ++ s.party.activeMembers.map healthLine

/-- Plays a request with the scripts that have been loaded. -/
def play (l : Library) (r : Request) : Report :=
  let loaded :=
    [s!"Loaded {l.dialogs.size} snippets, {l.story.starts.length} chapter starts"]
  let started := loaded ++ [s!"Running {r.target} in {r.chapter}", ""]
  match session l r.chapter with
  | .error e => failure loaded s!"error: {e.message}"
  | .ok s =>
    match Session.chain l.dialogs r.target s with
    | (.error e, _) => failure started s!"error: {e.message}"
    | (.ok (), s) => ⟨true, started ++ summary s, []⟩

/-- Answers a request with the files of its directory, if that is there. -/
def report (scripts : Option Library.Directory) (r : Request) : Report :=
  match library scripts with
  | .error e => failure [] s!"error: {e.message}"
  | .ok l => play l r

end QuestLogic.Runner
