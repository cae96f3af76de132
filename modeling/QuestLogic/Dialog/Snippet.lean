import QuestLogic.Dialog.Action
import QuestLogic.Dialog.Choice
import QuestLogic.Fault

/-!
# Snippets

A dialog is made of snippets, each with actions and branches, kept by target in the order they were
added. A snippet added under a target that is taken replaces the one there, in its place.
-/

namespace QuestLogic

/-- A gated way to another snippet. -/
structure Branch where
  choice : Choice
  target : Target
deriving DecidableEq, Inhabited

/-- A piece of dialog. -/
structure Snippet where
  actions : List Action
  branches : List Branch
deriving DecidableEq, Inhabited

/-- Snippets by target, in the order they were added. -/
structure DialogStore where
  entries : List (Target × Snippet)
deriving DecidableEq, Inhabited

namespace DialogStore

/-- A store without snippets. -/
def empty : DialogStore := ⟨[]⟩

/-- The snippet under a target. -/
def find? (d : DialogStore) (t : Target) : Option Snippet := d.entries.lookup t

/-- Whether there is a snippet under a target. -/
def contains (d : DialogStore) (t : Target) : Bool := (d.find? t).isSome

/-- The snippet under a target, which must be there. -/
def get (d : DialogStore) (t : Target) : Except Fault Snippet :=
  match d.find? t with
  | some s => .ok s
  | none => .error (.unknownSnippet t)

/-- The store with a snippet under a target. -/
def insert (d : DialogStore) (t : Target) (s : Snippet) : DialogStore :=
  if d.contains t then ⟨d.entries.map fun e => if e.1 = t then (t, s) else e⟩
  else ⟨d.entries ++ [(t, s)]⟩

/-- The number of snippets. -/
def size (d : DialogStore) : Nat := d.entries.length

end DialogStore

end QuestLogic
