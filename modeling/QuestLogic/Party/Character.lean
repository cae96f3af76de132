import QuestLogic.Party.Condition
import QuestLogic.Party.Inventory
import QuestLogic.Party.Skill
import QuestLogic.Spell

/-!
# Characters

A member of the cast with skills, conditions, belongings and known spells.
-/

namespace QuestLogic

/-- A member of the cast. -/
structure Character where
  id : CharId
  name : String
  skills : Skills
  conditions : Conditions
  inventory : Inventory
  spells : SpellBook
deriving DecidableEq, Inhabited

namespace Character

/-- A character at the start of the story. -/
def fresh (id : CharId) (name : String) : Character :=
  ⟨id, name, .initial, .none, default, ⟨0⟩⟩

/-- The full cast at the start of the story. -/
def cast : List Character :=
  [.fresh .locklear "Locklear", .fresh .gorath "Gorath", .fresh .owyn "Owyn", .fresh .pug "Pug",
    .fresh .james "James", .fresh .patrus "Patrus"]

/-- Moves a condition up or down. -/
def adjustCondition (c : Character) (k : Condition) (amount : Int) : Character :=
  { c with conditions := c.conditions.adjust k amount }

/-- Heals or damages a character. -/
def adjustHealth (c : Character) (amount : Int) : Character :=
  { c with skills := c.skills.adjustTotalHealth amount }

/-- Cured of everything and at full health. -/
def restore (c : Character) : Character :=
  { c with conditions := .none, skills := c.skills.heal }

/-- Whether health and stamina are at their maximum together. -/
def isHealed (c : Character) : Bool := c.skills.totalHealth = c.skills.maxTotalHealth

/-- Spell casters fight with a staff and everyone else with a sword; is it missing? -/
def lacksWeapon (c : Character) : Bool :=
  let weapon := if c.id.isSpellCaster then ItemKind.staff else ItemKind.sword
  !c.inventory.items.any fun i => i.equipped && i.kind = weapon

/-- The armor a character wears. -/
def wornArmor? (c : Character) : Option Item :=
  c.inventory.items.find? fun i => i.equipped && i.kind = .armor

end Character

end QuestLogic
