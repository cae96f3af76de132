import QuestLogic.Dialog.Snippet
import QuestLogic.Script.Field

/-!
# Dialogs in scripts

How choices, actions and snippets are written. Choices and actions are read by `ofValue?` and
written by `toValue`; operands that are usually zero may be left out when they are read.
-/

namespace QuestLogic

open Script Script.FieldReader

namespace Choice

/-- The choice that a record with a name describes. -/
def ofFields : String → FieldReader Choice
  | "Conversation" => return .conversation (← required "event_ptr" Value.u16?)
  | "Query" => return .query (← required "index" Value.u16?)
  | "EventFlag" =>
    return .eventFlag (← required "event_ptr" Value.u16?) (← required "expected" Value.bool?)
  | "GameState" =>
    return .gauge (← required "state" (Value.named? Gauge.ofName?))
      (← required "min" Value.u16?) (← required "max" Value.u16?)
  | "CustomState" => return .scenario (← required "scenario" (Value.named? Scenario.ofName?))
  | "Inventory" =>
    return .inventory ⟨← required "item" Value.u8?⟩ (← required "present" Value.bool?)
  | "HaveNote" => return .haveNote (← required "note" Value.u16?)
  | "CastSpell" => return .castSpell (← required "spell" Value.u16?)
  | "Random" => return .random (← required "range" Value.u16?)
  | "ComplexEvent" =>
    return .complexEvent (← required "event_ptr" Value.u16?)
      (← required "xor_mask" Value.u8?) (← required "expected" Value.u8?)
      (← required "must_equal_expected" Value.u8?) (← required "chapter_mask" Value.u8?)
  | "Unknown" => return .unknown (← required "state" Value.u16?)
  | _ => failure

/-- The choice that a value describes. -/
def ofValue? : Value → Option Choice
  | .word "NoChoice" => some .noChoice
  | .record (some name) fields => (ofFields name).run? Nesting.choice fields
  | _ => none

/-- The value that describes a choice. -/
def toValue : Choice → Value
  | .noChoice => .word "NoChoice"
  | .conversation p => .variant "Conversation" [("event_ptr", .ofNat p.toNat)]
  | .query i => .variant "Query" [("index", .ofNat i.toNat)]
  | .eventFlag p expected =>
    .variant "EventFlag" [("event_ptr", .ofNat p.toNat), ("expected", .ofBool expected)]
  | .gauge g min max =>
    .variant "GameState"
      [("state", .word g.name), ("min", .ofNat min.toNat), ("max", .ofNat max.toNat)]
  | .scenario s => .variant "CustomState" [("scenario", .word s.name)]
  | .inventory item present =>
    .variant "Inventory" [("item", .ofNat item.val.toNat), ("present", .ofBool present)]
  | .haveNote n => .variant "HaveNote" [("note", .ofNat n.toNat)]
  | .castSpell s => .variant "CastSpell" [("spell", .ofNat s.toNat)]
  | .random r => .variant "Random" [("range", .ofNat r.toNat)]
  | .complexEvent p xorMask expected mustEqual chapterMask =>
    .variant "ComplexEvent"
      [("event_ptr", .ofNat p.toNat), ("xor_mask", .ofNat xorMask.toNat),
        ("expected", .ofNat expected.toNat), ("must_equal_expected", .ofNat mustEqual.toNat),
        ("chapter_mask", .ofNat chapterMask.toNat)]
  | .unknown w => .variant "Unknown" [("state", .ofNat w.toNat)]

end Choice

namespace FlagWrite

/-- The flag write that a record describes. -/
def ofValue? : Value → Option FlagWrite :=
  Value.record? "SetFlag" Nesting.flagWrite do
    return ⟨← required "event_pointer" Value.u16?, ← optional "event_mask" 0 Value.u8?,
      ← optional "event_data" 0 Value.u8?, ← optional "always_zero" 0 Value.u16?,
      ← required "event_value" Value.u16?⟩

/-- The record that describes a flag write. -/
def toValue (w : FlagWrite) : Value :=
  .record none
    [("event_pointer", .ofNat w.pointer.toNat), ("event_mask", .ofNat w.mask.toNat),
      ("event_data", .ofNat w.data.toNat), ("always_zero", .ofNat w.flip.toNat),
      ("event_value", .ofNat w.value.toNat)]

end FlagWrite

namespace SpecialAction

/-- The special action that a value names. -/
def ofValue? : Value → Option SpecialAction
  | .group (some "Unknown") [v] => return .unknown (← v.u16?)
  | v => v.named? ofName?

/-- The value that names a special action. -/
def toValue : SpecialAction → Value
  | .unknown code => .group (some "Unknown") [.ofNat code.toNat]
  | a => .word a.name

end SpecialAction

namespace Action

/-- The action that a record with a name describes. -/
def ofFields : String → FieldReader Action
  | "PushNextDialog" => return .pushNextDialog ⟨← required "target" Value.u32?⟩
  | "GiveItem" =>
    return .giveItem ⟨← required "item" Value.u8?⟩ (← required "who" Value.u8?)
      (← required "quantity" Value.u16?)
  | "LoseItem" =>
    return .loseItem ⟨← required "item" Value.u8?⟩ (← required "quantity" Value.u16?)
  | "LoseNOfItem" =>
    return .loseNOfItem ⟨← required "item" Value.u8?⟩ (← required "quantity" Value.u16?)
  | "GainSkill" =>
    return .gainSkill (← required "who" Value.u8?)
      (← required "skill" (Value.named? SkillType.ofName?))
      (← required "min" Value.i16?) (← required "max" Value.i16?)
  | "GainCondition" =>
    return .gainCondition (← required "who" Value.u8?)
      (← required "condition" (Value.named? Condition.ofName?))
      (← required "min" Value.i16?) (← required "max" Value.i16?)
  | "HealCharacters" =>
    return .healCharacters (← required "who" Value.u8?) (← required "amount" Value.u16?)
  | "ElapseTime" => return .elapseTime ⟨← required "time" Value.u32?⟩
  | "SetAddResetState" =>
    return .setAddResetState (← required "event_ptr" Value.u16?)
      ⟨← required "time_to_expire" Value.u32?⟩
  | "SetTimeExpiringState" =>
    return .setTimeExpiringState (← required "kind" (Value.named? EffectKind.ofName?))
      (← required "flags" Value.u8?) (← required "event_ptr" Value.u16?)
      ⟨← required "time_to_expire" Value.u32?⟩
  | "SetEndOfDialogState" => return .setEndOfDialogState (← required "state" Value.i16?)
  | "UpdateCharacters" =>
    return .updateCharacters ((← required "characters" (Value.list? Value.u8?)).map CharId.mk)
  | "LoadSkillValue" =>
    return .loadSkillValue (← required "target" Value.u8?)
      (← required "skill" (Value.named? SkillType.ofName?))
  | "LearnSpell" =>
    return .learnSpell (← required "who" Value.u8?) ⟨← required "spell" Value.u16?⟩
  | "SpecialAction" =>
    return .special (← required "kind" SpecialAction.ofValue?)
      (← optional "var1" 0 Value.u16?) (← optional "var2" 0 Value.u16?)
      (← optional "var3" 0 Value.u16?)
  | "SetTextVariable" =>
    return .setTextVariable (← required "which" Value.u8?) (← required "what" Value.u8?)
  | "UnknownAction" =>
    return .unknown (← required "kind" Value.u16?)
      (← optional "data" [] (Value.list? Value.u8?))
  | _ => failure

/-- The action that a value describes. -/
def ofValue? : Value → Option Action
  | .record (some name) fields => (ofFields name).run? Nesting.action fields
  | .group (some "SetFlag") [v] => (FlagWrite.ofValue? v).map .setFlag
  | _ => none

/-- The value that describes an action. -/
def toValue : Action → Value
  | .pushNextDialog t => .variant "PushNextDialog" [("target", .ofNat t.val.toNat)]
  | .setFlag w => .group (some "SetFlag") [w.toValue]
  | .giveItem item who quantity =>
    .variant "GiveItem"
      [("item", .ofNat item.val.toNat), ("who", .ofNat who.toNat),
        ("quantity", .ofNat quantity.toNat)]
  | .loseItem item quantity =>
    .variant "LoseItem" [("item", .ofNat item.val.toNat), ("quantity", .ofNat quantity.toNat)]
  | .loseNOfItem item quantity =>
    .variant "LoseNOfItem" [("item", .ofNat item.val.toNat), ("quantity", .ofNat quantity.toNat)]
  | .gainSkill who skill min max =>
    .variant "GainSkill"
      [("who", .ofNat who.toNat), ("skill", .word skill.name), ("min", .number min.toInt),
        ("max", .number max.toInt)]
  | .gainCondition who condition min max =>
    .variant "GainCondition"
      [("who", .ofNat who.toNat), ("condition", .word condition.name), ("min", .number min.toInt),
        ("max", .number max.toInt)]
  | .healCharacters who percent =>
    .variant "HealCharacters" [("who", .ofNat who.toNat), ("amount", .ofNat percent.toNat)]
  | .elapseTime t => .variant "ElapseTime" [("time", .ofNat t.toNat)]
  | .setAddResetState p duration =>
    .variant "SetAddResetState"
      [("event_ptr", .ofNat p.toNat), ("time_to_expire", .ofNat duration.toNat)]
  | .setTimeExpiringState kind flags subject duration =>
    .variant "SetTimeExpiringState"
      [("kind", .word kind.name), ("flags", .ofNat flags.toNat),
        ("event_ptr", .ofNat subject.toNat), ("time_to_expire", .ofNat duration.toNat)]
  | .setEndOfDialogState state => .variant "SetEndOfDialogState" [("state", .number state.toInt)]
  | .updateCharacters active =>
    .variant "UpdateCharacters" [("characters", .list (active.map fun c => .ofNat c.val.toNat))]
  | .loadSkillValue which skill =>
    .variant "LoadSkillValue" [("target", .ofNat which.toNat), ("skill", .word skill.name)]
  | .learnSpell who spell =>
    .variant "LearnSpell" [("who", .ofNat who.toNat), ("spell", .ofNat spell.val.toNat)]
  | .special a operand₁ operand₂ operand₃ =>
    .variant "SpecialAction"
      [("kind", a.toValue), ("var1", .ofNat operand₁.toNat), ("var2", .ofNat operand₂.toNat),
        ("var3", .ofNat operand₃.toNat)]
  | .setTextVariable which what =>
    .variant "SetTextVariable" [("which", .ofNat which.toNat), ("what", .ofNat what.toNat)]
  | .unknown kind data =>
    .variant "UnknownAction"
      [("kind", .ofNat kind.toNat), ("data", .list (data.map fun b => .ofNat b.toNat))]

end Action

namespace Branch

/-- The choice that three words stand for; the operands are usually zero. -/
def choiceOfWords : FieldReader Choice := do
  return .ofWords (← required "state" Value.u16?) (← optional "choice0" 0 Value.u16?)
    (← optional "choice1" 0 Value.u16?)

/-- The choice of a branch, given by its words or by what they mean. -/
def choiceOfValue? : Value → Option Choice
  | .record (some "Raw") fields => choiceOfWords.run? Nesting.choiceWords fields
  | .group (some "Decoded") [v] => Choice.ofValue? v
  | _ => none

/-- The branch that a record describes. -/
def ofValue? : Value → Option Branch :=
  Value.record? "ChoiceDef" Nesting.branch do
    return ⟨← required "choice" choiceOfValue?, ⟨← required "target" Value.u32?⟩⟩

end Branch

namespace Snippet

/-- The snippet that a record describes, and its target. -/
def ofValue? : Value → Option (Target × Snippet) :=
  Value.record? "SnippetDef" Nesting.entry do
    return (⟨← required "target" Value.u32?⟩,
      ⟨← optional "actions" [] (Value.list? Action.ofValue?),
        ← optional "choices" [] (Value.list? Branch.ofValue?)⟩)

/-- The snippets of a file, in order. -/
def fileOfValue? : Value → Option (List (Target × Snippet)) :=
  Value.record? "SnippetsFile" Nesting.file do
    required "snippets" (Value.list? ofValue?)

end Snippet

end QuestLogic
