import QuestLogic.Script.Nesting

/-!
# Parts of values

Readers that take a value for what it is meant to be, and give nothing if it is something else. A
record may hold fields that nobody asks for, which are passed over, but not twice a field that
somebody does.
-/

namespace QuestLogic.Script

/-- The named parts of a record. -/
abbrev Fields := List (String × Value)

/-- A reading of the fields of a record, which takes those that it asks for. -/
abbrev FieldReader (α : Type) := StateT Fields Option α

namespace FieldReader

variable {α : Type}

/-- Takes the fields of a name. -/
def take (name : String) : FieldReader Fields := fun fields =>
  some (fields.filter (·.1 = name), fields.filter (·.1 ≠ name))

/-- The field of a name, which must be there once. -/
def required (name : String) (read : Value → Option α) : FieldReader α := do
  match ← take name with
  | [(_, v)] => read v
  | _ => failure

/-- The field of a name, or `absent` if there is none. -/
def optional (name : String) (absent : α) (read : Value → Option α) : FieldReader α := do
  match ← take name with
  | [] => return absent
  | [(_, v)] => read v
  | _ => failure

/-- Reads fields around which `depth` levels are open, and passes over what is left of them. -/
def run? (reader : FieldReader α) (depth : Nat) (fields : Fields) : Option α := do
  let (a, rest) ← StateT.run reader fields
  if rest.all fun field => field.2.fits (Nesting.limit - depth) then some a else none

end FieldReader

namespace Value

variable {α : Type}

/-- A number from zero to `top`. -/
def nat? (top : Nat) : Value → Option Nat
  | number n => if 0 ≤ n && n ≤ top then some n.toNat else none
  | _ => none

def u8? (v : Value) : Option UInt8 := (v.nat? 0xff).map UInt8.ofNat

def u16? (v : Value) : Option UInt16 := (v.nat? 0xffff).map UInt16.ofNat

def u32? (v : Value) : Option UInt32 := (v.nat? 0xffffffff).map UInt32.ofNat

def u64? (v : Value) : Option UInt64 := (v.nat? 0xffffffffffffffff).map UInt64.ofNat

def i16? : Value → Option Int16
  | number n => if -0x8000 ≤ n && n ≤ 0x7fff then some (Int16.ofInt n) else none
  | _ => none

def bool? : Value → Option Bool
  | word "true" => some true
  | word "false" => some false
  | _ => none

def string? : Value → Option String
  | text s => some s
  | _ => none

/-- A word that names something. -/
def named? (ofName? : String → Option α) : Value → Option α
  | word s => ofName? s
  | _ => none

/-- A list whose items are all of one sort. -/
def list? (read : Value → Option α) : Value → Option (List α)
  | list items => items.mapM read
  | _ => none

/-- `None`, or `Some` with a value in parentheses. -/
def option? (read : Value → Option α) : Value → Option (Option α)
  | word "None" => some none
  | group (some "Some") [v] => (read v).map some
  | _ => none

/-- A record around whose fields `depth` levels are open; its name may be left out. -/
def record? (name : String) (depth : Nat) (reader : FieldReader α) : Value → Option α
  | record n fields => if n.all (· = name) then reader.run? depth fields else none
  | unit => reader.run? depth []
  | _ => none

/-- A number as a value. -/
def ofNat (n : Nat) : Value := number n

/-- A truth value as a value. -/
def ofBool (b : Bool) : Value := word (if b then "true" else "false")

/-- A record with a name. -/
def variant (name : String) (fields : Fields) : Value := record (some name) fields

end Value

end QuestLogic.Script
