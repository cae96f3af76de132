import QuestLogic.Script.Token

/-!
# Values of scripts

A script is one value: a number, a text, a word, a list in brackets, or something in parentheses
with or without a name before it, which is a record if its parts are named and a group if they are
not. A comma may follow the last part. `Value.ofText?` reads a script; what its parts mean is
decided later.
-/

namespace QuestLogic.Script

/-- What a script or a part of it says. -/
inductive Value where
  | number (n : Int)
  | text (s : String)
  | word (name : String)
  /-- Parentheses with nothing between them. -/
  | unit
  | list (items : List Value)
  /-- Unnamed parts in parentheses. -/
  | group (name : Option String) (items : List Value)
  /-- Named parts in parentheses. There are none in parentheses that hold only blanks, nor in
  parentheses after a name that hold nothing. -/
  | record (name : Option String) (fields : List (String × Value))
deriving Inhabited

namespace Value

mutual

/-- The value at the front. -/
def front? : (ts : List Token) → Option (Value × Rest ts)
  | .number n :: r => some (.number n, ⟨r, by simp⟩)
  | .text s :: r => some (.text s, ⟨r, by simp⟩)
  | .leftBracket :: r =>
    (parts? .rightBracket r).map fun (items, rest) => (.list items, rest.after _)
  | .leftParen :: r => (inside? none r).map fun (v, rest) => (v, rest.after _)
  | .unit :: r => some (.unit, ⟨r, by simp⟩)
  | .word w :: .unit :: r => some (.record (some w) [], ⟨r, by simp only [List.length_cons]; omega⟩)
  | .word w :: .leftParen :: r =>
    (inside? (some w) r).map fun (v, rest) => (v, (rest.after _).after _)
  | .word w :: r => some (.word w, ⟨r, by simp⟩)
  | _ => none
termination_by ts => (ts.length, 0)

/-- What parentheses hold, after the one that opens. -/
def inside? (name : Option String) : (ts : List Token) → Option (Value × Rest ts)
  | .word f :: .colon :: r =>
    (fields? (.word f :: .colon :: r)).map fun (fields, rest) => (.record name fields, rest)
  | .rightParen :: r => some (.record name [], ⟨r, by simp⟩)
  | ts => (parts? .rightParen ts).map fun (items, rest) => (.group name items, rest)
termination_by ts => (ts.length, 2)

/-- Unnamed parts up to the token that closes them. -/
def parts? (close : Token) (ts : List Token) : Option (List Value × Rest ts) :=
  match ts with
  | [] => none
  | t :: r =>
    if t = close then some ([], ⟨r, by simp⟩)
    else
      match front? (t :: r) with
      | some (v, ⟨.comma :: rest, h⟩) =>
        (parts? close rest).map fun (items, left) =>
          (v :: items, ⟨left.1, by have := left.2; simp only [List.length_cons] at *; omega⟩)
      | some (v, ⟨t' :: rest, h⟩) =>
        if t' = close then some ([v], ⟨rest, by simp only [List.length_cons] at *; omega⟩) else none
      | _ => none
termination_by (ts.length, 1)
decreasing_by
  · exact Prod.Lex.right _ (by omega)
  · exact Prod.Lex.left _ _ (by simp only [List.length_cons] at *; omega)

/-- Named parts up to the parenthesis that closes them. -/
def fields? : (ts : List Token) → Option (List (String × Value) × Rest ts)
  | .rightParen :: r => some ([], ⟨r, by simp⟩)
  | .word f :: .colon :: r =>
    match front? r with
    | some (v, ⟨.comma :: rest, h⟩) =>
      (fields? rest).map fun (fields, left) =>
        ((f, v) :: fields, ⟨left.1, by have := left.2; simp only [List.length_cons] at *; omega⟩)
    | some (v, ⟨.rightParen :: rest, h⟩) =>
      some ([(f, v)], ⟨rest, by simp only [List.length_cons] at *; omega⟩)
    | _ => none
  | _ => none
termination_by ts => (ts.length, 1)
decreasing_by
  · exact Prod.Lex.left _ _ (by simp only [List.length_cons]; omega)
  · exact Prod.Lex.left _ _ (by simp only [List.length_cons] at *; omega)

end

/-- The value that a text says, and nothing besides. -/
def ofText? (s : String) : Option Value := do
  match ← front? (← Token.ofChars? s.toList) with
  | (v, ⟨[], _⟩) => return v
  | _ => none

end Value

end QuestLogic.Script
