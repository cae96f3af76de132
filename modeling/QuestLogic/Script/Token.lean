import QuestLogic.Script.Identifier

/-!
# Tokens of scripts

A script is a text of words, numbers and quoted texts among brackets, with blanks and comments in
between. `Token.ofChars?` cuts it up. Each lexeme leaves a rest that is shorter than what it was
read from, which is why the cutting ends.
-/

namespace QuestLogic.Script

/-- The least that a script consists of. -/
inductive Token where
  | leftParen | rightParen | leftBracket | rightBracket | colon | comma
  /-- Parentheses with nothing between them, not even a blank. -/
  | unit
  | word (name : String)
  | number (n : Int)
  | text (s : String)
deriving DecidableEq, Inhabited

/-- What is left of a sequence when something at its front has been read. -/
abbrev Rest {α : Type} (xs : List α) := { r : List α // r.length < xs.length }

/-- The rest is shorter still than a sequence with one more element. -/
def Rest.after {α : Type} {xs : List α} (r : Rest xs) (x : α) : Rest (x :: xs) :=
  ⟨r.1, Nat.lt_succ_of_lt r.2⟩

/-- What is left after the characters of a class. -/
def dropClass (p : Char → Bool) (c : Char) (cs : List Char) : Rest (c :: cs) :=
  ⟨cs.dropWhile p, Nat.lt_succ_of_le (List.dropWhile_suffix p).length_le⟩

namespace Token

/-- The characters that may stand between lexemes. -/
def isBlank (c : Char) : Bool :=
  c ∈ [' ', '\t', '\n', '\r', '\x0b', '\x0c', '\u0085', '\u200e', '\u200f', '\u2028', '\u2029']

/-- A word starts like an identifier, or with an underscore. -/
def startsWord (c : Char) : Bool := Identifier.starts c || c = '_'

/-- A word goes on like an identifier. -/
def continuesWord (c : Char) : Bool := Identifier.continues c

/-- The token that a character stands for by itself. -/
def ofPunctuation? (c : Char) : Option Token :=
  if c = '(' then some leftParen
  else if c = ')' then some rightParen
  else if c = '[' then some leftBracket
  else if c = ']' then some rightBracket
  else if c = ':' then some colon
  else if c = ',' then some comma
  else none

/-- What follows a comment that is closed; comments nest, and `depth` of them are open around it. -/
def afterComment? : Nat → (cs : List Char) → Option (Rest cs)
  | depth, '*' :: '/' :: r =>
    match depth with
    | 0 => some ⟨r, by simp only [List.length_cons]; omega⟩
    | depth + 1 => (afterComment? depth r).map fun rest => (rest.after '/').after '*'
  | depth, '/' :: '*' :: r =>
    (afterComment? (depth + 1) r).map fun rest => (rest.after '*').after '/'
  | depth, c :: r => (afterComment? depth r).map (·.after c)
  | _, [] => none

/-- The value of a digit in base sixteen. -/
def hexDigit? (c : Char) : Option Nat :=
  if c.isDigit then some (c.toNat - '0'.toNat)
  else if 'a' ≤ c && c ≤ 'f' then some (c.toNat - 'a'.toNat + 10)
  else if 'A' ≤ c && c ≤ 'F' then some (c.toNat - 'A'.toNat + 10)
  else none

/-- The characters that a number goes on with, in whatever base. -/
def continuesNumber (c : Char) : Bool := (hexDigit? c).isSome || c = '_'

/-- One more digit of a number. -/
def addDigit? (base n : Nat) (c : Char) : Option Nat :=
  (hexDigit? c).bind fun d => if d < base then some (n * base + d) else none

/-- The number that digits stand for; underscores among them group, but do not come first. -/
def digits? (base : Nat) : List Char → Option Nat
  | [] => none
  | '_' :: _ => none
  | run => (run.filter (· ≠ '_')).foldlM (addDigit? base) 0

/-- The base in which a number is written. -/
def base : List Char → Nat × List Char
  | '0' :: 'x' :: r => (16, r)
  | '0' :: 'o' :: r => (8, r)
  | '0' :: 'b' :: r => (2, r)
  | r => (10, r)

/-- Naming a base takes nothing but characters. -/
theorem length_base_le (cs : List Char) : (base cs).2.length ≤ cs.length := by
  unfold base
  split <;> simp <;> omega

/-- A number has a digit. -/
theorem ne_nil_of_digits? {b n : Nat} {run : List Char} (h : digits? b run = some n) :
    run ≠ [] := by
  rintro rfl
  simp [digits?] at h

/-- The number at the front, without a sign. -/
def magnitude? (cs : List Char) : Option (Nat × Rest cs) :=
  match h : digits? (base cs).1 ((base cs).2.takeWhile continuesNumber) with
  | some n => some (n, ⟨(base cs).2.dropWhile continuesNumber, by
      have hb := length_base_le cs
      have hr := congrArg List.length (List.takeWhile_append_dropWhile
        (p := continuesNumber) (l := (base cs).2))
      have hd := List.length_pos_iff.2 (ne_nil_of_digits? h)
      simp only [List.length_append] at hr
      omega⟩)
  | none => none

/-- The number at the front, with the sign that it may have. -/
def signed? : (cs : List Char) → Option (Int × Rest cs)
  | '-' :: r => (magnitude? r).map fun (n, rest) => (-(n : Int), rest.after '-')
  | '+' :: r => (magnitude? r).map fun (n, rest) => ((n : Int), rest.after '+')
  | r => (magnitude? r).map fun (n, rest) => ((n : Int), rest)

/-- Whether a number, after the sign that it may have, is written with its base. -/
def namesBase : List Char → Bool
  | '-' :: r | '+' :: r | r => (base r).1 ≠ 10

/-- The smallest number that may be written with its base. -/
def leastNumber : Int := -0x8000000000000000

/-- The largest number that may be written with its base. -/
def greatestNumber : Int := 0xffffffffffffffff

/-- The number at the front. One in base ten may have any size, which matters only to whoever reads
it. -/
def number? (cs : List Char) : Option (Int × Rest cs) :=
  (signed? cs).filter fun (n, _) => !namesBase cs || (leastNumber ≤ n && n ≤ greatestNumber)

/-- The characters of a quoted text as they are written, and what follows the closing quote. -/
def quoted? : (cs : List Char) → Option (List Char × Rest cs)
  | '\x22' :: r => some ([], ⟨r, by simp⟩)
  | '\\' :: c :: r =>
    (quoted? r).map fun (body, rest) => ('\\' :: c :: body, (rest.after c).after '\\')
  | c :: r => (quoted? r).map fun (body, rest) => (c :: body, rest.after c)
  | [] => none

/-- The characters up to a quote that is followed by so many hashes, and what comes after. -/
def raw? (hashes : Nat) : (cs : List Char) → Option (List Char × Rest cs)
  | '\x22' :: r =>
    if (r.take hashes) = List.replicate hashes '#' then
      some ([], ⟨r.drop hashes, by simp only [List.length_drop, List.length_cons]; omega⟩)
    else (raw? hashes r).map fun (body, rest) => ('\x22' :: body, rest.after '\x22')
  | c :: r => (raw? hashes r).map fun (body, rest) => (c :: body, rest.after c)
  | [] => none

/-- The byte that two digits stand for. -/
def byte? (high low : Char) : Option UInt8 := do
  return UInt8.ofNat ((← hexDigit? high) * 16 + (← hexDigit? low))

/-- The number of bytes that follow a first byte in the encoding of a character. -/
def bytesAfter (first : UInt8) : Nat :=
  if first < 0x80 then 0 else if first < 0xe0 then 1 else if first < 0xf0 then 2 else 3

/-- Bytes that are written out one after the other. -/
def bytes? : Nat → List Char → Option (List UInt8)
  | 0, _ => some []
  | n + 1, '\\' :: 'x' :: high :: low :: r => do return (← byte? high low) :: (← bytes? n r)
  | _ + 1, _ => none

/-- The character that bytes encode. -/
def decoded? (bytes : List UInt8) : Option Char :=
  match (String.fromUTF8? ⟨bytes.toArray⟩).map (·.toList) with
  | some [c] => some c
  | _ => none

/-- The characters that stand for themselves or another one after a backslash. -/
def escapes : List (Char × Char) :=
  [('\x27', '\x27'), ('\x22', '\x22'), ('\\', '\\'), ('n', '\n'), ('r', '\r'), ('t', '\t'),
    ('0', '\x00')]

/-- The character with a number that is written in one to six digits. -/
def codePoint? (digits : List Char) : Option Char := do
  if digits.isEmpty || 6 < digits.length then none
  let n ← digits.foldlM (addDigit? 16) 0
  if n.isValidChar then some (Char.ofNat n) else none

/-- The length of a byte written out. -/
def byteLength : Nat := 4

/-- Whether a character may stand between braces. -/
def inBraces (c : Char) : Bool := c ≠ '\x7d'

/-- The text that is written with escapes. -/
def unescape? : List Char → Option (List Char)
  | '\\' :: 'x' :: high :: low :: r => do
    let more := bytesAfter (← byte? high low)
    let bytes ← bytes? (more + 1) ('\\' :: 'x' :: high :: low :: r)
    return (← decoded? bytes) :: (← unescape? (r.drop (more * byteLength)))
  | '\\' :: 'u' :: '\x7b' :: r => do
    let c ← codePoint? (r.takeWhile inBraces)
    if r.all inBraces then none else return c :: (← unescape? (r.dropWhile inBraces).tail)
  | '\\' :: c :: r => do return (← escapes.lookup c) :: (← unescape? r)
  | ['\\'] => none
  | c :: r => do return c :: (← unescape? r)
  | [] => some []
termination_by cs => cs.length
decreasing_by
  · simp only [List.length_drop, List.length_cons]
    omega
  · have := (List.dropWhile_suffix (l := r) inBraces).length_le
    simp only [List.length_tail, List.length_cons]
    omega
  · simp only [List.length_cons]
    omega
  · simp only [List.length_cons]
    omega

/-- What stands at the front of a text, if it is more than a blank, and what follows it. -/
abbrev Lexeme (cs : List Char) := Option Token × Rest cs

/-- A comment, after the slash that opens it. -/
def comment? : (cs : List Char) → Option (Rest cs)
  | '/' :: r => some (dropClass (· ≠ '\n') '/' r)
  | '*' :: r => (afterComment? 0 r).map (·.after '*')
  | _ => none

/-- A quoted text, after the quote that opens it. -/
def quotedText? (cs : List Char) : Option (Token × Rest cs) := do
  let (body, rest) ← quoted? cs
  return (.text (String.ofList (← unescape? body)), rest)

/-- A raw text, after the letter that opens it; both of its quotes have as many hashes. -/
def rawText? (cs : List Char) : Option (Token × Rest cs) :=
  let hashes := (cs.takeWhile (· = '#')).length
  match h : cs.dropWhile (· = '#') with
  | '\x22' :: r =>
    (raw? hashes r).map fun (body, rest) =>
      (.text (String.ofList body), ⟨rest.1, by
        have hc := (List.dropWhile_suffix (l := cs) (· = '#')).length_le
        have hr := rest.2
        simp only [h, List.length_cons] at hc
        omega⟩)
  | _ => none

/-- Whether a raw text goes on like this after the letter that opens it. -/
def opensRaw (cs : List Char) : Bool :=
  match cs with
  | c :: _ => c = '#' || c = '\x22'
  | [] => false

/-- A word that starts with a character. -/
def wordFrom (c : Char) (cs : List Char) : Token × Rest (c :: cs) :=
  (.word (String.ofList (c :: cs.takeWhile continuesWord)), dropClass continuesWord c cs)

/-- What stands at the front of a text. -/
def lexeme? : (cs : List Char) → Option (Lexeme cs)
  | [] => none
  | c :: r =>
    if isBlank c then some (none, dropClass isBlank c r)
    else if c = '(' && r.head? = some ')' then
      some (some unit, ⟨r.tail, by simp only [List.length_tail, List.length_cons]; omega⟩)
    else if let some t := ofPunctuation? c then some (some t, ⟨r, by simp⟩)
    else if c = '/' then (comment? r).map fun rest => (none, rest.after c)
    else if c = '\x22' then (quotedText? r).map fun (t, rest) => (some t, rest.after c)
    else if c = 'r' && opensRaw r then
      (rawText? r).map fun (t, rest) => (some t, rest.after c)
    else if startsWord c then
      let (t, rest) := wordFrom c r
      some (some t, rest)
    else (number? (c :: r)).map fun (n, rest) => (some (.number n), rest)

/-- The tokens of a text, unless it holds something else. -/
def ofChars? (cs : List Char) : Option (List Token) :=
  if cs.isEmpty then some []
  else do
    let (token, rest) ← lexeme? cs
    return token.toList ++ (← ofChars? rest.1)
termination_by cs.length
decreasing_by exact rest.2

end Token

end QuestLogic.Script
