import QuestLogic.Text.Slots

/-!
# Filling in is one pass

A text is filled in piece by piece: wherever it is cut, the two parts can be filled in apart, unless
the cut goes through a reference to a filled slot (`TextSlots.substitute_append`). So what a slot
holds never meets what stands around the reference and is not looked at again. What becomes of
references and of other characters is then all that there is to say, and leaves no choice of how a
text comes out (`TextSlots.fillsIn_substitute`).
-/

namespace QuestLogic.TextSlots

variable {t : TextSlots} {a b rest : List Char} {c : Char} {i : Nat} {text : String}

/-! ## References -/

/-- A slot has been filled with a text. -/
def Holds (t : TextSlots) (i : Nat) (text : String) : Prop := t.slots[i]? = some (some text)

theorem get?_eq_some : t.get? i = some text ↔ t.Holds i text := Option.join_eq_some_iff

theorem Holds.lt (h : t.Holds i text) : i < 10 := by
  refine Nat.lt_of_not_le fun hle => ?_
  rw [Holds, Vector.getElem?_eq_none hle] at h
  cases h

/-- A digit is how its number is written. -/
theorem digitChar_of_isDigit (h : c.isDigit) : (c.toNat - '0'.toNat).digitChar = c := by
  have hzero : '0'.toNat = 48 := rfl
  have hrange : 48 ≤ c.toNat ∧ c.toNat ≤ 57 := by
    simpa [Char.isDigit, UInt32.le_iff_toNat_le] using h
  rw [← Char.toNat_inj, Nat.toNat_digitChar_of_lt_ten (by omega)]
  omega

/-- After `@` the digit of a filled slot, and nothing else, refers to what the slot holds. -/
theorem reference?_eq_some :
    t.reference? c = some text ↔ ∃ i, t.Holds i text ∧ c = i.digitChar := by
  unfold reference?
  constructor
  · intro h
    split at h
    · next hdigit => exact ⟨_, get?_eq_some.1 h, (digitChar_of_isDigit hdigit).symm⟩
    · cases h
  · rintro ⟨i, hheld, rfl⟩
    have hzero : '0'.toNat = 48 := rfl
    rw [Nat.isDigit_digitChar, decide_eq_true hheld.lt, if_pos rfl, hzero,
      Nat.toNat_digitChar_sub_48_of_lt_ten hheld.lt, get?_eq_some.2 hheld]

/-- A text is cut through a reference to a filled slot: `@` is left at the end of the first part,
and its digit at the beginning of the second. -/
def Cuts (t : TextSlots) (a b : List Char) : Prop :=
  a.getLast? = some '@' ∧ ∃ i text, t.Holds i text ∧ b.head? = some i.digitChar

theorem Cuts.cons (h : t.Cuts a b) : t.Cuts (c :: a) b :=
  ⟨by rw [List.getLast?_cons, h.1, Option.getD_some], h.2⟩

theorem Cuts.append_right (h : t.Cuts a b) (rest : List Char) : t.Cuts a (b ++ rest) := by
  obtain ⟨hlast, i, text, hheld, hhead⟩ := h
  exact ⟨hlast, i, text, hheld, by rw [List.head?_append, hhead, Option.some_or]⟩

theorem Cuts.isDigit (h : t.Cuts a b) : ∃ c ∈ b.head?, c.isDigit := by
  obtain ⟨-, i, text, hheld, hhead⟩ := h
  exact ⟨_, hhead, by rw [Nat.isDigit_digitChar, decide_eq_true hheld.lt]⟩

/-- An `@` is no second half of a reference. -/
theorem not_cuts_mark : ¬ t.Cuts a ('@' :: b) := by
  rintro ⟨-, i, text, -, hhead⟩
  simp at hhead

/-- A digit is no first half of a reference. -/
theorem not_cuts_digit : ¬ t.Cuts (a ++ ['@', i.digitChar]) b := by
  rintro ⟨hlast, -⟩
  simp at hlast

/-! ## Pieces of a text -/

/-- A reference to a filled slot gives way to what the slot holds. -/
theorem fill_reference (h : t.Holds i text) :
    t.fill ('@' :: i.digitChar :: rest) = text.toList ++ t.fill rest := by
  rw [fill, reference?_eq_some.2 ⟨i, h, rfl⟩]

/-- A character with which no reference to a filled slot begins is kept. -/
theorem fill_cons (h : ¬ t.Cuts [c] rest) : t.fill (c :: rest) = c :: t.fill rest := by
  rw [fill.eq_def t (c :: rest)]
  split
  · next d rest hcons =>
    cases hcons
    have hnone : t.reference? d = none := by
      refine Option.eq_none_iff_forall_ne_some.2 fun text href => h ?_
      obtain ⟨i, hheld, rfl⟩ := reference?_eq_some.1 href
      exact ⟨rfl, i, text, hheld, rfl⟩
    rw [hnone]
  · next hcons => cases hcons; rfl
  · next hcons => cases hcons

/-- A text is empty, or it begins with a reference to a filled slot or with a character that is
kept. -/
theorem pieces_induction (t : TextSlots) {motive : List Char → Prop} (nil : motive [])
    (reference : ∀ i text rest, t.Holds i text → motive rest →
      motive ('@' :: i.digitChar :: rest))
    (kept : ∀ c rest, ¬ t.Cuts [c] rest → motive rest → motive (c :: rest)) (cs : List Char) :
    motive cs := by
  fun_induction fill t cs with
  | case1 c rest text href ih =>
    obtain ⟨i, hheld, rfl⟩ := reference?_eq_some.1 href
    exact reference i text rest hheld ih
  | case2 c rest href ih =>
    refine kept '@' (c :: rest) ?_ ih
    rintro ⟨-, i, text, hheld, hhead⟩
    rw [reference?_eq_some.2 ⟨i, hheld, Option.some.inj hhead⟩] at href
    cases href
  | case3 c rest hc ih =>
    refine kept c rest ?_ ih
    rintro ⟨hmark, i, text, -, hhead⟩
    obtain ⟨rest, rfl⟩ := List.head?_eq_some_iff.1 hhead
    exact hc _ rest (Option.some.inj hmark) rfl
  | case4 => exact nil

/-- The two parts of a text are filled in apart, unless it is cut through a reference. -/
theorem fill_append (h : ¬ t.Cuts a b) : t.fill (a ++ b) = t.fill a ++ t.fill b := by
  induction a using pieces_induction t with
  | nil => rfl
  | reference i text rest hheld ih =>
    rw [List.cons_append, List.cons_append, fill_reference hheld, fill_reference hheld,
      ih fun hcut => h hcut.cons.cons, List.append_assoc]
  | kept c rest hc ih =>
    have hfirst : ¬ t.Cuts [c] (rest ++ b) := by
      cases rest with
      | nil => exact h
      | cons d rest => exact fun hcut => hc ⟨hcut.1, hcut.2⟩
    rw [List.cons_append, fill_cons hfirst, fill_cons hc, ih fun hcut => h hcut.cons,
      List.cons_append]

/-! ## The rules of filling in -/

/-- The rules by which `f` fills in texts. They say nothing of the order in which a text is gone
through. -/
structure FillsIn (t : TextSlots) (f : String → String) : Prop where
  /-- Two texts are filled in apart, unless the first ends in `@` and the second begins with a
  digit. -/
  append : ∀ a b : String, ¬ (a.toList.getLast? = some '@' ∧ ∃ c ∈ b.toList.head?, c.isDigit) →
    f (a ++ b) = f a ++ f b
  /-- A reference to a filled slot, wherever it stands, gives way to what the slot holds, to the
  letter. -/
  reference : ∀ (a b : String) (i : Nat) (text : String), t.Holds i text →
    f (a ++ ("@" ++ toString i) ++ b) = f a ++ text ++ f b
  /-- A character that is no half of such a reference is kept where it stands. -/
  kept : ∀ (a b : String) (c : Char), ¬ t.Cuts a.toList (c :: b.toList) →
    ¬ t.Cuts (a.toList ++ [c]) b.toList →
    f (a ++ String.singleton c ++ b) = f a ++ String.singleton c ++ f b

theorem substitute_append {a b : String} (h : ¬ t.Cuts a.toList b.toList) :
    t.substitute (a ++ b) = t.substitute a ++ t.substitute b := by
  unfold substitute
  rw [String.toList_append, fill_append h, String.ofList_append]

/-- How a reference is written. -/
theorem toList_reference (h : i < 10) : ("@" ++ toString i).toList = ['@', i.digitChar] := by
  rw [String.toList_append, Nat.toString_eq_repr, Nat.repr_of_lt h, String.toList_singleton]
  rfl

theorem substitute_reference (h : t.Holds i text) :
    t.substitute ("@" ++ toString i) = text := by
  rw [substitute, toList_reference h.lt, fill_reference h, fill, List.append_nil,
    String.ofList_toList]

theorem substitute_singleton (c : Char) :
    t.substitute (String.singleton c) = String.singleton c := by
  have hcut : ¬ t.Cuts [c] [] := by
    rintro ⟨-, i, text, -, hhead⟩
    cases hhead
  rw [substitute, String.toList_singleton, fill_cons hcut, fill, String.singleton_eq_ofList]

theorem fillsIn : t.FillsIn t.substitute where
  append a b h := substitute_append fun hcut => h ⟨hcut.1, hcut.isDigit⟩
  reference a b i text h := by
    have hlist := toList_reference h.lt
    rw [substitute_append, substitute_append, substitute_reference h]
    · rw [hlist]
      exact not_cuts_mark
    · rw [String.toList_append, hlist]
      exact not_cuts_digit
  kept a b c hbefore hafter := by
    rw [substitute_append, substitute_append, substitute_singleton]
    · rw [String.toList_singleton]
      exact fun hcut => hbefore (hcut.append_right b.toList)
    · rwa [String.toList_append, String.toList_singleton]

namespace FillsIn

variable {f : String → String}

theorem eq_empty (h : t.FillsIn f) : f "" = "" := by
  have htwice := congrArg String.toList (h.append "" "" (by simp))
  rw [String.append_empty, String.toList_append, List.self_eq_append_right] at htwice
  exact String.toList_inj.1 htwice

theorem reference_cons (h : t.FillsIn f) (hheld : t.Holds i text) :
    f (String.ofList ('@' :: i.digitChar :: rest)) = text ++ f (String.ofList rest) := by
  have hlist : String.ofList ('@' :: i.digitChar :: rest) =
      "" ++ ("@" ++ toString i) ++ String.ofList rest := by
    rw [String.empty_append, ← String.ofList_toList (s := "@" ++ toString i),
      toList_reference hheld.lt, ← String.ofList_append]
    rfl
  rw [hlist, h.reference "" (String.ofList rest) i text hheld, h.eq_empty, String.empty_append]

theorem kept_cons (h : t.FillsIn f) (hc : ¬ t.Cuts [c] rest) :
    f (String.ofList (c :: rest)) = String.singleton c ++ f (String.ofList rest) := by
  have hlist : String.ofList (c :: rest) = "" ++ String.singleton c ++ String.ofList rest := by
    rw [String.empty_append, String.singleton_eq_ofList, ← String.ofList_append]
    rfl
  have hbefore : ¬ t.Cuts "".toList (c :: (String.ofList rest).toList) := by
    rintro ⟨hlast, -⟩
    cases hlast
  have hafter : ¬ t.Cuts ("".toList ++ [c]) (String.ofList rest).toList := by
    rw [String.toList_ofList (l := rest)]
    exact hc
  rw [hlist, h.kept "" (String.ofList rest) c hbefore hafter, h.eq_empty, String.empty_append]

/-- The rules settle how every text comes out. -/
theorem eq_fill (h : t.FillsIn f) (cs : List Char) :
    f (String.ofList cs) = String.ofList (t.fill cs) := by
  induction cs using pieces_induction t with
  | nil => exact h.eq_empty
  | reference i text rest hheld ih =>
    rw [h.reference_cons hheld, ih, fill_reference hheld, String.ofList_append,
      String.ofList_toList]
  | kept c rest hc ih =>
    rw [h.kept_cons hc, ih, fill_cons hc, String.singleton_eq_ofList, ← String.ofList_append]
    rfl

end FillsIn

/-- Filling in follows the rules, and nothing else does: it is one pass over the text, in which what
a slot holds is taken over unread. -/
theorem fillsIn_substitute (t : TextSlots) :
    t.FillsIn t.substitute ∧ ∀ f, t.FillsIn f → f = t.substitute := by
  refine ⟨fillsIn, fun f h => ?_⟩
  funext text
  rw [substitute, ← h.eq_fill, String.ofList_toList]

example :
    let slots := (TextSlots.empty.set 0 "@").set 1 "Gorath"
    slots.substitute "@01 and @1 owe @@0@12 to @2" = "@1 and Gorath owe @@Gorath2 to @2" := by
  decide

end QuestLogic.TextSlots
