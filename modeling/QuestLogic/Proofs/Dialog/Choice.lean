import Mathlib.Data.List.Nodup
import Mathlib.Tactic.SplitIfs
import QuestLogic.Dialog.Choice

/-!
# What a stored word is read as

A choice is written under one word (`Choice.word`), but some words are read as if they were others:
a word of the scenarios is read by some of its bits only, and a word of the items by its low byte.
`Choice.normalWord` is the word that stands for what a word is read as. To read it is to read the
word itself (`Choice.ofWords_normalWord`), and it can be told from the choice
(`Choice.word_ofWords`), so that two words are confused just if they have the same normal word, and
only stray words are not their own (`Choice.ofWords_eq_iff`).
-/

namespace QuestLogic

/-- A gauge is found under its own code only. -/
theorem Gauge.code_of_ofCode? {n : UInt16} {g : Gauge} (h : ofCode? n = some g) : g.code = n := by
  have hfound := List.find?_some h
  exact of_decide_eq_true hfound

/-- The code of a scenario. -/
def Scenario.code (s : Scenario) : UInt16 := UInt16.ofNat (all.idxOf s)

/-- A scenario is found under its own code only. -/
theorem Scenario.code_of_ofCode? {n : UInt16} {s : Scenario} (h : ofCode? n = some s) :
    s.code = n := by
  have hnodup : all.Nodup := by decide
  obtain ⟨hlt, rfl⟩ := List.getElem?_eq_some_iff.1 h
  rw [code, hnodup.idxOf_getElem, UInt16.ofNat_toNat]

/-- There are eleven scenarios. -/
theorem Scenario.exists_ofCode? {n : UInt16} : (∃ s, ofCode? n = some s) ↔ n < 11 := by
  rw [UInt16.lt_iff_toNat_lt, ofCode?, ← Option.isSome_iff_exists, isSome_getElem?]
  rfl

namespace Choice

variable {w : UInt16}

/-! ## Words and the choices under them -/

/-- The bits by which a scenario is known. -/
def scenarioBits (w : UInt16) : UInt16 := w &&& ~~~0x9c40

/-- The word is read as a scenario. -/
def IsScenario (w : UInt16) : Prop := 0x75ff < w ∧ w ≤ 0x9cff ∧ scenarioBits w < 11

/-- The word is read as an item. -/
def IsItem (w : UInt16) : Prop := 0x9cff < w ∧ w ≤ 0xc3ff

instance : Decidable (IsScenario w) := inferInstanceAs (Decidable (_ ∧ _ ∧ _))

instance : Decidable (IsItem w) := inferInstanceAs (Decidable (_ ∧ _))

/-- The word that stands for what a word is read as. -/
def normalWord (w : UInt16) : UInt16 :=
  if IsScenario w then 0x9c40 + scenarioBits w
  else if IsItem w then 0xc300 + w.toUInt8.toUInt16
  else w

/-- The word under which a choice is written. -/
def word : Choice → UInt16
  | noChoice => 0
  | conversation p => p
  | query index => index
  | eventFlag p _ => p
  | gauge g _ _ => g.code
  | scenario s => 0x9c40 + s.code
  | inventory item _ => 0xc300 + (item.val + 0x50).toUInt16
  | haveNote note => note - 0x38c8
  | castSpell spell => spell + 0xcb21
  | random range => range - 0x30f8
  | complexEvent p _ _ _ _ => p
  | unknown w => w

/-! ## Reading -/

/-- A word above a bound is above every smaller one. -/
theorem not_le_of_lt {bound k : UInt16} (h : bound < w) (hk : k ≤ bound) : ¬w ≤ k := fun hw =>
  UInt16.not_lt.2 (UInt16.le_trans hw hk) h

theorem ne_zero_of_lt {bound : UInt16} (h : bound < w) : w ≠ 0 := fun hw =>
  UInt16.not_lt.2 (hw ▸ UInt16.zero_le) h

/-- A word of a scenario is read as that scenario, whatever the operands. -/
theorem ofWords_of_isScenario (h : IsScenario w) :
    ∃ s, Scenario.ofCode? (scenarioBits w) = some s ∧ ∀ a b, ofWords w a b = scenario s := by
  obtain ⟨hlow, hhigh, hbits⟩ := h
  obtain ⟨s, hs⟩ := Scenario.exists_ofCode?.2 hbits
  refine ⟨s, hs, fun a b => ?_⟩
  rw [scenarioBits] at hs
  have hnot : ∀ k ≤ 0x75ff, ¬w ≤ k := fun k => not_le_of_lt hlow
  rw [ofWords, if_neg (ne_zero_of_lt hlow), if_neg (hnot _ (by decide)),
    if_neg (hnot _ (by decide)), if_neg (hnot _ (by decide)), if_neg (hnot _ (by decide)),
    if_pos hhigh, hs]

/-- A word of an item is read as the item that its low byte tells. -/
theorem ofWords_of_isItem (h : IsItem w) (a b : UInt16) :
    ofWords w a b = inventory ⟨w.toUInt8 - 0x50⟩ (a ≠ 0) := by
  obtain ⟨hlow, hhigh⟩ := h
  have hnot : ∀ k ≤ 0x9cff, ¬w ≤ k := fun k => not_le_of_lt hlow
  have hitem : (w + 0x3cb0).toUInt8 = w.toUInt8 - 0x50 := by
    rw [UInt16.toUInt8_add, UInt8.sub_eq_add_neg]
    rfl
  rw [ofWords, if_neg (ne_zero_of_lt hlow), if_neg (hnot _ (by decide)),
    if_neg (hnot _ (by decide)), if_neg (hnot _ (by decide)), if_neg (hnot _ (by decide)),
    if_neg (hnot _ (by decide)), if_pos hhigh, hitem]

/-- A word is found again whatever a test decides if it is found again either way. -/
theorem word_ite {c : Prop} [Decidable c] {x y : Choice} (hx : c → x.word = w)
    (hy : ¬c → y.word = w) : (if c then x else y).word = w := by
  by_cases hc : c
  · rw [if_pos hc, hx hc]
  · rw [if_neg hc, hy hc]

/-- Any other word is that under which its choice is written. -/
theorem word_ofWords_of_plain (hscenario : ¬IsScenario w) (hitem : ¬IsItem w) (a b : UInt16) :
    (ofWords w a b).word = w := by
  -- One test for each kind of choice, in the order of their words.
  refine word_ite (fun h => h.symm) fun _ => word_ite (fun _ => rfl) fun _ =>
    word_ite (fun _ => rfl) fun _ => word_ite (fun _ => rfl) fun _ =>
    word_ite (fun _ => ?_) fun hgauge => word_ite (fun hhigh => ?_) fun hlow =>
    word_ite (fun hhigh => ?_) fun _ => word_ite (fun _ => ?_) fun _ =>
    word_ite (fun _ => ?_) fun _ => word_ite (fun _ => ?_) fun _ =>
    word_ite (fun _ => rfl) fun _ => rfl
  · rcases hg : Gauge.ofCode? w with _ | g
    · rfl
    · exact Gauge.code_of_ofCode? hg
  -- Of the words between gauges and items only those of scenarios tell something.
  · rcases hs : Scenario.ofCode? (w &&& ~~~0x9c40) with _ | s
    · rfl
    · exact absurd ⟨UInt16.not_le.1 hgauge, hhigh, Scenario.exists_ofCode?.1 ⟨s, hs⟩⟩ hscenario
  · exact absurd ⟨UInt16.not_le.1 hlow, hhigh⟩ hitem
  · exact UInt16.add_sub_cancel w _
  · exact UInt16.sub_add_cancel w _
  · exact UInt16.add_sub_cancel w _

/-- The normal word is the one under which the choice is written that a word is read as. -/
theorem word_ofWords (w a b : UInt16) : (ofWords w a b).word = normalWord w := by
  unfold normalWord
  split_ifs with hscenario hitem
  · obtain ⟨s, hs, hread⟩ := ofWords_of_isScenario hscenario
    rw [hread, word, Scenario.code_of_ofCode? hs]
  · rw [ofWords_of_isItem hitem, word, UInt8.sub_add_cancel]
  · exact word_ofWords_of_plain hscenario hitem a b

/-! ## The bits of scenarios -/

/-- The bits of a word within a mask and those beside it make up the word. -/
theorem toNat_and_add_and_not (w mask : UInt16) :
    (w &&& mask).toNat + (w &&& ~~~mask).toNat = w.toNat := by
  have hapart : (w &&& mask).toBitVec &&& (w &&& ~~~mask).toBitVec = 0#16 := by
    ext i
    simp only [UInt16.toBitVec_and, UInt16.toBitVec_not, BitVec.getElem_and, BitVec.getElem_not]
    cases mask.toBitVec[i] <;> simp
  have hjoin : (w &&& mask).toBitVec ||| (w &&& ~~~mask).toBitVec = w.toBitVec := by
    ext i
    simp only [UInt16.toBitVec_and, UInt16.toBitVec_not, BitVec.getElem_or, BitVec.getElem_and,
      BitVec.getElem_not]
    cases mask.toBitVec[i] <;> simp
  calc (w &&& mask).toNat + (w &&& ~~~mask).toNat
    _ = ((w &&& mask).toBitVec + (w &&& ~~~mask).toBitVec).toNat :=
      (BitVec.toNat_add_of_and_eq_zero hapart).symm
    _ = w.toNat := by rw [BitVec.add_eq_or_of_and_eq_zero _ _ hapart, hjoin, UInt16.toNat_toBitVec]

/-- The word of the first scenario has none of the six lowest bits. So what a word shares with it is
a multiple of sixty-four, and the bits by which a scenario is known are the rest of the word. -/
theorem toNat_scenarioBits (w : UInt16) :
    64 * (w.toNat / 64 &&& 625) + (scenarioBits w).toNat = w.toNat := by
  -- The first word is 625 times sixty-four.
  have hhigh : (w &&& 0x9c40).toNat / 2 ^ 6 = w.toNat / 64 &&& 625 := by
    rw [UInt16.toNat_and, Nat.and_div_two_pow]
    rfl
  have hlow : (w &&& 0x9c40).toNat % 2 ^ 6 = 0 := by
    rw [UInt16.toNat_and, Nat.and_mod_two_pow]
    exact Nat.and_zero _
  have hparts := toNat_and_add_and_not w 0x9c40
  rw [← hhigh, scenarioBits]
  omega

/-! ## Normal words -/

/-- Under the code of a scenario there is a word that is read as it. -/
theorem isScenario_add {n : UInt16} (h : n < 11) :
    IsScenario (0x9c40 + n) ∧ scenarioBits (0x9c40 + n) = n := by
  rw [UInt16.lt_iff_toNat_lt] at h
  change n.toNat < 11 at h
  have hfirst : (0x9c40 : UInt16).toNat = 40000 := rfl
  have hsum : (0x9c40 + n).toNat = 40000 + n.toNat := by
    rw [UInt16.toNat_add]
    omega
  -- A code below eleven fits in the six lowest bits, and the others are those of the first word.
  have hsame : (0x9c40 + n).toNat / 64 = 625 := by omega
  have hparts := toNat_scenarioBits (0x9c40 + n)
  rw [hsame, Nat.and_self] at hparts
  have hbits : scenarioBits (0x9c40 + n) = n := UInt16.toNat_inj.1 (by omega)
  refine ⟨⟨?_, ?_, ?_⟩, hbits⟩
  · rw [UInt16.lt_iff_toNat_lt, hsum]
    change 30207 < _
    omega
  · rw [UInt16.le_iff_toNat_le, hsum]
    change _ ≤ 40191
    omega
  · rwa [hbits, UInt16.lt_iff_toNat_lt]

theorem toNat_add_low (b : UInt8) : (0xc300 + b.toUInt16).toNat = 49920 + b.toNat := by
  have hb := b.toNat_lt
  have hbase : (0xc300 : UInt16).toNat = 49920 := rfl
  rw [UInt16.toNat_add, UInt8.toNat_toUInt16, hbase]
  omega

/-- For each low byte there is a word of an item among the last. -/
theorem isItem_add (b : UInt8) :
    IsItem (0xc300 + b.toUInt16) ∧ (0xc300 + b.toUInt16).toUInt8 = b := by
  have hb := b.toNat_lt
  have hsum := toNat_add_low b
  have hfirst : (0x9cff : UInt16).toNat = 40191 := rfl
  have hlast : (0xc3ff : UInt16).toNat = 50175 := rfl
  refine ⟨⟨?_, ?_⟩, ?_⟩
  · rw [UInt16.lt_iff_toNat_lt]
    omega
  · rw [UInt16.le_iff_toNat_le]
    omega
  · rw [← UInt8.toNat_inj, UInt16.toNat_toUInt8, hsum]
    omega

/-- To read the normal word of a word is to read the word. -/
theorem ofWords_normalWord (w a b : UInt16) : ofWords (normalWord w) a b = ofWords w a b := by
  unfold normalWord
  split_ifs with hscenario hitem
  · obtain ⟨hnormal, hbits⟩ := isScenario_add hscenario.2.2
    obtain ⟨s, hs, hread⟩ := ofWords_of_isScenario hscenario
    obtain ⟨s', hs', hread'⟩ := ofWords_of_isScenario hnormal
    rw [hbits, hs, Option.some.injEq] at hs'
    rw [hread, hread', hs']
  · obtain ⟨hnormal, hlow⟩ := isItem_add w.toUInt8
    rw [ofWords_of_isItem hitem, ofWords_of_isItem hnormal, hlow]
  · rfl

/-- The word is read as a scenario or an item, but is not the word under which that is written. -/
def IsStray (w : UInt16) : Prop := IsScenario w ∧ w < 0x9c40 ∨ IsItem w ∧ w < 0xc300

/-- A word of a scenario is normal from that of the first scenario on. -/
theorem add_scenarioBits_eq_self_iff (h : IsScenario w) :
    0x9c40 + scenarioBits w = w ↔ ¬w < 0x9c40 := by
  have hbits : (scenarioBits w).toNat < 11 := UInt16.lt_iff_toNat_lt.1 h.2.2
  have hparts := toNat_scenarioBits w
  -- A word that has not all bits of the first one is a multiple of sixty-four short of it.
  have hle : w.toNat / 64 &&& 625 ≤ 625 := Nat.and_le_right
  have hfirst : (0x9c40 : UInt16).toNat = 40000 := rfl
  rw [← UInt16.toNat_inj, UInt16.toNat_add, UInt16.lt_iff_toNat_lt, hfirst]
  omega

/-- A word of an item is normal from the last two hundred and fifty-six on. -/
theorem add_low_eq_self_iff (h : IsItem w) : 0xc300 + w.toUInt8.toUInt16 = w ↔ ¬w < 0xc300 := by
  have hfirst : (0xc300 : UInt16).toNat = 49920 := rfl
  have hlast : (0xc3ff : UInt16).toNat = 50175 := rfl
  have hhigh := UInt16.le_iff_toNat_le.1 h.2
  rw [← UInt16.toNat_inj, toNat_add_low, UInt16.lt_iff_toNat_lt, UInt16.toNat_toUInt8]
  omega

/-- The stray words are those that are not normal. -/
theorem normalWord_eq_self_iff : normalWord w = w ↔ ¬IsStray w := by
  unfold normalWord IsStray
  split_ifs with hscenario hitem
  · have hapart : ¬IsItem w := fun hitem => UInt16.not_lt.2 hscenario.2.1 hitem.1
    rw [add_scenarioBits_eq_self_iff hscenario]
    simp [hscenario, hapart]
  · rw [add_low_eq_self_iff hitem]
    simp [hscenario, hitem]
  · simp [hscenario, hitem]

/--
Two stored choices are read as the same just if their words have the same normal word, and the
operands are read as the same. A word is its own normal word unless it is stray, so that two words
that are not stray are never confused.
-/
theorem ofWords_eq_iff (w a b w' a' b' : UInt16) :
    (ofWords w a b = ofWords w' a' b' ↔
      normalWord w = normalWord w' ∧ ofWords w a b = ofWords w a' b') ∧
    (normalWord w = w ↔ ¬IsStray w) := by
  refine ⟨⟨fun h => ?_, fun ⟨hword, hoperands⟩ => ?_⟩, normalWord_eq_self_iff⟩
  · have hword : normalWord w = normalWord w' := by
      rw [← word_ofWords w a b, h, word_ofWords]
    refine ⟨hword, ?_⟩
    rw [h, ← ofWords_normalWord w', ← hword, ofWords_normalWord]
  · rw [hoperands, ← ofWords_normalWord, hword, ofWords_normalWord]

/-- A word far below that of the first scenario is read as the third of them, and a word below that
of the first item as rations. -/
theorem ofWords_stray :
    ofWords 0x8002 0 0 = ofWords 0x9c42 0 0 ∧ (0x8002 : UInt16) ≠ 0x9c42 ∧
      ofWords 0xc256 1 0 = ofWords 0xc356 1 0 ∧ (0xc256 : UInt16) ≠ 0xc356 := by decide

end Choice

end QuestLogic
