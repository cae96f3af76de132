import Mathlib.Tactic.SplitIfs
import QuestLogic.Spell

/-!
# Spells in effect

The lasting spells in effect as a set: noting a spell changes whether it is in effect, and nothing
about any other.
-/

namespace QuestLogic.ActiveSpells

/-- A one moved to place `n` has just the bit `n`. -/
theorem getLsbD_one_shiftLeft {n : UInt16} (hn : n.toNat < 16) (j : Nat) :
    (1 <<< n : UInt16).toBitVec.getLsbD j = decide (n.toNat = j) := by
  have hlt : 2 ^ n.toNat < 2 ^ 16 := Nat.pow_lt_pow_right (by decide) hn
  rw [BitVec.getLsbD, UInt16.toNat_toBitVec, UInt16.toNat_shiftLeft, Nat.mod_eq_of_lt hn]
  rw [show UInt16.toNat 1 = 1 from rfl, Nat.one_shiftLeft, Nat.mod_eq_of_lt hlt,
    Nat.testBit_two_pow]

/-- Whether a spell is in effect is told by its bit. -/
theorem isActive_eq (a : ActiveSpells) {n : UInt16} (hn : n.toNat < 16) :
    a.isActive n = a.bits.toBitVec.getLsbD n.toNat := by
  -- What is left under the mask is the bit `n` and nothing else.
  have hbit : ∀ j, (a.bits &&& 1 <<< n).toBitVec.getLsbD j =
      (a.bits.toBitVec.getLsbD j && decide (n.toNat = j)) := fun j => by
    rw [UInt16.toBitVec_and, BitVec.getLsbD_and, getLsbD_one_shiftLeft hn]
  rw [isActive, decide_eq_true hn, Bool.true_and]
  cases h : a.bits.toBitVec.getLsbD n.toNat with
  | false =>
    refine decide_eq_false (not_not_intro (UInt16.toBitVec_inj.1 ?_))
    refine BitVec.eq_of_getLsbD_eq fun j _ => ?_
    rw [hbit]
    by_cases hj : n.toNat = j
    · rw [← hj, h]
      simp
    · simp [hj]
  | true =>
    refine decide_eq_true fun hzero => ?_
    have hn' := hbit n.toNat
    rw [hzero, h] at hn'
    simp at hn'

/-- No spell is in effect to begin with. -/
@[simp] theorem isActive_none (n : UInt16) : none.isActive n = false := by
  rw [isActive, none, UInt16.zero_and]
  exact Bool.and_false _

/-- Noting a spell changes whether it is in effect, and nothing about any other. -/
theorem isActive_set (a : ActiveSpells) {n : UInt16} (hn : n.toNat < 16) (k : UInt16) (on : Bool) :
    (a.set k on).isActive n = if k = n then on else a.isActive n := by
  unfold set
  by_cases hk : 16 ≤ k.toNat
  · have hne : k ≠ n := fun h => by
      rw [h] at hk
      omega
    rw [if_pos hk, if_neg hne]
  · have hbit := getLsbD_one_shiftLeft (Nat.lt_of_not_le hk) n.toNat
    rw [if_neg hk, isActive_eq a hn]
    cases on with
    | true =>
      rw [if_pos rfl, isActive_eq _ hn, UInt16.toBitVec_or, BitVec.getLsbD_or, hbit]
      by_cases h : k = n <;> simp [h, UInt16.toNat_inj]
    | false =>
      rw [if_neg (by decide), isActive_eq _ hn, UInt16.toBitVec_and, UInt16.toBitVec_not,
        BitVec.getLsbD_and, BitVec.getLsbD_not, hbit]
      by_cases h : k = n <;> simp [h, hn, UInt16.toNat_inj]

end QuestLogic.ActiveSpells
