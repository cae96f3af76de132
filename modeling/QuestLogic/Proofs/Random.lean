import Mathlib.Data.UInt
import Mathlib.Tactic.SplitIfs
import QuestLogic.Random

/-!
# Rolls within their range

A generator and a script keep to the range they are asked for, whatever the state of the one and
whatever is written in the other (`RandomSource.within_shifting`, `RandomSource.within_scripted`).
-/

namespace QuestLogic.RandomSource

variable {lo hi : UInt32}

/-- A source answers a request with a number of its range. -/
def Within (lo hi : UInt32) (source : RandomSource) : Prop :=
  lo ≤ (source.draw lo hi).1 ∧ (source.draw lo hi).1 ≤ hi

/-- The length of a range is exact, since it is counted in 64 bits. -/
theorem toNat_span (h : lo ≤ hi) :
    ((hi - lo).toUInt64 + 1).toNat = hi.toNat - lo.toNat + 1 := by
  have hhi : hi.toNat < 2 ^ 32 := hi.toNat_lt
  rw [UInt64.toNat_add, UInt32.toNat_toUInt64, UInt32.toNat_sub_of_le _ _ h]
  exact Nat.mod_eq_of_lt (by change _ + 1 < _; omega)

/-- What is left over by the length of a range is within it, counted from its lower end. -/
theorem toNat_add_mod (h : lo ≤ hi) (n : UInt64) :
    (lo + (n % ((hi - lo).toUInt64 + 1)).toUInt32).toNat =
      lo.toNat + n.toNat % (hi.toNat - lo.toNat + 1) := by
  have hle : lo.toNat ≤ hi.toNat := UInt32.le_iff_toNat_le.1 h
  have hhi : hi.toNat < 2 ^ 32 := hi.toNat_lt
  have hrest : n.toNat % (hi.toNat - lo.toNat + 1) < hi.toNat - lo.toNat + 1 :=
    Nat.mod_lt _ (Nat.succ_pos _)
  rw [UInt32.toNat_add, UInt64.toNat_toUInt32, UInt64.toNat_mod, toNat_span h,
    Nat.mod_eq_of_lt (a := n.toNat % _) (by omega), Nat.mod_eq_of_lt (by omega)]

theorem within_shifting (h : lo ≤ hi) (state : UInt64) : (shifting state).Within lo hi := by
  unfold Within draw
  dsimp only
  split_ifs with hone
  · exact ⟨UInt32.le_refl lo, h⟩
  · have hle : lo.toNat ≤ hi.toNat := UInt32.le_iff_toNat_le.1 h
    have hrest : (shift state).toNat % (hi.toNat - lo.toNat + 1) < hi.toNat - lo.toNat + 1 :=
      Nat.mod_lt _ (Nat.succ_pos _)
    rw [UInt32.le_iff_toNat_le, UInt32.le_iff_toNat_le, toNat_add_mod h]
    omega

theorem within_scripted (h : lo ≤ hi) (values : List UInt32) (next : Nat) :
    (scripted values next).Within lo hi := by
  unfold Within draw
  dsimp only
  split
  · exact ⟨UInt32.le_refl lo, h⟩
  · rw [UInt32.le_iff_toNat_le] at h
    rw [UInt32.le_iff_toNat_le, UInt32.le_iff_toNat_le, UInt32.toNat_max, UInt32.toNat_min,
      UInt32.toNat_max]
    omega

end QuestLogic.RandomSource
