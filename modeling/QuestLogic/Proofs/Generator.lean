import Mathlib.Data.FinEnum
import Mathlib.Data.Set.Function
import Mathlib.Logic.Function.Iterate
import QuestLogic.Proofs.Random

/-!
# The generator never runs dry

A generator that came to the state zero would stay there and answer all requests alike. It does not:
no step of it loses anything of the state (`RandomSource.shift_injective`), and zero is a step away
from nothing but itself, so that a step permutes the other states (`RandomSource.bijOn_shift`). Two
generators that start apart therefore stay apart (`RandomSource.after_eq_iff`), and each number that
is drawn is the exact sum that it is meant to be, also over the range of all numbers, whose length
takes 33 bits (`RandomSource.drawsExactly`).
-/

namespace QuestLogic.RandomSource

/-! ## Words mixed with a shifted copy of themselves -/

section Words

variable {w k : Nat} {x y : BitVec w}

/-- A word mixed with what shifting it to the left makes of it. -/
def mixLeft (k : Nat) (x : BitVec w) : BitVec w := x ^^^ x <<< k

/-- A word mixed with what shifting it to the right makes of it. -/
def mixRight (k : Nat) (x : BitVec w) : BitVec w := x ^^^ x >>> k

/-- A word that shifting to the left does not change is zero: shifted again and again it loses all
its bits. -/
theorem eq_zero_of_shiftLeft_eq (hk : 0 < k) (h : x <<< k = x) : x = 0#w := by
  have hagain : ∀ n, x <<< (k * n) = x := by
    intro n
    induction n with
    | zero => rw [Nat.mul_zero, BitVec.shiftLeft_zero]
    | succ n ih => rw [Nat.mul_succ, BitVec.shiftLeft_add, ih, h]
  calc x = x <<< (k * w) := (hagain w).symm
    _ = 0#w := BitVec.shiftLeft_eq_zero (Nat.le_mul_of_pos_left w hk)

theorem eq_zero_of_shiftRight_eq (hk : 0 < k) (h : x >>> k = x) : x = 0#w := by
  have hagain : ∀ n, x >>> (k * n) = x := by
    intro n
    induction n with
    | zero => rw [Nat.mul_zero, BitVec.ushiftRight_zero]
    | succ n ih => rw [Nat.mul_succ, BitVec.shiftRight_add, ih, h]
  calc x = x >>> (k * w) := (hagain w).symm
    _ = 0#w := BitVec.ushiftRight_eq_zero (Nat.le_mul_of_pos_left w hk)

/-- If two words come out alike from being mixed with what `f` makes of them, then `f` leaves the
word of the bits in which they differ as it is. -/
theorem fixed_of_xor_eq {f : BitVec w → BitVec w} (hf : ∀ x y, f (x ^^^ y) = f x ^^^ f y)
    (h : x ^^^ f x = y ^^^ f y) : f (x ^^^ y) = x ^^^ y := by
  rw [hf, ← BitVec.xor_eq_zero_iff]
  calc f x ^^^ f y ^^^ (x ^^^ y) = x ^^^ f x ^^^ (y ^^^ f y) := by ac_rfl
    _ = 0#w := by rw [h, BitVec.xor_self]

theorem mixLeft_injective (hk : 0 < k) : Function.Injective (mixLeft (w := w) k) := by
  intro x y h
  have hfixed := fixed_of_xor_eq (f := (· <<< k))
    (fun x y => BitVec.shiftLeft_xor_distrib x y k) h
  exact BitVec.xor_eq_zero_iff.1 (eq_zero_of_shiftLeft_eq hk hfixed)

theorem mixRight_injective (hk : 0 < k) : Function.Injective (mixRight (w := w) k) := by
  intro x y h
  have hfixed := fixed_of_xor_eq (f := (· >>> k))
    (fun x y => BitVec.ushiftRight_xor_distrib x y k) h
  exact BitVec.xor_eq_zero_iff.1 (eq_zero_of_shiftRight_eq hk hfixed)

end Words

/-! ## One step -/

/-- The bits of the state are mixed three times. -/
theorem toBitVec_shift (x : UInt64) :
    (shift x).toBitVec = mixLeft 17 (mixRight 7 (mixLeft 13 x.toBitVec)) := by
  simp [shift, mixLeft, mixRight]

/-- A step loses nothing of the state. -/
theorem shift_injective : Function.Injective shift := by
  intro x y h
  have hlast : mixLeft 17 (mixRight 7 (mixLeft 13 x.toBitVec)) =
      mixLeft 17 (mixRight 7 (mixLeft 13 y.toBitVec)) := by
    rw [← toBitVec_shift, ← toBitVec_shift, h]
  have hsecond := mixLeft_injective (by decide) hlast
  have hfirst := mixRight_injective (by decide) hsecond
  exact UInt64.toBitVec_inj.1 (mixLeft_injective (by decide) hfirst)

theorem shift_zero : shift 0 = 0 := rfl

/-- A step permutes the states other than zero. -/
theorem bijOn_shift : Set.BijOn shift {0}ᶜ {0}ᶜ := by
  have hzero : Set.BijOn shift {0} {0} := Set.bijOn_singleton.2 shift_zero
  exact hzero.compl ⟨shift_injective, Finite.injective_iff_surjective.1 shift_injective⟩

theorem iterate_shift_ne_zero (n : Nat) {state : UInt64} (h : state ≠ 0) : shift^[n] state ≠ 0 :=
  (bijOn_shift.iterate n).mapsTo h

/-! ## Requests one after the other -/

/-- What a generator is asked for. -/
inductive Request where
  /-- Its next state, all 64 bits of it. -/
  | raw
  /-- A number from `lo` to `hi`. -/
  | between (lo hi : UInt32)

/-- The steps that a generator takes for a request: none if there is but one number to choose. -/
def Request.steps : Request → Nat
  | .raw => 1
  | .between lo hi => if hi ≤ lo then 0 else 1

/-- A source after a request. Only a generator has a state to show. -/
def Request.serve : Request → RandomSource → RandomSource
  | .raw, .shifting state => .shifting (shift state)
  | .raw, source => source
  | .between lo hi, source => (source.draw lo hi).2

/-- A source after some requests, the first of them first. -/
def after (source : RandomSource) (requests : List Request) : RandomSource :=
  requests.foldl (fun source request => request.serve source) source

/-- The steps that a generator takes for some requests. -/
def stepsFor (requests : List Request) : Nat := (requests.map Request.steps).sum

/-- A request moves a generator on by its steps and does nothing else to it. -/
theorem serve_shifting (request : Request) (state : UInt64) :
    request.serve (.shifting state) = .shifting (shift^[request.steps] state) := by
  cases request with
  | raw => rfl
  | between lo hi =>
    unfold Request.serve Request.steps draw
    dsimp only
    split_ifs <;> rfl

theorem after_shifting (requests : List Request) (state : UInt64) :
    (shifting state).after requests = .shifting (shift^[stepsFor requests] state) := by
  induction requests generalizing state with
  | nil => rfl
  | cons request rest ih =>
    calc (shifting state).after (request :: rest)
        = (request.serve (.shifting state)).after rest := rfl
      _ = .shifting (shift^[stepsFor rest] (shift^[request.steps] state)) := by
          rw [serve_shifting, ih]
      _ = .shifting (shift^[stepsFor (request :: rest)] state) := by
          rw [← Function.iterate_add_apply, Nat.add_comm]
          rfl

/-- Two seeds start a generator in the same state: either they are the same, or one is the zero
that stands for one and the other is one. -/
def SameStart (a b : UInt64) : Prop := a = b ∨ a = 0 ∧ b = 1 ∨ a = 1 ∧ b = 0

theorem ofSeed_eq_iff (a b : UInt64) : ofSeed a = ofSeed b ↔ SameStart a b := by
  unfold ofSeed SameStart
  rw [shifting.injEq]
  split_ifs with ha hb hb
  · simp [ha, hb]
  · simp [ha, hb, eq_comm]
  · simp [ha, hb]
  · simp [ha, hb]

theorem exists_ofSeed (seed : UInt64) : ∃ state ≠ 0, ofSeed seed = .shifting state := by
  unfold ofSeed
  split_ifs with h
  · exact ⟨1, by decide, rfl⟩
  · exact ⟨seed, h, rfl⟩

/-- Generators that have taken equally many steps are in the same state only if they were so when
they started. -/
theorem after_eq_iff {a b : UInt64} {us vs : List Request} (h : stepsFor us = stepsFor vs) :
    (ofSeed a).after us = (ofSeed b).after vs ↔ SameStart a b := by
  obtain ⟨s, -, ha⟩ := exists_ofSeed a
  obtain ⟨t, -, hb⟩ := exists_ofSeed b
  rw [← ofSeed_eq_iff, ha, hb, after_shifting, after_shifting, h, shifting.injEq, shifting.injEq]
  exact (shift_injective.iterate _).eq_iff

/-- The state zero is not reached from any seed. -/
theorem exists_after (seed : UInt64) (requests : List Request) :
    ∃ state ≠ 0, (ofSeed seed).after requests = .shifting state := by
  obtain ⟨s, hs, hseed⟩ := exists_ofSeed seed
  exact ⟨_, iterate_shift_ne_zero _ hs, by rw [hseed, after_shifting]⟩

/-! ## Exact numbers -/

/-- A generator in the given state answers with the lower bound and what the length of the range
leaves over of its next state, and no word on the way is too short for what is computed in it. -/
structure DrawsExactly (lo hi : UInt32) (state : UInt64) : Prop where
  /-- The length of the range is exact, also that of all numbers, which takes 33 bits. -/
  length : ((hi - lo).toUInt64 + 1).toNat = hi.toNat - lo.toNat + 1
  /-- What it leaves over fits into 32 bits, also when the lower bound is added. -/
  fits : lo.toNat + (shift state % ((hi - lo).toUInt64 + 1)).toNat < 2 ^ 32
  /-- The answer is that sum. -/
  answer : ((shifting state).draw lo hi).1.toNat =
    lo.toNat + (shift state).toNat % (hi.toNat - lo.toNat + 1)
  /-- It is of the range. -/
  within : (shifting state).Within lo hi

theorem draw_shifting {lo hi : UInt32} (h : lo < hi) (state : UInt64) :
    (shifting state).draw lo hi =
      (lo + (shift state % ((hi - lo).toUInt64 + 1)).toUInt32, shifting (shift state)) :=
  if_neg (UInt32.not_le.2 h)

theorem drawsExactly {lo hi : UInt32} (h : lo < hi) (state : UInt64) :
    DrawsExactly lo hi state := by
  have hle : lo ≤ hi := UInt32.le_of_lt h
  have hlt : lo.toNat < hi.toNat := UInt32.lt_iff_toNat_lt.1 h
  have hhi : hi.toNat < 2 ^ 32 := hi.toNat_lt
  have hrest : (shift state).toNat % (hi.toNat - lo.toNat + 1) < hi.toNat - lo.toNat + 1 :=
    Nat.mod_lt _ (Nat.succ_pos _)
  refine ⟨toNat_span hle, ?_, ?_, within_shifting hle state⟩
  · rw [UInt64.toNat_mod, toNat_span hle]
    omega
  · rw [draw_shifting h, toNat_add_mod hle]

/-- A generator lasts: a step permutes the states other than zero, no seed ever leads to zero, only
seeds that start alike come together after equally many steps, and numbers are drawn exactly. -/
theorem generator_law :
    Set.BijOn shift {0}ᶜ {0}ᶜ ∧
      (∀ seed requests, ∃ state ≠ 0, (ofSeed seed).after requests = .shifting state) ∧
      (∀ a b us vs, stepsFor us = stepsFor vs →
        ((ofSeed a).after us = (ofSeed b).after vs ↔ SameStart a b)) ∧
      ∀ lo hi state, lo < hi → DrawsExactly lo hi state :=
  ⟨bijOn_shift, exists_after, fun _ _ _ _ h => after_eq_iff h, fun _ _ state h =>
    drawsExactly h state⟩

/-- Over the range of all numbers the answer is the lower half of the state. -/
example : ((ofSeed 0).draw 0 0xffffffff).1 = 0x40822041 := by decide

end QuestLogic.RandomSource
