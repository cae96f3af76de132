import QuestLogic.Word

/-!
# Money

Money is counted in royals, ten to the sovereign. A purse neither overflows nor goes below zero:
sums stop at the largest 32-bit amount and differences at nothing.
-/

namespace QuestLogic

/-- An amount of money, in the smallest coin. -/
structure Royals where
  val : UInt32
deriving DecidableEq, Inhabited

namespace Royals

/-- The amount as a number. -/
def toNat (r : Royals) : Nat := r.val.toNat

/-- The amount of `n` royals, or the largest amount there is. -/
def ofNat (n : Nat) : Royals := ⟨nearest32 n⟩

/-- No money. -/
def none : Royals := ⟨0⟩

/-- Royals to the sovereign. -/
def perSovereign : Nat := 10

/-- The worth of a number of sovereigns. -/
def ofSovereigns (n : Nat) : Royals := ofNat (n * perSovereign)

/-- The whole sovereigns in an amount. -/
def sovereigns (r : Royals) : Nat := r.toNat / perSovereign

instance : Add Royals := ⟨fun a b => ofNat (a.toNat + b.toNat)⟩
instance : Sub Royals := ⟨fun a b => ofNat (a.toNat - b.toNat)⟩

/-- Both coins are named unless one of them is missing; nothing at all is `0 royals`. -/
instance : ToString Royals where
  toString r :=
    let whole := r.sovereigns
    let rest := r.toNat % perSovereign
    if whole = 0 then s!"{rest} royals"
    else if rest = 0 then s!"{whole} sovereigns"
    else s!"{whole} sovereigns and {rest} royals"

@[simp] theorem toNat_ofNat (n : Nat) : (ofNat n).toNat = min n 4294967295 := toNat_nearest32 n

/-- A sum of money stops at the largest amount. -/
@[simp] theorem toNat_add (a b : Royals) : (a + b).toNat = min (a.toNat + b.toNat) 4294967295 :=
  toNat_ofNat _

/-- A difference of money stops at nothing. -/
@[simp] theorem toNat_sub (a b : Royals) : (a - b).toNat = a.toNat - b.toNat := by
  have h : a.toNat < 2 ^ 32 := a.val.toNat_lt
  change (ofNat _).toNat = _
  rw [toNat_ofNat]
  omega

end Royals

end QuestLogic
