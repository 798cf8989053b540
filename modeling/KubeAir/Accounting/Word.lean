import Mathlib.Algebra.BigOperators.Group.List.Basic
import Mathlib.Algebra.Ring.Nat
import Mathlib.Data.Nat.Basic

/-! # Sums of machine words

Plain addition of 64-bit words wraps around and saturating subtraction stops at 0. A sum is
exact as long as the exact sum is a word; a difference is the truncated one.
-/
namespace KubeAir.Accounting

/-- `u64::saturating_sub`. -/
def saturatingSub (a b : UInt64) : UInt64 := if b ≤ a then a - b else 0

/-- `u64::saturating_mul`. -/
def saturatingMul (a b : UInt64) : UInt64 := if a.toNat * b.toNat < 2 ^ 64 then a * b else UInt64.ofNat (2 ^ 64 - 1)

theorem toNat_saturatingSub (a b : UInt64) : (saturatingSub a b).toNat = a.toNat - b.toNat := by
  unfold saturatingSub
  split
  · next h => rw [UInt64.toNat_sub_of_le _ _ h]
  · next h =>
    have hlt := UInt64.lt_iff_toNat_lt.mp (UInt64.not_le.mp h)
    rw [UInt64.toNat_zero]
    omega

theorem toNat_add_of_lt {a b : UInt64} (h : a.toNat + b.toNat < 2 ^ 64) : (a + b).toNat = a.toNat + b.toNat := by
  rw [UInt64.toNat_add,Nat.mod_eq_of_lt h]

section Folds
variable {α : Type*} (f : α → UInt64) (l : List α)

/-- The exact sum of words. -/
def exactSum : ℕ := (l.map (fun x => (f x).toNat)).sum

variable {f l} in
theorem exactSum_cons {x : α} : exactSum f (x :: l) = (f x).toNat + exactSum f l := by
  unfold exactSum
  rw [List.map_cons,List.sum_cons]

variable {f l} in
/-- Adding up words one by one. -/
theorem toNat_foldl_add {a : UInt64} (h : a.toNat + exactSum f l < 2 ^ 64) :
    (l.foldl (fun acc x => acc + f x) a).toNat = a.toNat + exactSum f l := by
  induction l generalizing a with
  | nil => rfl
  | cons x l ih =>
    rw [exactSum_cons] at h ⊢
    have hone : (a + f x).toNat = a.toNat + (f x).toNat := toNat_add_of_lt (by omega)
    rw [List.foldl_cons,ih (by omega)]
    omega

variable {f l} in
/-- A sum of words is the exact one but for multiples of the word size. -/
theorem toNat_foldl_add_mod (a : UInt64) :
    (l.foldl (fun acc x => acc + f x) a).toNat = (a.toNat + exactSum f l) % 2 ^ 64 := by
  induction l generalizing a with
  | nil => exact (Nat.mod_eq_of_lt a.toNat_lt).symm
  | cons x l ih =>
    rw [List.foldl_cons,ih,UInt64.toNat_add,Nat.mod_add_mod,exactSum_cons,Nat.add_assoc]

/-- Taking words off one by one. -/
theorem toNat_foldl_sub (a : UInt64) :
    (l.foldl (fun acc x => saturatingSub acc (f x)) a).toNat = a.toNat - exactSum f l := by
  induction l generalizing a with
  | nil => rfl
  | cons x l ih =>
    rw [List.foldl_cons,ih,toNat_saturatingSub,exactSum_cons]
    omega

end Folds
end KubeAir.Accounting
