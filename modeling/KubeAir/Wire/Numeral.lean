import Mathlib.Algebra.Order.Field.Rat
import Mathlib.Tactic.Ring
import Mathlib.Tactic.FieldSimp

/-! # Decimal numerals

Signed decimal numerals with an optional fraction, as text and as the number they denote.
-/
namespace KubeAir.Wire

/-- A run of decimal digits, the most significant first. -/
abbrev Digits := List (Fin 10)

namespace Digits

def chars (ds : Digits) : List Char := ds.map (fun d => Nat.digitChar d.val)

def value (ds : Digits) : ℕ := ds.foldl (fun n d => 10 * n + d.val) 0

theorem isDigit_digitChar (d : Fin 10) : (Nat.digitChar d.val).isDigit = true := by
  revert d
  decide

theorem toNat_digitChar (d : Fin 10) : (Nat.digitChar d.val).toNat - 48 = d.val :=
  Nat.toNat_digitChar_sub_48_of_lt_ten d.isLt

theorem isDigit_of_mem_chars {ds : Digits} {c : Char} (h : c ∈ ds.chars) : c.isDigit = true := by
  obtain ⟨d,-,rfl⟩ := List.mem_map.mp h
  exact isDigit_digitChar d

@[simp] theorem chars_eq_nil {ds : Digits} : ds.chars = [] ↔ ds = [] := List.map_eq_nil_iff

/-- Reading the characters of a run of digits gives its value. -/
theorem foldl_chars (ds : Digits) : ds.chars.foldl (fun n c => 10 * n + (c.toNat - 48)) 0 = ds.value := by
  unfold chars value
  rw [List.foldl_map]
  exact congrArg (fun f => ds.foldl f 0) (funext (fun n => funext (fun d => by rw [toNat_digitChar])))

end Digits

/-! ## Natural numbers as text -/

section Printed
variable {n : ℕ} {c : Char}

theorem toList_toString (n : ℕ) : (toString n).toList = Nat.toDigits 10 n := by simp

theorem toList_toString_ne_nil (n : ℕ) : (toString n).toList ≠ [] := by simp

theorem isDigit_of_mem_toString (h : c ∈ (toString n).toList) : c.isDigit = true := by
  rw [toList_toString] at h
  exact Nat.isDigit_of_mem_toDigits (by decide) (by decide) h

theorem notMem_toString (h : c.isDigit = false) : c ∉ (toString n).toList := by
  intro hc
  have hdigit := isDigit_of_mem_toString hc
  simp [h] at hdigit

/-- A printed number is read as itself. -/
theorem foldl_toString (n : ℕ) : (toString n).toList.foldl (fun n c => 10 * n + (c.toNat - 48)) 0 = n := by
  rw [toList_toString]
  exact Nat.ofDigitChars_ten_toDigits

theorem toString_inj {m n : ℕ} (h : (toString m).toList = (toString n).toList) : m = n := by
  have hread := congrArg (List.foldl (fun n c => 10 * n + (c.toNat - 48)) 0) h
  rwa [foldl_toString,foldl_toString] at hread

end Printed

/-! ## Signs and fractions -/

inductive Sign
  | none
  | plus
  | minus
deriving DecidableEq

namespace Sign

def chars : Sign → List Char
  | none => []
  | plus => ['+']
  | minus => ['-']

def factor : Sign → ℤ
  | none => 1
  | plus => 1
  | minus => -1

end Sign

/-- A signed decimal numeral, with a digit on one side of the point at least. -/
structure Numeral where
  sign : Sign
  whole : Digits
  fraction : Option Digits
  digits : whole ≠ [] ∨ ∃ f, fraction = some f ∧ f ≠ []

namespace Numeral
variable {x : Numeral}

def fractionChars : Option Digits → List Char
  | none => []
  | some f => '.' :: f.chars

def chars (x : Numeral) : List Char := x.sign.chars ++ x.whole.chars ++ fractionChars x.fraction

/-- The integer in front of the point. -/
def integer (x : Numeral) : ℤ := x.sign.factor * x.whole.value

def fractionAmount : Option Digits → ℚ
  | none => 0
  | some f => f.value / 10 ^ f.length

def amount (x : Numeral) : ℚ := x.sign.factor * (x.whole.value + fractionAmount x.fraction)

theorem amount_of_whole (h : x.fraction = none) : x.amount = x.integer := by
  unfold amount integer
  rw [h]
  push_cast
  exact congrArg _ (add_zero _)

theorem whole_ne_nil (h : x.fraction = none) : x.whole ≠ [] := by
  rcases x.digits with hw | ⟨f,hf,-⟩
  · exact hw
  · rw [h] at hf
    cases hf

theorem point_mem_chars (h : x.fraction ≠ none) : '.' ∈ x.chars := by
  obtain ⟨f,hf⟩ := Option.ne_none_iff_exists'.mp h
  unfold chars
  rw [hf]
  exact List.mem_append_right _ List.mem_cons_self

theorem mem_chars {c : Char} (h : c ∈ x.chars) : c ∈ ['+','-','.'] ∨ c.isDigit = true := by
  unfold chars at h
  rcases List.mem_append.mp h with h | h
  · rcases List.mem_append.mp h with h | h
    · left
      cases hs : x.sign with
      | none =>
        rw [hs] at h
        exact absurd h List.not_mem_nil
      | plus =>
        rw [hs] at h
        rw [List.mem_singleton.mp h]
        decide
      | minus =>
        rw [hs] at h
        rw [List.mem_singleton.mp h]
        decide
    · exact .inr (Digits.isDigit_of_mem_chars h)
  · cases hf : x.fraction with
    | none =>
      rw [hf] at h
      exact absurd h List.not_mem_nil
    | some f =>
      rw [hf] at h
      rcases List.mem_cons.mp h with rfl | h
      · exact .inl (by decide)
      · exact .inr (Digits.isDigit_of_mem_chars h)

end Numeral

end KubeAir.Wire
