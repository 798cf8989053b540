import Mathlib.Algebra.Ring.Nat
import Mathlib.Data.List.Basic

/-! # UTF-8 and byte offsets

Texts as characters, their bytes, and the slices of a text between two byte offsets, which exist
only where both offsets lie between characters. Bytes that are no text are decoded with a
replacement character for each longest start of a character that breaks off.
-/
namespace KubeAir.Wire.Utf8
variable {cs ds : List Char} {c : Char} {b : UInt8} {n : ℕ}

def utf8 (cs : List Char) : List UInt8 := cs.flatMap String.utf8EncodeChar

def size (cs : List Char) : ℕ := (cs.map Char.utf8Size).sum

@[simp] theorem utf8_nil : utf8 [] = [] := rfl

@[simp] theorem utf8_cons : utf8 (c :: cs) = String.utf8EncodeChar c ++ utf8 cs := List.flatMap_cons

theorem utf8_append : utf8 (cs ++ ds) = utf8 cs ++ utf8 ds := List.flatMap_append

@[simp] theorem size_nil : size [] = 0 := rfl

@[simp] theorem size_cons : size (c :: cs) = c.utf8Size + size cs := List.sum_cons

theorem size_append (cs ds : List Char) : size (cs ++ ds) = size cs + size ds := by
  unfold size
  rw [List.map_append,List.sum_append]

theorem length_utf8 (cs : List Char) : (utf8 cs).length = size cs := by
  induction cs with
  | nil => rfl
  | cons c cs ih => rw [utf8_cons,List.length_append,String.length_utf8EncodeChar,ih,size_cons]

/-- An ASCII byte stands for itself, and is no part of another character. -/
theorem utf8EncodeChar_of_mem (hb : b.toNat < 128) (h : b ∈ String.utf8EncodeChar c) :
    c.toNat = b.toNat ∧ String.utf8EncodeChar c = [b] := by
  have hhigh : ∀ x : ℕ, 128 ≤ x % 256 → b ≠ UInt8.ofNat x := by
    rintro x hx rfl
    rw [UInt8.toNat_ofNat'] at hb
    omega
  unfold String.utf8EncodeChar at h ⊢
  by_cases hone : c.val.toNat ≤ 0x7f
  · rw [if_pos hone] at h ⊢
    have hbc := List.mem_singleton.mp h
    refine ⟨?_,by rw [hbc]⟩
    rw [hbc,UInt8.toNat_ofNat']
    exact (Nat.mod_eq_of_lt (show c.val.toNat < 2 ^ 8 by omega)).symm
  · exfalso
    rw [if_neg hone] at h
    split at h
    · simp only [List.mem_cons,List.not_mem_nil,or_false] at h
      rcases h with h | h <;> exact hhigh _ (by omega) h
    · split at h
      · simp only [List.mem_cons,List.not_mem_nil,or_false] at h
        rcases h with h | h | h <;> exact hhigh _ (by omega) h
      · simp only [List.mem_cons,List.not_mem_nil,or_false] at h
        rcases h with h | h | h | h <;> exact hhigh _ (by omega) h

/-- Bytes of a text from an offset on are a text only if the offset lies between characters. -/
theorem exists_of_drop_utf8 {k : ℕ} (hk : k ≤ size cs) (h : (utf8 cs).drop k = utf8 ds) :
    ∃ pre rest, cs = pre ++ rest ∧ size pre = k := by
  induction cs generalizing k with
  | nil => exact ⟨[],[],rfl,(Nat.le_zero.mp hk).symm⟩
  | cons c cs ih =>
    rcases Nat.lt_or_ge k c.utf8Size with hlt | hge
    · rcases Nat.eq_zero_or_pos k with rfl | hpos
      · exact ⟨[],c :: cs,rfl,rfl⟩
      · -- within a character no byte starts one
        exfalso
        have hlength : k < (String.utf8EncodeChar c).length := by rwa [String.length_utf8EncodeChar]
        rw [utf8_cons,List.drop_append_of_le_length (Nat.le_of_lt hlength),List.drop_eq_getElem_cons hlength] at h
        cases ds with
        | nil => cases h
        | cons d ds =>
          have hd : 0 < (String.utf8EncodeChar d).length := by
            rw [String.length_utf8EncodeChar]
            exact Char.utf8Size_pos d
          rw [utf8_cons,← List.drop_zero (l := String.utf8EncodeChar d),List.drop_eq_getElem_cons hd] at h
          have hbyte := (List.cons.inj h).1
          have hfirst := (@UInt8.isUTF8FirstByte_getElem_utf8EncodeChar d 0 hd).mpr rfl
          rw [← hbyte] at hfirst
          have hzero := UInt8.isUTF8FirstByte_getElem_utf8EncodeChar.mp hfirst
          omega
    · have hlength : (String.utf8EncodeChar c).length ≤ k := by rwa [String.length_utf8EncodeChar]
      rw [size_cons] at hk
      rw [utf8_cons,List.drop_append,List.drop_of_length_le hlength,List.nil_append,String.length_utf8EncodeChar] at h
      obtain ⟨pre,rest,rfl,hpre⟩ := ih (by omega) h
      exact ⟨c :: pre,rest,rfl,by rw [size_cons]; omega⟩

/-- Splitting a text at a byte offset, which has to lie between characters. -/
def cut : List Char → ℕ → Option (List Char × List Char)
  | cs, 0 => some ([],cs)
  | [], _ + 1 => none
  | c :: cs, n + 1 =>
    if c.utf8Size ≤ n + 1 then (cut cs (n + 1 - c.utf8Size)).map (fun p => (c :: p.1,p.2)) else none

/-- `&s[start..]`. -/
def sliceFrom (cs : List Char) (start : ℕ) : Option (List Char) := (cut cs start).map (·.2)

/-- `&s[start..stop]`. -/
def slice (cs : List Char) (start stop : ℕ) : Option (List Char) := (cut cs stop).bind (fun p => sliceFrom p.1 start)

theorem cut_append (pre rest : List Char) : cut (pre ++ rest) (size pre) = some (pre,rest) := by
  induction pre with
  | nil =>
    unfold cut
    rfl
  | cons c pre ih =>
    obtain ⟨k,hk⟩ : ∃ k, c.utf8Size = k + 1 := ⟨c.utf8Size - 1,by have := Char.utf8Size_pos c; omega⟩
    have hsize : size (c :: pre) = (k + size pre) + 1 := by rw [size_cons,hk]; omega
    rw [hsize,List.cons_append,cut,if_pos (by omega)]
    have hrest : k + size pre + 1 - c.utf8Size = size pre := by omega
    rw [hrest,ih]
    rfl

theorem sliceFrom_append (pre rest : List Char) : sliceFrom (pre ++ rest) (size pre) = some rest := by
  rw [sliceFrom,cut_append]
  rfl

theorem slice_append (pre mid rest : List Char) :
    slice (pre ++ mid ++ rest) (size pre) (size (pre ++ mid)) = some mid := by
  rw [slice,cut_append,Option.bind_some,sliceFrom_append]

/-- The first byte of a text is a slice exactly when the first character is ASCII. -/
theorem slice_first : slice (c :: cs) 0 1 = if c.utf8Size = 1 then some [c] else none := by
  have hpos := Char.utf8Size_pos c
  have hcut : cut (c :: cs) 1 = if c.utf8Size = 1 then some ([c],cs) else none := by
    by_cases hone : c.utf8Size = 1
    · have h := cut_append [c] cs
      rw [size_cons,size_nil,hone] at h
      rw [if_pos hone]
      exact h
    · rw [if_neg hone,cut,if_neg (by omega)]
  rw [slice,hcut]
  split
  · exact sliceFrom_append [] [c]
  · rfl

/-! ## Decoding -/

/-- For the first byte of a character: how many follow, and where the second one lies. -/
def following (b : UInt8) : Option (ℕ × UInt8 × UInt8) :=
  if 0xC2 ≤ b ∧ b ≤ 0xDF then some (1,0x80,0xBF)
  else if b = 0xE0 then some (2,0xA0,0xBF)
  else if b = 0xED then some (2,0x80,0x9F)
  else if 0xE1 ≤ b ∧ b ≤ 0xEF then some (2,0x80,0xBF)
  else if b = 0xF0 then some (3,0x90,0xBF)
  else if 0xF1 ≤ b ∧ b ≤ 0xF3 then some (3,0x80,0xBF)
  else if b = 0xF4 then some (3,0x80,0x8F)
  else none

def replacement : Char := Char.ofNat 0xFFFD

/-- The rest of a character of which the bits so far are given. -/
def decodeRest : ℕ → ℕ → List UInt8 → Char × List UInt8
  | 0, bits, bs => (Char.ofNat bits,bs)
  | _ + 1, _, [] => (replacement,[])
  | n + 1, bits, b :: bs =>
    if 0x80 ≤ b ∧ b ≤ 0xBF then decodeRest n (bits * 64 + (b.toNat - 0x80)) bs else (replacement,b :: bs)

def decodeChar (b : UInt8) (bs : List UInt8) : Char × List UInt8 :=
  if b < 0x80 then (Char.ofNat b.toNat,bs)
  else
    match following b,bs with
    | some (n,low,high), c :: cs =>
      if low ≤ c ∧ c ≤ high then decodeRest (n - 1) (b.toNat % 2 ^ (6 - n) * 64 + (c.toNat - 0x80)) cs
      else (replacement,bs)
    | _, _ => (replacement,bs)

theorem length_decodeRest (n bits : ℕ) (bs : List UInt8) : (decodeRest n bits bs).2.length ≤ bs.length := by
  induction n generalizing bits bs with
  | zero => exact Nat.le_refl _
  | succ n ih =>
    cases bs with
    | nil => exact Nat.le_refl _
    | cons b bs =>
      rw [decodeRest]
      split
      · exact Nat.le_trans (ih _ bs) (Nat.le_succ _)
      · exact Nat.le_refl _

theorem length_decodeChar (b : UInt8) (bs : List UInt8) : (decodeChar b bs).2.length ≤ bs.length := by
  unfold decodeChar
  split
  · exact Nat.le_refl _
  · split
    · split
      · exact Nat.le_trans (length_decodeRest _ _ _) (Nat.le_succ _)
      · exact Nat.le_refl _
    · exact Nat.le_refl _

/-- `String::from_utf8_lossy`. -/
def fromUtf8Lossy : List UInt8 → List Char
  | [] => []
  | b :: bs => (decodeChar b bs).1 :: fromUtf8Lossy (decodeChar b bs).2
termination_by bs => bs.length
decreasing_by
  have := length_decodeChar b bs
  rw [List.length_cons]
  omega

end KubeAir.Wire.Utf8
