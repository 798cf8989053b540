import Mathlib.Data.List.Basic
import Mathlib.Data.UInt

/-! # Base64

Three bytes are written as four characters of six bits each. The last group may be shorter. It is
filled up with equals signs or not, and the bits that are left over have to be zero.
-/
namespace KubeAir.Wire.Base64

/-- The characters for the numbers up to 63, and whether the last group is filled up. -/
structure Engine where
  alphabet : List Char
  padded : Bool
  nodup : alphabet.Nodup
  length_alphabet : alphabet.length = 64
  pad_notMem : '=' ∉ alphabet

def alphanumeric : List Char := "ABCDEFGHIJKLMNOPQRSTUVWXYZabcdefghijklmnopqrstuvwxyz0123456789".toList

def standard : Engine where
  alphabet := alphanumeric ++ ['+','/']
  padded := true
  nodup := by decide +kernel
  length_alphabet := by decide +kernel
  pad_notMem := by decide +kernel

def urlSafeNoPad : Engine where
  alphabet := alphanumeric ++ ['-','_']
  padded := false
  nodup := by decide +kernel
  length_alphabet := by decide +kernel
  pad_notMem := by decide +kernel

/-! The bytes of a group of four numbers of six bits. -/

def firstByte (x y : ℕ) : UInt8 := UInt8.ofNat (x * 4 + y / 16)

def secondByte (y z : ℕ) : UInt8 := UInt8.ofNat (y % 16 * 16 + z / 4)

def thirdByte (z w : ℕ) : UInt8 := UInt8.ofNat (z % 4 * 64 + w)

namespace Engine
variable (e : Engine)

/-- The character for six bits. -/
def digit (n : ℕ) : Char := e.alphabet[n]?.getD '='

/-- The six bits of a character. -/
def value (c : Char) : Option ℕ := e.alphabet.findIdx? (· = c)

/-- The characters for one byte or two. -/
def shortGroup : List UInt8 → List Char
  | [a] => [e.digit (a.toNat / 4),e.digit (a.toNat % 4 * 16)]
  | [a,b] => [e.digit (a.toNat / 4),e.digit (a.toNat % 4 * 16 + b.toNat / 16),e.digit (b.toNat % 16 * 4)]
  | _ => []

def encode : List UInt8 → List Char
  | a :: b :: c :: rest =>
    e.digit (a.toNat / 4) :: e.digit (a.toNat % 4 * 16 + b.toNat / 16) :: e.digit (b.toNat % 16 * 4 + c.toNat / 64) ::
      e.digit (c.toNat % 64) :: encode rest
  | [] => []
  | bs => e.shortGroup bs ++ if e.padded then List.replicate (3 - bs.length) '=' else []

/-- The bytes of two characters or three. -/
def decodeShort : List Char → Option (List UInt8)
  | [a,b] => do
    let x ← e.value a
    let y ← e.value b
    if y % 16 = 0 then some [firstByte x y] else none
  | [a,b,c] => do
    let x ← e.value a
    let y ← e.value b
    let z ← e.value c
    if z % 4 = 0 then some [firstByte x y,secondByte y z] else none
  | _ => none

def decode : List Char → Option (List UInt8)
  | a :: b :: c :: d :: rest =>
    if e.padded ∧ d = '=' ∧ rest = [] then e.decodeShort (if c = '=' then [a,b] else [a,b,c])
    else do
      let x ← e.value a
      let y ← e.value b
      let z ← e.value c
      let w ← e.value d
      let tail ← decode rest
      some (firstByte x y :: secondByte y z :: thirdByte z w :: tail)
  | [] => some []
  | cs => if e.padded then none else e.decodeShort cs

variable {e}

section Digits
variable {n : ℕ} {c : Char}

theorem value_eq_some : e.value c = some n ↔ n < 64 ∧ e.digit n = c := by
  have hlength := e.length_alphabet
  simp only [value,List.findIdx?_eq_some_iff_getElem,decide_eq_true_eq,digit]
  constructor
  · rintro ⟨hlt,hget,-⟩
    exact ⟨hlength ▸ hlt,by simp [List.getElem?_eq_getElem hlt,hget]⟩
  · rintro ⟨hlt,hget⟩
    have hlt' : n < e.alphabet.length := hlength.symm ▸ hlt
    rw [List.getElem?_eq_getElem hlt',Option.getD_some] at hget
    refine ⟨hlt',hget,fun j hj => ?_⟩
    rw [← hget]
    intro heq
    have := (e.nodup.getElem_inj_iff).mp heq
    omega

theorem value_digit (h : n < 64) : e.value (e.digit n) = some n := value_eq_some.mpr ⟨h,rfl⟩

theorem digit_mem (h : n < 64) : e.digit n ∈ e.alphabet := by
  have hlt : n < e.alphabet.length := e.length_alphabet.symm ▸ h
  rw [digit,List.getElem?_eq_getElem hlt]
  exact List.getElem_mem hlt

theorem digit_ne_pad (h : n < 64) : e.digit n ≠ '=' := by
  intro heq
  exact e.pad_notMem (heq ▸ digit_mem h)

end Digits

/-! ## Groups -/

section Groups
variable {a b c : UInt8} {n x y z w : ℕ} {cs : List Char} {bs : List UInt8}

theorem firstByte_digits (h : n < 16) : firstByte (a.toNat / 4) (a.toNat % 4 * 16 + n) = a := by
  have ha := a.toNat_lt
  have heq : a.toNat / 4 * 4 + (a.toNat % 4 * 16 + n) / 16 = a.toNat := by omega
  rw [firstByte,heq,UInt8.ofNat_toNat]

theorem secondByte_digits (x : ℕ) (h : n < 4) : secondByte (x * 16 + b.toNat / 16) (b.toNat % 16 * 4 + n) = b := by
  have hb := b.toNat_lt
  have heq : (x * 16 + b.toNat / 16) % 16 * 16 + (b.toNat % 16 * 4 + n) / 4 = b.toNat := by omega
  rw [secondByte,heq,UInt8.ofNat_toNat]

theorem thirdByte_digits (x : ℕ) : thirdByte (x * 4 + c.toNat / 64) (c.toNat % 64) = c := by
  have hc := c.toNat_lt
  have heq : (x * 4 + c.toNat / 64) % 4 * 64 + c.toNat % 64 = c.toNat := by omega
  rw [thirdByte,heq,UInt8.ofNat_toNat]

theorem toNat_firstByte (hx : x < 64) (hy : y < 64) : (firstByte x y).toNat = x * 4 + y / 16 := by
  rw [firstByte,UInt8.toNat_ofNat']
  omega

theorem toNat_secondByte (hz : z < 64) : (secondByte y z).toNat = y % 16 * 16 + z / 4 := by
  rw [secondByte,UInt8.toNat_ofNat']
  omega

theorem toNat_thirdByte (hw : w < 64) : (thirdByte z w).toNat = z % 4 * 64 + w := by
  rw [thirdByte,UInt8.toNat_ofNat']
  omega

theorem decodeShort_one (a : UInt8) : e.decodeShort (e.shortGroup [a]) = some [a] := by
  have ha := a.toNat_lt
  have h₁ : a.toNat / 4 < 64 := by omega
  have h₂ : a.toNat % 4 * 16 < 64 := by omega
  have hbits : a.toNat % 4 * 16 % 16 = 0 := by omega
  have hbyte : firstByte (a.toNat / 4) (a.toNat % 4 * 16) = a := firstByte_digits (n := 0) (by omega)
  simp [shortGroup,decodeShort,value_digit h₁,value_digit h₂,hbits,hbyte]

theorem decodeShort_two (a b : UInt8) : e.decodeShort (e.shortGroup [a,b]) = some [a,b] := by
  have ha := a.toNat_lt
  have hb := b.toNat_lt
  have h₁ : a.toNat / 4 < 64 := by omega
  have h₂ : a.toNat % 4 * 16 + b.toNat / 16 < 64 := by omega
  have h₃ : b.toNat % 16 * 4 < 64 := by omega
  have hbits : b.toNat % 16 * 4 % 4 = 0 := by omega
  have hbyte : firstByte (a.toNat / 4) (a.toNat % 4 * 16 + b.toNat / 16) = a := firstByte_digits (by omega)
  have hbyte' : secondByte (a.toNat % 4 * 16 + b.toNat / 16) (b.toNat % 16 * 4) = b := secondByte_digits (n := 0) _ (by omega)
  simp [shortGroup,decodeShort,value_digit h₁,value_digit h₂,value_digit h₃,hbits,hbyte,hbyte']

/-- One byte is read from two characters, two from three. -/
theorem shortGroup_of_decodeShort (h : e.decodeShort cs = some bs) :
    e.shortGroup bs = cs ∧ ((∃ a, bs = [a]) ∨ ∃ a b, bs = [a,b]) := by
  match cs with
  | [] => cases h
  | [_] => cases h
  | [a,b] =>
    simp only [decodeShort,Option.bind_eq_bind,Option.bind_eq_some_iff] at h
    obtain ⟨x,hx,y,hy,hlast⟩ := h
    obtain ⟨hx',rfl⟩ := value_eq_some.mp hx
    obtain ⟨hy',rfl⟩ := value_eq_some.mp hy
    split at hlast
    · next hbits =>
      obtain rfl := Option.some.inj hlast
      have hfirst := toNat_firstByte hx' hy'
      have h₁ : (firstByte x y).toNat / 4 = x := by omega
      have h₂ : (firstByte x y).toNat % 4 * 16 = y := by omega
      exact ⟨by simp [shortGroup,h₁,h₂],.inl ⟨_,rfl⟩⟩
    · cases hlast
  | [a,b,c] =>
    simp only [decodeShort,Option.bind_eq_bind,Option.bind_eq_some_iff] at h
    obtain ⟨x,hx,y,hy,z,hz,hlast⟩ := h
    obtain ⟨hx',rfl⟩ := value_eq_some.mp hx
    obtain ⟨hy',rfl⟩ := value_eq_some.mp hy
    obtain ⟨hz',rfl⟩ := value_eq_some.mp hz
    split at hlast
    · next hbits =>
      obtain rfl := Option.some.inj hlast
      have hfirst := toNat_firstByte hx' hy'
      have hsecond := toNat_secondByte (y := y) hz'
      have h₁ : (firstByte x y).toNat / 4 = x := by omega
      have h₂ : (firstByte x y).toNat % 4 * 16 + (secondByte y z).toNat / 16 = y := by omega
      have h₃ : (secondByte y z).toNat % 16 * 4 = z := by omega
      exact ⟨by simp [shortGroup,h₁,h₂,h₃],.inr ⟨_,_,rfl⟩⟩
    · cases hlast
  | _ :: _ :: _ :: _ :: _ => cases h

end Groups

/-! ## Round trips -/

section RoundTrip
variable {cs : List Char} {bs : List UInt8}

theorem decode_encode (e : Engine) (bs : List UInt8) : e.decode (e.encode bs) = some bs := by
  induction bs using Engine.encode.induct with
  | case1 a b c rest ih =>
    have ha := a.toNat_lt
    have hb := b.toNat_lt
    have hc := c.toNat_lt
    have h₁ : a.toNat / 4 < 64 := by omega
    have h₂ : a.toNat % 4 * 16 + b.toNat / 16 < 64 := by omega
    have h₃ : b.toNat % 16 * 4 + c.toNat / 64 < 64 := by omega
    have h₄ : c.toNat % 64 < 64 := by omega
    have hbyte : firstByte (a.toNat / 4) (a.toNat % 4 * 16 + b.toNat / 16) = a := firstByte_digits (by omega)
    have hbyte' : secondByte (a.toNat % 4 * 16 + b.toNat / 16) (b.toNat % 16 * 4 + c.toNat / 64) = b :=
      secondByte_digits _ (by omega)
    have hbyte'' : thirdByte (b.toNat % 16 * 4 + c.toNat / 64) (c.toNat % 64) = c := thirdByte_digits _
    simp [encode,decode,value_digit h₁,value_digit h₂,value_digit h₃,value_digit h₄,digit_ne_pad h₄,ih,hbyte,hbyte',hbyte'']
  | case2 => rfl
  | case3 bs hlong hnil =>
    match bs with
    | [] => exact absurd rfl hnil
    | [a] =>
      have hshort := decodeShort_one (e := e) a
      cases hpadded : e.padded <;> simpa [encode,decode,hpadded,shortGroup] using hshort
    | [a,b] =>
      have hb := b.toNat_lt
      have h₃ : b.toNat % 16 * 4 < 64 := by omega
      have hshort := decodeShort_two (e := e) a b
      cases hpadded : e.padded <;> simpa [encode,decode,hpadded,shortGroup,digit_ne_pad h₃] using hshort
    | _ :: _ :: _ :: _ => exact absurd rfl (hlong _ _ _ _)

theorem mem_shortGroup {c : Char} (h : c ∈ e.shortGroup bs) : c ∈ e.alphabet := by
  match bs with
  | [] => cases h
  | [a] =>
    have ha := a.toNat_lt
    simp only [shortGroup,List.mem_cons,List.not_mem_nil,or_false] at h
    rcases h with rfl | rfl
    · exact digit_mem (by omega)
    · exact digit_mem (by omega)
  | [a,b] =>
    have ha := a.toNat_lt
    have hb := b.toNat_lt
    simp only [shortGroup,List.mem_cons,List.not_mem_nil,or_false] at h
    rcases h with rfl | rfl | rfl
    · exact digit_mem (by omega)
    · exact digit_mem (by omega)
    · exact digit_mem (by omega)
  | _ :: _ :: _ :: _ => cases h

/-- Only digits are written, and the signs that fill up. -/
theorem mem_encode {c : Char} (h : c ∈ e.encode bs) : c ∈ e.alphabet ∨ e.padded = true ∧ c = '=' := by
  induction bs using Engine.encode.induct with
  | case1 a b d rest ih =>
    have ha := a.toNat_lt
    have hb := b.toNat_lt
    have hd := d.toNat_lt
    simp only [encode,List.mem_cons] at h
    rcases h with rfl | rfl | rfl | rfl | h
    · exact .inl (digit_mem (by omega))
    · exact .inl (digit_mem (by omega))
    · exact .inl (digit_mem (by omega))
    · exact .inl (digit_mem (by omega))
    · exact ih h
  | case2 => cases h
  | case3 bs hlong hnil =>
    rw [encode.eq_3 e bs hlong hnil,List.mem_append] at h
    rcases h with hshort | hfill
    · exact .inl (mem_shortGroup hshort)
    · split at hfill
      · next hpadded => exact .inr ⟨hpadded,List.eq_of_mem_replicate hfill⟩
      · cases hfill

/-- Every text that is read is the one that is written. -/
theorem encode_of_decode (h : e.decode cs = some bs) : e.encode bs = cs := by
  induction cs using Engine.decode.induct (e := e) generalizing bs with
  | case1 a b c d rest hlast =>
    rw [decode,if_pos hlast] at h
    obtain ⟨hpadded,rfl,rfl⟩ := hlast
    obtain ⟨hshort,⟨a',rfl⟩ | ⟨a',b',rfl⟩⟩ := shortGroup_of_decodeShort h
    · split at hshort
      · next hc => simp [encode,hpadded,hshort,hc]
      · simp [shortGroup] at hshort
    · split at hshort
      · simp [shortGroup] at hshort
      · simp [encode,hpadded,hshort]
  | case2 a b c d rest hmore ih =>
    rw [decode,if_neg hmore] at h
    simp only [Option.bind_eq_bind,Option.bind_eq_some_iff] at h
    obtain ⟨x,hx,y,hy,z,hz,w,hw,tail,htail,hbytes⟩ := h
    obtain rfl := Option.some.inj hbytes
    obtain ⟨hx',rfl⟩ := value_eq_some.mp hx
    obtain ⟨hy',rfl⟩ := value_eq_some.mp hy
    obtain ⟨hz',rfl⟩ := value_eq_some.mp hz
    obtain ⟨hw',rfl⟩ := value_eq_some.mp hw
    have hfirst := toNat_firstByte hx' hy'
    have hsecond := toNat_secondByte (y := y) hz'
    have hthird := toNat_thirdByte (z := z) hw'
    have h₁ : (firstByte x y).toNat / 4 = x := by omega
    have h₂ : (firstByte x y).toNat % 4 * 16 + (secondByte y z).toNat / 16 = y := by omega
    have h₃ : (secondByte y z).toNat % 16 * 4 + (thirdByte z w).toNat / 64 = z := by omega
    have h₄ : (thirdByte z w).toNat % 64 = w := by omega
    simp [encode,h₁,h₂,h₃,h₄,ih htail]
  | case3 =>
    obtain rfl := Option.some.inj h
    rfl
  | case4 cs hlong hnil hpadded =>
    rw [decode.eq_3 e cs hlong hnil,if_pos hpadded] at h
    cases h
  | case5 cs hlong hnil hpadded =>
    rw [decode.eq_3 e cs hlong hnil,if_neg hpadded] at h
    obtain ⟨hshort,⟨a,rfl⟩ | ⟨a,b,rfl⟩⟩ := shortGroup_of_decodeShort h
    · simp [encode,hpadded,hshort]
    · simp [encode,hpadded,hshort]

end RoundTrip
end Engine
end KubeAir.Wire.Base64
