import KubeAir.Wire.Utf8
import Mathlib.Data.UInt

/-! # Percent encoding

Bytes are written as two hexadecimal digits behind a percent sign, except those of letters, digits
and four marks. Decoding takes a plus sign for a space and a percent sign without digits for itself.
-/
namespace KubeAir.Wire.PercentEncoding
open Utf8
variable {b x y : UInt8} {bs rest : List UInt8} {cs : List Char} {c : Char} {n high low : ℕ}

/-! ## Bytes as characters -/

/-- Every byte as the character with its number. -/
def chars (bs : List UInt8) : List Char := bs.map (fun b => Char.ofNat b.toNat)

theorem toNat_ofNat_byte (b : UInt8) : (Char.ofNat b.toNat).toNat = b.toNat := by
  have hlt := b.toNat_lt
  unfold Char.ofNat
  rw [dif_pos (.inl (by omega))]
  rfl

theorem utf8EncodeChar_byte (hb : b.toNat < 128) : String.utf8EncodeChar (Char.ofNat b.toNat) = [b] := by
  have hval : (Char.ofNat b.toNat).val.toNat = b.toNat := toNat_ofNat_byte b
  unfold String.utf8EncodeChar
  rw [if_pos (by omega)]
  exact congrArg (fun b => [b]) (UInt8.toNat_inj.mp (by rw [UInt8.toNat_ofNat',hval]; exact Nat.mod_eq_of_lt b.toNat_lt))

/-- ASCII bytes are the bytes of their characters. -/
theorem utf8_chars (h : ∀ b ∈ bs, b.toNat < 128) : utf8 (chars bs) = bs := by
  induction bs with
  | nil => rfl
  | cons b bs ih =>
    obtain ⟨hb,hbs⟩ := List.forall_mem_cons.mp h
    rw [chars,List.map_cons,utf8_cons,utf8EncodeChar_byte hb,List.singleton_append]
    exact congrArg (b :: ·) (ih hbs)

theorem utf8EncodeChar_ascii (hc : c.toNat < 128) : String.utf8EncodeChar c = [UInt8.ofNat c.toNat] := by
  have hle : c.val.toNat ≤ 0x7f := Nat.le_of_lt_succ hc
  unfold String.utf8EncodeChar
  rw [if_pos hle]
  rfl

/-- A text with as many bytes as characters is ASCII. -/
theorem ascii_of_size (h : size cs = cs.length) : ∀ c ∈ cs, c.toNat < 128 := by
  have hle : ∀ ds : List Char, ds.length ≤ size ds := by
    intro ds
    induction ds with
    | nil => exact Nat.le_refl 0
    | cons d ds ih =>
      have hpos := Char.utf8Size_pos d
      rw [size_cons,List.length_cons]
      omega
  induction cs with
  | nil => exact fun c hc => by cases hc
  | cons d ds ih =>
    have hpos := Char.utf8Size_pos d
    have hrest := hle ds
    rw [size_cons,List.length_cons] at h
    have hone : d.utf8Size = 1 := by omega
    exact List.forall_mem_cons.mpr ⟨Nat.lt_succ_of_le (Char.utf8Size_eq_one_iff.mp hone),ih (by omega)⟩

/-- The bytes of a text are its characters exactly if the text is ASCII. -/
theorem chars_utf8_iff : chars (utf8 cs) = cs ↔ ∀ c ∈ cs, c.toNat < 128 := by
  constructor
  · intro h
    have hsize : size cs = cs.length := by
      rw [← length_utf8]
      conv_rhs => rw [← h]
      exact (List.length_map _).symm
    exact fun c hc => ascii_of_size hsize c hc
  · intro h
    induction cs with
    | nil => rfl
    | cons c cs ih =>
      obtain ⟨hc,hcs⟩ := List.forall_mem_cons.mp h
      rw [utf8_cons,utf8EncodeChar_ascii hc,List.singleton_append]
      refine congrArg₂ List.cons ?_ (ih hcs)
      dsimp only
      rw [UInt8.toNat_ofNat',Nat.mod_eq_of_lt (by omega),Char.ofNat_toNat]

/-! ## Digits -/

def hexDigit (n : ℕ) : UInt8 := UInt8.ofNat (if n < 10 then 48 + n else 55 + n)

/-- `char::to_digit(16)` of the character with the number of the byte. -/
def hexValue (b : UInt8) : Option ℕ :=
  if 48 ≤ b ∧ b ≤ 57 then some (b.toNat - 48)
  else if 65 ≤ b ∧ b ≤ 70 then some (b.toNat - 55)
  else if 97 ≤ b ∧ b ≤ 102 then some (b.toNat - 87)
  else none

theorem hexValue_hexDigit (h : n < 16) : hexValue (hexDigit n) = some n := by
  have hall : ∀ n < 16, hexValue (hexDigit n) = some n := by decide
  exact hall n h

/-! ## Encoding -/

def percent : UInt8 := 37

def plus : UInt8 := 43

/-- Letters, digits, and the marks `-`, `.`, `_` and `~`. -/
def unreserved (b : UInt8) : Bool :=
  (48 ≤ b && b ≤ 57) || (65 ≤ b && b ≤ 90) || (97 ≤ b && b ≤ 122) || [45,46,95,126].contains b

theorem unreserved_lt (h : unreserved b = true) : b.toNat < 128 := by
  simp only [unreserved,Bool.or_eq_true,Bool.and_eq_true,decide_eq_true_eq,UInt8.le_iff_toNat_le,
    List.contains_iff_mem,List.mem_cons,List.not_mem_nil,or_false] at h
  rcases h with ((⟨-,hle⟩ | ⟨-,hle⟩) | ⟨-,hle⟩) | rfl | rfl | rfl | rfl
  · exact Nat.lt_of_le_of_lt hle (by decide)
  · exact Nat.lt_of_le_of_lt hle (by decide)
  · exact Nat.lt_of_le_of_lt hle (by decide)
  all_goals decide

def encodeByte (b : UInt8) : List UInt8 :=
  if unreserved b then [b] else [percent,hexDigit (b.toNat / 16),hexDigit (b.toNat % 16)]

def encode (bs : List UInt8) : List UInt8 := bs.flatMap encodeByte

/-! ## Decoding -/

def decode : List UInt8 → List UInt8
  | [] => []
  | b :: bs =>
    if b = percent then
      match bs with
      | x :: y :: rest =>
        match hexValue x,hexValue y with
        | some high,some low => UInt8.ofNat (high * 16 + low) :: decode rest
        | _, _ => percent :: decode (x :: y :: rest)
      | [x] => percent :: decode [x]
      | [] => [percent]
    else if b = plus then 32 :: decode bs
    else b :: decode bs
termination_by bs => bs.length

theorem decode_escape (hx : hexValue x = some high) (hy : hexValue y = some low) :
    decode (percent :: x :: y :: rest) = UInt8.ofNat (high * 16 + low) :: decode rest := by
  rw [decode,if_pos rfl]
  simp only [hx,hy]

theorem decode_literal (h : hexValue x = none ∨ hexValue y = none) :
    decode (percent :: x :: y :: rest) = percent :: decode (x :: y :: rest) := by
  rw [decode,if_pos rfl]
  rcases h with h | h
  · simp only [h]
  · simp only [h]
    cases hexValue x <;> rfl

/-- A percent sign with at most one byte behind it stays. -/
theorem decode_short (h : bs.length ≤ 1) : decode (percent :: bs) = percent :: decode bs := by
  match bs,h with
  | [],_ =>
    rw [decode.eq_def]
    simp only [if_true]
    rw [decode.eq_def]
  | [x],_ =>
    rw [decode.eq_def]
    rfl

theorem decode_plus : decode (plus :: bs) = 32 :: decode bs := by
  rw [decode.eq_def]
  exact (if_neg (by decide)).trans (if_pos rfl)

theorem decode_other (hpercent : b ≠ percent) (hplus : b ≠ plus) : decode (b :: bs) = b :: decode bs := by
  rw [decode.eq_def]
  exact (if_neg hpercent).trans (if_neg hplus)

theorem decode_encodeByte (b : UInt8) (rest : List UInt8) : decode (encodeByte b ++ rest) = b :: decode rest := by
  have hlt := b.toNat_lt
  unfold encodeByte
  split
  · next h =>
    exact decode_other (by rintro rfl; exact absurd h (by decide)) (by rintro rfl; exact absurd h (by decide))
  · have hbyte := @decode_escape _ _ rest _ _ (hexValue_hexDigit (n := b.toNat / 16) (by omega))
      (hexValue_hexDigit (n := b.toNat % 16) (by omega))
    rw [Nat.div_add_mod',UInt8.ofNat_toNat] at hbyte
    exact hbyte

/-- Decoding undoes encoding. -/
theorem decode_encode (bs : List UInt8) : decode (encode bs) = bs := by
  induction bs with
  | nil =>
    rw [decode.eq_def]
    rfl
  | cons b bs ih =>
    calc decode (encode (b :: bs)) = decode (encodeByte b ++ encode bs) := rfl
      _ = b :: decode (encode bs) := decode_encodeByte b (encode bs)
      _ = b :: bs := by rw [ih]

/-- Encoded bytes are unreserved ones, digits and percent signs. -/
theorem mem_encode (h : b ∈ encode bs) : unreserved b = true ∨ b = percent := by
  have hdigit : ∀ n < 16, unreserved (hexDigit n) = true := by decide
  obtain ⟨a,-,hb⟩ := List.mem_flatMap.mp h
  have hlt := a.toNat_lt
  unfold encodeByte at hb
  split at hb
  · next hun =>
    rw [List.mem_singleton.mp hb]
    exact .inl hun
  · simp only [List.mem_cons,List.not_mem_nil,or_false] at hb
    rcases hb with rfl | rfl | rfl
    · exact .inr rfl
    · exact .inl (hdigit _ (by omega))
    · exact .inl (hdigit _ (by omega))

end KubeAir.Wire.PercentEncoding
