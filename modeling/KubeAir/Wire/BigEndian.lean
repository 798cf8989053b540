import Mathlib.Data.Nat.Bitwise

/-! # Big-endian words

The four bytes of a 32-bit word, most significant first, and a word that packs an 8-bit
field above a 24-bit one.
-/
namespace KubeAir.Wire

/-- `u32::to_be_bytes`. -/
def toBeBytes (w : UInt32) : List UInt8 := [(w >>> 24).toUInt8,(w >>> 16).toUInt8,(w >>> 8).toUInt8,w.toUInt8]

/-- `u32::from_be_bytes`. -/
def fromBeBytes (a b c d : UInt8) : UInt32 :=
  UInt32.ofNat (a.toNat * 2 ^ 24 + b.toNat * 2 ^ 16 + c.toNat * 2 ^ 8 + d.toNat)

/-- The word in the four bytes from an offset on. -/
def beWordAt (bytes : List UInt8) (i : ℕ) : UInt32 :=
  fromBeBytes (bytes.getD i 0) (bytes.getD (i + 1) 0) (bytes.getD (i + 2) 0) (bytes.getD (i + 3) 0)

variable {w : UInt32} {rest : List UInt8}

@[simp] theorem length_toBeBytes : (toBeBytes w).length = 4 := rfl

@[simp] theorem beWordAt_toBeBytes : beWordAt (toBeBytes w ++ rest) 0 = w := by
  have hw := w.toNat_lt
  have h24 : (w >>> 24).toUInt8.toNat = w.toNat / 2 ^ 24 % 2 ^ 8 := by
    rw [UInt32.toNat_toUInt8,UInt32.toNat_shiftRight,Nat.shiftRight_eq_div_pow]
    rfl
  have h16 : (w >>> 16).toUInt8.toNat = w.toNat / 2 ^ 16 % 2 ^ 8 := by
    rw [UInt32.toNat_toUInt8,UInt32.toNat_shiftRight,Nat.shiftRight_eq_div_pow]
    rfl
  have h8 : (w >>> 8).toUInt8.toNat = w.toNat / 2 ^ 8 % 2 ^ 8 := by
    rw [UInt32.toNat_toUInt8,UInt32.toNat_shiftRight,Nat.shiftRight_eq_div_pow]
    rfl
  have h0 : w.toUInt8.toNat = w.toNat % 2 ^ 8 := UInt32.toNat_toUInt8 w
  apply UInt32.toNat_inj.mp
  change (fromBeBytes (w >>> 24).toUInt8 (w >>> 16).toUInt8 (w >>> 8).toUInt8 w.toUInt8).toNat = w.toNat
  unfold fromBeBytes
  rw [UInt32.toNat_ofNat',h24,h16,h8,h0]
  omega

/-- The word behind another one. -/
@[simp] theorem beWordAt_skip {v : UInt32} : beWordAt (toBeBytes v ++ rest) 4 = beWordAt rest 0 := rfl

/-! ## Two fields in a word -/

/-- `((flags as u32) << 24) | ((len as u32) & 0x00ff_ffff)`. -/
def packed (flags : UInt8) (len : ℕ) : UInt32 := (flags.toUInt32 <<< 24) ||| (UInt32.ofNat len &&& 0x00ffffff)

variable (flags : UInt8) (len : ℕ)

theorem toNat_masked : (UInt32.ofNat len &&& 0x00ffffff).toNat = len % 2 ^ 24 := by
  rw [UInt32.toNat_and,UInt32.toNat_ofNat']
  change len % 2 ^ 32 &&& 2 ^ 24 - 1 = _
  rw [Nat.and_two_pow_sub_one_eq_mod]
  omega

theorem toNat_packed : (packed flags len).toNat = flags.toNat * 2 ^ 24 + len % 2 ^ 24 := by
  have hflags := flags.toNat_lt
  have hlow : len % 2 ^ 24 < 2 ^ 24 := Nat.mod_lt _ (by decide)
  have hhigh : (flags.toUInt32 <<< 24).toNat = flags.toNat <<< 24 := by
    rw [UInt32.toNat_shiftLeft,UInt8.toNat_toUInt32]
    change flags.toNat <<< 24 % 2 ^ 32 = _
    rw [Nat.shiftLeft_eq]
    omega
  unfold packed
  rw [UInt32.toNat_or,toNat_masked,hhigh,← Nat.shiftLeft_add_eq_or_of_lt hlow,Nat.shiftLeft_eq]

theorem packed_high : (packed flags len >>> 24).toUInt8 = flags := by
  have hflags := flags.toNat_lt
  apply UInt8.toNat_inj.mp
  rw [UInt32.toNat_toUInt8,UInt32.toNat_shiftRight,toNat_packed,Nat.shiftRight_eq_div_pow]
  change (flags.toNat * 2 ^ 24 + len % 2 ^ 24) / 2 ^ 24 % 2 ^ 8 = flags.toNat
  omega

theorem packed_low : (packed flags len &&& 0x00ffffff).toNat = len % 2 ^ 24 := by
  rw [UInt32.toNat_and,toNat_packed]
  change (flags.toNat * 2 ^ 24 + len % 2 ^ 24) &&& 2 ^ 24 - 1 = _
  rw [Nat.and_two_pow_sub_one_eq_mod]
  omega

end KubeAir.Wire
