import KubeAir.Adapters.Quantity

/-! # Printed quantities

What the parser makes of the text that the reporter prints for a quantity.
-/
namespace KubeAir.Adapters.Quantity
open Core Wire

/-! ## Numerals of integers -/

theorem exists_fin_of_isDigit {c : Char} (h : c.isDigit = true) : ∃ d : Fin 10, Nat.digitChar d.val = c := by
  have hc : 48 ≤ c.toNat ∧ c.toNat ≤ 57 := Char.isDigit_iff_toNat.mp h
  refine ⟨⟨c.toNat - 48,by omega⟩,Char.toNat_inj.mp ?_⟩
  calc
    (Nat.digitChar (c.toNat - 48)).toNat = c.toNat - 48 + 48 := by rw [Nat.toNat_digitChar_of_lt_ten (by omega)]; omega
    _ = c.toNat := by omega

theorem exists_digits_of_isDigit {cs : List Char} (h : ∀ c ∈ cs, c.isDigit = true) :
    ∃ ds : Digits, ds.chars = cs := by
  induction cs with
  | nil => exact ⟨[],rfl⟩
  | cons c cs ih =>
    obtain ⟨d,hd⟩ := exists_fin_of_isDigit (h c List.mem_cons_self)
    obtain ⟨ds,hds⟩ := ih (fun x hx => h x (List.mem_cons_of_mem c hx))
    exact ⟨d :: ds,congrArg₂ List.cons hd hds⟩

/-- The digits that print a natural number. -/
theorem exists_digits (n : ℕ) : ∃ ds : Digits, ds ≠ [] ∧ ds.chars = (toString n).toList ∧ ds.value = n := by
  have hall : ∀ c ∈ (toString n).toList, c.isDigit = true := fun c => isDigit_of_mem_toString
  obtain ⟨ds,hds⟩ := exists_digits_of_isDigit hall
  refine ⟨ds,?_,hds,?_⟩
  · rintro rfl
    exact toList_toString_ne_nil n hds.symm
  · calc
      ds.value = ds.chars.foldl (fun n c => 10 * n + (c.toNat - 48)) 0 := ds.foldl_chars.symm
      _ = (toString n).toList.foldl (fun n c => 10 * n + (c.toNat - 48)) 0 := by rw [hds]
      _ = n := foldl_toString n

/-- The numeral that prints an integer. -/
theorem exists_numeral (z : ℤ) :
    ∃ x : Numeral, x.fraction = none ∧ x.integer = z ∧ x.chars = (toString z).toList := by
  cases z with
  | ofNat n =>
    obtain ⟨ds,hne,hchars,hvalue⟩ := exists_digits n
    refine ⟨⟨.none,ds,none,.inl hne⟩,rfl,?_,?_⟩
    · unfold Numeral.integer
      rw [hvalue]
      exact one_mul _
    · exact (List.append_nil _).trans hchars
  | negSucc n =>
    obtain ⟨ds,hne,hchars,hvalue⟩ := exists_digits (n + 1)
    refine ⟨⟨.minus,ds,none,.inl hne⟩,rfl,?_,?_⟩
    · unfold Numeral.integer
      rw [hvalue]
      exact neg_one_mul _
    · change '-' :: ds.chars ++ [] = _
      rw [List.append_nil,hchars]
      exact (String.toList_append (s := "-") (t := toString (n + 1))).symm

/-- An integer is known by its text. -/
theorem toString_int_inj {z w : ℤ} (h : toString z = toString w) : z = w := by
  obtain ⟨x,hfx,hx,hcx⟩ := exists_numeral z
  obtain ⟨y,hfy,hy,hcy⟩ := exists_numeral w
  have hchars : x.sign.chars ++ x.whole.chars = y.sign.chars ++ y.whole.chars := by
    have hxy : x.chars = y.chars := by rw [hcx,hcy,h]
    unfold Numeral.chars at hxy
    rwa [hfx,hfy,Numeral.fractionChars,List.append_nil,List.append_nil] at hxy
  have hsplit := congrArg Eviction.splitSign hchars
  rw [splitSign_chars,splitSign_chars] at hsplit
  obtain ⟨hsign,hdigits⟩ := Prod.mk.inj hsplit
  have hvalue : x.whole.value = y.whole.value := by rw [← Digits.foldl_chars,← Digits.foldl_chars,hdigits]
  have hfactor : x.sign.factor = y.sign.factor := by
    cases hs : x.sign <;> cases hs' : y.sign <;> rw [hs,hs'] at hsign <;> first | rfl | cases hsign
  calc
    z = x.sign.factor * x.whole.value := hx.symm
    _ = y.sign.factor * y.whole.value := by rw [hfactor,hvalue]
    _ = w := hy

/-- What is read from an integer with a suffix. -/
theorem parse_toString (key : String) (z : ℤ) (u : Suffix) {t : String} (ht : t.toList = u.chars) :
    parseK8sQuantityForKey key (toString z ++ t) =
      if FitsI64 z then (u.reading key).map (fun p => ⟨saturate (z * p.1),p.2⟩) else none := by
  obtain ⟨x,hf,hz,hchars⟩ := exists_numeral z
  have htext : toString z ++ t = K8sQuantity.text ⟨x,u⟩ := by
    unfold K8sQuantity.text
    rw [hchars,← ht,← String.toList_append,String.ofList_toList]
  rw [htext,parseK8sQuantityForKey_text]
  simp only [hf,hz,true_and]

/-! ## Quantities that the parser returns -/

theorem fits_saturate (z : ℤ) : FitsI64 (saturate z) := by
  unfold FitsI64 saturate
  omega

theorem parseI64_fits {s : String} {n : ℤ} (h : parseI64 s = some n) : FitsI64 n := by
  unfold parseI64 at h
  rcases hsplit : Eviction.splitSign s.toList with ⟨negative,digits⟩
  rw [hsplit] at h
  dsimp only at h
  generalize (if negative = true then -(Eviction.decimalValue digits : ℤ) else Eviction.decimalValue digits) = value at h
  by_cases hdigits : (digits.isEmpty || !digits.all Char.isDigit) = true
  · rw [if_pos hdigits] at h
    cases h
  · rw [if_neg hdigits] at h
    by_cases hfits : FitsI64 value
    · rw [if_pos hfits] at h
      exact Option.some.inj h ▸ hfits
    · rw [if_neg hfits] at h
      cases h

/-- A quantity that the parser returns is an `i64`, and a CPU quantity is no count. -/
theorem parsed_quantity {key s : String} {q : ResourceQuantity} (h : parseK8sQuantityForKey key s = some q) :
    FitsI64 q.value ∧ (key = "cpu" → q.unit ≠ .count) := by
  obtain ⟨r,hr,rfl⟩ := Option.map_eq_some_iff.mp h
  have hfits : FitsI64 r.value := by
    unfold parseK8sQuantity at hr
    dsimp only at hr
    split at hr
    · obtain ⟨n,-,rfl⟩ := Option.map_eq_some_iff.mp hr
      exact fits_saturate _
    · obtain ⟨n,hn,rfl⟩ := Option.map_eq_some_iff.mp hr
      exact parseI64_fits hn
  by_cases hc : key = "cpu" ∧ r.unit = .count
  · rw [if_pos hc]
    exact ⟨fits_saturate _,fun _ => ResourceUnit.noConfusion⟩
  · rw [if_neg hc]
    exact ⟨hfits,fun hkey hunit => hc ⟨hkey,hunit⟩⟩

/-! ## The round trip -/

variable {key : String} {v n : ℤ}

/-- Whether a quantity comes back from its text. -/
def Returns (key : String) (q : ResourceQuantity) : Prop :=
  parseK8sQuantityForKey key (resourceQuantityToString q) = some q

theorem fits_tdiv (hfits : FitsI64 v) (hn : 1 ≤ n) (hv : v.tmod n = 0) : FitsI64 (v.tdiv n) := by
  obtain ⟨k,rfl⟩ := Int.dvd_of_tmod_eq_zero hv
  rw [Int.mul_tdiv_cancel_left k (by omega)]
  unfold FitsI64 at hfits ⊢
  constructor <;> nlinarith

/-- A multiple of a factor, printed in front of a suffix for that factor, comes back. -/
theorem parse_tdiv {u : Suffix} {unit : ResourceUnit} {t : String} (ht : t.toList = u.chars) (hfits : FitsI64 v)
    (hn : 1 ≤ n) (hv : v.tmod n = 0) (hu : u.reading key = some (n,unit)) :
    parseK8sQuantityForKey key (toString (v.tdiv n) ++ t) = some ⟨v,unit⟩ := by
  have hmul : v.tdiv n * n = v := Int.tdiv_mul_cancel_of_tmod_eq_zero hv
  rw [parse_toString key _ u ht,if_pos (fits_tdiv hfits hn hv),hu,Option.map_some,hmul,saturate_of_fits hfits]

/-- An integer without a suffix is a count, or millicores for CPU. -/
theorem parse_plain (hfits : FitsI64 v) :
    parseK8sQuantityForKey key (toString v) =
      some (if key = "cpu" then ⟨saturate (v * 1000),.millicores⟩ else ⟨v,.count⟩) := by
  have h := parse_toString key v .none (t := "") rfl
  rw [String.append_empty,if_pos hfits] at h
  rw [h]
  by_cases hkey : key = "cpu"
  · simp only [Suffix.reading,hkey,if_true,Option.map_some]
  · simp only [Suffix.reading,hkey,if_false,Option.map_some,mul_one,saturate_of_fits hfits]

theorem returns_count (hfits : FitsI64 v) (hkey : key ≠ "cpu") : Returns key ⟨v,.count⟩ := by
  unfold Returns resourceQuantityToString
  rw [parse_plain hfits,if_neg hkey]

theorem returns_millicores (hfits : FitsI64 v) : Returns key ⟨v,.millicores⟩ ↔ key = "cpu" ∨ ¬1000 ∣ v := by
  unfold Returns resourceQuantityToString
  dsimp only
  by_cases hv : v.tmod 1000 = 0
  · have hdvd : (1000 : ℤ) ∣ v := Int.dvd_of_tmod_eq_zero hv
    rw [if_pos hv]
    by_cases hkey : key = "cpu"
    · have hreading : Suffix.none.reading key = some (1000,.millicores) := by rw [Suffix.reading,if_pos hkey]
      have hparse : parseK8sQuantityForKey key (toString (v.tdiv 1000) ++ "") = some ⟨v,.millicores⟩ :=
        parse_tdiv rfl hfits (by decide) hv hreading
      rw [String.append_empty] at hparse
      exact iff_of_true hparse (.inl hkey)
    · refine iff_of_false ?_ (fun h => h.elim hkey (fun h => h hdvd))
      intro hreturn
      rw [parse_plain (fits_tdiv hfits (by decide) hv),if_neg hkey] at hreturn
      exact ResourceUnit.noConfusion (congrArg ResourceQuantity.unit (Option.some.inj hreturn))
  · have hdvd : ¬(1000 : ℤ) ∣ v := fun h => hv (Int.tmod_eq_zero_of_dvd h)
    rw [if_neg hv,parse_toString key v .milli (t := "m") rfl,if_pos hfits]
    refine iff_of_true ?_ (.inr hdvd)
    change some (ResourceQuantity.mk (saturate (v * 1)) _) = _
    rw [mul_one,saturate_of_fits hfits]

theorem returns_bytes (hfits : FitsI64 v) : Returns key ⟨v,.bytes⟩ ↔ 1024 ∣ v := by
  unfold Returns resourceQuantityToString
  dsimp only
  by_cases hgi : v.tmod (1024 * 1024 * 1024) = 0
  · have hdvd : (1024 : ℤ) ∣ v := Dvd.dvd.trans (by decide) (Int.dvd_of_tmod_eq_zero hgi)
    rw [if_pos hgi]
    exact iff_of_true (parse_tdiv (u := .gibi) rfl hfits (by decide) hgi rfl) hdvd
  · rw [if_neg hgi]
    by_cases hmi : v.tmod (1024 * 1024) = 0
    · have hdvd : (1024 : ℤ) ∣ v := Dvd.dvd.trans (by decide) (Int.dvd_of_tmod_eq_zero hmi)
      rw [if_pos hmi]
      exact iff_of_true (parse_tdiv (u := .mebi) rfl hfits (by decide) hmi rfl) hdvd
    · rw [if_neg hmi]
      by_cases hki : v.tmod 1024 = 0
      · rw [if_pos hki]
        exact iff_of_true (parse_tdiv (u := .kibi) rfl hfits (by decide) hki rfl) (Int.dvd_of_tmod_eq_zero hki)
      · rw [if_neg hki,parse_plain hfits]
        refine iff_of_false ?_ (fun h => hki (Int.tmod_eq_zero_of_dvd h))
        intro hreturn
        have hunit := congrArg ResourceQuantity.unit (Option.some.inj hreturn)
        by_cases hkey : key = "cpu"
        · rw [if_pos hkey] at hunit
          exact ResourceUnit.noConfusion hunit
        · rw [if_neg hkey] at hunit
          exact ResourceUnit.noConfusion hunit

/-- A quantity that was parsed comes back from its text unless it is a whole number of thousands
of milli-units of another key than CPU, or bytes that no Ki divides. -/
theorem resourceQuantityToString_returns_iff {s : String} {q : ResourceQuantity}
    (h : parseK8sQuantityForKey key s = some q) :
    parseK8sQuantityForKey key (resourceQuantityToString q) = some q ↔
      (q.unit = .millicores → key = "cpu" ∨ ¬1000 ∣ q.value) ∧ (q.unit = .bytes → 1024 ∣ q.value) := by
  obtain ⟨hfits,hcpu⟩ := parsed_quantity h
  obtain ⟨v,unit⟩ := q
  change Returns key _ ↔ _
  cases unit with
  | bytes =>
    rw [returns_bytes hfits]
    exact ⟨fun h => ⟨ResourceUnit.noConfusion,fun _ => h⟩,fun h => h.2 rfl⟩
  | millicores =>
    rw [returns_millicores hfits]
    exact ⟨fun h => ⟨fun _ => h,ResourceUnit.noConfusion⟩,fun h => h.1 rfl⟩
  | count =>
    have hkey : key ≠ "cpu" := fun hkey => hcpu hkey rfl
    exact iff_of_true (returns_count hfits hkey) ⟨ResourceUnit.noConfusion,ResourceUnit.noConfusion⟩

/-- 1500 milli-units of memory come back. -/
theorem resourceQuantityToString_returns_iff_milli :
    parseK8sQuantityForKey "memory" (resourceQuantityToString ⟨1500,.millicores⟩) = some ⟨1500,.millicores⟩ ↔
      ((ResourceUnit.millicores = .millicores → "memory" = "cpu" ∨ ¬(1000 : ℤ) ∣ 1500) ∧
        (ResourceUnit.millicores = .bytes → (1024 : ℤ) ∣ 1500)) :=
  resourceQuantityToString_returns_iff (s := "1500m") (q := ⟨1500,.millicores⟩) (by decide +kernel)

/-- 1 k of memory comes back as a plain count. -/
theorem kilo_returns_count :
    parseK8sQuantityForKey "memory" "1k" = some ⟨1000,.bytes⟩ ∧ resourceQuantityToString ⟨1000,.bytes⟩ = "1000" ∧
      parseK8sQuantityForKey "memory" "1000" = some ⟨1000,.count⟩ := by
  decide +kernel

end KubeAir.Adapters.Quantity
