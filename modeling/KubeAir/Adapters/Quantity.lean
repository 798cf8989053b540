import KubeAir.Adapters.Eviction
import KubeAir.Adapters.StatusPatch
import KubeAir.Wire.Numeral
import Mathlib.Algebra.Order.Floor.Ring
import Mathlib.Data.Rat.Floor

/-! # Quantity strings

The quantities of the API as the reporter and the watcher read them, one parser in two copies,
beside the grammar in which the API server writes them.
-/
namespace KubeAir.Adapters.Quantity
open Core Admission Wire
open Eviction (decimalValue splitSign)

/-! ## The parser -/

/-- The values of an `i64`. -/
def FitsI64 (z : ℤ) : Prop := -2 ^ 63 ≤ z ∧ z < 2 ^ 63

instance (z : ℤ) : Decidable (FitsI64 z) := inferInstanceAs (Decidable (_ ∧ _))

/-- The nearest `i64`. -/
def saturate (z : ℤ) : ℤ := max (-2 ^ 63) (min (2 ^ 63 - 1) z)

/-- `str::parse::<i64>`. -/
def parseI64 (s : String) : Option ℤ :=
  let (negative,digits) := splitSign s.toList
  let value : ℤ := if negative then -(decimalValue digits : ℤ) else decimalValue digits
  if digits.isEmpty || !digits.all Char.isDigit then none
  else if FitsI64 value then some value
  else none

/-- The suffixes in the order in which they are tried, each with its factor and its unit.
The code multiplies by a factor with `saturating_mul`, except for `m`, which has none. -/
def quantitySuffixes : List (String × ℤ × ResourceUnit) :=
  [("Ki",1024,.bytes),("Mi",1024 * 1024,.bytes),("Gi",1024 * 1024 * 1024,.bytes),("Ti",1024 ^ 4,.bytes),
    ("k",1000,.bytes),("M",1000000,.bytes),("G",1000000000,.bytes),("m",1,.millicores)]

/-- The number in front of the first suffix that the text ends in. -/
def stripQuantity (s : String) : Option (String × ℤ × ResourceUnit) :=
  quantitySuffixes.findSome? (fun x => (stripSuffix s x.1).map (fun number => (number,x.2)))

def parseK8sQuantity (s : String) : Option ResourceQuantity :=
  let s := trim s
  match stripQuantity s with
  | some (number,factor,unit) => (parseI64 number).map (fun n => ⟨saturate (n * factor),unit⟩)
  | none => (parseI64 s).map (fun n => ⟨n,.count⟩)

/-- A plain CPU number counts cores. -/
def parseK8sQuantityForKey (key s : String) : Option ResourceQuantity :=
  (parseK8sQuantity s).map (fun q =>
    if key = "cpu" ∧ q.unit = .count then ⟨saturate (q.value * 1000),.millicores⟩ else q)

/-- The quantities of a map that are read; the others are dropped. -/
def quantitiesFromK8s (m : HashMap String String) : HashMap String ResourceQuantity :=
  m.filterMapValues parseK8sQuantityForKey

/-- The resources of a container of the API. -/
def resourceRequirementsFromK8s (r : K8sResourceRequirements) : ResourceRequirements where
  requests := (r.requests.map quantitiesFromK8s).getD ∅
  limits := (r.limits.map quantitiesFromK8s).getD ∅

/-! ## The grammar -/

inductive Suffix
  | none
  | nano
  | micro
  | milli
  | kilo
  | mega
  | giga
  | tera
  | peta
  | exa
  | kibi
  | mebi
  | gibi
  | tebi
  | pebi
  | exbi
  | exponent (upper : Bool) (sign : Sign) (digits : Digits) (nonempty : digits ≠ [])

namespace Suffix

def chars : Suffix → List Char
  | none => []
  | nano => ['n']
  | micro => ['u']
  | milli => ['m']
  | kilo => ['k']
  | mega => ['M']
  | giga => ['G']
  | tera => ['T']
  | peta => ['P']
  | exa => ['E']
  | kibi => ['K','i']
  | mebi => ['M','i']
  | gibi => ['G','i']
  | tebi => ['T','i']
  | pebi => ['P','i']
  | exbi => ['E','i']
  | exponent upper sign digits _ => (if upper then 'E' else 'e') :: (sign.chars ++ digits.chars)

def factor : Suffix → ℚ
  | none => 1
  | nano => 1 / 10 ^ 9
  | micro => 1 / 10 ^ 6
  | milli => 1 / 1000
  | kilo => 1000
  | mega => 10 ^ 6
  | giga => 10 ^ 9
  | tera => 10 ^ 12
  | peta => 10 ^ 15
  | exa => 10 ^ 18
  | kibi => 1024
  | mebi => 1024 ^ 2
  | gibi => 1024 ^ 3
  | tebi => 1024 ^ 4
  | pebi => 1024 ^ 5
  | exbi => 1024 ^ 6
  | exponent _ sign digits _ => 10 ^ (sign.factor * digits.value)

end Suffix

/-- A quantity of the API. -/
structure K8sQuantity where
  number : Numeral
  suffix : Suffix

namespace K8sQuantity

def text (q : K8sQuantity) : String := String.ofList (q.number.chars ++ q.suffix.chars)

def amount (q : K8sQuantity) : ℚ := q.number.amount * q.suffix.factor

end K8sQuantity

/-! ## Reading an integer -/

theorem splitSign_chars (s : Sign) (ds : Digits) : splitSign (s.chars ++ ds.chars) = (s == .minus,ds.chars) := by
  cases s with
  | none =>
    cases ds with
    | nil => rfl
    | cons d ds =>
      have hd := Digits.isDigit_digitChar d
      change splitSign (Nat.digitChar d.val :: Digits.chars ds) = (false,Nat.digitChar d.val :: Digits.chars ds)
      unfold splitSign
      split
      · rename_i heq
        exact absurd ((List.cons.inj heq).1 ▸ hd) (by decide)
      · rename_i heq
        exact absurd ((List.cons.inj heq).1 ▸ hd) (by decide)
      · rfl
  | plus => rfl
  | minus => rfl

theorem parseI64_integer {s : Sign} {ds : Digits} (hds : ds ≠ []) :
    parseI64 (String.ofList (s.chars ++ ds.chars)) =
      if FitsI64 (s.factor * ds.value) then some (s.factor * ds.value) else none := by
  have hvalue : (if (s == .minus) = true then -(decimalValue ds.chars : ℤ) else decimalValue ds.chars) =
      s.factor * ds.value := by
    rw [show decimalValue ds.chars = ds.value from ds.foldl_chars]
    cases s with
    | none => exact (one_mul _).symm
    | plus => exact (one_mul _).symm
    | minus => exact (neg_one_mul _).symm
  have hdigits : (ds.chars.isEmpty || !ds.chars.all Char.isDigit) = false := by
    have hall : ds.chars.all Char.isDigit = true := List.all_eq_true.mpr (fun _ h => Digits.isDigit_of_mem_chars h)
    have hne : ds.chars.isEmpty = false := List.isEmpty_eq_false_iff.mpr (fun h => hds (Digits.chars_eq_nil.mp h))
    rw [hall,hne]
    rfl
  unfold parseI64
  rw [String.toList_ofList,splitSign_chars]
  dsimp only
  rw [hvalue,hdigits]
  rfl

/-- An integer has signs and digits only. -/
theorem parseI64_chars {s : String} {n : ℤ} (h : parseI64 s = some n) :
    ∀ c ∈ s.toList, c ∈ ['+','-'] ∨ c.isDigit = true := by
  intro c hc
  have hall : (splitSign s.toList).2.all Char.isDigit = true := by
    unfold parseI64 at h
    rcases hsplit : splitSign s.toList with ⟨negative,digits⟩
    rw [hsplit] at h
    dsimp only at h
    cases ha : digits.all Char.isDigit with
    | true => rfl
    | false =>
      rw [ha,Bool.not_false,Bool.or_true,if_pos rfl] at h
      cases h
  have hsplit : c ∈ ['+','-'] ∨ c ∈ (splitSign s.toList).2 := by
    unfold splitSign
    split
    · rename_i rest heq
      rw [heq] at hc
      rcases List.mem_cons.mp hc with rfl | hc
      · exact .inl (by decide)
      · exact .inr hc
    · rename_i rest heq
      rw [heq] at hc
      rcases List.mem_cons.mp hc with rfl | hc
      · exact .inl (by decide)
      · exact .inr hc
    · exact .inr hc
  exact hsplit.imp_right (fun h => List.all_eq_true.mp hall c h)

theorem parseI64_eq_none {s : String} {c : Char} (hc : c ∈ s.toList) (hsign : c ∉ ['+','-'])
    (hdigit : c.isDigit = false) : parseI64 s = none := by
  cases h : parseI64 s with
  | none => rfl
  | some n =>
    rcases parseI64_chars h c hc with h | h
    · exact absurd h hsign
    · rw [hdigit] at h
      cases h

/-- A numeral is read when it is an integer that fits. -/
theorem parseI64_numeral (x : Numeral) :
    parseI64 (String.ofList x.chars) =
      if x.fraction = none ∧ FitsI64 x.integer then some x.integer else none := by
  by_cases hf : x.fraction = none
  · have hchars : x.chars = x.sign.chars ++ x.whole.chars := by
      unfold Numeral.chars
      rw [hf]
      exact List.append_nil _
    rw [hchars,parseI64_integer (Numeral.whole_ne_nil hf)]
    simp only [hf,true_and]
    rfl
  · rw [if_neg (fun h => hf h.1)]
    exact parseI64_eq_none (c := '.') (by rw [String.toList_ofList]; exact Numeral.point_mem_chars hf) (by decide)
      (by decide)

theorem saturate_of_fits {z : ℤ} (h : FitsI64 z) : saturate z = z := by
  unfold FitsI64 at h
  unfold saturate
  omega

/-! ## Reading a quantity -/

/-- A suffix whose characters are not among those in front is found in the tail. -/
theorem suffix_append_iff {u cs t : List Char} (hu : ∀ c ∈ u, c ∉ cs) : u <:+ cs ++ t ↔ u <:+ t := by
  constructor
  · intro h
    rcases List.suffix_or_suffix_of_suffix h (List.suffix_append cs t) with h' | ⟨w,hw⟩
    · exact h'
    · obtain ⟨v,hv⟩ := h
      have hcs : v ++ w = cs := List.append_cancel_right (by rw [List.append_assoc,hw,hv])
      cases w with
      | nil => exact ⟨[],hw.symm⟩
      | cons c w =>
        have hc : c ∈ cs := hcs ▸ List.mem_append_right v List.mem_cons_self
        exact absurd hc (hu c (hw ▸ List.mem_cons_self))
  · exact fun h => h.trans (List.suffix_append cs t)

theorem stripSuffix_append {u : String} {cs t : List Char} (hu : ∀ c ∈ u.toList, c ∉ cs) :
    stripSuffix (String.ofList (cs ++ t)) u =
      if u.toList <:+ t then some (String.ofList (cs ++ t.take (t.length - u.toList.length))) else none := by
  unfold stripSuffix
  rw [String.toList_ofList]
  by_cases h : u.toList <:+ t
  · have hlen := h.length_le
    rw [if_pos h,if_pos ((suffix_append_iff hu).mpr h),List.length_append,Nat.add_sub_assoc hlen,List.take_length_add_append]
  · rw [if_neg h,if_neg (fun h' => h ((suffix_append_iff hu).mp h'))]

/-- No suffix has a character of a numeral or of an exponent. -/
theorem quantitySuffixes_letters {x : String × ℤ × ResourceUnit} (hx : x ∈ quantitySuffixes) {c : Char}
    (hc : c ∈ x.1.toList) : c ∉ ['+','-','.','e','E'] ∧ c.isDigit = false ∧ isWhitespace c = false := by
  have hall : (quantitySuffixes.all fun x => x.1.toList.all fun c =>
      decide (c ∉ ['+','-','.','e','E'] ∧ c.isDigit = false ∧ isWhitespace c = false)) = true := by
    decide +kernel
  exact of_decide_eq_true (List.all_eq_true.mp (List.all_eq_true.mp hall x hx) c hc)

theorem findSome?_eq_map_find? {α β : Type} {f : α → Option β} {g : α → β} {p : α → Bool} {l : List α}
    (h : ∀ x ∈ l, f x = if p x then some (g x) else none) : l.findSome? f = (l.find? p).map g := by
  induction l with
  | nil => rfl
  | cons x l ih =>
    rw [List.findSome?_cons,List.find?_cons,h x List.mem_cons_self]
    cases p x with
    | true => rfl
    | false => exact ih (fun y hy => h y (List.mem_cons_of_mem x hy))

/-- What the parser finds behind a text without letters. -/
theorem stripQuantity_append {cs t : List Char}
    (hcs : ∀ c ∈ cs, c ∈ ['+','-','.','e','E'] ∨ c.isDigit = true) :
    stripQuantity (String.ofList (cs ++ t)) =
      (quantitySuffixes.find? (fun x => decide (x.1.toList <:+ t))).map (fun x =>
        (String.ofList (cs ++ t.take (t.length - x.1.toList.length)),x.2)) := by
  refine findSome?_eq_map_find? (fun x hx => ?_)
  have hu : ∀ c ∈ x.1.toList, c ∉ cs := by
    intro c hc hmem
    obtain ⟨hsign,hdigit,-⟩ := quantitySuffixes_letters hx hc
    rcases hcs c hmem with h | h
    · exact hsign h
    · rw [hdigit] at h
      cases h
  rw [stripSuffix_append hu]
  by_cases h : x.1.toList <:+ t
  · rw [if_pos h,if_pos (decide_eq_true h)]
    rfl
  · rw [if_neg h,if_neg (by rw [decide_eq_false h]; exact Bool.false_ne_true)]
    rfl

/-- The factor and the unit with which a suffix is stored, for the suffixes that are read. -/
def Suffix.stored : Suffix → Option (ℤ × ResourceUnit)
  | kibi => some (1024,.bytes)
  | mebi => some (1024 * 1024,.bytes)
  | gibi => some (1024 * 1024 * 1024,.bytes)
  | tebi => some (1024 ^ 4,.bytes)
  | kilo => some (1000,.bytes)
  | mega => some (1000000,.bytes)
  | giga => some (1000000000,.bytes)
  | milli => some (1,.millicores)
  | _ => Option.none

theorem numeral_letters {x : Numeral} {c : Char} (h : c ∈ x.chars) :
    c ∈ ['+','-','.','e','E'] ∨ c.isDigit = true :=
  (Numeral.mem_chars h).imp_left (fun h => List.mem_of_mem_take (i := 3) h)

theorem exponent_letters {upper : Bool} {sign : Sign} {digits : Digits} {h : digits ≠ []} {c : Char}
    (hc : c ∈ (Suffix.exponent upper sign digits h).chars) : c ∈ ['+','-','.','e','E'] ∨ c.isDigit = true := by
  rcases List.mem_cons.mp hc with rfl | hc
  · cases upper <;> exact .inl (by decide)
  · rcases List.mem_append.mp hc with hc | hc
    · refine .inl ?_
      cases sign with
      | none => exact absurd hc List.not_mem_nil
      | plus =>
        rw [List.mem_singleton.mp hc]
        decide
      | minus =>
        rw [List.mem_singleton.mp hc]
        decide
    · exact .inr (Digits.isDigit_of_mem_chars hc)

theorem stripQuantity_text (q : K8sQuantity) :
    stripQuantity q.text = q.suffix.stored.map (fun u => (String.ofList q.number.chars,u)) := by
  unfold K8sQuantity.text
  cases h : q.suffix with
  | exponent upper sign digits nonempty =>
    have hletters : ∀ c ∈ q.number.chars ++ (Suffix.exponent upper sign digits nonempty).chars,
        c ∈ ['+','-','.','e','E'] ∨ c.isDigit = true := by
      intro c hc
      exact (List.mem_append.mp hc).elim numeral_letters exponent_letters
    rw [← List.append_nil (q.number.chars ++ _),stripQuantity_append hletters]
    rfl
  | none | nano | micro | tera | peta | exa | pebi | exbi =>
    rw [stripQuantity_append (fun c => numeral_letters)]
    rfl
  | _ =>
    rw [stripQuantity_append (fun c => numeral_letters)]
    exact congrArg some (Prod.ext (congrArg String.ofList (List.append_nil q.number.chars)) rfl)

theorem isWhitespace_letters {c : Char} (h : c ∈ ['+','-','.','e','E'] ∨ c.isDigit = true) :
    isWhitespace c = false := by
  rcases h with h | h
  · have hall : (['+','-','.','e','E'].all fun c => !isWhitespace c) = true := by decide
    exact Bool.not_eq_true' _ |>.mp (List.all_eq_true.mp hall c h)
  · exact (Eviction.integerChar (.inr h)).1

theorem suffix_letters {u : Suffix} {c : Char} (hc : c ∈ u.chars) : isWhitespace c = false := by
  cases u with
  | exponent upper sign digits nonempty => exact isWhitespace_letters (exponent_letters hc)
  | none => exact absurd hc List.not_mem_nil
  | nano | micro | milli | kilo | mega | giga | tera | peta | exa =>
    rw [List.mem_singleton.mp hc]
    decide
  | kibi | mebi | gibi | tebi | pebi | exbi =>
    rcases List.mem_cons.mp hc with rfl | hc
    · decide
    · rw [List.mem_singleton.mp hc]
      decide

theorem trim_text (q : K8sQuantity) : trim q.text = q.text := by
  refine Admission.trim_of_none_blank ?_
  intro c hc
  unfold K8sQuantity.text at hc
  rw [String.toList_ofList] at hc
  rcases List.mem_append.mp hc with h | h
  · exact isWhitespace_letters (numeral_letters h)
  · exact suffix_letters h

/-- The factor and the unit with which a suffix is read; a CPU number counts cores. -/
def Suffix.reading (key : String) : Suffix → Option (ℤ × ResourceUnit)
  | none => some (if key = "cpu" then (1000,.millicores) else (1,.count))
  | u => u.stored

theorem parseI64_unread {q : K8sQuantity} (hs : q.suffix.stored = none) (hn : q.suffix ≠ .none) :
    parseI64 q.text = none := by
  have hmem : ∀ c ∈ q.suffix.chars, c ∈ q.text.toList := by
    intro c hc
    unfold K8sQuantity.text
    rw [String.toList_ofList]
    exact List.mem_append_right _ hc
  cases hq : q.suffix with
  | none => exact absurd hq hn
  | exponent upper sign digits nonempty =>
    rw [hq] at hmem
    refine parseI64_eq_none (hmem _ List.mem_cons_self) ?_ ?_ <;> cases upper <;> decide
  | nano | micro | tera | peta | exa | pebi | exbi =>
    rw [hq] at hmem
    exact parseI64_eq_none (hmem _ List.mem_cons_self) (by decide) (by decide)
  | _ =>
    rw [hq] at hs
    cases hs

theorem parseK8sQuantity_suffixed {q : K8sQuantity} {p : ℤ × ResourceUnit} (h : q.suffix.stored = some p) :
    parseK8sQuantity q.text =
      (parseI64 (String.ofList q.number.chars)).map (fun n => ⟨saturate (n * p.1),p.2⟩) := by
  unfold parseK8sQuantity
  dsimp only
  rw [trim_text,stripQuantity_text,h]
  rfl

theorem parseK8sQuantity_bare {q : K8sQuantity} (h : q.suffix.stored = none) :
    parseK8sQuantity q.text = (parseI64 q.text).map (fun n => ⟨n,.count⟩) := by
  unfold parseK8sQuantity
  dsimp only
  rw [trim_text,stripQuantity_text,h]
  rfl

theorem Suffix.reading_of_ne {key : String} {u : Suffix} (h : u ≠ none) : u.reading key = u.stored := by
  cases u <;> first | rfl | exact absurd rfl h

theorem Suffix.stored_unit {u : Suffix} {p : ℤ × ResourceUnit} (h : u.stored = some p) : p.2 ≠ .count := by
  cases u <;> cases h <;> exact ResourceUnit.noConfusion

/-- A quantity of the grammar is read when it is an integer that fits, with a known suffix. -/
theorem parseK8sQuantityForKey_text (key : String) (q : K8sQuantity) :
    parseK8sQuantityForKey key q.text =
      if q.number.fraction = none ∧ FitsI64 q.number.integer then
        (q.suffix.reading key).map (fun u => ⟨saturate (q.number.integer * u.1),u.2⟩)
      else none := by
  unfold parseK8sQuantityForKey
  by_cases hn : q.suffix = .none
  · have hbare : q.suffix.stored = none := by
      rw [hn]
      rfl
    have htext : q.text = String.ofList q.number.chars := by
      unfold K8sQuantity.text
      rw [hn]
      exact congrArg String.ofList (List.append_nil _)
    rw [parseK8sQuantity_bare hbare,htext,hn,parseI64_numeral]
    by_cases hfits : q.number.fraction = none ∧ FitsI64 q.number.integer
    · rw [if_pos hfits,if_pos hfits]
      by_cases hkey : key = "cpu"
      · simp only [hkey,Suffix.reading,Option.map_some,and_self,if_true]
      · simp only [hkey,Suffix.reading,Option.map_some,false_and,if_false,mul_one,saturate_of_fits hfits.2]
    · rw [if_neg hfits,if_neg hfits]
      rfl
  · rw [Suffix.reading_of_ne hn]
    cases hs : q.suffix.stored with
    | none =>
      rw [parseK8sQuantity_bare hs,parseI64_unread hs hn,Option.map_none,Option.map_none,Option.map_none,ite_self]
    | some p =>
      have hunit := Suffix.stored_unit hs
      rw [parseK8sQuantity_suffixed hs,parseI64_numeral]
      by_cases hfits : q.number.fraction = none ∧ FitsI64 q.number.integer
      · rw [if_pos hfits,if_pos hfits]
        simp only [Option.map_some,hunit,and_false,if_false]
      · rw [if_neg hfits,if_neg hfits]
        rfl

/-! ## Exact readings -/

/-- How many of a unit make one. -/
def perOne : ResourceUnit → ℤ
  | .millicores => 1000
  | _ => 1

/-- The amount in a unit, rounded up to a whole number of units that fits. -/
def rounded (unit : ResourceUnit) (amount : ℚ) : ℤ := saturate ⌈amount * perOne unit⌉

/-- A reading of an amount for a key: millicores for CPU and whole units for the rest. -/
def Denotes (key : String) (amount : ℚ) (r : ResourceQuantity) : Prop :=
  (r.unit = .millicores ↔ key = "cpu") ∧ r.value = rounded r.unit amount

/-- The parser returns the amount that a text denotes. -/
def Exact (key : String) (q : K8sQuantity) : Prop :=
  ∃ r, parseK8sQuantityForKey key q.text = some r ∧ Denotes key q.amount r

/-- Two texts are read as one quantity. -/
def Agree (key : String) (q q' : K8sQuantity) : Prop :=
  ∃ r, parseK8sQuantityForKey key q.text = some r ∧ parseK8sQuantityForKey key q'.text = some r

/-- The unit in which a suffix is read, for the suffixes that are. -/
def Suffix.unit (key : String) : Suffix → Option ResourceUnit
  | none => some (if key = "cpu" then .millicores else .count)
  | milli => some .millicores
  | kilo | mega | giga | kibi | mebi | gibi | tebi => some .bytes
  | _ => Option.none

/-- An integer that fits, with a suffix that is read in a unit. -/
def Legible (key : String) (q : K8sQuantity) (unit : ResourceUnit) : Prop :=
  q.number.fraction = none ∧ FitsI64 q.number.integer ∧ q.suffix.unit key = some unit

theorem Suffix.unit_reading (key : String) (u : Suffix) : u.unit key = (u.reading key).map Prod.snd := by
  cases u with
  | none =>
    by_cases h : key = "cpu" <;> simp only [Suffix.unit,Suffix.reading,h,if_true,if_false,Option.map_some]
  | _ => rfl

/-- The factor of a suffix that is read counts its unit. -/
theorem Suffix.reading_factor {key : String} {u : Suffix} {p : ℤ × ResourceUnit} (h : u.reading key = some p) :
    (p.1 : ℚ) = u.factor * perOne p.2 := by
  cases u with
  | none =>
    by_cases hkey : key = "cpu"
    · simp only [Suffix.reading,hkey,if_true] at h
      cases h
      norm_num [Suffix.factor,perOne]
    · simp only [Suffix.reading,hkey,if_false] at h
      cases h
      norm_num [Suffix.factor,perOne]
  | _ =>
    cases h <;> norm_num [Suffix.factor,perOne]

variable {key : String} {q q' : K8sQuantity} {unit : ResourceUnit} {r : ResourceQuantity}

theorem Legible.reading (h : Legible key q unit) : ∃ factor, q.suffix.reading key = some (factor,unit) := by
  have hunit := h.2.2
  rw [Suffix.unit_reading] at hunit
  obtain ⟨⟨factor,u⟩,hp,rfl⟩ := Option.map_eq_some_iff.mp hunit
  exact ⟨factor,hp⟩

/-- A whole number of units is not rounded. -/
theorem rounded_of_reading {factor : ℤ} (hf : q.number.fraction = none)
    (hr : q.suffix.reading key = some (factor,unit)) :
    rounded unit q.amount = saturate (q.number.integer * factor) := by
  have hfactor : (factor : ℚ) = q.suffix.factor * perOne unit := Suffix.reading_factor hr
  have hamount : q.amount * perOne unit = ((q.number.integer * factor : ℤ) : ℚ) :=
    calc
      q.amount * perOne unit = q.number.integer * q.suffix.factor * perOne unit := by
        unfold K8sQuantity.amount
        rw [Numeral.amount_of_whole hf]
      _ = q.number.integer * factor := by rw [mul_assoc,hfactor]
      _ = ((q.number.integer * factor : ℤ) : ℚ) := (Int.cast_mul _ _).symm
  unfold rounded
  rw [hamount,Int.ceil_intCast]

/-- What the parser returns. -/
theorem parseK8sQuantityForKey_eq_some :
    parseK8sQuantityForKey key q.text = some r ↔ Legible key q r.unit ∧ r.value = rounded r.unit q.amount := by
  rw [parseK8sQuantityForKey_text]
  constructor
  · intro h
    by_cases hfits : q.number.fraction = none ∧ FitsI64 q.number.integer
    · rw [if_pos hfits] at h
      obtain ⟨p,hp,rfl⟩ := Option.map_eq_some_iff.mp h
      refine ⟨⟨hfits.1,hfits.2,?_⟩,(rounded_of_reading hfits.1 hp).symm⟩
      rw [Suffix.unit_reading,hp]
      rfl
    · rw [if_neg hfits] at h
      cases h
  · rintro ⟨hl,hvalue⟩
    obtain ⟨factor,hr⟩ := hl.reading
    rw [if_pos ⟨hl.1,hl.2.1⟩,hr,Option.map_some,← rounded_of_reading hl.1 hr,← hvalue]

theorem exact_iff : Exact key q ↔ ∃ unit, Legible key q unit ∧ (unit = .millicores ↔ key = "cpu") := by
  constructor
  · rintro ⟨r,hr,hunit,-⟩
    exact ⟨r.unit,(parseK8sQuantityForKey_eq_some.mp hr).1,hunit⟩
  · rintro ⟨unit,hl,hunit⟩
    refine ⟨⟨rounded unit q.amount,unit⟩,?_,hunit,rfl⟩
    exact parseK8sQuantityForKey_eq_some.mpr ⟨hl,rfl⟩

theorem agree_iff :
    Agree key q q' ↔
      ∃ unit, Legible key q unit ∧ Legible key q' unit ∧ rounded unit q.amount = rounded unit q'.amount := by
  constructor
  · rintro ⟨r,hq,hq'⟩
    obtain ⟨hl,hvalue⟩ := parseK8sQuantityForKey_eq_some.mp hq
    obtain ⟨hl',hvalue'⟩ := parseK8sQuantityForKey_eq_some.mp hq'
    exact ⟨r.unit,hl,hl',hvalue.symm.trans hvalue'⟩
  · rintro ⟨unit,hl,hl',hvalue⟩
    refine ⟨⟨rounded unit q.amount,unit⟩,?_,?_⟩
    · exact parseK8sQuantityForKey_eq_some.mpr ⟨hl,rfl⟩
    · exact parseK8sQuantityForKey_eq_some.mpr ⟨hl',hvalue⟩

/-- Exactly the integers that fit are read, with a suffix that the parser knows and whose unit is
that of the key; two of them that denote one amount are read alike when they share the unit. -/
theorem parseK8sQuantityForKey_exact_iff (key : String) (q : K8sQuantity) :
    (Exact key q ↔ ∃ unit, Legible key q unit ∧ (unit = .millicores ↔ key = "cpu")) ∧
      ∀ q', (q.amount = q'.amount → Agree key q q') ↔
        (q.amount = q'.amount → ∃ unit, Legible key q unit ∧ Legible key q' unit) := by
  refine ⟨exact_iff,fun q' => ⟨fun h heq => ?_,fun h heq => ?_⟩⟩
  · obtain ⟨unit,hl,hl',-⟩ := agree_iff.mp (h heq)
    exact ⟨unit,hl,hl'⟩
  · obtain ⟨unit,hl,hl'⟩ := h heq
    exact agree_iff.mpr ⟨unit,hl,hl',by rw [heq]⟩

/-- Half a core, with a point. -/
def halfCore : K8sQuantity where
  number :=
    { sign := .none
      whole := [0]
      fraction := some [5]
      digits := .inl (List.cons_ne_nil _ _) }
  suffix := .none

/-- One Gi, by its suffix. -/
def oneGibi : K8sQuantity where
  number :=
    { sign := .none
      whole := [1]
      fraction := none
      digits := .inl (List.cons_ne_nil _ _) }
  suffix := .gibi

/-- One Gi, as a number of bytes without a suffix. -/
def gibiBytes : K8sQuantity where
  number :=
    { sign := .none
      whole := [1,0,7,3,7,4,1,8,2,4]
      fraction := none
      digits := .inl (List.cons_ne_nil _ _) }
  suffix := .none

theorem amount_oneGibi : oneGibi.amount = gibiBytes.amount := by
  norm_num [K8sQuantity.amount,oneGibi,gibiBytes,Numeral.amount,Sign.factor,Digits.value,Numeral.fractionAmount,
    Suffix.factor]

/-- Half a core is not read, and one Gi is read in two units. -/
theorem half_core_dropped :
    halfCore.text = "0.5" ∧ oneGibi.text = "1Gi" ∧ gibiBytes.text = "1073741824" ∧ ¬Exact "cpu" halfCore ∧
      oneGibi.amount = gibiBytes.amount ∧ ¬Agree "memory" oneGibi gibiBytes := by
  refine ⟨rfl,rfl,rfl,?_,amount_oneGibi,?_⟩
  · rintro ⟨r,hr,-⟩
    exact absurd (parseK8sQuantityForKey_eq_some.mp hr).1.1 (by decide)
  · intro h
    obtain ⟨unit,⟨-,-,h1⟩,⟨-,-,h2⟩,-⟩ := agree_iff.mp h
    cases h1
    cases h2

end KubeAir.Adapters.Quantity
