import KubeAir.Adapters.Admission
import Mathlib.Data.UInt

/-! # Eviction thresholds

The thresholds of the eviction manager, their parser, and the evaluator that compares the
resources of the node with them.
-/
namespace KubeAir.Adapters.Eviction
open Core Admission

/-! ## Numbers -/

/-- The number that a list of decimal digits spells. -/
def decimalValue (digits : List Char) : ℕ := digits.foldl (fun n c => 10 * n + (c.toNat - 48)) 0

/-- A sign in front of a number: whether it is a minus, and what follows. -/
def splitSign : List Char → Bool × List Char
  | '+' :: rest => (false,rest)
  | '-' :: rest => (true,rest)
  | cs => (false,cs)

/-- The exponent after the `e` of a number. -/
def parseExponent (cs : List Char) : Option ℤ :=
  let (negative,digits) := splitSign cs
  if digits.isEmpty || !digits.all Char.isDigit then none
  else if negative then some (-(decimalValue digits : ℤ)) else some (decimalValue digits)

/-- `mantissa * 10 ^ exponent`, rounded once. -/
def scientific (mantissa : ℕ) (exponent : ℤ) : Float :=
  Float.ofScientific mantissa (exponent < 0) exponent.natAbs

/-- Digits with at most one point among them, then perhaps an exponent. -/
def parseNumber (cs : List Char) : Option Float :=
  let whole := cs.takeWhile Char.isDigit
  let (fraction,rest) := match cs.dropWhile Char.isDigit with
    | '.' :: rest => (rest.takeWhile Char.isDigit,rest.dropWhile Char.isDigit)
    | rest => ([],rest)
  if whole.isEmpty && fraction.isEmpty then none
  else
    let mantissa := decimalValue (whole ++ fraction)
    match rest with
    | [] => some (scientific mantissa (-(fraction.length : ℤ)))
    | c :: cs =>
      if c = 'e' ∨ c = 'E' then (parseExponent cs).map (fun e => scientific mantissa (e - fraction.length)) else none

/-- `str::parse::<f64>`. -/
def parseF64 (s : String) : Option Float :=
  let (negative,cs) := splitSign s.toList
  let word := String.ofList (cs.map Char.toLower)
  let magnitude :=
    if word = "inf" ∨ word = "infinity" then some (1.0 / 0.0)
    else if word = "nan" then some (0.0 / 0.0)
    else parseNumber cs
  magnitude.map (fun x => if negative then -x else x)

/-! ## Thresholds -/

inductive ThresholdValue
  | absolute (quantity : UInt64)
  | percentage (fraction : Float)

structure EvictionThreshold where
  resource : String
  value : ThresholdValue

/-- The suffixes of a quantity, in the order in which they are tried. -/
def suffixes : List (String × UInt64) :=
  [("Ki",1024),("Mi",1024 * 1024),("Gi",1024 * 1024 * 1024),("Ti",1024 ^ 4),("Pi",1024 ^ 5),
    ("K",1000),("M",1000 * 1000),("G",1000 ^ 3),("T",1000 ^ 4)]

/-- `(n * multiplier as f64) as u64`. -/
def scaled (n : Float) (multiplier : UInt64) : UInt64 := (n * multiplier.toFloat).toUInt64

/-- Kubernetes quantity strings: Ki, Mi, Gi, Ti and so on. -/
def parseQuantity (s : String) : Option UInt64 :=
  match suffixes.findSome? (fun x => ((stripSuffix s x.1).bind parseF64).map (scaled · x.2)) with
  | some quantity => some quantity
  | none => parseU64 s

namespace EvictionThreshold

/-- A threshold string like "100Mi" or "10%". -/
def parse (resource value : String) : Option EvictionThreshold :=
  let trimmed := trim value
  match stripSuffix trimmed "%" with
  | some pct => (parseF64 pct).map (fun p => ⟨resource,.percentage (p / 100.0)⟩)
  | none => (parseQuantity trimmed).map (fun b => ⟨resource,.absolute b⟩)

def isExceeded (t : EvictionThreshold) (current capacity : UInt64) : Bool :=
  match t.value with
  | .absolute abs => current < abs
  | .percentage pct => current < (capacity.toFloat * pct).toUInt64

end EvictionThreshold

/-! ## The evaluator -/

structure ResourcePressure where
  memoryPressure : Bool := false
  diskPressure : Bool := false
  pidPressure : Bool := false
deriving DecidableEq, Repr

structure NodeResources where
  availableMemoryBytes : UInt64
  totalMemoryBytes : UInt64
  availableDiskBytes : UInt64
  totalDiskBytes : UInt64
  availablePids : UInt64
  totalPids : UInt64

structure EvictionEvaluator where
  hardThresholds : List EvictionThreshold
  softThresholds : List EvictionThreshold

namespace EvictionEvaluator

/-- The thresholds of a map that parse. -/
def parseAll (m : HashMap String String) : List EvictionThreshold :=
  m.entries.filterMap (fun e => EvictionThreshold.parse e.1 e.2)

def new (hard soft : HashMap String String) : EvictionEvaluator := ⟨parseAll hard,parseAll soft⟩

/-- The available amount and the capacity that a threshold is compared with. -/
def measured (resources : NodeResources) : String → Option (UInt64 × UInt64)
  | "memory.available" => some (resources.availableMemoryBytes,resources.totalMemoryBytes)
  | "nodefs.available" => some (resources.availableDiskBytes,resources.totalDiskBytes)
  | "pid.available" => some (resources.availablePids,resources.totalPids)
  | _ => none

/-- One round of the loop over the hard thresholds. -/
def evaluateThreshold (resources : NodeResources) (pressure : ResourcePressure) (threshold : EvictionThreshold) :
    ResourcePressure :=
  match measured resources threshold.resource with
  | none => pressure
  | some (current,capacity) =>
    if threshold.isExceeded current capacity then
      match threshold.resource with
      | "memory.available" => { pressure with memoryPressure := true }
      | "nodefs.available" => { pressure with diskPressure := true }
      | "pid.available" => { pressure with pidPressure := true }
      | _ => pressure
    else pressure

def evaluate (e : EvictionEvaluator) (resources : NodeResources) : ResourcePressure :=
  e.hardThresholds.foldl (evaluateThreshold resources) {}

end EvictionEvaluator

/-! ## Quantities taken apart -/

/-- A search that only one member of the list answers. -/
theorem findSome?_eq_of_unique {α β : Type} {l : List α} {f : α → Option β} {x : α} (hx : x ∈ l)
    (h : ∀ y ∈ l, f y ≠ none → y = x) : l.findSome? f = f x := by
  cases hf : l.findSome? f with
  | none => exact (List.findSome?_eq_none_iff.mp hf x hx).symm
  | some b =>
    obtain ⟨y,hy,hb⟩ := List.exists_of_findSome?_eq_some hf
    have he := h y hy (by rw [hb]; exact Option.some_ne_none b)
    rw [← he,hb]

/-- The number and the suffix that a quantity consists of. -/
def splitQuantity (s : String) : Option (String × String × UInt64) :=
  suffixes.findSome? (fun x => (stripSuffix s x.1).map (fun number => (number,x)))

theorem stripSuffix_eq_some {s suffix rest : String} (h : stripSuffix s suffix = some rest) :
    s.toList = rest.toList ++ suffix.toList := by
  unfold stripSuffix at h
  by_cases hs : suffix.toList <:+ s.toList
  · rw [if_pos hs] at h
    obtain ⟨t,ht⟩ := hs
    cases h
    rw [← ht]
    simp
  · rw [if_neg hs] at h
    cases h

theorem parseUnsigned_chars {bits : ℕ} {s : String} {n : ℕ} (h : parseUnsigned bits s = some n) :
    s.toList ≠ [] ∧ ∀ c ∈ s.toList, c = '+' ∨ c.isDigit := by
  cases hs : s.toList with
  | nil => simp [parseUnsigned,hs] at h
  | cons c rest =>
    refine ⟨by simp,?_⟩
    intro d hd
    by_cases hc : c = '+'
    · subst hc
      rcases List.mem_cons.mp hd with rfl | hd
      · exact .inl rfl
      · simp [parseUnsigned,hs] at h
        exact .inr (h.1.1.2 d hd)
    · simp [parseUnsigned,hs,hc] at h
      rcases List.mem_cons.mp hd with rfl | hd
      · exact .inr h.1.1.1
      · exact .inr (h.1.1.2 d hd)

theorem parseU64_chars {s : String} {n : UInt64} (h : parseU64 s = some n) :
    s.toList ≠ [] ∧ ∀ c ∈ s.toList, c = '+' ∨ c.isDigit := by
  obtain ⟨m,hm,-⟩ := Option.map_eq_some_iff.mp h
  exact parseUnsigned_chars hm

/-- A text has at most one of the suffixes. -/
theorem suffixes_unambiguous : ∀ x ∈ suffixes, ∀ y ∈ suffixes, x.1.toList <:+ y.1.toList → x = y := by decide +kernel

/-- Each suffix ends in a character that no integer has. -/
theorem suffixes_letters :
    ∀ x ∈ suffixes, ∀ c ∈ x.1.toList, c ≠ '+' ∧ c.isDigit = false ∧ c ≠ '%' ∧ isWhitespace c = false := by
  have hall : (suffixes.all fun x => x.1.toList.all fun c =>
      decide (c ≠ '+' ∧ c.isDigit = false ∧ c ≠ '%' ∧ isWhitespace c = false)) = true := by
    decide +kernel
  intro x hx c hc
  exact of_decide_eq_true (List.all_eq_true.mp (List.all_eq_true.mp hall x hx) c hc)

theorem suffixes_nonempty : ∀ x ∈ suffixes, ∃ c, c ∈ x.1.toList := by
  intro x hx
  have h : x.1.toList ≠ [] := by
    revert x
    decide +kernel
  exact List.exists_mem_of_ne_nil _ h

theorem suffix_unique {s a b : String} {x y : String × UInt64} (hx : x ∈ suffixes) (hy : y ∈ suffixes)
    (ha : stripSuffix s x.1 = some a) (hb : stripSuffix s y.1 = some b) : x = y := by
  have hsx : x.1.toList <:+ s.toList := ⟨a.toList,(stripSuffix_eq_some ha).symm⟩
  have hsy : y.1.toList <:+ s.toList := ⟨b.toList,(stripSuffix_eq_some hb).symm⟩
  rcases List.suffix_or_suffix_of_suffix hsx hsy with h | h
  · exact suffixes_unambiguous x hx y hy h
  · exact (suffixes_unambiguous y hy x hx h).symm

/-- A quantity with a suffix is not an integer. -/
theorem parseU64_suffixed {s number : String} {x : String × UInt64} (hx : x ∈ suffixes)
    (hs : stripSuffix s x.1 = some number) : parseU64 s = none := by
  cases h : parseU64 s with
  | none => rfl
  | some n =>
    obtain ⟨c,hc⟩ := suffixes_nonempty x hx
    have hl := suffixes_letters x hx c hc
    have hm : c ∈ s.toList := by
      rw [stripSuffix_eq_some hs]
      exact List.mem_append_right _ hc
    rcases (parseU64_chars h).2 c hm with he | he
    · exact absurd he hl.1
    · rw [hl.2.1] at he
      cases he

theorem splitQuantity_eq_none {s : String} :
    splitQuantity s = none ↔ ∀ x ∈ suffixes, stripSuffix s x.1 = none := by
  simp only [splitQuantity,List.findSome?_eq_none_iff,Option.map_eq_none_iff]

theorem splitQuantity_eq_some {s number : String} {x : String × UInt64} :
    splitQuantity s = some (number,x) ↔ x ∈ suffixes ∧ stripSuffix s x.1 = some number := by
  constructor
  · intro h
    obtain ⟨y,hy,hs⟩ := List.exists_of_findSome?_eq_some h
    obtain ⟨n,hn,he⟩ := Option.map_eq_some_iff.mp hs
    cases he
    exact ⟨hy,hn⟩
  · rintro ⟨hx,hs⟩
    unfold splitQuantity
    rw [findSome?_eq_of_unique hx ?_,hs]
    · rfl
    · intro y hy hne
      cases hb : stripSuffix s y.1 with
      | none => exact absurd (by rw [hb]; rfl) hne
      | some b => exact suffix_unique hy hx hb hs

/-- What the parser makes of a quantity, once its suffix is told apart from its number. -/
theorem parseQuantity_eq (s : String) : parseQuantity s = match splitQuantity s with
    | none => parseU64 s
    | some (number,x) => (parseF64 number).map (scaled · x.2) := by
  unfold parseQuantity
  cases h : splitQuantity s with
  | none =>
    have hn : suffixes.findSome? (fun x => ((stripSuffix s x.1).bind parseF64).map (scaled · x.2)) = none := by
      refine List.findSome?_eq_none_iff.mpr ?_
      intro x hx
      rw [splitQuantity_eq_none.mp h x hx]
      rfl
    rw [hn]
  | some y =>
    obtain ⟨number,x⟩ := y
    obtain ⟨hx,hs⟩ := splitQuantity_eq_some.mp h
    have hu : suffixes.findSome? (fun x => ((stripSuffix s x.1).bind parseF64).map (scaled · x.2)) =
        ((stripSuffix s x.1).bind parseF64).map (scaled · x.2) := by
      refine findSome?_eq_of_unique hx ?_
      intro y hy hne
      cases hb : stripSuffix s y.1 with
      | none => exact absurd (by rw [hb]; rfl) hne
      | some b => exact suffix_unique hy hx hb hs
    rw [hu,hs,Option.bind_some,parseU64_suffixed hx hs]
    show _ = (parseF64 number).map (scaled · x.2)
    cases (parseF64 number).map (scaled · x.2) with
    | none => rfl
    | some n => rfl

/-! ## Accepted quantities -/

theorem isWhitespace_codes {c : Char} (h : isWhitespace c = true) :
    c.toNat ≤ 32 ∨ 133 ≤ c.toNat := by
  simp only [isWhitespace,Bool.or_eq_true,Bool.and_eq_true,decide_eq_true_eq,List.contains_eq_mem,
    List.mem_cons,List.not_mem_nil,or_false] at h
  omega

theorem isWhitespace_not_digit {c : Char} (h : isWhitespace c = true) : c.isDigit = false := by
  have hc := isWhitespace_codes h
  simp only [Char.isDigit,Bool.and_eq_false_imp,decide_eq_true_eq,decide_eq_false_iff_not]
  intro h1 h2
  rw [ge_iff_le,UInt32.le_iff_toNat_le] at h1
  rw [UInt32.le_iff_toNat_le] at h2
  change 48 ≤ c.toNat at h1
  change c.toNat ≤ 57 at h2
  omega

theorem isWhitespace_toLower {c : Char} (h : isWhitespace c = true) : c.toLower = c := by
  have hc := isWhitespace_codes h
  unfold Char.toLower
  rw [dif_neg]
  rintro ⟨h1,h2⟩
  rw [ge_iff_le,UInt32.le_iff_toNat_le] at h1
  rw [UInt32.le_iff_toNat_le] at h2
  change 65 ≤ c.toNat at h1
  change c.toNat ≤ 90 at h2
  omega

theorem parseNumber_blank {c : Char} (h : isWhitespace c = true) (cs : List Char) : parseNumber (c :: cs) = none := by
  have hd : c.isDigit = false := isWhitespace_not_digit h
  have hp : c ≠ '.' := by
    rintro rfl
    exact absurd h (by decide)
  simp [parseNumber,hd,hp]

/-- A number does not start with a blank. -/
theorem parseF64_head {s : String} {x : Float} (h : parseF64 s = some x) :
    ∃ c cs, s.toList = c :: cs ∧ isWhitespace c = false := by
  cases hs : s.toList with
  | nil => simp [parseF64,hs,splitSign,parseNumber] at h
  | cons c cs =>
    refine ⟨c,cs,rfl,?_⟩
    cases hw : isWhitespace c with
    | false => rfl
    | true =>
      have hplus : c ≠ '+' := by
        rintro rfl
        exact absurd hw (by decide)
      have hminus : c ≠ '-' := by
        rintro rfl
        exact absurd hw (by decide)
      have hword : ∀ w : String, (w.toList.head?.map isWhitespace) = some false →
          String.ofList ((c :: cs).map Char.toLower) ≠ w := by
        intro w hw' he
        have hl := congrArg String.toList he
        rw [String.toList_ofList,List.map_cons,isWhitespace_toLower hw] at hl
        rw [← hl,List.head?_cons,Option.map_some,hw] at hw'
        cases hw'
      have hsign : splitSign (c :: cs) = (false,c :: cs) := by simp [splitSign,hplus,hminus]
      have h1 := hword "inf" (by decide)
      have h2 := hword "infinity" (by decide)
      have h3 := hword "nan" (by decide)
      unfold parseF64 at h
      rw [hs,hsign] at h
      dsimp only at h
      rw [if_neg (not_or.mpr ⟨h1,h2⟩),if_neg h3,parseNumber_blank hw] at h
      cases h

theorem trim_eq {s : String} {c d : Char} {cs ds : List Char} (hc : s.toList = c :: cs) (hd : s.toList = ds ++ [d])
    (hwc : isWhitespace c = false) (hwd : isWhitespace d = false) : trim s = s := by
  unfold trim
  rw [hc,List.dropWhile_cons_of_neg (by simp [hwc]),← hc,hd,List.reverse_append,List.reverse_singleton,
    List.singleton_append,List.dropWhile_cons_of_neg (by simp [hwd]),List.reverse_cons,List.reverse_reverse,← hd]
  simp


theorem integerChar {c : Char} (h : c = '+' ∨ c.isDigit) : isWhitespace c = false ∧ c ≠ '%' := by
  rcases h with rfl | h
  · exact ⟨by decide,by decide⟩
  · refine ⟨?_,?_⟩
    · cases hw : isWhitespace c with
      | false => rfl
      | true =>
        rw [isWhitespace_not_digit hw] at h
        cases h
    · rintro rfl
      exact absurd h (by decide)

/-- The first and the last character of a quantity. -/
theorem parseQuantity_ends {s : String} {q : UInt64} (h : parseQuantity s = some q) :
    ∃ c cs d ds, s.toList = c :: cs ∧ s.toList = ds ++ [d] ∧
      isWhitespace c = false ∧ isWhitespace d = false ∧ d ≠ '%' := by
  rw [parseQuantity_eq] at h
  cases hq : splitQuantity s with
  | none =>
    rw [hq] at h
    obtain ⟨hne,hall⟩ := parseU64_chars h
    obtain ⟨c,cs,hc⟩ := List.exists_cons_of_ne_nil hne
    have hlast := (List.dropLast_append_getLast hne).symm
    have hd := integerChar (hall _ (List.getLast_mem hne))
    exact ⟨c,cs,_,_,hc,hlast,(integerChar (hall c (by rw [hc]; exact List.mem_cons_self))).1,hd.1,hd.2⟩
  | some y =>
    obtain ⟨number,x⟩ := y
    obtain ⟨hx,hs⟩ := splitQuantity_eq_some.mp hq
    rw [hq] at h
    obtain ⟨n,hn,-⟩ := Option.map_eq_some_iff.mp h
    obtain ⟨c,cs,hc,hw⟩ := parseF64_head hn
    obtain ⟨a,ha⟩ := suffixes_nonempty x hx
    have hne : x.1.toList ≠ [] := List.ne_nil_of_mem ha
    have hd := suffixes_letters x hx _ (List.getLast_mem hne)
    refine ⟨c,cs ++ x.1.toList,x.1.toList.getLast hne,number.toList ++ x.1.toList.dropLast,?_,?_,hw,hd.2.2.2,hd.2.2.1⟩
    · rw [stripSuffix_eq_some hs,hc,List.cons_append]
    · rw [stripSuffix_eq_some hs,List.append_assoc,List.dropLast_append_getLast hne]

/-- A quantity has no blanks around it and is no percentage. -/
theorem parseQuantity_bare {s : String} {q : UInt64} (h : parseQuantity s = some q) :
    trim s = s ∧ stripSuffix s "%" = none := by
  obtain ⟨c,cs,d,ds,hc,hd,hwc,hwd,hp⟩ := parseQuantity_ends h
  refine ⟨trim_eq hc hd hwc hwd,?_⟩
  unfold stripSuffix
  rw [if_neg]
  rintro ⟨t,ht⟩
  rw [hd] at ht
  have := List.append_inj_right' ht rfl
  cases this
  exact hp rfl

theorem EvictionThreshold.parse_quantity {resource s : String} {q : UInt64} (h : parseQuantity s = some q) :
    EvictionThreshold.parse resource s = some ⟨resource,.absolute q⟩ := by
  obtain ⟨ht,hp⟩ := parseQuantity_bare h
  unfold EvictionThreshold.parse
  rw [ht]
  dsimp only
  rw [hp]
  dsimp only
  rw [h,Option.map_some]

end KubeAir.Adapters.Eviction
