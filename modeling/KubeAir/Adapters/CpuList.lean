import KubeAir.Adapters.CpuManager
import KubeAir.Adapters.LogEntry
import KubeAir.Adapters.Quantity
import KubeAir.Wire.Ranges
import Mathlib.Order.Interval.Finset.Nat

/-! # CPU lists

The text of a set of CPUs: how it is read, how it is written with its ranges collapsed, and how
the memory manager reads it back. IDs are numbers of 32 bits, and an addition that leaves them is
a panic.
-/
namespace KubeAir.Adapters.CpuList
open Core Wire Ranges Admission

/-- `CpuSet` as the source has it, with IDs of 32 bits. -/
@[ext] structure CpuIds where
  cpus : CpuSet
  fits : ∀ cpu ∈ cpus, cpu < 2 ^ 32

/-- `str::parse::<u32>`. -/
def parseU32 (s : String) : Option UInt32 := (parseUnsigned 32 s).map UInt32.ofNat

namespace CpuIds

def empty : CpuIds := ⟨∅,fun _ h => absurd h (Finset.notMem_empty _)⟩

def insert (s : CpuIds) (cpu : UInt32) : CpuIds where
  cpus := Insert.insert cpu.toNat s.cpus
  fits := by
    intro c hc
    rcases Finset.mem_insert.mp hc with rfl | hc
    · exact cpu.toNat_lt
    · exact s.fits c hc

/-- An insertion of each CPU of `a..=b`. -/
def insertRange (s : CpuIds) (a b : UInt32) : CpuIds where
  cpus := s.cpus ∪ Finset.Icc a.toNat b.toNat
  fits := by
    intro c hc
    rcases Finset.mem_union.mp hc with hc | hc
    · exact s.fits c hc
    · exact (Finset.mem_Icc.mp hc).2.trans_lt b.toNat_lt

def invalidStart (a : List Char) : KubeletError := .config ("invalid cpuset range start '" ++ String.ofList a ++ "'")

def invalidEnd (b : List Char) : KubeletError := .config ("invalid cpuset range end '" ++ String.ofList b ++ "'")

def invalidId (part : String) : KubeletError := .config ("invalid cpu id '" ++ part ++ "'")

/-- One round of the loop over the parts between commas. -/
def parsePart (s : CpuIds) (part : List Char) : Except KubeletError CpuIds :=
  let part := trim (String.ofList part)
  if part = "" then .ok s
  else
    match splitOnce '-' part.toList with
    | some (a,b) =>
      match parseU32 (trim (String.ofList a)) with
      | none => .error (invalidStart a)
      | some start =>
        match parseU32 (trim (String.ofList b)) with
        | none => .error (invalidEnd b)
        | some stop => .ok (s.insertRange start stop)
    | none =>
      match parseU32 part with
      | none => .error (invalidId part)
      | some cpu => .ok (s.insert cpu)

/-- Parse a Linux cpuset string. -/
def parse (s : String) : Except KubeletError CpuIds := (s.toList.splitOn ',').foldlM parsePart empty

/-- `range_end + 1`. -/
def next (stop : ℕ) : Option ℕ := if stop + 1 < 2 ^ 32 then some (stop + 1) else none

/-- The loop over the CPUs after the first, and the range that is left in the end. -/
def collapsedParts (start stop : ℕ) : List ℕ → Option (List String)
  | [] => some [cpusetRange start stop]
  | cpu :: rest => do
    let after ← next stop
    if cpu = after then collapsedParts start cpu rest
    else
      let parts ← collapsedParts cpu cpu rest
      some (cpusetRange start stop :: parts)

/-- Format as a Linux cpuset string; nothing is a panic. -/
def toCpusetString (s : CpuIds) : Option String :=
  match Finset.sort s.cpus with
  | [] => some ""
  | cpu :: rest => (collapsedParts cpu cpu rest).map (String.intercalate ",")

end CpuIds

/-- The CPUs of one part of the text, when it is read back. -/
def rereadPart (part : List Char) : List ℕ :=
  match splitOnce '-' part with
  | some (a,b) =>
    let a := (parseU32 (String.ofList a)).getD 0
    let b := (parseU32 (String.ofList b)).getD 0
    between (a.toNat,b.toNat)
  | none => ((parseU32 (String.ofList part)).map (fun n => [n.toNat])).getD []

/-- `read_numa_cpulist` of the content of the file, if it can be read; nothing is a panic. -/
def readNumaCpulist (content : Option String) : Option (List ℕ) :=
  match content.bind (fun s => (CpuIds.parse (trim s)).toOption) with
  | none => some []
  | some cs => do
    let s ← cs.toCpusetString
    some ((s.toList.splitOn ',').flatMap rereadPart)

/-! ## Numbers and ranges as text -/

theorem parseUnsigned_toString {n bits : ℕ} (h : n < 2 ^ bits) : parseUnsigned bits (toString n) = some n := by
  have hdigits : ∀ c ∈ (toString n).toList, c.isDigit = true := fun c => isDigit_of_mem_toString
  have hvalue := foldl_toString n
  obtain ⟨c,cs,hcs⟩ := List.exists_cons_of_ne_nil (toList_toString_ne_nil n)
  rw [hcs] at hdigits hvalue
  have hplus : c ≠ '+' := by
    rintro rfl
    exact absurd (hdigits '+' List.mem_cons_self) (by decide)
  unfold parseUnsigned
  rw [hcs]
  dsimp only
  split
  · next heq => exact absurd (List.cons.inj heq).1 hplus
  · rw [hvalue,List.all_eq_true.mpr hdigits]
    simpa using h

theorem parseU32_toString {n : ℕ} (h : n < 2 ^ 32) : ∃ x : UInt32, parseU32 (toString n) = some x ∧ x.toNat = n := by
  refine ⟨UInt32.ofNat n,?_,UInt32.toNat_ofNat_of_lt' h⟩
  unfold parseU32
  rw [parseUnsigned_toString h]
  rfl

theorem toList_cpusetRange (a b : ℕ) : (cpusetRange a b).toList =
    if a = b then (toString a).toList else (toString a).toList ++ '-' :: (toString b).toList := by
  unfold cpusetRange
  split
  · rfl
  · rw [String.toList_append,String.toList_append,List.append_assoc]
    rfl

theorem mem_cpusetRange {a b : ℕ} {c : Char} (h : c ∈ (cpusetRange a b).toList) : c.isDigit = true ∨ c = '-' := by
  rw [toList_cpusetRange] at h
  split at h
  · exact .inl (isDigit_of_mem_toString h)
  · rcases List.mem_append.mp h with h | h
    · exact .inl (isDigit_of_mem_toString h)
    · rcases List.mem_cons.mp h with rfl | h
      · exact .inr rfl
      · exact .inl (isDigit_of_mem_toString h)

theorem splitOnce_cpusetRange (a b : ℕ) : splitOnce '-' (cpusetRange a b).toList =
    if a = b then none else some ((toString a).toList,(toString b).toList) := by
  rw [toList_cpusetRange]
  split
  · exact splitOnce_of_notMem (notMem_toString (by decide))
  · exact splitOnce_append (notMem_toString (by decide)) _

/-- Digits and signs are no white space. -/
theorem isWhitespace_eq_false {c : Char} (h : c.isDigit = true ∨ c = '-') : isWhitespace c = false := by
  rcases h with h | rfl
  · cases hspace : isWhitespace c with
    | false => rfl
    | true =>
      rw [Eviction.isWhitespace_not_digit hspace] at h
      cases h
  · decide

theorem cpusetRange_ne_nil (a b : ℕ) : (cpusetRange a b).toList ≠ [] := by
  rw [toList_cpusetRange]
  split
  · exact toList_toString_ne_nil a
  · simp

theorem trim_toString (n : ℕ) : trim (toString n) = toString n :=
  trim_of_none_blank fun _ hc => isWhitespace_eq_false (.inl (isDigit_of_mem_toString hc))

theorem trim_cpusetRange (a b : ℕ) : trim (cpusetRange a b) = cpusetRange a b :=
  trim_of_none_blank fun _ hc => isWhitespace_eq_false (mem_cpusetRange hc)

/-! ## Reading what was written -/

namespace CpuIds

/-- A written range is read as the CPUs of the range. -/
theorem parsePart_cpusetRange (s : CpuIds) {r : ℕ × ℕ} (hr : r.1 ≤ r.2) (hfits : r.2 < 2 ^ 32) :
    ∃ s', s.parsePart (cpusetRange r.1 r.2).toList = .ok s' ∧ s'.cpus = s.cpus ∪ (between r).toFinset := by
  obtain ⟨a,ha,hatoNat⟩ := parseU32_toString (hr.trans_lt hfits)
  obtain ⟨b,hb,hbtoNat⟩ := parseU32_toString hfits
  have hne : cpusetRange r.1 r.2 ≠ "" := fun h => cpusetRange_ne_nil r.1 r.2 (by rw [h]; rfl)
  unfold parsePart
  rw [String.ofList_toList,trim_cpusetRange]
  dsimp only
  rw [if_neg hne,splitOnce_cpusetRange]
  by_cases hsingle : r.1 = r.2
  · have hid : cpusetRange r.1 r.2 = toString r.1 := if_pos hsingle
    rw [if_pos hsingle,hid]
    dsimp only
    rw [ha]
    refine ⟨s.insert a,rfl,?_⟩
    ext n
    simp only [CpuIds.insert,Finset.mem_insert,Finset.mem_union,List.mem_toFinset,mem_between]
    rw [or_comm]
    refine or_congr_right ?_
    omega
  · rw [if_neg hsingle]
    dsimp only
    rw [String.ofList_toList,trim_toString,ha]
    dsimp only
    rw [String.ofList_toList,trim_toString,hb]
    refine ⟨s.insertRange a b,rfl,?_⟩
    ext n
    simp only [insertRange,Finset.mem_union,Finset.mem_Icc,List.mem_toFinset,mem_between]
    rw [hatoNat,hbtoNat]

/-- The text of some ranges. -/
def rangesText (ranges : List (ℕ × ℕ)) : String := ",".intercalate (ranges.map (fun r => cpusetRange r.1 r.2))

theorem foldlM_parsePart (s : CpuIds) {ranges : List (ℕ × ℕ)} (h : ∀ r ∈ ranges, r.1 ≤ r.2 ∧ r.2 < 2 ^ 32) :
    ∃ s', (ranges.map (fun r => (cpusetRange r.1 r.2).toList)).foldlM parsePart s = .ok s' ∧
      s'.cpus = s.cpus ∪ (expand ranges).toFinset := by
  induction ranges generalizing s with
  | nil => exact ⟨s,rfl,by simp [expand]⟩
  | cons r ranges ih =>
    obtain ⟨hr,hranges⟩ := List.forall_mem_cons.mp h
    obtain ⟨s₁,hs₁,hcpus₁⟩ := parsePart_cpusetRange s hr.1 hr.2
    obtain ⟨s₂,hs₂,hcpus₂⟩ := ih s₁ hranges
    refine ⟨s₂,?_,?_⟩
    · rw [List.map_cons,List.foldlM_cons,hs₁]
      exact hs₂
    · rw [hcpus₂,hcpus₁]
      ext n
      simp [expand]

theorem splitOn_rangesText {ranges : List (ℕ × ℕ)} (h : ranges ≠ []) :
    (rangesText ranges).toList.splitOn ',' = ranges.map (fun r => (cpusetRange r.1 r.2).toList) := by
  have hchars : (rangesText ranges).toList =
      List.intercalate [','] (ranges.map (fun r => (cpusetRange r.1 r.2).toList)) := by
    unfold rangesText
    rw [String.toList_intercalate,List.map_map]
    rfl
  rw [hchars]
  refine List.splitOn_intercalate ',' ?_ (by simpa using h)
  intro part hpart hcomma
  obtain ⟨r,-,rfl⟩ := List.mem_map.mp hpart
  rcases mem_cpusetRange hcomma with hdigit | hdash
  · exact absurd hdigit (by decide)
  · exact absurd hdash (by decide)

/-- The text of some ranges is read as their CPUs. -/
theorem parse_rangesText {ranges : List (ℕ × ℕ)} (h : ∀ r ∈ ranges, r.1 ≤ r.2 ∧ r.2 < 2 ^ 32) :
    ∃ s, parse (rangesText ranges) = .ok s ∧ s.cpus = (expand ranges).toFinset := by
  cases ranges with
  | nil => exact ⟨empty,rfl,rfl⟩
  | cons r ranges =>
    obtain ⟨s,hs,hcpus⟩ := foldlM_parsePart empty h
    refine ⟨s,?_,hcpus.trans (Finset.empty_union _)⟩
    unfold parse
    rw [splitOn_rangesText (List.cons_ne_nil _ _),hs]

/-! ## Writing -/

/-- The maximal ranges of the CPUs. -/
def ranges (s : CpuIds) : List (ℕ × ℕ) :=
  match Finset.sort s.cpus with
  | [] => []
  | cpu :: rest => collapse cpu cpu rest

theorem collapsedParts_eq {start stop : ℕ} {rest : List ℕ} (hsorted : (stop :: rest).Pairwise (· < ·))
    (hfits : ∀ cpu ∈ rest, cpu < 2 ^ 32) :
    collapsedParts start stop rest = some ((collapse start stop rest).map (fun r => cpusetRange r.1 r.2)) := by
  induction rest generalizing start stop with
  | nil => rfl
  | cons cpu rest ih =>
    obtain ⟨hfirst,hrest⟩ := List.pairwise_cons.mp hsorted
    obtain ⟨hcpu,hlater⟩ := List.forall_mem_cons.mp hfits
    have hnext : next stop = some (stop + 1) := by
      have hlt := hfirst cpu List.mem_cons_self
      exact if_pos (by omega)
    unfold collapsedParts collapse
    rw [hnext,Option.bind_eq_bind,Option.bind_some]
    split
    · exact ih hrest hlater
    · rw [ih hrest hlater]
      rfl

theorem sort_pairwise (s : CpuIds) : (Finset.sort s.cpus).Pairwise (· < ·) := (Finset.sortedLT_sort s.cpus).pairwise

/-- No addition overflows, and the text is that of the maximal ranges. -/
theorem toCpusetString_eq (s : CpuIds) : s.toCpusetString = some (rangesText s.ranges) := by
  have hsorted := sort_pairwise s
  have hfits : ∀ cpu ∈ Finset.sort s.cpus, cpu < 2 ^ 32 := fun cpu hcpu => s.fits cpu ((Finset.mem_sort _).mp hcpu)
  unfold toCpusetString ranges
  cases hcpus : Finset.sort s.cpus with
  | nil => rfl
  | cons cpu rest =>
    rw [hcpus] at hsorted hfits
    dsimp only
    rw [collapsedParts_eq hsorted (List.forall_mem_cons.mp hfits).2]
    rfl

theorem expand_ranges (s : CpuIds) : expand s.ranges = Finset.sort s.cpus := by
  unfold ranges
  cases Finset.sort s.cpus with
  | nil => rfl
  | cons cpu rest =>
    dsimp only
    rw [expand_collapse le_rfl,between_single]
    rfl

theorem separated_ranges (s : CpuIds) : Separated s.ranges := by
  have hsorted := sort_pairwise s
  unfold ranges
  cases hcpus : Finset.sort s.cpus with
  | nil => exact ⟨fun r hr => absurd hr List.not_mem_nil,List.Pairwise.nil⟩
  | cons cpu rest =>
    rw [hcpus] at hsorted
    exact separated_collapse hsorted le_rfl

theorem ranges_fit (s : CpuIds) : ∀ r ∈ s.ranges, r.1 ≤ r.2 ∧ r.2 < 2 ^ 32 := by
  intro r hr
  have hle := s.separated_ranges.nonempty r hr
  refine ⟨hle,s.fits r.2 ?_⟩
  have hmem : r.2 ∈ expand s.ranges := mem_expand.mpr ⟨r,hr,hle,le_rfl⟩
  rw [expand_ranges] at hmem
  exact (Finset.mem_sort _).mp hmem

/-- The set is read from its own text. -/
theorem parse_ranges (s : CpuIds) : parse (rangesText s.ranges) = .ok s := by
  obtain ⟨s',hs',hcpus⟩ := parse_rangesText s.ranges_fit
  rw [hs']
  refine congrArg Except.ok (CpuIds.ext ?_)
  rw [hcpus,expand_ranges,Finset.sort_toFinset]

/-- The text as it is written without a bound on the IDs. -/
theorem toCpusetString_cpus (s : CpuIds) : s.toCpusetString = some (CpuSet.toCpusetString s.cpus) := by
  have hparts : ∀ start stop rest, cpusetParts start stop rest =
      (collapse start stop rest).map (fun r => cpusetRange r.1 r.2) := by
    intro start stop rest
    induction rest generalizing start stop with
    | nil => rfl
    | cons cpu rest ih =>
      unfold cpusetParts collapse
      split
      · exact ih _ _
      · rw [ih]
        rfl
  rw [toCpusetString_eq]
  unfold ranges CpuSet.toCpusetString rangesText
  cases Finset.sort s.cpus with
  | nil => rfl
  | cons cpu rest => exact congrArg (fun parts => some (",".intercalate parts)) (hparts cpu cpu rest).symm

end CpuIds

/-! ## White space around the text -/

theorem trim_cons {c : Char} (h : isWhitespace c = true) (cs : List Char) :
    trim (String.ofList (c :: cs)) = trim (String.ofList cs) := by
  unfold trim
  rw [String.toList_ofList,String.toList_ofList,List.dropWhile_cons_of_pos h]

theorem trim_concat {c : Char} (h : isWhitespace c = true) (cs : List Char) :
    trim (String.ofList (cs ++ [c])) = trim (String.ofList cs) := by
  unfold trim
  rw [String.toList_ofList,String.toList_ofList,List.dropWhile_append]
  split
  · next hblank =>
    have hempty : cs.dropWhile isWhitespace = [] := List.isEmpty_iff.mp hblank
    simp [hempty,h]
  · rw [List.reverse_append,List.reverse_singleton,List.singleton_append,List.dropWhile_cons_of_pos h]

theorem comma_of_isWhitespace {c : Char} (h : isWhitespace c = true) : (c == ',') = false := by
  refine beq_eq_false_iff_ne.mpr ?_
  rintro rfl
  exact absurd h (by decide)

/-- The parts between commas without the white space around them. -/
def trimmedParts (cs : List Char) : List String := (cs.splitOn ',').map (fun part => trim (String.ofList part))

theorem trimmedParts_cons {c : Char} (h : isWhitespace c = true) (cs : List Char) :
    trimmedParts (c :: cs) = trimmedParts cs := by
  unfold trimmedParts
  rw [List.splitOn_cons_eq_if_modifyHead,if_neg (by rw [comma_of_isWhitespace h]; exact Bool.false_ne_true)]
  obtain ⟨part,parts,hparts⟩ := List.exists_cons_of_ne_nil (List.splitOn_ne_nil ',' cs)
  rw [hparts,List.modifyHead_cons,List.map_cons,List.map_cons,trim_cons h]

/-- White space at the end is in the last part. -/
theorem splitOn_concat {c : Char} (h : isWhitespace c = true) (cs : List Char) : ∃ parts part,
    cs.splitOn ',' = parts ++ [part] ∧ (cs ++ [c]).splitOn ',' = parts ++ [part ++ [c]] := by
  have hcomma := comma_of_isWhitespace h
  induction cs with
  | nil =>
    refine ⟨[],[],rfl,?_⟩
    rw [List.nil_append,List.splitOn_cons_eq_if_modifyHead,if_neg (by rw [hcomma]; exact Bool.false_ne_true)]
    rfl
  | cons d cs ih =>
    obtain ⟨parts,part,hparts,hconcat⟩ := ih
    rw [List.cons_append,List.splitOn_cons_eq_if_modifyHead,List.splitOn_cons_eq_if_modifyHead,hparts,hconcat]
    split
    · exact ⟨[] :: parts,part,rfl,rfl⟩
    · cases parts with
      | nil => exact ⟨[],d :: part,rfl,rfl⟩
      | cons first parts => exact ⟨(d :: first) :: parts,part,rfl,rfl⟩

theorem trimmedParts_concat {c : Char} (h : isWhitespace c = true) (cs : List Char) :
    trimmedParts (cs ++ [c]) = trimmedParts cs := by
  obtain ⟨parts,part,hparts,hconcat⟩ := splitOn_concat h cs
  unfold trimmedParts
  rw [hparts,hconcat,List.map_append,List.map_append,List.map_singleton,List.map_singleton,trim_concat h]

theorem trimmedParts_trim (s : String) : trimmedParts (trim s).toList = trimmedParts s.toList := by
  have hfront : ∀ cs : List Char, trimmedParts (cs.dropWhile isWhitespace) = trimmedParts cs := by
    intro cs
    induction cs with
    | nil => rfl
    | cons c cs ih =>
      cases hc : isWhitespace c with
      | true => rw [List.dropWhile_cons_of_pos hc,ih,trimmedParts_cons hc]
      | false => rw [List.dropWhile_cons_of_neg (by simp [hc])]
  have hback : ∀ cs : List Char, trimmedParts (cs.dropWhile isWhitespace).reverse = trimmedParts cs.reverse := by
    intro cs
    induction cs with
    | nil => rfl
    | cons c cs ih =>
      cases hc : isWhitespace c with
      | true => rw [List.dropWhile_cons_of_pos hc,ih,List.reverse_cons,trimmedParts_concat hc]
      | false => rw [List.dropWhile_cons_of_neg (by simp [hc])]
  unfold trim
  rw [String.toList_ofList,hback,List.reverse_reverse,hfront]

theorem foldlM_parsePart_congr (s : CpuIds) {parts parts' : List (List Char)}
    (h : parts.map (fun part => trim (String.ofList part)) = parts'.map (fun part => trim (String.ofList part))) :
    parts.foldlM CpuIds.parsePart s = parts'.foldlM CpuIds.parsePart s := by
  induction parts generalizing s parts' with
  | nil =>
    cases parts' with
    | nil => rfl
    | cons part' parts' => cases h
  | cons part parts ih =>
    cases parts' with
    | nil => cases h
    | cons part' parts' =>
      obtain ⟨hhead,hparts⟩ := List.cons.inj h
      have hpart : trim (String.ofList part) = trim (String.ofList part') := hhead
      have hsame : s.parsePart part = s.parsePart part' := by
        unfold CpuIds.parsePart
        rw [hpart]
      rw [List.foldlM_cons,List.foldlM_cons,hsame]
      exact congrArg (Except.bind (s.parsePart part')) (funext fun s' => ih s' hparts)

/-- White space around a text changes nothing of what is read. -/
theorem parse_trim (t : String) : CpuIds.parse (trim t) = CpuIds.parse t :=
  foldlM_parsePart_congr CpuIds.empty (trimmedParts_trim t)

/-! ## Reading it back -/

theorem rereadPart_cpusetRange {r : ℕ × ℕ} (hr : r.1 ≤ r.2) (hfits : r.2 < 2 ^ 32) :
    rereadPart (cpusetRange r.1 r.2).toList = between r := by
  obtain ⟨a,ha,hatoNat⟩ := parseU32_toString (hr.trans_lt hfits)
  obtain ⟨b,hb,hbtoNat⟩ := parseU32_toString hfits
  unfold rereadPart
  rw [splitOnce_cpusetRange]
  by_cases hsingle : r.1 = r.2
  · have hid : cpusetRange r.1 r.2 = toString r.1 := if_pos hsingle
    rw [if_pos hsingle,hid]
    dsimp only
    rw [String.ofList_toList,ha]
    have hbetween : between r = [r.1] := by
      rw [← between_single]
      exact congrArg between (Prod.ext rfl hsingle.symm)
    simp [hbetween,hatoNat]
  · rw [if_neg hsingle]
    dsimp only
    rw [String.ofList_toList,String.ofList_toList,ha,hb]
    simp [hatoNat,hbtoNat]

theorem reread_rangesText {ranges : List (ℕ × ℕ)} (h : ∀ r ∈ ranges, r.1 ≤ r.2 ∧ r.2 < 2 ^ 32) :
    ((CpuIds.rangesText ranges).toList.splitOn ',').flatMap rereadPart = expand ranges := by
  cases ranges with
  | nil => rfl
  | cons r ranges =>
    rw [CpuIds.splitOn_rangesText (List.cons_ne_nil _ _),List.flatMap_map]
    refine List.flatMap_congr ?_
    intro r hr
    exact rereadPart_cpusetRange (h r hr).1 (h r hr).2

theorem readNumaCpulist_eq {t : String} {s : CpuIds} (h : CpuIds.parse t = .ok s) :
    readNumaCpulist (some t) = some (Finset.sort s.cpus) := by
  unfold readNumaCpulist
  rw [Option.bind_some,parse_trim,h]
  dsimp only [Except.toOption]
  rw [s.toCpusetString_eq,Option.bind_eq_bind,Option.bind_some,reread_rangesText s.ranges_fit,s.expand_ranges]

/-! ## The round trip -/

/-- The text is that of the maximal ranges of the CPUs, and no other ranges are maximal. -/
structure Canonical (s : CpuIds) (text : String) : Prop where
  exists_ranges : ∃ ranges, Separated ranges ∧ expand ranges = Finset.sort s.cpus ∧ text = CpuIds.rangesText ranges
  only : ∀ ranges, Separated ranges → expand ranges = Finset.sort s.cpus → text = CpuIds.rangesText ranges

theorem canonical_text (s : CpuIds) : Canonical s (CpuIds.rangesText s.ranges) where
  exists_ranges := ⟨s.ranges,s.separated_ranges,s.expand_ranges,rfl⟩
  only := by
    intro ranges hranges hexpand
    rw [s.separated_ranges.unique hranges (s.expand_ranges.trans hexpand.symm)]

/-- A set of CPUs is written without an overflow as a canonical text and read from it again; any
text that it is read from is written and read as the set once more, and read back as its CPUs in
order. -/
theorem text_round_trip (s : CpuIds) :
    (∃ text, s.toCpusetString = some text ∧ CpuIds.parse text = .ok s ∧ Canonical s text) ∧
      ∀ t, CpuIds.parse t = .ok s → (∃ text, s.toCpusetString = some text ∧ CpuIds.parse text = .ok s) ∧
        readNumaCpulist (some t) = some (Finset.sort s.cpus) :=
  ⟨⟨CpuIds.rangesText s.ranges,s.toCpusetString_eq,s.parse_ranges,canonical_text s⟩,
    fun _ h => ⟨⟨CpuIds.rangesText s.ranges,s.toCpusetString_eq,s.parse_ranges⟩,readNumaCpulist_eq h⟩⟩

/-- A text with white space, a sign and the last ID. -/
theorem text_round_trip_last : readNumaCpulist (some " 0-2, +4294967295\n") =
    some (Finset.sort ((CpuIds.empty.insertRange 0 2).insert 4294967295).cpus) :=
  ((text_round_trip ((CpuIds.empty.insertRange 0 2).insert 4294967295)).2 " 0-2, +4294967295\n" (by rfl)).2

end KubeAir.Adapters.CpuList
