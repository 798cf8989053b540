import KubeAir.Accounting.Ledger
import KubeAir.Core.Pod
import KubeAir.Wire.BigEndian
import KubeAir.Wire.FrameReader
import Mathlib.Algebra.Order.BigOperators.Group.List
import Mathlib.Algebra.Order.Group.Nat
import Mathlib.Data.List.TakeWhile

/-! # Header blocks

The name-value block that the headers of a SPDY frame are written as, and the parser that
reads one block after the other out of a growing buffer.
-/
namespace KubeAir.Streaming.HeaderBlock
open Accounting Core Wire

/-- `as_bytes`. -/
def asBytes (s : String) : List UInt8 := s.toList.flatMap String.utf8EncodeChar

/-- `String::from_utf8`. -/
def fromUtf8 (bytes : List UInt8) : Option String := String.fromUTF8? bytes.toByteArray

def lengthWord (n : ℕ) : List UInt8 := toBeBytes (UInt32.ofNat n)

def nvPair (name value : String) : List UInt8 :=
  lengthWord (asBytes name).length ++ (asBytes name ++ (lengthWord (asBytes value).length ++ asBytes value))

def buildNvBlock (headers : HashMap String String) : List UInt8 :=
  lengthWord headers.entries.length ++ headers.entries.flatMap (fun e => nvPair e.1 e.2)

def readWord (bytes : List UInt8) : Option (ℕ × List UInt8) :=
  (readExact 4 bytes).map (fun r => ((beWordAt r.1 0).toNat,r.2))

/-- A length and so many bytes. -/
def readBytes (bytes : List UInt8) : Option (List UInt8 × List UInt8) := (readWord bytes).bind (fun r => readExact r.1 r.2)

/-- `value.split('\0').next()`. -/
def firstValue (value : String) : String := String.ofList (value.toList.takeWhile (· ≠ Char.ofNat 0))

def readPair (bytes : List UInt8) : Option ((String × String) × List UInt8) :=
  (readBytes bytes).bind fun n => (readBytes n.2).bind fun v =>
    (fromUtf8 n.1).bind fun name => (fromUtf8 v.1).map fun value => ((name.toLower,firstValue value),v.2)

def readPairs : ℕ → List UInt8 → HashMap String String → Option (HashMap String String × List UInt8)
  | 0, bytes, out => some (out,bytes)
  | n + 1, bytes, out => (readPair bytes).bind fun p => readPairs n p.2 (out.insert p.1.1 p.1.2)

def parseNvBlockOffset (plain : List UInt8) (offset : ℕ) : Option (HashMap String String × ℕ) :=
  if plain.length ≤ offset then none
  else (readWord (plain.drop offset)).bind fun pairs => (readPairs pairs.1 pairs.2 ∅).map fun r =>
    (r.1,offset + ((plain.drop offset).length - r.2.length))

/-! ## Texts and bytes -/

theorem asBytes_toByteArray (s : String) : (asBytes s).toByteArray = s.toByteArray := String.utf8Encode_toList

theorem fromUtf8_asBytes (s : String) : fromUtf8 (asBytes s) = some s := by
  unfold fromUtf8 String.fromUTF8?
  rw [asBytes_toByteArray,dif_pos s.isValidUTF8]
  exact congrArg some (String.toByteArray_inj.mp rfl)

theorem asBytes_of_fromUtf8 {bytes : List UInt8} {s : String} (h : fromUtf8 bytes = some s) : asBytes s = bytes := by
  unfold fromUtf8 String.fromUTF8? at h
  split at h
  · cases h
    exact List.toByteArray_inj.mp (asBytes_toByteArray _)
  · cases h

theorem fromUtf8_eq_some {bytes : List UInt8} {s : String} : fromUtf8 bytes = some s ↔ bytes = asBytes s := by
  constructor
  · intro h
    exact (asBytes_of_fromUtf8 h).symm
  · rintro rfl
    exact fromUtf8_asBytes s

theorem asBytes_append (s t : String) : asBytes (s ++ t) = asBytes s ++ asBytes t := by
  unfold asBytes
  rw [String.toList_append,List.flatMap_append]

theorem utf8EncodeChar_append_cancel {c d : Char} {bytes bytes' : List UInt8}
    (h : String.utf8EncodeChar c ++ bytes = String.utf8EncodeChar d ++ bytes') : c = d ∧ bytes = bytes' := by
  have hbytes : [c].utf8Encode ++ bytes.toByteArray = [d].utf8Encode ++ bytes'.toByteArray := by
    rw [List.utf8Encode_singleton,List.utf8Encode_singleton,← List.toByteArray_append,← List.toByteArray_append,h]
  have hdecode : ([c].utf8Encode ++ bytes.toByteArray).utf8DecodeChar? 0 = ([d].utf8Encode ++ bytes'.toByteArray).utf8DecodeChar? 0 := by
    rw [hbytes]
  rw [List.utf8DecodeChar?_utf8Encode_singleton_append,List.utf8DecodeChar?_utf8Encode_singleton_append] at hdecode
  obtain rfl := Option.some.inj hdecode
  exact ⟨rfl,List.append_cancel_left h⟩

/-- What follows a text is text if the whole is. -/
theorem fromUtf8_asBytes_append (s : String) (bytes : List UInt8) :
    fromUtf8 (asBytes s ++ bytes) = (fromUtf8 bytes).map (s ++ ·) := by
  cases hrest : fromUtf8 bytes with
  | some t =>
    rw [← asBytes_of_fromUtf8 hrest,← asBytes_append]
    exact fromUtf8_asBytes _
  | none =>
    cases hwhole : fromUtf8 (asBytes s ++ bytes) with
    | none => rfl
    | some u =>
      exfalso
      have hu := asBytes_of_fromUtf8 hwhole
      unfold asBytes at hu
      generalize s.toList = l, u.toList = m at hu
      induction l generalizing m with
      | nil =>
        have hbytes : bytes = asBytes (String.ofList m) := by
          unfold asBytes
          rw [String.toList_ofList]
          exact hu.symm
        rw [fromUtf8_eq_some.mpr hbytes] at hrest
        cases hrest
      | cons c l ih =>
        cases m with
        | nil =>
          have hlength := congrArg List.length hu
          rw [List.flatMap_nil,List.flatMap_cons,List.append_assoc,List.length_append,String.length_utf8EncodeChar] at hlength
          have hpos := c.utf8Size_pos
          simp only [List.length_nil] at hlength
          omega
        | cons d m =>
          rw [List.flatMap_cons,List.flatMap_cons,List.append_assoc] at hu
          exact ih m (utf8EncodeChar_append_cancel hu).2

theorem eq_newline_of_mem {c : Char} (h : 10 ∈ String.utf8EncodeChar c) : c = '\n' := by
  have hbyte : ∀ n : ℕ, 128 ≤ n → n < 256 → (10 : UInt8) ≠ UInt8.ofNat n := by
    intro n hle hlt heq
    have htoNat := congrArg UInt8.toNat heq
    rw [UInt8.toNat_ofNat'] at htoNat
    change 10 = n % 256 at htoNat
    omega
  have hlead : ∀ v base n : ℕ, 0 < n → 128 ≤ base → base + n ≤ 256 → (10 : UInt8) ≠ UInt8.ofNat (v % n + base) := by
    intro v base n hn hbase hle
    have hlt := Nat.mod_lt v hn
    exact hbyte _ (by omega) (by omega)
  unfold String.utf8EncodeChar at h
  dsimp only at h
  split at h
  · next hle =>
    have htoNat := congrArg UInt8.toNat (List.mem_singleton.mp h)
    rw [UInt8.toNat_ofNat'] at htoNat
    change 10 = c.val.toNat % 256 at htoNat
    refine Char.ext (UInt32.toNat_inj.mp ?_)
    show c.val.toNat = 10
    omega
  · exfalso
    split at h
    · simp only [List.mem_cons,List.not_mem_nil,or_false] at h
      rcases h with h | h
      · exact hlead _ 0xc0 0x20 (by decide) (by decide) (by decide) h
      · exact hlead _ 0x80 0x40 (by decide) (by decide) (by decide) h
    · split at h
      · simp only [List.mem_cons,List.not_mem_nil,or_false] at h
        rcases h with h | h | h
        · exact hlead _ 0xe0 0x10 (by decide) (by decide) (by decide) h
        · exact hlead _ 0x80 0x40 (by decide) (by decide) (by decide) h
        · exact hlead _ 0x80 0x40 (by decide) (by decide) (by decide) h
      · simp only [List.mem_cons,List.not_mem_nil,or_false] at h
        rcases h with h | h | h | h
        · exact hlead _ 0xf0 0x08 (by decide) (by decide) (by decide) h
        · exact hlead _ 0x80 0x40 (by decide) (by decide) (by decide) h
        · exact hlead _ 0x80 0x40 (by decide) (by decide) (by decide) h
        · exact hlead _ 0x80 0x40 (by decide) (by decide) (by decide) h

/-- A newline among the bytes of a text is a newline of the text, and the other way round. -/
theorem newline_mem_asBytes {s : String} : 10 ∈ asBytes s ↔ '\n' ∈ s.toList := by
  unfold asBytes
  rw [List.mem_flatMap]
  constructor
  · rintro ⟨c,hc,hbyte⟩
    exact eq_newline_of_mem hbyte ▸ hc
  · intro h
    exact ⟨'\n',h,by decide⟩

/-- What comes before the end of a line is text if the line is. -/
theorem fromUtf8_newline (bytes : List UInt8) : fromUtf8 (bytes ++ [10]) = (fromUtf8 bytes).map (· ++ "\n") := by
  have hnewline : asBytes "\n" = [10] := by decide
  cases hbytes : fromUtf8 bytes with
  | some t =>
    rw [← asBytes_of_fromUtf8 hbytes,← hnewline,← asBytes_append]
    exact fromUtf8_asBytes _
  | none =>
    cases hwhole : fromUtf8 (bytes ++ [10]) with
    | none => rfl
    | some u =>
      exfalso
      have hu := asBytes_of_fromUtf8 hwhole
      unfold asBytes at hu
      rcases List.eq_nil_or_concat u.toList with hnil | ⟨l,c,hl⟩
      · rw [hnil] at hu
        exact absurd hu.symm (List.append_ne_nil_of_right_ne_nil _ (List.cons_ne_nil _ _))
      · rw [hl,List.concat_eq_append,List.flatMap_append,List.flatMap_singleton] at hu
        have hlast := congrArg List.getLast? hu
        rw [List.getLast?_append_of_ne_nil _ String.utf8EncodeChar_ne_nil,List.getLast?_concat] at hlast
        obtain rfl := eq_newline_of_mem (List.mem_of_getLast? hlast)
        have hcut : l.flatMap String.utf8EncodeChar = bytes := List.append_cancel_right hu
        have htext : bytes = asBytes (String.ofList l) := by
          unfold asBytes
          rw [String.toList_ofList]
          exact hcut.symm
        rw [fromUtf8_eq_some.mpr htext] at hbytes
        cases hbytes

theorem length_asBytes (s : String) : (asBytes s).length = (s.toList.map Char.utf8Size).sum := by
  unfold asBytes
  rw [List.length_flatMap]
  congr 1
  refine List.map_congr_left ?_
  intro c _
  exact String.length_utf8EncodeChar c

theorem utf8Size_toLower (c : Char) : c.toLower.utf8Size = c.utf8Size := by
  unfold Char.toLower
  split
  · next h =>
    have hz : ('Z' : Char).val ≤ 127 := by decide
    have hc : c.utf8Size = 1 := Char.utf8Size_eq_one_iff.mpr (UInt32.le_trans h.2 hz)
    rw [hc,Char.utf8Size_eq_one_iff]
    have hle : c.val.toNat ≤ 90 := h.2
    show (c.val + ('a'.val - 'A'.val)).toNat ≤ 127
    rw [UInt32.toNat_add]
    have : ('a'.val - 'A'.val).toNat = 32 := rfl
    omega
  · rfl

theorem length_asBytes_toLower (s : String) : (asBytes s.toLower).length = (asBytes s).length := by
  rw [length_asBytes,length_asBytes]
  unfold String.toLower
  rw [String.toList_map,List.map_map]
  congr 1
  refine List.map_congr_left ?_
  intro c _
  exact utf8Size_toLower c

theorem length_asBytes_firstValue (s : String) : (asBytes (firstValue s)).length ≤ (asBytes s).length := by
  rw [length_asBytes,length_asBytes]
  unfold firstValue
  rw [String.toList_ofList]
  have hsplit := List.takeWhile_append_dropWhile (p := fun c => decide (c ≠ Char.ofNat 0)) (l := s.toList)
  conv_rhs => rw [← hsplit,List.map_append,List.sum_append]
  exact Nat.le_add_right _ _

/-! ## What a parsed block says -/

/-- The same headers, in any order. -/
def Same (m m' : HashMap String String) : Prop := ∀ k, m.lookup k = m'.lookup k

/-- The lengths fit into their words. -/
def Encodable (m : HashMap String String) : Prop :=
  m.entries.length < 2 ^ 32 ∧ ∀ e ∈ m.entries, (asBytes e.1).length < 2 ^ 32 ∧ (asBytes e.2).length < 2 ^ 32

def pairSize (name value : String) : ℕ := 8 + (asBytes name).length + (asBytes value).length

def blockSize (m : HashMap String String) : ℕ := 4 + total pairSize m

theorem Same.perm {m m' : HashMap String String} (h : Same m m') : m.entries.Perm m'.entries := by
  refine List.lookup_ext m.nodupKeys m'.nodupKeys ?_
  intro k v
  have hk : m.entries.dlookup k = m'.entries.dlookup k := h k
  rw [hk]

theorem Same.blockSize {m m' : HashMap String String} (h : Same m m') : blockSize m = blockSize m' := by
  unfold HeaderBlock.blockSize total
  rw [(h.perm.map _).sum_eq]

theorem Same.encodable {m m' : HashMap String String} (h : Same m m') (he : Encodable m) : Encodable m' := by
  refine ⟨h.perm.length_eq ▸ he.1,?_⟩
  intro e hmem
  exact he.2 e (h.perm.mem_iff.mpr hmem)

theorem length_nvPair (name value : String) : (nvPair name value).length = pairSize name value := by
  unfold nvPair lengthWord pairSize
  simp only [List.length_append,length_toBeBytes]
  omega

theorem length_buildNvBlock (m : HashMap String String) : (buildNvBlock m).length = blockSize m := by
  unfold buildNvBlock blockSize total lengthWord
  rw [List.length_append,length_toBeBytes,List.length_flatMap]
  simp only [length_nvPair]

theorem readWord_eq_some {bytes rest : List UInt8} {n : ℕ} (h : readWord bytes = some (n,rest)) :
    n < 2 ^ 32 ∧ bytes.length = 4 + rest.length := by
  unfold readWord at h
  obtain ⟨r,hr,he⟩ := Option.map_eq_some_iff.mp h
  cases he
  obtain ⟨rfl,hlen⟩ := readExact_eq_some.mp hr
  refine ⟨UInt32.toNat_lt _,?_⟩
  rw [List.length_append,hlen]

theorem readBytes_eq_some {bytes read rest : List UInt8} (h : readBytes bytes = some (read,rest)) :
    read.length < 2 ^ 32 ∧ bytes.length = 4 + read.length + rest.length := by
  unfold readBytes at h
  obtain ⟨w,hw,hread⟩ := Option.bind_eq_some_iff.mp h
  obtain ⟨hsmall,hlen⟩ := readWord_eq_some hw
  obtain ⟨heq,hread⟩ := readExact_eq_some.mp hread
  rw [heq,List.length_append,hread] at hlen
  rw [hread]
  exact ⟨hsmall,by omega⟩

theorem readPair_eq_some {bytes rest : List UInt8} {name value : String} (h : readPair bytes = some ((name,value),rest)) :
    (asBytes name).length < 2 ^ 32 ∧ (asBytes value).length < 2 ^ 32 ∧ pairSize name value + rest.length ≤ bytes.length := by
  unfold readPair at h
  obtain ⟨n,hn,h⟩ := Option.bind_eq_some_iff.mp h
  obtain ⟨v,hv,h⟩ := Option.bind_eq_some_iff.mp h
  obtain ⟨s,hs,h⟩ := Option.bind_eq_some_iff.mp h
  obtain ⟨t,ht,h⟩ := Option.map_eq_some_iff.mp h
  cases h
  obtain ⟨hnsmall,hnlen⟩ := readBytes_eq_some hn
  obtain ⟨hvsmall,hvlen⟩ := readBytes_eq_some hv
  have hfirst := length_asBytes_firstValue t
  rw [← asBytes_of_fromUtf8 hs] at hnsmall hnlen
  rw [← asBytes_of_fromUtf8 ht] at hvsmall hvlen
  unfold pairSize
  rw [length_asBytes_toLower]
  refine ⟨hnsmall,by omega,by omega⟩

theorem total_insert_le (m : HashMap String String) (k v : String) :
    total pairSize (m.insert k v) ≤ pairSize k v + total pairSize m := by
  unfold total
  rw [AList.entries_insert,List.map_cons,List.sum_cons]
  have hsub : ((m.entries.kerase k).map (fun e => pairSize e.1 e.2)).Sublist (m.entries.map (fun e => pairSize e.1 e.2)) :=
    (List.kerase_sublist k m.entries).map _
  exact Nat.add_le_add_left (hsub.sum_le_sum fun _ _ => Nat.zero_le _) _

/-- Reading pairs keeps within the text that there is. -/
theorem readPairs_bounds {n : ℕ} {bytes rest : List UInt8} {m out : HashMap String String}
    (h : readPairs n bytes m = some (out,rest))
    (hm : ∀ e ∈ m.entries, (asBytes e.1).length < 2 ^ 32 ∧ (asBytes e.2).length < 2 ^ 32) :
    total pairSize out + rest.length ≤ total pairSize m + bytes.length ∧ out.entries.length ≤ m.entries.length + n ∧
      ∀ e ∈ out.entries, (asBytes e.1).length < 2 ^ 32 ∧ (asBytes e.2).length < 2 ^ 32 := by
  induction n generalizing bytes m with
  | zero =>
    cases h
    exact ⟨le_rfl,le_rfl,hm⟩
  | succ n ih =>
    obtain ⟨⟨⟨name,value⟩,rest'⟩,hpair,h⟩ := Option.bind_eq_some_iff.mp h
    dsimp only at h
    obtain ⟨hname,hvalue,hsize⟩ := readPair_eq_some hpair
    have hm' : ∀ e ∈ (m.insert name value).entries, (asBytes e.1).length < 2 ^ 32 ∧ (asBytes e.2).length < 2 ^ 32 := by
      intro e he
      rw [AList.entries_insert] at he
      rcases List.mem_cons.mp he with rfl | he
      · exact ⟨hname,hvalue⟩
      · exact hm e ((List.kerase_sublist name m.entries).subset he)
    obtain ⟨htotal,hcount,hsmall⟩ := ih h hm'
    have hinsert := total_insert_le m name value
    have hlength : (m.insert name value).entries.length ≤ m.entries.length + 1 := by
      rw [AList.entries_insert,List.length_cons]
      exact Nat.succ_le_succ (List.kerase_sublist name m.entries).length_le
    exact ⟨by omega,by omega,hsmall⟩

/-- A parsed block is no longer than the text it is in, and says only what can be written. -/
theorem parseNvBlockOffset_bounds {plain : List UInt8} {offset offset' : ℕ} {out : HashMap String String}
    (h : parseNvBlockOffset plain offset = some (out,offset')) : blockSize out ≤ plain.length - offset ∧ Encodable out := by
  unfold parseNvBlockOffset at h
  split at h
  · cases h
  obtain ⟨⟨n,bytes⟩,hword,h⟩ := Option.bind_eq_some_iff.mp h
  obtain ⟨⟨out',rest⟩,hpairs,he⟩ := Option.map_eq_some_iff.mp h
  cases he
  dsimp only at hpairs ⊢
  obtain ⟨hn,hlen⟩ := readWord_eq_some hword
  obtain ⟨htotal,hcount,hsmall⟩ := readPairs_bounds hpairs nofun
  rw [List.length_drop] at hlen
  unfold blockSize
  simp only [total_empty,AList.empty_entries,List.length_nil,Nat.zero_add] at htotal hcount
  exact ⟨by omega,⟨by omega,hsmall⟩⟩

/-! ## Reading back what was written -/

/-- Lower-case ASCII names, values without NUL. -/
def WellFormed (m : HashMap String String) : Prop :=
  ∀ e ∈ m.entries, (∀ c ∈ e.1.toList, c.toNat < 128 ∧ c.isUpper = false) ∧ Char.ofNat 0 ∉ e.2.toList

/-- The characters are looked at one by one. -/
instance (m : HashMap String String) : Decidable (WellFormed m) :=
  decidable_of_iff (m.entries.all (fun e =>
      e.1.toList.all (fun c => decide (c.toNat < 128 ∧ c.isUpper = false)) && decide (Char.ofNat 0 ∉ e.2.toList)) = true) (by
    unfold WellFormed
    simp only [List.all_eq_true,Bool.and_eq_true,decide_eq_true_eq])

theorem toLower_of_lower {s : String} (h : ∀ c ∈ s.toList, c.isUpper = false) : s.toLower = s := by
  apply String.toList_inj.mp
  unfold String.toLower
  rw [String.toList_map]
  refine (List.map_congr_left ?_).trans (List.map_id _)
  intro c hc
  have hup := h c hc
  unfold Char.isUpper at hup
  unfold Char.toLower
  rw [dif_neg (of_decide_eq_false hup)]
  rfl

theorem firstValue_of_notMem {s : String} (h : Char.ofNat 0 ∉ s.toList) : firstValue s = s := by
  unfold firstValue
  rw [List.takeWhile_eq_self_iff.mpr]
  · exact String.ofList_toList
  · intro c hc
    refine decide_eq_true ?_
    rintro rfl
    exact h hc

theorem readWord_lengthWord {n : ℕ} (h : n < 2 ^ 32) (rest : List UInt8) : readWord (lengthWord n ++ rest) = some (n,rest) := by
  unfold readWord lengthWord
  have hexact : readExact 4 (toBeBytes (UInt32.ofNat n) ++ rest) = some (toBeBytes (UInt32.ofNat n),rest) :=
    readExact_eq_some.mpr ⟨rfl,length_toBeBytes⟩
  have hword : beWordAt (toBeBytes (UInt32.ofNat n)) 0 = UInt32.ofNat n := by
    have h : beWordAt (toBeBytes (UInt32.ofNat n) ++ []) 0 = UInt32.ofNat n := beWordAt_toBeBytes
    rwa [List.append_nil] at h
  rw [hexact,Option.map_some,hword,UInt32.toNat_ofNat',Nat.mod_eq_of_lt h]

theorem readBytes_lengthWord {bytes : List UInt8} (h : bytes.length < 2 ^ 32) (rest : List UInt8) :
    readBytes (lengthWord bytes.length ++ (bytes ++ rest)) = some (bytes,rest) := by
  unfold readBytes
  rw [readWord_lengthWord h]
  exact readExact_eq_some.mpr ⟨rfl,rfl⟩

theorem readPair_nvPair {name value : String} (hname : (asBytes name).length < 2 ^ 32)
    (hvalue : (asBytes value).length < 2 ^ 32) (hlower : ∀ c ∈ name.toList, c.isUpper = false)
    (hnul : Char.ofNat 0 ∉ value.toList) (rest : List UInt8) :
    readPair (nvPair name value ++ rest) = some ((name,value),rest) := by
  unfold readPair nvPair
  simp only [List.append_assoc]
  rw [readBytes_lengthWord hname,Option.bind_some,readBytes_lengthWord hvalue,Option.bind_some]
  dsimp only
  rw [fromUtf8_asBytes,fromUtf8_asBytes,Option.bind_some,Option.map_some,toLower_of_lower hlower,firstValue_of_notMem hnul]

/-- The entries of a list written into a map one after the other. -/
def insertAll (l : List (Sigma fun _ : String => String)) (m : HashMap String String) : HashMap String String :=
  l.foldl (fun m e => m.insert e.1 e.2) m

theorem lookup_insertAll {l : List (Sigma fun _ : String => String)} (h : l.NodupKeys) (m : HashMap String String)
    (k : String) : (insertAll l m).lookup k = (l.dlookup k).or (m.lookup k) := by
  induction l generalizing m with
  | nil => rfl
  | cons e l ih =>
    obtain ⟨hnot,hl⟩ := List.nodupKeys_cons.mp h
    have hstep : insertAll (e :: l) m = insertAll l (m.insert e.1 e.2) := rfl
    rw [hstep,ih hl]
    by_cases hk : k = e.1
    · subst hk
      rw [List.dlookup_eq_none.mpr hnot,AList.lookup_insert]
      obtain ⟨k,v⟩ := e
      rw [List.dlookup_cons_eq]
      rfl
    · rw [AList.lookup_insert_ne hk]
      obtain ⟨k',v⟩ := e
      rw [List.dlookup_cons_ne _ _ hk]

theorem insertAll_same (m : HashMap String String) : Same (insertAll m.entries ∅) m := by
  intro k
  rw [lookup_insertAll m.nodupKeys,AList.lookup_empty,Option.or_none]
  rfl

theorem readPairs_nvPairs {l : List (Sigma fun _ : String => String)} {rest : List UInt8}
    (hsmall : ∀ e ∈ l, (asBytes e.1).length < 2 ^ 32 ∧ (asBytes e.2).length < 2 ^ 32)
    (hlower : ∀ e ∈ l, (∀ c ∈ e.1.toList, c.toNat < 128 ∧ c.isUpper = false) ∧ Char.ofNat 0 ∉ e.2.toList)
    (m : HashMap String String) :
    readPairs l.length (l.flatMap (fun e => nvPair e.1 e.2) ++ rest) m = some (insertAll l m,rest) := by
  induction l generalizing m with
  | nil => rfl
  | cons e l ih =>
    obtain ⟨he,hl⟩ := List.forall_mem_cons.mp hsmall
    obtain ⟨helower,hllower⟩ := List.forall_mem_cons.mp hlower
    rw [List.length_cons,readPairs,List.flatMap_cons,List.append_assoc,
      readPair_nvPair he.1 he.2 (fun c hc => (helower.1 c hc).2) helower.2,Option.bind_some]
    exact ih hl hllower _

/-- A block is read back from where it begins, whatever follows it. -/
theorem parseNvBlockOffset_buildNvBlock {m : HashMap String String} (he : Encodable m) (hw : WellFormed m)
    (pre post : List UInt8) : ∃ out, Same out m ∧
      parseNvBlockOffset (pre ++ (buildNvBlock m ++ post)) pre.length = some (out,pre.length + (buildNvBlock m).length) := by
  refine ⟨insertAll m.entries ∅,insertAll_same m,?_⟩
  unfold parseNvBlockOffset
  have hpos : 0 < (buildNvBlock m).length := by
    rw [length_buildNvBlock]
    unfold blockSize
    omega
  rw [if_neg (by rw [List.length_append,List.length_append]; omega),List.drop_left]
  have hblock : buildNvBlock m ++ post =
      lengthWord m.entries.length ++ (m.entries.flatMap (fun e => nvPair e.1 e.2) ++ post) := by
    unfold buildNvBlock
    rw [List.append_assoc]
  rw [hblock,readWord_lengthWord he.1,Option.bind_some]
  dsimp only
  rw [readPairs_nvPairs he.2 hw,Option.map_some,← hblock]
  dsimp only
  rw [List.length_append,Nat.add_sub_cancel]

end KubeAir.Streaming.HeaderBlock
