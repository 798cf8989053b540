import KubeAir.Wire.PercentEncoding

/-! # The query of an exec request

The command comes as one parameter for each token. Parameters are percent-decoded byte by byte, and
every byte becomes a character.
-/
namespace KubeAir.Streaming.Exec
open Wire.Utf8 Wire.PercentEncoding

structure ExecQuery where
  container : Option String := none
  command : List String := []
  stdin : Option Bool := none
  stdout : Option Bool := none
  stderr : Option Bool := none
  tty : Option Bool := none
deriving DecidableEq, Repr

/-- The loop of `percent_decode`; an index that is out of bounds panics. -/
def percentDecodeLoop (bytes : List UInt8) (i : ℕ) (out : List Char) : Option (List Char) :=
  if i < bytes.length then do
    let b ← bytes[i]?
    if b = percent ∧ i + 2 < bytes.length then do
      let x ← bytes[i + 1]?
      let y ← bytes[i + 2]?
      match hexValue x,hexValue y with
      | some high,some low => percentDecodeLoop bytes (i + 3) (out ++ [Char.ofNat (high * 16 + low)])
      | _, _ => percentDecodeLoop bytes (i + 1) (out ++ [Char.ofNat b.toNat])
    else if b = plus then percentDecodeLoop bytes (i + 1) (out ++ [' '])
    else percentDecodeLoop bytes (i + 1) (out ++ [Char.ofNat b.toNat])
  else some out
termination_by bytes.length - i

def percentDecode (s : List Char) : Option (List Char) := percentDecodeLoop (utf8 s) 0 []

def flag (v : String) : Bool := v == "1" || v == "true"

/-- One pair of the query. -/
def parsePair (q : ExecQuery) (pair : List Char) : Option ExecQuery := do
  let k ← (percentDecode (pair.takeWhile (· ≠ '='))).map String.ofList
  let v ← (percentDecode ((pair.dropWhile (· ≠ '=')).drop 1)).map String.ofList
  if k = "container" then some { q with container := some v }
  else if k = "command" then some { q with command := q.command ++ [v] }
  else if k = "stdin" then some { q with stdin := some (flag v) }
  else if k = "stdout" then some { q with stdout := some (flag v) }
  else if k = "stderr" then some { q with stderr := some (flag v) }
  else if k = "tty" then some { q with tty := some (flag v) }
  else some q

/-- `parse_exec_query`; a panic is `none`. -/
def parseExecQuery (rawQuery : String) : Option ExecQuery := (rawQuery.toList.splitOn '&').foldlM parsePair {}

/-! ## Decoding -/

theorem hexValue_lt {b : UInt8} {n : ℕ} (h : hexValue b = some n) : n < 16 := by
  unfold hexValue at h
  split at h
  · next hb =>
    have hle := UInt8.le_iff_toNat_le.mp hb.2
    cases h
    have : (57 : UInt8).toNat = 57 := rfl
    omega
  · split at h
    · next hb =>
      have hle := UInt8.le_iff_toNat_le.mp hb.2
      cases h
      have : (70 : UInt8).toNat = 70 := rfl
      omega
    · split at h
      · next hb =>
        have hle := UInt8.le_iff_toNat_le.mp hb.2
        cases h
        have : (102 : UInt8).toNat = 102 := rfl
        omega
      · cases h

theorem ofNat_byte {high low : ℕ} (hhigh : high < 16) (hlow : low < 16) :
    (UInt8.ofNat (high * 16 + low)).toNat = high * 16 + low := by
  rw [UInt8.toNat_ofNat']
  exact Nat.mod_eq_of_lt (by omega)

/-- A step that consumes one byte moves the cursor behind it. -/
theorem percentDecodeLoop_snoc (pre rest : List UInt8) (b : UInt8) (out : List Char) :
    percentDecodeLoop (pre ++ b :: rest) (pre.length + 1) out
      = percentDecodeLoop ((pre ++ [b]) ++ rest) (pre ++ [b]).length out := by
  rw [List.append_assoc,List.length_append]
  rfl

/-- A byte that starts no escape and is no plus sign is copied. -/
theorem percentDecodeLoop_copy {pre rest : List UInt8} {b : UInt8} {out : List Char} (hplus : b ≠ plus)
    (hescape : b = percent → ∀ x y tail, rest = x :: y :: tail → hexValue x = none ∨ hexValue y = none) :
    percentDecodeLoop (pre ++ b :: rest) pre.length out
      = percentDecodeLoop ((pre ++ [b]) ++ rest) (pre ++ [b]).length (out ++ [Char.ofNat b.toNat]) := by
  rw [← percentDecodeLoop_snoc,percentDecodeLoop,if_pos (by simp)]
  simp only [List.getElem?_append_right (Nat.le_refl _),Nat.sub_self,List.getElem?_cons_zero,Option.bind_eq_bind,
    Option.bind_some]
  split
  · next h =>
    obtain ⟨hb,hlt⟩ := h
    rcases rest with _ | ⟨x,_ | ⟨y,tail⟩⟩
    · simp at hlt
    · simp at hlt
    · have hx : (pre ++ b :: x :: y :: tail)[pre.length + 1]? = some x := by simp
      have hy : (pre ++ b :: x :: y :: tail)[pre.length + 2]? = some y := by simp
      rw [hx,hy]
      simp only [Option.bind_some]
      rcases hescape hb x y tail rfl with hnone | hnone
      · simp only [hnone]
      · simp only [hnone]
        cases hexValue x <;> rfl
  · rfl

theorem percentDecodeLoop_plus (pre rest : List UInt8) (out : List Char) :
    percentDecodeLoop (pre ++ plus :: rest) pre.length out
      = percentDecodeLoop ((pre ++ [plus]) ++ rest) (pre ++ [plus]).length (out ++ [' ']) := by
  have hne : ¬plus = percent := by decide
  rw [← percentDecodeLoop_snoc,percentDecodeLoop,if_pos (by simp)]
  simp [hne]

theorem percentDecodeLoop_escape {x y : UInt8} {high low : ℕ} (pre rest : List UInt8) (out : List Char)
    (hx : hexValue x = some high) (hy : hexValue y = some low) :
    percentDecodeLoop (pre ++ percent :: x :: y :: rest) pre.length out
      = percentDecodeLoop ((pre ++ [percent,x,y]) ++ rest) (pre ++ [percent,x,y]).length
        (out ++ [Char.ofNat (UInt8.ofNat (high * 16 + low)).toNat]) := by
  have hfirst : (pre ++ percent :: x :: y :: rest)[pre.length + 1]? = some x := by simp
  have hsecond : (pre ++ percent :: x :: y :: rest)[pre.length + 2]? = some y := by simp
  rw [ofNat_byte (hexValue_lt hx) (hexValue_lt hy),List.append_assoc,List.length_append,percentDecodeLoop,
    if_pos (by simp),hfirst,hsecond]
  simp [hx,hy]

/-- From a cursor on the loop adds the decoded bytes as characters. -/
theorem percentDecodeLoop_eq (pre rest : List UInt8) (out : List Char) :
    percentDecodeLoop (pre ++ rest) pre.length out = some (out ++ chars (decode rest)) := by
  induction rest using decode.induct generalizing pre out with
  | case1 =>
    rw [percentDecodeLoop,if_neg (by simp),decode.eq_def]
    simp [chars]
  | case2 x y rest high low hy hx ih =>
    rw [percentDecodeLoop_escape pre rest out hx hy,ih,decode_escape hx hy,List.append_assoc]
    rfl
  | case3 x y rest hnone ih =>
    have hfirst : hexValue x = none ∨ hexValue y = none := by
      cases hx : hexValue x with
      | none => exact .inl rfl
      | some high =>
        cases hy : hexValue y with
        | none => exact .inr rfl
        | some low => exact (hnone high low hx hy).elim
    rw [percentDecodeLoop_copy (by decide) (fun _ x' y' tail h => by cases h; exact hfirst),ih,List.append_assoc,
      decode_literal hfirst]
    rfl
  | case4 x ih =>
    rw [percentDecodeLoop_copy (by decide) (fun _ x' y' tail h => by cases h),ih,List.append_assoc,decode_short (by simp)]
    rfl
  | case5 =>
    rw [percentDecodeLoop_copy (by decide) (fun _ x' y' tail h => by cases h),percentDecodeLoop,if_neg (by simp),
      decode_short (by simp),decode.eq_def]
    rfl
  | case6 bs _ ih =>
    rw [percentDecodeLoop_plus,ih,List.append_assoc,decode_plus]
    rfl
  | case7 b bs hpercent hplus ih =>
    rw [percentDecodeLoop_copy hplus (fun h => absurd h hpercent),ih,List.append_assoc,decode_other hpercent hplus]
    rfl

theorem percentDecode_eq (s : List Char) : percentDecode s = some (chars (decode (utf8 s))) :=
  percentDecodeLoop_eq [] (utf8 s) []

/-! ## Totality -/

theorem parsePair_total (q : ExecQuery) (pair : List Char) : ∃ q', parsePair q pair = some q' := by
  unfold parsePair
  simp only [percentDecode_eq,Option.map_some,Option.bind_eq_bind,Option.bind_some]
  repeat' split
  all_goals exact ⟨_,rfl⟩

theorem foldlM_parsePair_total (q : ExecQuery) (pairs : List (List Char)) :
    ∃ q', pairs.foldlM parsePair q = some q' := by
  induction pairs generalizing q with
  | nil => exact ⟨q,rfl⟩
  | cons pair pairs ih =>
    obtain ⟨q',hq⟩ := parsePair_total q pair
    rw [List.foldlM_cons,hq]
    exact ih q'

/-- Every query is parsed without a panic. -/
theorem parseExecQuery_total (rawQuery : String) : ∃ q, parseExecQuery rawQuery = some q :=
  foldlM_parsePair_total {} _

/-! ## Encoded queries -/

def percentEncode (s : String) : List Char := chars (encode (utf8 s.toList))

/-- One parameter of a query. -/
def param (key value : String) : List Char := percentEncode key ++ '=' :: percentEncode value

/-- The query of a client, with the container behind the tokens `before`. -/
def query (before : List String) (container : String) (after : List String) : String :=
  String.ofList (['&'].intercalate
    (before.map (param "command") ++ param "container" container :: after.map (param "command")))

/-- What becomes of a text: every byte of its encoding is read as a character. -/
def decoded (s : String) : String := String.ofList (chars (utf8 s.toList))

def Ascii (s : String) : Prop := ∀ c ∈ s.toList, c.toNat < 128

theorem decoded_eq_iff {s : String} : decoded s = s ↔ Ascii s := by
  refine Iff.trans ?_ chars_utf8_iff
  constructor
  · exact fun h => by simpa [decoded] using congrArg String.toList h
  · intro h
    rw [decoded,h,String.ofList_toList]

theorem encode_lt {bs : List UInt8} : ∀ b ∈ encode bs, b.toNat < 128 := by
  intro b hb
  rcases mem_encode hb with h | rfl
  · exact unreserved_lt h
  · decide

theorem percentDecode_percentEncode (s : String) :
    (percentDecode (percentEncode s)).map String.ofList = some (decoded s) := by
  rw [percentDecode_eq,percentEncode,utf8_chars encode_lt,decode_encode]
  rfl

theorem ne_of_mem_percentEncode {s : String} {c sign : Char} {byte : UInt8} (h : c ∈ percentEncode s)
    (hsign : sign.toNat = byte.toNat) (hplain : unreserved byte = false) (hpercent : byte ≠ percent) : c ≠ sign := by
  obtain ⟨b,hb,rfl⟩ := List.mem_map.mp h
  intro hc
  have hbyte : b = byte := UInt8.toNat_inj.mp (by rw [← toNat_ofNat_byte b,hc,hsign])
  rcases mem_encode hb with hun | hper
  · rw [hbyte,hplain] at hun
    cases hun
  · exact hpercent (hbyte.symm.trans hper)

/-- The separators of a query do not appear in what is encoded. -/
theorem mem_percentEncode {s : String} {c : Char} (h : c ∈ percentEncode s) : c ≠ '&' ∧ c ≠ '=' := by
  have hamp : '&'.toNat = (38 : UInt8).toNat := rfl
  have hequals : '='.toNat = (61 : UInt8).toNat := rfl
  exact ⟨ne_of_mem_percentEncode h hamp (by decide) (by decide),ne_of_mem_percentEncode h hequals (by decide) (by decide)⟩

theorem param_key (key value : String) : (param key value).takeWhile (· ≠ '=') = percentEncode key := by
  rw [param,List.takeWhile_append_of_pos (fun c hc => by simpa using (mem_percentEncode hc).2)]
  simp

theorem param_value (key value : String) :
    ((param key value).dropWhile (· ≠ '=')).drop 1 = percentEncode value := by
  rw [param,List.dropWhile_append_of_pos (fun c hc => by simpa using (mem_percentEncode hc).2)]
  simp

theorem amp_notMem_param (key value : String) : '&' ∉ param key value := by
  intro h
  rcases List.mem_append.mp h with hkey | hvalue
  · exact (mem_percentEncode hkey).1 rfl
  · rcases List.mem_cons.mp hvalue with heq | hmem
    · exact absurd heq (by decide)
    · exact (mem_percentEncode hmem).1 rfl

theorem parsePair_command (q : ExecQuery) (token : String) :
    parsePair q (param "command" token) = some { q with command := q.command ++ [decoded token] } := by
  have hkey : decoded "command" = "command" := by decide
  unfold parsePair
  rw [param_key,param_value,percentDecode_percentEncode,percentDecode_percentEncode,hkey]
  rfl

theorem parsePair_container (q : ExecQuery) (container : String) :
    parsePair q (param "container" container) = some { q with container := some (decoded container) } := by
  have hkey : decoded "container" = "container" := by decide
  unfold parsePair
  rw [param_key,param_value,percentDecode_percentEncode,percentDecode_percentEncode,hkey]
  rfl

theorem foldlM_commands (q : ExecQuery) (tokens : List String) :
    (tokens.map (param "command")).foldlM parsePair q
      = some { q with command := q.command ++ tokens.map decoded } := by
  induction tokens generalizing q with
  | nil => simp
  | cons token tokens ih =>
    rw [List.map_cons,List.foldlM_cons,parsePair_command]
    refine (ih _).trans ?_
    rw [List.map_cons,List.append_assoc]
    rfl

/-- An encoded query gives the texts with their bytes read as characters. -/
theorem parseExecQuery_query (before : List String) (container : String) (after : List String) :
    parseExecQuery (query before container after)
      = some { container := some (decoded container), command := (before ++ after).map decoded } := by
  have hsep : ∀ l ∈ before.map (param "command") ++ param "container" container :: after.map (param "command"),
      '&' ∉ l := by
    intro l hl
    simp only [List.mem_append,List.mem_cons,List.mem_map] at hl
    rcases hl with ⟨token,-,rfl⟩ | rfl | ⟨token,-,rfl⟩
    · exact amp_notMem_param _ _
    · exact amp_notMem_param _ _
    · exact amp_notMem_param _ _
  unfold parseExecQuery query
  rw [String.toList_ofList,List.splitOn_intercalate '&' hsep (by simp),List.foldlM_append,foldlM_commands]
  simp only [Option.bind_eq_bind,Option.bind_some,List.foldlM_cons,parsePair_container,foldlM_commands,List.nil_append,
    List.map_append]

/-! ## Round trips -/

/-- The container and the tokens come back in order. -/
def DecodesExactly (before : List String) (container : String) (after : List String) : Prop :=
  ∃ q, parseExecQuery (query before container after) = some q ∧ q.container = some container
    ∧ q.command = before ++ after

/-- No query panics, and a query gives back what was encoded exactly if all of it is ASCII. -/
theorem decodesExactly_iff (before : List String) (container : String) (after : List String) :
    (∀ rawQuery, ∃ q, parseExecQuery rawQuery = some q)
    ∧ (DecodesExactly before container after ↔ Ascii container ∧ ∀ token ∈ before ++ after, Ascii token) := by
  refine ⟨parseExecQuery_total,?_⟩
  have hmap : (before ++ after).map decoded = before ++ after ↔ ∀ token ∈ before ++ after, Ascii token := by
    conv_lhs => rhs; rw [← List.map_id (before ++ after)]
    rw [List.map_inj_left]
    exact forall₂_congr fun token _ => decoded_eq_iff
  unfold DecodesExactly
  rw [parseExecQuery_query]
  constructor
  · rintro ⟨q,hq,hcontainer,hcommand⟩
    cases hq
    exact ⟨decoded_eq_iff.mp (Option.some.inj hcontainer),hmap.mp hcommand⟩
  · rintro ⟨hcontainer,htokens⟩
    exact ⟨_,rfl,congrArg some (decoded_eq_iff.mpr hcontainer),hmap.mpr htokens⟩

/-- The two bytes of an accented letter become two letters. -/
theorem accented_token_doubled : query [] "c" ["é"] = "container=c&command=%C3%A9"
    ∧ parseExecQuery "container=c&command=%C3%A9" = some { container := some "c", command := ["Ã©"] }
    ∧ ¬DecodesExactly [] "c" ["é"] := by
  have hquery : query [] "c" ["é"] = "container=c&command=%C3%A9" := by decide
  have hparse := parseExecQuery_query [] "c" ["é"]
  have hdecoded : decoded "é" = "Ã©" := by decide
  rw [hquery,List.nil_append,List.map_singleton,hdecoded] at hparse
  refine ⟨hquery,hparse,?_⟩
  rintro ⟨q,hq,-,hcommand⟩
  rw [hquery,hparse] at hq
  cases hq
  exact absurd hcommand (by decide)

end KubeAir.Streaming.Exec
