import KubeAir.Worker.VolumeMounts
import KubeAir.Wire.Utf8

/-! # Variable expansion

The scanner over the bytes of a text, with a cursor, a checkpoint and slices. It computes the
expansion that is defined over the characters, which treats the pieces of a text one by one.
-/
namespace KubeAir.Worker.EnvExpansion
open Core Wire.Utf8

/-- The byte of an ASCII character. -/
def ascii (c : Char) : UInt8 := UInt8.ofNat c.toNat

/-- The text that is read after a `$`, whether it names a variable, and how many bytes it takes. -/
def tryReadVariableName (input : List Char) : Option (List Char × Bool × ℕ) :=
  match utf8 input with
  | [] => none
  | b :: bytes =>
    if b = ascii '$' then (slice input 0 1).map fun read => (read,false,1)
    else if b = ascii '(' then
      match bytes.findIdx? (· == ascii ')') with
      | some i => (slice input 1 (i + 1)).map fun read => (read,true,i + 2)
      | none => some (['$','('],false,1)
    else (slice input 0 1).map fun read => (read,false,1)

/-- What is pushed for a reading. -/
def pushed (env : HashMap String String) (read : List Char) (isVar : Bool) : List Char :=
  if isVar then
    match env.lookup (String.ofList read) with
    | some value => value.toList
    | none => '$' :: '(' :: read ++ [')']
  else if read ≠ ['$'] then '$' :: read
  else read

/-- The loop; a slice that is no slice panics. -/
def expandLoop (input : List Char) (env : HashMap String String) (output : List Char) (checkpoint cursor : ℕ) :
    Option (List Char) :=
  if cursor < (utf8 input).length then
    if (utf8 input)[cursor]? = some (ascii '$') ∧ cursor + 1 < (utf8 input).length then do
      let copied ← slice input checkpoint cursor
      let tail ← sliceFrom input (cursor + 1)
      let (read,isVar,advance) ← tryReadVariableName tail
      expandLoop input env (output ++ copied ++ pushed env read isVar) (cursor + advance + 1) (cursor + advance + 1)
    else expandLoop input env output checkpoint (cursor + 1)
  else (sliceFrom input checkpoint).map fun tail => output ++ tail
termination_by (utf8 input).length - cursor

/-- `expand_env_value`; a panic is `none`. -/
def expandEnvValue (input : String) (env : HashMap String String) : Option String :=
  (expandLoop input.toList env [] 0 0).map String.ofList

section reading
variable {c : Char} {cs read rest name : List Char} {isVar : Bool}

theorem ascii_toNat (hc : c.toNat < 128) : (ascii c).toNat = c.toNat := by
  unfold ascii
  rw [UInt8.toNat_ofNat']
  exact Nat.mod_eq_of_lt (by omega)

/-- The byte of an ASCII character is among the bytes of that character only. -/
theorem eq_of_ascii_mem {d : Char} (hc : c.toNat < 128) (h : ascii c ∈ String.utf8EncodeChar d) : d = c := by
  have hbyte := (utf8EncodeChar_of_mem (by rw [ascii_toNat hc]; exact hc) h).1
  rw [ascii_toNat hc] at hbyte
  exact Char.toNat_inj.mp hbyte

theorem utf8Size_eq_one_iff : c.utf8Size = 1 ↔ c.toNat < 128 := by
  rw [Char.utf8Size_eq_one_iff]
  exact ⟨fun h => Nat.lt_succ_of_le h,fun h => Nat.le_of_lt_succ h⟩

theorem utf8EncodeChar_ascii (hc : c.toNat < 128) : String.utf8EncodeChar c = [ascii c] := by
  have hle : c.val.toNat ≤ 0x7f := Nat.le_of_lt_succ hc
  unfold String.utf8EncodeChar
  rw [if_pos hle]
  rfl

theorem ascii_notMem_utf8 (hc : c.toNat < 128) (h : c ∉ cs) : ascii c ∉ utf8 cs := by
  unfold utf8
  rw [List.mem_flatMap]
  rintro ⟨d,hd,hmem⟩
  rw [eq_of_ascii_mem hc hmem] at hd
  exact h hd

theorem findIdx?_closing_none (h : ')' ∉ cs) : (utf8 cs).findIdx? (· == ascii ')') = none := by
  rw [List.findIdx?_eq_none_iff]
  intro b hb
  rw [beq_eq_false_iff_ne]
  rintro rfl
  exact ascii_notMem_utf8 (by decide) h hb

/-- The first closing byte is that of the first closing parenthesis. -/
theorem findIdx?_closing (h : ')' ∉ name) :
    (utf8 (name ++ ')' :: rest)).findIdx? (· == ascii ')') = some (size name) := by
  rw [utf8_append,List.findIdx?_append,findIdx?_closing_none h,utf8_cons,
    utf8EncodeChar_ascii (show ')'.toNat < 128 by decide),List.singleton_append,List.findIdx?_cons,
    if_pos (beq_self_eq_true _),Option.map_some,Option.none_or,length_utf8,Nat.zero_add]

theorem takeWhile_closing (h : ')' ∉ name) : (name ++ ')' :: rest).takeWhile (· ≠ ')') = name := by
  rw [List.takeWhile_append_of_pos,List.takeWhile_cons,if_neg (by simp),List.append_nil]
  rintro d hd
  exact decide_eq_true (fun hdc => h (hdc ▸ hd))

theorem dropWhile_closing (h : ')' ∉ name) : ((name ++ ')' :: rest).dropWhile (· ≠ ')')).drop 1 = rest := by
  rw [List.dropWhile_append_of_pos,List.dropWhile_cons,if_neg (by simp)]
  · rfl
  · rintro d hd
    exact decide_eq_true (fun hdc => h (hdc ▸ hd))

theorem utf8_cons_ascii (hc : c.toNat < 128) : utf8 (c :: cs) = ascii c :: utf8 cs := by
  rw [utf8_cons,utf8EncodeChar_ascii hc,List.singleton_append]

theorem size_cons_ascii (hc : c.toNat < 128) : size (c :: cs) = size cs + 1 := by
  rw [size_cons,utf8Size_eq_one_iff.mpr hc,Nat.add_comm]

theorem tryReadVariableName_dollar : tryReadVariableName ('$' :: cs) = some (['$'],false,1) := by
  unfold tryReadVariableName
  rw [utf8_cons_ascii (by decide)]
  dsimp only
  rw [if_pos rfl,slice_first,if_pos (utf8Size_eq_one_iff.mpr (by decide))]
  rfl

theorem tryReadVariableName_reference (h : ')' ∉ name) :
    tryReadVariableName ('(' :: (name ++ ')' :: rest)) = some (name,true,size name + 2) := by
  have hslice := slice_append ['('] name (')' :: rest)
  have hopen : size ['('] = 1 := by decide
  rw [size_append,hopen,Nat.add_comm 1,List.singleton_append,List.cons_append] at hslice
  unfold tryReadVariableName
  rw [utf8_cons_ascii (by decide)]
  dsimp only
  rw [if_neg (by decide),if_pos rfl,findIdx?_closing h]
  dsimp only
  rw [hslice]
  rfl

theorem tryReadVariableName_opened (h : ')' ∉ cs) : tryReadVariableName ('(' :: cs) = some (['$','('],false,1) := by
  unfold tryReadVariableName
  rw [utf8_cons_ascii (by decide)]
  dsimp only
  rw [if_neg (by decide),if_pos rfl,findIdx?_closing_none h]

theorem tryReadVariableName_other (hdollar : c ≠ '$') (hopen : c ≠ '(') :
    tryReadVariableName (c :: cs) = if c.toNat < 128 then some ([c],false,1) else none := by
  have hread : tryReadVariableName (c :: cs) = (slice (c :: cs) 0 1).map fun read => (read,false,1) := by
    unfold tryReadVariableName
    rw [utf8_cons]
    cases hbytes : String.utf8EncodeChar c with
    | nil =>
      have hlen := String.length_utf8EncodeChar c
      have hpos := Char.utf8Size_pos c
      rw [hbytes,List.length_nil] at hlen
      omega
    | cons b bytes =>
      have hmem : b ∈ String.utf8EncodeChar c := hbytes ▸ List.mem_cons_self
      rw [List.cons_append]
      dsimp only
      have hb : ∀ d : Char, d.toNat < 128 → c ≠ d → b ≠ ascii d := by
        rintro d hd hcd rfl
        exact hcd (eq_of_ascii_mem hd hmem)
      rw [if_neg (hb '$' (by decide) hdollar),if_neg (hb '(' (by decide) hopen)]
  rw [hread,slice_first]
  simp only [utf8Size_eq_one_iff]
  split <;> rfl

/-- The reader over the bytes reads what the reader over the characters does, and takes the bytes
of what that one uses up. -/
theorem tryReadVariableName_some (h : VolumeMounts.tryReadVariableName cs = some (read,isVar,rest)) :
    ∃ used, cs = used ++ rest ∧ tryReadVariableName cs = some (read,isVar,size used) := by
  unfold VolumeMounts.tryReadVariableName at h
  split at h
  · cases h
  · cases h
    exact ⟨['$'],rfl,tryReadVariableName_dollar⟩
  · rename_i tail
    split at h
    · rename_i hmem
      obtain ⟨name,after,rfl,hname⟩ := List.eq_append_cons_of_mem hmem
      rw [takeWhile_closing hname,dropWhile_closing hname] at h
      cases h
      refine ⟨'(' :: (read ++ [')']),by simp,?_⟩
      have hclose : size [')'] = 1 := by decide
      rw [tryReadVariableName_reference hname,size_cons_ascii (by decide),size_append,hclose]
    · rename_i hmem
      cases h
      exact ⟨['('],rfl,tryReadVariableName_opened hmem⟩
  · rename_i d tail hdollar hopen
    split at h
    · rename_i hd
      cases h
      refine ⟨[d],rfl,?_⟩
      rw [tryReadVariableName_other hdollar hopen,if_pos hd,size_cons_ascii hd,size_nil]
    · cases h

theorem tryReadVariableName_none (h : VolumeMounts.tryReadVariableName (c :: cs) = none) :
    tryReadVariableName (c :: cs) = none := by
  unfold VolumeMounts.tryReadVariableName at h
  split at h
  · rename_i heq
    cases heq
  · cases h
  · split at h <;> cases h
  · rename_i d tail hdollar hopen heq
    cases heq
    split at h
    · cases h
    · rename_i hd
      rw [tryReadVariableName_other hdollar hopen,if_neg hd]

end reading

section loop
variable {input output lit pre cs : List Char} {env : HashMap String String} {c : Char} {checkpoint cursor : ℕ}

/-- Bytes without a `$` that has something behind it are passed over. -/
theorem expandLoop_skip (n : ℕ) (hlen : cursor + n ≤ (utf8 input).length)
    (h : ∀ i < n, ¬((utf8 input)[cursor + i]? = some (ascii '$') ∧ cursor + i + 1 < (utf8 input).length)) :
    expandLoop input env output checkpoint cursor = expandLoop input env output checkpoint (cursor + n) := by
  induction n with
  | zero => rfl
  | succ n ih =>
    rw [ih (by omega) (fun i hi => h i (by omega)),expandLoop.eq_def input env output checkpoint (cursor + n),
      if_pos (by omega),if_neg (h n (Nat.lt_succ_self n))]
    rfl

theorem getElem?_utf8_append (i : ℕ) : (utf8 (pre ++ cs))[size pre + i]? = (utf8 cs)[i]? := by
  rw [utf8_append,List.getElem?_append_right (by rw [length_utf8]; omega),length_utf8,Nat.add_sub_cancel_left]

/-- A character that opens nothing is passed over with all of its bytes. -/
theorem expandLoop_literal (h : c ≠ '$' ∨ cs = []) :
    expandLoop (pre ++ c :: cs) env output checkpoint (size pre) =
      expandLoop (pre ++ c :: cs) env output checkpoint (size (pre ++ [c])) := by
  rw [size_append,size_cons,size_nil,Nat.add_zero]
  refine expandLoop_skip c.utf8Size ?_ fun i hi hb => ?_
  · rw [length_utf8,size_append,size_cons]
    omega
  · obtain ⟨hbyte,hlen⟩ := hb
    rw [getElem?_utf8_append,utf8_cons,
      List.getElem?_append_left (by rw [String.length_utf8EncodeChar]; exact hi)] at hbyte
    have hc := eq_of_ascii_mem (by decide) (List.mem_of_getElem? hbyte)
    rcases h with h | rfl
    · exact h hc
    · rw [length_utf8,size_append,size_cons,size_nil] at hlen
      have hone : c.utf8Size = 1 := by rw [hc]; decide
      omega

theorem expandChars_dollar :
    VolumeMounts.expandChars env ('$' :: c :: cs) = (VolumeMounts.tryReadVariableName (c :: cs)).bind fun r =>
      (VolumeMounts.expandChars env r.2.2).map fun tail => pushed env r.1 r.2.1 ++ tail := by
  rw [VolumeMounts.expandChars]
  split
  · rename_i hread
    rw [hread]
    rfl
  · rename_i read isVar rest hread
    dsimp only
    rw [hread,Option.bind_some]
    congr 1
    funext tail
    unfold pushed
    cases isVar
    · simp only [Bool.false_eq_true,if_false]
      split <;> rfl
    · simp only [if_true]
      cases env.lookup (String.ofList read) with
      | none => simp
      | some value => rfl

theorem expandChars_literal (h : c ≠ '$' ∨ cs = []) :
    VolumeMounts.expandChars env (c :: cs) = (VolumeMounts.expandChars env cs).map (c :: ·) := by
  have hne : ∀ {cs : List Char}, c ≠ '$' → VolumeMounts.expandChars env (c :: cs) =
      (VolumeMounts.expandChars env cs).map (c :: ·) := by
    intro cs hc
    rw [VolumeMounts.expandChars]
    · exact fun hd => absurd hd hc
    · exact fun _ _ hd => absurd hd hc
  rcases h with h | rfl
  · exact hne h
  · by_cases hc : c = '$'
    · rw [hc,VolumeMounts.expandChars,VolumeMounts.expandChars]
      rfl
    · exact hne hc

/-- A `$` with something behind it is read. -/
theorem expandLoop_dollar (hinput : input = pre ++ lit ++ '$' :: c :: cs) :
    expandLoop input env output (size pre) (size (pre ++ lit)) =
      (tryReadVariableName (c :: cs)).bind fun r =>
        expandLoop input env (output ++ lit ++ pushed env r.1 r.2.1) (size (pre ++ lit) + r.2.2 + 1)
          (size (pre ++ lit) + r.2.2 + 1) := by
  have hbyte : (utf8 input)[size (pre ++ lit)]? = some (ascii '$') := by
    rw [hinput,← Nat.add_zero (size (pre ++ lit)),getElem?_utf8_append,utf8_cons_ascii (by decide)]
    rfl
  have hlen : size (pre ++ lit) + 1 < (utf8 input).length := by
    have hpos := Char.utf8Size_pos c
    rw [length_utf8,hinput,size_append (pre ++ lit),size_cons_ascii (by decide),size_cons]
    omega
  have hcopied : slice input (size pre) (size (pre ++ lit)) = some lit := by
    rw [hinput]
    exact slice_append pre lit ('$' :: c :: cs)
  have htail : sliceFrom input (size (pre ++ lit) + 1) = some (c :: cs) := by
    have h := sliceFrom_append (pre ++ lit ++ ['$']) (c :: cs)
    rw [size_append (pre ++ lit),size_cons_ascii (by decide),size_nil,List.append_assoc (pre ++ lit),List.singleton_append,← hinput] at h
    exact h
  rw [expandLoop,if_pos (by omega),if_pos ⟨hbyte,hlen⟩,hcopied,htail]
  rfl

/-- Where the scanner stands between two characters, with the text from the checkpoint on not copied
yet, it goes on with the expansion of what is left. -/
theorem expandLoop_scan (cs : List Char) : ∀ pre lit output : List Char, input = pre ++ lit ++ cs →
    expandLoop input env output (size pre) (size (pre ++ lit)) =
      (VolumeMounts.expandChars env cs).map fun t => output ++ lit ++ t := by
  have hstop : ∀ pre lit output : List Char, input = pre ++ lit →
      expandLoop input env output (size pre) (size (pre ++ lit)) = some (output ++ lit) := by
    rintro pre lit output rfl
    rw [expandLoop,if_neg (by rw [length_utf8]; omega),sliceFrom_append]
    rfl
  have hliteral : ∀ (c : Char) (cs : List Char), c ≠ '$' ∨ cs = [] →
      (∀ pre lit output : List Char, input = pre ++ lit ++ cs →
        expandLoop input env output (size pre) (size (pre ++ lit)) =
          (VolumeMounts.expandChars env cs).map fun t => output ++ lit ++ t) →
      ∀ pre lit output : List Char, input = pre ++ lit ++ c :: cs →
        expandLoop input env output (size pre) (size (pre ++ lit)) =
          (VolumeMounts.expandChars env (c :: cs)).map fun t => output ++ lit ++ t := by
    intro c cs hc ih pre lit output hinput
    rw [hinput,expandLoop_literal hc,← hinput,List.append_assoc pre,ih pre (lit ++ [c]) output (by rw [hinput]; simp),
      expandChars_literal hc,Option.map_map]
    congr 1
    funext t
    simp
  induction cs using VolumeMounts.expandChars.induct with
  | case1 =>
    intro pre lit output hinput
    rw [List.append_nil] at hinput
    rw [hstop pre lit output hinput,VolumeMounts.expandChars,Option.map_some,List.append_nil]
  | case2 =>
    refine hliteral '$' [] (Or.inr rfl) fun pre lit output hinput => ?_
    rw [List.append_nil] at hinput
    rw [hstop pre lit output hinput,VolumeMounts.expandChars,Option.map_some,List.append_nil]
  | case3 c cs hread =>
    intro pre lit output hinput
    rw [expandLoop_dollar hinput,tryReadVariableName_none hread,expandChars_dollar,hread]
    rfl
  | case4 c cs read isVar rest hread hlt ih =>
    intro pre lit output hinput
    obtain ⟨used,hused,hbytes⟩ := tryReadVariableName_some hread
    have hcursor : size (pre ++ lit) + size used + 1 = size (pre ++ lit ++ '$' :: used) := by
      rw [size_append (pre ++ lit),size_cons_ascii (by decide),Nat.add_assoc]
    have hrest := ih (pre ++ lit ++ '$' :: used) [] (output ++ lit ++ pushed env read isVar) (by rw [hinput,hused]; simp)
    rw [List.append_nil,List.append_nil] at hrest
    rw [expandLoop_dollar hinput,hbytes,Option.bind_some,hcursor,hrest,expandChars_dollar,hread,Option.bind_some,
      Option.map_map]
    congr 1
    funext t
    simp
  | case5 c cs hlast hdollar ih =>
    refine hliteral c cs ?_ ih
    by_cases hc : c = '$'
    · cases cs with
      | nil => exact Or.inr rfl
      | cons d ds => exact absurd rfl (hdollar d ds hc)
    · exact Or.inl hc

end loop

/-- The scanner over the bytes computes the expansion over the characters. -/
theorem expandEnvValue_eq (input : String) (env : HashMap String String) :
    expandEnvValue input env = VolumeMounts.expandEnvValue input env := by
  have h : expandLoop ([] ++ [] ++ input.toList) env [] (size []) (size ([] ++ [])) = _ :=
    expandLoop_scan input.toList [] [] [] rfl
  unfold expandEnvValue VolumeMounts.expandEnvValue
  rw [List.append_nil,size_nil,List.nil_append] at h
  rw [h]
  simp

theorem expandEnvValue_eq_some_iff {input s : String} {env : HashMap String String} :
    expandEnvValue input env = some s ↔ VolumeMounts.expandChars env input.toList = some s.toList := by
  rw [expandEnvValue_eq,VolumeMounts.expandEnvValue,Option.map_eq_some_iff]
  constructor
  · rintro ⟨cs,hcs,rfl⟩
    rw [hcs,String.toList_ofList]
  · intro h
    exact ⟨s.toList,h,String.ofList_toList⟩

/-- The pieces of a text: characters that stand for themselves, `$$`, references, a `$` before any
other character, and a `$(` that is never closed. -/
inductive Token
  | char (c : Char)
  | dollar
  | reference (name : List Char)
  | shell (c : Char)
  | opened
  deriving DecidableEq

def tokens : List Char → List Token
  | [] => []
  | '$' :: '$' :: cs => .dollar :: tokens cs
  | '$' :: '(' :: cs =>
    if ')' ∈ cs then .reference (cs.takeWhile (· ≠ ')')) :: tokens ((cs.dropWhile (· ≠ ')')).drop 1)
    else .opened :: tokens cs
  | '$' :: c :: cs => .shell c :: tokens cs
  | c :: cs => .char c :: tokens cs
termination_by cs => cs.length
decreasing_by
  · simp only [List.length_cons]
    omega
  · have hd := (List.dropWhile_sublist (fun c => decide (c ≠ ')')) (l := cs)).length_le
    simp only [List.length_drop,List.length_cons]
    omega
  all_goals
    simp only [List.length_cons]
    omega

/-- The value of a name, or the reference to it where it has none. -/
def referenceText (env : HashMap String String) (name : List Char) : List Char :=
  match env.lookup (String.ofList name) with
  | some value => value.toList
  | none => '$' :: '(' :: name ++ [')']

/-- What the code makes of a piece; a panic is `none`. -/
def Token.copied (env : HashMap String String) : Token → Option (List Char)
  | .char c => some [c]
  | .dollar => some ['$']
  | .reference name => some (referenceText env name)
  | .shell c => if c.toNat < 128 then some ['$',c] else none
  | .opened => some ['$','$','(']

/-- The left-to-right scan that the expansion is meant to be: what is neither `$$` nor a closed
reference is copied. -/
def referenceScan (env : HashMap String String) : List Char → List Char
  | [] => []
  | '$' :: '$' :: cs => '$' :: referenceScan env cs
  | '$' :: '(' :: cs =>
    if ')' ∈ cs then referenceText env (cs.takeWhile (· ≠ ')')) ++ referenceScan env ((cs.dropWhile (· ≠ ')')).drop 1)
    else '$' :: '(' :: cs
  | c :: cs => c :: referenceScan env cs
termination_by cs => cs.length
decreasing_by
  · simp only [List.length_cons]
    omega
  · have hd := (List.dropWhile_sublist (fun c => decide (c ≠ ')')) (l := cs)).length_le
    simp only [List.length_drop,List.length_cons]
    omega
  · simp

/-- The pieces that the code copies as they are meant. -/
def Token.Copyable : Token → Prop
  | .shell c => c.toNat < 128
  | .opened => False
  | _ => True

section scan
variable {env : HashMap String String} {cs : List Char} {c : Char}

theorem expandChars_escaped :
    VolumeMounts.expandChars env ('$' :: '$' :: cs) = (VolumeMounts.expandChars env cs).map (['$'] ++ ·) := by
  rw [expandChars_dollar]
  rfl

theorem expandChars_reference (h : ')' ∈ cs) :
    VolumeMounts.expandChars env ('$' :: '(' :: cs) =
      (VolumeMounts.expandChars env ((cs.dropWhile (· ≠ ')')).drop 1)).map
        (referenceText env (cs.takeWhile (· ≠ ')')) ++ ·) := by
  rw [expandChars_dollar,VolumeMounts.tryReadVariableName,if_pos h]
  rfl

theorem expandChars_opened (h : ')' ∉ cs) :
    VolumeMounts.expandChars env ('$' :: '(' :: cs) = (VolumeMounts.expandChars env cs).map (['$','$','('] ++ ·) := by
  rw [expandChars_dollar,VolumeMounts.tryReadVariableName,if_neg h]
  rfl

theorem expandChars_shell (hdollar : c ≠ '$') (hopen : c ≠ '(') :
    VolumeMounts.expandChars env ('$' :: c :: cs) =
      if c.toNat < 128 then (VolumeMounts.expandChars env cs).map (['$',c] ++ ·) else none := by
  rw [expandChars_dollar,VolumeMounts.tryReadVariableName]
  · split
    · rw [Option.bind_some]
      simp [pushed,hdollar]
    · rfl
  · exact fun hc => absurd hc hdollar
  · exact fun hc => absurd hc hopen

theorem literal_of (h : ∀ (d : Char) (ds : List Char), c = '$' → cs = d :: ds → False) : c ≠ '$' ∨ cs = [] := by
  by_cases hc : c = '$'
  · cases cs with
    | nil => exact Or.inr rfl
    | cons d ds => exact (h d ds hc rfl).elim
  · exact Or.inl hc

/-- The expansion puts together what becomes of the pieces. -/
theorem expandChars_eq (cs : List Char) :
    VolumeMounts.expandChars env cs = ((tokens cs).mapM (Token.copied env)).map List.flatten := by
  have hcons : ∀ {t : Token} {ts : List Token}, ((t :: ts).mapM (Token.copied env)).map List.flatten =
      (t.copied env).bind fun x => ((ts.mapM (Token.copied env)).map List.flatten).map (x ++ ·) := by
    intro t ts
    rw [List.mapM_cons]
    cases t.copied env with
    | none => rfl
    | some x => cases ts.mapM (Token.copied env) <;> rfl
  induction cs using tokens.induct with
  | case1 => rw [VolumeMounts.expandChars,tokens]; rfl
  | case2 cs ih => rw [expandChars_escaped,tokens,hcons,← ih]; rfl
  | case3 cs h ih => rw [expandChars_reference h,tokens,if_pos h,hcons,← ih]; rfl
  | case4 cs h ih => rw [expandChars_opened h,tokens,if_neg h,hcons,← ih]; rfl
  | case5 c cs hdollar hopen ih =>
    rw [expandChars_shell hdollar hopen,tokens,hcons,← ih]
    · simp only [Token.copied]
      split <;> rfl
    · exact hdollar
    · exact hopen
  | case6 c cs h1 h2 h3 ih =>
    rw [expandChars_literal (literal_of h3),tokens,hcons,← ih]
    · rfl
    · exact h1
    · exact h2
    · exact h3

theorem referenceScan_cons (h : c ≠ '$') : referenceScan env (c :: cs) = c :: referenceScan env cs := by
  rw [referenceScan]
  · exact fun _ hc => absurd hc h
  · exact fun _ hc => absurd hc h

/-- What is meant and what is copied agree exactly where every piece is copied as it is meant. -/
theorem expandChars_eq_referenceScan_iff (cs : List Char) :
    VolumeMounts.expandChars env cs = some (referenceScan env cs) ↔ ∀ t ∈ tokens cs, t.Copyable := by
  have hmap : ∀ {o : Option (List Char)} {x y : List Char}, o.map (x ++ ·) = some (x ++ y) ↔ o = some y := by
    intro o x y
    rw [← Option.map_some,(Option.map_injective (List.append_right_injective x)).eq_iff]
  have hall : ∀ {t : Token} {ts : List Token}, t.Copyable →
      ((∀ u ∈ t :: ts, u.Copyable) ↔ ∀ u ∈ ts, u.Copyable) :=
    fun ht => List.forall_mem_cons.trans (and_iff_right ht)
  induction cs using tokens.induct with
  | case1 =>
    rw [VolumeMounts.expandChars,tokens,referenceScan]
    simp
  | case2 cs ih =>
    rw [expandChars_escaped,tokens,referenceScan,hall (t := .dollar) trivial]
    exact hmap.trans ih
  | case3 cs h ih =>
    rw [expandChars_reference h,tokens,if_pos h,referenceScan,if_pos h,hall (t := .reference _) trivial]
    exact hmap.trans ih
  | case4 cs h ih =>
    rw [expandChars_opened h,tokens,if_neg h,referenceScan,if_neg h,List.forall_mem_cons]
    refine iff_of_false (fun hsame => ?_) (fun hcopied => hcopied.1)
    cases hrest : VolumeMounts.expandChars env cs with
    | none =>
      rw [hrest] at hsame
      cases hsame
    | some t =>
      rw [hrest] at hsame
      simp at hsame
  | case5 c cs hdollar hopen ih =>
    have htokens : tokens ('$' :: c :: cs) = .shell c :: tokens cs := by
      rw [tokens]
      · exact hdollar
      · exact hopen
    have hscan : referenceScan env ('$' :: c :: cs) = ['$',c] ++ referenceScan env cs := by
      rw [referenceScan,referenceScan_cons hdollar]
      · rfl
      · simpa using hdollar
      · simpa using hopen
    rw [expandChars_shell hdollar hopen,htokens,hscan]
    by_cases hc : c.toNat < 128
    · rw [if_pos hc,hall (t := .shell c) hc]
      exact hmap.trans ih
    · rw [if_neg hc,List.forall_mem_cons]
      exact iff_of_false (fun hnone => by cases hnone) (fun hcopied => hc hcopied.1)
  | case6 c cs h1 h2 h3 ih =>
    have htokens : tokens (c :: cs) = .char c :: tokens cs := by
      rw [tokens]
      · exact h1
      · exact h2
      · exact h3
    have hscan : referenceScan env (c :: cs) = [c] ++ referenceScan env cs := by
      rw [referenceScan]
      · rfl
      · exact h1
      · exact h2
    rw [expandChars_literal (literal_of h3),htokens,hscan,hall (t := .char c) trivial]
    exact (hmap (x := [c])).trans ih

/-- The expansion is the one that is meant exactly on the texts in which every `$(` is closed and
no `$` is before a character of several bytes. -/
theorem expandEnvValue_eq_referenceScan_iff (input : String) (env : HashMap String String) :
    expandEnvValue input env = some (String.ofList (referenceScan env input.toList)) ↔
      ∀ t ∈ tokens input.toList, t.Copyable := by
  rw [expandEnvValue_eq_some_iff,String.toList_ofList]
  exact expandChars_eq_referenceScan_iff input.toList

/-- An unclosed reference gets a second `$`, and a `$` before a character of two bytes panics. -/
theorem unclosed_and_wide :
    expandEnvValue "$(x" ∅ = some "$$(x" ∧ String.ofList (referenceScan ∅ "$(x".toList) = "$(x" ∧
      expandEnvValue "$é" ∅ = none := by
  have hx : ∀ env : HashMap String String, VolumeMounts.expandChars env ['x'] = some ['x'] := by
    intro env
    rw [expandChars_literal (Or.inr rfl),VolumeMounts.expandChars]
    rfl
  refine ⟨?_,?_,?_⟩
  · rw [expandEnvValue_eq,VolumeMounts.expandEnvValue,show "$(x".toList = ['$','(','x'] from by decide,
      expandChars_opened (by decide),hx]
    decide
  · rw [show "$(x".toList = ['$','(','x'] from by decide,referenceScan,if_neg (by decide)]
  · rw [expandEnvValue_eq,VolumeMounts.expandEnvValue,show "$é".toList = ['$','é'] from by decide,
      expandChars_shell (by decide) (by decide),if_neg (by decide)]
    decide

end scan

end KubeAir.Worker.EnvExpansion
