import KubeAir.Adapters.FileSource
import KubeAir.Transition.Machine
import Mathlib.Data.List.Induction
import Mathlib.Data.List.TakeWhile

/-! # Checkpoints

Values are kept in the files of a directory, one for each key. The name of a file is its key with
the signs replaced that file names cannot have; what that does to different keys decides whether
the directory is a map.
-/
namespace KubeAir.Adapters.Checkpoint
open Core Transition Machine

/-- `serde_json::to_string_pretty` and `serde_json::from_str` at the type of the values. -/
structure JsonCodec (T : Type) where
  toStringPretty : T → Except String String
  fromStr : String → Except String T
  fromStr_toStringPretty : ∀ value json, toStringPretty value = .ok json → fromStr json = .ok value

inductive CheckpointError
  | serialization (message : String)
  | io (message : String)
deriving DecidableEq, Repr

/-- `key.replace(['/', ':'], "_")`. -/
def safeKey (key : String) : String := String.ofList (key.toList.map (fun c => if c = '/' ∨ c = ':' then '_' else c))

/-- `PathBuf::set_extension` of a file name. The directory above is no file name, and stays. -/
def setExtension (name ext : String) : String :=
  if name = ".." then name
  else
    match fileStem name with
    | none => name
    | some stem => if ext = "" then stem else stem ++ "." ++ ext

/-- `Path::with_extension` of a file name: the old extension is cut off behind its dot. -/
def withExtension (name ext : String) : String :=
  match extension name with
  | none => setExtension name ext
  | some previous => setExtension (String.ofList (name.toList.take (name.length - previous.length))) ext

/-- An order in which `read_dir` gives the names of a directory. -/
structure DirWalk where
  order : List String → List String
  perm : ∀ names, (order names).Perm names

/-- The manager, as the files of its directory and what they hold. -/
structure CheckpointManager where
  files : HashMap String String := ∅

namespace CheckpointManager
variable {T : Type} (codec : JsonCodec T) (m : CheckpointManager)

def pathFor (key : String) : String := safeKey key ++ ".json"

/-- `std::fs::write`, which does not write to the directory above. -/
def writeFile (path content : String) : Except CheckpointError CheckpointManager :=
  if path = ".." then .error (.io "Is a directory (os error 21)") else .ok ⟨m.files.insert path content⟩

/-- `std::fs::rename`. -/
def rename (source target : String) : CheckpointManager :=
  match m.files.lookup source with
  | none => m
  | some content => ⟨(m.files.erase source).insert target content⟩

def write (key : String) (value : T) : Except CheckpointError Unit × CheckpointManager :=
  match codec.toStringPretty value with
  | .error e => (.error (.serialization e),m)
  | .ok json =>
    let path := pathFor key
    let tmp := withExtension path "tmp"
    match m.writeFile tmp json with
    | .error e => (.error e,m)
    | .ok m => (.ok (),m.rename tmp path)

def read (key : String) : Except CheckpointError (Option T) :=
  match m.files.lookup (pathFor key) with
  | none => .ok none
  | some content =>
    match codec.fromStr content with
    | .error e => .error (.serialization e)
    | .ok value => .ok (some value)

def delete (key : String) : CheckpointManager := ⟨m.files.erase (pathFor key)⟩

/-- The key that a file name is listed as. -/
def listedKey (path : String) : Option String := if extension path = some "json" then fileStem path else none

def list (walk : DirWalk) : List String := (walk.order m.files.keys).filterMap listedKey

end CheckpointManager

open CheckpointManager

inductive CheckpointCall (T : Type)
  | write (key : String) (value : T)
  | read (key : String)
  | delete (key : String)
  | list

inductive CheckpointAnswer (T : Type)
  | written (result : Except CheckpointError Unit)
  | found (result : Except CheckpointError (Option T))
  | deleted
  | listed (keys : List String)

section Runs
variable {T : Type} (codec : JsonCodec T) (walk : DirWalk)

def step (m : CheckpointManager) : CheckpointCall T → CheckpointAnswer T × CheckpointManager
  | .write key value => (.written (m.write codec key value).1,(m.write codec key value).2)
  | .read key => (.found (m.read codec key),m)
  | .delete key => (.deleted,m.delete key)
  | .list => (.listed (m.list walk),m)

/-- The manager after some calls on an empty directory. -/
abbrev called (calls : List (CheckpointCall T)) : CheckpointManager := after (step codec walk) {} calls

/-! ## The map that is meant -/

/-- What a call leaves of the value that some keys have in common. -/
def leaves (p : String → Prop) [DecidablePred p] (old : Option T) : CheckpointCall T → Option T
  | .write key value => if p key ∧ (codec.toStringPretty value).isOk = true then some value else old
  | .delete key => if p key then none else old
  | .read _ => old
  | .list => old

def lastFor (p : String → Prop) [DecidablePred p] (calls : List (CheckpointCall T)) : Option T :=
  calls.foldl (leaves codec p) none

/-- The value that was last written to a key and not deleted since. -/
def lastWrite (calls : List (CheckpointCall T)) (key : String) : Option T := lastFor codec (· = key) calls

/-- Reads and listings of the manager are those of a map. -/
structure IsMap (m : CheckpointManager) (stored : String → Option T) : Prop where
  reads : ∀ key, m.read codec key = .ok (stored key)
  once : (m.list walk).Nodup
  lists : ∀ key, key ∈ m.list walk ↔ (stored key).isSome = true

/-- After every call the manager is the map of what was written. -/
def ActsAsMap (calls : List (CheckpointCall T)) : Prop :=
  ∀ earlier, earlier <+: calls → IsMap codec walk (called codec walk earlier) (lastWrite codec earlier)

/-- A value was written to the key at some time. -/
def Written (calls : List (CheckpointCall T)) (key : String) : Prop :=
  ∃ value, .write key value ∈ calls ∧ (codec.toStringPretty value).isOk = true

/-- A key with a file that no other key shares. -/
structure PlainKey (key : String) : Prop where
  ne_empty : key ≠ ""
  ne_dot : key ≠ "."
  signs : ∀ c ∈ key.toList, c ≠ '/' ∧ c ≠ ':' ∧ c ≠ '_'

end Runs

/-! ## File names -/

theorem takeWhile_reverse (stem : List Char) {ext : List Char} (hext : '.' ∉ ext) :
    ((stem ++ '.' :: ext).reverse.takeWhile (· ≠ '.')).reverse = ext := by
  have hrev : (stem ++ '.' :: ext).reverse = ext.reverse ++ '.' :: stem.reverse := by simp
  have hall : ∀ c ∈ ext.reverse, decide (c ≠ '.') = true := by
    intro c hc
    refine decide_eq_true ?_
    rintro rfl
    exact hext (List.mem_reverse.mp hc)
  rw [hrev,List.takeWhile_append_of_pos hall]
  simp

theorem append_ne_dots {stem ext : List Char} (hext : '.' ∉ ext) (hne : ext ≠ []) : stem ++ '.' :: ext ≠ ['.','.'] := by
  intro heq
  have hlast := congrArg (fun l => l.reverse.head?) heq
  obtain ⟨init,c,rfl⟩ := List.eq_nil_or_concat ext |>.resolve_left hne
  simp at hlast
  exact hext (by simp [hlast])

theorem rsplitFileAtDot_append {stem ext : List Char} (hext : '.' ∉ ext) (hdots : stem ++ '.' :: ext ≠ ['.','.']) :
    rsplitFileAtDot (stem ++ '.' :: ext) =
      if stem = [] then (some ('.' :: ext),none) else (some stem,some ext) := by
  have hlength : (stem ++ '.' :: ext).length = stem.length + (ext.length + 1) := by simp
  have htake : (stem ++ '.' :: ext).take ((stem ++ '.' :: ext).length - ext.length - 1) = stem := by
    rw [hlength,show stem.length + (ext.length + 1) - ext.length - 1 = stem.length by omega,List.take_left]
  have hbefore : (if ext.length = (stem ++ '.' :: ext).length then none
      else some ((stem ++ '.' :: ext).take ((stem ++ '.' :: ext).length - ext.length - 1))) = some stem := by
    rw [if_neg (by rw [hlength]; omega),htake]
  unfold rsplitFileAtDot
  rw [if_neg hdots,takeWhile_reverse stem hext]
  dsimp only
  rw [hbefore]
  by_cases hstem : stem = []
  · simp [hstem]
  · simp [hstem]

/-- Every file has a stem. -/
theorem exists_fileStem (name : String) : ∃ stem, fileStem name = some stem := by
  have hsome : ∀ file, ((rsplitFileAtDot file).1.or (rsplitFileAtDot file).2).isSome = true := by
    intro file
    unfold rsplitFileAtDot
    dsimp only
    repeat' split
    all_goals simp
  obtain ⟨stem,hstem⟩ := Option.isSome_iff_exists.mp (hsome (fileName name))
  exact ⟨String.ofList stem,congrArg (Option.map String.ofList) hstem⟩

theorem fileName_eq {path : String} (h : '/' ∉ path.toList) : fileName path = path.toList := by
  have hall : ∀ c ∈ path.toList.reverse, decide (c ≠ '/') = true := by
    intro c hc
    refine decide_eq_true ?_
    rintro rfl
    exact h (List.mem_reverse.mp hc)
  unfold fileName
  rw [List.takeWhile_eq_self_iff.mpr hall,List.reverse_reverse]

theorem toList_safeKey (key : String) :
    (safeKey key).toList = key.toList.map (fun c => if c = '/' ∨ c = ':' then '_' else c) := String.toList_ofList

theorem mem_safeKey {key : String} {c : Char} (h : c ∈ (safeKey key).toList) : c ≠ '/' ∧ c ≠ ':' := by
  rw [toList_safeKey] at h
  obtain ⟨d,-,rfl⟩ := List.mem_map.mp h
  split
  · decide
  · next hd => exact not_or.mp hd

/-- A key without the signs that are replaced is its own name. -/
theorem safeKey_eq_self {key : String} (h : ∀ c ∈ key.toList, c ≠ '/' ∧ c ≠ ':') : safeKey key = key := by
  apply String.toList_inj.mp
  calc
    (safeKey key).toList = key.toList.map id := by
      rw [toList_safeKey]
      exact List.map_congr_left fun c hc => if_neg (not_or.mpr (h c hc))
    _ = key.toList := List.map_id _

theorem safeKey_safeKey (key : String) : safeKey (safeKey key) = safeKey key := safeKey_eq_self fun _ => mem_safeKey

/-- What has no underscore in its name has none of the signs in it. -/
theorem eq_of_safeKey {key : String} (h : '_' ∉ (safeKey key).toList) : safeKey key = key := by
  refine safeKey_eq_self ?_
  intro c hc
  rw [toList_safeKey] at h
  have hnot : ¬(c = '/' ∨ c = ':') := by
    intro hsign
    exact h (List.mem_map.mpr ⟨c,hc,if_pos hsign⟩)
  exact not_or.mp hnot

theorem safeKey_eq_dot_iff {key : String} : safeKey key = "." ↔ key = "." := by
  constructor
  · intro h
    have hnot : '_' ∉ (safeKey key).toList := by
      rw [h]
      decide
    exact (eq_of_safeKey hnot).symm.trans h
  · rintro rfl
    decide

theorem toList_pathFor (key : String) : (pathFor key).toList = (safeKey key).toList ++ '.' :: "json".toList := by
  rw [pathFor,String.toList_append]
  rfl

theorem pathFor_inj {key key' : String} : pathFor key = pathFor key' ↔ safeKey key = safeKey key' := by
  constructor
  · intro h
    have hchars := congrArg String.toList h
    rw [toList_pathFor,toList_pathFor] at hchars
    exact String.toList_inj.mp (List.append_cancel_right hchars)
  · intro h
    unfold pathFor
    rw [h]

theorem fileName_pathFor (key : String) : fileName (pathFor key) = (safeKey key).toList ++ '.' :: "json".toList := by
  rw [fileName_eq,toList_pathFor]
  rw [toList_pathFor]
  intro h
  rcases List.mem_append.mp h with h | h
  · exact (mem_safeKey h).1 rfl
  · exact absurd h (by decide)

theorem rsplit_pathFor (key : String) : rsplitFileAtDot (fileName (pathFor key)) =
    if safeKey key = "" then (some ".json".toList,none) else (some (safeKey key).toList,some "json".toList) := by
  rw [fileName_pathFor,rsplitFileAtDot_append (by decide) (append_ne_dots (by decide) (by decide))]
  have hempty : (safeKey key).toList = [] ↔ safeKey key = "" := String.toList_eq_nil_iff
  simp only [hempty]
  rfl

/-- A file is listed by its name without the extension, but for the empty name. -/
theorem listedKey_pathFor (key : String) :
    listedKey (pathFor key) = if safeKey key = "" then none else some (safeKey key) := by
  unfold listedKey extension fileStem
  rw [rsplit_pathFor]
  by_cases hempty : safeKey key = ""
  · simp [hempty]
  · simp [hempty]

/-- A name of a stem and an extension has the other extension in its place, but for the stem that
makes the directory above with the dot. -/
theorem withExtension_append {stem previous ext : String} (hslash : '/' ∉ stem.toList ++ '.' :: previous.toList)
    (hdot : '.' ∉ previous.toList) (hprevious : previous ≠ "") (hstem : stem ≠ "") (hext : ext ≠ "") :
    withExtension (stem ++ "." ++ previous) ext = if stem = "." then ".." else stem ++ "." ++ ext := by
  have hname : (stem ++ "." ++ previous).toList = stem.toList ++ '.' :: previous.toList := by simp
  have hsplit : rsplitFileAtDot (fileName (stem ++ "." ++ previous)) = (some stem.toList,some previous.toList) := by
    have hne : previous.toList ≠ [] := fun h => hprevious (String.toList_eq_nil_iff.mp h)
    rw [fileName_eq (by rwa [hname]),hname,rsplitFileAtDot_append hdot (append_ne_dots hdot hne),if_neg]
    exact fun h => hstem (String.toList_eq_nil_iff.mp h)
  have hlength : (stem ++ "." ++ previous).length - previous.length = stem.toList.length + 1 := by
    rw [← String.length_toList,← String.length_toList,hname,List.length_append,List.length_cons]
    omega
  have hcut : (stem ++ "." ++ previous).toList.take ((stem ++ "." ++ previous).length - previous.length) =
      stem.toList ++ ['.'] := by
    rw [hlength,hname,show stem.toList ++ '.' :: previous.toList = (stem.toList ++ ['.']) ++ previous.toList by simp,
      List.take_left' (by simp)]
  have hextension : extension (stem ++ "." ++ previous) = some previous := by
    unfold extension
    rw [hsplit]
    simp
  unfold withExtension
  rw [hextension]
  dsimp only
  rw [hcut]
  have hcutName : String.ofList (stem.toList ++ ['.']) = ".." ↔ stem = "." := by
    rw [← String.toList_inj,← String.toList_inj,String.toList_ofList]
    have hcut : stem.toList ++ ['.'] = ['.'] ++ ['.'] ↔ stem.toList = ['.'] := List.append_left_inj ['.']
    exact hcut
  unfold setExtension
  by_cases hup : stem = "."
  · rw [if_pos (hcutName.mpr hup),if_pos hup,hcutName.mpr hup]
  · have hchars : (String.ofList (stem.toList ++ ['.'])).toList = stem.toList ++ ['.'] := String.toList_ofList
    have hslash' : '/' ∉ (String.ofList (stem.toList ++ ['.'])).toList := by
      rw [hchars]
      intro h
      rw [List.mem_append,List.mem_singleton] at h
      exact hslash (List.mem_append_left _ (h.resolve_right (by decide)))
    have hfileStem : fileStem (String.ofList (stem.toList ++ ['.'])) = some stem := by
      have hdots : stem.toList ++ ['.'] ≠ ['.','.'] := by
        intro h
        exact hup (hcutName.mp (String.toList_inj.mp (hchars.trans h)))
      unfold fileStem
      rw [fileName_eq hslash',hchars,rsplitFileAtDot_append (by simp) hdots,if_neg]
      · simp
      · exact fun h => hstem (String.toList_eq_nil_iff.mp h)
    rw [if_neg (fun h => hup (hcutName.mp h)),if_neg hup,hfileStem]
    exact if_neg hext

/-- A name comes to the directory above, or to a stem with the new extension. -/
theorem withExtension_form (name : String) {ext : String} (hext : ext ≠ "") :
    withExtension name ext = ".." ∨ ∃ stem, withExtension name ext = stem ++ "." ++ ext := by
  have hset : ∀ cut, setExtension cut ext = ".." ∨ ∃ stem, setExtension cut ext = stem ++ "." ++ ext := by
    intro cut
    unfold setExtension
    by_cases hcut : cut = ".."
    · rw [if_pos hcut]
      exact .inl hcut
    · obtain ⟨stem,hstem⟩ := exists_fileStem cut
      rw [if_neg hcut,hstem]
      exact .inr ⟨stem,if_neg hext⟩
  unfold withExtension
  split
  · exact hset name
  · exact hset _

theorem withExtension_pathFor (key : String) : withExtension (pathFor key) "tmp" =
    if safeKey key = "" then ".json.tmp" else if key = "." then ".." else safeKey key ++ ".tmp" := by
  have hslash : '/' ∉ (safeKey key).toList ++ '.' :: "json".toList := by
    intro h
    rcases List.mem_append.mp h with h | h
    · exact (mem_safeKey h).1 rfl
    · exact absurd h (by decide)
  have hpath : pathFor key = safeKey key ++ "." ++ "json" := by
    rw [pathFor,String.append_assoc]
    rfl
  by_cases hempty : safeKey key = ""
  · rw [if_pos hempty,pathFor,hempty]
    decide +kernel
  · rw [if_neg hempty,hpath,withExtension_append hslash (by decide) (by decide) hempty (by decide),String.append_assoc]
    simp only [safeKey_eq_dot_iff]
    rfl

/-- The temporary file is no checkpoint. -/
theorem withExtension_ne_pathFor (key key' : String) : withExtension (pathFor key) "tmp" ≠ pathFor key' := by
  have hlast : (pathFor key').toList.getLast? = some 'n' := by
    rw [toList_pathFor]
    simp
  intro heq
  rw [← heq,withExtension_pathFor] at hlast
  split_ifs at hlast
  · exact absurd hlast (by decide)
  · exact absurd hlast (by decide)
  · simp at hlast

/-- The dot has the directory above for its temporary file. -/
theorem withExtension_eq_dots_iff (key : String) : withExtension (pathFor key) "tmp" = ".." ↔ key = "." := by
  rw [withExtension_pathFor]
  split_ifs with hempty hdot
  · refine iff_of_false (by decide) ?_
    rintro rfl
    exact absurd hempty (by decide)
  · exact iff_of_true rfl hdot
  · refine iff_of_false (fun h => ?_) hdot
    have hlast := congrArg (fun name => name.toList.getLast?) h
    simp at hlast

/-! ## What the files hold -/

section Files
variable {T : Type} {codec : JsonCodec T} {walk : DirWalk} {m : CheckpointManager} {calls : List (CheckpointCall T)}
  {key : String} {value : T}

/-- The dot cannot be written. -/
theorem write_dot (value : T) : (m.write codec "." value).2 = m := by
  unfold write writeFile
  cases codec.toStringPretty value with
  | error e => rfl
  | ok json =>
    dsimp only
    rw [if_pos ((withExtension_eq_dots_iff ".").mpr rfl)]

/-- A write leaves the value in the file of its key, and no temporary file. -/
theorem lookup_write (hkey : key ≠ ".") {json : String} (hjson : codec.toStringPretty value = .ok json)
    (htmp : m.files.lookup (withExtension (pathFor key) "tmp") = none) (path : String) :
    (m.write codec key value).2.files.lookup path = if path = pathFor key then some json else m.files.lookup path := by
  unfold write writeFile
  rw [hjson]
  dsimp only
  rw [if_neg (fun h => hkey ((withExtension_eq_dots_iff key).mp h))]
  dsimp only
  unfold CheckpointManager.rename
  rw [AList.lookup_insert]
  dsimp only
  by_cases hpath : path = pathFor key
  · rw [if_pos hpath,hpath,AList.lookup_insert]
  · rw [if_neg hpath,AList.lookup_insert_ne hpath]
    by_cases hp : path = withExtension (pathFor key) "tmp"
    · rw [hp,AList.lookup_erase,htmp]
    · rw [AList.lookup_erase_ne hp,AList.lookup_insert_ne hp]

/-- Each file holds what was last written to a key of its name, and there are no other files. -/
structure Holds (codec : JsonCodec T) (m : CheckpointManager) (calls : List (CheckpointCall T)) : Prop where
  content : ∀ key, key ≠ "." → m.files.lookup (pathFor key) =
    (lastFor codec (fun k => safeKey k = safeKey key) calls).bind (fun value => (codec.toStringPretty value).toOption)
  named : ∀ path, m.files.lookup path ≠ none → ∃ key, key ≠ "." ∧ path = pathFor key

theorem lastFor_concat (p : String → Prop) [DecidablePred p] (call : CheckpointCall T) :
    lastFor codec p (calls ++ [call]) = leaves codec p (lastFor codec p calls) call := by
  simp [lastFor]

theorem holds_empty : Holds codec {} ([] : List (CheckpointCall T)) where
  content := fun _ _ => rfl
  named := fun _ h => absurd rfl h

/-- A call that leaves the files as they are, and is of no other key's file. -/
theorem Holds.of_unwritten (h : Holds codec m calls) {call : CheckpointCall T}
    (hleaves : ∀ key, key ≠ "." → ∀ old, leaves codec (fun k => safeKey k = safeKey key) old call = old) :
    Holds codec m (calls ++ [call]) := by
  refine ⟨?_,h.named⟩
  intro key hkey
  rw [lastFor_concat,hleaves key hkey]
  exact h.content key hkey

theorem Holds.write (h : Holds codec m calls) (key : String) (value : T) :
    Holds codec (m.write codec key value).2 (calls ++ [.write key value]) := by
  cases hjson : codec.toStringPretty value with
  | error e =>
    have hsame : (m.write codec key value).2 = m := by
      unfold CheckpointManager.write
      rw [hjson]
    rw [hsame]
    refine h.of_unwritten ?_
    intro key' _ old
    simp [leaves,hjson,Except.isOk,Except.toBool]
  | ok json =>
    by_cases hdot : key = "."
    · subst hdot
      rw [write_dot]
      refine h.of_unwritten ?_
      intro key' hkey' old
      have hother : safeKey "." ≠ safeKey key' := fun heq => hkey' (safeKey_eq_dot_iff.mp (heq.symm.trans (by decide)))
      simp [leaves,hother]
    · have htmp : m.files.lookup (withExtension (pathFor key) "tmp") = none := by
        by_contra hne
        obtain ⟨key',-,hkey'⟩ := h.named _ hne
        exact withExtension_ne_pathFor key key' hkey'
      have hlookup := lookup_write hdot hjson htmp
      constructor
      · intro key' hkey'
        rw [hlookup,lastFor_concat,h.content key' hkey']
        by_cases hkey : safeKey key = safeKey key'
        · rw [if_pos (pathFor_inj.mpr hkey.symm)]
          simp [leaves,hkey,hjson,Except.isOk,Except.toBool,Except.toOption]
        · rw [if_neg (fun heq => hkey (pathFor_inj.mp heq).symm)]
          simp [leaves,hkey]
      · intro path hpath
        rw [hlookup] at hpath
        split at hpath
        · next heq => exact ⟨key,hdot,heq⟩
        · exact h.named path hpath

theorem Holds.delete (h : Holds codec m calls) (key : String) :
    Holds codec (m.delete key) (calls ++ [.delete key]) := by
  constructor
  · intro key' hkey'
    rw [lastFor_concat]
    by_cases hkey : safeKey key = safeKey key'
    · have hpath : pathFor key' = pathFor key := pathFor_inj.mpr hkey.symm
      unfold CheckpointManager.delete
      rw [hpath,AList.lookup_erase]
      simp [leaves,hkey]
    · have hpath : pathFor key' ≠ pathFor key := fun heq => hkey (pathFor_inj.mp heq).symm
      unfold CheckpointManager.delete
      rw [AList.lookup_erase_ne hpath,h.content key' hkey']
      simp [leaves,hkey]
  · intro path hpath
    refine h.named path ?_
    intro hnone
    apply hpath
    unfold CheckpointManager.delete
    by_cases hp : path = pathFor key
    · rw [hp,AList.lookup_erase]
    · rw [AList.lookup_erase_ne hp,hnone]

theorem Holds.step (h : Holds codec m calls) (call : CheckpointCall T) :
    Holds codec (step codec walk m call).2 (calls ++ [call]) := by
  cases call with
  | write key value => exact h.write key value
  | delete key => exact h.delete key
  | read key => exact h.of_unwritten fun _ _ _ => rfl
  | list => exact h.of_unwritten fun _ _ _ => rfl

theorem holds_called (calls : List (CheckpointCall T)) : Holds codec (called codec walk calls) calls := by
  induction calls using List.reverseRecOn with
  | nil => exact holds_empty
  | append_singleton calls call ih =>
    rw [called,after_concat]
    exact ih.step call

theorem isOk_of_lastFor {p : String → Prop} [DecidablePred p] (h : lastFor codec p calls = some value) :
    (codec.toStringPretty value).isOk = true ∧ ∃ key, p key ∧ Written codec calls key := by
  induction calls using List.reverseRecOn generalizing value with
  | nil => cases h
  | append_singleton calls call ih =>
    have hearlier : lastFor codec p calls = some value →
        (codec.toStringPretty value).isOk = true ∧ ∃ key, p key ∧ Written codec (calls ++ [call]) key := by
      intro hold
      obtain ⟨hok,key,hp,v,hmem,hv⟩ := ih hold
      exact ⟨hok,key,hp,v,List.mem_append_left _ hmem,hv⟩
    rw [lastFor_concat] at h
    cases call with
    | write key v =>
      simp only [leaves] at h
      split at h
      · next hwrite =>
        obtain rfl := Option.some.inj h
        exact ⟨hwrite.2,key,hwrite.1,v,by simp,hwrite.2⟩
      · exact hearlier h
    | delete key =>
      simp only [leaves] at h
      split at h
      · cases h
      · exact hearlier h
    | read key => exact hearlier h
    | list => exact hearlier h

theorem exists_json (h : (codec.toStringPretty value).isOk = true) : ∃ json, codec.toStringPretty value = .ok json := by
  cases hjson : codec.toStringPretty value with
  | error e =>
    rw [hjson] at h
    cases h
  | ok json => exact ⟨json,rfl⟩

/-- A read returns what was last written to a key of the same file. -/
theorem read_called (calls : List (CheckpointCall T)) {key : String} (hkey : key ≠ ".") :
    (called codec walk calls).read codec key = .ok (lastFor codec (fun k => safeKey k = safeKey key) calls) := by
  unfold CheckpointManager.read
  rw [(holds_called calls).content key hkey]
  cases hlast : lastFor codec (fun k => safeKey k = safeKey key) calls with
  | none => rfl
  | some value =>
    obtain ⟨json,hjson⟩ := exists_json (isOk_of_lastFor hlast).1
    simp [hjson,Except.toOption,codec.fromStr_toStringPretty value json hjson]

/-- There is never a file for the dot. -/
theorem read_called_dot (calls : List (CheckpointCall T)) : (called codec walk calls).read codec "." = .ok none := by
  have hnone : (called codec walk calls).files.lookup (pathFor ".") = none := by
    by_contra hne
    obtain ⟨key,hkey,hpath⟩ := (holds_called calls).named _ hne
    exact hkey (safeKey_eq_dot_iff.mp ((pathFor_inj.mp hpath).symm.trans (by decide)))
  unfold CheckpointManager.read
  rw [hnone]

theorem lookup_of_mem_order (calls : List (CheckpointCall T)) {path : String}
    (h : path ∈ walk.order (called codec walk calls).files.keys) :
    ∃ key, key ≠ "." ∧ path = pathFor key ∧ (called codec walk calls).files.lookup (pathFor key) ≠ none := by
  have hmem : path ∈ (called codec walk calls).files := AList.mem_keys.mpr ((walk.perm _).mem_iff.mp h)
  have hne : (called codec walk calls).files.lookup path ≠ none := fun hnone => AList.lookup_eq_none.mp hnone hmem
  obtain ⟨key,hkey,rfl⟩ := (holds_called calls).named path hne
  exact ⟨key,hkey,rfl,hne⟩

/-- A name is in the listing if it has a file that is listed and a key of that name is present. -/
theorem mem_list_called (calls : List (CheckpointCall T)) (key : String) :
    key ∈ (called codec walk calls).list walk ↔
      key ≠ "" ∧ key ≠ "." ∧ (lastFor codec (fun k => safeKey k = key) calls).isSome = true := by
  have hholds : Holds codec (called codec walk calls) calls := holds_called calls
  unfold CheckpointManager.list
  rw [List.mem_filterMap]
  constructor
  · rintro ⟨path,hpath,hkey⟩
    obtain ⟨k,hk,rfl,hne⟩ := lookup_of_mem_order calls hpath
    rw [listedKey_pathFor] at hkey
    split at hkey
    · cases hkey
    · next hempty =>
      obtain rfl := Option.some.inj hkey
      refine ⟨hempty,fun hdot => hk (safeKey_eq_dot_iff.mp hdot),?_⟩
      rw [hholds.content k hk] at hne
      cases hlast : lastFor codec (fun k' => safeKey k' = safeKey k) calls with
      | none =>
        rw [hlast] at hne
        exact absurd rfl hne
      | some value => rfl
  · rintro ⟨hempty,hdot,hsome⟩
    obtain ⟨value,hlast⟩ := Option.isSome_iff_exists.mp hsome
    obtain ⟨hok,k,rfl,-⟩ := isOk_of_lastFor hlast
    obtain ⟨json,hjson⟩ := exists_json hok
    refine ⟨pathFor k,?_,?_⟩
    · refine (walk.perm _).mem_iff.mpr (AList.mem_keys.mp (AList.lookup_isSome.mp ?_))
      rw [hholds.content k (fun h => hdot (safeKey_eq_dot_iff.mpr h)),hlast]
      simp [hjson,Except.toOption]
    · rw [listedKey_pathFor,if_neg hempty]

theorem nodup_list_called (calls : List (CheckpointCall T)) : ((called codec walk calls).list walk).Nodup := by
  have hnodup : (walk.order (called codec walk calls).files.keys).Nodup :=
    (walk.perm _).nodup_iff.mpr (called codec walk calls).files.keys_nodup
  unfold CheckpointManager.list
  refine List.pairwise_filterMap.mpr (hnodup.imp_of_mem ?_)
  intro path path' hpath hpath' hne key hkey key' hkey' heq
  obtain ⟨k,-,rfl,-⟩ := lookup_of_mem_order calls hpath
  obtain ⟨k',-,rfl,-⟩ := lookup_of_mem_order calls hpath'
  have hsafe {k : String} (h : listedKey (pathFor k) = some key) : safeKey k = key := by
    rw [listedKey_pathFor] at h
    split at h
    · cases h
    · exact Option.some.inj h
  exact hne (pathFor_inj.mpr ((hsafe hkey).trans (hsafe (heq ▸ hkey')).symm))

/-! ## When the manager is a map -/

theorem lastFor_congr {p q : String → Prop} [DecidablePred p] [DecidablePred q] (h : ∀ key, p key ↔ q key)
    (calls : List (CheckpointCall T)) : lastFor codec p calls = lastFor codec q calls := by
  have hleaves : ∀ old call, leaves codec p old call = leaves codec q old call := by
    intro old call
    cases call with
    | write key value => simp only [leaves,h]
    | delete key => simp only [leaves,h]
    | read key => rfl
    | list => rfl
  unfold lastFor
  exact congrArg (fun f => calls.foldl f none) (funext fun old => funext (hleaves old))

theorem lastFor_eq_none {p : String → Prop} [DecidablePred p] (h : ∀ key, Written codec calls key → ¬p key) :
    lastFor codec p calls = none := by
  by_contra hne
  obtain ⟨value,hvalue⟩ := Option.ne_none_iff_exists'.mp hne
  obtain ⟨-,key,hp,hkey⟩ := isOk_of_lastFor hvalue
  exact h key hkey hp

theorem PlainKey.safeKey_eq (h : PlainKey key) : safeKey key = key :=
  safeKey_eq_self fun c hc => ⟨(h.signs c hc).1,(h.signs c hc).2.1⟩

/-- While only plain keys are written, a file is that of the key of its name. -/
theorem lastFor_safeKey (h : ∀ key, Written codec calls key → PlainKey key) (name : String) :
    lastFor codec (fun k => safeKey k = name) calls = lastWrite codec calls name := by
  unfold lastWrite
  by_cases hsigns : ∀ c ∈ name.toList, c ≠ '/' ∧ c ≠ ':' ∧ c ≠ '_'
  · refine lastFor_congr (fun k => ?_) calls
    constructor
    · rintro rfl
      exact (eq_of_safeKey fun hc => (hsigns '_' hc).2.2 rfl).symm
    · rintro rfl
      exact safeKey_eq_self fun c hc => ⟨(hsigns c hc).1,(hsigns c hc).2.1⟩
  · have hnot : ∀ k, Written codec calls k → k ≠ name := by
      rintro k hk rfl
      exact hsigns (h k hk).signs
    rw [lastFor_eq_none fun k hk => by rw [(h k hk).safeKey_eq]; exact hnot k hk,lastFor_eq_none hnot]

theorem lastWrite_safeKey (h : ∀ key, Written codec calls key → PlainKey key) (key : String) :
    lastWrite codec calls (safeKey key) = lastWrite codec calls key := by
  by_cases hsafe : safeKey key = key
  · rw [hsafe]
  · have hunderscore : '_' ∈ (safeKey key).toList := by
      by_contra hnot
      exact hsafe (eq_of_safeKey hnot)
    unfold lastWrite
    rw [lastFor_eq_none,lastFor_eq_none]
    · rintro k hk rfl
      exact hsafe (h k hk).safeKey_eq
    · rintro k hk rfl
      exact ((h _ hk).signs '_' hunderscore).2.2 rfl

theorem isMap_of_plain (h : ∀ key, Written codec calls key → PlainKey key) :
    IsMap codec walk (called codec walk calls) (lastWrite codec calls) where
  reads := by
    intro key
    by_cases hdot : key = "."
    · subst hdot
      have hnone : lastWrite codec calls "." = none := lastFor_eq_none fun k hk => (h k hk).ne_dot
      rw [read_called_dot,hnone]
    · rw [read_called _ hdot,lastFor_safeKey h,lastWrite_safeKey h]
  once := nodup_list_called calls
  lists := by
    intro key
    rw [mem_list_called,lastFor_safeKey h,← and_assoc]
    refine and_iff_right_of_imp ?_
    intro hsome
    obtain ⟨value,hvalue⟩ := Option.isSome_iff_exists.mp hsome
    obtain ⟨-,key,rfl,hkey⟩ := isOk_of_lastFor hvalue
    exact ⟨(h _ hkey).ne_empty,(h _ hkey).ne_dot⟩

/-- A key with a sign in it has the file of another key, which is no plain key either. -/
theorem exists_same_file (h : ∃ c ∈ key.toList, c = '/' ∨ c = ':' ∨ c = '_') :
    ∃ other, other ≠ key ∧ safeKey other = safeKey key ∧ ¬PlainKey other := by
  by_cases hsafe : safeKey key = key
  · -- it has underscores only: another key has colons in their places
    let other := String.ofList (key.toList.map (fun c => if c = '_' then ':' else c))
    have hother : other.toList = key.toList.map (fun c => if c = '_' then ':' else c) := String.toList_ofList
    have hunderscore : '_' ∈ key.toList := by
      obtain ⟨c,hc,hsign⟩ := h
      rw [← hsafe] at hc
      have hnot := mem_safeKey hc
      rw [hsafe] at hc
      rcases hsign with rfl | rfl | rfl
      · exact absurd rfl hnot.1
      · exact absurd rfl hnot.2
      · exact hc
    have hcolon : ':' ∈ other.toList := by
      rw [hother]
      exact List.mem_map.mpr ⟨'_',hunderscore,if_pos rfl⟩
    refine ⟨other,?_,?_,fun hplain => (hplain.signs ':' hcolon).2.1 rfl⟩
    · intro heq
      rw [heq,← hsafe] at hcolon
      exact (mem_safeKey hcolon).2 rfl
    · apply String.toList_inj.mp
      rw [hsafe,toList_safeKey,hother,List.map_map]
      refine (List.map_congr_left fun c hc => ?_).trans (List.map_id _)
      rw [← hsafe] at hc
      by_cases hc' : c = '_'
      · simp [hc']
      · simp [hc',mem_safeKey hc]
  · -- otherwise its own name is another key
    refine ⟨safeKey key,hsafe,safeKey_safeKey key,fun hplain => hsafe ?_⟩
    exact eq_of_safeKey fun hc => (hplain.signs '_' hc).2.2 rfl

/-- The first key that is not plain is not listed, or is seen to be written under another one. -/
theorem plainKey_of_isMap (h : ∀ key, Written codec calls key → PlainKey key)
    (hok : (codec.toStringPretty value).isOk = true)
    (hmap : IsMap codec walk (called codec walk (calls ++ [.write key value]))
      (lastWrite codec (calls ++ [.write key value]))) : PlainKey key := by
  have hstored (p : String → Prop) [DecidablePred p] (hp : p key) :
      lastFor codec p (calls ++ [.write key value]) = some value := by
    rw [lastFor_concat]
    simp [leaves,hp,hok]
  have hlisted : key ≠ "" ∧ key ≠ "." ∧ _ :=
    (mem_list_called _ _).mp ((hmap.lists key).mpr (by rw [lastWrite,hstored (· = key) rfl]; rfl))
  refine ⟨hlisted.1,hlisted.2.1,?_⟩
  by_contra hbad
  have hsigns : ∃ c ∈ key.toList, c = '/' ∨ c = ':' ∨ c = '_' := by
    by_contra hnone
    push Not at hnone
    exact hbad hnone
  obtain ⟨other,hother,hfile,hnot⟩ := exists_same_file hsigns
  have habsent : lastWrite codec (calls ++ [.write key value]) other = none := by
    unfold lastWrite
    rw [lastFor_concat]
    simp only [leaves,Ne.symm hother,false_and,if_false]
    exact lastFor_eq_none fun k hk heq => hnot (heq ▸ h k hk)
  have hdot : other ≠ "." := by
    rintro rfl
    exact hlisted.2.1 (safeKey_eq_dot_iff.mp (hfile.symm.trans (by decide)))
  have hread := hmap.reads other
  rw [read_called _ hdot,hstored (fun k => safeKey k = safeKey other) hfile.symm,habsent] at hread
  cases hread

/-- At every point of a run the manager is a map of what was written exactly if only plain keys
are written. -/
theorem actsAsMap_iff (codec : JsonCodec T) (walk : DirWalk) (calls : List (CheckpointCall T)) :
    ActsAsMap codec walk calls ↔ ∀ key, Written codec calls key → PlainKey key := by
  constructor
  · intro h
    induction calls using List.reverseRecOn with
    | nil =>
      rintro key ⟨value,hmem,-⟩
      cases hmem
    | append_singleton calls call ih =>
      have hplain := ih fun earlier hpre => h earlier (hpre.trans (List.prefix_append _ _))
      rintro key ⟨value,hmem,hok⟩
      rcases List.mem_append.mp hmem with hmem | hmem
      · exact hplain key ⟨value,hmem,hok⟩
      · obtain rfl := List.mem_singleton.mp hmem
        exact plainKey_of_isMap hplain hok (h _ List.prefix_rfl)
  · intro h earlier hpre
    refine isMap_of_plain ?_
    rintro key ⟨value,hmem,hok⟩
    exact h key ⟨value,hpre.subset hmem,hok⟩

end Files

/-! ## Two keys in one file -/

/-- The two truth values as JSON has them. -/
def boolCodec : JsonCodec Bool where
  toStringPretty := fun value => .ok (if value then "true" else "false")
  fromStr := fun json =>
    if json = "true" then .ok true else if json = "false" then .ok false else .error "expected a boolean"
  fromStr_toStringPretty := by
    intro value json h
    obtain rfl := Except.ok.inj h
    cases value with
    | true => rfl
    | false => rfl

theorem perm_names (names : List String) : (id names).Perm names := .refl _

def asStored : DirWalk := ⟨id,perm_names⟩

def twoWrites : List (CheckpointCall Bool) := [.write "default/web" true,.write "default_web" false]

theorem slash_read_as_underscore :
    (called boolCodec asStored twoWrites).read boolCodec "default/web" = .ok (some false) ∧
      (called boolCodec asStored twoWrites).list asStored = ["default_web"] ∧
      ¬ActsAsMap boolCodec asStored twoWrites := by
  have hread : (called boolCodec asStored twoWrites).read boolCodec "default/web" = .ok (some false) := by
    rw [read_called _ (by decide)]
    rfl
  refine ⟨hread,?_,?_⟩
  · decide
  · intro h
    have hmap := (h twoWrites List.prefix_rfl).reads "default/web"
    have hlast : lastWrite boolCodec twoWrites "default/web" = some true := by decide
    rw [hread,hlast] at hmap
    cases hmap

end KubeAir.Adapters.Checkpoint
