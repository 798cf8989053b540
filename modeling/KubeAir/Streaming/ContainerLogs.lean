import KubeAir.Adapters.LogEntry
import KubeAir.Core.Lifecycle
import Mathlib.Algebra.BigOperators.Group.List.Basic
import Mathlib.Data.List.Sort

/-! # Container logs

The body of a log request: the entries of all numbered files, cut at the start of the current
instance of the container, narrowed by what the query asks for, and put together.
-/
namespace KubeAir.Streaming
open Adapters Core HeaderBlock Wire

/-- File names with what can be read of the files. -/
abbrev LogDir := List (String × Option (List UInt8))

structure LogQuery where
  tailLines : Option ℤ := none
  previous : Option Bool := none
  sinceSeconds : Option ℤ := none
  sinceTime : Option String := none
  timestamps : Option Bool := none
  limitBytes : Option ℤ := none

/-- What a request finds: the pod and its status, the clock, and the log directory, which each
attempt reads anew. -/
structure LogSource where
  json : JsonReader
  parseFromRfc3339 : String → Option DateTime
  ns : String := ""
  podName : String := ""
  effectiveContainer : String := ""
  status : Option PodLifecycleState := none
  now : DateTime := 0
  dirs : ℕ → LogDir

inductive LogFailure
  /-- the container waits and has no log -/
  | notStarted (message : String)
  /-- the limit cuts a character in two -/
  | notCharBoundary
  /-- no time lies that many seconds back -/
  | outOfRange
deriving DecidableEq, Repr

namespace ContainerLogs

def numbered (file : String × Option (List UInt8)) : Option (ℕ × Option (List UInt8)) :=
  ((stripSuffix file.1 ".log").bind (parseUnsigned 32)).map (fun idx => (idx,file.2))

def allLogFiles (dir : LogDir) : List (ℕ × Option (List UInt8)) :=
  (dir.filterMap numbered).insertionSort (fun a b => a.1 ≤ b.1)

def readFile (json : JsonReader) (bytes : Option (List UInt8)) : List LogEntry :=
  match bytes with
  | none => []
  | some bytes => (readLines bytes).filterMap (LogEntry.parseLine json)

def readEntries (json : JsonReader) (dir : LogDir) : List LogEntry := (allLogFiles dir).flatMap (fun file => readFile json file.2)

/-- When the current instance started, and why the container waits. -/
def containerView (status : Option PodLifecycleState) (name : String) : Option DateTime × Option String :=
  match status.bind (fun s =>
    (s.containerStatuses ++ s.initContainerStatuses ++ s.ephemeralContainerStatuses).find? (fun cs => cs.name = name)) with
  | none => (none,none)
  | some cs =>
    match cs.state with
    | .running startedAt => (some startedAt,none)
    | .terminated _ _ _ startedAt _ => (some startedAt,none)
    | .waiting reason none => (none,some reason)
    | .waiting reason (some message) => (none,some (reason ++ ": " ++ message))

/-- `chrono::Duration::seconds(2)`. -/
def tolerance : DateTime := 2 * 10 ^ 9

/-- A time that cannot be read is never too early or too late. -/
def keeps (parseTime : String → Option DateTime) (wantPrevious : Bool) (start : DateTime) (e : LogEntry) : Bool :=
  match parseTime e.time with
  | none => true
  | some ts => if wantPrevious then decide (ts < start) else decide (start - tolerance ≤ ts)

def slice (parseTime : String → Option DateTime) (wantPrevious : Bool) (startedAt : Option DateTime) (entries : List LogEntry) :
    List LogEntry :=
  match startedAt with
  | none => entries
  | some start => entries.filter (keeps parseTime wantPrevious start)

/-- The attempts that are left, and the number of the next one. -/
def gather (src : LogSource) (wantPrevious : Bool) : ℕ → ℕ → Except LogFailure (List LogEntry)
  | 0, _ => .ok []
  | n + 1, attempt =>
    let view := containerView src.status src.effectiveContainer
    let files := allLogFiles (src.dirs attempt)
    let entries := slice src.parseFromRfc3339 wantPrevious view.1 (readEntries src.json (src.dirs attempt))
    if entries ≠ [] then .ok entries
    else
      match view.2 with
      | some reason =>
        if files = [] ∧ attempt = 0 then
          .error (.notStarted ("container '" ++ src.effectiveContainer ++ "' in pod '" ++ src.ns ++ "/" ++ src.podName ++
            "' is waiting: " ++ reason))
        else gather src wantPrevious n (attempt + 1)
      | none => gather src wantPrevious n (attempt + 1)

/-- The longest duration in seconds, and the first time there is. -/
def maxSeconds : ℤ := 9223372036854775

def minUtc : DateTime := -8334601228800 * 10 ^ 9

/-- `Utc::now() - ChronoDuration::seconds(secs)`, which panics where there is no such time. -/
def secondsAgo (now : DateTime) (secs : ℤ) : Except LogFailure DateTime :=
  if secs ≤ maxSeconds ∧ minUtc ≤ now - secs * 10 ^ 9 then .ok (now - secs * 10 ^ 9) else .error .outOfRange

def sinceCutoff (src : LogSource) (query : LogQuery) : Except LogFailure (Option DateTime) :=
  match query.sinceTime with
  | some raw => .ok (src.parseFromRfc3339 raw)
  | none =>
    match query.sinceSeconds with
    | none => .ok none
    | some secs => (secondsAgo src.now (max secs 0)).map some

def sinceFilter (parseTime : String → Option DateTime) (cutoff : Option DateTime) (entries : List LogEntry) : List LogEntry :=
  match cutoff with
  | none => entries
  | some cutoff => entries.filter (fun e => match parseTime e.time with
    | none => true
    | some ts => decide (cutoff ≤ ts))

def tail (tailLines : Option ℤ) (entries : List LogEntry) : List LogEntry :=
  match tailLines with
  | none => entries
  | some n => if 0 ≤ n then entries.drop (entries.length - n.toNat) else entries

def bodyOf (withTimestamps : Bool) (entries : List LogEntry) : String :=
  String.join (entries.map (fun e => if withTimestamps then e.time ++ " " ++ e.log else e.log))

/-- `body[start..]`. -/
def limit (limitBytes : Option ℤ) (body : String) : Except LogFailure String :=
  match limitBytes with
  | none => .ok body
  | some n =>
    if n.toNat < (asBytes body).length then
      match fromUtf8 ((asBytes body).drop ((asBytes body).length - n.toNat)) with
      | some s => .ok s
      | none => .error .notCharBoundary
    else .ok body

/-- What is left of the entries, and their text. -/
def sliceBody (src : LogSource) (query : LogQuery) (entries : List LogEntry) : Except LogFailure String :=
  match sinceCutoff src query with
  | .error e => .error e
  | .ok cutoff => limit query.limitBytes (bodyOf (query.timestamps.getD false)
      (tail query.tailLines (sinceFilter src.parseFromRfc3339 cutoff entries)))

def maxAttempts : ℕ := 15

def collectLogsBody (src : LogSource) (query : LogQuery) : Except LogFailure String :=
  match gather src (query.previous.getD false) maxAttempts 0 with
  | .error e => .error e
  | .ok entries => sliceBody src query entries

/-! ## The log of the current instance and that of the ones before -/

section Slice
variable (parseTime : String → Option DateTime) (start : DateTime)

/-- The entries that both requests show. -/
def Shared (e : LogEntry) : Prop := ∀ ts ∈ parseTime e.time, start - tolerance ≤ ts ∧ ts < start

instance (e : LogEntry) : Decidable (Shared parseTime start e) := by
  unfold Shared
  infer_instance

variable {parseTime start} {e : LogEntry}

theorem keeps_or_keeps : keeps parseTime true start e = true ∨ keeps parseTime false start e = true := by
  unfold keeps
  cases parseTime e.time with
  | none => exact .inl rfl
  | some ts =>
    dsimp only
    rw [if_pos rfl,if_neg Bool.false_ne_true,decide_eq_true_eq,decide_eq_true_eq]
    rcases Int.lt_or_le ts start with hlt | hge
    · exact .inl hlt
    · exact .inr (Int.le_trans (Int.sub_le_self start (by decide)) hge)

theorem keeps_and_keeps : keeps parseTime true start e = true ∧ keeps parseTime false start e = true ↔ Shared parseTime start e := by
  unfold keeps Shared
  cases parseTime e.time with
  | none =>
    refine ⟨fun _ ts h => ?_,fun _ => ⟨rfl,rfl⟩⟩
    cases h
  | some ts =>
    dsimp only
    rw [if_pos rfl,if_neg Bool.false_ne_true,decide_eq_true_eq,decide_eq_true_eq]
    constructor
    · rintro ⟨hlt,hle⟩ ts' ⟨⟩
      exact ⟨hle,hlt⟩
    · intro h
      exact (h ts rfl).symm

/-- Two filters that together keep everything. -/
theorem filter_append_filter_perm {α : Type} {p q : α → Bool} {l : List α} (h : ∀ a ∈ l, p a = true ∨ q a = true) :
    (l.filter p ++ l.filter q).Perm (l ++ l.filter (fun a => p a && q a)) := by
  induction l with
  | nil => exact .refl _
  | cons a l ih =>
    obtain ⟨ha,hl⟩ := List.forall_mem_cons.mp h
    have hperm := ih hl
    cases hp : p a with
    | true =>
      cases hq : q a with
      | true =>
        rw [List.filter_cons_of_pos hp,List.filter_cons_of_pos hq,List.filter_cons_of_pos (by rw [hp,hq]; rfl)]
        exact .cons a (List.perm_middle.trans ((hperm.cons a).trans List.perm_middle.symm))
      | false =>
        rw [List.filter_cons_of_pos hp,List.filter_cons_of_neg (by rw [hq]; exact Bool.false_ne_true),
          List.filter_cons_of_neg (by rw [hp,hq]; exact Bool.false_ne_true)]
        exact hperm.cons a
    | false =>
      have hq := ha.resolve_left (by rw [hp]; exact Bool.false_ne_true)
      rw [List.filter_cons_of_neg (by rw [hp]; exact Bool.false_ne_true),List.filter_cons_of_pos hq,
        List.filter_cons_of_neg (by rw [hp]; exact Bool.false_ne_true)]
      exact List.perm_middle.trans (hperm.cons a)

/-- Both requests keep the order of the entries, and together they show every entry once, apart from
those without a readable time or from the two seconds before the start, which both of them show. -/
theorem slices_perm (parseTime : String → Option DateTime) (start : DateTime) (entries : List LogEntry) :
    (slice parseTime true (some start) entries).Sublist entries ∧ (slice parseTime false (some start) entries).Sublist entries ∧
      (slice parseTime true (some start) entries ++ slice parseTime false (some start) entries).Perm
        (entries ++ entries.filter (Shared parseTime start)) := by
  refine ⟨List.filter_sublist,List.filter_sublist,?_⟩
  have hshared : entries.filter (Shared parseTime start) =
      entries.filter (fun e => keeps parseTime true start e && keeps parseTime false start e) := by
    refine List.filter_congr fun e _ => ?_
    rw [Bool.eq_iff_iff,decide_eq_true_eq,Bool.and_eq_true]
    exact keeps_and_keeps.symm
  rw [hshared]
  exact filter_append_filter_perm fun _ _ => keeps_or_keeps

end Slice

/-- The time of one entry, and no other. -/
def nineSeconds (s : String) : Option DateTime := if s = "2026-01-01T00:00:09Z" then some (1767225609 * 10 ^ 9) else none

/-- What an instance says a second before the next one starts. -/
def farewell : LogEntry := ⟨"bye\n","stdout","2026-01-01T00:00:09Z"⟩

theorem slices_overlap : ¬List.Disjoint (slice nineSeconds true (some (1767225610 * 10 ^ 9)) [farewell])
    (slice nineSeconds false (some (1767225610 * 10 ^ 9)) [farewell]) := by
  intro hdisjoint
  exact hdisjoint (a := farewell) (by decide) (by decide)

/-! ## The log of a container -/

/-- A content as text: the text itself, or some text with a replacement character. -/
def LocalText (content : List UInt8) (t : List Char) : Prop :=
  '\n' ∉ t ∧
    match fromUtf8 content with
    | some s => t = s.toList
    | none => Char.ofNat 0xfffd ∈ t

def endOf (r : CriRecord) : List Char := if r.full then ['\n'] else []

/-- A body that says what the container wrote, up to what is no text in it. -/
inductive Shows : List CriRecord → List Char → Prop
  | nil : Shows [] []
  | cons {r : CriRecord} {records : List CriRecord} {t body : List Char} : LocalText r.content t → Shows records body →
      Shows (r :: records) (t ++ endOf r ++ body)

/-- The numbered files of a directory hold the records, in the order of the numbers. -/
def Holds (dir : LogDir) (records : List CriRecord) : Prop :=
  ∃ files : List (ℕ × List CriRecord), files ≠ [] ∧
    (dir.filterMap numbered).Perm (files.map (fun f => (f.1,some (f.2.flatMap (fun r => r.line ++ [10]))))) ∧
    files.Pairwise (fun f g => f.1 < g.1) ∧ files.flatMap (fun f => f.2) = records

/-- No record is from before the current instance, as far as the cut is concerned. -/
def OfInstance (src : LogSource) (records : List CriRecord) : Prop :=
  ∀ start ∈ (containerView src.status src.effectiveContainer).1, ∀ r ∈ records, ∀ ts ∈ src.parseFromRfc3339 r.time,
    start - tolerance ≤ ts

/-- A record that ends a line, and whose content is text that ends in no carriage return. -/
def Faithful (r : CriRecord) : Prop :=
  r.full = true ∧ ∃ s, fromUtf8 r.content = some s ∧ s.toList.getLast? ≠ some '\r'

section Reading
variable {src : LogSource} {dir : LogDir} {records : List CriRecord}

theorem allLogFiles_eq {files : List (ℕ × Option (List UInt8))} (hperm : (dir.filterMap numbered).Perm files)
    (hsorted : files.Pairwise (fun f g => f.1 < g.1)) : allLogFiles dir = files := by
  unfold allLogFiles
  have hinsert := List.perm_insertionSort (fun a b : ℕ × Option (List UInt8) => a.1 ≤ b.1) (dir.filterMap numbered)
  have hle := List.pairwise_insertionSort (fun a b : ℕ × Option (List UInt8) => a.1 ≤ b.1) (dir.filterMap numbered)
  refine List.Perm.eq_of_pairwise ?_ hle (hsorted.imp fun h => Nat.le_of_lt h) (hinsert.trans hperm)
  intro a b ha hb hab hba
  have hnodup : (files.map Prod.fst).Nodup := List.pairwise_map.mpr (hsorted.imp Nat.ne_of_lt)
  exact List.inj_on_of_nodup_map hnodup ((hinsert.trans hperm).mem_iff.mp ha) hb (Nat.le_antisymm hab hba)

/-- The entries of a directory are those of its files up to the first record in each that is no text. -/
theorem readEntries_of_holds (json : JsonReader) (h : Holds dir records) : allLogFiles dir ≠ [] ∧
    ∃ files : List (List CriRecord), files.flatten = records ∧ readEntries json dir = files.flatMap (mapWhile CriRecord.read) := by
  obtain ⟨files,hne,hperm,hsorted,hrecords⟩ := h
  have hfiles := allLogFiles_eq hperm (List.pairwise_map.mpr hsorted)
  constructor
  · rw [hfiles]
    exact fun hnil => hne (List.map_eq_nil_iff.mp hnil)
  · refine ⟨files.map (fun f => f.2),?_,?_⟩
    · rw [← List.flatMap_def]
      exact hrecords
    · unfold readEntries
      rw [hfiles,List.flatMap_map,List.flatMap_map]
      exact List.flatMap_congr fun f _ => readLines_records json f.2

theorem slice_eq_self (hkept : OfInstance src records) {entries : List LogEntry}
    (h : ∀ e ∈ entries, ∃ r ∈ records, e.time = r.time) :
    slice src.parseFromRfc3339 false (containerView src.status src.effectiveContainer).1 entries = entries := by
  unfold slice
  cases hstart : (containerView src.status src.effectiveContainer).1 with
  | none => rfl
  | some start =>
    refine List.filter_eq_self.mpr ?_
    intro e he
    obtain ⟨r,hr,htime⟩ := h e he
    unfold keeps
    cases hts : src.parseFromRfc3339 e.time with
    | none => rfl
    | some ts =>
      dsimp only
      rw [if_neg Bool.false_ne_true,decide_eq_true_eq]
      exact hkept start hstart r hr ts (htime ▸ hts)

theorem mem_mapWhile_read {e : LogEntry} (h : e ∈ mapWhile CriRecord.read records) : ∃ r ∈ records, e.time = r.time := by
  obtain ⟨r,hr,hread⟩ := mem_mapWhile h
  obtain ⟨s,-,rfl⟩ := Option.map_eq_some_iff.mp hread
  exact ⟨r,hr,rfl⟩

theorem gather_succ (hdirs : ∀ attempt, Holds (src.dirs attempt) records) (hkept : OfInstance src records) (n attempt : ℕ) :
    ∃ files : List (List CriRecord), files.flatten = records ∧ gather src false (n + 1) attempt =
      if files.flatMap (mapWhile CriRecord.read) ≠ [] then .ok (files.flatMap (mapWhile CriRecord.read))
      else gather src false n (attempt + 1) := by
  obtain ⟨hne,files,hrecords,hentries⟩ := readEntries_of_holds src.json (hdirs attempt)
  refine ⟨files,hrecords,?_⟩
  have hslice : slice src.parseFromRfc3339 false (containerView src.status src.effectiveContainer).1
      (files.flatMap (mapWhile CriRecord.read)) = files.flatMap (mapWhile CriRecord.read) := by
    refine slice_eq_self hkept ?_
    intro e he
    obtain ⟨file,hfile,he⟩ := List.mem_flatMap.mp he
    obtain ⟨r,hr,htime⟩ := mem_mapWhile_read he
    exact ⟨r,hrecords ▸ List.mem_flatten_of_mem hfile hr,htime⟩
  rw [gather,hentries,hslice]
  split
  · rfl
  · cases (containerView src.status src.effectiveContainer).2 with
    | none => rfl
    | some reason =>
      dsimp only
      rw [if_neg fun h => hne h.1]

/-- A request for the current log gives what one of its attempts has read. -/
theorem gather_eq (hdirs : ∀ attempt, Holds (src.dirs attempt) records) (hkept : OfInstance src records) (n attempt : ℕ) :
    ∃ files : List (List CriRecord), files.flatten = records ∧
      gather src false (n + 1) attempt = .ok (files.flatMap (mapWhile CriRecord.read)) := by
  induction n generalizing attempt with
  | zero =>
    obtain ⟨files,hrecords,hgather⟩ := gather_succ hdirs hkept 0 attempt
    refine ⟨files,hrecords,?_⟩
    rw [hgather]
    split
    · rfl
    · next h =>
      rw [not_not.mp h]
      rfl
  | succ n ih =>
    obtain ⟨files,hrecords,hgather⟩ := gather_succ hdirs hkept (n + 1) attempt
    rw [hgather]
    split
    · exact ⟨files,hrecords,rfl⟩
    · exact ih (attempt + 1)

/-- The body of a request that asks for nothing in particular. -/
theorem collectLogsBody_eq (hdirs : ∀ attempt, Holds (src.dirs attempt) records) (hkept : OfInstance src records) :
    ∃ files : List (List CriRecord), files.flatten = records ∧ ∃ body, collectLogsBody src {} = .ok body ∧
      body.toList = (files.flatMap (mapWhile CriRecord.read)).flatMap (fun e => e.log.toList) := by
  obtain ⟨files,hrecords,hgather⟩ := gather_eq hdirs hkept 14 0
  refine ⟨files,hrecords,String.join ((files.flatMap (mapWhile CriRecord.read)).map (fun e => e.log)),?_,?_⟩
  · have hfirst : gather src (({} : LogQuery).previous.getD false) maxAttempts 0 = .ok (files.flatMap (mapWhile CriRecord.read)) :=
      hgather
    unfold collectLogsBody
    rw [hfirst]
    rfl
  · rw [String.toList_join,List.flatMap_map]

end Reading

/-! ## Counting what a body has -/

section Counting
variable {r : CriRecord} {records : List CriRecord} {body : List Char}

def replacement : Char := Char.ofNat 0xfffd

/-- The replacement characters that a record shows at least. -/
def weight (r : CriRecord) : ℕ :=
  match fromUtf8 r.content with
  | some s => s.toList.count replacement
  | none => 1

def undecodable (r : CriRecord) : Bool := (fromUtf8 r.content).isNone

theorem weight_le {t : List Char} (h : LocalText r.content t) : weight r ≤ t.count replacement := by
  unfold weight
  have htext := h.2
  cases hcontent : fromUtf8 r.content with
  | some s =>
    rw [hcontent] at htext
    exact le_of_eq (by rw [htext])
  | none =>
    rw [hcontent] at htext
    exact List.count_pos_iff.mpr htext

theorem Shows.weights_le (h : Shows records body) : (records.map weight).sum ≤ body.count replacement := by
  induction h with
  | nil => exact le_rfl
  | cons hlocal _ ih =>
    rw [List.map_cons,List.sum_cons,List.count_append,List.count_append]
    have hweight := weight_le hlocal
    omega

theorem countP_undecodable_le (records : List CriRecord) : records.countP undecodable ≤ (records.map weight).sum := by
  induction records with
  | nil => exact le_rfl
  | cons r records ih =>
    rw [List.map_cons,List.sum_cons,List.countP_cons]
    have hweight : (if undecodable r = true then 1 else 0) ≤ weight r := by
      unfold undecodable weight
      cases fromUtf8 r.content with
      | some s => exact Nat.zero_le _
      | none => exact le_rfl
    omega

theorem count_chop (s : List Char) : (CriRecord.chop s ++ ['\n']).count replacement ≤ s.count replacement := by
  rw [List.count_append]
  have hnewline : ['\n'].count replacement = 0 := by decide
  rw [hnewline,Nat.add_zero]
  unfold CriRecord.chop
  split
  · exact (List.dropLast_sublist s).count_le _
  · exact le_rfl

/-- Replacement characters are never added, and what cannot be decoded has none. -/
theorem count_read_le (records : List CriRecord) :
    ((mapWhile CriRecord.read records).flatMap (fun e => e.log.toList)).count replacement + records.countP undecodable ≤
      (records.map weight).sum := by
  induction records with
  | nil => exact le_rfl
  | cons r records ih =>
    cases hcontent : fromUtf8 r.content with
    | none =>
      have hread : CriRecord.read r = none := by
        unfold CriRecord.read
        rw [hcontent,Option.map_none]
      rw [mapWhile_cons_of_none hread,List.flatMap_nil,List.count_nil,Nat.zero_add]
      exact countP_undecodable_le _
    | some s =>
      have hread : CriRecord.read r = some (r.entry s) := by
        unfold CriRecord.read
        rw [hcontent,Option.map_some]
      have hlog : (r.entry s).log.toList = CriRecord.chop s.toList ++ ['\n'] := String.toList_ofList
      have hweight : weight r = s.toList.count replacement := by
        unfold weight
        rw [hcontent]
      have hdecodable : undecodable r = false := by
        unfold undecodable
        rw [hcontent]
        rfl
      have hcount := count_chop s.toList
      rw [mapWhile_cons_of_some hread,List.flatMap_cons,List.count_append,List.map_cons,List.sum_cons,List.countP_cons,hlog,
        hweight,hdecodable,if_neg Bool.false_ne_true]
      omega

theorem count_readFiles_le (files : List (List CriRecord)) :
    ((files.flatMap (mapWhile CriRecord.read)).flatMap (fun e => e.log.toList)).count replacement +
      files.flatten.countP undecodable ≤ (files.flatten.map weight).sum := by
  induction files with
  | nil => exact le_rfl
  | cons file files ih =>
    have hfile := count_read_le file
    rw [List.flatMap_cons,List.flatMap_append,List.count_append,List.flatten_cons,List.countP_append,List.map_append,List.sum_append]
    omega

/-! ## Bodies of decodable records -/

def textOf (r : CriRecord) : List Char := ((fromUtf8 r.content).getD "").toList

theorem newline_not_mem_textOf (r : CriRecord) : '\n' ∉ textOf r := by
  unfold textOf
  cases hcontent : fromUtf8 r.content with
  | none => exact List.not_mem_nil
  | some s => exact newline_not_mem_content hcontent

theorem localText_iff (h : undecodable r = false) {t : List Char} : LocalText r.content t ↔ t = textOf r := by
  unfold undecodable at h
  unfold LocalText
  cases hcontent : fromUtf8 r.content with
  | none =>
    rw [hcontent] at h
    cases h
  | some s =>
    have htext : textOf r = s.toList := by
      unfold textOf
      rw [hcontent]
      rfl
    rw [htext]
    constructor
    · exact fun hlocal => hlocal.2
    · rintro rfl
      exact ⟨newline_not_mem_content hcontent,rfl⟩

theorem shows_iff (h : ∀ r ∈ records, undecodable r = false) :
    Shows records body ↔ body = records.flatMap (fun r => textOf r ++ endOf r) := by
  induction records generalizing body with
  | nil =>
    constructor
    · rintro ⟨⟩
      rfl
    · rintro rfl
      exact .nil
  | cons r records ih =>
    obtain ⟨hr,hrecords⟩ := List.forall_mem_cons.mp h
    rw [List.flatMap_cons]
    constructor
    · rintro (_ | ⟨hlocal,hrest⟩)
      rw [(localText_iff hr).mp hlocal,(ih hrecords).mp hrest]
    · rintro rfl
      exact .cons ((localText_iff hr).mpr rfl) ((ih hrecords).mpr rfl)

theorem readFiles_eq {files : List (List CriRecord)} (h : ∀ r ∈ files.flatten, undecodable r = false) :
    (files.flatMap (mapWhile CriRecord.read)).flatMap (fun e => e.log.toList) =
      files.flatten.flatMap (fun r => CriRecord.chop (textOf r) ++ ['\n']) := by
  have hread : ∀ file ∈ files, mapWhile CriRecord.read file = file.map (fun r => r.entry ((fromUtf8 r.content).getD "")) := by
    intro file hfile
    refine mapWhile_of_forall ?_
    intro r hr
    have hdecodable := h r (List.mem_flatten_of_mem hfile hr)
    unfold undecodable at hdecodable
    unfold CriRecord.read
    cases hcontent : fromUtf8 r.content with
    | none =>
      rw [hcontent] at hdecodable
      cases hdecodable
    | some s => rfl
  have hentries : files.flatMap (List.map fun r => r.entry ((fromUtf8 r.content).getD "")) =
      files.flatten.map (fun r => r.entry ((fromUtf8 r.content).getD "")) := by
    rw [List.flatMap_def,List.map_flatten]
  rw [List.flatMap_congr hread,hentries,List.flatMap_map]
  refine List.flatMap_congr fun r _ => ?_
  exact String.toList_ofList

/-- Lines put together, told apart again. -/
theorem eq_of_flatMap_eq {α : Type} {f g : α → List Char} {l : List α} (hle : ∀ a ∈ l, (f a).length ≤ (g a).length)
    (h : (l.flatMap f).length = (l.flatMap g).length) : ∀ a ∈ l, (f a).length = (g a).length := by
  induction l with
  | nil => exact fun a ha => absurd ha List.not_mem_nil
  | cons a l ih =>
    obtain ⟨ha,hl⟩ := List.forall_mem_cons.mp hle
    rw [List.flatMap_cons,List.flatMap_cons,List.length_append,List.length_append] at h
    have hrest : (l.flatMap f).length ≤ (l.flatMap g).length := by
      rw [List.length_flatMap,List.length_flatMap]
      exact List.sum_le_sum hl
    exact List.forall_mem_cons.mpr ⟨by omega,ih hl (by omega)⟩

theorem count_flatMap_newline {f : CriRecord → List Char} (h : ∀ r, '\n' ∉ f r) (records : List CriRecord) :
    (records.flatMap (fun r => f r ++ ['\n'])).count '\n' = records.length := by
  induction records with
  | nil => rfl
  | cons r records ih =>
    rw [List.flatMap_cons,List.count_append,List.count_append,List.count_eq_zero.mpr (h r),ih,List.length_cons,
      List.count_singleton_self]
    omega

theorem count_flatMap_endOf (records : List CriRecord) :
    (records.flatMap (fun r => textOf r ++ endOf r)).count '\n' = records.countP (fun r => r.full) := by
  induction records with
  | nil => rfl
  | cons r records ih =>
    rw [List.flatMap_cons,List.count_append,List.count_append,List.count_eq_zero.mpr (newline_not_mem_textOf r),ih,List.countP_cons]
    unfold endOf
    split <;> simp only [List.count_singleton_self,List.count_nil] <;> omega

theorem length_chop_le (s : List Char) : (CriRecord.chop s).length ≤ s.length := by
  unfold CriRecord.chop
  split
  · exact (List.dropLast_sublist s).length_le
  · exact le_rfl

theorem getLast_ne_of_length_chop {s : List Char} (h : (CriRecord.chop s).length = s.length) : s.getLast? ≠ some '\r' := by
  intro hlast
  unfold CriRecord.chop at h
  rw [if_pos hlast,List.length_dropLast] at h
  have hpos := List.length_pos_of_mem (List.mem_of_getLast? hlast)
  omega

/-- Reading adds a newline behind every record and drops carriage returns, so only faithful
records come out as they went in. -/
theorem faithful_of_eq (h : ∀ r ∈ records, undecodable r = false)
    (heq : records.flatMap (fun r => CriRecord.chop (textOf r) ++ ['\n']) = records.flatMap (fun r => textOf r ++ endOf r)) :
    ∀ r ∈ records, Faithful r := by
  have hcount := congrArg (List.count '\n') heq
  rw [count_flatMap_newline fun r => newline_not_mem_chop (newline_not_mem_textOf r),count_flatMap_endOf] at hcount
  have hfull : ∀ r ∈ records, r.full = true := List.countP_eq_length.mp hcount.symm
  have hlengths := eq_of_flatMap_eq (f := fun r => CriRecord.chop (textOf r) ++ ['\n']) (g := fun r => textOf r ++ endOf r) (by
    intro r hr
    have hchop := length_chop_le (textOf r)
    unfold endOf
    rw [if_pos (hfull r hr),List.length_append,List.length_append]
    omega) (congrArg List.length heq)
  intro r hr
  have hlength := hlengths r hr
  unfold endOf at hlength
  rw [if_pos (hfull r hr),List.length_append,List.length_append] at hlength
  have hlast := getLast_ne_of_length_chop (s := textOf r) (by omega)
  have hdecodable := h r hr
  unfold undecodable at hdecodable
  unfold textOf at hlast
  cases hcontent : fromUtf8 r.content with
  | none =>
    rw [hcontent] at hdecodable
    cases hdecodable
  | some s =>
    rw [hcontent] at hlast
    exact ⟨hfull r hr,s,hcontent,hlast⟩

theorem Faithful.decodable (h : Faithful r) : undecodable r = false := by
  obtain ⟨-,s,hcontent,-⟩ := h
  unfold undecodable
  rw [hcontent]
  rfl

theorem Faithful.chop_eq (h : Faithful r) : CriRecord.chop (textOf r) ++ ['\n'] = textOf r ++ endOf r := by
  obtain ⟨hfull,s,hcontent,hlast⟩ := h
  have htext : textOf r = s.toList := by
    unfold textOf
    rw [hcontent]
    rfl
  unfold CriRecord.chop endOf
  rw [htext,if_neg hlast,if_pos hfull]

end Counting

section Bodies
variable {src : LogSource} {records : List CriRecord}

theorem faithful_of_shows (hdirs : ∀ attempt, Holds (src.dirs attempt) records) (hkept : OfInstance src records)
    (h : ∃ body, collectLogsBody src {} = .ok body ∧ Shows records body.toList) : ∀ r ∈ records, Faithful r := by
  obtain ⟨files,rfl,body,hbody,htext⟩ := collectLogsBody_eq hdirs hkept
  obtain ⟨body',hbody',hshows⟩ := h
  obtain rfl := Except.ok.inj (hbody.symm.trans hbody')
  have hweights := hshows.weights_le
  have hread := count_readFiles_le files
  rw [htext] at hweights
  have hnone : files.flatten.countP undecodable = 0 := by omega
  have hdecodable : ∀ r ∈ files.flatten, undecodable r = false := fun r hr =>
    Bool.eq_false_iff.mpr (List.countP_eq_zero.mp hnone r hr)
  rw [htext,readFiles_eq hdecodable,shows_iff hdecodable] at hshows
  exact faithful_of_eq hdecodable hshows

/-- The body of a request is what the container wrote just when every record ends a line and is
text that ends in no carriage return. -/
theorem collectLogsBody_shows_iff (hdirs : ∀ attempt, Holds (src.dirs attempt) records) (hkept : OfInstance src records) :
    (∃ body, collectLogsBody src {} = .ok body ∧ Shows records body.toList) ↔ ∀ r ∈ records, Faithful r := by
  constructor
  · exact faithful_of_shows hdirs hkept
  · intro hfaithful
    obtain ⟨files,rfl,body,hbody,htext⟩ := collectLogsBody_eq hdirs hkept
    have hdecodable : ∀ r ∈ files.flatten, undecodable r = false := fun r hr => (hfaithful r hr).decodable
    refine ⟨body,hbody,?_⟩
    rw [htext,readFiles_eq hdecodable,shows_iff hdecodable]
    exact List.flatMap_congr fun r hr => (hfaithful r hr).chop_eq

end Bodies

/-- A line that the runtime has written in two records. -/
def splitRecord (full : Bool) (c : UInt8) (h : 10 ∉ [c]) : CriRecord where
  time := "2026-01-01T00:00:09Z"
  stream := .stdout
  full := full
  content := [c]
  time_digit := ⟨'2',rfl,rfl⟩
  time_plain := by
    have hplain : "2026-01-01T00:00:09Z".toList.all (fun c => c ≠ ' ' && c ≠ '\n') = true := by decide
    intro c hc
    simpa using List.all_eq_true.mp hplain c hc
  content_line := h

def splitRecords : List CriRecord := [splitRecord false 97 (by decide),splitRecord true 98 (by decide)]

def splitSource : LogSource where
  json := ⟨fun _ => none,fun _ _ _ _ => rfl⟩
  parseFromRfc3339 := nineSeconds
  dirs := fun _ => [("0.log",some (splitRecords.flatMap (fun r => r.line ++ [10])))]

theorem splitSource_holds (attempt : ℕ) : Holds (splitSource.dirs attempt) splitRecords := by
  refine ⟨[(0,splitRecords)],List.cons_ne_nil _ _,?_,List.pairwise_singleton _ _,rfl⟩
  have hnumber : (stripSuffix "0.log" ".log").bind (parseUnsigned 32) = some 0 := by
    decide
  have hfile : numbered ("0.log",some (splitRecords.flatMap (fun r => r.line ++ [10]))) =
      some (0,some (splitRecords.flatMap (fun r => r.line ++ [10]))) := by
    unfold numbered
    rw [hnumber,Option.map_some]
  show (List.filterMap numbered [("0.log",some (splitRecords.flatMap (fun r => r.line ++ [10])))]).Perm _
  rw [List.filterMap_cons_some hfile]
  exact .refl _

theorem collectLogsBody_shows_iff_of_split :
    (∃ body, collectLogsBody splitSource {} = .ok body ∧ Shows splitRecords body.toList) ↔ ∀ r ∈ splitRecords, Faithful r :=
  collectLogsBody_shows_iff splitSource_holds (fun _ h => nomatch h)

/-- The two records come out as two lines. -/
theorem not_shows_split : ¬∃ body, collectLogsBody splitSource {} = .ok body ∧ Shows splitRecords body.toList := by
  intro h
  have hfaithful := faithful_of_shows splitSource_holds (fun _ h => nomatch h) h _ List.mem_cons_self
  exact Bool.false_ne_true hfaithful.1

end ContainerLogs
end KubeAir.Streaming
