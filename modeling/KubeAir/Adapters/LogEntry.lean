import KubeAir.Streaming.HeaderBlock
import KubeAir.Wire.Lines

/-! # Log entries

A container log is read line by line. A line is an entry in the format of the kubelet or a
record of the container runtime: a time, a stream, a flag that says whether the record ends a
line of the container, and a part of what the container wrote.
-/
namespace KubeAir.Adapters
open Streaming.HeaderBlock Wire

structure LogEntry where
  log : String
  stream : String
  time : String
deriving DecidableEq, Repr

/-- `serde_json::from_str::<LogEntry>`. The text of a struct does not begin with a digit. -/
structure JsonReader where
  fromStr : String → Option LogEntry
  fromStr_digit : ∀ s c, s.toList.head? = some c → c.isDigit = true → fromStr s = none

/-- The text before a separator and the text after it. -/
def splitOnce (sep : Char) : List Char → Option (List Char × List Char)
  | [] => none
  | c :: cs => if c = sep then some ([],cs) else (splitOnce sep cs).map (fun p => (c :: p.1,p.2))

/-- `splitn`, with the number of cuts. -/
def splitn (sep : Char) : ℕ → List Char → List (List Char)
  | 0, s => [s]
  | n + 1, s =>
    match splitOnce sep s with
    | none => [s]
    | some (part,rest) => part :: splitn sep n rest

def withNewline (message : List Char) : List Char := if message.getLast? = some '\n' then message else message ++ ['\n']

namespace LogEntry

def parseLine (json : JsonReader) (line : String) : Option LogEntry :=
  match json.fromStr line with
  | some entry => some entry
  | none =>
    match splitn ' ' 3 line.toList with
    | timestamp :: stream :: _flags :: rest =>
      if stream ≠ "stdout".toList ∧ stream ≠ "stderr".toList then none
      else some ⟨String.ofList (withNewline (rest.headD [])),String.ofList stream,String.ofList timestamp⟩
    | _ => none

end LogEntry

/-- `BufRead::lines` drops the end of a line in either form. -/
def dropEol (s : List Char) : List Char :=
  if s.getLast? = some '\n' then
    if s.dropLast.getLast? = some '\r' then s.dropLast.dropLast else s.dropLast
  else s

/-- A line, if it is text. -/
def lineText (raw : List UInt8) : Option String := (fromUtf8 raw).map (fun s => String.ofList (dropEol s.toList))

/-- `BufReader::new(file).lines().map_while(Result::ok)`. -/
def readLines (bytes : List UInt8) : List String := mapWhile lineText (rawLines bytes)

/-! ## Records of the runtime -/

inductive LogStream
  | stdout
  | stderr
deriving DecidableEq, Repr

def LogStream.name : LogStream → String
  | .stdout => "stdout"
  | .stderr => "stderr"

/-- A record: the bytes that a container wrote, up to the end of a line or not that far. -/
structure CriRecord where
  time : String
  stream : LogStream
  /-- the flag is F, not P -/
  full : Bool
  content : List UInt8
  time_digit : ∃ c, time.toList.head? = some c ∧ c.isDigit = true
  time_plain : ∀ c ∈ time.toList, c ≠ ' ' ∧ c ≠ '\n'
  content_line : 10 ∉ content

namespace CriRecord

def flag (r : CriRecord) : String := if r.full then "F" else "P"

def header (r : CriRecord) : String := r.time ++ " " ++ r.stream.name ++ " " ++ r.flag ++ " "

/-- The line that the runtime writes. -/
def line (r : CriRecord) : List UInt8 := asBytes r.header ++ r.content

/-- A carriage return at the end of a line goes with the newline. -/
def chop (s : List Char) : List Char := if s.getLast? = some '\r' then s.dropLast else s

def entry (r : CriRecord) (s : String) : LogEntry := ⟨String.ofList (chop s.toList ++ ['\n']),r.stream.name,r.time⟩

end CriRecord

section Parse
variable {r : CriRecord} {s : String}

theorem splitOnce_append {sep : Char} {part : List Char} (h : sep ∉ part) (rest : List Char) :
    splitOnce sep (part ++ sep :: rest) = some (part,rest) := by
  induction part with
  | nil => exact if_pos rfl
  | cons c part ih =>
    rw [List.mem_cons,not_or] at h
    obtain ⟨hc,hpart⟩ := h
    rw [List.cons_append,splitOnce,if_neg (Ne.symm hc),ih hpart,Option.map_some]

theorem splitOnce_of_notMem {sep : Char} {s : List Char} (h : sep ∉ s) : splitOnce sep s = none := by
  induction s with
  | nil => rfl
  | cons c s ih =>
    rw [List.mem_cons,not_or] at h
    obtain ⟨hc,hs⟩ := h
    rw [splitOnce,if_neg (Ne.symm hc),ih hs,Option.map_none]

theorem splitn_append {sep : Char} {part : List Char} (h : sep ∉ part) (n : ℕ) (rest : List Char) :
    splitn sep (n + 1) (part ++ sep :: rest) = part :: splitn sep n rest := by
  rw [splitn,splitOnce_append h]

theorem toList_header (r : CriRecord) : r.header.toList =
    r.time.toList ++ ' ' :: (r.stream.name.toList ++ ' ' :: (r.flag.toList ++ [' '])) := by
  unfold CriRecord.header
  have hspace : (" " : String).toList = [' '] := rfl
  simp only [String.toList_append,hspace,List.append_assoc,List.cons_append,List.nil_append]

theorem not_mem_name {c : Char} (stream : LogStream) (h : c = ' ' ∨ c = '\n') : c ∉ stream.name.toList := by
  cases stream with
  | stdout => rcases h with rfl | rfl <;> decide
  | stderr => rcases h with rfl | rfl <;> decide

theorem not_mem_flag {c : Char} (r : CriRecord) (h : c = ' ' ∨ c = '\n') : c ∉ r.flag.toList := by
  unfold CriRecord.flag
  cases r.full with
  | true => rcases h with rfl | rfl <;> decide
  | false => rcases h with rfl | rfl <;> decide

theorem newline_not_mem_header (r : CriRecord) : '\n' ∉ r.header.toList := by
  rw [toList_header]
  simp only [List.mem_append,List.mem_cons,List.not_mem_nil,or_false,not_or]
  exact ⟨fun h => (r.time_plain _ h).2 rfl,by decide,not_mem_name r.stream (.inr rfl),by decide,not_mem_flag r (.inr rfl),by decide⟩

theorem splitn_header (r : CriRecord) (text : List Char) : splitn ' ' 3 (r.header.toList ++ text) =
    [r.time.toList,r.stream.name.toList,r.flag.toList,text] := by
  rw [toList_header]
  simp only [List.append_assoc,List.cons_append,List.nil_append]
  rw [splitn_append fun h => (r.time_plain _ h).1 rfl,splitn_append (not_mem_name r.stream (.inl rfl)),
    splitn_append (not_mem_flag r (.inl rfl))]
  rfl

/-- A record is split into what it was put together from. -/
theorem parseLine_header (json : JsonReader) (r : CriRecord) (text : List Char) :
    LogEntry.parseLine json (String.ofList (r.header.toList ++ text)) =
      some ⟨String.ofList (withNewline text),r.stream.name,r.time⟩ := by
  obtain ⟨c,hhead,hdigit⟩ := r.time_digit
  have hnone : json.fromStr (String.ofList (r.header.toList ++ text)) = none := by
    refine json.fromStr_digit _ c ?_ hdigit
    rw [String.toList_ofList,toList_header,List.append_assoc,List.head?_append,hhead]
    rfl
  unfold LogEntry.parseLine
  rw [hnone,String.toList_ofList,splitn_header]
  dsimp only
  rw [if_neg]
  · rw [String.ofList_toList,String.ofList_toList]
    rfl
  · cases r.stream with
    | stdout => exact fun h => h.1 rfl
    | stderr => exact fun h => h.2 rfl

theorem dropEol_newline (s : List Char) : dropEol (s ++ ['\n']) = CriRecord.chop s := by
  unfold dropEol
  rw [List.getLast?_concat,if_pos rfl,List.dropLast_concat]
  rfl

theorem chop_header (r : CriRecord) (s : List Char) : CriRecord.chop (r.header.toList ++ s) = r.header.toList ++ CriRecord.chop s := by
  unfold CriRecord.chop
  by_cases hs : s = []
  · subst hs
    have hlast : r.header.toList.getLast? = some ' ' := by
      rw [toList_header]
      simp only [← List.append_assoc,← List.cons_append]
      exact List.getLast?_concat
    rw [List.append_nil,hlast,if_neg (by decide)]
    exact (List.append_nil _).symm
  · rw [List.getLast?_append_of_ne_nil _ hs,List.dropLast_append_of_ne_nil hs]
    split <;> rfl

theorem newline_not_mem_content {s : String} (h : fromUtf8 r.content = some s) : '\n' ∉ s.toList := by
  rw [← newline_mem_asBytes,asBytes_of_fromUtf8 h]
  exact r.content_line

theorem newline_not_mem_chop {s : List Char} (h : '\n' ∉ s) : '\n' ∉ CriRecord.chop s := by
  unfold CriRecord.chop
  split
  · exact fun hmem => h (List.dropLast_subset _ hmem)
  · exact h

theorem withNewline_of_notMem {s : List Char} (h : '\n' ∉ s) : withNewline s = s ++ ['\n'] :=
  if_neg fun hlast => h (List.mem_of_getLast? hlast)

/-- The entry that a record is read as, if its content is text. -/
def CriRecord.read (r : CriRecord) : Option LogEntry := (fromUtf8 r.content).map r.entry

theorem lineText_line (r : CriRecord) : lineText (r.line ++ [10]) =
    (fromUtf8 r.content).map (fun s => String.ofList (r.header.toList ++ CriRecord.chop s.toList)) := by
  have hnewline : ("\n" : String).toList = ['\n'] := rfl
  unfold lineText CriRecord.line
  rw [fromUtf8_newline,fromUtf8_asBytes_append,Option.map_map,Option.map_map]
  refine congrArg (fun f => Option.map f (fromUtf8 r.content)) (funext fun s => ?_)
  show String.ofList (dropEol (r.header ++ s ++ "\n").toList) = _
  rw [String.toList_append,String.toList_append,hnewline,dropEol_newline,chop_header]

theorem read_line (json : JsonReader) (h : fromUtf8 r.content = some s) :
    LogEntry.parseLine json (String.ofList (r.header.toList ++ CriRecord.chop s.toList)) = some (r.entry s) := by
  rw [parseLine_header,withNewline_of_notMem (newline_not_mem_chop (newline_not_mem_content h))]
  rfl

/-- Reading a file of records. -/
theorem readLines_records (json : JsonReader) (records : List CriRecord) :
    (readLines (records.flatMap (fun r => r.line ++ [10]))).filterMap (LogEntry.parseLine json) =
      mapWhile CriRecord.read records := by
  have hraw : rawLines (records.flatMap (fun r => r.line ++ [10])) = records.map (fun r => r.line ++ [10]) := by
    have hlines : ∀ line ∈ records.map CriRecord.line, 10 ∉ line := by
      intro line hline
      obtain ⟨r,-,rfl⟩ := List.mem_map.mp hline
      unfold CriRecord.line
      rw [List.mem_append,not_or,newline_mem_asBytes]
      exact ⟨newline_not_mem_header r,r.content_line⟩
    have hraw := rawLines_lines hlines
    rw [List.flatMap_map,List.map_map] at hraw
    exact hraw
  unfold readLines
  rw [hraw,mapWhile_map]
  refine filterMap_mapWhile ?_ ?_ records
  · intro r hnone
    rw [Function.comp_apply,lineText_line] at hnone
    exact Option.map_eq_none_iff.mpr (Option.map_eq_none_iff.mp hnone)
  · intro r line hline
    rw [Function.comp_apply,lineText_line] at hline
    obtain ⟨s,hs,rfl⟩ := Option.map_eq_some_iff.mp hline
    exact ⟨r.entry s,read_line json hs,Option.map_eq_some_iff.mpr ⟨s,hs,rfl⟩⟩

end Parse

end KubeAir.Adapters
