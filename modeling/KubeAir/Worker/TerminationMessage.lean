import KubeAir.Streaming.ContainerLogs
import KubeAir.Transition.Ranking
import KubeAir.Wire.Utf8

/-! # Termination messages

All instances of a container share one file for their messages, and each has a log of its own. The
message of an instance that ended is the text of the file, or the last lines of the first log.
-/
namespace KubeAir.Worker.Termination
open Adapters Streaming.HeaderBlock Transition Wire
open Streaming.ContainerLogs (textOf undecodable newline_not_mem_textOf)

/-! ## Instances -/

/-- What an instance does to the file of its message. -/
inductive FileOp
  | truncate (length : ℕ)
  | write (offset : ℕ) (bytes : List UInt8)
  | append (bytes : List UInt8)

def FileOp.apply (content : List UInt8) : FileOp → List UInt8
  | truncate length => content.take length ++ List.replicate (length - content.length) 0
  | write _ [] => content
  | write offset (b :: bytes) =>
    content.take offset ++ List.replicate (offset - content.length) 0 ++ b :: bytes ++ content.drop (offset + bytes.length + 1)
  | append bytes => content ++ bytes

/-- One run of the container. -/
structure Instance where
  ops : List FileOp := []
  /-- what the runtime writes to the log of the attempt -/
  records : List CriRecord := []
  exitCode : ℤ := 0

/-- The file as the instance writes it. -/
def Instance.written (i : Instance) : List UInt8 := i.ops.foldl FileOp.apply []

/-- What the instance puts out, but for the end of its last line. -/
def Instance.output (i : Instance) : List UInt8 :=
  let bytes := i.records.flatMap (fun r => r.content ++ if r.full then [10] else [])
  if bytes.getLast? = some 10 then bytes.dropLast else bytes

/-! ## The shared file -/

/-- What is at the place of the file. -/
inductive Entry
  | absent
  | directory
  | file (content : List UInt8)

/-- `start_container` leaves a file that is there as it is. -/
def prepareTerminationLog : Entry → Entry
  | .absent => .file []
  | .directory => .file []
  | .file content => .file content

def Entry.writeAll (ops : List FileOp) : Entry → Entry
  | .file content => .file (ops.foldl FileOp.apply content)
  | e => e

/-- The instance is started and runs to its end. -/
def Instance.run (e : Entry) (i : Instance) : Entry := (prepareTerminationLog e).writeAll i.ops

/-- The log of each attempt, `{attempt}.log`. -/
def logs (instances : List Instance) (attempt : ℕ) : Option (List UInt8) :=
  (instances[attempt]?).map (fun i => i.records.flatMap (fun r => r.line ++ [10]))

/-! ## Reading a message -/

/-- `std::fs::read_to_string`. -/
def Entry.readToString : Entry → Option String
  | .file content => fromUtf8 content
  | _ => none

/-- `str::lines`. -/
def lines (content : String) : List (List Char) := (splitInclusive '\n' content.toList).map dropEol

/-- `raw_line.splitn(4, ' ').nth(3)`, or the line. -/
def message (rawLine : List Char) : List Char := ((splitn ' ' 3 rawLine)[3]?).getD rawLine

def maxBytes : ℕ := 4096

/-- The messages of the lines from the end, until they have so many bytes. -/
def lastLines (total : ℕ) : List (List Char) → List (List Char)
  | [] => []
  | rawLine :: rest =>
    let msg := message rawLine
    let total := total + (Utf8.size msg + 1)
    if maxBytes ≤ total then [msg] else msg :: lastLines total rest

def FallsBack (policy : Option String) (exitCode : ℤ) : Prop := policy = some "FallbackToLogsOnError" ∧ exitCode ≠ 0

instance (policy : Option String) (exitCode : ℤ) : Decidable (FallsBack policy exitCode) := by
  unfold FallsBack
  infer_instance

/-- A text that is not empty. -/
def nonEmpty (s : String) : Option String := if s = "" then none else some s

/-- The fallback reads `0.log`. -/
def readTerminationMessage (termLog : Entry) (logFiles : ℕ → Option (List UInt8)) (policy : Option String) (exitCode : ℤ) :
    Option String :=
  match termLog.readToString.bind nonEmpty with
  | some msg => some msg
  | none =>
    if FallsBack policy exitCode then do
      let content ← (logFiles 0).bind fromUtf8
      let content ← nonEmpty content
      nonEmpty (String.ofList (['\n'].intercalate (lastLines 0 (lines content).reverse).reverse))
    else none

/-! ## What a message should be -/

/-- The message is short, and the end of what the instance wrote to its file, or, if that is
nothing, of what it put out when it failed. -/
def MessageRight (policy : Option String) (i : Instance) (msg : Option String) : Prop :=
  ∀ text ∈ msg, (asBytes text).length ≤ maxBytes ∧
    (asBytes text <:+ i.written ∨ i.written = [] ∧ FallsBack policy i.exitCode ∧ asBytes text <:+ i.output)

/-- The content of the file once the instances have run. -/
def Entry.content : Entry → List UInt8
  | .file content => content
  | _ => []

def contentAfter (initial : Entry) (instances : List Instance) : List UInt8 := (instances.foldl Instance.run initial).content

/-- A record without the carriage return of its line. -/
def messageOf (r : CriRecord) : List Char := CriRecord.chop (textOf r)

/-- The bytes of lines with a newline each. -/
def lineBytes (msgs : List (List Char)) : ℕ := (msgs.map (fun m => Utf8.size m + 1)).sum

/-- The last messages of a log, from the end: as few as have so many bytes, or all. -/
def LastMessages (records : List CriRecord) (run : List (List Char)) : Prop :=
  ShortestPrefix (fun q => maxBytes ≤ lineBytes q) (records.map messageOf).reverse run

/-- The bytes of messages, the last one first, as lines. -/
def joined (run : List (List Char)) : List UInt8 := Utf8.utf8 (['\n'].intercalate run.reverse)

/-- A text in the file is short, and this instance alone would leave it, or it happens to end what
the instance put out. Without a text in the file the last lines of the first instance are short and
end what this one put out. -/
structure OwnMessage (policy : Option String) (initial : Entry) (earlier : List Instance) (i : Instance) : Prop where
  file : ∀ text, contentAfter initial (earlier ++ [i]) = asBytes text → text ≠ "" →
    (asBytes text).length ≤ maxBytes ∧ (contentAfter initial (earlier ++ [i]) = i.written ∨
      i.written = [] ∧ FallsBack policy i.exitCode ∧ asBytes text <:+ i.output)
  log : (∀ text, contentAfter initial (earlier ++ [i]) = asBytes text → text = "") → FallsBack policy i.exitCode →
    (∀ r ∈ (earlier.headD i).records, undecodable r = false) → ∀ run, LastMessages (earlier.headD i).records run →
      joined run ≠ [] → lineBytes run ≤ maxBytes + 1 ∧
        (joined run <:+ i.written ∨ i.written = [] ∧ joined run <:+ i.output)

/-! ## The shared file grows -/

variable {content content' : List UInt8} {i : Instance} {initial : Entry} {earlier : List Instance} {policy : Option String}

theorem FileOp.length_mono (op : FileOp) (h : content.length ≤ content'.length) :
    (op.apply content).length ≤ (op.apply content').length := by
  unfold FileOp.apply
  split
  · simp only [List.length_append,List.length_take,List.length_replicate]
    omega
  · exact h
  · simp only [List.length_append,List.length_take,List.length_replicate,List.length_drop,List.length_cons]
    omega
  · simp only [List.length_append]
    omega

theorem length_writeAll (ops : List FileOp) (h : content.length ≤ content'.length) :
    (ops.foldl FileOp.apply content).length ≤ (ops.foldl FileOp.apply content').length := by
  induction ops generalizing content content' with
  | nil => exact h
  | cons op ops ih => exact ih (op.length_mono h)

theorem run_eq (e : Entry) (i : Instance) : ∃ before, i.run e = .file (i.ops.foldl FileOp.apply before) := by
  unfold Instance.run prepareTerminationLog
  cases e with
  | absent => exact ⟨_,rfl⟩
  | directory => exact ⟨_,rfl⟩
  | file content => exact ⟨_,rfl⟩

/-- The file is as long as the last instance alone would make it, or longer. -/
theorem foldl_run (initial : Entry) (earlier : List Instance) (i : Instance) :
    (earlier ++ [i]).foldl Instance.run initial = .file (contentAfter initial (earlier ++ [i])) ∧
      i.written.length ≤ (contentAfter initial (earlier ++ [i])).length := by
  unfold contentAfter
  rw [List.foldl_append,List.foldl_cons,List.foldl_nil]
  obtain ⟨before,hrun⟩ := run_eq (earlier.foldl Instance.run initial) i
  rw [hrun]
  exact ⟨rfl,length_writeAll i.ops (Nat.zero_le _)⟩

/-! ## Reading a log of records -/

/-- What comes before a newline within a text is text. -/
theorem text_before_newline {cs : List Char} {bytes rest : List UInt8} (h : Utf8.utf8 cs = bytes ++ 10 :: rest) :
    ∃ ds, bytes = Utf8.utf8 ds := by
  induction cs generalizing bytes with
  | nil =>
    rw [Utf8.utf8_nil] at h
    exact absurd h.symm (List.append_ne_nil_of_right_ne_nil _ (List.cons_ne_nil _ _))
  | cons c cs ih =>
    rw [Utf8.utf8_cons] at h
    rcases List.append_eq_append_iff.mp h with ⟨more,hbytes,hrest⟩ | ⟨more,hchar,hrest⟩
    · obtain ⟨ds,rfl⟩ := ih hrest
      exact ⟨c :: ds,by rw [hbytes,Utf8.utf8_cons]⟩
    · cases more with
      | nil => exact ⟨[c],by rw [Utf8.utf8_cons,Utf8.utf8_nil,hchar,List.append_nil,List.append_nil]⟩
      | cons b more =>
        -- the newline lies within the first character, which is the newline then
        have hten : b = 10 := ((List.cons.inj hrest).1).symm
        have hmem : 10 ∈ String.utf8EncodeChar c := by
          rw [hchar,hten]
          exact List.mem_append_right _ List.mem_cons_self
        obtain rfl := eq_newline_of_mem hmem
        have hlength := congrArg List.length hchar
        have hone : (String.utf8EncodeChar '\n').length = 1 := by decide
        rw [hone,List.length_append,List.length_cons] at hlength
        exact ⟨[],List.eq_nil_of_length_eq_zero (by omega)⟩

theorem fromUtf8_content {r : CriRecord} (h : undecodable r = false) :
    fromUtf8 r.content = some (String.ofList (textOf r)) := by
  unfold undecodable at h
  obtain ⟨s,hs⟩ := Option.ne_none_iff_exists'.mp (Option.isNone_eq_false_iff.mp h |> Option.isSome_iff_ne_none.mp)
  unfold Streaming.ContainerLogs.textOf
  rw [hs,Option.getD_some,String.ofList_toList]

theorem asBytes_ofList (cs : List Char) : asBytes (String.ofList cs) = Utf8.utf8 cs := by
  rw [asBytes,String.toList_ofList]
  rfl

/-- The text of a record's line. -/
def recordText (r : CriRecord) : List Char := r.header.toList ++ textOf r

theorem line_eq {r : CriRecord} (h : undecodable r = false) : r.line = Utf8.utf8 (recordText r) := by
  rw [CriRecord.line,recordText,Utf8.utf8_append,← asBytes_of_fromUtf8 (fromUtf8_content h),asBytes_ofList]
  rfl

def logText (records : List CriRecord) : List Char := records.flatMap (fun r => recordText r ++ ['\n'])

theorem logBytes_eq {records : List CriRecord} (h : ∀ r ∈ records, undecodable r = false) :
    records.flatMap (fun r => r.line ++ [10]) = Utf8.utf8 (logText records) := by
  have hnewline : Utf8.utf8 ['\n'] = [10] := by decide
  induction records with
  | nil => rfl
  | cons r records ih =>
    obtain ⟨hr,hrecords⟩ := List.forall_mem_cons.mp h
    rw [logText,List.flatMap_cons,List.flatMap_cons,Utf8.utf8_append,Utf8.utf8_append,hnewline,line_eq hr,ih hrecords]
    rfl

/-- A log that is text has records that are. -/
theorem decodable_of_text {records : List CriRecord} {cs : List Char}
    (h : records.flatMap (fun r => r.line ++ [10]) = Utf8.utf8 cs) : ∀ r ∈ records, undecodable r = false := by
  induction records generalizing cs with
  | nil => exact fun r hr => by cases hr
  | cons r records ih =>
    rw [List.flatMap_cons,List.append_assoc,List.singleton_append] at h
    obtain ⟨ds,hline⟩ := text_before_newline h.symm
    have hcontent : (fromUtf8 r.content).map (r.header ++ ·) = some (String.ofList ds) := by
      rw [← fromUtf8_asBytes_append,fromUtf8_eq_some,asBytes_ofList]
      exact hline
    obtain ⟨s,hs,-⟩ := Option.map_eq_some_iff.mp hcontent
    have hr : undecodable r = false := by
      unfold undecodable
      rw [hs]
      rfl
    have hrest : (fromUtf8 (records.flatMap (fun r => r.line ++ [10]))).map (String.ofList (ds ++ ['\n']) ++ ·) =
        some (String.ofList cs) := by
      have hnewline : Utf8.utf8 ['\n'] = [10] := by decide
      rw [← fromUtf8_asBytes_append,fromUtf8_eq_some,asBytes_ofList,asBytes_ofList,← h,hline,Utf8.utf8_append,hnewline,
        List.append_assoc,List.singleton_append]
    obtain ⟨t,ht,-⟩ := Option.map_eq_some_iff.mp hrest
    refine List.forall_mem_cons.mpr ⟨hr,@ih t.toList ?_⟩
    exact fromUtf8_eq_some.mp ht

theorem newline_notMem_recordText (r : CriRecord) : '\n' ∉ recordText r := by
  rw [recordText,List.mem_append,not_or]
  exact ⟨newline_not_mem_header r,newline_not_mem_textOf r⟩

theorem lines_logText (records : List CriRecord) :
    lines (String.ofList (logText records)) = records.map (fun r => r.header.toList ++ messageOf r) := by
  have hparts : ∀ part ∈ records.map recordText, '\n' ∉ part := by
    intro part hpart
    obtain ⟨r,-,rfl⟩ := List.mem_map.mp hpart
    exact newline_notMem_recordText r
  have hsplit := splitInclusive_parts hparts
  rw [List.flatMap_map,List.map_map] at hsplit
  unfold lines
  rw [String.toList_ofList,logText,hsplit,List.map_map]
  refine List.map_congr_left fun r _ => ?_
  rw [Function.comp_apply,Function.comp_apply,dropEol_newline,recordText,chop_header]
  rfl

theorem message_header (r : CriRecord) (text : List Char) : message (r.header.toList ++ text) = text := by
  rw [message,splitn_header]
  rfl

theorem messages_logText (records : List CriRecord) :
    (lines (String.ofList (logText records))).reverse.map message = (records.map messageOf).reverse := by
  rw [lines_logText,List.map_reverse,List.map_map]
  refine congrArg List.reverse (List.map_congr_left fun r _ => ?_)
  exact message_header r (messageOf r)

/-! ## The last lines -/

theorem lineBytes_cons (m : List Char) (run : List (List Char)) : lineBytes (m :: run) = Utf8.size m + 1 + lineBytes run :=
  List.sum_cons

theorem lastLines_shortest {total : ℕ} (h : total < maxBytes) (raws : List (List Char)) :
    ShortestPrefix (fun q => maxBytes ≤ total + lineBytes q) (raws.map message) (lastLines total raws) := by
  induction raws generalizing total with
  | nil => exact shortestPrefix_nil_iff.mpr (.inr rfl)
  | cons raw raws ih =>
    unfold lastLines
    dsimp only
    split
    · next hfull =>
      refine ⟨⟨raws.map message,rfl⟩,.inl ?_,?_⟩
      · exact hfull
      · intro q hq hne
        rcases List.prefix_cons_iff.mp hq with rfl | ⟨t,rfl,ht⟩
        · exact Nat.not_le.mpr h
        · exact absurd (congrArg (message raw :: ·) (List.prefix_nil.mp ht)) hne
    · next hroom =>
      have hrest := ih (Nat.not_le.mp hroom)
      have hsum : ∀ q, total + lineBytes (message raw :: q) = total + (Utf8.size (message raw) + 1) + lineBytes q := fun q => by
        rw [lineBytes_cons]
        omega
      refine ⟨List.cons_prefix_cons.mpr ⟨rfl,hrest.begins⟩,?_,?_⟩
      · rw [hsum]
        exact hrest.enough_or_all.imp_right (congrArg (message raw :: ·))
      · intro q hq hne
        rcases List.prefix_cons_iff.mp hq with rfl | ⟨t,rfl,ht⟩
        · exact Nat.not_le.mpr h
        · rw [hsum]
          exact hrest.minimal t ht fun heq => hne (congrArg (message raw :: ·) heq)

/-- The lines that the loop takes are the last messages. -/
theorem lastMessages_lastLines (records : List CriRecord) :
    LastMessages records (lastLines 0 (lines (String.ofList (logText records))).reverse) := by
  have h := lastLines_shortest (show 0 < maxBytes by decide) (lines (String.ofList (logText records))).reverse
  rw [messages_logText] at h
  simp only [Nat.zero_add] at h
  exact h

theorem size_intercalate (msgs : List (List Char)) (h : msgs ≠ []) :
    Utf8.size (['\n'].intercalate msgs) + 1 = lineBytes msgs := by
  induction msgs with
  | nil => exact absurd rfl h
  | cons m msgs ih =>
    cases msgs with
    | nil =>
      rw [List.intercalate_singleton]
      rfl
    | cons m' msgs =>
      have hrest := ih (List.cons_ne_nil m' msgs)
      have hone : Utf8.size ['\n'] = 1 := by decide
      rw [List.intercalate_cons_cons,Utf8.size_append,Utf8.size_append,hone,lineBytes_cons]
      omega

/-- Joined, the messages have a byte less than as lines. -/
theorem length_joined {run : List (List Char)} (h : run ≠ []) : (joined run).length + 1 = lineBytes run := by
  rw [joined,Utf8.length_utf8,size_intercalate _ (by simpa using h)]
  unfold lineBytes
  rw [List.map_reverse,List.sum_reverse]

/-! ## Messages of the instance itself -/

theorem readToString_after (initial : Entry) (earlier : List Instance) (i : Instance) :
    ((earlier ++ [i]).foldl Instance.run initial).readToString = fromUtf8 (contentAfter initial (earlier ++ [i])) := by
  rw [(foldl_run initial earlier i).1]
  rfl

/-- What ends what the instance has written is that, as the file has become no shorter by it. -/
theorem suffix_written_iff (initial : Entry) (earlier : List Instance) (i : Instance) :
    contentAfter initial (earlier ++ [i]) <:+ i.written ↔ contentAfter initial (earlier ++ [i]) = i.written := by
  constructor
  · exact fun h => h.eq_of_length_le (foldl_run initial earlier i).2
  · exact fun h => h ▸ List.suffix_rfl

theorem logs_first (earlier : List Instance) (i : Instance) :
    logs (earlier ++ [i]) 0 = some ((earlier.headD i).records.flatMap (fun r => r.line ++ [10])) := by
  cases earlier with
  | nil => rfl
  | cons first earlier => rfl

/-- The message of the last of some instances. -/
def messageOfLast (policy : Option String) (initial : Entry) (earlier : List Instance) (i : Instance) : Option String :=
  readTerminationMessage ((earlier ++ [i]).foldl Instance.run initial) (logs (earlier ++ [i])) policy i.exitCode

/-- A text in the file is the message. -/
theorem messageOfLast_of_text {text : String} (h : contentAfter initial (earlier ++ [i]) = asBytes text) (hne : text ≠ "") :
    messageOfLast policy initial earlier i = some text := by
  unfold messageOfLast readTerminationMessage
  rw [readToString_after,h,fromUtf8_asBytes,Option.bind_some,nonEmpty,if_neg hne]

/-- Without a text in the file the message comes from the first log. -/
theorem messageOfLast_of_none (h : ∀ text, contentAfter initial (earlier ++ [i]) = asBytes text → text = "") :
    messageOfLast policy initial earlier i = if FallsBack policy i.exitCode then
      ((fromUtf8 ((earlier.headD i).records.flatMap (fun r => r.line ++ [10]))).bind nonEmpty).bind fun content =>
        nonEmpty (String.ofList (['\n'].intercalate (lastLines 0 (lines content).reverse).reverse)) else none := by
  have hfile : (fromUtf8 (contentAfter initial (earlier ++ [i]))).bind nonEmpty = none := by
    cases htext : fromUtf8 (contentAfter initial (earlier ++ [i])) with
    | none => rfl
    | some text =>
      rw [Option.bind_some,nonEmpty,if_pos (h text (fromUtf8_eq_some.mp htext))]
  unfold messageOfLast readTerminationMessage
  rw [readToString_after,hfile,logs_first]
  simp only [Option.bind_eq_bind,Option.bind_some,Option.bind_assoc]

/-- Then it is put together from the last messages, if that log is text. -/
theorem messageOfLast_fallback (h : ∀ text, contentAfter initial (earlier ++ [i]) = asBytes text → text = "")
    (hfalls : FallsBack policy i.exitCode) (hlog : ∀ r ∈ (earlier.headD i).records, undecodable r = false) :
    ∃ run, LastMessages (earlier.headD i).records run ∧
      messageOfLast policy initial earlier i = nonEmpty (String.ofList (['\n'].intercalate run.reverse)) := by
  refine ⟨_,lastMessages_lastLines (earlier.headD i).records,?_⟩
  have htext : fromUtf8 (Utf8.utf8 (logText (earlier.headD i).records)) = some (String.ofList (logText (earlier.headD i).records)) := by
    rw [fromUtf8_eq_some,asBytes_ofList]
  rw [messageOfLast_of_none h,if_pos hfalls,logBytes_eq hlog,htext,Option.bind_some]
  by_cases hempty : String.ofList (logText (earlier.headD i).records) = ""
  · -- an empty log has no lines
    rw [nonEmpty,if_pos hempty,hempty]
    rfl
  · rw [nonEmpty,if_neg hempty,Option.bind_some]

theorem messageOfLast_undecodable (h : ∀ text, contentAfter initial (earlier ++ [i]) = asBytes text → text = "")
    (hlog : ¬∀ r ∈ (earlier.headD i).records, undecodable r = false) : messageOfLast policy initial earlier i = none := by
  have hnone : fromUtf8 ((earlier.headD i).records.flatMap (fun r => r.line ++ [10])) = none := by
    refine Option.eq_none_iff_forall_ne_some.mpr fun text htext => hlog ?_
    exact @decodable_of_text _ text.toList (fromUtf8_eq_some.mp htext)
  rw [messageOfLast_of_none h,hnone]
  split <;> rfl

theorem messageRight_nonEmpty {text : String} : MessageRight policy i (nonEmpty text) ↔ (text ≠ "" →
    (asBytes text).length ≤ maxBytes ∧
      (asBytes text <:+ i.written ∨ i.written = [] ∧ FallsBack policy i.exitCode ∧ asBytes text <:+ i.output)) := by
  unfold nonEmpty
  by_cases hempty : text = ""
  · rw [if_pos hempty]
    exact iff_of_true (fun t ht => by cases ht) (fun hne => absurd hempty hne)
  · rw [if_neg hempty]
    constructor
    · exact fun h _ => h text rfl
    · rintro h t ht
      cases ht
      exact h hempty

theorem asBytes_eq_nil_iff {text : String} : asBytes text = [] ↔ text = "" := by
  constructor
  · intro h
    have hsame : fromUtf8 (asBytes text) = fromUtf8 (asBytes "") := congrArg fromUtf8 h
    rw [fromUtf8_asBytes,fromUtf8_asBytes] at hsame
    exact Option.some.inj hsame
  · rintro rfl
    rfl

/-- The joined messages are short when as lines they have a byte more at most. -/
theorem length_joined_le_iff {run : List (List Char)} (h : joined run ≠ []) :
    (joined run).length ≤ maxBytes ↔ lineBytes run ≤ maxBytes + 1 := by
  have hrun : run ≠ [] := by
    rintro rfl
    exact h rfl
  have hlength := length_joined hrun
  omega

/-! ## Whose message it is -/

theorem ownMessage_text_iff {text : String} (h : contentAfter initial (earlier ++ [i]) = asBytes text) (hne : text ≠ "") :
    OwnMessage policy initial earlier i ↔ (asBytes text).length ≤ maxBytes ∧
      (contentAfter initial (earlier ++ [i]) = i.written ∨
        i.written = [] ∧ FallsBack policy i.exitCode ∧ asBytes text <:+ i.output) := by
  constructor
  · exact fun hown => hown.file text h hne
  · intro hmessage
    refine ⟨fun text' htext' _ => ?_,fun hnone => absurd (hnone text h) hne⟩
    have hsame : asBytes text' = asBytes text := htext'.symm.trans h
    rw [hsame]
    exact hmessage

theorem ownMessage_none_iff (h : ∀ text, contentAfter initial (earlier ++ [i]) = asBytes text → text = "") :
    OwnMessage policy initial earlier i ↔ (FallsBack policy i.exitCode →
      (∀ r ∈ (earlier.headD i).records, undecodable r = false) → ∀ run, LastMessages (earlier.headD i).records run →
        joined run ≠ [] → lineBytes run ≤ maxBytes + 1 ∧
          (joined run <:+ i.written ∨ i.written = [] ∧ joined run <:+ i.output)) := by
  constructor
  · exact fun hown => hown.log h
  · exact fun hlog => ⟨fun text htext hne => absurd (h text htext) hne,fun _ => hlog⟩

/-- A message from the last messages of a log is right when these are short and the instance's own. -/
theorem messageRight_joined_iff {run : List (List Char)} (hfalls : FallsBack policy i.exitCode) :
    MessageRight policy i (nonEmpty (String.ofList (['\n'].intercalate run.reverse))) ↔ (joined run ≠ [] →
      lineBytes run ≤ maxBytes + 1 ∧ (joined run <:+ i.written ∨ i.written = [] ∧ joined run <:+ i.output)) := by
  have hbytes : asBytes (String.ofList (['\n'].intercalate run.reverse)) = joined run := asBytes_ofList _
  have hempty : joined run ≠ [] ↔ String.ofList (['\n'].intercalate run.reverse) ≠ "" := by
    rw [← hbytes]
    exact not_congr asBytes_eq_nil_iff
  rw [messageRight_nonEmpty,← hempty,hbytes]
  refine forall_congr' fun hne => and_congr (length_joined_le_iff hne) (or_congr_right (and_congr_right fun _ => ?_))
  exact and_iff_right hfalls

/-- The message of an instance is right just when it is its own and short. -/
theorem messageRight_iff (policy : Option String) (initial : Entry) (earlier : List Instance) (i : Instance) :
    MessageRight policy i (messageOfLast policy initial earlier i) ↔ OwnMessage policy initial earlier i := by
  by_cases hfile : ∃ text, contentAfter initial (earlier ++ [i]) = asBytes text ∧ text ≠ ""
  · obtain ⟨text,htext,hne⟩ := hfile
    have hmessage : MessageRight policy i (nonEmpty text) ↔ _ := messageRight_nonEmpty
    rw [nonEmpty,if_neg hne] at hmessage
    rw [messageOfLast_of_text htext hne,hmessage,ownMessage_text_iff htext hne,← htext,suffix_written_iff]
    exact ⟨fun h => h hne,fun h _ => h⟩
  · have hnone : ∀ text, contentAfter initial (earlier ++ [i]) = asBytes text → text = "" := by
      intro text htext
      by_contra hne
      exact hfile ⟨text,htext,hne⟩
    have hsilent : MessageRight policy i none := fun text htext => by cases htext
    rw [ownMessage_none_iff hnone]
    by_cases hfalls : FallsBack policy i.exitCode
    · by_cases hlog : ∀ r ∈ (earlier.headD i).records, undecodable r = false
      · obtain ⟨run,hrun,hmessage⟩ := messageOfLast_fallback hnone hfalls hlog
        rw [hmessage,messageRight_joined_iff hfalls]
        constructor
        · intro h _ _ run' hrun'
          obtain rfl := hrun.unique hrun'
          exact h
        · exact fun h => h hfalls hlog run hrun
      · rw [messageOfLast_undecodable hnone hlog]
        exact iff_of_true hsilent fun _ hdecodable => absurd hdecodable hlog
    · rw [messageOfLast_of_none hnone,if_neg hfalls]
      exact iff_of_true hsilent fun hfalls' => absurd hfalls' hfalls

/-! ## The first instance -/

/-- A record that is a whole line of text without a carriage return. -/
structure WholeLine (r : CriRecord) : Prop where
  full : r.full = true
  text : undecodable r = false
  no_return : (textOf r).getLast? ≠ some '\r'

theorem intercalate_suffix {msgs run : List (List Char)} (h : run <:+ msgs) (hne : run ≠ []) :
    ['\n'].intercalate run <:+ ['\n'].intercalate msgs := by
  obtain ⟨pre,rfl⟩ := h
  induction pre with
  | nil => exact List.suffix_refl _
  | cons m pre ih =>
    have hrest : pre ++ run ≠ [] := List.append_ne_nil_of_right_ne_nil _ hne
    rw [List.cons_append,List.intercalate_cons_of_ne_nil hrest]
    exact ih.trans (List.suffix_append _ _)

/-- Whole lines are the joined messages and a newline. -/
theorem flatMap_wholeLines {records : List CriRecord} (h : ∀ r ∈ records, WholeLine r) (hne : records ≠ []) :
    records.flatMap (fun r => r.content ++ if r.full then [10] else []) =
      Utf8.utf8 (['\n'].intercalate (records.map messageOf)) ++ [10] := by
  have hnewline : Utf8.utf8 ['\n'] = [10] := by decide
  have hcontent : ∀ r ∈ records, r.content = Utf8.utf8 (messageOf r) := by
    intro r hr
    have hchop : messageOf r = textOf r := if_neg (h r hr).no_return
    rw [hchop,← asBytes_of_fromUtf8 (fromUtf8_content (h r hr).text),asBytes_ofList]
  induction records with
  | nil => exact absurd rfl hne
  | cons r records ih =>
    obtain ⟨hr,hrecords⟩ := List.forall_mem_cons.mp h
    obtain ⟨hcr,hcrecords⟩ := List.forall_mem_cons.mp hcontent
    cases records with
    | nil => rw [List.flatMap_singleton,if_pos hr.full,hcr,List.map_singleton,List.intercalate_singleton]
    | cons r' records =>
      have hmore : (r' :: records).map messageOf ≠ [] := List.cons_ne_nil _ _
      show _ = Utf8.utf8 (['\n'].intercalate (messageOf r :: (r' :: records).map messageOf)) ++ [10]
      rw [List.flatMap_cons,ih hrecords (List.cons_ne_nil _ _) hcrecords,if_pos hr.full,hcr,
        List.intercalate_cons_of_ne_nil hmore,Utf8.utf8_append,Utf8.utf8_append,hnewline]
      simp only [List.append_assoc]

/-- The last messages of an instance that puts out whole lines end what it puts out. -/
theorem joined_suffix_output {run : List (List Char)} (h : ∀ r ∈ i.records, WholeLine r) (hrun : LastMessages i.records run)
    (hne : joined run ≠ []) : joined run <:+ i.output := by
  have hrunne : run ≠ [] := by
    rintro rfl
    exact hne rfl
  have hsuffix : run.reverse <:+ i.records.map messageOf := by
    have hreverse := List.reverse_suffix.mpr hrun.begins
    rwa [List.reverse_reverse] at hreverse
  have hrecords : i.records ≠ [] := by
    intro hnil
    rw [hnil] at hsuffix
    exact hrunne (List.reverse_eq_nil_iff.mp (List.suffix_nil.mp hsuffix))
  unfold Instance.output
  rw [flatMap_wholeLines h hrecords]
  dsimp only
  rw [List.getLast?_concat,if_pos rfl,List.dropLast_concat]
  obtain ⟨pre,hpre⟩ := intercalate_suffix hsuffix (fun hnil => hrunne (List.reverse_eq_nil_iff.mp hnil))
  exact ⟨Utf8.utf8 pre,by rw [joined,← Utf8.utf8_append,hpre]⟩

/-- With a file of its own that is short or empty, and short last lines, the first instance gets its message. -/
theorem ownMessage_first (h : ∀ r ∈ i.records, WholeLine r) (hfile : ∃ text, i.written = asBytes text ∧ (asBytes text).length ≤ maxBytes)
    (hlog : ∀ run, LastMessages i.records run → lineBytes run ≤ maxBytes + 1) : OwnMessage policy .absent [] i := by
  have hcontent : contentAfter .absent ([] ++ [i]) = i.written := rfl
  obtain ⟨text,htext,hshort⟩ := hfile
  refine ⟨fun text' htext' _ => ⟨?_,.inl hcontent⟩,fun hnone _ _ run hrun hne => ⟨hlog run hrun,.inr ⟨?_,joined_suffix_output h hrun hne⟩⟩⟩
  · rw [← htext',hcontent,htext]
    exact hshort
  · rw [htext,hnone text (hcontent.trans htext)]
    rfl

/-! ## A message of an earlier instance -/

theorem stale_message : messageOfLast none .absent [{ ops := [.append (asBytes "oom")], exitCode := 1 }] { exitCode := 1 } = some "oom" ∧
    ¬MessageRight none { exitCode := 1 } (messageOfLast none .absent [{ ops := [.append (asBytes "oom")], exitCode := 1 }] { exitCode := 1 }) := by
  have hmessage : messageOfLast none .absent [{ ops := [.append (asBytes "oom")], exitCode := 1 }] { exitCode := 1 } = some "oom" :=
    messageOfLast_of_text rfl (by decide)
  refine ⟨hmessage,fun h => ?_⟩
  rw [hmessage] at h
  rcases (h "oom" rfl).2 with hown | ⟨-,hfalls,-⟩
  · exact absurd (List.suffix_nil.mp hown) (by decide)
  · exact absurd hfalls.1 (by decide)

end KubeAir.Worker.Termination
