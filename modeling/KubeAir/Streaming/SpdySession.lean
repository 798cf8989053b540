import KubeAir.Streaming.ExecQuery
import KubeAir.Streaming.PortForward
import Mathlib.Data.List.ReduceOption

/-! # An exec or attach session over SPDY

The server waits until the client has opened the streams it asked for, runs the command and sends
each output on its stream. Every read gives a frame of the client or nothing: no frame in time, or
the end of the input.
-/
namespace KubeAir.Streaming
open Core Exec

inductive SpdyStreamKind
  | stdin
  | stdout
  | stderr
  | error
  | resize
  | portForwardData
deriving DecidableEq, Repr

def spdyStreamKindFromHeaders (headers : HashMap String String) : Option SpdyStreamKind :=
  (headers.lookup "streamtype").bind fun streamType =>
    match streamType.toLower with
    | "stdin" => some .stdin
    | "stdout" => some .stdout
    | "stderr" => some .stderr
    | "error" => some .error
    | "resize" => some .resize
    | "data" => some .portForwardData
    | _ => none

structure ExecResult where
  stdout : List UInt8 := []
  stderr : List UInt8 := []
  exitCode : ℤ := 0
deriving DecidableEq, Repr

/-- A JSON value; a number is known by what `as_u64` makes of it. -/
inductive Json
  | null
  | bool (b : Bool)
  | number (asU64 : Option ℕ)
  | string (s : String)
  | array (values : List Json)
  | object (fields : List (String × Json))

def Json.get (key : String) : Json → Option Json
  | .object fields => fields.lookup key
  | _ => none

def Json.asU64 : Json → Option ℕ
  | .number n => n
  | _ => none

/-- `json["height"]` and `json["width"]`, as far as 32 bits hold them. -/
def parseResizeEvent (fromStr : List UInt8 → Option Json) (payload : List UInt8) : Option (UInt32 × UInt32) := do
  let json ← fromStr payload
  let height ← (← json.get "height").asU64
  let width ← (← json.get "width").asU64
  return (UInt32.ofNat height,UInt32.ofNat width)

def failureStatusPayload (message : String) (code : ℕ) : Json :=
  .object [("status",.string "Failure"),("message",.string message),("code",.number (some code))]

def exitStatusPayload (exitCode : ℤ) : Json :=
  if exitCode = 0 then
    .object [("kind",.string "Status"),("apiVersion",.string "v1"),("metadata",.object []),("status",.string "Success"),
      ("code",.number (some 200))]
  else
    .object [("kind",.string "Status"),("apiVersion",.string "v1"),("metadata",.object []),("status",.string "Failure"),
      ("message",.string ("command terminated with exit code " ++ toString exitCode)),("reason",.string "NonZeroExitCode"),
      ("details",.object [("causes",.array [.object [("reason",.string "ExitCode"),("message",.string (toString exitCode))]])]),
      ("code",.number (some 500))]

/-- The header decoder and encoder of a session, and the texts of JSON values. A decoder whose slice
is out of range panics. -/
structure SessionCodec (D E : Type) where
  decode : D → List UInt8 → Option (HashMap String String × D)
  encode : E → HashMap String String → List UInt8 × E
  fromStr : List UInt8 → Option Json
  toText : Json → List UInt8

structure SpdySession (D E : Type) where
  streamMap : HashMap SpdyStreamKind UInt32 := ∅
  fallbackIdx : ℕ := 0
  hdrDecoder : D
  hdrEncoder : E
  errorOnlyTimeouts : ℕ := 0
  /-- the frames that the client has sent so far -/
  handled : List SpdyWireFrame := []
  written : List SpdyWireFrame := []
  /-- the terminal sizes given to the runtime, as width and height -/
  resized : List (UInt32 × UInt32) := []

/-- Whether the loop goes on after a read. -/
inductive AfterRead (S : Type)
  | next (s : S)
  | closed (s : S)
  | panicked

namespace SpdySession
variable {D E : Type} (codec : SessionCodec D E)

def fallbackOrder : List SpdyStreamKind := [.error,.stdin,.stdout,.stderr,.resize]

def has (s : SpdySession D E) (kind : SpdyStreamKind) : Bool := (s.streamMap.lookup kind).isSome

/-- The condition of the loop. -/
def negotiating (query : ExecQuery) (s : SpdySession D E) : Bool :=
  !s.has .error || ((query.stdout.getD true && !s.has .stdout) || (query.stderr.getD true && !s.has .stderr))

def onlyErrorStream (s : SpdySession D E) : Bool := s.streamMap.entries.length == 1 && s.has .error

/-- How long a read may take, in seconds. -/
def readTimeout (s : SpdySession D E) : ℕ := if s.onlyErrorStream then 8 else 10

def write (s : SpdySession D E) (frame : SpdyWireFrame) : SpdySession D E := { s with written := s.written ++ [frame] }

/-- The kind of a stream: what its headers say, or the next of the usual ones. -/
def kindOf (s : SpdySession D E) (headers : HashMap String String) : Option SpdyStreamKind × ℕ :=
  match spdyStreamKindFromHeaders headers with
  | some kind => (some kind,s.fallbackIdx)
  | none => (fallbackOrder[s.fallbackIdx]?,s.fallbackIdx + 1)

def withStream (streamMap : HashMap SpdyStreamKind UInt32) (streamId : UInt32) :
    Option SpdyStreamKind → HashMap SpdyStreamKind UInt32
  | some kind => streamMap.insert kind streamId
  | none => streamMap

/-- The client opens a stream; the server accepts it. -/
def openStream (s : SpdySession D E) (streamId : UInt32) (rawNv : List UInt8) : Option (SpdySession D E) :=
  (codec.decode s.hdrDecoder rawNv).map fun decoded =>
    let kind := s.kindOf decoded.1
    let reply := codec.encode s.hdrEncoder PortForward.replyHeaders
    { s with
      streamMap := withStream s.streamMap streamId kind.1
      fallbackIdx := kind.2
      hdrDecoder := decoded.2
      hdrEncoder := reply.2
      written := s.written ++ [.synReply streamId reply.1] }

/-- The terminal of the container, if there is one, takes the size that the client sends. -/
def resizeTty (containerId : Option String) (s : SpdySession D E) (streamId : UInt32) (payload : List UInt8) : SpdySession D E :=
  match s.streamMap.lookup .resize, containerId, parseResizeEvent codec.fromStr payload with
  | some resizeId, some _, some (height,width) =>
    if streamId = resizeId then { s with resized := s.resized ++ [(width,height)] } else s
  | _, _, _ => s

def handle (containerId : Option String) (s : SpdySession D E) : SpdyWireFrame → AfterRead (SpdySession D E)
  | .synStream streamId rawNv =>
    match s.openStream codec streamId rawNv with
    | some t => .next t
    | none => .panicked
  | .ping id => .next (s.write (.ping id))
  | .goAway .. => .closed s
  | .rstStream .. => .closed s
  | .data streamId _ payload => .next (s.resizeTty codec containerId streamId payload)
  | .synReply .. => .next s

/-- The body of the loop. -/
def onRead (containerId : Option String) (s : SpdySession D E) : Option SpdyWireFrame → AfterRead (SpdySession D E)
  | none =>
    if s.onlyErrorStream && decide (s.errorOnlyTimeouts < 2) then
      .next { s with errorOnlyTimeouts := s.errorOnlyTimeouts + 1 }
    else .closed s
  | some frame => { s with errorOnlyTimeouts := 0, handled := s.handled ++ [frame] }.handle codec containerId frame

/-- The loop, over what the reads give. It waits if it needs another read. -/
def negotiate (query : ExecQuery) (containerId : Option String) :
    SpdySession D E → List (Option SpdyWireFrame) → AfterRead (SpdySession D E)
  | s, [] => if s.negotiating query then .next s else .closed s
  | s, read :: reads =>
    if s.negotiating query then
      match s.onRead codec containerId read with
      | .next t => negotiate query containerId t reads
      | .closed t => .closed t
      | .panicked => .panicked
    else .closed s

def dataOn (s : SpdySession D E) (kind : SpdyStreamKind) (payload : List UInt8) : SpdySession D E :=
  match s.streamMap.lookup kind with
  | some streamId => s.write (.data streamId 0x01 payload)
  | none => s

def sendExecResultSpdy (s : SpdySession D E) (result : ExecResult) : SpdySession D E :=
  let s := if result.stdout.isEmpty then s else s.dataOn .stdout result.stdout
  let s := if result.stderr.isEmpty then s else s.dataOn .stderr result.stderr
  s.dataOn .error (codec.toText (exitStatusPayload result.exitCode))

def goodbye : SpdyWireFrame := .goAway 0 0

/-- What follows the loop. The command is run if there is a stream for its output, with this result
or with this message and status. -/
def conclude (s : SpdySession D E) (run : Except (ℕ × String) ExecResult) : SpdySession D E :=
  if s.has .stdout then
    match run with
    | .ok result => (s.sendExecResultSpdy codec result).write goodbye
    | .error (status,message) => (s.dataOn .error (codec.toText (failureStatusPayload message status))).write goodbye
  else
    (s.dataOn .error
      (codec.toText (failureStatusPayload "SPDY stream negotiation incomplete: stdout channel not opened" 500))).write goodbye

/-- The loop begins with no stream. -/
def start (d : D) (e : E) : SpdySession D E := { hdrDecoder := d, hdrEncoder := e }

/-! ## What the server says to what -/

/-- The stream that a frame accepts, or the ping that it gives back. -/
def answerOf : SpdyWireFrame → Option (UInt32 ⊕ UInt32)
  | .synReply streamId _ => some (.inl streamId)
  | .ping id => some (.inr id)
  | _ => none

/-- The stream that the client opens, or its ping. -/
def requestOf : SpdyWireFrame → Option (UInt32 ⊕ UInt32)
  | .synStream streamId _ => some (.inl streamId)
  | .ping id => some (.inr id)
  | _ => none

/-- The streams that the client has opened. -/
def synIds (handled : List SpdyWireFrame) : List UInt32 :=
  handled.filterMap fun
    | .synStream streamId _ => some streamId
    | _ => none

/-- The requests are answered in order with nothing between, and each kind of stream is one that the
client has opened; kinds only share a stream if the client has opened it twice. -/
structure Answered (s : SpdySession D E) : Prop where
  replies : s.written.map answerOf = (s.handled.filterMap requestOf).map some
  opened : ∀ kind streamId, s.streamMap.lookup kind = some streamId → streamId ∈ synIds s.handled
  apart : (synIds s.handled).Nodup → ∀ kind kind' streamId, s.streamMap.lookup kind = some streamId →
    s.streamMap.lookup kind' = some streamId → kind = kind'

section Lemmas
variable {codec} {s t : SpdySession D E} {frame : SpdyWireFrame} {kind kind' : SpdyStreamKind} {streamId : UInt32}
  {containerId : Option String} {query : ExecQuery} {reads : List (Option SpdyWireFrame)}

@[simp] theorem written_write : (s.write frame).written = s.written ++ [frame] := rfl

@[simp] theorem streamMap_write : (s.write frame).streamMap = s.streamMap := rfl

@[simp] theorem handled_write : (s.write frame).handled = s.handled := rfl

@[simp] theorem synIds_concat (handled : List SpdyWireFrame) :
    synIds (handled ++ [frame]) = synIds handled ++ synIds [frame] := by
  simp [synIds]

variable (frame) in
/-- A frame that opens no stream leaves the streams as they are. -/
theorem Answered.pass (h : s.Answered) (hsyn : synIds [frame] = []) (hwritten : t.written.map answerOf =
      s.written.map answerOf ++ (requestOf frame).toList.map some)
    (hmap : t.streamMap = s.streamMap) (hhandled : t.handled = s.handled ++ [frame]) : t.Answered := by
  have hids : synIds t.handled = synIds s.handled := by rw [hhandled,synIds_concat,hsyn,List.append_nil]
  constructor
  · rw [hwritten,hhandled,h.replies,List.filterMap_append,List.map_append]
    cases hrequest : requestOf frame <;> simp [hrequest]
  · rw [hmap,hids]
    exact h.opened
  · rw [hmap,hids]
    exact h.apart

/-- What opening a stream does to the streams and to what is written. -/
theorem openStream_some {rawNv : List UInt8} (h : s.openStream codec streamId rawNv = some t) :
    t.handled = s.handled ∧ (∃ reply, t.written = s.written ++ [.synReply streamId reply]) ∧
      ∃ kind, t.streamMap = withStream s.streamMap streamId kind := by
  obtain ⟨decoded,-,rfl⟩ := Option.map_eq_some_iff.mp h
  exact ⟨rfl,⟨_,rfl⟩,⟨_,rfl⟩⟩

theorem lookup_withStream {streamMap : HashMap SpdyStreamKind UInt32} {kind? : Option SpdyStreamKind} {id : UInt32}
    (h : (withStream streamMap streamId kind?).lookup kind = some id) :
    kind? = some kind ∧ id = streamId ∨ kind? ≠ some kind ∧ streamMap.lookup kind = some id := by
  cases kind? with
  | none => exact .inr ⟨by simp,h⟩
  | some k =>
    by_cases heq : kind = k
    · subst heq
      simp only [withStream,AList.lookup_insert,Option.some.injEq] at h
      exact .inl ⟨rfl,h.symm⟩
    · simp only [withStream,AList.lookup_insert_ne heq] at h
      exact .inr ⟨by simpa using Ne.symm heq,h⟩

theorem Answered.openStream (h : s.Answered) {rawNv : List UInt8}
    (ht : ({ s with errorOnlyTimeouts := 0, handled := s.handled ++ [.synStream streamId rawNv] } : SpdySession D E).openStream
      codec streamId rawNv = some t) : t.Answered := by
  obtain ⟨hhandled,⟨reply,hwritten⟩,kind?,hmap⟩ := openStream_some ht
  dsimp only at hhandled hwritten hmap
  have hids : synIds t.handled = synIds s.handled ++ [streamId] := by rw [hhandled,synIds_concat]; rfl
  constructor
  · simp [hwritten,hhandled,h.replies,answerOf,requestOf]
  · intro kind id hlookup
    rw [hmap] at hlookup
    rw [hids,List.mem_append,List.mem_singleton]
    rcases lookup_withStream hlookup with ⟨-,rfl⟩ | ⟨-,hold⟩
    · exact .inr rfl
    · exact .inl (h.opened kind id hold)
  · intro hnodup kind₁ kind₂ id h₁ h₂
    rw [hmap] at h₁ h₂
    rw [hids] at hnodup
    obtain ⟨hold,-,hfresh⟩ := List.nodup_append.mp hnodup
    -- the new stream is none of those opened before
    have hnew (kind : SpdyStreamKind) : s.streamMap.lookup kind ≠ some streamId := fun hin =>
      hfresh streamId (h.opened kind streamId hin) streamId List.mem_cons_self rfl
    rcases lookup_withStream h₁ with ⟨hk₁,rfl⟩ | ⟨-,h₁'⟩ <;> rcases lookup_withStream h₂ with ⟨hk₂,h₂'⟩ | ⟨-,h₂'⟩
    · exact Option.some.inj (hk₁.symm.trans hk₂)
    · exact absurd h₂' (hnew kind₂)
    · subst h₂'
      exact absurd h₁' (hnew kind₁)
    · exact h.apart hold kind₁ kind₂ id h₁' h₂'

variable (codec containerId streamId s) in
theorem resizeTty_same (payload : List UInt8) : (s.resizeTty codec containerId streamId payload).written = s.written ∧
    (s.resizeTty codec containerId streamId payload).streamMap = s.streamMap ∧
    (s.resizeTty codec containerId streamId payload).handled = s.handled := by
  simp only [resizeTty]
  split
  · split <;> exact ⟨rfl,rfl,rfl⟩
  · exact ⟨rfl,rfl,rfl⟩

theorem Answered.handle (h : s.Answered)
    (ht : ({ s with errorOnlyTimeouts := 0, handled := s.handled ++ [frame] } : SpdySession D E).handle codec containerId frame =
      .next t ∨ ({ s with errorOnlyTimeouts := 0, handled := s.handled ++ [frame] } : SpdySession D E).handle codec containerId
        frame = .closed t) : t.Answered := by
  cases frame with
  | synStream streamId rawNv =>
    simp only [SpdySession.handle] at ht
    split at ht
    · next u hu =>
      simp only [AfterRead.next.injEq,reduceCtorEq,or_false] at ht
      subst ht
      exact h.openStream hu
    · simp at ht
  | synReply streamId rawNv =>
    simp only [SpdySession.handle,AfterRead.next.injEq,reduceCtorEq,or_false] at ht
    subst ht
    exact h.pass (.synReply streamId rawNv) rfl (by simp [requestOf]) rfl rfl
  | data streamId flags payload =>
    simp only [SpdySession.handle,AfterRead.next.injEq,reduceCtorEq,or_false] at ht
    subst ht
    obtain ⟨hwritten,hmap,hhandled⟩ := resizeTty_same codec
      ({ s with errorOnlyTimeouts := 0, handled := s.handled ++ [.data streamId flags payload] } : SpdySession D E) streamId containerId payload
    exact h.pass (.data streamId flags payload) rfl (by simp [hwritten,requestOf]) hmap hhandled
  | rstStream streamId statusCode =>
    simp only [SpdySession.handle,AfterRead.closed.injEq,reduceCtorEq,false_or] at ht
    subst ht
    exact h.pass (.rstStream streamId statusCode) rfl (by simp [requestOf]) rfl rfl
  | ping id =>
    simp only [SpdySession.handle,AfterRead.next.injEq,reduceCtorEq,or_false] at ht
    subst ht
    exact h.pass (.ping id) rfl (by simp [requestOf,answerOf]) rfl rfl
  | goAway lastGoodStreamId statusCode =>
    simp only [SpdySession.handle,AfterRead.closed.injEq,reduceCtorEq,false_or] at ht
    subst ht
    exact h.pass (.goAway lastGoodStreamId statusCode) rfl (by simp [requestOf]) rfl rfl

theorem Answered.onRead (h : s.Answered) {read : Option SpdyWireFrame}
    (ht : s.onRead codec containerId read = .next t ∨ s.onRead codec containerId read = .closed t) : t.Answered := by
  cases read with
  | some frame => exact h.handle ht
  | none =>
    simp only [SpdySession.onRead] at ht
    split at ht <;> simp only [AfterRead.next.injEq,AfterRead.closed.injEq,reduceCtorEq,or_false,false_or] at ht <;> subst ht
    · exact ⟨h.replies,h.opened,h.apart⟩
    · exact h

theorem Answered.negotiate (h : s.Answered) (ht : negotiate codec query containerId s reads = .closed t) : t.Answered := by
  induction reads generalizing s with
  | nil =>
    simp only [SpdySession.negotiate] at ht
    split at ht
    · cases ht
    · obtain rfl := AfterRead.closed.inj ht
      exact h
  | cons read reads ih =>
    simp only [SpdySession.negotiate] at ht
    split at ht
    · split at ht
      · next u hu => exact ih (h.onRead (.inl hu)) ht
      · next u hu =>
        obtain rfl := AfterRead.closed.inj ht
        exact h.onRead (.inr hu)
      · cases ht
    · obtain rfl := AfterRead.closed.inj ht
      exact h

/-- A read adds the frame that it gives to those that were handled. -/
theorem handled_onRead {read : Option SpdyWireFrame}
    (ht : s.onRead codec containerId read = .next t ∨ s.onRead codec containerId read = .closed t) :
    t.handled = s.handled ++ read.toList := by
  cases read with
  | none =>
    simp only [SpdySession.onRead] at ht
    split at ht <;> simp only [AfterRead.next.injEq,AfterRead.closed.injEq,reduceCtorEq,or_false,false_or] at ht <;> subst ht
    · simp
    · simp
  | some frame =>
    simp only [SpdySession.onRead] at ht
    cases frame with
    | synStream streamId rawNv =>
      simp only [SpdySession.handle] at ht
      split at ht
      · next u hu =>
        simp only [AfterRead.next.injEq,reduceCtorEq,or_false] at ht
        subst ht
        exact (openStream_some hu).1
      · simp at ht
    | data streamId flags payload =>
      simp only [SpdySession.handle,AfterRead.next.injEq,reduceCtorEq,or_false] at ht
      subst ht
      exact (resizeTty_same codec _ streamId containerId payload).2.2
    | _ =>
      simp only [SpdySession.handle,AfterRead.next.injEq,AfterRead.closed.injEq,reduceCtorEq,or_false,false_or] at ht
      subst ht
      rfl

/-- The frames handled are those of the reads up to the end of the loop. -/
theorem handled_negotiate (ht : SpdySession.negotiate codec query containerId s reads = .closed t) :
    ∃ n, t.handled = s.handled ++ (reads.take n).reduceOption := by
  induction reads generalizing s with
  | nil =>
    simp only [SpdySession.negotiate] at ht
    split at ht
    · cases ht
    · obtain rfl := AfterRead.closed.inj ht
      exact ⟨0,by simp⟩
  | cons read reads ih =>
    have hread (u : SpdySession D E) (hu : u.handled = s.handled ++ read.toList) (n : ℕ) :
        u.handled ++ (reads.take n).reduceOption = s.handled ++ ((read :: reads).take (n + 1)).reduceOption := by
      rw [hu,List.append_assoc,List.take_succ_cons]
      cases read <;> simp [List.reduceOption]
    simp only [SpdySession.negotiate] at ht
    split at ht
    · split at ht
      · next u hu =>
        obtain ⟨n,hn⟩ := ih ht
        exact ⟨n + 1,hn.trans (hread u (handled_onRead (.inl hu)) n)⟩
      · next u hu =>
        obtain rfl := AfterRead.closed.inj ht
        have hlast := hread u (handled_onRead (.inr hu)) 0
        simp only [List.take_zero,List.reduceOption_nil,List.append_nil] at hlast
        exact ⟨1,hlast⟩
      · cases ht
    · obtain rfl := AfterRead.closed.inj ht
      exact ⟨0,by simp⟩

theorem answered_start (d : D) (e : E) : (start d e).Answered where
  replies := rfl
  opened kind streamId h := by simp [start] at h
  apart _ kind kind' streamId h := by simp [start] at h

end Lemmas

/-! ## The conversation -/

/-- The last frame on a stream, with its payload. -/
def lastOn (streamId : UInt32) (payload : List UInt8) : SpdyWireFrame := .data streamId 0x01 payload

/-- What the server may write to a client: an answer to each request in order, then at most one
frame for a stream of the client, which ends it, and the farewell. -/
def Conversation (handled written : List SpdyWireFrame) : Prop :=
  ∃ (answers : List SpdyWireFrame) (outputs : List (UInt32 × List UInt8)),
    written = answers ++ outputs.map (fun o => lastOn o.1 o.2) ++ [goodbye] ∧
      answers.map answerOf = (handled.filterMap requestOf).map some ∧
      (∀ o ∈ outputs, o.1 ∈ synIds handled) ∧
      ((synIds handled).Nodup → (outputs.map Prod.fst).Nodup)

/-- The output for a stream, if the client has opened it. -/
def outputFor (s : SpdySession D E) (kind : SpdyStreamKind) (payload : List UInt8) : List (UInt32 × List UInt8) :=
  ((s.streamMap.lookup kind).map fun streamId => (streamId,payload)).toList

/-- What is sent at the end, stream by stream. -/
def outputs (s : SpdySession D E) (run : Except (ℕ × String) ExecResult) : List (UInt32 × List UInt8) :=
  if s.has .stdout then
    match run with
    | .ok result =>
      (if result.stdout.isEmpty then [] else s.outputFor .stdout result.stdout) ++
        (if result.stderr.isEmpty then [] else s.outputFor .stderr result.stderr) ++
        s.outputFor .error (codec.toText (exitStatusPayload result.exitCode))
    | .error (status,message) => s.outputFor .error (codec.toText (failureStatusPayload message status))
  else s.outputFor .error (codec.toText (failureStatusPayload "SPDY stream negotiation incomplete: stdout channel not opened" 500))

section Conclusion
variable {codec} {s t : SpdySession D E} {kind kind' : SpdyStreamKind} {payload payload' : List UInt8}
  {containerId : Option String} {query : ExecQuery} {reads : List (Option SpdyWireFrame)}

theorem dataOn_written : (s.dataOn kind payload).written =
    s.written ++ (s.outputFor kind payload).map (fun o => lastOn o.1 o.2) := by
  simp only [dataOn,outputFor]
  split
  · next streamId hstream => simp [hstream,lastOn]
  · next hstream => simp [hstream]

@[simp] theorem dataOn_streamMap : (s.dataOn kind payload).streamMap = s.streamMap := by
  simp only [dataOn]
  split <;> rfl

/-- The streams do not change any more, so each output goes where the loop has left its stream. -/
@[simp] theorem outputFor_dataOn : (s.dataOn kind payload).outputFor kind' payload' = s.outputFor kind' payload' := by
  simp only [outputFor,dataOn_streamMap]

theorem conclude_written (s : SpdySession D E) (run : Except (ℕ × String) ExecResult) :
    (s.conclude codec run).written = s.written ++ (s.outputs codec run).map (fun o => lastOn o.1 o.2) ++ [goodbye] := by
  simp only [conclude,outputs]
  split
  · cases run with
    | ok result =>
      simp only [sendExecResultSpdy,written_write,dataOn_written]
      by_cases hout : result.stdout.isEmpty = true <;> by_cases herr : result.stderr.isEmpty = true <;>
        simp [hout,herr,dataOn_written]
    | error e =>
      obtain ⟨status,message⟩ := e
      simp [dataOn_written]
  · simp [dataOn_written]

theorem mem_outputFor {o : UInt32 × List UInt8} (h : o ∈ s.outputFor kind payload) :
    s.streamMap.lookup kind = some o.1 ∧ o.2 = payload := by
  simp only [outputFor,Option.mem_toList,Option.map_eq_some_iff] at h
  obtain ⟨streamId,hstream,rfl⟩ := h
  exact ⟨hstream,rfl⟩

theorem nodup_outputFor : ((s.outputFor kind payload).map Prod.fst).Nodup := by
  simp only [outputFor]
  cases s.streamMap.lookup kind <;> simp

/-- Outputs of different kinds are for different streams. -/
theorem disjoint_outputFor (h : s.Answered) (hnodup : (synIds s.handled).Nodup) (hne : kind ≠ kind') :
    ((s.outputFor kind payload).map Prod.fst).Disjoint ((s.outputFor kind' payload').map Prod.fst) := by
  intro streamId hin hin'
  obtain ⟨o,ho,rfl⟩ := List.mem_map.mp hin
  obtain ⟨o',ho',heq⟩ := List.mem_map.mp hin'
  have hstream := (mem_outputFor ho).1
  have hstream' := (mem_outputFor ho').1
  rw [heq] at hstream'
  exact hne (h.apart hnodup kind kind' o.1 hstream hstream')

theorem mem_outputs {run : Except (ℕ × String) ExecResult} {o : UInt32 × List UInt8} (h : o ∈ s.outputs codec run) :
    ∃ kind, s.streamMap.lookup kind = some o.1 := by
  simp only [outputs] at h
  split at h
  · cases run with
    | ok result =>
      simp only [List.mem_append] at h
      rcases h with (h | h) | h
      · split at h
        · cases h
        · exact ⟨.stdout,(mem_outputFor h).1⟩
      · split at h
        · cases h
        · exact ⟨.stderr,(mem_outputFor h).1⟩
      · exact ⟨.error,(mem_outputFor h).1⟩
    | error e => exact ⟨.error,(mem_outputFor h).1⟩
  · exact ⟨.error,(mem_outputFor h).1⟩

/-- The outputs of a run, empty ones included. -/
theorem nodup_allOutputs (h : s.Answered) (hnodup : (synIds s.handled).Nodup) (out err status : List UInt8) :
    ((s.outputFor .stdout out ++ s.outputFor .stderr err ++ s.outputFor .error status).map Prod.fst).Nodup := by
  have hkinds : SpdyStreamKind.stdout ≠ .stderr ∧ SpdyStreamKind.stdout ≠ .error ∧ SpdyStreamKind.stderr ≠ .error := by decide
  simp only [List.map_append,List.nodup_append',nodup_outputFor,true_and,List.disjoint_append_left]
  exact ⟨disjoint_outputFor h hnodup hkinds.1,disjoint_outputFor h hnodup hkinds.2.1,disjoint_outputFor h hnodup hkinds.2.2⟩

theorem nodup_outputs (h : s.Answered) (hnodup : (synIds s.handled).Nodup) (run : Except (ℕ × String) ExecResult) :
    ((s.outputs codec run).map Prod.fst).Nodup := by
  simp only [outputs]
  split
  · cases run with
    | ok result =>
      have hout : (if result.stdout.isEmpty then [] else s.outputFor .stdout result.stdout).Sublist
          (s.outputFor .stdout result.stdout) := by split <;> simp
      have herr : (if result.stderr.isEmpty then [] else s.outputFor .stderr result.stderr).Sublist
          (s.outputFor .stderr result.stderr) := by split <;> simp
      have hall := nodup_allOutputs h hnodup result.stdout result.stderr (codec.toText (exitStatusPayload result.exitCode))
      exact hall.sublist (((hout.append herr).append (.refl _)).map _)
    | error e => exact nodup_outputFor
  · exact nodup_outputFor

/-- Whatever the client sends: every stream it opens and every ping is answered, in order, as long as
its frames are read, that is, until the negotiation ends; each output, the status among them, is the
last frame on a stream of the client, no stream that it opened once gets two; and the farewell comes
last. -/
theorem conversation (d : D) (e : E) (h : negotiate codec query containerId (start d e) reads = .closed s)
    (run : Except (ℕ × String) ExecResult) :
    (∃ n, s.handled = (reads.take n).reduceOption) ∧ Conversation s.handled (s.conclude codec run).written := by
  have hs : s.Answered := (answered_start d e).negotiate h
  have hread : ∃ n, s.handled = (reads.take n).reduceOption := handled_negotiate h
  refine ⟨hread,s.written,s.outputs codec run,conclude_written s run,hs.replies,fun o ho => ?_,fun hnodup => nodup_outputs hs hnodup run⟩
  obtain ⟨kind,hkind⟩ := mem_outputs ho
  exact hs.opened kind o.1 hkind

/-! ## A client that falls silent -/

/-- How many seconds `n` reads without a frame take, as far as the loop performs them. -/
def silence (codec : SessionCodec D E) (query : ExecQuery) (containerId : Option String) : SpdySession D E → ℕ → ℕ
  | _, 0 => 0
  | s, n + 1 =>
    if s.negotiating query then
      match s.onRead codec containerId none with
      | .next t => s.readTimeout + silence codec query containerId t n
      | _ => s.readTimeout
    else 0

/-- Only sessions with nothing but the error stream go on after a read without a frame. -/
theorem onRead_none_next (h : s.onRead codec containerId none = .next t) :
    s.onlyErrorStream = true ∧ s.errorOnlyTimeouts < 2 ∧ t = { s with errorOnlyTimeouts := s.errorOnlyTimeouts + 1 } := by
  simp only [onRead] at h
  split at h
  · next hmore =>
    obtain ⟨honly,htimeouts⟩ := (Bool.and_eq_true _ _).mp hmore
    exact ⟨honly,of_decide_eq_true htimeouts,(AfterRead.next.inj h).symm⟩
  · cases h

variable (codec containerId s) in
theorem onRead_none_cases : (∃ t, s.onRead codec containerId none = .next t) ∨ s.onRead codec containerId none = .closed s := by
  simp only [onRead]
  split
  · exact .inl ⟨_,rfl⟩
  · exact .inr rfl

variable (codec query containerId s) in
theorem silence_le (n : ℕ) : silence codec query containerId s n ≤
    if s.onlyErrorStream then 8 + 8 * (2 - s.errorOnlyTimeouts) else 10 := by
  induction n generalizing s with
  | zero => simp [silence]
  | succ n ih =>
    simp only [silence]
    split
    · rcases onRead_none_cases codec s containerId with ⟨t,ht⟩ | hclosed
      · obtain ⟨honly,htimeouts,rfl⟩ := onRead_none_next ht
        have hrest := ih (s := { s with errorOnlyTimeouts := s.errorOnlyTimeouts + 1 })
        have honly' : onlyErrorStream { s with errorOnlyTimeouts := s.errorOnlyTimeouts + 1 } = true := honly
        simp only [ht,honly,honly',readTimeout,if_true] at hrest ⊢
        omega
      · simp only [hclosed,readTimeout]
        split <;> omega
    · exact Nat.zero_le _

variable (codec query containerId s) in
theorem closed_of_silence (n : ℕ) (h : 2 ≤ n + s.errorOnlyTimeouts) : ∃ t : SpdySession D E,
    (∀ rest, negotiate codec query containerId s (List.replicate (n + 1) none ++ rest) = .closed t) ∧
      t.written = s.written ∧ t.streamMap = s.streamMap := by
  induction n generalizing s with
  | zero =>
    refine ⟨s,fun rest => ?_,rfl,rfl⟩
    rcases onRead_none_cases codec s containerId with ⟨t,ht⟩ | hclosed
    · obtain ⟨-,htimeouts,-⟩ := onRead_none_next ht
      omega
    · simp [negotiate,hclosed]
  | succ n ih =>
    by_cases hmore : s.negotiating query = true
    · rcases onRead_none_cases codec s containerId with ⟨t,ht⟩ | hclosed
      · obtain ⟨-,-,rfl⟩ := onRead_none_next ht
        obtain ⟨t,hnegotiate,hwritten,hmap⟩ := ih (s := { s with errorOnlyTimeouts := s.errorOnlyTimeouts + 1 })
          (by dsimp only; omega)
        refine ⟨t,fun rest => ?_,hwritten,hmap⟩
        rw [List.replicate_succ,List.cons_append,negotiate,if_pos hmore,ht]
        exact hnegotiate rest
      · exact ⟨s,fun rest => by rw [List.replicate_succ,List.cons_append,negotiate,if_pos hmore,hclosed],rfl,rfl⟩
    · exact ⟨s,fun rest => by rw [List.replicate_succ,List.cons_append,negotiate,if_neg hmore],rfl,rfl⟩

variable (codec query containerId) in
/-- Wherever a session has got to: after three reads without a frame it is over, within 24 seconds
and so before the 30 seconds that the API server waits for a stream; it has said nothing since, and
without a stream for the output the error stream is told so. -/
theorem ends_in_silence (s : SpdySession D E) : silence codec query containerId s 3 ≤ 24 ∧ ∃ t : SpdySession D E,
    (∀ rest, negotiate codec query containerId s (List.replicate 3 none ++ rest) = .closed t) ∧ t.written = s.written ∧
      (s.has .stdout = false → ∀ run, (t.conclude codec run).written = s.written ++
        (s.outputFor .error (codec.toText (failureStatusPayload
          "SPDY stream negotiation incomplete: stdout channel not opened" 500))).map (fun o => lastOn o.1 o.2) ++ [goodbye]) := by
  constructor
  · have hsilence := silence_le codec s containerId query 3
    split at hsilence <;> omega
  · obtain ⟨t,hclosed,hwritten,hmap⟩ := closed_of_silence codec s containerId query 2 (by omega)
    refine ⟨t,hclosed,hwritten,fun hstdout run => ?_⟩
    have hhas : t.has .stdout = false := by simpa [has,hmap] using hstdout
    rw [conclude_written,hwritten]
    simp [outputs,hhas,outputFor,hmap]

end Conclusion

/-! ## A session of kubectl -/

/-- A codec whose blocks name the kind of the stream by one byte. -/
def plainCodec : SessionCodec ℕ ℕ where
  decode n rawNv :=
    let kind := if rawNv = [0] then "error" else if rawNv = [1] then "stdout" else "stderr"
    some ((∅ : HashMap String String).insert "streamtype" kind,n + 1)
  encode n _ := ([],n + 1)
  fromStr _ := none
  toText _ := [0x7b,0x7d]

def ended {S : Type} : AfterRead S → Option S
  | .closed s => some s
  | _ => none

theorem closed_of_ended {S : Type} {r : AfterRead S} {s : S} (h : ended r = some s) : r = .closed s := by
  cases r with
  | closed t => exact congrArg _ (Option.some.inj h)
  | next t => cases h
  | panicked => cases h

/-- The three streams of a command, and a ping between them. -/
def kubectlReads : List (Option SpdyWireFrame) :=
  [some (.synStream 1 [0]),none,some (.ping 2),some (.synStream 3 [1]),some (.synStream 5 [2])]

theorem conversation_kubectl : ∃ s : SpdySession ℕ ℕ,
    negotiate plainCodec {} (some "container") (start 0 0) kubectlReads = .closed s ∧ (synIds s.handled).Nodup ∧
      (∃ n, s.handled = (kubectlReads.take n).reduceOption) ∧
      Conversation s.handled (s.conclude plainCodec (.ok { stdout := [65], stderr := [66] })).written := by
  have hexec : (ended (negotiate plainCodec {} (some "container") (start 0 0) kubectlReads)).map
      (fun s => decide ((synIds s.handled).Nodup)) = some true := by
    decide +kernel
  obtain ⟨s,hs,hids⟩ := Option.map_eq_some_iff.mp hexec
  exact ⟨s,closed_of_ended hs,of_decide_eq_true hids,conversation 0 0 (closed_of_ended hs) _⟩

end SpdySession
end KubeAir.Streaming
