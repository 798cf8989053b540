import KubeAir.Streaming.SpdySession

/-! # What arrives at the client

The client reads the frames of the server from one stream of bytes and sorts their payloads by
stream. What it finds on a stream is what the command has written there.
-/
namespace KubeAir.Streaming
open Core Exec Wire

/-- Reading frames that fit their length field gives them back. -/
theorem readAll_written {frames : List SpdyWireFrame} (h : ∀ f ∈ frames, f.written = true ∧ f.payloadLength < 2 ^ 24) :
    spdyFormat.readAll (frames.flatMap writeSpdyWireFrame) = frames.map (·.onWire) := by
  induction frames with
  | nil => exact Format.readAll_of_none (Format.read_of_none (Format.readFrame_nil spdyFormat))
  | cons f frames ih =>
    obtain ⟨hwritten,hfits⟩ := h f List.mem_cons_self
    have hread : spdyFormat.read (writeSpdyWireFrame f ++ frames.flatMap writeSpdyWireFrame) = some (f.onWire,frames.flatMap writeSpdyWireFrame) :=
      read_write hwritten hfits
    rw [List.flatMap_cons,Format.readAll_of_read hread,ih (fun g hg => h g (List.mem_cons_of_mem f hg)),List.map_cons]

namespace SpdySession
variable {D E : Type} (codec : SessionCodec D E)

/-- The payload of a frame for a stream. -/
def payloadOn (streamId : UInt32) : SpdyWireFrame → List UInt8
  | .data id _ payload => if id = streamId then payload else []
  | _ => []

/-- Everything that the client reads on a stream. -/
def delivered (streamId : UInt32) (bytes : List UInt8) : List UInt8 := (spdyFormat.readAll bytes).flatMap (payloadOn streamId)

def bytesOf (s : SpdySession D E) : List UInt8 := s.written.flatMap writeSpdyWireFrame

section Lemmas
variable {codec} {s : SpdySession D E} {frame : SpdyWireFrame} {streamId : UInt32} {kind : SpdyStreamKind} {payload : List UInt8}

variable (streamId) in
theorem payloadOn_answer {request : UInt32 ⊕ UInt32} (h : answerOf frame = some request) :
    frame.written = true ∧ payloadOn streamId frame.onWire = [] := by
  cases frame with
  | synReply id rawNv => exact ⟨rfl,rfl⟩
  | ping id => exact ⟨rfl,rfl⟩
  | _ => cases h

/-- Answers carry no output. -/
theorem Answered.answers (h : s.Answered) : ∀ f ∈ s.written, ∃ request, answerOf f = some request := by
  intro f hf
  have hmem : answerOf f ∈ (s.handled.filterMap requestOf).map some := h.replies ▸ List.mem_map_of_mem hf
  obtain ⟨request,-,hrequest⟩ := List.mem_map.mp hmem
  exact ⟨request,hrequest.symm⟩

theorem payloadOn_lastOn {id : UInt32} (hid : id &&& 0x7fffffff = id) :
    payloadOn streamId (lastOn id payload).onWire = if id = streamId then payload else [] := by
  simp [lastOn,SpdyWireFrame.onWire,payloadOn,hid]

/-- The output of a kind, as it is found on a stream. -/
theorem flatMap_outputFor : (s.outputFor kind payload).flatMap (fun o => if o.1 = streamId then o.2 else []) =
    if s.streamMap.lookup kind = some streamId then payload else [] := by
  simp only [outputFor]
  cases s.streamMap.lookup kind with
  | none => simp
  | some id => simp

/-- Empty output needs no frame. -/
theorem flatMap_unlessEmpty :
    (if payload.isEmpty then [] else s.outputFor kind payload).flatMap (fun o => if o.1 = streamId then o.2 else []) =
      if s.streamMap.lookup kind = some streamId then payload else [] := by
  cases payload with
  | nil => simp
  | cons b payload => exact flatMap_outputFor

theorem flatMap_outputs {result : ExecResult} (hstdout : s.has .stdout = true) :
    (s.outputs codec (.ok result)).flatMap (fun o => if o.1 = streamId then o.2 else []) =
      (if s.streamMap.lookup .stdout = some streamId then result.stdout else []) ++
        (if s.streamMap.lookup .stderr = some streamId then result.stderr else []) ++
        (if s.streamMap.lookup .error = some streamId then codec.toText (exitStatusPayload result.exitCode) else []) := by
  simp only [outputs,hstdout,if_true,List.flatMap_append,flatMap_unlessEmpty,flatMap_outputFor]

end Lemmas

/-- What the frames of a session must keep to for the client to read them: stream IDs as the wire
has them, and payloads that fit their length field. -/
structure Readable (s : SpdySession D E) (result : ExecResult) : Prop where
  ids : ∀ streamId ∈ synIds s.handled, streamId &&& 0x7fffffff = streamId
  answers : ∀ f ∈ s.written, f.payloadLength < 2 ^ 24
  stdout : result.stdout.length < 2 ^ 24
  stderr : result.stderr.length < 2 ^ 24
  status : (codec.toText (exitStatusPayload result.exitCode)).length < 2 ^ 24

/-- The same for a session that ends with any run of the command. -/
structure Legible (s : SpdySession D E) (run : Except (ℕ × String) ExecResult) : Prop where
  ids : ∀ streamId ∈ synIds s.handled, streamId &&& 0x7fffffff = streamId
  answers : ∀ f ∈ s.written, f.payloadLength < 2 ^ 24
  outputs : ∀ o ∈ s.outputs codec run, o.2.length < 2 ^ 24

section Delivery
variable {codec} {s : SpdySession D E} {run : Except (ℕ × String) ExecResult} {result : ExecResult} {containerId : Option String}
  {query : ExecQuery} {reads : List (Option SpdyWireFrame)}

theorem Readable.legible (h : Readable codec s result) (hstdout : s.has .stdout = true) : Legible codec s (.ok result) where
  ids := h.ids
  answers := h.answers
  outputs o ho := by
    simp only [SpdySession.outputs,hstdout,if_true,List.mem_append] at ho
    rcases ho with (ho | ho) | ho
    · split at ho
      · cases ho
      · exact (mem_outputFor ho).2 ▸ h.stdout
    · split at ho
      · cases ho
      · exact (mem_outputFor ho).2 ▸ h.stderr
    · exact (mem_outputFor ho).2 ▸ h.status

/-- The client reads all frames of the session. -/
theorem readAll_conclude (hs : s.Answered) (h : Legible codec s run) :
    spdyFormat.readAll (s.conclude codec run).bytesOf = (s.conclude codec run).written.map (·.onWire) := by
  refine readAll_written (fun f hf => ?_)
  rw [conclude_written,List.mem_append,List.mem_append,List.mem_singleton] at hf
  rcases hf with (hf | hf) | rfl
  · obtain ⟨request,hrequest⟩ := hs.answers f hf
    exact ⟨(payloadOn_answer 0 hrequest).1,h.answers f hf⟩
  · obtain ⟨o,ho,rfl⟩ := List.mem_map.mp hf
    exact ⟨rfl,h.outputs o ho⟩
  · exact ⟨rfl,by simp [goodbye,SpdyWireFrame.payloadLength]⟩

/-- On a stream arrive the outputs for it. -/
theorem delivered_conclude (hs : s.Answered) (h : Legible codec s run) (streamId : UInt32) :
    delivered streamId (s.conclude codec run).bytesOf =
      (s.outputs codec run).flatMap (fun o => if o.1 = streamId then o.2 else []) := by
  have hanswers : s.written.flatMap (fun f => payloadOn streamId f.onWire) = [] := by
    refine List.flatMap_eq_nil_iff.mpr (fun f hf => ?_)
    obtain ⟨request,hrequest⟩ := hs.answers f hf
    exact (payloadOn_answer streamId hrequest).2
  have houtputs : ((s.outputs codec run).map (fun o => lastOn o.1 o.2)).flatMap (fun f => payloadOn streamId f.onWire) =
      (s.outputs codec run).flatMap (fun o => if o.1 = streamId then o.2 else []) := by
    rw [List.flatMap_map]
    refine List.flatMap_congr (fun o ho => ?_)
    obtain ⟨kind,hkind⟩ := mem_outputs ho
    exact payloadOn_lastOn (h.ids o.1 (hs.opened kind o.1 hkind))
  rw [delivered,readAll_conclude hs h,conclude_written,List.flatMap_map,List.flatMap_append,List.flatMap_append,hanswers,houtputs]
  simp [goodbye,SpdyWireFrame.onWire,payloadOn]

end Delivery

/-- A client that opens no stream twice reads on its output stream what the command has written
there, the same for its error output, on the error stream the status, and nothing on any other. -/
theorem output_delivered {s : SpdySession D E} {result : ExecResult} {containerId : Option String} {query : ExecQuery}
    {reads : List (Option SpdyWireFrame)} (d : D) (e : E)
    (hclosed : negotiate codec query containerId (start d e) reads = .closed s) (hnodup : (synIds s.handled).Nodup)
    (h : Readable codec s result) {out : UInt32} (hstdout : s.streamMap.lookup .stdout = some out) (streamId : UInt32) :
    delivered streamId (s.conclude codec (.ok result)).bytesOf =
      if streamId = out then result.stdout
      else if s.streamMap.lookup .stderr = some streamId then result.stderr
      else if s.streamMap.lookup .error = some streamId then codec.toText (exitStatusPayload result.exitCode)
      else [] := by
  have hs : s.Answered := (answered_start d e).negotiate hclosed
  have hhas : s.has .stdout = true := by simp [has,hstdout]
  have hapart := hs.apart hnodup
  rw [delivered_conclude hs (h.legible hhas),flatMap_outputs hhas,hstdout]
  by_cases hout : streamId = out
  · subst hout
    have herr : s.streamMap.lookup .stderr ≠ some streamId := fun hin => by cases hapart _ _ _ hin hstdout
    have herror : s.streamMap.lookup .error ≠ some streamId := fun hin => by cases hapart _ _ _ hin hstdout
    simp [herr,herror]
  · have hne : out ≠ streamId := Ne.symm hout
    by_cases herr : s.streamMap.lookup .stderr = some streamId
    · have herror : s.streamMap.lookup .error ≠ some streamId := fun hin => by cases hapart _ _ _ hin herr
      simp [hout,hne,herr,herror]
    · simp [hout,hne,herr]

/-- A command that fails, with output of both kinds. -/
def failed : ExecResult := { stdout := [65,66], stderr := [67], exitCode := 2 }

/-- The client reads what kubectl's session is sent. -/
theorem readable_kubectl : ∃ s : SpdySession ℕ ℕ,
    negotiate plainCodec {} (some "container") (start 0 0) kubectlReads = .closed s ∧ (synIds s.handled).Nodup ∧
      s.streamMap.lookup .stdout = some 3 ∧ Readable plainCodec s failed := by
  have hexec : (ended (negotiate plainCodec {} (some "container") (start 0 0) kubectlReads)).map (fun s =>
      decide ((synIds s.handled).Nodup ∧ s.streamMap.lookup .stdout = some 3 ∧
        (synIds s.handled).all (fun streamId => streamId &&& 0x7fffffff = streamId) = true ∧
        s.written.all (fun f => f.payloadLength < 16) = true)) =
      some true := by
    decide +kernel
  obtain ⟨s,hs,hchecked⟩ := Option.map_eq_some_iff.mp hexec
  obtain ⟨hnodup,hstdout,hids,hanswers⟩ := of_decide_eq_true hchecked
  simp only [List.all_eq_true,decide_eq_true_eq] at hids hanswers
  exact ⟨s,closed_of_ended hs,hnodup,hstdout,hids,fun f hf => lt_trans (hanswers f hf) (by omega),by simp [failed],by simp [failed],
    by simp [plainCodec]⟩

theorem output_delivered_kubectl : ∃ s : SpdySession ℕ ℕ,
    negotiate plainCodec {} (some "container") (start 0 0) kubectlReads = .closed s ∧ s.streamMap.lookup .stdout = some 3 ∧
      ∀ streamId, delivered streamId (s.conclude plainCodec (.ok failed)).bytesOf =
        if streamId = 3 then [65,66]
        else if s.streamMap.lookup .stderr = some streamId then [67]
        else if s.streamMap.lookup .error = some streamId then [0x7b,0x7d] else [] := by
  obtain ⟨s,hclosed,hnodup,hstdout,hreadable⟩ := readable_kubectl
  exact ⟨s,hclosed,hstdout,output_delivered plainCodec 0 0 hclosed hnodup hreadable hstdout⟩

end SpdySession
end KubeAir.Streaming
