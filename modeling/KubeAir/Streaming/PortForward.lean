import KubeAir.Core.Pod
import KubeAir.Streaming.SpdyWire
import KubeAir.Transition.Runs

/-! # The port-forward loop

The loop waits for a frame of the client and for a frame of a backend at the same time, and
drops the read in progress when the backend is first. Each action is one event that the loop
or the network can see; the bytes arrive, and are consumed, in any pieces.
-/
namespace KubeAir.Streaming
open Core Transition Wire

/-- The zlib streams of the header blocks, and the names and values in them. -/
structure HeaderCodec where
  decode : List UInt8 → HashMap String String
  encode : HashMap String String → List UInt8

/-- The task that copies from a backend socket to the relay channel. -/
structure RelayTask where
  streamId : UInt32
  errStreamId : Option UInt32
deriving DecidableEq, Repr

structure PortForward where
  running : Bool := true
  /-- all bytes of the client so far -/
  arrived : List UInt8 := []
  /-- those that no read has consumed -/
  inbound : List UInt8 := []
  clientClosed : Bool := false
  /-- what the read in progress has consumed of an unfinished frame -/
  consumed : List UInt8 := []
  handled : List SpdyWireFrame := []
  outbound : List SpdyWireFrame := []
  streamToSocket : HashMap UInt32 (List UInt8) := ∅
  streamToErr : HashMap UInt32 UInt32 := ∅
  relayTasks : List RelayTask := []
  relayRx : List SpdyWireFrame := []

inductive PortForwardAction
  | arrive (bytes : List UInt8)
  | closeClient
  /-- a backend socket has something to read, ends, or fails -/
  | produce (task : RelayTask) (payload : List UInt8)
  | finish (task : RelayTask)
  | fail (task : RelayTask) (error : String)
  /-- the read takes one byte; a connection that its frame opens has the given outcome -/
  | consume (connect : Except String Unit)
  /-- the read meets the end of the input -/
  | readFails
  /-- a relay frame wins the select -/
  | relay

namespace PortForward
variable (codec : HeaderCodec)

def write (s : PortForward) (frame : SpdyWireFrame) : PortForward := { s with outbound := s.outbound ++ [frame] }

/-- `break`; the relay tasks are aborted. -/
def stop (s : PortForward) : PortForward := { s with running := false, relayTasks := [] }

def replyHeaders : HashMap String String := ((∅ : HashMap String String).insert ":status" "200 OK").insert ":version" "HTTP/1.1"

/-- A stream that the client opens: an error stream, or data for a port of the pod. -/
def openStream (connect : Except String Unit) (s : PortForward) (streamId : UInt32) (rawNv : List UInt8) :
    PortForward :=
  let pfDecoded := codec.decode rawNv
  let streamType := (pfDecoded.lookup "streamtype").getD ""
  let port := ((pfDecoded.lookup "port").bind (parseUnsigned 16)).getD 0
  let s := s.write (.synReply streamId (codec.encode replyHeaders))
  if streamType = "error" then
    { s with streamToErr := s.streamToErr.insert (if streamId = 0 then 0 else streamId - 1) streamId }
  else if streamType = "data" ∧ 0 < port then
    match connect with
    | .ok () =>
      { s with
        streamToSocket := s.streamToSocket.insert streamId []
        relayTasks := s.relayTasks ++ [⟨streamId,s.streamToErr.lookup streamId⟩] }
    | .error e =>
      match s.streamToErr.lookup streamId with
      | some errId => s.write (.data errId 0x01 ("connect failed: " ++ e).toUTF8.toList)
      | none => s
  else s

def handle (connect : Except String Unit) (s : PortForward) : SpdyWireFrame → PortForward
  | .synStream streamId rawNv => s.openStream codec connect streamId rawNv
  | .data streamId _ payload =>
    match s.streamToSocket.lookup streamId with
    | some sent => { s with streamToSocket := s.streamToSocket.insert streamId (sent ++ payload) }
    | none => s
  | .ping id => s.write (.ping id)
  | .rstStream .. => s
  | .goAway .. => s.stop
  | .synReply .. => s

/-- The read has taken a byte. -/
def consumeByte (connect : Except String Unit) (s : PortForward) (b : UInt8) : PortForward :=
  match spdyFormat.push s.consumed b with
  | .pending consumed => { s with consumed := consumed }
  | .finished .skip => { s with consumed := [] }
  | .finished .malformed => s.stop
  | .finished (.item frame) => handle codec connect { s with consumed := [], handled := s.handled ++ [frame] } frame

def step (s : PortForward) (action : PortForwardAction) : Option PortForward :=
  if s.running = false then none
  else
    match action with
    | .arrive bytes =>
      if s.clientClosed then none
      else some { s with arrived := s.arrived ++ bytes, inbound := s.inbound ++ bytes }
    | .closeClient => some { s with clientClosed := true }
    | .produce task payload =>
      if task ∈ s.relayTasks ∧ payload ≠ [] ∧ payload.length ≤ 16 * 1024 ∧ s.relayRx.length < 256 then
        some { s with relayRx := s.relayRx ++ [.data task.streamId 0 payload] }
      else none
    | .finish task => if task ∈ s.relayTasks then some { s with relayTasks := s.relayTasks.erase task } else none
    | .fail task error =>
      if task ∈ s.relayTasks ∧ s.relayRx.length < 256 then
        let s := { s with relayTasks := s.relayTasks.erase task }
        match task.errStreamId with
        | some errId =>
          some { s with relayRx := s.relayRx ++ [.data errId 0x01 ("tcp read error: " ++ error).toUTF8.toList] }
        | none => some s
      else none
    | .consume connect =>
      match s.inbound with
      | b :: inbound => some (consumeByte codec connect { s with inbound := inbound } b)
      | [] => none
    | .readFails => if s.clientClosed ∧ s.inbound = [] then some s.stop else none
    | .relay =>
      match s.relayRx with
      | outbound :: relayRx => some { s.write outbound with relayRx := relayRx, consumed := [] }
      | [] => none

/-- No relay frame wins while a frame has been read in part. -/
def KeepsRead (s : PortForward) : PortForwardAction → Prop
  | .relay => s.consumed = []
  | _ => True

instance (s : PortForward) : ∀ action, Decidable (KeepsRead s action)
  | .relay => inferInstanceAs (Decidable (_ = _))
  | .arrive _ | .closeClient | .produce .. | .finish _ | .fail .. | .consume _ | .readFails => instDecidableTrue

/-- The handled frames are the first ones of the bytes that have arrived. What is left is, while
the loop runs, what the read in progress holds and what it has not seen. -/
structure ReadInv (s : PortForward) : Prop where
  scanned : ∃ final, spdyFormat.Scans s.arrived s.handled final ∧ (s.running = true → final = s.consumed ++ s.inbound)
  unfinished : s.running = true → spdyFormat.readFrame s.consumed = none

section Steps
variable {codec} {s t : PortForward} {connect : Except String Unit}

/-- The bytes and the handled frames stay as they are. -/
structure Undisturbed (s t : PortForward) : Prop where
  arrived : t.arrived = s.arrived
  inbound : t.inbound = s.inbound
  consumed : t.consumed = s.consumed
  handled : t.handled = s.handled

theorem undisturbed_openStream (streamId : UInt32) (rawNv : List UInt8) :
    Undisturbed s (s.openStream codec connect streamId rawNv) := by
  unfold openStream
  dsimp only
  split
  · exact ⟨rfl,rfl,rfl,rfl⟩
  · split
    · cases connect with
      | ok => exact ⟨rfl,rfl,rfl,rfl⟩
      | error e =>
        dsimp only
        split <;> exact ⟨rfl,rfl,rfl,rfl⟩
    · exact ⟨rfl,rfl,rfl,rfl⟩

theorem undisturbed_handle (frame : SpdyWireFrame) : Undisturbed s (s.handle codec connect frame) := by
  cases frame with
  | synStream streamId rawNv => exact undisturbed_openStream streamId rawNv
  | data streamId flags payload =>
    unfold handle
    dsimp only
    split <;> exact ⟨rfl,rfl,rfl,rfl⟩
  | synReply | rstStream | ping | goAway => exact ⟨rfl,rfl,rfl,rfl⟩

theorem ReadInv.of_undisturbed (h : ReadInv s) (hrunning : s.running = true) (hkept : Undisturbed s t) :
    ReadInv t := by
  obtain ⟨final,hscans,hfinal⟩ := h.scanned
  obtain rfl := hfinal hrunning
  refine ⟨⟨s.consumed ++ s.inbound,?_,?_⟩,?_⟩
  · rw [hkept.arrived,hkept.handled]
    exact hscans
  · intro _
    rw [hkept.consumed,hkept.inbound]
  · intro _
    rw [hkept.consumed]
    exact h.unfinished hrunning

theorem readInv_consume {b : UInt8} {inbound : List UInt8} (h : ReadInv s) (hrunning : s.running = true)
    (hinbound : s.inbound = b :: inbound) :
    ReadInv (consumeByte codec connect { s with inbound := inbound } b) := by
  obtain ⟨final,hscans,hfinal⟩ := h.scanned
  have hrest : final = (s.consumed ++ [b]) ++ inbound := by
    rw [hfinal hrunning,hinbound,List.append_assoc,List.singleton_append]
  subst hrest
  unfold consumeByte
  dsimp only
  cases hpush : spdyFormat.push s.consumed b with
  | pending consumed =>
    obtain ⟨rfl,hnone⟩ := Format.push_pending hpush
    exact ⟨⟨_,hscans,fun _ => rfl⟩,fun _ => hnone⟩
  | finished d =>
    have hframe := Format.readFrame_append (Format.push_finished (h.unfinished hrunning) hpush) inbound
    cases d with
    | skip => exact ⟨⟨_,hscans.concat_skip hframe,fun _ => rfl⟩,fun _ => Format.readFrame_nil _⟩
    | malformed => exact ⟨⟨_,hscans,fun hstopped => nomatch hstopped⟩,fun hstopped => nomatch hstopped⟩
    | item frame =>
      let before : PortForward := { s with inbound := inbound, consumed := [], handled := s.handled ++ [frame] }
      have hkept : Undisturbed before (before.handle codec connect frame) := undisturbed_handle frame
      change ReadInv (before.handle codec connect frame)
      constructor
      · refine ⟨inbound,?_,?_⟩
        · rw [hkept.arrived,hkept.handled]
          exact hscans.concat_item hframe
        · intro _
          rw [hkept.consumed,hkept.inbound]
          rfl
      · intro _
        rw [hkept.consumed]
        exact Format.readFrame_nil _

theorem readInv_step {action : PortForwardAction} (h : ReadInv s) (hok : KeepsRead s action)
    (hs : s.step codec action = some t) : ReadInv t := by
  unfold step at hs
  split at hs
  · cases hs
  · next hrunning =>
    rw [Bool.not_eq_false] at hrunning
    cases action with
    | arrive bytes =>
      dsimp only at hs
      split at hs
      · cases hs
      · obtain rfl := Option.some.inj hs
        obtain ⟨final,hscans,hfinal⟩ := h.scanned
        obtain rfl := hfinal hrunning
        exact ⟨⟨_,hscans.append bytes,fun _ => List.append_assoc _ _ _⟩,fun _ => h.unfinished hrunning⟩
    | closeClient =>
      obtain rfl := Option.some.inj hs
      exact h.of_undisturbed hrunning ⟨rfl,rfl,rfl,rfl⟩
    | produce task payload =>
      obtain ⟨-,hs⟩ := Option.ite_none_right_eq_some.mp hs
      obtain rfl := Option.some.inj hs
      exact h.of_undisturbed hrunning ⟨rfl,rfl,rfl,rfl⟩
    | finish task =>
      obtain ⟨-,hs⟩ := Option.ite_none_right_eq_some.mp hs
      obtain rfl := Option.some.inj hs
      exact h.of_undisturbed hrunning ⟨rfl,rfl,rfl,rfl⟩
    | fail task error =>
      obtain ⟨-,hs⟩ := Option.ite_none_right_eq_some.mp hs
      dsimp only at hs
      split at hs
      · obtain rfl := Option.some.inj hs
        exact h.of_undisturbed hrunning ⟨rfl,rfl,rfl,rfl⟩
      · obtain rfl := Option.some.inj hs
        exact h.of_undisturbed hrunning ⟨rfl,rfl,rfl,rfl⟩
    | consume connect =>
      dsimp only at hs
      split at hs
      · next b inbound hinbound =>
        obtain rfl := Option.some.inj hs
        exact readInv_consume h hrunning hinbound
      · cases hs
    | readFails =>
      obtain ⟨-,hs⟩ := Option.ite_none_right_eq_some.mp hs
      obtain rfl := Option.some.inj hs
      exact h.of_undisturbed hrunning ⟨rfl,rfl,rfl,rfl⟩
    | relay =>
      dsimp only at hs
      split at hs
      · obtain rfl := Option.some.inj hs
        exact h.of_undisturbed hrunning ⟨rfl,rfl,hok.symm,rfl⟩
      · cases hs

theorem readInv_start : ReadInv {} := ⟨⟨[],.nil [],fun _ => rfl⟩,fun _ => Format.readFrame_nil _⟩

end Steps

/-- In a run where no relay frame wins in the middle of a client frame, the loop handles the
frames of the client in order, whatever it goes on to send. -/
theorem handled_in_order {codec : HeaderCodec} {actions : List PortForwardAction} {s : PortForward}
    (hr : Runs (Guarded KeepsRead (ofStep (step codec))) {} actions s) (more : List UInt8) :
    s.handled <+: spdyFormat.readAll (s.arrived ++ more) := by
  have hinv : ReadInv s := hr.invariant (fun _ _ _ h hs => readInv_step h hs.1 hs.2) readInv_start
  obtain ⟨final,hscans,-⟩ := hinv.scanned
  exact ⟨spdyFormat.readAll (final ++ more),(hscans.append more).readAll.symm⟩

/-- Header blocks that open a data stream for port 80. -/
def dataStreams : HeaderCodec where
  decode _ := ((∅ : HashMap String String).insert "streamtype" "data").insert "port" "80"
  encode _ := []

/-- A SYN_STREAM for stream 1. -/
def synStreamBytes : List UInt8 := [0x80,3,0,1,0,0,0,10,0,0,0,1,0,0,0,0,0,0]

/-- Data for stream 1 whose payload looks like an empty frame for stream 5. -/
def dataBytes : List UInt8 := [0,0,0,1,0,0,0,8,0,0,0,5,0,0,0,0]

def consumeAll (bytes : List UInt8) : List PortForwardAction := bytes.map (fun _ => .consume (.ok ()))

/-- A relay frame wins between the two frames of the client. -/
def orderlyActions : List PortForwardAction :=
  [.arrive synStreamBytes] ++ consumeAll synStreamBytes ++ [.produce ⟨1,none⟩ [42],.relay,.arrive dataBytes] ++
    consumeAll dataBytes

theorem handled_in_order_of_orderly : ∃ s : PortForward,
    s.outbound = [.synReply 1 [],.data 1 0 [42]] ∧ s.handled <+: spdyFormat.readAll (s.arrived ++ []) := by
  have hexec : (exec (guardedStep KeepsRead (step dataStreams)) {} orderlyActions).map (fun s => s.outbound) =
      some [.synReply 1 [],.data 1 0 [42]] := by
    decide +kernel
  obtain ⟨s,hs,houtbound⟩ := Option.map_eq_some_iff.mp hexec
  exact ⟨s,houtbound,handled_in_order (guarded_of_exec hs) []⟩

/-- A relay frame wins after the header of the second frame has been read. -/
def interruptedActions : List PortForwardAction :=
  [.arrive synStreamBytes] ++ consumeAll synStreamBytes ++ [.arrive dataBytes] ++ consumeAll (dataBytes.take 8) ++
    [.produce ⟨1,none⟩ [42],.relay] ++ consumeAll (dataBytes.drop 8)

/-- The payload is read as a frame of its own. -/
theorem not_handled_in_order : ∃ s, Runs (ofStep (step dataStreams)) {} interruptedActions s ∧
    ¬ s.handled <+: spdyFormat.readAll s.arrived := by
  have hexec : (exec (step dataStreams) {} interruptedActions).map (fun s => (s.handled,s.arrived)) =
      some ([.synStream 1 [],.data 5 0 []],synStreamBytes ++ dataBytes) := by
    decide +kernel
  obtain ⟨s,hs,heq⟩ := Option.map_eq_some_iff.mp hexec
  obtain ⟨hhandled,harrived⟩ := Prod.mk.inj heq
  refine ⟨s,runs_of_exec hs,?_⟩
  have hsyn : spdyFormat.readFrame (synStreamBytes ++ dataBytes) = some (.item (.synStream 1 []),dataBytes) := by
    decide +kernel
  have hdata : spdyFormat.readFrame dataBytes = some (.item (.data 1 0 [0,0,0,5,0,0,0,0]),[]) := by
    decide +kernel
  have hscans := Format.Scans.item hsyn (.item hdata (.nil []))
  rw [hhandled,harrived,hscans.readAll]
  intro hinitial
  obtain ⟨-,hinitial⟩ := List.cons_prefix_cons.mp hinitial
  obtain ⟨hframe,-⟩ := List.cons_prefix_cons.mp hinitial
  exact absurd hframe (by decide)

end PortForward
end KubeAir.Streaming
