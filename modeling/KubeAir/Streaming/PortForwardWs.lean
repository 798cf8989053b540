import KubeAir.Adapters.Admission
import KubeAir.Streaming.HeaderBlock
import KubeAir.Transition.Runs

/-! # Port forwarding over a WebSocket

Every forwarded port has a channel for its bytes and one for its errors. A channel is one
byte, computed from the position of the port in the query, and it names the socket that the
bytes of the client go to.
-/
namespace KubeAir.Streaming
open Accounting Adapters Core HeaderBlock Transition

structure FramedMessage where
  streamId : UInt8
  payload : List UInt8
deriving DecidableEq, Repr

namespace FramedMessage

def encode (m : FramedMessage) : List UInt8 := m.streamId :: m.payload

def decode : List UInt8 → Option FramedMessage
  | [] => none
  | b :: rest => some ⟨b,rest⟩

end FramedMessage

/-- What a message has for a channel. -/
def payloadOn (c : UInt8) (data : List UInt8) : List UInt8 :=
  match FramedMessage.decode data with
  | some frame => if frame.streamId = c then frame.payload else []
  | none => []

/-- The bytes that messages carry on a channel, in order. -/
def demux (c : UInt8) (messages : List (List UInt8)) : List UInt8 := messages.flatMap (payloadOn c)

section Demux
variable {c : UInt8} {m : FramedMessage}

theorem payloadOn_encode : payloadOn c m.encode = if m.streamId = c then m.payload else [] := rfl

theorem demux_concat (l : List (List UInt8)) (data : List UInt8) : demux c (l ++ [data]) = demux c l ++ payloadOn c data := by
  unfold demux
  rw [List.flatMap_append,List.flatMap_singleton]

theorem demux_isPrefix (l l' : List (List UInt8)) : demux c l <+: demux c (l ++ l') := by
  unfold demux
  rw [List.flatMap_append]
  exact List.prefix_append _ _

end Demux

/-- The task that copies what it reads from a socket. -/
structure WsRelay where
  idx : ℕ
  port : ℕ
deriving DecidableEq, Repr

structure PortForwardWs where
  running : Bool := true
  /-- the ports that the session has yet to connect to, with their positions -/
  pending : List (ℕ × ℕ)
  /-- the socket behind a channel, by the position of its port -/
  channelWriters : HashMap UInt8 ℕ := ∅
  relayTasks : List WsRelay := []
  relayRx : List FramedMessage := []
  /-- the messages to the client and those of the client -/
  sent : List (List UInt8) := []
  received : List (List UInt8) := []
  /-- the bytes of every socket, by the position of its port -/
  readFrom : ℕ → List UInt8 := fun _ => []
  writtenTo : ℕ → List UInt8 := fun _ => []

inductive WsAction
  | connect (outcome : Except String Unit)
  | produce (task : WsRelay) (payload : List UInt8)
  | finish (task : WsRelay)
  | fail (task : WsRelay) (error : String)
  /-- a relay frame wins the select; the client may be gone -/
  | relay (delivered : Bool)
  /-- a binary message; a write to its socket may fail after some bytes -/
  | receive (data : List UInt8) (failsAfter : Option ℕ)
  | other
  | close

namespace PortForwardWs

/-- `query.ports` read as a list. -/
def portList (ports : Option String) : List ℕ :=
  ((ports.getD "").toList.splitOn ',').filterMap (fun p => parseUnsigned 16 (Admission.trim (String.ofList p)))

/-- `(idx as u8) * 2`. -/
def dataChannel (idx : ℕ) : UInt8 := UInt8.ofNat idx * 2

def errChannel (idx : ℕ) : UInt8 := dataChannel idx + 1

/-- The product and the sum are numbers of eight bits. -/
def Computes (idx : ℕ) : Prop := (UInt8.ofNat idx).toNat * 2 < 2 ^ 8 ∧ (dataChannel idx).toNat + 1 < 2 ^ 8

def readError (port : ℕ) (e : String) : List UInt8 := asBytes ("tcp read error on " ++ toString port ++ ": " ++ e)

def connectError (podIp : String) (port : ℕ) (e : String) : List UInt8 :=
  asBytes ("failed to connect " ++ podIp ++ ":" ++ toString port ++ ": " ++ e)

def start (ports : List ℕ) : PortForwardWs where
  pending := ports.zipIdx.map Prod.swap

/-- `break`; the relay tasks are aborted. -/
def stop (s : PortForwardWs) : PortForwardWs := { s with running := false, relayTasks := [] }

/-- The bytes of a socket go on. -/
def extend (bytes : ℕ → List UInt8) (idx : ℕ) (more : List UInt8) : ℕ → List UInt8 :=
  fun i => if i = idx then bytes i ++ more else bytes i

/-- There is room for a frame in the relay channel. -/
def HasRoom (s : PortForwardWs) : Prop := s.relayRx.length < 256

instance (s : PortForwardWs) : Decidable s.HasRoom := inferInstanceAs (Decidable (_ < _))

def push (s : PortForwardWs) (frame : FramedMessage) : PortForwardWs := { s with relayRx := s.relayRx ++ [frame] }

def receive (s : PortForwardWs) (data : List UInt8) (failsAfter : Option ℕ) : PortForwardWs :=
  let s' := { s with received := s.received ++ [data] }
  match FramedMessage.decode data with
  | none => s'
  | some frame =>
    match s.channelWriters.lookup frame.streamId with
    | none => s'
    | some idx =>
      match failsAfter with
      | none => { s' with writtenTo := extend s.writtenTo idx frame.payload }
      | some n => { s' with writtenTo := extend s.writtenTo idx (frame.payload.take n) }.stop

/-- Connecting comes first; the tasks of the sockets already read meanwhile. -/
def step (podIp : String) (s : PortForwardWs) (action : WsAction) : Option PortForwardWs :=
  if s.running = false then none
  else
    match action with
    | .connect outcome =>
      match s.pending with
      | [] => none
      | (idx,port) :: pending =>
        match outcome with
        | .ok () => some { s with
            pending := pending
            channelWriters := s.channelWriters.insert (dataChannel idx) idx
            relayTasks := s.relayTasks ++ [⟨idx,port⟩] }
        | .error e =>
          if s.HasRoom then some { s.push ⟨errChannel idx,connectError podIp port e⟩ with pending := pending } else none
    | .produce task payload =>
      if task ∈ s.relayTasks ∧ payload ≠ [] ∧ payload.length ≤ 16 * 1024 ∧ s.HasRoom then
        some { s.push ⟨dataChannel task.idx,payload⟩ with readFrom := extend s.readFrom task.idx payload }
      else none
    | .finish task => if task ∈ s.relayTasks then some { s with relayTasks := s.relayTasks.erase task } else none
    | .fail task error =>
      if task ∈ s.relayTasks ∧ s.HasRoom then
        some { s.push ⟨errChannel task.idx,readError task.port error⟩ with relayTasks := s.relayTasks.erase task }
      else none
    | .relay delivered =>
      match s.pending, s.relayRx with
      | [], frame :: relayRx =>
        if delivered then some { s with relayRx := relayRx, sent := s.sent ++ [frame.encode] }
        else some { s with relayRx := relayRx }.stop
      | _, _ => none
    | .receive data failsAfter => if s.pending = [] then some (s.receive data failsAfter) else none
    | .other => if s.pending = [] then some s else none
    | .close => if s.pending = [] then some s.stop else none

/-- A frame on the data channel of a port, or an error of a port on its error channel. -/
def FromPort (podIp : String) (ports : List ℕ) (frame : FramedMessage) : Prop :=
  ∃ i port, ports[i]? = some port ∧ (frame.streamId = dataChannel i ∨ frame.streamId = errChannel i ∧
    ∃ e, frame.payload = readError port e ∨ frame.payload = connectError podIp port e)

/-- The channels of the ports are told apart, and so are their bytes in every session. -/
structure Separated (podIp : String) (ports : List ℕ) : Prop where
  computes : ∀ i < ports.length, Computes i
  distinct : ∀ i < ports.length, ∀ j < ports.length, dataChannel i ≠ errChannel j ∧
    (i ≠ j → dataChannel i ≠ dataChannel j ∧ errChannel i ≠ errChannel j)
  /-- a data channel has bytes of its socket, any other message is an error of a port -/
  outward : ∀ actions s, Runs (ofStep (step podIp)) (start ports) actions s →
    (∀ i < ports.length, demux (dataChannel i) s.sent <+: s.readFrom i) ∧
      ∀ data ∈ s.sent, ∃ frame, data = frame.encode ∧ FromPort podIp ports frame
  /-- a socket gets the bytes of its data channel -/
  inward : ∀ actions s, Runs (ofStep (step podIp)) (start ports) actions s →
    ∀ i < ports.length, s.writtenTo i <+: demux (dataChannel i) s.received

/-! ## Channels -/

theorem toNat_dataChannel {i : ℕ} (h : i < 128) : (dataChannel i).toNat = 2 * i := by
  unfold dataChannel
  rw [UInt8.toNat_mul,UInt8.toNat_ofNat']
  show i % 2 ^ 8 * 2 % 2 ^ 8 = _
  omega

theorem toNat_errChannel {i : ℕ} (h : i < 128) : (errChannel i).toNat = 2 * i + 1 := by
  unfold errChannel
  rw [UInt8.toNat_add,toNat_dataChannel h]
  show (2 * i + 1) % 2 ^ 8 = _
  omega

theorem computes_of_lt {i : ℕ} (h : i < 128) : Computes i := by
  unfold Computes
  rw [toNat_dataChannel h,UInt8.toNat_ofNat']
  omega

theorem dataChannel_ne_errChannel {i j : ℕ} (hi : i < 128) (hj : j < 128) : dataChannel i ≠ errChannel j := by
  intro h
  have htoNat := congrArg UInt8.toNat h
  rw [toNat_dataChannel hi,toNat_errChannel hj] at htoNat
  omega

theorem dataChannel_inj {i j : ℕ} (hi : i < 128) (hj : j < 128) (h : dataChannel i = dataChannel j) : i = j := by
  have htoNat := congrArg UInt8.toNat h
  rw [toNat_dataChannel hi,toNat_dataChannel hj] at htoNat
  omega

theorem errChannel_inj {i j : ℕ} (hi : i < 128) (hj : j < 128) (h : errChannel i = errChannel j) : i = j := by
  have htoNat := congrArg UInt8.toNat h
  rw [toNat_errChannel hi,toNat_errChannel hj] at htoNat
  omega

/-- The first position whose channel is no number of eight bits. -/
theorem not_computes : ¬Computes 128 := by
  unfold Computes
  decide

/-! ## Sessions with a channel for every port -/

/-- What is on the way belongs to the port of its channel. -/
structure Routing (podIp : String) (ports : List ℕ) (s : PortForwardWs) : Prop where
  pending : ∀ p ∈ s.pending, ports[p.1]? = some p.2
  tasks : ∀ t ∈ s.relayTasks, ports[t.idx]? = some t.port
  writers : ∀ c i, s.channelWriters.lookup c = some i → i < ports.length ∧ c = dataChannel i
  queued : ∀ frame ∈ s.relayRx, FromPort podIp ports frame
  known : ∀ data ∈ s.sent, ∃ frame, data = frame.encode ∧ FromPort podIp ports frame
  /-- nothing is handled while there are ports to connect to -/
  opening : s.pending ≠ [] → s.received = []
  carried : s.running = true → ∀ i < ports.length,
    demux (dataChannel i) (s.sent ++ s.relayRx.map FramedMessage.encode) = s.readFrom i
  delivered : ∀ i < ports.length, demux (dataChannel i) s.sent <+: s.readFrom i
  written : s.running = true → ∀ i, s.channelWriters.lookup (dataChannel i) = some i →
    s.writtenTo i = demux (dataChannel i) s.received
  passed : ∀ i < ports.length, s.writtenTo i <+: demux (dataChannel i) s.received

section Routing
variable {podIp : String} {ports : List ℕ} {s t : PortForwardWs} {i : ℕ}

theorem extend_self (bytes : ℕ → List UInt8) (i : ℕ) (more : List UInt8) : extend bytes i more i = bytes i ++ more := if_pos rfl

theorem extend_of_ne (bytes : ℕ → List UInt8) {i j : ℕ} (h : i ≠ j) (more : List UInt8) : extend bytes j more i = bytes i := if_neg h

theorem demux_push (c : UInt8) (frame : FramedMessage) :
    demux c ((s.push frame).sent ++ (s.push frame).relayRx.map FramedMessage.encode) =
      demux c (s.sent ++ s.relayRx.map FramedMessage.encode) ++ payloadOn c frame.encode := by
  show demux c (s.sent ++ (s.relayRx ++ [frame]).map FramedMessage.encode) = _
  rw [List.map_append,List.map_singleton,← List.append_assoc,demux_concat]

/-- An error of a port is on no data channel. -/
theorem Routing.push_error (h : Routing podIp ports s) (hn : ports.length ≤ 128) {port : ℕ} (hport : ports[i]? = some port)
    {payload : List UInt8} (htext : ∃ e, payload = readError port e ∨ payload = connectError podIp port e) :
    Routing podIp ports (s.push ⟨errChannel i,payload⟩) := by
  have hi : i < ports.length := (List.getElem?_eq_some_iff.mp hport).1
  refine { h with queued := ?_, carried := ?_ }
  · intro frame hframe
    rcases List.mem_append.mp hframe with hframe | hframe
    · exact h.queued frame hframe
    · obtain rfl := List.mem_singleton.mp hframe
      exact ⟨i,port,hport,.inr ⟨rfl,htext⟩⟩
  · intro hrunning j hj
    have hne : errChannel i ≠ dataChannel j := (dataChannel_ne_errChannel (hj.trans_le hn) (hi.trans_le hn)).symm
    rw [demux_push,h.carried hrunning j hj,payloadOn_encode,if_neg hne,List.append_nil]
    rfl

/-- What a socket gives is put on its channel. -/
theorem Routing.produce (h : Routing podIp ports s) (hn : ports.length ≤ 128) {port : ℕ} (hport : ports[i]? = some port)
    (payload : List UInt8) :
    Routing podIp ports { s.push ⟨dataChannel i,payload⟩ with readFrom := extend s.readFrom i payload } := by
  have hi : i < ports.length := (List.getElem?_eq_some_iff.mp hport).1
  refine { h with queued := ?_, carried := ?_, delivered := ?_ }
  · intro frame hframe
    rcases List.mem_append.mp hframe with hframe | hframe
    · exact h.queued frame hframe
    · obtain rfl := List.mem_singleton.mp hframe
      exact ⟨i,port,hport,.inl rfl⟩
  · intro hrunning j hj
    refine (demux_push (s := s) (dataChannel j) ⟨dataChannel i,payload⟩).trans ?_
    rw [h.carried hrunning j hj,payloadOn_encode]
    by_cases hij : j = i
    · subst hij
      rw [if_pos rfl]
      exact (extend_self _ _ _).symm
    · rw [if_neg (fun heq => hij (dataChannel_inj (hj.trans_le hn) (hi.trans_le hn) heq.symm)),List.append_nil]
      exact (extend_of_ne _ hij _).symm
  · intro j hj
    refine (h.delivered j hj).trans ?_
    show _ <+: extend s.readFrom i payload j
    unfold extend
    split
    · exact List.prefix_append _ _
    · exact List.prefix_rfl

theorem Routing.connected (h : Routing podIp ports s) {port : ℕ} {pending : List (ℕ × ℕ)}
    (hpending : s.pending = (i,port) :: pending) : Routing podIp ports { s with
      pending := pending
      channelWriters := s.channelWriters.insert (dataChannel i) i
      relayTasks := s.relayTasks ++ [⟨i,port⟩] } := by
  have hport : ports[i]? = some port := h.pending (i,port) (by rw [hpending]; exact List.mem_cons_self)
  have hi : i < ports.length := (List.getElem?_eq_some_iff.mp hport).1
  have hreceived : s.received = [] := h.opening (by rw [hpending]; exact List.cons_ne_nil _ _)
  refine { h with pending := ?_, tasks := ?_, writers := ?_, opening := fun _ => hreceived, written := ?_ }
  · intro p hp
    exact h.pending p (by rw [hpending]; exact List.mem_cons_of_mem _ hp)
  · intro task htask
    rcases List.mem_append.mp htask with htask | htask
    · exact h.tasks task htask
    · obtain rfl := List.mem_singleton.mp htask
      exact hport
  · intro c j hj
    rcases HashMap.lookup_insert_eq_some.mp hj with ⟨rfl,rfl⟩ | ⟨-,hj⟩
    · exact ⟨hi,rfl⟩
    · exact h.writers c j hj
  · intro hrunning j hj
    have hjn : j < ports.length := by
      rcases HashMap.lookup_insert_eq_some.mp hj with ⟨-,rfl⟩ | ⟨-,hj⟩
      · exact hi
      · exact (h.writers _ j hj).1
    -- nothing has come from the client
    have hnone := h.passed j hjn
    rw [hreceived] at hnone
    show s.writtenTo j = demux (dataChannel j) s.received
    rw [hreceived]
    exact List.prefix_nil.mp hnone

theorem Routing.stop (h : Routing podIp ports s) : Routing podIp ports s.stop :=
  { h with
    tasks := fun _ hmem => absurd hmem List.not_mem_nil
    carried := fun hrunning => absurd hrunning Bool.false_ne_true
    written := fun hrunning => absurd hrunning Bool.false_ne_true }

theorem Routing.erase (h : Routing podIp ports s) (task : WsRelay) :
    Routing podIp ports { s with relayTasks := s.relayTasks.erase task } :=
  { h with tasks := fun t ht => h.tasks t (List.mem_of_mem_erase ht) }

theorem Routing.relay (h : Routing podIp ports s) {frame : FramedMessage} {relayRx : List FramedMessage}
    (hrunning : s.running = true) (hrelayRx : s.relayRx = frame :: relayRx) :
    Routing podIp ports { s with relayRx := relayRx, sent := s.sent ++ [frame.encode] } := by
  have hcarried : ∀ i < ports.length, demux (dataChannel i) ((s.sent ++ [frame.encode]) ++ relayRx.map FramedMessage.encode) =
      s.readFrom i := by
    intro i hi
    rw [← h.carried hrunning i hi,hrelayRx,List.map_cons,List.append_assoc,List.singleton_append]
  refine { h with queued := ?_, known := ?_, carried := fun _ => hcarried, delivered := ?_ }
  · intro f hf
    exact h.queued f (by rw [hrelayRx]; exact List.mem_cons_of_mem _ hf)
  · intro data hdata
    rcases List.mem_append.mp hdata with hdata | hdata
    · exact h.known data hdata
    · exact ⟨frame,List.mem_singleton.mp hdata,h.queued frame (by rw [hrelayRx]; exact List.mem_cons_self)⟩
  · intro i hi
    show _ <+: s.readFrom i
    rw [← hcarried i hi]
    exact demux_isPrefix _ _

/-- A frame that the client is not there for is lost. -/
theorem Routing.lose (h : Routing podIp ports s) {frame : FramedMessage} {relayRx : List FramedMessage}
    (hrelayRx : s.relayRx = frame :: relayRx) :
    Routing podIp ports { s with relayRx := relayRx }.stop := by
  have hqueued : ∀ f ∈ relayRx, FromPort podIp ports f := by
    intro f hf
    exact h.queued f (by rw [hrelayRx]; exact List.mem_cons_of_mem _ hf)
  exact { h.stop with
    queued := hqueued
    carried := fun hrunning => absurd hrunning Bool.false_ne_true }

/-- A message for no socket. -/
theorem Routing.ignored (h : Routing podIp ports s) (hpending : s.pending = []) {data : List UInt8}
    (hnone : ∀ i, s.channelWriters.lookup (dataChannel i) = some i → payloadOn (dataChannel i) data = []) :
    Routing podIp ports { s with received := s.received ++ [data] } := by
  refine { h with opening := fun hne => absurd hpending hne, written := ?_, passed := ?_ }
  · intro hrunning i hi
    show s.writtenTo i = demux (dataChannel i) (s.received ++ [data])
    rw [demux_concat,hnone i hi,List.append_nil]
    exact h.written hrunning i hi
  · intro i hi
    exact (h.passed i hi).trans (demux_isPrefix _ _)

/-- A message for a socket; what is written of it comes behind what the socket has. -/
theorem Routing.written_to (h : Routing podIp ports s) (hrunning : s.running = true)
    {f : FramedMessage} (hlookup : s.channelWriters.lookup f.streamId = some i) {bytes : List UInt8}
    (hbytes : bytes <+: f.payload) {j : ℕ} (hj : j < ports.length) :
    extend s.writtenTo i bytes j <+: demux (dataChannel j) (s.received ++ [f.encode]) := by
  obtain ⟨hi,hchannel⟩ := h.writers _ i hlookup
  by_cases hji : j = i
  · subst hji
    rw [extend_self,demux_concat,payloadOn_encode,if_pos hchannel,h.written hrunning j (hchannel ▸ hlookup)]
    exact List.prefix_append_right_inj _ |>.mpr hbytes
  · rw [extend_of_ne _ hji]
    exact (h.passed j hj).trans (demux_isPrefix _ _)

theorem Routing.receive (h : Routing podIp ports s) (hrunning : s.running = true)
    (hpending : s.pending = []) (data : List UInt8) (failsAfter : Option ℕ) :
    Routing podIp ports (s.receive data failsAfter) := by
  unfold PortForwardWs.receive
  dsimp only
  cases data with
  | nil => exact h.ignored hpending fun _ _ => rfl
  | cons b payload =>
    cases hlookup : s.channelWriters.lookup b with
    | none =>
      dsimp only [FramedMessage.decode]
      rw [hlookup]
      refine h.ignored hpending fun i hi => if_neg ?_
      rintro rfl
      exact absurd hi (by rw [hlookup]; exact nofun)
    | some idx =>
      dsimp only [FramedMessage.decode]
      rw [hlookup]
      cases failsAfter with
      | some n =>
        refine { h.stop with
          opening := fun hne => absurd hpending hne
          written := fun hrunning => absurd hrunning Bool.false_ne_true
          passed := ?_ }
        intro j hj
        exact h.written_to hrunning (f := ⟨b,payload⟩) hlookup (List.take_prefix n payload) hj
      | none =>
        refine { h with opening := fun hne => absurd hpending hne, written := ?_, passed := ?_ }
        · intro _ j hj
          obtain ⟨hi,hchannel⟩ := h.writers _ idx hlookup
          show extend s.writtenTo idx payload j = demux (dataChannel j) (s.received ++ [b :: payload])
          have hpayload : payloadOn (dataChannel j) (b :: payload) = if b = dataChannel j then payload else [] := rfl
          rw [demux_concat,hpayload]
          by_cases hji : j = idx
          · subst hji
            rw [extend_self,h.written hrunning j hj,if_pos hchannel]
          · have hne : b ≠ dataChannel j := by
              rintro rfl
              exact hji (Option.some.inj (hj.symm.trans hlookup))
            rw [extend_of_ne _ hji,h.written hrunning j hj,if_neg hne,List.append_nil]
        · intro j hj
          exact h.written_to hrunning (f := ⟨b,payload⟩) hlookup List.prefix_rfl hj

theorem Routing.step {action : WsAction} (h : Routing podIp ports s) (hn : ports.length ≤ 128)
    (hs : s.step podIp action = some t) : Routing podIp ports t := by
  unfold PortForwardWs.step at hs
  split at hs
  · cases hs
  next hrunning =>
  rw [Bool.not_eq_false] at hrunning
  cases action with
  | connect outcome =>
    dsimp only at hs
    cases hpending : s.pending with
    | nil =>
      rw [hpending] at hs
      cases hs
    | cons p pending =>
      obtain ⟨i,port⟩ := p
      rw [hpending] at hs
      cases outcome with
      | ok =>
        obtain rfl := Option.some.inj hs
        exact h.connected hpending
      | error e =>
        obtain ⟨-,hs⟩ := Option.ite_none_right_eq_some.mp hs
        obtain rfl := Option.some.inj hs
        have hport : ports[i]? = some port := h.pending (i,port) (by rw [hpending]; exact List.mem_cons_self)
        have hpush := h.push_error hn hport ⟨e,.inr rfl⟩
        refine { hpush with pending := ?_, opening := ?_ }
        · intro p hp
          exact h.pending p (by rw [hpending]; exact List.mem_cons_of_mem _ hp)
        · intro _
          exact h.opening (by rw [hpending]; exact List.cons_ne_nil _ _)
  | produce task payload =>
    obtain ⟨⟨htask,-⟩,hs⟩ := Option.ite_none_right_eq_some.mp hs
    obtain rfl := Option.some.inj hs
    exact h.produce hn (h.tasks task htask) payload
  | finish task =>
    obtain ⟨-,hs⟩ := Option.ite_none_right_eq_some.mp hs
    obtain rfl := Option.some.inj hs
    exact h.erase task
  | fail task error =>
    obtain ⟨⟨htask,-⟩,hs⟩ := Option.ite_none_right_eq_some.mp hs
    obtain rfl := Option.some.inj hs
    exact (h.push_error hn (h.tasks task htask) ⟨error,.inl rfl⟩).erase task
  | relay delivered =>
    dsimp only at hs
    split at hs
    · next hpending hrelayRx =>
      cases delivered with
      | true =>
        obtain rfl := Option.some.inj hs
        exact h.relay hrunning hrelayRx
      | false =>
        obtain rfl := Option.some.inj hs
        exact h.lose hrelayRx
    · cases hs
  | receive data failsAfter =>
    obtain ⟨hpending,hs⟩ := Option.ite_none_right_eq_some.mp hs
    obtain rfl := Option.some.inj hs
    exact h.receive hrunning hpending data failsAfter
  | other =>
    obtain ⟨-,hs⟩ := Option.ite_none_right_eq_some.mp hs
    obtain rfl := Option.some.inj hs
    exact h
  | close =>
    obtain ⟨-,hs⟩ := Option.ite_none_right_eq_some.mp hs
    obtain rfl := Option.some.inj hs
    exact h.stop

theorem routing_start (podIp : String) (ports : List ℕ) : Routing podIp ports (start ports) where
  pending := by
    intro p hp
    obtain ⟨q,hq,rfl⟩ := List.mem_map.mp hp
    exact List.mem_zipIdx_iff_getElem?.mp hq
  tasks := fun _ hmem => absurd hmem List.not_mem_nil
  writers := fun _ _ hlookup => nomatch hlookup
  queued := fun _ hmem => absurd hmem List.not_mem_nil
  known := fun _ hmem => absurd hmem List.not_mem_nil
  opening := fun _ => rfl
  carried := fun _ _ _ => rfl
  delivered := fun _ _ => List.prefix_rfl
  written := fun _ _ hlookup => nomatch hlookup
  passed := fun _ _ => List.prefix_rfl

end Routing

/-- The channels of the ports are told apart as far as there are channels for them. -/
theorem separated_iff (podIp : String) (query : Option String) :
    Separated podIp (portList query) ↔ (portList query).length ≤ 128 := by
  generalize portList query = ports
  constructor
  · intro h
    by_contra hlong
    exact not_computes (h.computes 128 (by omega))
  · intro hn
    have hrouting : ∀ actions s, Runs (ofStep (step podIp)) (start ports) actions s → Routing podIp ports s :=
      fun _ _ hr => hr.invariant (fun _ _ _ h hs => h.step hn hs) (routing_start podIp ports)
    exact {
      computes := fun i hi => computes_of_lt (by omega)
      distinct := fun i hi j hj => ⟨dataChannel_ne_errChannel (by omega) (by omega),fun hne =>
        ⟨fun heq => hne (dataChannel_inj (by omega) (by omega) heq),
          fun heq => hne (errChannel_inj (by omega) (by omega) heq)⟩⟩
      outward := fun actions s hr => ⟨(hrouting actions s hr).delivered,(hrouting actions s hr).known⟩
      inward := fun actions s hr => (hrouting actions s hr).passed }

/-- Every port takes the connection. -/
theorem runs_connect (podIp : String) {s : PortForwardWs} (hrunning : s.running = true) :
    ∃ actions writers, Runs (ofStep (step podIp)) s actions { s with
      pending := []
      channelWriters := writers
      relayTasks := s.relayTasks ++ s.pending.map (fun p => ⟨p.1,p.2⟩) } := by
  induction hpending : s.pending generalizing s with
  | nil =>
    refine ⟨[],s.channelWriters,?_⟩
    rw [List.map_nil,List.append_nil]
    obtain ⟨running,pending⟩ := s
    obtain rfl := hpending
    exact .nil _
  | cons p pending ih =>
    let s' : PortForwardWs := { s with
      pending := pending
      channelWriters := s.channelWriters.insert (dataChannel p.1) p.1
      relayTasks := s.relayTasks ++ [⟨p.1,p.2⟩] }
    have hstep : s.step podIp (.connect (.ok ())) = some s' := by
      unfold step
      rw [if_neg (by rw [hrunning]; exact nofun)]
      dsimp only
      rw [hpending]
    obtain ⟨actions,writers,hr⟩ := ih (s := s') hrunning rfl
    refine ⟨.connect (.ok ()) :: actions,writers,.cons hstep ?_⟩
    rw [List.map_cons,List.append_cons]
    exact hr

/-- The bytes of the first port without a channel of its own go to another one's client. -/
theorem misrouted (podIp : String) {ports : List ℕ} (h : 128 < ports.length) :
    ∃ actions s, Runs (ofStep (step podIp)) (start ports) actions s ∧ s.readFrom 0 = [] ∧
      demux (dataChannel 0) s.sent = [42] := by
  obtain ⟨actions,writers,hr⟩ := runs_connect podIp (s := start ports) rfl
  have htask : (⟨128,ports[128]⟩ : WsRelay) ∈ (start ports).relayTasks ++ (start ports).pending.map (fun p => ⟨p.1,p.2⟩) := by
    refine List.mem_append_right _ (List.mem_map.mpr ⟨(128,ports[128]),?_,rfl⟩)
    refine List.mem_map.mpr ⟨(ports[128],128),?_,rfl⟩
    exact List.mem_zipIdx_iff_getElem?.mpr (List.getElem?_eq_getElem h)
  let t : PortForwardWs := { start ports with
    pending := []
    channelWriters := writers
    relayTasks := (start ports).relayTasks ++ (start ports).pending.map (fun p => ⟨p.1,p.2⟩) }
  let u : PortForwardWs := { t with relayRx := [⟨dataChannel 128,[42]⟩], readFrom := extend t.readFrom 128 [42] }
  have hproduce : t.step podIp (.produce ⟨128,ports[128]⟩ [42]) = some u := by
    unfold step
    rw [if_neg (show ¬t.running = false from Bool.true_eq_false_eq_False)]
    exact if_pos ⟨htask,by decide,by decide,Nat.zero_lt_succ 255⟩
  have hrelay : u.step podIp (.relay true) = some { u with relayRx := [], sent := [[0,42]] } := rfl
  exact ⟨_,_,hr.append (.cons hproduce (.cons hrelay (.nil _))),rfl,rfl⟩

/-- A query for port 80, so many times. -/
def manyPorts : String := ",".intercalate (List.replicate 129 "80")

theorem portList_replicate (n : ℕ) :
    portList (some (",".intercalate (List.replicate (n + 1) "80"))) = List.replicate (n + 1) 80 := by
  have hpieces : ∀ piece ∈ (List.replicate (n + 1) "80").map String.toList, ',' ∉ piece := by
    intro piece hp
    rw [List.map_replicate] at hp
    rw [List.eq_of_mem_replicate hp]
    decide
  have hsplit : (",".intercalate (List.replicate (n + 1) "80")).toList.splitOn ',' =
      List.replicate (n + 1) ['8','0'] := by
    rw [String.toList_intercalate]
    refine (List.splitOn_intercalate ',' hpieces (by simp)).trans ?_
    rw [List.map_replicate]
    rfl
  have hport : parseUnsigned 16 (Admission.trim (String.ofList ['8','0'])) = some 80 := by
    decide +kernel
  unfold portList
  rw [Option.getD_some,hsplit]
  exact List.filterMap_replicate_of_some hport

theorem not_separated : ¬Separated "10.0.0.5" (portList (some manyPorts)) := by
  have hlong : 128 < (portList (some manyPorts)).length := by
    unfold manyPorts
    rw [portList_replicate,List.length_replicate]
    decide
  intro h
  obtain ⟨actions,s,hr,hread,hsent⟩ := misrouted "10.0.0.5" hlong
  have hprefix := (h.outward actions s hr).1 0 (by omega)
  rw [hread,hsent] at hprefix
  exact absurd (List.prefix_nil.mp hprefix) (List.cons_ne_nil _ _)

end PortForwardWs
end KubeAir.Streaming
