import KubeAir.Streaming.PortForwardWs
import KubeAir.Streaming.SpdyOutput
import KubeAir.Worker.Request

/-! # Exec and attach over a WebSocket

The command runs in the newest running container that the request names, and its output is sent in
messages of one channel each. The channels of a client that speaks the fourth protocol or the fifth
carry what the streams of a SPDY session carry.
-/
namespace KubeAir.Streaming
open Core Exec HeaderBlock Worker

/-- A container of the runtime, as far as a session looks at it. -/
structure StreamContainer where
  id : String
  state : RuntimeContainerState
  createdAt : DateTime
  labels : HashMap String String

/-- The runtime at one time: what it lists, and how commands end within so many seconds. -/
structure StreamRuntime where
  listContainers : Except String (List StreamContainer)
  execSync : String → List String → ℕ → Except String ExecResult
  attachSync : String → ℕ → Except String ExecResult

/-- A label under its own name or, without one, under that of the CRI. -/
def StreamContainer.label (c : StreamContainer) (key criKey : String) : String :=
  ((c.labels.lookup key).orElse fun _ => c.labels.lookup criKey).getD ""

/-- The container is of this pod and has this name, or any if none is given. -/
def StreamContainer.Named (c : StreamContainer) (ns podName containerName : String) : Prop :=
  c.label "kubelet.rs/pod_name" "io.kubernetes.pod.name" = podName ∧
    c.label "kubelet.rs/pod_namespace" "io.kubernetes.pod.namespace" = ns ∧
    (containerName = "" ∨ c.label "kubelet.rs/container_name" "io.kubernetes.container.name" = containerName)

instance (c : StreamContainer) (ns podName containerName : String) : Decidable (c.Named ns podName containerName) :=
  inferInstanceAs (Decidable (_ ∧ _ ∧ _))

/-- The body of the loop over the containers. -/
def better (ns podName containerName : String) (best : Option StreamContainer) (c : StreamContainer) : Option StreamContainer :=
  if c.Named ns podName containerName then
    if c.state = .running then
      match best with
      | none => some c
      | some prev => if prev.createdAt < c.createdAt then some c else best
    else best
  else best

def findContainerId (rt : StreamRuntime) (ns podName containerName : String) : Option String :=
  match rt.listContainers with
  | .error _ => none
  | .ok containers => (containers.foldl (better ns podName containerName) none).map (·.id)

def notFound (ns podName container : String) : ℕ × String :=
  (404,"container '" ++ container ++ "' not found in pod '" ++ ns ++ "/" ++ podName ++ "'")

def commandOf (query : ExecQuery) : List String := if query.command.isEmpty then ["sh"] else query.command

/-- Runs a command in the container that the request names. -/
def runIn (rt : StreamRuntime) (ns podName : String) (query : ExecQuery) (command : String → Except String ExecResult)
    (failed : String) : Except (ℕ × String) ExecResult :=
  let container := query.container.getD ""
  match findContainerId rt ns podName container with
  | none => .error (notFound ns podName container)
  | some id => (command id).mapError fun e => (500,failed ++ e)

def runExecCore (rt : StreamRuntime) (ns podName : String) (query : ExecQuery) : Except (ℕ × String) ExecResult :=
  runIn rt ns podName query (fun id => rt.execSync id (commandOf query) 30) "exec failed: "

def runAttachCore (rt : StreamRuntime) (ns podName : String) (query : ExecQuery) : Except (ℕ × String) ExecResult :=
  runIn rt ns podName query (fun id => rt.attachSync id 30) "attach failed: "

/-! ## Messages -/

def streamStdout : UInt8 := 1
def streamStderr : UInt8 := 2
def streamError : UInt8 := 3
def streamResize : UInt8 := 4
def streamClose : UInt8 := 255

/-- Protocols older than the fourth, or none, have no status for success. -/
def isLegacyWsProtocol : Option String → Bool
  | some proto => proto == "channel.k8s.io" || proto == "v2.channel.k8s.io" || proto == "v3.channel.k8s.io"
  | none => true

def exitStatusPayloadV1 (exitCode : ℤ) : Option (List UInt8) :=
  if exitCode = 0 then none else some (asBytes ("command terminated with exit code " ++ toString exitCode))

structure WsSocket where
  /-- how many messages the client still takes before it is gone -/
  room : ℕ
  received : List (List UInt8) := []
deriving DecidableEq

namespace WsSocket

/-- `socket.send`; an error leaves the socket as it is. -/
def send (s : WsSocket) (data : List UInt8) : Except WsSocket WsSocket :=
  match s.room with
  | 0 => .error s
  | room + 1 => .ok { room := room, received := s.received ++ [data] }

/-- The socket, whether or not a message has failed. -/
def after : Except WsSocket WsSocket → WsSocket
  | .ok s => s
  | .error s => s

/-- `let _ = socket.send`. -/
def trySend (s : WsSocket) (data : List UInt8) : WsSocket := after (s.send data)

end WsSocket

section Handlers
variable (toText : Json → List UInt8)

def sendExecResultWs (protocol : Option String) (socket : WsSocket) (result : ExecResult) : Except WsSocket WsSocket := do
  let legacy := isLegacyWsProtocol protocol
  let socket ← (if result.stdout.isEmpty then .ok socket else socket.send (FramedMessage.encode ⟨streamStdout,result.stdout⟩))
  let socket ← (if result.stderr.isEmpty then .ok socket else socket.send (FramedMessage.encode ⟨streamStderr,result.stderr⟩))
  let errorPayload :=
    if legacy then exitStatusPayloadV1 result.exitCode else some (toText (exitStatusPayload result.exitCode))
  let socket ← (match errorPayload with
    | some payload => socket.send (FramedMessage.encode ⟨streamError,payload⟩)
    | none => .ok socket)
  return if legacy then socket
    else [streamStdout,streamStderr,streamError].foldl (fun socket streamId => socket.trySend [streamClose,streamId]) socket

/-- What both handlers do with the outcome of the command. -/
def answerWs (protocol : Option String) (socket : WsSocket) : Except (ℕ × String) ExecResult → WsSocket
  | .ok result => WsSocket.after (sendExecResultWs toText protocol socket result)
  | .error (status,message) =>
    socket.trySend (FramedMessage.encode ⟨streamError,toText (failureStatusPayload message status)⟩)

def handleExecWs (rt : StreamRuntime) (ns podName : String) (query : ExecQuery) (protocol : Option String) (socket : WsSocket) :
    WsSocket :=
  answerWs toText protocol socket (runExecCore rt ns podName query)

/-- A binary message, or one of another kind. -/
inductive WsMessage
  | binary (payload : List UInt8)
  | other

/-- The size that a message has for the terminal, as width and height. -/
def resizeOf (fromStr : List UInt8 → Option Json) : WsMessage → Option (UInt32 × UInt32)
  | .other => none
  | .binary payload => do
    let frame ← FramedMessage.decode payload
    if frame.streamId = streamResize then (parseResizeEvent fromStr frame.payload).map Prod.swap else none

/-- The messages are those read before 25 milliseconds pass without one, or the socket ends or
fails. The container is looked for before them and after. The sizes of the terminal are returned with
the container they are for. -/
def handleAttachWs (fromStr : List UInt8 → Option Json) (before after : StreamRuntime) (ns podName : String) (query : ExecQuery)
    (protocol : Option String) (messages : List WsMessage) (socket : WsSocket) : WsSocket × List (String × UInt32 × UInt32) :=
  let container := query.container.getD ""
  match findContainerId before ns podName container with
  | none => (answerWs toText protocol socket (.error (notFound ns podName container)),[])
  | some id => (answerWs toText protocol socket (runAttachCore after ns podName query),
      (messages.filterMap (resizeOf fromStr)).map fun size => (id,size))

end Handlers

/-! ## The container -/

/-- The running container of a pod with a name that no other has been created after. -/
structure Newest (containers : List StreamContainer) (ns podName containerName : String) (c : StreamContainer) : Prop where
  mem : c ∈ containers
  named : c.Named ns podName containerName
  running : c.state = .running
  newest : ∀ c' ∈ containers, c'.Named ns podName containerName → c'.state = .running → c'.createdAt ≤ c.createdAt

section Container
variable {rt : StreamRuntime} {ns podName containerName : String} {containers : List StreamContainer} {c best : StreamContainer}

theorem Newest.concat_of_le (h : Newest containers ns podName containerName best)
    (hle : c.Named ns podName containerName → c.state = .running → c.createdAt ≤ best.createdAt) :
    Newest (containers ++ [c]) ns podName containerName best where
  mem := List.mem_append_left _ h.mem
  named := h.named
  running := h.running
  newest c' hc' hnamed hrunning := by
    rcases List.mem_append.mp hc' with hc' | hc'
    · exact h.newest c' hc' hnamed hrunning
    · obtain rfl := List.mem_singleton.mp hc'
      exact hle hnamed hrunning

theorem newest_concat (hnamed : c.Named ns podName containerName) (hrunning : c.state = .running)
    (hle : ∀ c' ∈ containers, c'.Named ns podName containerName → c'.state = .running → c'.createdAt ≤ c.createdAt) :
    Newest (containers ++ [c]) ns podName containerName c where
  mem := by simp
  named := hnamed
  running := hrunning
  newest c' hc' hnamed' hrunning' := by
    rcases List.mem_append.mp hc' with hc' | hc'
    · exact hle c' hc' hnamed' hrunning'
    · obtain rfl := List.mem_singleton.mp hc'
      exact le_rfl

variable (containers ns podName containerName) in
/-- The loop ends with the newest of the running containers, if there is one. -/
theorem foldl_better : match containers.foldl (better ns podName containerName) none with
    | some c => Newest containers ns podName containerName c
    | none => ∀ c ∈ containers, c.Named ns podName containerName → c.state ≠ .running := by
  induction containers using List.reverseRecOn with
  | nil => simp
  | append_singleton containers c ih =>
    rw [List.foldl_concat]
    cases hbest : containers.foldl (better ns podName containerName) none with
    | none =>
      rw [hbest] at ih
      by_cases hnamed : c.Named ns podName containerName
      · by_cases hrunning : c.state = .running
        · have hnew := newest_concat hnamed hrunning (fun c' hc' hnamed' hrunning' => absurd hrunning' (ih c' hc' hnamed'))
          simpa [better,hnamed,hrunning] using hnew
        · simp only [better,hnamed,hrunning,if_true,if_false,List.mem_append,List.mem_singleton]
          rintro c' (hc' | rfl) hnamed'
          · exact ih c' hc' hnamed'
          · exact hrunning
      · simp only [better,hnamed,if_false,List.mem_append,List.mem_singleton]
        rintro c' (hc' | rfl) hnamed'
        · exact ih c' hc' hnamed'
        · exact absurd hnamed' hnamed
    | some best =>
      rw [hbest] at ih
      by_cases hbetter : c.Named ns podName containerName ∧ c.state = .running ∧ best.createdAt < c.createdAt
      · obtain ⟨hnamed,hrunning,hlt⟩ := hbetter
        have hnew := newest_concat hnamed hrunning
          (fun c' hc' hnamed' hrunning' => (ih.newest c' hc' hnamed' hrunning').trans hlt.le)
        simpa [better,hnamed,hrunning,hlt] using hnew
      · have hold := ih.concat_of_le (c := c) (fun hnamed hrunning => not_lt.mp fun hlt => hbetter ⟨hnamed,hrunning,hlt⟩)
        have hbest : better ns podName containerName (some best) c = some best := by
          simp only [better]
          split
          · next hnamed =>
            split
            · next hrunning => exact if_neg fun hlt => hbetter ⟨hnamed,hrunning,hlt⟩
            · rfl
          · rfl
        simpa [hbest] using hold

theorem findContainerId_some {id : String} (h : findContainerId rt ns podName containerName = some id) :
    ∃ containers c, rt.listContainers = .ok containers ∧ Newest containers ns podName containerName c ∧ c.id = id := by
  simp only [findContainerId] at h
  split at h
  · cases h
  · next containers hlist =>
    obtain ⟨c,hc,rfl⟩ := Option.map_eq_some_iff.mp h
    have hnewest := foldl_better ns podName containerName containers
    rw [hc] at hnewest
    exact ⟨containers,c,hlist,hnewest,rfl⟩

end Container

/-! ## What the client gets -/

/-- The messages for a result: no empty output, no status for the success of a legacy session, and no
closing of its channels. -/
def resultMessages (toText : Json → List UInt8) (protocol : Option String) (result : ExecResult) : List (List UInt8) :=
  let legacy := isLegacyWsProtocol protocol
  (if result.stdout.isEmpty then [] else [FramedMessage.encode ⟨streamStdout,result.stdout⟩]) ++
    ((if result.stderr.isEmpty then [] else [FramedMessage.encode ⟨streamStderr,result.stderr⟩]) ++
      ((if legacy then exitStatusPayloadV1 result.exitCode else some (toText (exitStatusPayload result.exitCode))).toList.map
          (fun payload => FramedMessage.encode ⟨streamError,payload⟩) ++
        if legacy then [] else [streamStdout,streamStderr,streamError].map fun streamId => [streamClose,streamId]))

def messagesFor (toText : Json → List UInt8) (protocol : Option String) : Except (ℕ × String) ExecResult → List (List UInt8)
  | .ok result => resultMessages toText protocol result
  | .error (status,message) => [FramedMessage.encode ⟨streamError,toText (failureStatusPayload message status)⟩]

namespace WsSocket

/-- The client takes what it can of the messages. -/
def offer (s : WsSocket) (messages : List (List UInt8)) : WsSocket :=
  { room := s.room - messages.length, received := s.received ++ messages.take s.room }

/-- A part of a handler that sends these messages, or fails with the first that is not taken. -/
def Speaks (send : WsSocket → Except WsSocket WsSocket) (messages : List (List UInt8)) : Prop :=
  ∀ s, send s = if messages.length ≤ s.room then .ok (s.offer messages) else .error (s.offer messages)

/-- The rest of a handler, whose failures nobody looks at. -/
def Ends (send : WsSocket → Except WsSocket WsSocket) (messages : List (List UInt8)) : Prop :=
  ∀ s, after (send s) = s.offer messages

section Offer
variable {s : WsSocket} {a b : List (List UInt8)} {f g : WsSocket → Except WsSocket WsSocket}

@[simp] theorem offer_nil : s.offer [] = s := by simp [offer]

theorem offer_append : (s.offer a).offer b = s.offer (a ++ b) := by
  simp [offer,List.take_append,Nat.sub_sub]

/-- After a message that is not taken there are no others. -/
theorem offer_append_of_lt (h : s.room < a.length) : s.offer (a ++ b) = s.offer a := by
  have hroom : s.room - a.length = 0 := by omega
  have hroom' : s.room - (a.length + b.length) = 0 := by omega
  simp [offer,List.take_append,hroom,hroom']

theorem speaks_send (data : List UInt8) : Speaks (fun s => s.send data) [data] := by
  intro s
  obtain ⟨room,received⟩ := s
  cases room with
  | zero => simp [send,offer]
  | succ room => simp [send,offer]

theorem speaks_unless (skip : Bool) (data : List UInt8) :
    Speaks (fun s => if skip then .ok s else s.send data) (if skip then [] else [data]) := by
  cases skip with
  | true => exact fun s => by simp
  | false => exact speaks_send data

theorem speaks_option (payload? : Option (List UInt8)) :
    Speaks (fun s => match payload? with
        | some payload => s.send (FramedMessage.encode ⟨streamError,payload⟩)
        | none => .ok s)
      (payload?.toList.map fun payload => FramedMessage.encode ⟨streamError,payload⟩) := by
  cases payload? with
  | none => exact fun s => by simp
  | some payload => exact speaks_send _

theorem Speaks.bind (hf : Speaks f a) (hg : Ends g b) : Ends (fun s => f s >>= g) (a ++ b) := by
  intro s
  dsimp only
  rw [hf s]
  split
  · next ha =>
    have hrest : after (g (s.offer a)) = (s.offer a).offer b := hg (s.offer a)
    exact hrest.trans offer_append
  · next ha => exact (offer_append_of_lt (by omega)).symm

/-- Messages whose errors are ignored. -/
theorem foldl_trySend (l : List (List UInt8)) : l.foldl trySend s = s.offer l := by
  induction l generalizing s with
  | nil => simp
  | cons data l ih =>
    have hsend : s.trySend data = s.offer [data] := by
      simp only [trySend,speaks_send data s]
      split <;> rfl
    rw [List.foldl_cons,ih,hsend,offer_append,List.singleton_append]

end Offer
end WsSocket

section Answer
open WsSocket
variable {toText : Json → List UInt8} {protocol : Option String} {socket : WsSocket}

/-- Whatever the client takes, it is the beginning of the same messages. -/
theorem answerWs_eq (run : Except (ℕ × String) ExecResult) :
    answerWs toText protocol socket run = socket.offer (messagesFor toText protocol run) := by
  cases run with
  | error e => exact foldl_trySend [FramedMessage.encode ⟨streamError,toText (failureStatusPayload e.2 e.1)⟩]
  | ok result =>
    have hcloses : Ends (fun s => .ok (if isLegacyWsProtocol protocol then s
          else [streamStdout,streamStderr,streamError].foldl (fun s streamId => s.trySend [streamClose,streamId]) s))
        (if isLegacyWsProtocol protocol then []
          else [streamStdout,streamStderr,streamError].map fun streamId => [streamClose,streamId]) := by
      intro s
      cases isLegacyWsProtocol protocol with
      | true => simp [after]
      | false => exact foldl_trySend [[streamClose,streamStdout],[streamClose,streamStderr],[streamClose,streamError]]
    have hstatus := (speaks_option (if isLegacyWsProtocol protocol then exitStatusPayloadV1 result.exitCode
      else some (toText (exitStatusPayload result.exitCode)))).bind hcloses
    have hstderr := (speaks_unless result.stderr.isEmpty (FramedMessage.encode ⟨streamStderr,result.stderr⟩)).bind hstatus
    exact (speaks_unless result.stdout.isEmpty (FramedMessage.encode ⟨streamStdout,result.stdout⟩)).bind hstderr socket

theorem received_answerWs (run : Except (ℕ × String) ExecResult) (room : ℕ) :
    (answerWs toText protocol ⟨room,[]⟩ run).received = (messagesFor toText protocol run).take room := by
  simp [answerWs_eq,offer]

variable (toText protocol) in
theorem length_messagesFor_le (run : Except (ℕ × String) ExecResult) : (messagesFor toText protocol run).length ≤ 6 := by
  cases run with
  | error e => simp [messagesFor]
  | ok result =>
    have hunless (skip : Bool) (data : List UInt8) : (if skip then [] else [data]).length ≤ 1 := by cases skip <;> simp
    have hstatus (payload? : Option (List UInt8)) : payload?.toList.length ≤ 1 := by cases payload? <;> simp
    have hcloses : (if isLegacyWsProtocol protocol then []
        else [streamStdout,streamStderr,streamError].map fun streamId => [streamClose,streamId]).length ≤ 3 := by
      split <;> simp
    have h₁ := hunless result.stdout.isEmpty (FramedMessage.encode ⟨streamStdout,result.stdout⟩)
    have h₂ := hunless result.stderr.isEmpty (FramedMessage.encode ⟨streamStderr,result.stderr⟩)
    have h₃ := hstatus (if isLegacyWsProtocol protocol then exitStatusPayloadV1 result.exitCode
      else some (toText (exitStatusPayload result.exitCode)))
    simp only [messagesFor,resultMessages,List.length_append,List.length_map]
    omega

end Answer

/-! ## The same output as over SPDY -/

/-- What is said of a run, each part with the kind of its stream. -/
def spoken (toText : Json → List UInt8) : Except (ℕ × String) ExecResult → List (SpdyStreamKind × List UInt8)
  | .ok result => [(.stdout,result.stdout),(.stderr,result.stderr),(.error,toText (exitStatusPayload result.exitCode))]
  | .error (status,message) => [(.error,toText (failureStatusPayload message status))]

def spokenOn (toText : Json → List UInt8) (run : Except (ℕ × String) ExecResult) (kind : SpdyStreamKind) : List UInt8 :=
  (spoken toText run).flatMap fun part => if part.1 = kind then part.2 else []

/-- The channel of a WebSocket for a kind of stream. -/
def channelOf : SpdyStreamKind → Option UInt8
  | .stdout => some streamStdout
  | .stderr => some streamStderr
  | .error => some streamError
  | _ => none

section Agreement
open SpdySession
variable {D E : Type} {codec : SessionCodec D E} {s : SpdySession D E} {protocol : Option String} {kind : SpdyStreamKind} {c : UInt8}
  {streamId : UInt32}

theorem demux_append (a b : List (List UInt8)) : demux c (a ++ b) = demux c a ++ demux c b := List.flatMap_append

theorem demux_unless (payload : List UInt8) (id : UInt8) :
    demux c (if payload.isEmpty then [] else [FramedMessage.encode ⟨id,payload⟩]) = if id = c then payload else [] := by
  cases payload with
  | nil => simp [demux]
  | cons b payload => simp [demux,payloadOn_encode]

theorem demux_status (payload? : Option (List UInt8)) :
    demux c (payload?.toList.map fun payload => FramedMessage.encode ⟨streamError,payload⟩) =
      if streamError = c then payload?.getD [] else [] := by
  cases payload? with
  | none => simp [demux]
  | some payload => simp [demux,payloadOn_encode]

/-- Nothing is closed on a channel that has output. -/
theorem demux_closes (hchannel : channelOf kind = some c) (ids : List UInt8) : demux c (ids.map fun id => [streamClose,id]) = [] := by
  have hne : streamClose ≠ c := by
    cases kind <;> simp only [channelOf,Option.some.injEq,reduceCtorEq] at hchannel <;> subst hchannel <;> decide
  simp [demux,payloadOn,FramedMessage.decode,hne]

theorem demux_messagesFor (toText : Json → List UInt8) (run : Except (ℕ × String) ExecResult) (hchannel : channelOf kind = some c)
    (hmodern : kind = .error → isLegacyWsProtocol protocol = false) :
    demux c (messagesFor toText protocol run) = spokenOn toText run kind := by
  have hchannels : (streamStdout = c ↔ kind = .stdout) ∧ (streamStderr = c ↔ kind = .stderr) ∧ (streamError = c ↔ kind = .error) := by
    cases kind <;> simp only [channelOf,Option.some.injEq,reduceCtorEq] at hchannel <;> subst hchannel <;> decide
  cases run with
  | error e =>
    simp [messagesFor,demux,payloadOn_encode,hchannels,spokenOn,spoken,eq_comm]
  | ok result =>
    have hcloses : demux c (if isLegacyWsProtocol protocol then []
        else [streamStdout,streamStderr,streamError].map fun streamId => [streamClose,streamId]) = [] := by
      split
      · rfl
      · exact demux_closes hchannel _
    simp only [messagesFor,resultMessages,demux_append,demux_unless,demux_status,hcloses,hchannels]
    by_cases herror : kind = .error
    · simp [hmodern herror,herror,spokenOn,spoken]
    · simp [herror,spokenOn,spoken,eq_comm]

/-- Over SPDY the parts for a stream of the client are those of its kind. -/
theorem flatMap_outputs_spoken (run : Except (ℕ × String) ExecResult) (hstdout : s.has .stdout = true)
    (hkind : ∀ kind', s.streamMap.lookup kind' = some streamId ↔ kind' = kind) :
    (s.outputs codec run).flatMap (fun o => if o.1 = streamId then o.2 else []) = spokenOn codec.toText run kind := by
  cases run with
  | ok result => simp [flatMap_outputs hstdout,hkind,spokenOn,spoken]
  | error e => simp [outputs,hstdout,flatMap_outputFor,hkind,spokenOn,spoken]

/-- A stream of the client is of one kind. -/
theorem lookup_iff (hs : s.Answered) (hnodup : (synIds s.handled).Nodup) (hstream : s.streamMap.lookup kind = some streamId)
    (kind' : SpdyStreamKind) : s.streamMap.lookup kind' = some streamId ↔ kind' = kind := by
  constructor
  · exact fun h => hs.apart hnodup kind' kind streamId h hstream
  · rintro rfl
    exact hstream

/-- The messages of a WebSocket have on each channel what a SPDY session has on the stream of that
kind: as much of it as was taken before the client was gone, and all of it if all was taken. -/
def SameOutput (protocol : Option String) (s : SpdySession D E) (room : ℕ) (received : List (List UInt8)) (bytes : List UInt8) :
    Prop :=
  ∀ kind c streamId, channelOf kind = some c → s.streamMap.lookup kind = some streamId →
    (kind = .error → isLegacyWsProtocol protocol = false) →
    demux c received <+: delivered streamId bytes ∧ (6 ≤ room → demux c received = delivered streamId bytes)

theorem sameOutput_answerWs (hs : s.Answered) (hnodup : (synIds s.handled).Nodup) (hstdout : s.has .stdout = true)
    {run : Except (ℕ × String) ExecResult} (h : Legible codec s run) (room : ℕ) :
    SameOutput protocol s room (answerWs codec.toText protocol ⟨room,[]⟩ run).received (s.conclude codec run).bytesOf := by
  intro kind c streamId hchannel hstream hmodern
  rw [delivered_conclude hs h,flatMap_outputs_spoken run hstdout (lookup_iff hs hnodup hstream),received_answerWs,
    ← demux_messagesFor codec.toText run hchannel hmodern]
  constructor
  · have hprefix := demux_isPrefix (c := c) ((messagesFor codec.toText protocol run).take room)
      ((messagesFor codec.toText protocol run).drop room)
    rwa [List.take_append_drop] at hprefix
  · intro hroom
    rw [List.take_of_length_le ((length_messagesFor_le codec.toText protocol run).trans hroom)]

/-- The command has run in the newest running container of that name. -/
def RanIn (rt : StreamRuntime) (ns podName containerName : String) (command : String → Except String ExecResult)
    (result : ExecResult) : Prop :=
  ∃ containers c, rt.listContainers = .ok containers ∧ Newest containers ns podName containerName c ∧ command c.id = .ok result

variable {rt before : StreamRuntime} {ns podName : String} {query : ExecQuery} {containerId : Option String}
  {reads : List (Option SpdyWireFrame)}

theorem runIn_ok {command : String → Except String ExecResult} {failed : String} {result : ExecResult}
    (h : runIn rt ns podName query command failed = .ok result) : RanIn rt ns podName (query.container.getD "") command result := by
  simp only [runIn] at h
  split at h
  · cases h
  · next id hid =>
    obtain ⟨containers,c,hlist,hnewest,rfl⟩ := findContainerId_some hid
    refine ⟨containers,c,hlist,hnewest,?_⟩
    cases hcommand : command c.id with
    | ok ran => simpa [hcommand,Except.mapError] using h
    | error e => simp [hcommand,Except.mapError] at h

/-- An attach session looks for its container twice; what counts is the second time. -/
theorem handleAttachWs_eq (toText : Json → List UInt8) (fromStr : List UInt8 → Option Json) (messages : List WsMessage)
    (socket : WsSocket) (hfound : findContainerId rt ns podName (query.container.getD "") ≠ none →
      findContainerId before ns podName (query.container.getD "") ≠ none) :
    (handleAttachWs toText fromStr before rt ns podName query protocol messages socket).1 =
      answerWs toText protocol socket (runAttachCore rt ns podName query) := by
  simp only [handleAttachWs]
  split
  · next hnone =>
    have hgone : findContainerId rt ns podName (query.container.getD "") = none := by
      by_contra hsome
      exact hfound hsome hnone
    simp [runAttachCore,runIn,hgone]
  · rfl

variable (rt before ns podName) in
/-- An exec or an attach request gives the same over a WebSocket and over SPDY, in whatever order the
client opens its streams: each output and the status on its own channel, as far as the client takes
the messages, and all of it if it takes all. What runs does so in the newest running container that the
request names. -/
theorem same_over_spdy (d : D) (e : E) (hclosed : negotiate codec query containerId (start d e) reads = .closed s)
    (hnodup : (synIds s.handled).Nodup) (hstdout : s.has .stdout = true) (room : ℕ) :
    (Legible codec s (runExecCore rt ns podName query) →
      SameOutput protocol s room (handleExecWs codec.toText rt ns podName query protocol ⟨room,[]⟩).received
        (s.conclude codec (runExecCore rt ns podName query)).bytesOf) ∧
      (Legible codec s (runAttachCore rt ns podName query) → ∀ messages,
        (findContainerId rt ns podName (query.container.getD "") ≠ none →
          findContainerId before ns podName (query.container.getD "") ≠ none) →
        SameOutput protocol s room
          (handleAttachWs codec.toText codec.fromStr before rt ns podName query protocol messages ⟨room,[]⟩).1.received
          (s.conclude codec (runAttachCore rt ns podName query)).bytesOf) ∧
      (∀ result, runExecCore rt ns podName query = .ok result →
        RanIn rt ns podName (query.container.getD "") (fun id => rt.execSync id (commandOf query) 30) result) ∧
      ∀ result, runAttachCore rt ns podName query = .ok result →
        RanIn rt ns podName (query.container.getD "") (fun id => rt.attachSync id 30) result := by
  have hs : s.Answered := (answered_start d e).negotiate hclosed
  refine ⟨fun hlegible => sameOutput_answerWs hs hnodup hstdout hlegible room,fun hlegible messages hfound => ?_,
    fun _ => runIn_ok,fun _ => runIn_ok⟩
  rw [handleAttachWs_eq codec.toText codec.fromStr messages ⟨room,[]⟩ hfound]
  exact sameOutput_answerWs hs hnodup hstdout hlegible room

end Agreement

/-- A pod with a container that has been restarted. -/
def webRuntime : StreamRuntime where
  listContainers :=
    let labels : HashMap String String := ((AList.insert "kubelet.rs/container_name" "web" ∅).insert "kubelet.rs/pod_name" "web").insert
      "kubelet.rs/pod_namespace" "default"
    .ok [⟨"c1",.exited,1,labels⟩,⟨"c2",.running,2,labels⟩]
  execSync id _ _ := if id = "c2" then .ok SpdySession.failed else .error "not running"
  attachSync _ _ := .error "not running"

theorem same_over_spdy_web : ∃ s : SpdySession ℕ ℕ,
    SpdySession.negotiate SpdySession.plainCodec {} (some "container") (SpdySession.start 0 0) SpdySession.kubectlReads = .closed s ∧
      runExecCore webRuntime "default" "web" {} = .ok SpdySession.failed ∧
      SameOutput (some "v4.channel.k8s.io") s 2
        (handleExecWs SpdySession.plainCodec.toText webRuntime "default" "web" {} (some "v4.channel.k8s.io") ⟨2,[]⟩).received
        (s.conclude SpdySession.plainCodec (runExecCore webRuntime "default" "web" {})).bytesOf := by
  obtain ⟨s,hclosed,hnodup,hstdout,hreadable⟩ := SpdySession.readable_kubectl
  have hrun : runExecCore webRuntime "default" "web" {} = .ok SpdySession.failed := by decide +kernel
  have hhas : s.has .stdout = true := by simp [SpdySession.has,hstdout]
  have hlegible : SpdySession.Legible SpdySession.plainCodec s (runExecCore webRuntime "default" "web" {}) :=
    hrun ▸ hreadable.legible hhas
  exact ⟨s,hclosed,hrun,(same_over_spdy webRuntime webRuntime "default" "web" 0 0 hclosed hnodup hhas 2).1 hlegible⟩

end KubeAir.Streaming
