import KubeAir.Streaming.PortForward

/-! # Errors of forwarded connections

A forwarded connection is a pair of streams, one for its errors and one for its data, which
the client ties together by a request. The loop ties them together by their ids: it expects
the error stream right behind the data stream, where the client opens it first.
-/
namespace KubeAir.Streaming.PortForward
open Core Transition Wire
variable (codec : HeaderCodec)

def streamTypeOf (rawNv : List UInt8) : String := ((codec.decode rawNv).lookup "streamtype").getD ""

def portOf (rawNv : List UInt8) : ℕ := (((codec.decode rawNv).lookup "port").bind (parseUnsigned 16)).getD 0

/-- The request that a stream belongs to; the loop does not look at it. -/
def requestOf (rawNv : List UInt8) : Option String := (codec.decode rawNv).lookup "requestid"

def OpensError (rawNv : List UInt8) : Prop := streamTypeOf codec rawNv = "error"

def OpensData (rawNv : List UInt8) : Prop := streamTypeOf codec rawNv = "data" ∧ 0 < portOf codec rawNv

def synOf : SpdyWireFrame → Option (UInt32 × List UInt8)
  | .synStream streamId rawNv => some (streamId,rawNv)
  | _ => none

/-- The streams that the client has opened, in order. -/
def synStreams (handled : List SpdyWireFrame) : List (UInt32 × List UInt8) := handled.filterMap synOf

/-- Odd ids that go up, and for every connection an error stream and then a data stream. -/
structure Kubectl (handled : List SpdyWireFrame) : Prop where
  odd : ∀ p ∈ synStreams handled, p.1.toNat % 2 = 1
  increasing : (synStreams handled).Pairwise (fun p q => p.1 < q.1)
  paired : ∀ pre p post, synStreams handled = pre ++ p :: post → OpensData codec p.2 →
    ∃ q ∈ pre, OpensError codec q.2 ∧ requestOf codec q.2 = requestOf codec p.2
  apart : (synStreams handled).Pairwise (fun p q =>
    requestOf codec p.2 = requestOf codec q.2 → streamTypeOf codec p.2 ≠ streamTypeOf codec q.2)

/-- The data stream and the error stream of one connection. -/
def Pair (handled : List SpdyWireFrame) (dataId errId : UInt32) : Prop :=
  ∃ p ∈ synStreams handled, ∃ q ∈ synStreams handled, p.1 = dataId ∧ q.1 = errId ∧ OpensData codec p.2 ∧
    OpensError codec q.2 ∧ requestOf codec p.2 = requestOf codec q.2

/-- An action at which the connection of a data stream fails, with the message that says so. -/
inductive Fails (s : PortForward) : PortForwardAction → UInt32 → String → Prop
  | connect {b : UInt8} {inbound rawNv : List UInt8} {streamId : UInt32} (e : String) : s.inbound = b :: inbound →
      spdyFormat.push s.consumed b = .finished (.item (.synStream streamId rawNv)) → OpensData codec rawNv →
      Fails s (.consume (.error e)) streamId ("connect failed: " ++ e)
  | read {task : RelayTask} (e : String) : task ∈ s.relayTasks → Fails s (.fail task e) task.streamId ("tcp read error: " ++ e)

def dataOf : SpdyWireFrame → Option (UInt32 × UInt8 × List UInt8)
  | .data streamId flags payload => some (streamId,flags,payload)
  | _ => none

/-- The data frames that a step writes to the client or gives to the relay. -/
def emitted (s t : PortForward) : List (UInt32 × UInt8 × List UInt8) :=
  (t.outbound.drop s.outbound.length ++ t.relayRx.drop s.relayRx.length).filterMap dataOf

/-- A failure is told on the error stream of its connection, and on that one alone. -/
def Reports (s : PortForward) (action : PortForwardAction) (t : PortForward) : Prop :=
  ∀ dataId text, Fails codec s action dataId text →
    ∃ errId, Pair codec t.handled dataId errId ∧ emitted s t = [(errId,0x01,text.toUTF8.toList)]

/-- Nothing fails at the action. -/
def Sound (s : PortForward) (action : PortForwardAction) : Prop := ∀ dataId text, ¬Fails codec s action dataId text

section Errors
variable {codec} {s t : PortForward} {connect : Except String Unit} {streamId : UInt32} {rawNv : List UInt8}

/-! ## What the streams leave behind -/

theorem openStream_of_error (h : OpensError codec rawNv) (s : PortForward) (connect : Except String Unit) (streamId : UInt32) :
    (s.openStream codec connect streamId rawNv).streamToErr = s.streamToErr.insert (if streamId = 0 then 0 else streamId - 1) streamId ∧
    (s.openStream codec connect streamId rawNv).relayTasks = s.relayTasks := by
  unfold OpensError streamTypeOf at h
  unfold openStream
  dsimp only
  rw [if_pos h]
  exact ⟨rfl,rfl⟩

theorem openStream_of_not_error (h : ¬OpensError codec rawNv) (s : PortForward) (connect : Except String Unit)
    (streamId : UInt32) :
    (s.openStream codec connect streamId rawNv).streamToErr = s.streamToErr ∧
    ∀ task ∈ (s.openStream codec connect streamId rawNv).relayTasks, task ∈ s.relayTasks ∨
      task = ⟨streamId,s.streamToErr.lookup streamId⟩ := by
  unfold OpensError streamTypeOf at h
  unfold openStream
  dsimp only
  rw [if_neg h]
  split
  · cases connect with
    | ok =>
      refine ⟨rfl,fun task htask => ?_⟩
      exact (List.mem_append.mp htask).imp id List.mem_singleton.mp
    | error e =>
      dsimp only
      split
      · exact ⟨rfl,fun _ htask => .inl htask⟩
      · exact ⟨rfl,fun _ htask => .inl htask⟩
  · exact ⟨rfl,fun _ htask => .inl htask⟩

/-- The error streams are filed under even ids, so no connection has one. -/
structure Unpaired (s : PortForward) : Prop where
  even : ∀ k e, s.streamToErr.lookup k = some e → k.toNat % 2 = 0
  alone : ∀ task ∈ s.relayTasks, task.errStreamId = none

theorem Unpaired.lookup_eq_none (h : Unpaired s) (hodd : streamId.toNat % 2 = 1) : s.streamToErr.lookup streamId = none := by
  cases hlookup : s.streamToErr.lookup streamId with
  | none => rfl
  | some e =>
    have heven := h.even streamId e hlookup
    omega

theorem even_pred (h : streamId.toNat % 2 = 1) : (if streamId = 0 then 0 else streamId - 1).toNat % 2 = 0 := by
  have hpos : 1 ≤ streamId.toNat := by omega
  rw [if_neg]
  · rw [UInt32.toNat_sub_of_le streamId 1 (UInt32.le_iff_toNat_le.mpr hpos)]
    show (streamId.toNat - 1) % 2 = 0
    omega
  · rintro rfl
    exact absurd hpos (by decide)

theorem Unpaired.openStream (h : Unpaired s) (hodd : streamId.toNat % 2 = 1) :
    Unpaired (s.openStream codec connect streamId rawNv) := by
  by_cases herror : OpensError codec rawNv
  · obtain ⟨herr,htasks⟩ := openStream_of_error herror s connect streamId
    refine ⟨?_,fun task htask => h.alone task (htasks ▸ htask)⟩
    intro k e hlookup
    rw [herr] at hlookup
    rcases HashMap.lookup_insert_eq_some.mp hlookup with ⟨rfl,-⟩ | ⟨-,hlookup⟩
    · exact even_pred hodd
    · exact h.even k e hlookup
  · obtain ⟨herr,htasks⟩ := openStream_of_not_error herror s connect streamId
    refine ⟨fun k e hlookup => h.even k e (herr ▸ hlookup),?_⟩
    intro task htask
    rcases htasks task htask with htask | rfl
    · exact h.alone task htask
    · exact h.lookup_eq_none hodd

/-- A data stream that cannot connect, and for which no error stream is filed. -/
theorem openStream_unreported (h : OpensData codec rawNv) (hnone : s.streamToErr.lookup streamId = none) (e : String) :
    s.openStream codec (.error e) streamId rawNv = s.write (.synReply streamId (codec.encode replyHeaders)) := by
  obtain ⟨htype,hport⟩ := h
  unfold streamTypeOf at htype
  unfold portOf at hport
  unfold openStream
  dsimp only
  rw [if_neg (by rw [htype]; decide),if_pos ⟨htype,hport⟩]
  have hlookup : (s.write (.synReply streamId (codec.encode replyHeaders))).streamToErr.lookup streamId = none := hnone
  rw [hlookup]

theorem Unpaired.of_eq (h : Unpaired s) (herr : t.streamToErr = s.streamToErr)
    (htasks : ∀ task ∈ t.relayTasks, task ∈ s.relayTasks) : Unpaired t :=
  ⟨fun k e hlookup => h.even k e (herr ▸ hlookup),fun task htask => h.alone task (htasks task htask)⟩

theorem Unpaired.stop (h : Unpaired s) : Unpaired s.stop := h.of_eq rfl fun _ hmem => absurd hmem List.not_mem_nil

theorem Unpaired.handle (h : Unpaired s) {frame : SpdyWireFrame} (hodd : ∀ p, synOf frame = some p → p.1.toNat % 2 = 1) :
    Unpaired (s.handle codec connect frame) := by
  cases frame with
  | synStream streamId rawNv => exact h.openStream (hodd (streamId,rawNv) rfl)
  | data streamId flags payload =>
    unfold PortForward.handle
    dsimp only
    split
    · exact h.of_eq rfl fun _ htask => htask
    · exact h
  | synReply | rstStream => exact h
  | ping => exact h.of_eq rfl fun _ htask => htask
  | goAway => exact h.stop

/-! ## A step of the loop -/

theorem consumeByte_of_item {b : UInt8} {frame : SpdyWireFrame} (h : spdyFormat.push s.consumed b = .finished (.item frame)) :
    consumeByte codec connect s b = handle codec connect { s with consumed := [], handled := s.handled ++ [frame] } frame := by
  unfold consumeByte
  rw [h]

/-- The frame that a byte completes is handled, and no other frame. -/
theorem handled_consumeByte (codec : HeaderCodec) (s : PortForward) (connect : Except String Unit) (b : UInt8) :
    (consumeByte codec connect s b).handled = s.handled ∧
    (Unpaired s → Unpaired (consumeByte codec connect s b)) ∨ ∃ frame,
      (consumeByte codec connect s b).handled = s.handled ++ [frame] ∧ consumeByte codec connect s b =
        handle codec connect { s with consumed := [], handled := s.handled ++ [frame] } frame := by
  unfold consumeByte
  cases spdyFormat.push s.consumed b with
  | pending consumed => exact .inl ⟨rfl,fun h => h.of_eq rfl fun _ htask => htask⟩
  | finished d =>
    cases d with
    | skip => exact .inl ⟨rfl,fun h => h.of_eq rfl fun _ htask => htask⟩
    | malformed => exact .inl ⟨rfl,Unpaired.stop⟩
    | item frame => exact .inr ⟨frame,(undisturbed_handle frame).handled,rfl⟩

/-- A byte that is taken in adds at most a frame to those handled. -/
theorem handled_consumed (codec : HeaderCodec) (s : PortForward) (connect : Except String Unit) (b : UInt8) :
    s.handled <+: (consumeByte codec connect s b).handled ∧
      ((∀ p ∈ synStreams (consumeByte codec connect s b).handled, p.1.toNat % 2 = 1) → Unpaired s →
        Unpaired (consumeByte codec connect s b)) := by
  rcases handled_consumeByte codec s connect b with ⟨hhandled,hkeep⟩ | ⟨frame,hhandled,heq⟩
  · exact ⟨hhandled.symm ▸ List.prefix_rfl,fun _ h => hkeep h⟩
  · refine ⟨?_,fun hodd h => ?_⟩
    · rw [hhandled]
      exact List.prefix_append _ _
    · rw [heq]
      have hkept : Unpaired { s with consumed := [], handled := s.handled ++ [frame] } := h.of_eq rfl fun _ htask => htask
      refine hkept.handle ?_
      intro p hp
      refine hodd p (List.mem_filterMap.mpr ⟨frame,?_,hp⟩)
      rw [hhandled]
      exact List.mem_append_right _ List.mem_cons_self

/-- The handled frames stay, and streams with odd ids have no error stream filed. -/
theorem handled_step {action : PortForwardAction} (hs : s.step codec action = some t) : s.handled <+: t.handled ∧
    ((∀ p ∈ synStreams t.handled, p.1.toNat % 2 = 1) → Unpaired s → Unpaired t) := by
  unfold step at hs
  split at hs
  · cases hs
  cases action with
  | arrive bytes =>
    dsimp only at hs
    split at hs
    · cases hs
    · obtain rfl := Option.some.inj hs
      exact ⟨List.prefix_rfl,fun _ h => h.of_eq rfl fun _ htask => htask⟩
  | closeClient =>
    obtain rfl := Option.some.inj hs
    exact ⟨List.prefix_rfl,fun _ h => h.of_eq rfl fun _ htask => htask⟩
  | produce task payload =>
    obtain ⟨-,hs⟩ := Option.ite_none_right_eq_some.mp hs
    obtain rfl := Option.some.inj hs
    exact ⟨List.prefix_rfl,fun _ h => h.of_eq rfl fun _ htask => htask⟩
  | finish task =>
    obtain ⟨-,hs⟩ := Option.ite_none_right_eq_some.mp hs
    obtain rfl := Option.some.inj hs
    exact ⟨List.prefix_rfl,fun _ h => h.of_eq rfl fun _ htask => List.mem_of_mem_erase htask⟩
  | fail task error =>
    obtain ⟨-,hs⟩ := Option.ite_none_right_eq_some.mp hs
    dsimp only at hs
    split at hs
    · obtain rfl := Option.some.inj hs
      exact ⟨List.prefix_rfl,fun _ h => h.of_eq rfl fun _ htask => List.mem_of_mem_erase htask⟩
    · obtain rfl := Option.some.inj hs
      exact ⟨List.prefix_rfl,fun _ h => h.of_eq rfl fun _ htask => List.mem_of_mem_erase htask⟩
  | consume connect =>
    dsimp only at hs
    split at hs
    · next b inbound _ =>
      obtain rfl := Option.some.inj hs
      have hconsumed := handled_consumed codec { s with inbound := inbound } connect b
      exact ⟨hconsumed.1,fun hodd h => hconsumed.2 hodd (h.of_eq rfl fun _ htask => htask)⟩
    · cases hs
  | readFails =>
    obtain ⟨-,hs⟩ := Option.ite_none_right_eq_some.mp hs
    obtain rfl := Option.some.inj hs
    exact ⟨List.prefix_rfl,fun _ h => h.stop⟩
  | relay =>
    dsimp only at hs
    split at hs
    · obtain rfl := Option.some.inj hs
      exact ⟨List.prefix_rfl,fun _ h => h.of_eq rfl fun _ htask => htask⟩
    · cases hs

theorem handled_runs {actions : List PortForwardAction} (hr : Runs (ofStep (step codec)) s actions t) :
    s.handled <+: t.handled := by
  induction hr with
  | nil _ => exact List.prefix_rfl
  | cons hs _ ih => exact (handled_step hs).1.trans ih

theorem odd_of_isPrefix {l l' : List SpdyWireFrame} (h : l <+: l') (hodd : ∀ p ∈ synStreams l', p.1.toNat % 2 = 1) :
    ∀ p ∈ synStreams l, p.1.toNat % 2 = 1 := by
  obtain ⟨rest,rfl⟩ := h
  intro p hp
  refine hodd p ?_
  unfold synStreams
  rw [List.filterMap_append]
  exact List.mem_append_left _ hp

/-- A failure is not told at all. -/
theorem emitted_eq_nil {action : PortForwardAction} {dataId : UInt32} {text : String} (hs : s.step codec action = some t)
    (h : Unpaired s) (hodd : ∀ p ∈ synStreams t.handled, p.1.toNat % 2 = 1) (hfails : Fails codec s action dataId text) :
    emitted s t = [] := by
  unfold step at hs
  split at hs
  · cases hs
  unfold emitted
  cases hfails with
  | read e htask =>
    obtain ⟨-,hs⟩ := Option.ite_none_right_eq_some.mp hs
    dsimp only at hs
    rw [h.alone _ htask] at hs
    obtain rfl := Option.some.inj hs
    rw [List.drop_length,List.drop_length]
    rfl
  | connect e hinbound hpush hdata =>
    next b inbound rawNv =>
    dsimp only at hs
    rw [hinbound] at hs
    obtain rfl := Option.some.inj hs
    let s' : PortForward := { s with inbound := inbound, consumed := [], handled := s.handled ++ [.synStream dataId rawNv] }
    have hitem : consumeByte codec (.error e) { s with inbound := inbound } b = s'.handle codec (.error e) (.synStream dataId rawNv) :=
      consumeByte_of_item hpush
    rw [hitem] at hodd ⊢
    have hid : dataId.toNat % 2 = 1 := by
      refine hodd (dataId,rawNv) (List.mem_filterMap.mpr ⟨.synStream dataId rawNv,?_,rfl⟩)
      rw [(undisturbed_handle _).handled]
      exact List.mem_append_right _ List.mem_cons_self
    have hopen : s'.handle codec (.error e) (.synStream dataId rawNv) = s'.write (.synReply dataId (codec.encode replyHeaders)) :=
      openStream_unreported (s := s') hdata (h.lookup_eq_none hid) e
    rw [hopen]
    show ((s.outbound ++ [_]).drop s.outbound.length ++ s.relayRx.drop s.relayRx.length).filterMap dataOf = []
    rw [List.drop_left,List.drop_length]
    rfl

/-! ## Sessions -/

theorem unpaired_start : Unpaired {} where
  even := fun _ _ hlookup => nomatch hlookup
  alone := fun _ hmem => absurd hmem List.not_mem_nil

theorem unpaired_of_runs {actions : List PortForwardAction} (hr : Runs (ofStep (step codec)) s actions t)
    (hodd : ∀ p ∈ synStreams t.handled, p.1.toNat % 2 = 1) (h : Unpaired s) : Unpaired t := by
  induction hr with
  | nil _ => exact h
  | cons hs hrest ih => exact ih hodd ((handled_step hs).2 (odd_of_isPrefix (handled_runs hrest) hodd) h)

theorem sound_of_reports {action : PortForwardAction} (hs : s.step codec action = some t) (h : Unpaired s)
    (hodd : ∀ p ∈ synStreams t.handled, p.1.toNat % 2 = 1) (hreports : Reports codec s action t) : Sound codec s action := by
  intro dataId text hfails
  obtain ⟨errId,-,hemitted⟩ := hreports dataId text hfails
  rw [emitted_eq_nil hs h hodd hfails] at hemitted
  cases hemitted

/-- In a session of such a client no failure is told, so that the session tells every failure
only if there is none to tell. -/
theorem reports_iff_sound {actions : List PortForwardAction} (hk : Kubectl codec s.handled) :
    Runs (fun s a t => ofStep (step codec) s a t ∧ Reports codec s a t) {} actions s ↔
      Runs (Guarded (Sound codec) (ofStep (step codec))) {} actions s := by
  constructor
  · intro hr
    have hstart := unpaired_start
    generalize ({} : PortForward) = s₀ at hr hstart
    induction hr with
    | nil _ => exact .nil _
    | cons hs hrest ih =>
      have hodd := odd_of_isPrefix (handled_runs (hrest.mono fun _ _ _ h => h.1)) hk.odd
      exact .cons ⟨sound_of_reports hs.1 hstart hodd hs.2,hs.1⟩ (ih hk ((handled_step hs.1).2 hodd hstart))
  · intro hr
    exact hr.mono fun _ _ _ h => ⟨h.2,fun dataId text hfails => absurd hfails (h.1 dataId text)⟩

end Errors

/-- Header blocks of one connection to port 80; the one of its error stream has a byte. -/
def pairCodec : HeaderCodec where
  decode rawNv :=
    if rawNv = [] then AList.insert "streamtype" "data" (AList.insert "port" "80" (AList.insert "requestid" "0" ∅))
    else AList.insert "streamtype" "error" (AList.insert "port" "80" (AList.insert "requestid" "0" ∅))
  encode _ := []

/-- A SYN_STREAM for the error stream 1, and what comes before the last byte of one for the data stream 3. -/
def pairBytes : List UInt8 := [0x80,3,0,1,0,0,0,11,0,0,0,1,0,0,0,0,0,0,1] ++ [0x80,3,0,1,0,0,0,10,0,0,0,3,0,0,0,0,0]

/-- The client opens both streams, and the port refuses the connection. -/
def refusedActions : List PortForwardAction := (.arrive (pairBytes ++ [0]) :: consumeAll pairBytes) ++ [.consume (.error "refused")]

theorem runs_refused : ∃ s, Runs (ofStep (step pairCodec)) {} refusedActions s ∧ Kubectl pairCodec s.handled := by
  have hexec : (exec (step pairCodec) {} refusedActions).map (fun s => s.handled) =
      some [.synStream 1 [1],.synStream 3 []] := by
    decide +kernel
  obtain ⟨s,hs,hhandled⟩ := Option.map_eq_some_iff.mp hexec
  refine ⟨s,runs_of_exec hs,?_⟩
  rw [hhandled]
  have hstreams : synStreams [.synStream 1 [1],.synStream 3 []] = [(1,[1]),(3,[])] := rfl
  refine ⟨?_,?_,?_,?_⟩
  · rw [hstreams]
    decide
  · rw [hstreams]
    decide
  · rw [hstreams]
    intro pre p post hsplit hdata
    rcases pre with _ | ⟨q,_ | ⟨q',pre⟩⟩
    · obtain ⟨rfl,-⟩ := List.cons.inj hsplit
      exact absurd hdata (by unfold OpensData; decide)
    · obtain ⟨rfl,hrest⟩ := List.cons.inj hsplit
      obtain ⟨rfl,-⟩ := List.cons.inj hrest
      exact ⟨_,List.mem_cons_self,by unfold OpensError; decide,by decide⟩
    · have hlength := congrArg List.length hsplit
      simp only [List.length_cons,List.length_nil,List.length_append] at hlength
      omega
  · rw [hstreams]
    decide

theorem reports_iff_sound_of_refused : ∃ s, Runs (ofStep (step pairCodec)) {} refusedActions s ∧
    (Runs (fun s a t => ofStep (step pairCodec) s a t ∧ Reports pairCodec s a t) {} refusedActions s ↔
      Runs (Guarded (Sound pairCodec) (ofStep (step pairCodec))) {} refusedActions s) := by
  obtain ⟨s,hr,hk⟩ := runs_refused
  exact ⟨s,hr,reports_iff_sound hk⟩

/-- The refusal is not told on stream 1. -/
theorem not_reports : ∃ s, Runs (ofStep (step pairCodec)) {} refusedActions s ∧ Kubectl pairCodec s.handled ∧
    ¬Runs (fun s a t => ofStep (step pairCodec) s a t ∧ Reports pairCodec s a t) {} refusedActions s := by
  obtain ⟨s,hr,hk⟩ := runs_refused
  refine ⟨s,hr,hk,fun hlawful => ?_⟩
  obtain ⟨t,hbefore,hlast⟩ := hlawful.split
  have hbefore := hbefore.mono fun _ _ _ h => h.1
  have hexec : (exec (step pairCodec) {} (.arrive (pairBytes ++ [0]) :: consumeAll pairBytes)).map
      (fun s => (s.inbound,s.consumed)) = some ([0],[0x80,3,0,1,0,0,0,10,0,0,0,3,0,0,0,0,0]) := by
    decide +kernel
  rw [exec_of_runs hbefore,Option.map_some,Option.some_inj] at hexec
  obtain ⟨hinbound,hconsumed⟩ := Prod.mk.inj hexec
  have hpush : spdyFormat.push t.consumed 0 = .finished (.item (.synStream 3 [])) := by
    rw [hconsumed]
    rfl
  cases hlast with
  | cons hs hrest =>
    have hodd := odd_of_isPrefix (handled_runs (hrest.mono fun _ _ _ h => h.1)) hk.odd
    have hunpaired := unpaired_of_runs hbefore (odd_of_isPrefix (handled_step hs.1).1 hodd) unpaired_start
    exact sound_of_reports hs.1 hunpaired hodd hs.2 3 _ (.connect "refused" hinbound hpush (by unfold OpensData; decide))

end KubeAir.Streaming.PortForward
