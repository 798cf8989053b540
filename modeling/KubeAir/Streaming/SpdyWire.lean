import KubeAir.Wire.BigEndian
import KubeAir.Wire.FrameReader

/-! # SPDY frames on the wire

The frames that the streaming server reads and writes. The writer masks the length of a
payload to the 24 bits of its field, so a round trip needs payloads that fit.
-/
namespace KubeAir.Streaming
open Wire

inductive SpdyWireFrame
  | synStream (streamId : UInt32) (rawNv : List UInt8)
  | synReply (streamId : UInt32) (rawNv : List UInt8)
  | data (streamId : UInt32) (flags : UInt8) (payload : List UInt8)
  | rstStream (streamId statusCode : UInt32)
  | ping (id : UInt32)
  | goAway (lastGoodStreamId statusCode : UInt32)
deriving DecidableEq, Repr

/-- Control frames of other types are skipped. -/
def decodeControl (controlTy : UInt16) (payload : List UInt8) : Decoded SpdyWireFrame :=
  match controlTy with
  | 1 =>
    if payload.length < 10 then .malformed
    else .item (.synStream (beWordAt payload 0 &&& 0x7fffffff) (payload.drop 10))
  | 2 =>
    if payload.length < 4 then .malformed
    else .item (.synReply (beWordAt payload 0 &&& 0x7fffffff) (payload.drop 4))
  | 3 =>
    if payload.length < 8 then .malformed
    else .item (.rstStream (beWordAt payload 0 &&& 0x7fffffff) (beWordAt payload 4))
  | 6 =>
    if payload.length < 4 then .malformed
    else .item (.ping (beWordAt payload 0))
  | 7 =>
    if payload.length < 8 then .malformed
    else .item (.goAway (beWordAt payload 0 &&& 0x7fffffff) (beWordAt payload 4))
  | _ => .skip

/-- The two words of a header, the length of the payload, and what the frame says. -/
def spdyFormat : Format SpdyWireFrame where
  headerLength := 8
  payloadLength hdr := (beWordAt hdr 4 &&& 0x00ffffff).toNat
  decode hdr payload :=
    let word1 := beWordAt hdr 0
    let flags := (beWordAt hdr 4 >>> 24).toUInt8
    if word1 &&& 0x80000000 ≠ 0 then decodeControl (word1 &&& 0x0000ffff).toUInt16 payload
    else .item (.data (word1 &&& 0x7fffffff) flags payload)
  headerLength_pos := by decide

def readSpdyWireFrame (input : List UInt8) : Option (SpdyWireFrame × List UInt8) := spdyFormat.read input

def spdyHeader (control : Bool) (tyOrStream : UInt32) (flags : UInt8) (len : ℕ) : List UInt8 :=
  let first := if control then 0x80030000 ||| (tyOrStream &&& 0xffff) else tyOrStream &&& 0x7fffffff
  toBeBytes first ++ toBeBytes (packed flags len)

/-- The bytes that the writer sends for a frame. -/
def writeSpdyWireFrame : SpdyWireFrame → List UInt8
  | .data streamId flags payload => spdyHeader false streamId flags payload.length ++ payload
  | .synReply streamId rawNv =>
    let payload := toBeBytes (streamId &&& 0x7fffffff) ++ rawNv
    spdyHeader true 2 0 payload.length ++ payload
  | .rstStream streamId statusCode =>
    let payload := toBeBytes (streamId &&& 0x7fffffff) ++ toBeBytes statusCode
    spdyHeader true 3 0 payload.length ++ payload
  | .ping id => spdyHeader true 6 0 4 ++ toBeBytes id
  | .goAway lastGoodStreamId statusCode =>
    let payload := toBeBytes (lastGoodStreamId &&& 0x7fffffff) ++ toBeBytes statusCode
    spdyHeader true 7 0 payload.length ++ payload
  | .synStream .. => []

namespace SpdyWireFrame

/-- The server opens no streams. -/
def written : SpdyWireFrame → Bool
  | .synStream .. => false
  | _ => true

/-- Stream IDs have 31 bits on the wire. -/
def onWire : SpdyWireFrame → SpdyWireFrame
  | .synStream streamId rawNv => .synStream (streamId &&& 0x7fffffff) rawNv
  | .synReply streamId rawNv => .synReply (streamId &&& 0x7fffffff) rawNv
  | .data streamId flags payload => .data (streamId &&& 0x7fffffff) flags payload
  | .rstStream streamId statusCode => .rstStream (streamId &&& 0x7fffffff) statusCode
  | .ping id => .ping id
  | .goAway lastGoodStreamId statusCode => .goAway (lastGoodStreamId &&& 0x7fffffff) statusCode

/-- The length of the payload that is written. -/
def payloadLength : SpdyWireFrame → ℕ
  | .synStream .. => 0
  | .synReply _ rawNv => 4 + rawNv.length
  | .data _ _ payload => payload.length
  | .rstStream .. => 8
  | .ping _ => 4
  | .goAway .. => 8

end SpdyWireFrame

/-- The frames that the server writes. -/
abbrev ServerFrame := {f : SpdyWireFrame // f.written = true}

/-- Reading the written bytes again and again gives the frames, and then the end of input. -/
def RoundTrips (frames : List ServerFrame) : Prop :=
  spdyFormat.Reads (frames.flatMap (fun f => writeSpdyWireFrame f.val)) (frames.map (fun f => f.val.onWire)) [] ∧
    readSpdyWireFrame [] = none

section Frames
variable {control : Bool} {tyOrStream : UInt32} {flags : UInt8} {len : ℕ} {payload rest : List UInt8}

/-- The reader takes as many bytes as the masked length says. -/
theorem readFrame_header (hlen : payload.length = len) :
    spdyFormat.readFrame (spdyHeader control tyOrStream flags len ++ (payload ++ rest)) =
      some (spdyFormat.decode (spdyHeader control tyOrStream flags len) (payload.take (len % 2 ^ 24)),
        payload.drop (len % 2 ^ 24) ++ rest) := by
  refine Format.readFrame_eq_some.mpr ⟨_,payload.take (len % 2 ^ 24),?_,rfl,?_,rfl⟩
  · rw [← List.append_assoc (payload.take (len % 2 ^ 24)),List.take_append_drop]
  · have hword : (spdyFormat.payloadLength (spdyHeader control tyOrStream flags len)) = len % 2 ^ 24 := by
      unfold spdyHeader spdyFormat
      dsimp only
      rw [beWordAt_skip,← List.append_nil (toBeBytes (packed flags len)),beWordAt_toBeBytes,packed_low]
    rw [hword,List.length_take_of_le]
    have hle := Nat.mod_le len (2 ^ 24)
    omega

theorem decode_data : spdyFormat.decode (spdyHeader false tyOrStream flags len) payload =
    .item (.data (tyOrStream &&& 0x7fffffff) flags payload) := by
  have hcontrol : tyOrStream &&& 0x7fffffff &&& 0x80000000 = 0 := by
    rw [UInt32.and_assoc]
    exact UInt32.and_zero
  have hmask : tyOrStream &&& 0x7fffffff &&& 0x7fffffff = tyOrStream &&& 0x7fffffff := by
    rw [UInt32.and_assoc,UInt32.and_self]
  unfold spdyHeader spdyFormat
  dsimp only
  rw [beWordAt_toBeBytes,beWordAt_skip,← List.append_nil (toBeBytes (packed flags len)),beWordAt_toBeBytes,
    packed_high,if_neg Bool.false_ne_true,hcontrol,hmask,if_neg (fun h => h rfl)]

theorem decode_control (ty : UInt32) (hty : (0x80030000 ||| (ty &&& 0xffff)) &&& 0x80000000 ≠ 0) :
    spdyFormat.decode (spdyHeader true ty flags len) payload =
      decodeControl ((0x80030000 ||| (ty &&& 0xffff)) &&& 0x0000ffff).toUInt16 payload := by
  unfold spdyHeader spdyFormat
  dsimp only
  rw [beWordAt_toBeBytes,if_pos rfl,if_pos hty]

/-- A read of a written frame, for a frame whose payload is decoded by `d`. -/
theorem read_written {f : SpdyWireFrame} {d : List UInt8 → Decoded SpdyWireFrame}
    (hwrite : writeSpdyWireFrame f = spdyHeader control tyOrStream flags len ++ payload) (hlen : payload.length = len)
    (hdecode : ∀ p, spdyFormat.decode (spdyHeader control tyOrStream flags len) p = d p) :
    spdyFormat.readFrame (writeSpdyWireFrame f ++ rest) =
      some (d (payload.take (len % 2 ^ 24)),payload.drop (len % 2 ^ 24) ++ rest) := by
  rw [hwrite,List.append_assoc,readFrame_header hlen,hdecode]

end Frames

section RoundTrip
variable {f : SpdyWireFrame} {rest : List UInt8}

/-- What the reader makes of the payload of a written frame. -/
def decodeWritten (f : SpdyWireFrame) (payload : List UInt8) : Decoded SpdyWireFrame :=
  match f with
  | .data streamId flags _ => .item (.data (streamId &&& 0x7fffffff) flags payload)
  | .synReply .. => decodeControl 2 payload
  | .rstStream .. => decodeControl 3 payload
  | .ping _ => decodeControl 6 payload
  | .goAway .. => decodeControl 7 payload
  | .synStream .. => .malformed

/-- The payload that is written. -/
def payloadOf : SpdyWireFrame → List UInt8
  | .data _ _ payload => payload
  | .synReply streamId rawNv => toBeBytes (streamId &&& 0x7fffffff) ++ rawNv
  | .rstStream streamId statusCode => toBeBytes (streamId &&& 0x7fffffff) ++ toBeBytes statusCode
  | .ping id => toBeBytes id
  | .goAway lastGoodStreamId statusCode => toBeBytes (lastGoodStreamId &&& 0x7fffffff) ++ toBeBytes statusCode
  | .synStream .. => []

theorem length_payloadOf : (payloadOf f).length = f.payloadLength := by
  cases f with
  | synReply streamId rawNv => exact List.length_append
  | _ => rfl

theorem readFrame_write (hf : f.written = true) : spdyFormat.readFrame (writeSpdyWireFrame f ++ rest) =
    some (decodeWritten f ((payloadOf f).take (f.payloadLength % 2 ^ 24)),
      (payloadOf f).drop (f.payloadLength % 2 ^ 24) ++ rest) := by
  have hlen := length_payloadOf (f := f)
  rw [← hlen]
  cases f with
  | data streamId flags payload => exact read_written rfl rfl (fun _ => decode_data)
  | synReply streamId rawNv => exact read_written rfl rfl (fun _ => decode_control 2 (by decide))
  | rstStream streamId statusCode => exact read_written rfl rfl (fun _ => decode_control 3 (by decide))
  | ping id => exact read_written rfl rfl (fun _ => decode_control 6 (by decide))
  | goAway lastGoodStreamId statusCode => exact read_written rfl rfl (fun _ => decode_control 7 (by decide))
  | synStream => cases hf

theorem decodeControl_synReply (payload : List UInt8) : decodeControl 2 payload =
    if payload.length < 4 then .malformed
    else .item (.synReply (beWordAt payload 0 &&& 0x7fffffff) (payload.drop 4)) :=
  rfl

theorem masked (w : UInt32) : w &&& 0x7fffffff &&& 0x7fffffff = w &&& 0x7fffffff := by
  rw [UInt32.and_assoc,UInt32.and_self]

theorem beWordAt_toBeBytes_nil (w : UInt32) : beWordAt (toBeBytes w) 0 = w := by
  rw [← List.append_nil (toBeBytes w),beWordAt_toBeBytes]

theorem decodeWritten_payloadOf (hf : f.written = true) : decodeWritten f (payloadOf f) = .item f.onWire := by
  cases f with
  | data streamId flags payload => rfl
  | synReply streamId rawNv =>
    change decodeControl 2 (toBeBytes (streamId &&& 0x7fffffff) ++ rawNv) = .item (.synReply _ rawNv)
    rw [decodeControl_synReply,if_neg (by rw [List.length_append,length_toBeBytes]; omega),beWordAt_toBeBytes,masked]
    rfl
  | rstStream streamId statusCode =>
    change Decoded.item (SpdyWireFrame.rstStream
      (beWordAt (toBeBytes (streamId &&& 0x7fffffff) ++ toBeBytes statusCode) 0 &&& 0x7fffffff)
      (beWordAt (toBeBytes statusCode) 0)) = .item (.rstStream _ statusCode)
    rw [beWordAt_toBeBytes,beWordAt_toBeBytes_nil,masked]
  | ping id =>
    change Decoded.item (SpdyWireFrame.ping (beWordAt (toBeBytes id) 0)) = .item (.ping id)
    rw [beWordAt_toBeBytes_nil]
  | goAway lastGoodStreamId statusCode =>
    change Decoded.item (SpdyWireFrame.goAway
      (beWordAt (toBeBytes (lastGoodStreamId &&& 0x7fffffff) ++ toBeBytes statusCode) 0 &&& 0x7fffffff)
      (beWordAt (toBeBytes statusCode) 0)) = .item (.goAway _ statusCode)
    rw [beWordAt_toBeBytes,beWordAt_toBeBytes_nil,masked]
  | synStream => cases hf

/-- A frame whose payload fits the length field is read back. -/
theorem read_write (hf : f.written = true) (hfits : f.payloadLength < 2 ^ 24) :
    readSpdyWireFrame (writeSpdyWireFrame f ++ rest) = some (f.onWire,rest) := by
  have hframe : spdyFormat.readFrame (writeSpdyWireFrame f ++ rest) = _ := readFrame_write hf
  have hlen := length_payloadOf (f := f)
  rw [Nat.mod_eq_of_lt hfits,← hlen,List.take_length,List.drop_length,decodeWritten_payloadOf hf] at hframe
  exact Format.read_of_item hframe

/-- A frame whose payload is longer is not. -/
theorem read_write_ne (hf : f.written = true) (hlong : 2 ^ 24 ≤ f.payloadLength) (final : List UInt8) :
    readSpdyWireFrame (writeSpdyWireFrame f ++ rest) ≠ some (f.onWire,final) := by
  have hframe : spdyFormat.readFrame (writeSpdyWireFrame f ++ rest) = _ := readFrame_write hf
  have hlen := length_payloadOf (f := f)
  have hshort : ((payloadOf f).take (f.payloadLength % 2 ^ 24)).length < f.payloadLength := by
    have hlt := Nat.mod_lt f.payloadLength (show 0 < 2 ^ 24 by decide)
    rw [List.length_take]
    omega
  generalize (payloadOf f).take (f.payloadLength % 2 ^ 24) = read at hframe hshort
  intro hread
  cases f with
  | data streamId flags payload =>
    rw [readSpdyWireFrame,Format.read_of_item hframe] at hread
    obtain ⟨heq,-⟩ := Prod.mk.inj (Option.some.inj hread)
    obtain ⟨-,-,rfl⟩ := SpdyWireFrame.data.inj heq
    exact Nat.lt_irrefl _ hshort
  | synReply streamId rawNv =>
    change spdyFormat.readFrame _ = some (decodeControl 2 read,_) at hframe
    rw [decodeControl_synReply] at hframe
    split at hframe
    · rw [readSpdyWireFrame,Format.read_of_malformed hframe] at hread
      cases hread
    · rw [readSpdyWireFrame,Format.read_of_item hframe] at hread
      obtain ⟨heq,-⟩ := Prod.mk.inj (Option.some.inj hread)
      obtain ⟨-,rfl⟩ := SpdyWireFrame.synReply.inj heq
      change read.length < 4 + (read.drop 4).length at hshort
      rw [List.length_drop] at hshort
      omega
  | rstStream => exact absurd hlong (show ¬ 2 ^ 24 ≤ 8 by decide)
  | ping => exact absurd hlong (show ¬ 2 ^ 24 ≤ 4 by decide)
  | goAway => exact absurd hlong (show ¬ 2 ^ 24 ≤ 8 by decide)
  | synStream => cases hf

end RoundTrip

/-- Frames come back exactly if every payload fits the 24-bit length field. -/
theorem roundTrips_iff (frames : List ServerFrame) :
    RoundTrips frames ↔ ∀ f ∈ frames, f.val.payloadLength < 2 ^ 24 := by
  have hend : readSpdyWireFrame [] = none := Format.read_of_none (Format.readFrame_nil spdyFormat)
  unfold RoundTrips
  rw [and_iff_left hend]
  induction frames with
  | nil => exact iff_of_true (.nil []) (List.forall_mem_nil _)
  | cons f frames ih =>
    rw [List.flatMap_cons,List.map_cons,List.forall_mem_cons]
    constructor
    · intro h
      cases h with
      | cons hread hrest =>
        have hfits : f.val.payloadLength < 2 ^ 24 := by
          by_contra hlong
          exact read_write_ne f.property (Nat.not_lt.mp hlong) _ hread
        change readSpdyWireFrame _ = _ at hread
        rw [read_write f.property hfits] at hread
        obtain ⟨-,rfl⟩ := Prod.mk.inj (Option.some.inj hread)
        exact ⟨hfits,ih.mp hrest⟩
    · rintro ⟨hfits,hrest⟩
      exact .cons (read_write f.property hfits) (ih.mpr hrest)

/-- Output of 16 MiB on stream 1. -/
def longOutput : ServerFrame := ⟨.data 1 0x01 (List.replicate (2 ^ 24) 0),rfl⟩

/-- The length of the frame is masked to 0, and its payload is read as the next frames. -/
theorem not_roundTrips : ¬ RoundTrips [longOutput] := by
  rintro ⟨h,-⟩
  have hlong : 2 ^ 24 ≤ longOutput.val.payloadLength := by
    change 2 ^ 24 ≤ (List.replicate (2 ^ 24) (0 : UInt8)).length
    rw [List.length_replicate]
  cases h with
  | cons hread _ => exact read_write_ne longOutput.property hlong _ hread

end KubeAir.Streaming
