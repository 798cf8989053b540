import KubeAir.Streaming.HeaderStream

/-! # The port-forward header decoder

The port-forward handler inflates each SYN_STREAM frame by itself: a fresh inflater, and after
the request for the dictionary the frame from its first byte on. It never gets any headers, so
it agrees with the decoder that keeps its inflater only on empty maps.
-/
namespace KubeAir.Streaming.HeaderDecoder
open Core Wire HeaderBlock

section Handler
variable (I : Inflater) (dict rawNv : List UInt8)

/-- The buffer and the inflater once the dictionary is set: the frame is given again from 0. -/
def replayFrame (plain : List UInt8) (dec : I.State) : List UInt8 × I.State :=
  let call := I.decompress dec rawNv plain.length
  (writeAt plain 0 call.2.1,call.2.2)

/-- The frame inflated on its own. -/
def inflateFrame : List UInt8 × I.State :=
  let plain := List.replicate (rawNv.length * 8 + 256) 0
  let call := I.decompress I.new rawNv plain.length
  let plain := writeAt plain 0 call.2.1
  match call.1 with
  | .ok _ => (plain,call.2.2)
  | .error _ =>
    match I.setDictionary call.2.2 dict with
    | none => (plain,call.2.2)
    | some dec => replayFrame I rawNv plain dec

/-- `pf_decoded` of `spdy_port_forward_handler`. -/
def portForwardDecoded : HashMap String String :=
  let r := inflateFrame I dict rawNv
  ((parseNvBlockOffset (r.1.take (I.totalOut r.2)) 0).map Prod.fst).getD ∅

end Handler

/-- A zlib header: the method and the check of its two bytes. -/
def zlibHeader : List UInt8 → Bool
  | cmf :: flg :: _ => cmf.toNat % 16 = 8 && (cmf.toNat * 256 + flg.toNat) % 31 = 0
  | _ => false

/-- A fresh inflater rejects what does not start with a zlib header, and once it has its
dictionary it rejects the header: its input has to be resumed behind it. -/
structure FreshStart (I : Inflater) (dict : List UInt8) : Prop where
  rejects : ∀ input room, 2 ≤ input.length → zlibHeader input = false →
    ∃ s, I.decompress I.new input room = (.error (),[],s) ∧ I.setDictionary s dict = none ∧ I.totalOut s = 0
  resumes : ∀ input room room' s s', zlibHeader input = true → I.decompress I.new input room = (.error (),[],s) →
    I.setDictionary s dict = some s' → ∃ s'', I.decompress s' input room' = (.error (),[],s'') ∧ I.totalOut s'' = 0

/-- Only the first chunk of a session starts with a zlib header. -/
structure HeaderOnce (frames : List Frame) : Prop where
  first : ∀ f ∈ frames.head?, zlibHeader (wire f.cells) = true
  later : ∀ f ∈ frames.tail, zlibHeader (wire f.cells) = false

section Agreement
variable {I : Inflater} {dict : List UInt8} {f : Frame} {frames : List Frame}

theorem portForwardDecoded_of_totalOut (rawNv : List UInt8) (h : I.totalOut (inflateFrame I dict rawNv).2 = 0) :
    portForwardDecoded I dict rawNv = ∅ := by
  unfold portForwardDecoded
  dsimp only
  rw [h,List.take_zero]
  rfl

/-- A frame without a zlib header is rejected. -/
theorem portForwardDecoded_later (hI : FreshStart I dict) {rawNv : List UInt8} (hlen : 2 ≤ rawNv.length)
    (hheader : zlibHeader rawNv = false) : portForwardDecoded I dict rawNv = ∅ := by
  refine portForwardDecoded_of_totalOut rawNv ?_
  obtain ⟨s,hcall,hdict,htotal⟩ := hI.rejects rawNv (List.replicate (rawNv.length * 8 + 256) (0 : UInt8)).length hlen hheader
  unfold inflateFrame
  dsimp only
  rw [hcall]
  dsimp only
  rw [hdict]
  exact htotal

/-- The first frame is given from its header on a second time. -/
theorem portForwardDecoded_first (hI : FreshStart I dict) {stream : List Cell} (F : Following I dict stream)
    {rawNv : List UInt8} (hlen : headerLength ≤ rawNv.length) (hpre : rawNv <+: wire stream)
    (hheader : zlibHeader rawNv = true) : portForwardDecoded I dict rawNv = ∅ := by
  refine portForwardDecoded_of_totalOut rawNv ?_
  obtain ⟨s,hcall,hat⟩ := F.header (List.replicate (rawNv.length * 8 + 256) (0 : UInt8)).length F.start rfl hlen hpre
  obtain ⟨s',hdict,-⟩ := F.dictionary hat rfl
  unfold inflateFrame replayFrame
  dsimp only
  rw [hcall]
  dsimp only
  rw [hdict]
  obtain ⟨s'',hagain,htotal⟩ := hI.resumes rawNv _
    (writeAt (List.replicate (rawNv.length * 8 + 256) (0 : UInt8)) 0 []).length s s' hheader hcall hdict
  dsimp only
  rw [hagain]
  exact htotal

theorem two_le_length (htext : textOf f.cells = buildNvBlock f.headers) (hflushed : Flushed f.cells) :
    2 ≤ (wire f.cells).length := by
  obtain ⟨init,c,hcells,hc⟩ := hflushed
  have hpos := congrArg List.length htext
  rw [length_buildNvBlock,hcells,textOf_append,textOf_cons,hc,textOf_nil,List.append_nil,List.append_nil] at hpos
  rw [length_wire,hcells,List.length_append,List.length_singleton]
  cases init with
  | nil =>
    unfold blockSize at hpos
    rw [textOf_nil,List.length_nil] at hpos
    omega
  | cons d init =>
    rw [List.length_cons]
    omega

/-- The handler gets no headers out of any frame of a session. -/
theorem portForwardDecoded_eq_empty (hI : FreshStart I dict) (hs : HeaderStream frames) (honce : HeaderOnce frames)
    (hfollows : Follows I dict (cellsOf frames)) : ∀ f ∈ frames, portForwardDecoded I dict (wire f.cells) = ∅ := by
  obtain ⟨F⟩ := hfollows
  cases frames with
  | nil => exact nofun
  | cons f frames =>
    refine List.forall_mem_cons.mpr ⟨?_,?_⟩
    · have hpre : wire f.cells <+: wire (cellsOf (f :: frames)) := by
        unfold cellsOf
        rw [List.flatMap_cons,wire_append]
        exact List.prefix_append _ _
      exact portForwardDecoded_first hI F (by rw [length_wire]; exact (hs.header f rfl).1.le) hpre (honce.first f rfl)
    · intro g hg
      have hmem : g ∈ f :: frames := List.mem_cons_of_mem f hg
      exact portForwardDecoded_later hI (two_le_length (hs.text g hmem) (hs.flushed g hmem)) (honce.later g hg)

/-- For every frame both decoders have the same map. -/
def Agrees (I : Inflater) (dict : List UInt8) (frames : List Frame) : Prop :=
  ∃ fuel outs, decodeAll dict fuel (.new I) (chunksOf frames) = some outs ∧
    List.Forall₂ (fun f out => Same (portForwardDecoded I dict (wire f.cells)) out) frames outs

theorem same_empty_iff {m : HashMap String String} : Same ∅ m ↔ m = ∅ := by
  constructor
  · intro h
    have hnil := h.perm.symm.eq_nil
    exact AList.ext hnil
  · rintro rfl
    exact fun _ => rfl

theorem length_decodeAll {d : SpdyHeaderDecoder I} {chunks : List (List UInt8)} {outs : List (HashMap String String)}
    {fuel : ℕ} (h : decodeAll dict fuel d chunks = some outs) : outs.length = chunks.length := by
  induction chunks generalizing d outs with
  | nil =>
    cases h
    rfl
  | cons chunk chunks ih =>
    obtain ⟨r,-,hmap⟩ := Option.bind_eq_some_iff.mp h
    obtain ⟨rest,hrest,rfl⟩ := Option.map_eq_some_iff.mp hmap
    rw [List.length_cons,List.length_cons,ih hrest]

theorem forall₂_same_empty {outs : List (HashMap String String)} (hlen : frames.length = outs.length)
    (hempty : ∀ f ∈ frames, portForwardDecoded I dict (wire f.cells) = ∅) :
    List.Forall₂ (fun f out => Same (portForwardDecoded I dict (wire f.cells)) out) frames outs ↔ ∀ out ∈ outs, out = ∅ := by
  induction frames generalizing outs with
  | nil =>
    cases outs with
    | nil => exact ⟨fun _ => nofun,fun _ => .nil⟩
    | cons out outs => cases hlen
  | cons f frames ih =>
    cases outs with
    | nil => cases hlen
    | cons out outs =>
      obtain ⟨hf,hempty⟩ := List.forall_mem_cons.mp hempty
      rw [List.forall₂_cons,List.forall_mem_cons,hf,same_empty_iff,ih (Nat.succ.inj hlen) hempty]

section Session
variable (hs : HeaderStream frames) (honce : HeaderOnce frames) (hI : FreshStart I dict)
  (hfollows : Follows I dict (cellsOf frames))
include hs honce hI hfollows

theorem agrees_iff_outs : Agrees I dict frames ↔
    ∃ fuel outs, decodeAll dict fuel (.new I) (chunksOf frames) = some outs ∧ ∀ out ∈ outs, out = ∅ := by
  have hempty := portForwardDecoded_eq_empty hI hs honce hfollows
  unfold Agrees
  refine exists_congr fun fuel => exists_congr fun outs => and_congr_right fun hall => ?_
  have hlen := length_decodeAll hall
  unfold chunksOf at hlen
  rw [List.length_map] at hlen
  exact forall₂_same_empty hlen.symm hempty

theorem agrees_iff_headers (hw : ∀ f ∈ frames, WellFormed f.headers) (hfits : Fits frames) :
    Agrees I dict frames ↔ ∀ f ∈ frames, f.headers = ∅ := by
  obtain ⟨fuel,outs,hall,hsame⟩ := decodes_of_fits hs hw hfits hfollows
  rw [agrees_iff_outs hs honce hI hfollows]
  have hiff : (∀ out ∈ outs, out = ∅) ↔ ∀ m ∈ frames.map Frame.headers, m = ∅ := by
    clear hall
    generalize frames.map Frame.headers = ms at hsame
    induction hsame with
    | nil => exact ⟨fun _ => nofun,fun _ => nofun⟩
    | cons h _ ih =>
      rw [List.forall_mem_cons,List.forall_mem_cons,ih]
      refine and_congr_left fun _ => ⟨?_,?_⟩
      · rintro rfl
        exact same_empty_iff.mp h
      · rintro rfl
        exact same_empty_iff.mp fun k => (h k).symm
  rw [List.forall_mem_map] at hiff
  rw [← hiff]
  constructor
  · rintro ⟨fuel',outs',hall',h⟩
    have heq := (decodeAll_mono hall (le_max_left fuel fuel')).symm.trans (decodeAll_mono hall' (le_max_right fuel fuel'))
    cases heq
    exact h
  · intro h
    exact ⟨fuel,outs,hall,h⟩

end Session
end Agreement

/-- The two decoders agree on a session exactly if the one that keeps its inflater returns no
headers at all; where it returns the maps, that means that all maps are empty. -/
theorem agrees_iff_empty (I : Inflater) (dict : List UInt8) (frames : List Frame) (hs : HeaderStream frames)
    (hw : ∀ f ∈ frames, WellFormed f.headers) (honce : HeaderOnce frames) (hfollows : Follows I dict (cellsOf frames))
    (hI : FreshStart I dict) :
    (Agrees I dict frames ↔
      ∃ fuel outs, decodeAll dict fuel (.new I) (chunksOf frames) = some outs ∧ ∀ out ∈ outs, out = ∅) ∧
    (Fits frames → (Agrees I dict frames ↔ ∀ f ∈ frames, f.headers = ∅)) :=
  ⟨agrees_iff_outs hs honce hI hfollows,agrees_iff_headers hs honce hI hfollows hw⟩

/-! ## Two sessions -/

section Replay
variable {dict : List UInt8} {stream : List Cell}

theorem zlibHeader_of_initial {input bytes : List UInt8} (h : input <+: bytes) (hlen : 2 ≤ input.length) :
    zlibHeader bytes = zlibHeader input := by
  obtain ⟨rest,rfl⟩ := h
  match input,hlen with
  | cmf :: flg :: input,_ => rfl

theorem two_le_of_zlibHeader {input : List UInt8} (h : zlibHeader input = true) : 2 ≤ input.length := by
  match input,h with
  | cmf :: flg :: input,_ => exact Nat.le_add_left _ _

theorem replay_freshStart (hheader : zlibHeader (wire stream) = true)
    (hbehind : zlibHeader (wire (stream.drop headerLength)) = false) : FreshStart (replay dict stream) dict := by
  refine ⟨?_,?_⟩
  · intro input room hlen hinput
    refine ⟨⟨.fresh,0,0,[],stream⟩,?_,rfl,rfl⟩
    have hnot : ¬input <+: wire stream := by
      intro hpre
      rw [zlibHeader_of_initial hpre hlen,hinput] at hheader
      cases hheader
    show replayCall _ input room = _
    unfold replayCall
    rw [if_neg hnot]
  · intro input room room' p p' hinput hcall hdict
    have hp : p' = ⟨.seeded,headerLength,0,[],stream.drop headerLength⟩ := by
      change replayCall ⟨.fresh,0,0,[],stream⟩ input room = _ at hcall
      unfold replayCall at hcall
      dsimp only at hcall
      change replaySetDictionary dict p dict = _ at hdict
      unfold replaySetDictionary at hdict
      split at hcall
      · split at hcall
        · cases hcall
          rw [if_pos ⟨rfl,rfl⟩] at hdict
          exact (Option.some.inj hdict).symm
        · cases hcall
      · cases hcall
        rw [if_neg (fun h => nomatch h.1)] at hdict
        cases hdict
    have hnot : ¬input <+: wire (stream.drop headerLength) := by
      intro hpre
      rw [zlibHeader_of_initial hpre (two_le_of_zlibHeader hinput),hinput] at hbehind
      cases hbehind
    refine ⟨p',?_,by rw [hp]⟩
    show replayCall p' input room' = _
    unfold replayCall
    rw [hp]
    dsimp only
    rw [if_neg hnot]

end Replay

/-- Frames without headers, at the start of a session and behind. -/
def emptyFrame : Frame where
  headers := ∅
  cells := annotate ([(120,0),(63,0),(227,0),(198,0),(167,0),(194,0),(2,0),(166,0),(35,3),(6,1),(0,0),(0,0),(0,0),(0,0),
    (255,0)] ++ [(255,0)]) (buildNvBlock ∅)

def laterFrame : Frame where
  headers := ∅
  cells := annotate ([(2,0),(1,4),(0,0),(0,0),(0,0),(0,0),(255,0)] ++ [(255,0)]) (buildNvBlock ∅)

def emptyFrames : List Frame := [emptyFrame,laterFrame,laterFrame]

theorem forall_mem_emptyFrames {P : Frame → Prop} (hfirst : P emptyFrame) (hlater : P laterFrame) : ∀ f ∈ emptyFrames, P f :=
  List.forall_mem_cons.mpr ⟨hfirst,List.forall_mem_cons.mpr ⟨hlater,List.forall_mem_singleton.mpr hlater⟩⟩

theorem agrees_empty : Agrees (replay spdyDict (cellsOf emptyFrames)) spdyDict emptyFrames := by
  have hs : HeaderStream emptyFrames := by
    refine ⟨forall_mem_emptyFrames (textOf_annotate (by decide)) (textOf_annotate (by decide)),
      forall_mem_emptyFrames (flushed_annotate _) (flushed_annotate _),?_⟩
    rintro g ⟨⟩
    exact ⟨by decide,rfl⟩
  have honce : HeaderOnce emptyFrames := by
    refine ⟨?_,by decide⟩
    rintro g ⟨⟩
    decide
  have hfits : Fits emptyFrames := by
    unfold Fits HeaderBlock.Encodable FitsReserve
    decide
  exact ((agrees_iff_empty _ spdyDict emptyFrames hs (forall_mem_emptyFrames nofun nofun) honce (replay_follows _ _)
    (replay_freshStart (by decide) (by decide))).2 hfits).mpr (forall_mem_emptyFrames rfl rfl)

/-- The first frame of a port-forward session. -/
theorem error_stream_disagrees : HeaderStream [errorFrame] ∧ HeaderOnce [errorFrame] ∧
    FreshStart (replay spdyDict (cellsOf [errorFrame])) spdyDict ∧
    ¬Agrees (replay spdyDict (cellsOf [errorFrame])) spdyDict [errorFrame] := by
  have hs : HeaderStream [errorFrame] := by
    refine ⟨List.forall_mem_singleton.mpr errorFrame_text,List.forall_mem_singleton.mpr (flushed_annotate _),?_⟩
    rintro g ⟨⟩
    exact ⟨by decide,rfl⟩
  have honce : HeaderOnce [errorFrame] := by
    refine ⟨?_,nofun⟩
    rintro g ⟨⟩
    decide
  have hfresh : FreshStart (replay spdyDict (cellsOf [errorFrame])) spdyDict := replay_freshStart (by decide) (by decide)
  have hfits : Fits [errorFrame] := by
    unfold Fits HeaderBlock.Encodable FitsReserve
    decide
  refine ⟨hs,honce,hfresh,?_⟩
  rw [agrees_iff_headers hs honce hfresh (replay_follows _ _) (List.forall_mem_singleton.mpr errorFrame_wellFormed) hfits]
  intro h
  exact absurd (congrArg AList.entries (h errorFrame List.mem_cons_self)) (by decide)

end KubeAir.Streaming.HeaderDecoder
