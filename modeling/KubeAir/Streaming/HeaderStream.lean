import KubeAir.Streaming.HeaderDecoder

/-! # Decoding a stream of headers

Header maps compressed as one stream, a flushed chunk for each. The decoder gives the maps
back if every chunk after the first is inflated in one call: a second call would begin at the
count of the whole stream instead of in the chunk.
-/
namespace KubeAir.Streaming.HeaderDecoder
open Core Wire HeaderBlock

/-! ## Buffers -/

section Buffer
variable {v out : List UInt8} {n m : ℕ}

@[simp] theorem length_resize : (resize v n).length = n := by
  unfold resize
  rw [List.length_append,List.length_take,List.length_replicate]
  omega

theorem take_resize (hm : m ≤ v.length) (hn : m ≤ n) : (resize v n).take m = v.take m := by
  unfold resize
  rw [List.take_append_of_le_length (by rw [List.length_take]; omega),List.take_take,Nat.min_eq_left hn]

theorem take_writeAt (h : n ≤ v.length) : (writeAt v n out).take (n + out.length) = v.take n ++ out := by
  unfold writeAt
  rw [← List.append_assoc]
  refine List.take_left' ?_
  rw [List.length_append,List.length_take_of_le h]

theorem le_length_writeAt (out : List UInt8) (h : n ≤ v.length) : n + out.length ≤ (writeAt v n out).length := by
  unfold writeAt
  rw [List.length_append,List.length_append,List.length_take_of_le h]
  omega

end Buffer

/-! ## The loop -/

section Loop
variable {I : Inflater} {dict chunk plain : List UInt8} {reserve inConsumed : ℕ} {dec : I.State}

theorem afterCall_ok {status : Status} (h : status ≠ .streamEnd) : afterCall dict chunk reserve plain (.ok status) dec =
    if chunk.length ≤ I.totalIn dec then .done dec plain
    else .again dec (resize plain (plain.length + reserve)) (I.totalIn dec) := by
  cases status with
  | streamEnd => exact absurd rfl h
  | _ => rfl

/-- A round has room for some text, and keeps the text that is there. -/
theorem round_eq (dict plain : List UInt8) (hin : inConsumed ≤ chunk.length) (hout : I.totalOut dec ≤ plain.length) (hreserve : 0 < reserve) :
    ∃ grown, I.totalOut dec < grown.length ∧ grown.take (I.totalOut dec) = plain.take (I.totalOut dec) ∧
      (I.totalOut dec < plain.length → grown = plain) ∧ round dict chunk reserve dec plain inConsumed =
        let call := I.decompress dec (chunk.drop inConsumed) (grown.length - I.totalOut dec)
        afterCall dict chunk reserve (writeAt grown (I.totalOut dec) call.2.1) call.1 call.2.2 := by
  unfold round
  dsimp only
  by_cases hfull : plain.length ≤ I.totalOut dec
  · refine ⟨resize plain (plain.length + reserve),?_,?_,fun h => absurd hfull (by omega),?_⟩
    · rw [length_resize]
      omega
    · exact take_resize hout (by omega)
    · rw [if_pos hfull,if_neg]
      rw [length_resize]
      omega
  · refine ⟨plain,by omega,rfl,fun _ => rfl,?_⟩
    rw [if_neg hfull,if_neg (by omega)]

theorem decodeLoop_done {dec' : I.State} {plain' : List UInt8}
    (h : round dict chunk reserve dec plain inConsumed = .done dec' plain') :
    decodeLoop dict chunk reserve 1 dec plain inConsumed = some (dec',plain') := by
  rw [decodeLoop,h]

theorem decodeLoop_again {dec' : I.State} {plain' : List UInt8} {inConsumed' fuel : ℕ}
    (h : round dict chunk reserve dec plain inConsumed = .again dec' plain' inConsumed') :
    decodeLoop dict chunk reserve (fuel + 1) dec plain inConsumed = decodeLoop dict chunk reserve fuel dec' plain' inConsumed' := by
  rw [decodeLoop,h]

variable {stream cells read now later : List Cell} {p : Position}

/-- A call that takes in the rest of the chunk, where the count of the stream says so. -/
theorem round_fits (F : Following I dict stream) (hat : F.At dec p) (hphase : p.phase = .seeded)
    (hrest : p.rest = now ++ later) (hin : cells.length ≤ p.totalIn + now.length) {grown : List UInt8}
    (hround : round dict (wire cells) reserve dec plain inConsumed =
      let call := I.decompress dec (wire now) (grown.length - p.totalOut)
      afterCall dict (wire cells) reserve (writeAt grown p.totalOut call.2.1) call.1 call.2.2)
    (hfits : (p.pending ++ textOf now).length ≤ grown.length - p.totalOut) :
    ∃ dec', round dict (wire cells) reserve dec plain inConsumed =
        .done dec' (writeAt grown p.totalOut (p.pending ++ textOf now)) ∧
      F.At dec' ⟨.seeded,p.totalIn + now.length,p.totalOut + (p.pending ++ textOf now).length,[],later⟩ := by
  obtain ⟨status,s',hcall,hstatus,hat'⟩ := F.call_fits hat hphase hrest hfits
  obtain ⟨htotalIn,-⟩ := F.totals hat'
  rw [hcall] at hround
  dsimp only at hround htotalIn
  rw [afterCall_ok hstatus,htotalIn,length_wire,if_pos hin] at hround
  exact ⟨s',hround,hat'⟩

/-- A call that fills the buffer. -/
theorem round_full (F : Following I dict stream) (hat : F.At dec p) (hphase : p.phase = .seeded)
    (hcells : cells = read ++ now) (hrest : p.rest = now ++ later) (hflushed : Flushed now) (hin : p.totalIn = read.length)
    {grown : List UInt8} (hroom : p.totalOut < grown.length)
    (hround : round dict (wire cells) reserve dec plain read.length =
      let call := I.decompress dec (wire now) (grown.length - p.totalOut)
      afterCall dict (wire cells) reserve (writeAt grown p.totalOut call.2.1) call.1 call.2.2)
    (hfull : grown.length - p.totalOut < (p.pending ++ textOf now).length) :
    ∃ dec' plain' i q out, round dict (wire cells) reserve dec plain read.length = .again dec' plain' (read ++ now.take i).length ∧
      F.At dec' q ∧ q.phase = .seeded ∧ i < now.length ∧ q.rest = now.drop i ++ later ∧
      q.totalIn = (read ++ now.take i).length ∧ q.totalOut = p.totalOut + out.length ∧ 0 < out.length ∧
      q.totalOut ≤ plain'.length ∧ plain'.take q.totalOut = grown.take p.totalOut ++ out ∧
      out ++ (q.pending ++ textOf (now.drop i)) = p.pending ++ textOf now := by
  obtain ⟨status,s',i,hcall,hstatus,hat',hi,hle⟩ := F.call_full hat hphase hrest hflushed hfull
  obtain ⟨htotalIn,-⟩ := F.totals hat'
  have hread : (p.advance i (grown.length - p.totalOut)).totalIn = (read ++ now.take i).length := by
    rw [List.length_append,List.length_take_of_le hi.le,← hin]
    rfl
  have hout := List.length_take_of_le hle
  have hwritten := le_length_writeAt ((p.available i).take (grown.length - p.totalOut)) hroom.le
  rw [hcall] at hround
  dsimp only at hround
  rw [afterCall_ok hstatus,htotalIn,hread,length_wire,if_neg (by
    rw [hcells,List.length_append,List.length_append,List.length_take_of_le hi.le]
    omega)] at hround
  refine ⟨s',_,i,_,_,hround,hat',hphase,hi,?_,hread,rfl,?_,?_,?_,?_⟩
  · exact (congrArg (List.drop i) hrest).trans (List.drop_append_of_le_length hi.le)
  · omega
  · rw [length_resize]
    exact hwritten.trans (Nat.le_add_right _ _)
  · exact (take_resize hwritten (Nat.le_add_right_of_le hwritten)).trans (take_writeAt hroom.le)
  · show _ ++ ((p.available i).drop _ ++ _) = _
    rw [← List.append_assoc,List.take_append_drop,Following.available_of_le hrest hi.le,List.append_assoc,
      textOf_take_append_drop]

/-- The loop over a chunk whose offsets are those of the stream. -/
theorem decodeLoop_first (F : Following I dict stream) (hreserve : 0 < reserve) (hat : F.At dec p)
    (hphase : p.phase = .seeded) (hcells : cells = read ++ now) (hrest : p.rest = now ++ later) (hflushed : Flushed now)
    (hin : p.totalIn = read.length) (hout : p.totalOut ≤ plain.length) :
    ∃ fuel dec' plain', decodeLoop dict (wire cells) reserve fuel dec plain read.length = some (dec',plain') ∧
      F.At dec' ⟨.seeded,cells.length,p.totalOut + (p.pending ++ textOf now).length,[],later⟩ ∧
      plain'.take (p.totalOut + (p.pending ++ textOf now).length) = plain.take p.totalOut ++ (p.pending ++ textOf now) := by
  induction hn : (p.pending ++ textOf now).length using Nat.strongRecOn generalizing dec p plain read now with
  | ind n ih =>
    subst hn
    obtain ⟨-,htotal⟩ := F.totals hat
    have hlen : read.length ≤ (wire cells).length := by
      rw [length_wire,hcells,List.length_append]
      omega
    have hdrop : (wire cells).drop read.length = wire now := by rw [drop_wire,hcells,List.drop_left]
    obtain ⟨grown,hroom,hkeep,-,hround⟩ := round_eq dict plain hlen (htotal ▸ hout) hreserve
    rw [htotal] at hroom hkeep hround
    rw [hdrop] at hround
    by_cases hfits : (p.pending ++ textOf now).length ≤ grown.length - p.totalOut
    · have hcount : p.totalIn + now.length = cells.length := by rw [hcells,List.length_append,hin]
      obtain ⟨dec',hdone,hat'⟩ := round_fits F hat hphase hrest hcount.ge hround hfits
      rw [hcount] at hat'
      exact ⟨1,dec',_,decodeLoop_done hdone,hat',by rw [take_writeAt hroom.le,hkeep]⟩
    · obtain ⟨dec',plain',i,q,out,hagain,hat',hphase',hi,hrest',hin',hout',hpos,hle,htake,hsplit⟩ :=
        round_full F hat hphase hcells hrest hflushed hin hroom hround (Nat.lt_of_not_le hfits)
      have hsize := congrArg List.length hsplit
      rw [List.length_append] at hsize
      have hcells' : cells = (read ++ now.take i) ++ now.drop i := by
        rw [List.append_assoc,List.take_append_drop,hcells]
      obtain ⟨fuel,dec'',plain'',hloop,hat'',htext⟩ :=
        ih _ (by omega) hat' hphase' hcells' hrest' (hflushed.drop hi) hin' hle rfl
      have hend : q.totalOut + (q.pending ++ textOf (now.drop i)).length = p.totalOut + (p.pending ++ textOf now).length := by
        omega
      rw [hend] at hat'' htext
      refine ⟨fuel + 1,dec'',plain'',(decodeLoop_again hagain).trans hloop,hat'',?_⟩
      rw [htext,htake,hkeep,List.append_assoc,hsplit]

end Loop

/-! ## Frames -/

/-- A header map and the chunk it is compressed to. -/
structure Frame where
  headers : HashMap String String
  cells : List Cell

def cellsOf (frames : List Frame) : List Cell := frames.flatMap Frame.cells

def chunksOf (frames : List Frame) : List (List UInt8) := frames.map (fun f => wire f.cells)

/-- A stream that begins with a header and has a flushed chunk for the block of each map. -/
structure HeaderStream (frames : List Frame) : Prop where
  text : ∀ f ∈ frames, textOf f.cells = buildNvBlock f.headers
  flushed : ∀ f ∈ frames, Flushed f.cells
  header : ∀ f ∈ frames.head?, headerLength < f.cells.length ∧ textOf (f.cells.take headerLength) = []

/-- The decoder gives the maps back. -/
def Decodes (I : Inflater) (dict : List UInt8) (frames : List Frame) : Prop :=
  ∃ fuel outs, decodeAll dict fuel (.new I) (chunksOf frames) = some outs ∧
    List.Forall₂ Same outs (frames.map Frame.headers)

/-- The text of the chunk fits into what the decoder reserves for it. -/
def FitsReserve (f : Frame) : Prop := (buildNvBlock f.headers).length ≤ reserveFor (wire f.cells)

/-- All lengths fit into their words, and the text of every chunk after the first fits into what
is reserved for it. -/
def Fits (frames : List Frame) : Prop := (∀ f ∈ frames, Encodable f.headers) ∧ ∀ f ∈ frames.tail, FitsReserve f

section Step
variable {I : Inflater} {dict : List UInt8} {stream later : List Cell} {f : Frame}

/-- Between two frames the decoder has all the text so far, and parsed it. -/
structure Ready (F : Following I dict stream) (d : SpdyHeaderDecoder I) (p : Position) : Prop where
  follows : F.At d.dec p
  pending : p.pending = []
  plain : d.plain.length = p.totalOut
  plainEnd : d.plainEnd = p.totalOut

variable {F : Following I dict stream} {d : SpdyHeaderDecoder I} {p : Position}

/-- What follows the loop, once the text of the chunk is in the buffer. -/
theorem parseNext_ready (hready : Ready F d p) (henc : Encodable f.headers) (hw : WellFormed f.headers) {dec : I.State}
    {plain : List UInt8} {totalIn : ℕ}
    (hat : F.At dec ⟨.seeded,totalIn,p.totalOut + (buildNvBlock f.headers).length,[],later⟩)
    (htake : plain.take (p.totalOut + (buildNvBlock f.headers).length) = d.plain ++ buildNvBlock f.headers) :
    ∃ out d', parseNext d.plain.length d.plainEnd dec plain = (out,d') ∧ Same out f.headers ∧
      Ready F d' ⟨.seeded,totalIn,p.totalOut + (buildNvBlock f.headers).length,[],later⟩ := by
  obtain ⟨-,htotal⟩ := F.totals hat
  dsimp only at htotal
  obtain ⟨out,hsame,hparse⟩ := parseNvBlockOffset_buildNvBlock henc hw d.plain []
  rw [List.append_nil,hready.plain] at hparse
  have hmax : max (I.totalOut dec) d.plain.length = p.totalOut + (buildNvBlock f.headers).length := by
    rw [htotal,hready.plain]
    omega
  refine ⟨out,⟨dec,d.plain ++ buildNvBlock f.headers,p.totalOut + (buildNvBlock f.headers).length⟩,?_,hsame,
    ⟨hat,rfl,?_,rfl⟩⟩
  · unfold parseNext
    dsimp only
    rw [hmax,htake,hready.plainEnd,hparse]
  · rw [List.length_append,hready.plain]

/-- A later frame whose text fits. -/
theorem decode_fits (hready : Ready F d p) (hphase : p.phase = .seeded) (hrest : p.rest = f.cells ++ later)
    (htext : textOf f.cells = buildNvBlock f.headers) (hw : WellFormed f.headers) (henc : Encodable f.headers)
    (hfits : FitsReserve f) : ∃ fuel out d', decode dict fuel d (wire f.cells) = some (out,d') ∧ Same out f.headers ∧
      Ready F d' ⟨.seeded,p.totalIn + f.cells.length,p.totalOut + (buildNvBlock f.headers).length,[],later⟩ := by
  obtain ⟨-,htotal⟩ := F.totals hready.follows
  have hreserve : 0 < reserveFor (wire f.cells) := Nat.succ_pos _
  have hpre : p.totalOut ≤ (resize d.plain (d.plain.length + reserveFor (wire f.cells))).length := by
    rw [length_resize,hready.plain]
    omega
  obtain ⟨grown,hroom,hkeep,hsame,hround⟩ := round_eq dict _ (Nat.zero_le (wire f.cells).length) (htotal ▸ hpre) hreserve
  rw [htotal] at hroom hkeep hsame hround
  have hgrown := hsame (by rw [length_resize,hready.plain]; omega)
  have hlen : grown.length - p.totalOut = reserveFor (wire f.cells) := by
    rw [hgrown,length_resize,hready.plain]
    omega
  have hblock : p.pending ++ textOf f.cells = buildNvBlock f.headers := by rw [hready.pending,htext,List.nil_append]
  obtain ⟨dec',hdone,hat⟩ := round_fits F hready.follows hphase hrest (Nat.le_add_left _ _) hround
    (by rw [hblock,hlen]; exact hfits)
  rw [hblock] at hat hdone
  obtain ⟨out,d',hparse,hout,hready'⟩ := parseNext_ready hready henc hw hat
    (by rw [take_writeAt hroom.le,hkeep,← hready.plain,take_resize le_rfl (Nat.le_add_right _ _),List.take_length])
  refine ⟨1,out,d',?_,hout,hready'⟩
  unfold decode
  dsimp only
  rw [decodeLoop_done hdone,Option.map_some,hparse]

/-- The first frame, whatever it expands to: the dictionary is asked for, and the offsets of the
chunk are those of the stream. -/
theorem decode_first {F : Following I dict (f.cells ++ later)} (hlen : headerLength < f.cells.length)
    (hheader : textOf (f.cells.take headerLength) = []) (hflushed : Flushed f.cells)
    (htext : textOf f.cells = buildNvBlock f.headers) (hw : WellFormed f.headers) (henc : Encodable f.headers) :
    ∃ fuel out d', decode dict fuel (.new I) (wire f.cells) = some (out,d') ∧ Same out f.headers ∧
      Ready F d' ⟨.seeded,f.cells.length,(buildNvBlock f.headers).length,[],later⟩ := by
  have hready : Ready F (.new I) ⟨.fresh,0,0,[],f.cells ++ later⟩ := ⟨F.start,rfl,rfl,rfl⟩
  obtain ⟨-,htotal⟩ := F.totals F.start
  dsimp only at htotal
  have hreserve : 0 < reserveFor (wire f.cells) := Nat.succ_pos _
  obtain ⟨grown,hroom,-,-,hround⟩ := round_eq dict (resize [] (0 + reserveFor (wire f.cells)))
    (Nat.zero_le (wire f.cells).length) (by rw [htotal]; exact Nat.zero_le _) hreserve
  have hinit : wire f.cells <+: wire (f.cells ++ later) := by
    rw [wire_append]
    exact List.prefix_append _ _
  obtain ⟨s,hcall,hat⟩ := F.header (grown.length - I.totalOut I.new) F.start rfl (by rw [length_wire]; exact hlen.le)
    hinit
  obtain ⟨s',hdict,hat'⟩ := F.dictionary hat rfl
  obtain ⟨htotalIn,-⟩ := F.totals hat
  rw [List.drop_zero,hcall] at hround
  have hagain : round dict (wire f.cells) (reserveFor (wire f.cells)) I.new (resize [] (0 + reserveFor (wire f.cells))) 0 =
      .again s' (writeAt grown (I.totalOut I.new) []) (f.cells.take headerLength).length := by
    rw [hround]
    unfold afterCall
    dsimp only
    rw [hdict,htotalIn,List.length_take_of_le hlen.le]
    rfl
  have hcells : f.cells = f.cells.take headerLength ++ f.cells.drop headerLength := (List.take_append_drop _ _).symm
  have hrest : (f.cells ++ later).drop headerLength = f.cells.drop headerLength ++ later :=
    List.drop_append_of_le_length hlen.le
  have hblock : textOf (f.cells.drop headerLength) = buildNvBlock f.headers := by
    rw [← htext,← textOf_take_append_drop headerLength f.cells,hheader,List.nil_append]
  obtain ⟨fuel,dec',plain',hloop,hat'',htake⟩ := decodeLoop_first F hreserve hat' rfl hcells hrest (hflushed.drop hlen)
    (by dsimp only; rw [List.length_take_of_le hlen.le,Nat.zero_add]) (Nat.zero_le _)
  dsimp only at hat'' htake
  rw [List.nil_append,hblock] at hat'' htake
  obtain ⟨out,d',hparse,hout,hready'⟩ := parseNext_ready hready henc hw hat'' htake
  refine ⟨fuel + 1,out,d',?_,hout,?_⟩
  · unfold decode
    dsimp only
    have hrun := (decodeLoop_again hagain).trans hloop
    exact (congrArg _ hrun).trans (congrArg some hparse)
  · rw [Nat.zero_add] at hready'
    exact hready'

end Step

/-! ## Whole streams -/

section Runs
variable {I : Inflater} {dict : List UInt8} {stream : List Cell} {f : Frame} {frames : List Frame}

theorem decodeAll_mono {d : SpdyHeaderDecoder I} {chunks : List (List UInt8)} {outs : List (HashMap String String)}
    {fuel fuel' : ℕ} (h : decodeAll dict fuel d chunks = some outs) (hle : fuel ≤ fuel') :
    decodeAll dict fuel' d chunks = some outs := by
  induction chunks generalizing d outs with
  | nil => exact h
  | cons chunk chunks ih =>
    rw [decodeAll] at h ⊢
    obtain ⟨r,hr,h⟩ := Option.bind_eq_some_iff.mp h
    obtain ⟨rest,hrest,rfl⟩ := Option.map_eq_some_iff.mp h
    rw [decode_mono hr hle,Option.bind_some,ih hrest]
    rfl

/-- A frame that is decoded, and the frames that follow it. -/
theorem decodeAll_cons {d d' : SpdyHeaderDecoder I} {out : HashMap String String} {outs : List (HashMap String String)}
    {chunk : List UInt8} {chunks : List (List UInt8)} {fuel fuel' : ℕ} (hd : decode dict fuel d chunk = some (out,d'))
    (hrest : decodeAll dict fuel' d' chunks = some outs) :
    decodeAll dict (max fuel fuel') d (chunk :: chunks) = some (out :: outs) := by
  rw [decodeAll,decode_mono hd (le_max_left _ _),Option.bind_some,decodeAll_mono hrest (le_max_right _ _)]
  rfl

/-- What is known of a frame that is read back. -/
structure Readable (f : Frame) : Prop where
  text : textOf f.cells = buildNvBlock f.headers
  flushed : Flushed f.cells
  wellFormed : WellFormed f.headers
  encodable : Encodable f.headers

theorem decodeAll_fits {F : Following I dict stream} {d : SpdyHeaderDecoder I} {p : Position} (hready : Ready F d p)
    (hphase : p.phase = .seeded) (hrest : p.rest = cellsOf frames) (hread : ∀ f ∈ frames, Readable f)
    (hfits : ∀ f ∈ frames, FitsReserve f) : ∃ fuel outs, decodeAll dict fuel d (chunksOf frames) = some outs ∧
      List.Forall₂ Same outs (frames.map Frame.headers) := by
  induction frames generalizing d p with
  | nil => exact ⟨0,[],rfl,.nil⟩
  | cons f frames ih =>
    obtain ⟨hf,hread⟩ := List.forall_mem_cons.mp hread
    obtain ⟨hffits,hfits⟩ := List.forall_mem_cons.mp hfits
    obtain ⟨fuel,out,d',hd,hsame,hready'⟩ :=
      decode_fits hready hphase (hrest.trans List.flatMap_cons) hf.text hf.wellFormed hf.encodable hffits
    obtain ⟨fuel',outs,hall,hsames⟩ := ih hready' rfl rfl hread hfits
    exact ⟨_,_,decodeAll_cons hd hall,.cons hsame hsames⟩

/-- Where everything fits the maps come back, with any inflater. -/
theorem decodes_of_fits (hs : HeaderStream frames) (hw : ∀ f ∈ frames, WellFormed f.headers) (hfits : Fits frames)
    (hI : Follows I dict (cellsOf frames)) : Decodes I dict frames := by
  obtain ⟨F⟩ := hI
  cases frames with
  | nil => exact ⟨0,[],rfl,.nil⟩
  | cons f frames =>
    have hread : ∀ g ∈ f :: frames, Readable g := fun g hg => ⟨hs.text g hg,hs.flushed g hg,hw g hg,hfits.1 g hg⟩
    obtain ⟨hf,hread⟩ := List.forall_mem_cons.mp hread
    obtain ⟨hlen,hheader⟩ := hs.header f rfl
    obtain ⟨fuel,out,d',hd,hsame,hready⟩ := decode_first (F := F) hlen hheader hf.flushed hf.text hf.wellFormed hf.encodable
    obtain ⟨fuel',outs,hall,hsames⟩ := decodeAll_fits hready rfl rfl hread hfits.2
    exact ⟨_,_,decodeAll_cons hd hall,.cons hsame hsames⟩

end Runs

/-! ## A second call -/

section Short
variable {dict : List UInt8} {stream cells later : List Cell}

/-- Behind a full buffer the inflater that knows the stream has read `n` cells of the chunk,
but the loop goes on that far behind the start of the stream. -/
structure Behind (cells later : List Cell) (before emitted n : ℕ) (q : Position) : Prop where
  phase : q.phase = .seeded
  rest : q.rest = cells.drop n ++ later
  totalIn : q.totalIn = before + n
  text : q.totalOut + q.pending.length = emitted + (textOf (cells.take n)).length

variable {before emitted n i room : ℕ} {q : Position}

theorem Behind.advance (h : Behind cells later before emitted n q) (room : ℕ) (hi : n + i ≤ cells.length) :
    Behind cells later before emitted (n + i) (q.advance i room) := by
  have hlen : i ≤ (cells.drop n).length := by
    rw [List.length_drop]
    omega
  have havail : (q.available i).length = q.pending.length + (textOf ((cells.drop n).take i)).length := by
    unfold Position.available
    rw [h.rest,List.take_append_of_le_length hlen,List.length_append]
  refine ⟨h.phase,?_,?_,?_⟩
  · show q.rest.drop i = _
    rw [h.rest,List.drop_append_of_le_length hlen,List.drop_drop]
  · show q.totalIn + i = _
    rw [h.totalIn]
    omega
  · show q.totalOut + ((q.available i).take room).length + ((q.available i).drop room).length = _
    have hsplit := congrArg List.length (List.take_append_drop room (q.available i))
    rw [List.length_append] at hsplit
    have htake : (textOf (cells.take (n + i))).length =
        (textOf (cells.take n)).length + (textOf ((cells.drop n).take i)).length := by
      rw [List.take_add,textOf_append,List.length_append]
    have := h.text
    omega

/-- A round of the inflater that knows the stream: it rejects its input, or reads some of it. -/
theorem round_replay {chunk plain : List UInt8} {reserve inConsumed : ℕ} (hphase : q.phase = .seeded) :
    let r := round (I := replay dict stream) dict chunk reserve q plain inConsumed
    r = .panicked ∨ (∃ plain', r = .done q plain') ∨ ∃ i room plain', i ≤ chunk.length - inConsumed ∧
      (q.totalOut < plain.length → room = plain.length - q.totalOut) ∧ (chunk.length ≤ q.totalIn + i ∧ r = .done (q.advance i room) plain' ∨
        q.totalIn + i < chunk.length ∧ r = .again (q.advance i room) plain' (q.totalIn + i)) := by
  intro r
  have hr : r = round (I := replay dict stream) dict chunk reserve q plain inConsumed := rfl
  unfold round at hr
  dsimp only at hr
  have hgrown : ∃ grown, (q.totalOut < plain.length → grown = plain) ∧
      (if plain.length ≤ (replay dict stream).totalOut q then resize plain (plain.length + reserve) else plain) = grown :=
    ⟨_,fun h => if_neg (Nat.not_le.mpr h),rfl⟩
  obtain ⟨grown,hsame,hgrown⟩ := hgrown
  rw [hgrown] at hr
  by_cases hslice : chunk.length < inConsumed ∨ grown.length < (replay dict stream).totalOut q
  · rw [if_pos hslice] at hr
    exact .inl hr
  rw [if_neg hslice] at hr
  have hroom : q.totalOut < plain.length → grown.length - (replay dict stream).totalOut q = plain.length - q.totalOut :=
    fun h => by rw [hsame h]
  generalize grown.length - (replay dict stream).totalOut q = room at hr hroom
  by_cases hinit : chunk.drop inConsumed <+: wire q.rest
  · have hcall : replayCall q (chunk.drop inConsumed) room =
        (.ok .ok,(q.available (taken room q.pending.length (q.rest.take (chunk.drop inConsumed).length))).take room,
          q.advance (taken room q.pending.length (q.rest.take (chunk.drop inConsumed).length)) room) := by
      simp only [replayCall,if_pos hinit,hphase]
    rw [hcall] at hr
    dsimp only at hr
    have hok : Status.ok ≠ .streamEnd := by rintro ⟨⟩
    rw [afterCall_ok hok] at hr
    have hle := taken_le room q.pending.length (q.rest.take (chunk.drop inConsumed).length)
    rw [List.length_take] at hle
    generalize taken room q.pending.length (q.rest.take (chunk.drop inConsumed).length) = i at hr hle
    have htotal : (replay dict stream).totalIn (q.advance i room) = q.totalIn + i := rfl
    rw [htotal] at hr
    refine .inr (.inr ⟨i,room,?_⟩)
    have hi : i ≤ chunk.length - inConsumed := by
      rw [List.length_drop] at hle
      omega
    by_cases hdone : chunk.length ≤ q.totalIn + i
    · rw [if_pos hdone] at hr
      exact ⟨_,hi,hroom,.inl ⟨hdone,hr⟩⟩
    · rw [if_neg hdone] at hr
      exact ⟨_,hi,hroom,.inr ⟨by omega,hr⟩⟩
  · have hcall : replayCall q (chunk.drop inConsumed) room = (.error (),[],q) := by
      simp only [replayCall,if_neg hinit]
    have hdict : replaySetDictionary dict q dict = none := by simp [replaySetDictionary,hphase]
    rw [hcall] at hr
    unfold afterCall at hr
    dsimp only at hr
    rw [hdict] at hr
    exact .inr (.inl ⟨_,hr⟩)

/-- What the marker leaves out is not all of the text. -/
theorem Behind.totalOut_lt (h : Behind cells later before emitted n q) (hn : n ≤ cells.length - before)
    (hmarker : textOf (cells.drop (cells.length - before)) ≠ []) : q.totalOut < emitted + (textOf cells).length := by
  have htext := h.text
  have hmono := length_textOf_take_le hn cells
  have hsplit := congrArg List.length (textOf_take_append_drop (cells.length - before) cells)
  have hpos := List.length_pos_iff.mpr hmarker
  rw [List.length_append] at hsplit
  omega

/-- A loop that is behind ends before all the text of the chunk is there. -/
theorem Behind.short {fuel reserve : ℕ} {plain plain' : List UInt8} {q' : Position}
    (h : Behind cells later before emitted n q) (hn : before + n < cells.length)
    (hmarker : textOf (cells.drop (cells.length - before)) ≠ [])
    (hrun : decodeLoop (I := replay dict stream) dict (wire cells) reserve fuel q plain (before + n) = some (q',plain')) :
    q'.totalOut < emitted + (textOf cells).length := by
  induction fuel generalizing n q plain with
  | zero => cases hrun
  | succ fuel ih =>
    unfold decodeLoop at hrun
    rcases round_replay h.phase with hr | ⟨_,hr⟩ | ⟨i,room,_,hi,-,hr⟩
    · rw [hr] at hrun
      cases hrun
    · rw [hr] at hrun
      cases hrun
      exact h.totalOut_lt (by omega) hmarker
    · rw [length_wire] at hi hr
      have hadvance := @Behind.advance _ _ _ _ _ i _ h room (by omega)
      have htotal := h.totalIn
      rcases hr with ⟨hdone,hr⟩ | ⟨hmore,hr⟩
      · rw [hr] at hrun
        cases hrun
        exact hadvance.totalOut_lt (by omega) hmarker
      · rw [hr] at hrun
        have hin : q.totalIn + i = before + (n + i) := by omega
        dsimp only at hrun
        rw [hin] at hrun
        exact ih hadvance (by omega) hrun

/-- A later chunk that does not fit: what comes out is shorter than the text of the chunk. -/
theorem decodeLoop_short {fuel reserve : ℕ} {plain plain' : List UInt8} {q' : Position}
    (h : Behind cells later before emitted 0 q) (hpending : q.pending = []) (hreserve : reserve < (textOf cells).length)
    (hlen : plain.length = emitted + reserve) (hpos : 0 < reserve)
    (hmarker : textOf (cells.drop (cells.length - before)) ≠ [])
    (hrun : decodeLoop (I := replay dict stream) dict (wire cells) reserve fuel q plain 0 = some (q',plain')) :
    q'.totalOut < emitted + (textOf cells).length := by
  cases fuel with
  | zero => cases hrun
  | succ fuel =>
    have htotal := h.totalIn
    have htext := h.text
    rw [hpending,List.take_zero,textOf_nil,List.length_nil] at htext
    unfold decodeLoop at hrun
    rcases round_replay h.phase with hr | ⟨_,hr⟩ | ⟨i,room,_,hi,hroom,hr⟩
    · rw [hr] at hrun
      cases hrun
    · rw [hr] at hrun
      cases hrun
      omega
    · rw [length_wire] at hi hr
      have hadvance := @Behind.advance _ _ _ _ _ i _ h room (by omega)
      rw [Nat.zero_add] at hadvance
      rcases hr with ⟨-,hr⟩ | ⟨hmore,hr⟩
      · rw [hr] at hrun
        cases hrun
        have hle : ((q.available i).take room).length ≤ room := List.length_take_le _ _
        have hreserved := hroom (by omega)
        show q.totalOut + ((q.available i).take room).length < _
        omega
      · rw [hr] at hrun
        have hin : q.totalIn + i = before + i := by omega
        dsimp only at hrun
        rw [hin] at hrun
        exact hadvance.short (by omega) hmarker hrun

end Short

/-! ## What a decoded stream tells -/

/-- Behind the last byte of a chunk that completes text there are fewer bytes than there were
before the chunk. A flush leaves a marker of a few bytes. -/
def MarkersShort : ℕ → List Frame → Prop
  | _, [] => True
  | before, f :: frames =>
    textOf (f.cells.drop (f.cells.length - before)) ≠ [] ∧ MarkersShort (before + f.cells.length) frames

section Converse
variable {dict : List UInt8} {stream later : List Cell} {f : Frame} {frames : List Frame}

theorem not_same_of_decode {d d' : SpdyHeaderDecoder (replay dict stream)} {p : Position} {fuel : ℕ}
    {out : HashMap String String} (hready : Ready (replayFollowing dict stream) d p) (hphase : p.phase = .seeded)
    (hrest : p.rest = f.cells ++ later) (htext : textOf f.cells = buildNvBlock f.headers) (hfits : ¬FitsReserve f)
    (hmarker : textOf (f.cells.drop (f.cells.length - p.totalIn)) ≠ [])
    (hd : decode dict fuel d (wire f.cells) = some (out,d')) : ¬Same out f.headers := by
  obtain ⟨dec,plain,plainEnd⟩ := d
  have hdec : dec = p := hready.follows
  have hplain : plain.length = p.totalOut := hready.plain
  have hend : plainEnd = p.totalOut := hready.plainEnd
  subst hdec
  obtain ⟨⟨q,plain'⟩,hrun,hparse⟩ := Option.map_eq_some_iff.mp hd
  have hlarge : reserveFor (wire f.cells) < (textOf f.cells).length := by
    rw [htext]
    exact Nat.lt_of_not_le hfits
  have hbehind : Behind f.cells later dec.totalIn dec.totalOut 0 dec := by
    refine ⟨hphase,hrest,rfl,?_⟩
    rw [hready.pending]
    rfl
  have hshort := decodeLoop_short hbehind hready.pending hlarge (by rw [length_resize,hplain]) (Nat.succ_pos _) hmarker hrun
  have hblock : (textOf f.cells).length = blockSize f.headers := by rw [htext,length_buildNvBlock]
  intro hsame
  have hsize := hsame.blockSize
  unfold parseNext at hparse
  dsimp only at hparse
  split at hparse
  · next out' offset hsome =>
    cases hparse
    obtain ⟨hbound,-⟩ := parseNvBlockOffset_bounds hsome
    rw [List.length_take] at hbound
    omega
  · cases hparse
    have hempty : blockSize (∅ : HashMap String String) = 4 := rfl
    have hreserve : 512 ≤ reserveFor (wire f.cells) := Nat.le_add_left _ _
    omega

theorem fits_of_decodeAll {d : SpdyHeaderDecoder (replay dict stream)} {p : Position} {fuel : ℕ}
    {outs : List (HashMap String String)} (hready : Ready (replayFollowing dict stream) d p) (hphase : p.phase = .seeded)
    (hrest : p.rest = cellsOf frames) (htext : ∀ f ∈ frames, textOf f.cells = buildNvBlock f.headers)
    (hw : ∀ f ∈ frames, WellFormed f.headers) (hmarkers : MarkersShort p.totalIn frames)
    (hall : decodeAll dict fuel d (chunksOf frames) = some outs) (hsame : List.Forall₂ Same outs (frames.map Frame.headers)) :
    ∀ f ∈ frames, Encodable f.headers ∧ FitsReserve f := by
  induction frames generalizing d p outs with
  | nil => exact nofun
  | cons f frames ih =>
    obtain ⟨hftext,htext⟩ := List.forall_mem_cons.mp htext
    obtain ⟨hfw,hw⟩ := List.forall_mem_cons.mp hw
    obtain ⟨hmarker,hmarkers⟩ := hmarkers
    obtain ⟨⟨out,d'⟩,hd,hmap⟩ := Option.bind_eq_some_iff.mp hall
    obtain ⟨outs',hall',rfl⟩ := Option.map_eq_some_iff.mp hmap
    obtain ⟨hfsame,hsame⟩ := List.forall₂_cons.mp hsame
    have henc := hfsame.encodable (decode_encodable hd)
    have hrest' : p.rest = f.cells ++ cellsOf frames := hrest.trans List.flatMap_cons
    have hfits : FitsReserve f := by
      by_contra hnot
      exact not_same_of_decode hready hphase hrest' hftext hnot hmarker hd hfsame
    obtain ⟨fuel',out',d'',hd',-,hready'⟩ := decode_fits hready hphase hrest' hftext hfw henc hfits
    have heq := (decode_mono hd (le_max_left fuel fuel')).symm.trans (decode_mono hd' (le_max_right fuel fuel'))
    obtain ⟨-,rfl⟩ := Prod.mk.inj (Option.some.inj heq)
    exact List.forall_mem_cons.mpr ⟨⟨henc,hfits⟩,ih hready' rfl rfl htext hw hmarkers hall' hsame⟩

/-- If every inflater that follows the stream leads to the maps, everything fits. -/
theorem fits_of_decodes (hs : HeaderStream frames) (hw : ∀ f ∈ frames, WellFormed f.headers)
    (hmarkers : ∀ f ∈ frames.head?, MarkersShort f.cells.length frames.tail)
    (h : ∀ I, Follows I dict (cellsOf frames) → Decodes I dict frames) : Fits frames := by
  cases frames with
  | nil => exact ⟨nofun,nofun⟩
  | cons f frames =>
    obtain ⟨fuel,outs,hall,hsame⟩ := h _ (replay_follows dict (cellsOf (f :: frames)))
    obtain ⟨⟨out,d'⟩,hd,hmap⟩ := Option.bind_eq_some_iff.mp hall
    obtain ⟨outs',hall',rfl⟩ := Option.map_eq_some_iff.mp hmap
    obtain ⟨hfsame,hsame⟩ := List.forall₂_cons.mp hsame
    have henc := hfsame.encodable (decode_encodable hd)
    obtain ⟨hftext,htext⟩ := List.forall_mem_cons.mp hs.text
    obtain ⟨hfw,hw⟩ := List.forall_mem_cons.mp hw
    obtain ⟨hlen,hheader⟩ := hs.header f rfl
    obtain ⟨fuel',out',d'',hd',-,hready⟩ := decode_first (F := replayFollowing dict (f.cells ++ cellsOf frames)) hlen hheader
      (hs.flushed f List.mem_cons_self) hftext hfw henc
    have heq := (decode_mono hd (le_max_left fuel fuel')).symm.trans (decode_mono hd' (le_max_right fuel fuel'))
    obtain ⟨-,rfl⟩ := Prod.mk.inj (Option.some.inj heq)
    have hrest := fits_of_decodeAll hready rfl rfl htext hw (hmarkers f rfl) hall' hsame
    exact ⟨List.forall_mem_cons.mpr ⟨henc,fun g hg => (hrest g hg).1⟩,fun g hg => (hrest g hg).2⟩

end Converse

/-- Where everything fits the decoder gives the maps back with any inflater that follows the
stream; where the markers are short it does so only then. -/
theorem decodes_iff_fits (dict : List UInt8) (frames : List Frame) (hs : HeaderStream frames)
    (hw : ∀ f ∈ frames, WellFormed f.headers) :
    (Fits frames → ∀ I, Follows I dict (cellsOf frames) → Decodes I dict frames) ∧
    ((∀ f ∈ frames.head?, MarkersShort f.cells.length frames.tail) →
      ((∀ I, Follows I dict (cellsOf frames) → Decodes I dict frames) ↔ Fits frames)) :=
  ⟨fun hfits _ hI => decodes_of_fits hs hw hfits hI,
    fun hmarkers => ⟨fits_of_decodes hs hw hmarkers,fun hfits _ hI => decodes_of_fits hs hw hfits hI⟩⟩

/-! ## Streams of a compressor -/

/-- Cells from a table of bytes and of how much text each completes. -/
def annotate : List (UInt8 × ℕ) → List UInt8 → List Cell
  | [], _ => []
  | e :: table, text => ⟨e.1,text.take e.2⟩ :: annotate table (text.drop e.2)

section Annotate
variable {table : List (UInt8 × ℕ)} {text : List UInt8}

theorem textOf_annotate (h : (table.map Prod.snd).sum = text.length) : textOf (annotate table text) = text := by
  induction table generalizing text with
  | nil => exact (List.length_eq_zero_iff.mp h.symm).symm
  | cons e table ih =>
    rw [List.map_cons,List.sum_cons] at h
    rw [annotate,textOf_cons,ih (by rw [List.length_drop]; omega),List.take_append_drop]

@[simp] theorem length_annotate : (annotate table text).length = table.length := by
  induction table generalizing text with
  | nil => rfl
  | cons e table ih => rw [annotate,List.length_cons,ih,List.length_cons]

theorem flushed_annotate {b : UInt8} (text : List UInt8) : Flushed (annotate (table ++ [(b,0)]) text) := by
  induction table generalizing text with
  | nil => exact ⟨[],⟨b,[]⟩,rfl,rfl⟩
  | cons e table ih =>
    obtain ⟨init,c,hcells,hc⟩ := ih (text.drop e.2)
    exact ⟨⟨e.1,text.take e.2⟩ :: init,c,congrArg _ hcells,hc⟩

end Annotate

def header (name value : String) : HashMap String String := (∅ : HashMap String String).insert name value

/-- The first chunk of a stream. -/
def errorFrame : Frame where
  headers := header "streamtype" "error"
  cells := annotate ([(120,0),(63,0),(227,0),(198,0),(167,0),(194,0),(2,0),(166,0),(35,3),(70,1),(112,0),(58,0),(43,5),
    (41,1),(74,1),(77,1),(204,1),(133,1),(22,0),(37,7),(172,1),(169,1),(160,0),(128,0),(6,4),(0,0),(0,0),(0,0),(255,0)] ++
    [(255,0)]) (buildNvBlock (header "streamtype" "error"))

def dataFrame : Frame where
  headers := (header "port" "80").insert "streamtype" "data"
  cells := annotate ([(2,0),(10,0),(51,3),(97,1),(72,0),(129,17),(74,0),(25,4),(80,0),(38,0),(0,4),(22,0),(216,3),(69,1),
    (160,0),(196,0),(205,4),(100,1),(97,1),(0,1),(0,0),(0,0),(0,0),(255,0)] ++ [(255,0)])
    (buildNvBlock ((header "port" "80").insert "streamtype" "data"))

/-- Seven hundred times the same letter. -/
def longValue : String := String.ofList (List.replicate 700 'b')

def longFrame : Frame where
  headers := header "a" longValue
  cells := annotate ([(130,0),(74,0),(49,7),(2,1),(211,0),(60,3),(211,1),(158,1),(164,1),(81,0),(48,258),(26,0),(2,258),
    (67,0),(52,0),(4,0),(0,183),(0,0),(0,0),(0,0),(255,0)] ++ [(255,0)]) (buildNvBlock (header "a" longValue))

theorem length_longValue : (asBytes longValue).length = 700 := by
  have hlen : ∀ n, ((List.replicate n 'b').flatMap String.utf8EncodeChar).length = n := by
    intro n
    induction n with
    | zero => rfl
    | succ n ih =>
      rw [List.replicate_succ,List.flatMap_cons,List.length_append,ih]
      exact Nat.add_comm 1 n
  unfold longValue asBytes
  rw [String.toList_ofList]
  exact hlen 700

theorem length_block_header (name value : String) :
    (buildNvBlock (header name value)).length = 12 + (asBytes name).length + (asBytes value).length := by
  rw [length_buildNvBlock]
  show 4 + (8 + (asBytes name).length + (asBytes value).length + 0) = _
  omega

theorem length_longBlock : (buildNvBlock longFrame.headers).length = 713 := by
  unfold longFrame
  rw [length_block_header,length_longValue]
  rfl

theorem errorFrame_text : textOf errorFrame.cells = buildNvBlock errorFrame.headers := textOf_annotate (by decide)

theorem dataFrame_text : textOf dataFrame.cells = buildNvBlock dataFrame.headers := textOf_annotate (by decide)

theorem longFrame_text : textOf longFrame.cells = buildNvBlock longFrame.headers := by
  refine textOf_annotate ?_
  have hlen := length_longBlock
  unfold longFrame at hlen
  rw [hlen]
  rfl

theorem longFrame_flushed : Flushed longFrame.cells := by
  unfold longFrame
  exact flushed_annotate _

theorem errorFrame_stream {f : Frame} (hf : textOf f.cells = buildNvBlock f.headers) (hflushed : Flushed f.cells) :
    HeaderStream [errorFrame,f] := by
  refine ⟨?_,?_,?_⟩
  · exact List.forall_mem_cons.mpr ⟨errorFrame_text,List.forall_mem_singleton.mpr hf⟩
  · exact List.forall_mem_cons.mpr ⟨flushed_annotate _,List.forall_mem_singleton.mpr hflushed⟩
  · rintro g ⟨⟩
    exact ⟨by decide,rfl⟩

theorem errorFrame_wellFormed : WellFormed errorFrame.headers := by
  decide

theorem wellFormed_header {name value : String}
    (hname : name.toList.all (fun c => decide (c.toNat < 128 ∧ c.isUpper = false)) = true)
    (hvalue : Char.ofNat 0 ∉ value.toList) : WellFormed (header name value) :=
  List.forall_mem_singleton.mpr ⟨fun c hc => of_decide_eq_true (List.all_eq_true.mp hname c hc),hvalue⟩

theorem longFrame_wellFormed : WellFormed longFrame.headers := by
  refine wellFormed_header (by decide) ?_
  unfold longValue
  rw [String.toList_ofList]
  intro h
  exact absurd (List.eq_of_mem_replicate h) (by decide)

theorem decodes_error_data : Decodes (replay spdyDict (cellsOf [errorFrame,dataFrame])) spdyDict [errorFrame,dataFrame] := by
  have hw : WellFormed dataFrame.headers := by
    decide
  have hfits : Fits [errorFrame,dataFrame] := by
    unfold Fits HeaderBlock.Encodable FitsReserve
    decide
  exact (decodes_iff_fits spdyDict [errorFrame,dataFrame] (errorFrame_stream dataFrame_text (flushed_annotate _))
    (List.forall_mem_cons.mpr ⟨errorFrame_wellFormed,List.forall_mem_singleton.mpr hw⟩)).1 hfits _ (replay_follows _ _)

theorem long_header_lost : HeaderStream [errorFrame,longFrame] ∧ (∀ f ∈ [errorFrame,longFrame], WellFormed f.headers) ∧
    ¬∀ I, Follows I spdyDict (cellsOf [errorFrame,longFrame]) → Decodes I spdyDict [errorFrame,longFrame] := by
  have hs : HeaderStream [errorFrame,longFrame] := errorFrame_stream longFrame_text longFrame_flushed
  have hw : ∀ f ∈ [errorFrame,longFrame], WellFormed f.headers :=
    List.forall_mem_cons.mpr ⟨errorFrame_wellFormed,List.forall_mem_singleton.mpr longFrame_wellFormed⟩
  refine ⟨hs,hw,?_⟩
  intro h
  have hmarkers : ∀ f ∈ [errorFrame,longFrame].head?, MarkersShort f.cells.length [errorFrame,longFrame].tail := by
    rintro f ⟨⟩
    refine ⟨?_,trivial⟩
    have hshort : longFrame.cells.length - errorFrame.cells.length = 0 := by simp [longFrame,errorFrame]
    rw [hshort,List.drop_zero,longFrame_text]
    intro hnil
    have hlen := length_longBlock
    rw [hnil] at hlen
    cases hlen
  have hfits := (fits_of_decodes hs hw hmarkers h).2 longFrame List.mem_cons_self
  unfold FitsReserve reserveFor at hfits
  rw [length_longBlock,length_wire] at hfits
  have hcells : longFrame.cells.length = 22 := by simp [longFrame]
  omega

end KubeAir.Streaming.HeaderDecoder
