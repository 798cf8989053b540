import KubeAir.Streaming.HeaderBlock
import KubeAir.Wire.Inflate

/-! # The header decoder

One inflater for all header frames of a connection. A frame is inflated behind the text of
the frames before it, and the next block is parsed from where the last one ended.
-/
namespace KubeAir.Streaming.HeaderDecoder
open Core Wire HeaderBlock

/-- The words of `SPDY_DICT` that stand behind their lengths. -/
def dictWords : List String :=
  ["options","head","post","put","delete","trace","accept","accept-charset","accept-encoding","accept-language",
    "accept-ranges","age","allow","authorization","cache-control","connection","content-base","content-encoding",
    "content-language","content-length","content-location","content-md5","content-range","content-type","date",
    "etag","expect","expires","from","host","if-match","if-modified-since","if-none-match","if-range",
    "if-unmodified-since","last-modified","location","max-forwards","pragma","proxy-authenticate",
    "proxy-authorization","range","referer","retry-after","server","te","trailer","transfer-encoding","upgrade",
    "user-agent","vary","via","warning","www-authenticate","method","get","status","200 OK","version","HTTP/1.1",
    "url","public","set-cookie","keep-alive","origin"]

def dictTail : String :=
  "100101201202205206300302303304305306307402405406407408409410411412413414415416417502504505203 Non-Au" ++
    "thoritative Information204 No Content301 Moved Permanently400 Bad Request401 Unauthorized403 Forbidd" ++
    "en404 Not Found500 Internal Server Error501 Not Implemented503 Service UnavailableJan Feb Mar Apr Ma" ++
    "y Jun Jul Aug Sept Oct Nov Dec 00:00:00 Mon, Tue, Wed, Thu, Fri, Sat, Sun, GMTchunked,text/html,imag" ++
    "e/png,image/jpg,image/gif,application/xml,application/xhtml+xml,text/plain,text/javascript,publicpri" ++
    "vatemax-age=gzip,deflate,sdchcharset=utf-8charset=iso-8859-1,utf-,*,enq=0."

def spdyDict : List UInt8 := dictWords.flatMap (fun w => lengthWord (asBytes w).length ++ asBytes w) ++ asBytes dictTail

/-- `Vec::resize` with zeros. -/
def resize (v : List UInt8) (n : ℕ) : List UInt8 := v.take n ++ List.replicate (n - v.length) 0

/-- Writing into a buffer from an offset on. -/
def writeAt (v : List UInt8) (offset : ℕ) (out : List UInt8) : List UInt8 :=
  v.take offset ++ (out ++ v.drop (offset + out.length))

structure SpdyHeaderDecoder (I : Inflater) where
  dec : I.State
  plain : List UInt8
  plainEnd : ℕ

def SpdyHeaderDecoder.new (I : Inflater) : SpdyHeaderDecoder I := ⟨I.new,[],0⟩

variable {I : Inflater}

/-- Where a round of the loop ends: a slice that is out of range, the end of the loop, or what
the next round begins with. -/
inductive Round (I : Inflater)
  | panicked
  | done (dec : I.State) (plain : List UInt8)
  | again (dec : I.State) (plain : List UInt8) (inConsumed : ℕ)

/-- What follows a call. `in_consumed` becomes the count over the whole stream. -/
def afterCall (dict chunk : List UInt8) (reserve : ℕ) (plain : List UInt8) (status : Except Unit Status) (dec : I.State) :
    Round I :=
  match status with
  | .error _ =>
    match I.setDictionary dec dict with
    | none => .done dec plain
    | some seeded => .again seeded plain (I.totalIn dec)
  | .ok .streamEnd => .done dec plain
  | .ok _ =>
    if chunk.length ≤ I.totalIn dec then .done dec plain
    else .again dec (resize plain (plain.length + reserve)) (I.totalIn dec)

def round (dict chunk : List UInt8) (reserve : ℕ) (dec : I.State) (plain : List UInt8) (inConsumed : ℕ) : Round I :=
  let outStart := I.totalOut dec
  let plain := if plain.length ≤ outStart then resize plain (plain.length + reserve) else plain
  if chunk.length < inConsumed ∨ plain.length < outStart then .panicked
  else
    let call := I.decompress dec (chunk.drop inConsumed) (plain.length - outStart)
    afterCall dict chunk reserve (writeAt plain outStart call.2.1) call.1 call.2.2

/-- The loop of `decode`. -/
def decodeLoop (dict chunk : List UInt8) (reserve : ℕ) : ℕ → I.State → List UInt8 → ℕ → Option (I.State × List UInt8)
  | 0, _, _, _ => none
  | fuel + 1, dec, plain, inConsumed =>
    match round dict chunk reserve dec plain inConsumed with
    | .panicked => none
    | .done dec plain => some (dec,plain)
    | .again dec plain inConsumed => decodeLoop dict chunk reserve fuel dec plain inConsumed

def reserveFor (chunk : List UInt8) : ℕ := chunk.length * 8 + 512

/-- What `decode` does after its loop. -/
def parseNext (oldLen plainEnd : ℕ) (dec : I.State) (plain : List UInt8) : HashMap String String × SpdyHeaderDecoder I :=
  let plain := plain.take (max (I.totalOut dec) oldLen)
  match parseNvBlockOffset plain plainEnd with
  | some (out,offset) => (out,⟨dec,plain,offset⟩)
  | none => (∅,⟨dec,plain,plainEnd⟩)

def decode (dict : List UInt8) (fuel : ℕ) (d : SpdyHeaderDecoder I) (chunk : List UInt8) :
    Option (HashMap String String × SpdyHeaderDecoder I) :=
  let reserve := reserveFor chunk
  (decodeLoop dict chunk reserve fuel d.dec (resize d.plain (d.plain.length + reserve)) 0).map fun r =>
    parseNext d.plain.length d.plainEnd r.1 r.2

/-- The chunks of a connection one after the other. -/
def decodeAll (dict : List UInt8) (fuel : ℕ) : SpdyHeaderDecoder I → List (List UInt8) → Option (List (HashMap String String))
  | _, [] => some []
  | d, chunk :: chunks =>
    (decode dict fuel d chunk).bind fun r => (decodeAll dict fuel r.2 chunks).map fun outs => r.1 :: outs

/-! ## More fuel -/

section Fuel
variable {dict chunk : List UInt8} {reserve fuel fuel' : ℕ}

theorem decodeLoop_mono {dec : I.State} {plain : List UInt8} {inConsumed : ℕ} {r : I.State × List UInt8}
    (h : decodeLoop dict chunk reserve fuel dec plain inConsumed = some r) (hle : fuel ≤ fuel') :
    decodeLoop dict chunk reserve fuel' dec plain inConsumed = some r := by
  induction fuel generalizing fuel' dec plain inConsumed with
  | zero => cases h
  | succ fuel ih =>
    obtain ⟨fuel',rfl⟩ : ∃ n, fuel' = n + 1 := ⟨fuel' - 1,by omega⟩
    unfold decodeLoop at h ⊢
    cases hround : round dict chunk reserve dec plain inConsumed with
    | panicked =>
      rw [hround] at h
      cases h
    | done dec' plain' =>
      rw [hround] at h
      exact h
    | again dec' plain' inConsumed' =>
      rw [hround] at h
      exact ih h (by omega)

theorem decode_mono {d : SpdyHeaderDecoder I} {r : HashMap String String × SpdyHeaderDecoder I}
    (h : decode dict fuel d chunk = some r) (hle : fuel ≤ fuel') : decode dict fuel' d chunk = some r := by
  unfold decode at h ⊢
  dsimp only at h ⊢
  obtain ⟨r',hr,rfl⟩ := Option.map_eq_some_iff.mp h
  rw [decodeLoop_mono hr hle]
  rfl

end Fuel

/-- Whatever is decoded has lengths that fit into their words. -/
theorem decode_encodable {dict chunk : List UInt8} {fuel : ℕ} {d d' : SpdyHeaderDecoder I} {out : HashMap String String}
    (h : decode dict fuel d chunk = some (out,d')) : Encodable out := by
  obtain ⟨r,-,hr⟩ := Option.map_eq_some_iff.mp h
  unfold parseNext at hr
  dsimp only at hr
  split at hr
  · next hparse =>
    cases hr
    exact (parseNvBlockOffset_bounds hparse).2
  · cases hr
    exact ⟨by decide,nofun⟩

end KubeAir.Streaming.HeaderDecoder
