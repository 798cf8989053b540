import Mathlib.Data.List.Basic
import Mathlib.Data.List.Infix

/-! # Inflating a stream in pieces

A compressed stream as the bytes on the wire, each with the text that can be told once it is
read. An inflater is given a piece of the stream and room for text at a time; it keeps count
of what it took in and gave out over the whole stream.
-/
namespace KubeAir.Wire

/-- A byte of a compressed stream and the text that it completes. -/
structure Cell where
  byte : UInt8
  text : List UInt8
deriving DecidableEq, Repr

def wire (cells : List Cell) : List UInt8 := cells.map Cell.byte

def textOf (cells : List Cell) : List UInt8 := cells.flatMap Cell.text

/-- The last byte only ends a flush: it completes no text. -/
def Flushed (cells : List Cell) : Prop := ∃ init c, cells = init ++ [c] ∧ c.text = []

section Cells
variable {cells more : List Cell}

@[simp] theorem length_wire : (wire cells).length = cells.length := List.length_map _

@[simp] theorem wire_append : wire (cells ++ more) = wire cells ++ wire more := List.map_append

@[simp] theorem textOf_nil : textOf [] = [] := rfl

@[simp] theorem textOf_cons {c : Cell} : textOf (c :: cells) = c.text ++ textOf cells := rfl

@[simp] theorem textOf_append : textOf (cells ++ more) = textOf cells ++ textOf more := List.flatMap_append

theorem drop_wire (n : ℕ) : (wire cells).drop n = wire (cells.drop n) := List.map_drop.symm

theorem textOf_take_append_drop (n : ℕ) (cells : List Cell) :
    textOf (cells.take n) ++ textOf (cells.drop n) = textOf cells := by
  rw [← textOf_append,List.take_append_drop]

theorem length_textOf_take_le {m n : ℕ} (h : m ≤ n) (cells : List Cell) :
    (textOf (cells.take m)).length ≤ (textOf (cells.take n)).length := by
  have hmin : cells.take m = (cells.take n).take m := by rw [List.take_take,Nat.min_eq_left h]
  rw [hmin,← textOf_take_append_drop m (cells.take n),List.length_append]
  omega

theorem Flushed.drop (h : Flushed cells) {n : ℕ} (hn : n < cells.length) : Flushed (cells.drop n) := by
  obtain ⟨init,c,rfl,hc⟩ := h
  refine ⟨init.drop n,c,?_,hc⟩
  rw [List.length_append,List.length_singleton] at hn
  exact List.drop_append_of_le_length (by omega)

theorem Flushed.textOf_dropLast (h : Flushed cells) : textOf (cells.take (cells.length - 1)) = textOf cells := by
  obtain ⟨init,c,rfl,hc⟩ := h
  have ht : (init ++ [c]).take ((init ++ [c]).length - 1) = init := by
    rw [List.length_append,List.length_singleton,Nat.add_sub_cancel]
    exact List.take_left
  rw [ht,textOf_append,textOf_cons,hc,textOf_nil,List.append_nil,List.append_nil]

end Cells

inductive Status
  | ok
  | bufError
  | streamEnd
deriving DecidableEq, Repr

/-- What is known of an inflater: its counters, a call with an input and with room for so many
bytes, and how it is given a dictionary. -/
structure Inflater where
  State : Type
  new : State
  totalIn : State → ℕ
  totalOut : State → ℕ
  decompress : State → List UInt8 → ℕ → Except Unit Status × List UInt8 × State
  setDictionary : State → List UInt8 → Option State

/-- A fresh inflater has not read the header, a waiting one asks for the dictionary that the
header names. -/
inductive Phase
  | fresh
  | waiting
  | seeded
deriving DecidableEq, Repr

/-- Where an inflater is in a stream; `pending` is text that is complete but not given out. -/
structure Position where
  phase : Phase
  totalIn : ℕ
  totalOut : ℕ
  pending : List UInt8
  rest : List Cell
deriving DecidableEq

namespace Position

/-- The text there is after some more cells. -/
def available (p : Position) (i : ℕ) : List UInt8 := p.pending ++ textOf (p.rest.take i)

def advance (p : Position) (i room : ℕ) : Position where
  phase := p.phase
  totalIn := p.totalIn + i
  totalOut := p.totalOut + ((p.available i).take room).length
  pending := (p.available i).drop room
  rest := p.rest.drop i

end Position

/-- Two bytes of header and four that name the dictionary. -/
def headerLength : ℕ := 6

/-- An inflater follows a stream that begins with a header: it counts over the whole stream;
it asks for the dictionary behind the header; a call on what comes next takes bytes in until
its input ends, or the text does not fit, and does not read on while text is left over; the
next call goes on from there. Nothing is said about any other input. -/
structure Following (I : Inflater) (dict : List UInt8) (stream : List Cell) where
  At : I.State → Position → Prop
  start : At I.new ⟨.fresh,0,0,[],stream⟩
  totals : ∀ {s p}, At s p → I.totalIn s = p.totalIn ∧ I.totalOut s = p.totalOut
  header : ∀ {s p input} (room : ℕ), At s p → p.phase = .fresh → headerLength ≤ input.length → input <+: wire p.rest →
    ∃ s', I.decompress s input room = (.error (),[],s') ∧
      At s' { p with phase := .waiting, totalIn := p.totalIn + headerLength, rest := p.rest.drop headerLength }
  dictionary : ∀ {s p}, At s p → p.phase = .waiting →
    ∃ s', I.setDictionary s dict = some s' ∧ At s' { p with phase := .seeded }
  call : ∀ {s p input} (room : ℕ), At s p → p.phase = .seeded → input <+: wire p.rest →
    ∃ status s' i, I.decompress s input room = (.ok status,(p.available i).take room,s') ∧ status ≠ .streamEnd ∧
      At s' (p.advance i room) ∧ i ≤ input.length ∧ (i < input.length → room < (p.available i).length) ∧
      (0 < i → (p.available (i - 1)).length ≤ room)

def Follows (I : Inflater) (dict : List UInt8) (stream : List Cell) : Prop := Nonempty (Following I dict stream)

namespace Following
variable {I : Inflater} {dict : List UInt8} {stream now later : List Cell} {s : I.State} {p : Position} {room : ℕ}

theorem available_of_le {i : ℕ} (hrest : p.rest = now ++ later) (hi : i ≤ now.length) :
    p.available i = p.pending ++ textOf (now.take i) := by
  unfold Position.available
  rw [hrest,List.take_append_of_le_length hi]

/-- The whole piece is taken in if its text fits. -/
theorem call_fits (F : Following I dict stream) (hat : F.At s p) (hphase : p.phase = .seeded)
    (hrest : p.rest = now ++ later) (hroom : (p.pending ++ textOf now).length ≤ room) :
    ∃ status s', I.decompress s (wire now) room = (.ok status,p.pending ++ textOf now,s') ∧ status ≠ .streamEnd ∧
      F.At s' ⟨.seeded,p.totalIn + now.length,p.totalOut + (p.pending ++ textOf now).length,[],later⟩ := by
  have hinit : wire now <+: wire p.rest := by
    rw [hrest,wire_append]
    exact List.prefix_append _ _
  obtain ⟨status,s',i,hcall,hstatus,hat',hi,hstop,-⟩ := F.call room hat hphase hinit
  rw [length_wire] at hi hstop
  have havail := available_of_le hrest hi
  have hle : (p.available i).length ≤ (p.pending ++ textOf now).length := by
    have hmono := length_textOf_take_le hi now
    rw [List.take_length] at hmono
    rw [havail,List.length_append,List.length_append]
    omega
  have hin : i = now.length := by
    by_contra hne
    have := hstop (by omega)
    omega
  rw [hin,List.take_length] at havail
  have hadvance : p.advance i room =
      ⟨.seeded,p.totalIn + now.length,p.totalOut + (p.pending ++ textOf now).length,[],later⟩ := by
    unfold Position.advance
    rw [hin,havail,hphase,hrest,List.drop_left,List.take_of_length_le hroom,List.drop_eq_nil_of_le hroom]
  rw [hin,havail,List.take_of_length_le hroom] at hcall
  exact ⟨status,s',hcall,hstatus,hadvance ▸ hat'⟩

/-- A call on a flushed piece whose text does not fit fills the room, and leaves some of the
piece to be read. -/
theorem call_full (F : Following I dict stream) (hat : F.At s p) (hphase : p.phase = .seeded)
    (hrest : p.rest = now ++ later) (hflushed : Flushed now) (hroom : room < (p.pending ++ textOf now).length) :
    ∃ status s' i, I.decompress s (wire now) room = (.ok status,(p.available i).take room,s') ∧ status ≠ .streamEnd ∧
      F.At s' (p.advance i room) ∧ i < now.length ∧ room ≤ (p.available i).length := by
  have hinit : wire now <+: wire p.rest := by
    rw [hrest,wire_append]
    exact List.prefix_append _ _
  obtain ⟨status,s',i,hcall,hstatus,hat',hi,hstop,hread⟩ := F.call room hat hphase hinit
  rw [length_wire] at hi hstop
  have hlt : i < now.length := by
    by_contra hge
    have hin : i = now.length := by omega
    have hpos : 0 < now.length := by
      obtain ⟨init,c,rfl,-⟩ := hflushed
      simp
    have hbefore := hread (by omega)
    rw [hin,available_of_le hrest (Nat.sub_le _ 1),hflushed.textOf_dropLast] at hbefore
    omega
  exact ⟨status,s',i,hcall,hstatus,hat',hlt,(hstop hlt).le⟩

end Following

/-! ## An inflater that knows its stream -/

/-- How many cells are taken in: as long as the text so far fits. -/
def taken (room : ℕ) : ℕ → List Cell → ℕ
  | _, [] => 0
  | sofar, c :: cells => if room < sofar then 0 else taken room (sofar + c.text.length) cells + 1

theorem taken_le (room sofar : ℕ) (cells : List Cell) : taken room sofar cells ≤ cells.length := by
  induction cells generalizing sofar with
  | nil => exact le_rfl
  | cons c cells ih =>
    unfold taken
    split
    · exact Nat.zero_le _
    · exact Nat.succ_le_succ (ih _)

theorem taken_stop {room sofar : ℕ} {cells : List Cell} (h : taken room sofar cells < cells.length) :
    room < sofar + (textOf (cells.take (taken room sofar cells))).length := by
  induction cells generalizing sofar with
  | nil => exact absurd h (Nat.lt_irrefl _)
  | cons c cells ih =>
    unfold taken at h ⊢
    split
    · next hlt =>
      simp only [List.take_zero,textOf_nil,List.length_nil]
      omega
    · next hle =>
      rw [if_neg hle] at h
      have := @ih (sofar + c.text.length) (by simpa using h)
      rw [List.take_succ_cons,textOf_cons,List.length_append]
      omega

theorem taken_read {room sofar : ℕ} {cells : List Cell} (h : 0 < taken room sofar cells) :
    sofar + (textOf (cells.take (taken room sofar cells - 1))).length ≤ room := by
  induction cells generalizing sofar with
  | nil => exact absurd h (Nat.lt_irrefl _)
  | cons c cells ih =>
    unfold taken at h ⊢
    split
    · next hlt =>
      rw [if_pos hlt] at h
      exact absurd h (Nat.lt_irrefl _)
    · next hle =>
      rw [Nat.add_sub_cancel]
      by_cases hpos : 0 < taken room (sofar + c.text.length) cells
      · have := ih hpos
        obtain ⟨n,hn⟩ : ∃ n, taken room (sofar + c.text.length) cells = n + 1 :=
          ⟨_,(Nat.succ_pred_eq_of_pos hpos).symm⟩
        rw [hn,Nat.add_sub_cancel] at this
        rw [hn,List.take_succ_cons,textOf_cons,List.length_append]
        omega
      · have hzero : taken room (sofar + c.text.length) cells = 0 := by omega
        rw [hzero]
        simp only [List.take_zero,textOf_nil,List.length_nil]
        omega

/-- A call on what comes next; everything else is rejected. -/
def replayCall (p : Position) (input : List UInt8) (room : ℕ) : Except Unit Status × List UInt8 × Position :=
  if input <+: wire p.rest then
    match p.phase with
    | .fresh =>
      if headerLength ≤ input.length then
        (.error (),[],{ p with phase := .waiting, totalIn := p.totalIn + headerLength, rest := p.rest.drop headerLength })
      else (.ok .bufError,[],p)
    | .waiting => (.error (),[],p)
    | .seeded =>
      let i := taken room p.pending.length (p.rest.take input.length)
      (.ok .ok,(p.available i).take room,p.advance i room)
  else (.error (),[],p)

def replaySetDictionary (dict : List UInt8) (p : Position) (d : List UInt8) : Option Position :=
  if p.phase = .waiting ∧ d = dict then some { p with phase := .seeded } else none

/-- The inflater that has the stream before it. -/
abbrev replay (dict : List UInt8) (stream : List Cell) : Inflater where
  State := Position
  new := ⟨.fresh,0,0,[],stream⟩
  totalIn := Position.totalIn
  totalOut := Position.totalOut
  decompress := replayCall
  setDictionary := replaySetDictionary dict

def replayFollowing (dict : List UInt8) (stream : List Cell) : Following (replay dict stream) dict stream := by
  refine { At := fun s p => s = p, start := rfl, totals := ?_, header := ?_, dictionary := ?_, call := ?_ }
  · rintro s p rfl
    exact ⟨rfl,rfl⟩
  · rintro s p input room rfl hphase hlen hinit
    refine ⟨_,?_,rfl⟩
    simp only [replayCall,if_pos hinit,hphase,if_pos hlen]
  · rintro s p rfl hphase
    refine ⟨_,?_,rfl⟩
    simp only [replaySetDictionary,hphase,and_self,if_true]
  · rintro s p input room rfl hphase hinit
    have hlen : input.length ≤ s.rest.length := by simpa using hinit.length_le
    have htake : (s.rest.take input.length).length = input.length := List.length_take_of_le hlen
    have hle := taken_le room s.pending.length (s.rest.take input.length)
    have havail : ∀ i, i ≤ input.length →
        (s.available i).length = s.pending.length + (textOf ((s.rest.take input.length).take i)).length := by
      intro i hi
      unfold Position.available
      rw [List.take_take,Nat.min_eq_left hi,List.length_append]
    refine ⟨.ok,_,taken room s.pending.length (s.rest.take input.length),?_,nofun,rfl,by omega,?_,?_⟩
    · simp only [replayCall,if_pos hinit,hphase]
    · intro hlt
      rw [havail _ (by omega)]
      exact taken_stop (by omega)
    · intro hpos
      rw [havail _ (by omega)]
      exact taken_read hpos

theorem replay_follows (dict : List UInt8) (stream : List Cell) : Follows (replay dict stream) dict stream :=
  ⟨replayFollowing dict stream⟩

end KubeAir.Wire
