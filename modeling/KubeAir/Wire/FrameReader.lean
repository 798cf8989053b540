import Mathlib.Data.List.Basic

/-! # Reading frames from a byte stream

A frame is a header of fixed length and a payload whose length the header gives. A reader
takes frames off a stream and passes over those of unknown kinds; a read in progress holds
the bytes that it has consumed of an unfinished frame.
-/
namespace KubeAir.Wire

/-- Exactly `n` bytes, and what follows them. -/
def readExact (n : ℕ) (input : List UInt8) : Option (List UInt8 × List UInt8) :=
  if n ≤ input.length then some (input.take n,input.drop n) else none

theorem readExact_eq_some {n : ℕ} {input bytes rest : List UInt8} :
    readExact n input = some (bytes,rest) ↔ input = bytes ++ rest ∧ bytes.length = n := by
  unfold readExact
  constructor
  · intro h
    obtain ⟨hle,hpair⟩ := Option.ite_none_right_eq_some.mp h
    obtain ⟨rfl,rfl⟩ := Prod.mk.inj (Option.some.inj hpair)
    exact ⟨(List.take_append_drop n input).symm,List.length_take_of_le hle⟩
  · rintro ⟨rfl,rfl⟩
    rw [if_pos (by rw [List.length_append]; omega),List.take_left,List.drop_left]

inductive Decoded (α : Type)
  | item (a : α)
  | skip
  | malformed
deriving DecidableEq

structure Format (α : Type) where
  headerLength : ℕ
  payloadLength : List UInt8 → ℕ
  decode : List UInt8 → List UInt8 → Decoded α
  headerLength_pos : 0 < headerLength

namespace Format
variable {α : Type} (F : Format α)

/-- One frame of any kind. -/
def readFrame (input : List UInt8) : Option (Decoded α × List UInt8) :=
  match readExact F.headerLength input with
  | none => none
  | some (header,rest) =>
    match readExact (F.payloadLength header) rest with
    | none => none
    | some (payload,rest) => some (F.decode header payload,rest)

section Frame
variable {F} {input rest : List UInt8} {d : Decoded α}

theorem readFrame_eq_some : F.readFrame input = some (d,rest) ↔
    ∃ header payload, input = header ++ (payload ++ rest) ∧ header.length = F.headerLength ∧
      payload.length = F.payloadLength header ∧ d = F.decode header payload := by
  unfold readFrame
  constructor
  · intro h
    cases hheader : readExact F.headerLength input with
    | none =>
      rw [hheader] at h
      cases h
    | some header =>
      rw [hheader] at h
      dsimp only at h
      cases hpayload : readExact (F.payloadLength header.1) header.2 with
      | none =>
        rw [hpayload] at h
        cases h
      | some payload =>
        rw [hpayload] at h
        obtain ⟨rfl,rfl⟩ := Prod.mk.inj (Option.some.inj h)
        obtain ⟨hinput,hlen⟩ := readExact_eq_some.mp hheader
        obtain ⟨hrest,hlen'⟩ := readExact_eq_some.mp hpayload
        exact ⟨header.1,payload.1,by rw [← hrest,← hinput],hlen,hlen',rfl⟩
  · rintro ⟨header,payload,rfl,hlen,hlen',rfl⟩
    rw [readExact_eq_some.mpr ⟨rfl,hlen⟩]
    dsimp only
    rw [readExact_eq_some.mpr ⟨rfl,hlen'⟩]

theorem readFrame_append (h : F.readFrame input = some (d,rest)) (more : List UInt8) :
    F.readFrame (input ++ more) = some (d,rest ++ more) := by
  obtain ⟨header,payload,rfl,hlen,hlen',rfl⟩ := readFrame_eq_some.mp h
  refine readFrame_eq_some.mpr ⟨header,payload,?_,hlen,hlen',rfl⟩
  rw [List.append_assoc,List.append_assoc]

theorem length_readFrame (h : F.readFrame input = some (d,rest)) : rest.length < input.length := by
  obtain ⟨header,payload,rfl,hlen,-,-⟩ := readFrame_eq_some.mp h
  have hpos := F.headerLength_pos
  rw [List.length_append,List.length_append]
  omega

variable (F) in
@[simp] theorem readFrame_nil : F.readFrame [] = none := by
  cases h : F.readFrame [] with
  | none => rfl
  | some r => exact absurd (length_readFrame (d := r.1) h) (Nat.not_lt_zero _)

end Frame

/-- The next frame that is not passed over. -/
def read (input : List UInt8) : Option (α × List UInt8) :=
  match _h : F.readFrame input with
  | none => none
  | some (.item a,rest) => some (a,rest)
  | some (.malformed,_) => none
  | some (.skip,rest) => read rest
termination_by input.length
decreasing_by exact length_readFrame _h

section Read
variable {F} {input rest : List UInt8} {a : α}

theorem read_of_none (h : F.readFrame input = none) : F.read input = none := by
  rw [read]
  split <;> simp_all

theorem read_of_item (h : F.readFrame input = some (.item a,rest)) : F.read input = some (a,rest) := by
  rw [read]
  split <;> simp_all

theorem read_of_malformed (h : F.readFrame input = some (.malformed,rest)) : F.read input = none := by
  rw [read]
  split <;> simp_all

theorem read_of_skip (h : F.readFrame input = some (.skip,rest)) : F.read input = F.read rest := by
  conv_lhs => rw [read]
  split <;> simp_all

theorem length_read (h : F.read input = some (a,rest)) : rest.length < input.length := by
  induction hn : input.length using Nat.strongRecOn generalizing input with
  | ind n ih =>
    subst hn
    cases hframe : F.readFrame input with
    | none =>
      rw [read_of_none hframe] at h
      cases h
    | some r =>
      obtain ⟨d,rest'⟩ := r
      have hlt := length_readFrame hframe
      cases d with
      | item b =>
        rw [read_of_item hframe] at h
        obtain ⟨-,rfl⟩ := Prod.mk.inj (Option.some.inj h)
        exact hlt
      | malformed =>
        rw [read_of_malformed hframe] at h
        cases h
      | skip =>
        rw [read_of_skip hframe] at h
        exact Nat.lt_trans (ih rest'.length hlt h rfl) hlt

end Read

/-- All frames up to the end of the input, or up to what is no frame. -/
def readAll (input : List UInt8) : List α :=
  match _h : F.read input with
  | none => []
  | some (a,rest) => a :: readAll rest
termination_by input.length
decreasing_by exact length_read _h

/-- Reading again and again gives these frames, and this is left over. -/
inductive Reads : List UInt8 → List α → List UInt8 → Prop
  | nil (input : List UInt8) : Reads input [] input
  | cons {input rest final : List UInt8} {a : α} {as : List α} :
      F.read input = some (a,rest) → Reads rest as final → Reads input (a :: as) final

/-- The same, with the frames that are passed over. -/
inductive Scans : List UInt8 → List α → List UInt8 → Prop
  | nil (input : List UInt8) : Scans input [] input
  | item {input rest final : List UInt8} {a : α} {as : List α} :
      F.readFrame input = some (.item a,rest) → Scans rest as final → Scans input (a :: as) final
  | skip {input rest final : List UInt8} {as : List α} :
      F.readFrame input = some (.skip,rest) → Scans rest as final → Scans input as final

section Runs
variable {F} {input rest final : List UInt8} {a : α} {as : List α}

theorem readAll_of_read (h : F.read input = some (a,rest)) : F.readAll input = a :: F.readAll rest := by
  rw [readAll]
  split <;> simp_all

theorem readAll_of_none (h : F.read input = none) : F.readAll input = [] := by
  rw [readAll]
  split <;> simp_all

theorem readAll_of_skip (h : F.readFrame input = some (.skip,rest)) : F.readAll input = F.readAll rest := by
  have hread := read_of_skip h
  cases hrest : F.read rest with
  | none => rw [readAll_of_none (hread.trans hrest),readAll_of_none hrest]
  | some r => rw [readAll_of_read (hread.trans hrest),readAll_of_read hrest]

theorem Scans.append (h : F.Scans input as final) (more : List UInt8) :
    F.Scans (input ++ more) as (final ++ more) := by
  induction h with
  | nil input => exact .nil _
  | item hframe _ ih => exact .item (readFrame_append hframe more) ih
  | skip hframe _ ih => exact .skip (readFrame_append hframe more) ih

theorem Scans.concat_item (h : F.Scans input as final) (hframe : F.readFrame final = some (.item a,rest)) :
    F.Scans input (as ++ [a]) rest := by
  induction h with
  | nil input => exact .item hframe (.nil rest)
  | item hfirst _ ih => exact .item hfirst (ih hframe)
  | skip hfirst _ ih => exact .skip hfirst (ih hframe)

theorem Scans.concat_skip (h : F.Scans input as final) (hframe : F.readFrame final = some (.skip,rest)) :
    F.Scans input as rest := by
  induction h with
  | nil input => exact .skip hframe (.nil rest)
  | item hfirst _ ih => exact .item hfirst (ih hframe)
  | skip hfirst _ ih => exact .skip hfirst (ih hframe)

/-- Scanned frames are the first ones of all frames. -/
theorem Scans.readAll (h : F.Scans input as final) : F.readAll input = as ++ F.readAll final := by
  induction h with
  | nil input => rfl
  | item hframe _ ih => rw [readAll_of_read (read_of_item hframe),ih,List.cons_append]
  | skip hframe _ ih => rw [readAll_of_skip hframe,ih]

end Runs

/-! ## A read in progress -/

inductive Progress (α : Type)
  | pending (consumed : List UInt8)
  | finished (d : Decoded α)

/-- A read that has consumed some bytes of a frame takes one more. -/
def push (consumed : List UInt8) (b : UInt8) : Progress α :=
  match F.readFrame (consumed ++ [b]) with
  | none => .pending (consumed ++ [b])
  | some (d,_) => .finished d

section Push
variable {F} {consumed consumed' : List UInt8} {b : UInt8} {d : Decoded α}

theorem push_pending (h : F.push consumed b = .pending consumed') :
    consumed' = consumed ++ [b] ∧ F.readFrame consumed' = none := by
  unfold push at h
  split at h
  · next hnone =>
    cases h
    exact ⟨rfl,hnone⟩
  · cases h

/-- A read finishes with the last byte of its frame. -/
theorem push_finished (hopen : F.readFrame consumed = none) (h : F.push consumed b = .finished d) :
    F.readFrame (consumed ++ [b]) = some (d,[]) := by
  unfold push at h
  split at h
  · cases h
  · next d' rest hframe =>
    cases h
    rcases List.eq_nil_or_concat rest with rfl | ⟨rest',c,rfl⟩
    · exact hframe
    · obtain ⟨header,payload,heq,hlen,hlen',rfl⟩ := readFrame_eq_some.mp hframe
      have hbytes : consumed ++ [b] = (header ++ (payload ++ rest')) ++ [c] := by
        rw [heq,List.concat_eq_append,List.append_assoc,List.append_assoc]
      have hshort : F.readFrame consumed = some (F.decode header payload,rest') :=
        readFrame_eq_some.mpr ⟨header,payload,(List.append_inj_left' hbytes rfl),hlen,hlen',rfl⟩
      rw [hopen] at hshort
      cases hshort

end Push
end Format
end KubeAir.Wire
