import KubeAir.Streaming.HeaderBlock

/-! # Blocks one after the other

The parser as it is called, with the offset lent to it: a cursor that moves with every read,
an offset that is set once the block has been read, and a caller that reads on from there.
-/
namespace KubeAir.Streaming.HeaderBlock
open Core Wire

/-- The caller's offset, and how far the cursor into the slice is. -/
structure Locals where
  offset : ℕ
  position : ℕ

/-- `?` ends the call and leaves everything as it is then. -/
def Parser (α : Type) : Type := Locals → Option α × Locals

instance : Monad Parser where
  pure a s := (some a,s)
  bind p f s :=
    match p s with
    | (some a,s') => f a s'
    | (none,s') => (none,s')

namespace Parser

/-- `ok()?`. -/
def ofOption {α : Type} (a : Option α) : Parser α := fun s => (a,s)

/-- A cursor that is asked for more than there is stands at the end. -/
def readExact (slice : List UInt8) (n : ℕ) : Parser (List UInt8) := fun s =>
  match Wire.readExact n (slice.drop s.position) with
  | some (bytes,_) => (some bytes,{ s with position := s.position + n })
  | none => (none,{ s with position := slice.length })

def readWord (slice : List UInt8) : Parser ℕ := do
  let nbuf ← readExact slice 4
  return (beWordAt nbuf 0).toNat

def readPair (slice : List UInt8) : Parser (String × String) := do
  let nameLen ← readWord slice
  let nameBytes ← readExact slice nameLen
  let valueLen ← readWord slice
  let valueBytes ← readExact slice valueLen
  let name ← ofOption (fromUtf8 nameBytes)
  let value ← ofOption (fromUtf8 valueBytes)
  return (name.toLower,firstValue value)

def readPairs (slice : List UInt8) : ℕ → HashMap String String → Parser (HashMap String String)
  | 0, out => return out
  | n + 1, out => do
    let pair ← readPair slice
    readPairs slice n (out.insert pair.1 pair.2)

/-- `*offset = start + cursor.position() as usize`. -/
def setOffset (start : ℕ) : Parser Unit := fun s => (some (),{ s with offset := start + s.position })

def readBlock (slice : List UInt8) (start : ℕ) : Parser (HashMap String String) := do
  let pairs ← readWord slice
  let out ← readPairs slice pairs ∅
  setOffset start
  return out

end Parser

/-- `parse_nv_block_offset` with what it leaves in `offset`. -/
def parseNvBlock (plain : List UInt8) (offset : ℕ) : Option (HashMap String String) × ℕ :=
  if plain.length ≤ offset then (none,offset)
  else
    let r := Parser.readBlock (plain.drop offset) offset ⟨offset,0⟩
    (r.1,r.2.offset)

/-- A caller that reads on as long as there is a block, `fuel` times at most. -/
def parseBlocks (plain : List UInt8) : ℕ → ℕ → List (HashMap String String) × ℕ
  | 0, offset => ([],offset)
  | fuel + 1, offset =>
    match parseNvBlock plain offset with
    | (some out,offset') => ((out :: (parseBlocks plain fuel offset').1),(parseBlocks plain fuel offset').2)
    | (none,offset') => ([],offset')

/-! ## The cursor and the text that is left -/

/-- A step of the parser does with the cursor what the function does with the text behind it,
and leaves the offset. -/
def Follows {α : Type} (slice : List UInt8) (p : Parser α) (f : List UInt8 → Option (α × List UInt8)) : Prop :=
  ∀ s : Locals, s.position ≤ slice.length →
    match f (slice.drop s.position) with
    | some (a,rest) => ∃ n ≤ slice.length, rest = slice.drop n ∧ p s = (some a,{ s with position := n })
    | none => ∃ n, p s = (none,{ s with position := n })

section Follows
variable {α β : Type} {slice : List UInt8} {p : Parser α} {f : List UInt8 → Option (α × List UInt8)} {s : Locals}

theorem Follows.of_some (h : Follows slice p f) (hs : s.position ≤ slice.length) {a : α} {rest : List UInt8}
    (hf : f (slice.drop s.position) = some (a,rest)) :
    ∃ n ≤ slice.length, rest = slice.drop n ∧ p s = (some a,{ s with position := n }) := by
  have hstep := h s hs
  rw [hf] at hstep
  exact hstep

theorem Follows.of_none (h : Follows slice p f) (hs : s.position ≤ slice.length) (hf : f (slice.drop s.position) = none) :
    ∃ n, p s = (none,{ s with position := n }) := by
  have hstep := h s hs
  rw [hf] at hstep
  exact hstep

theorem bind_of_some {g : α → Parser β} {a : α} {s' : Locals} (h : p s = (some a,s')) : (p >>= g) s = g a s' := by
  show (match p s with
    | (some a,s') => g a s'
    | (none,s') => (none,s')) = _
  rw [h]

theorem bind_of_none {g : α → Parser β} {s' : Locals} (h : p s = (none,s')) : (p >>= g) s = (none,s') := by
  show (match p s with
    | (some a,s') => g a s'
    | (none,s') => (none,s')) = _
  rw [h]

theorem follows_pure (a : α) : Follows slice (pure a) (fun bytes => some (a,bytes)) := by
  intro s hs
  exact ⟨s.position,hs,rfl,rfl⟩

/-- One step and then, from what it leaves, the next. -/
theorem Follows.bind (h : Follows slice p f) {q : α → Parser β} {g : α → List UInt8 → Option (β × List UInt8)}
    (hq : ∀ a, Follows slice (q a) (g a)) : Follows slice (p >>= q) (fun bytes => (f bytes).bind fun r => g r.1 r.2) := by
  intro s hs
  dsimp only
  cases hf : f (slice.drop s.position) with
  | none =>
    obtain ⟨n,hp⟩ := h.of_none hs hf
    exact ⟨n,bind_of_none hp⟩
  | some r =>
    obtain ⟨n,hn,hrest,hp⟩ := h.of_some hs hf
    have hnext := hq r.1 { s with position := n } hn
    rw [Option.bind_some,bind_of_some hp,hrest]
    exact hnext

theorem Follows.congr (h : Follows slice p f) {g : List UInt8 → Option (α × List UInt8)} (hfg : ∀ bytes, f bytes = g bytes) :
    Follows slice p g := by
  rw [← funext hfg]
  exact h

theorem follows_ofOption (a : Option α) : Follows slice (Parser.ofOption a) (fun bytes => a.map fun x => (x,bytes)) := by
  intro s hs
  cases a with
  | none => exact ⟨s.position,rfl⟩
  | some a => exact ⟨s.position,hs,rfl,rfl⟩

theorem follows_readExact (n : ℕ) : Follows slice (Parser.readExact slice n) (Wire.readExact n) := by
  intro s hs
  unfold Parser.readExact
  cases hread : Wire.readExact n (slice.drop s.position) with
  | none => exact ⟨slice.length,rfl⟩
  | some r =>
    obtain ⟨hsplit,hlen⟩ := readExact_eq_some.mp hread
    have hle : s.position + n ≤ slice.length := by
      have hlength := congrArg List.length hsplit
      rw [List.length_drop,List.length_append,hlen] at hlength
      omega
    refine ⟨s.position + n,hle,?_,rfl⟩
    rw [← List.drop_drop,hsplit,← hlen,List.drop_left]

theorem follows_readWord (slice : List UInt8) : Follows slice (Parser.readWord slice) readWord := by
  refine ((follows_readExact 4).bind fun nbuf => follows_pure (beWordAt nbuf 0).toNat).congr ?_
  intro bytes
  exact (Option.map_eq_bind).symm

theorem follows_readPair : Follows slice (Parser.readPair slice) readPair := by
  refine ((follows_readWord slice).bind fun nameLen => (follows_readExact nameLen).bind fun nameBytes =>
    (follows_readWord slice).bind fun valueLen => (follows_readExact valueLen).bind fun valueBytes =>
      (follows_ofOption (fromUtf8 nameBytes)).bind fun name => (follows_ofOption (fromUtf8 valueBytes)).bind fun value =>
        follows_pure (name.toLower,firstValue value)).congr ?_
  intro bytes
  unfold readPair readBytes
  rw [Option.bind_assoc]
  refine Option.bind_congr ?_
  intro n _
  refine Option.bind_congr ?_
  intro name _
  rw [Option.bind_assoc]
  refine Option.bind_congr ?_
  intro v _
  refine Option.bind_congr ?_
  intro value _
  cases fromUtf8 name.1 with
  | none => rfl
  | some s =>
    cases fromUtf8 value.1 with
    | none => rfl
    | some t => rfl

theorem follows_readPairs (slice : List UInt8) (n : ℕ) (out : HashMap String String) :
    Follows slice (Parser.readPairs slice n out) (fun bytes => readPairs n bytes out) := by
  induction n generalizing out with
  | zero => exact follows_pure out
  | succ n ih => exact follows_readPair.bind fun pair => ih (out.insert pair.1 pair.2)

end Follows

/-- The call does what the function does, and leaves the offset where there is no block. -/
theorem parseNvBlock_eq (plain : List UInt8) (offset : ℕ) : parseNvBlock plain offset =
    match parseNvBlockOffset plain offset with
    | some (out,offset') => (some out,offset')
    | none => (none,offset) := by
  unfold parseNvBlock parseNvBlockOffset
  by_cases hend : plain.length ≤ offset
  · rw [if_pos hend,if_pos hend]
  rw [if_neg hend,if_neg hend]
  dsimp only
  generalize plain.drop offset = slice
  have hstart : (⟨offset,0⟩ : Locals).position ≤ slice.length := Nat.zero_le _
  cases hword : readWord slice with
  | none =>
    obtain ⟨n,hp⟩ := (follows_readWord slice).of_none hstart hword
    unfold Parser.readBlock
    rw [bind_of_none hp]
    rfl
  | some w =>
    obtain ⟨n,hn,hrest,hp⟩ := (follows_readWord slice).of_some hstart hword
    unfold Parser.readBlock
    rw [bind_of_some hp,Option.bind_some]
    have hpairs := follows_readPairs slice w.1 ∅
    rw [hrest]
    cases hread : readPairs w.1 (slice.drop n) ∅ with
    | none =>
      obtain ⟨k,hp⟩ := hpairs.of_none (s := ⟨offset,n⟩) hn hread
      rw [bind_of_none hp]
      rfl
    | some r =>
      obtain ⟨k,hk,hleft,hp⟩ := hpairs.of_some (s := ⟨offset,n⟩) hn hread
      rw [bind_of_some hp,Option.map_some,hleft]
      dsimp only
      rw [List.length_drop,Nat.sub_sub_self hk]
      rfl

/-- A call that gives no block leaves the offset. -/
theorem parseNvBlock_snd_of_none {plain : List UInt8} {offset : ℕ} (h : (parseNvBlock plain offset).1 = none) :
    (parseNvBlock plain offset).2 = offset := by
  rw [parseNvBlock_eq] at h ⊢
  cases hparse : parseNvBlockOffset plain offset with
  | none => rfl
  | some r =>
    rw [hparse] at h
    cases h

/-- At the end of the text there is no block. -/
theorem parseBlocks_end (plain : List UInt8) (fuel : ℕ) : parseBlocks plain fuel plain.length = ([],plain.length) := by
  cases fuel with
  | zero => rfl
  | succ fuel =>
    unfold parseBlocks parseNvBlock
    rw [if_pos le_rfl]

theorem parseBlocks_append {blocks : List (HashMap String String)} (h : ∀ m ∈ blocks, Encodable m ∧ WellFormed m)
    {fuel : ℕ} (hfuel : blocks.length ≤ fuel) (pre : List UInt8) :
    ∃ outs, List.Forall₂ Same outs blocks ∧ parseBlocks (pre ++ blocks.flatMap buildNvBlock) fuel pre.length =
      (outs,(pre ++ blocks.flatMap buildNvBlock).length) := by
  induction blocks generalizing fuel pre with
  | nil =>
    rw [List.flatMap_nil,List.append_nil]
    exact ⟨[],.nil,parseBlocks_end pre fuel⟩
  | cons m blocks ih =>
    obtain ⟨hm,hblocks⟩ := List.forall_mem_cons.mp h
    obtain ⟨fuel,rfl⟩ := Nat.exists_eq_add_of_le' (Nat.le_of_add_left_le hfuel)
    obtain ⟨out,hsame,hparse⟩ := parseNvBlockOffset_buildNvBlock hm.1 hm.2 pre (blocks.flatMap buildNvBlock)
    -- the rest is read behind the block
    obtain ⟨outs,hall,hrest⟩ := ih hblocks (Nat.le_of_succ_le_succ hfuel) (pre ++ buildNvBlock m)
    rw [List.append_assoc] at hrest
    refine ⟨out :: outs,.cons hsame hall,?_⟩
    rw [List.flatMap_cons,parseBlocks,parseNvBlock_eq,hparse]
    dsimp only
    rw [← List.length_append,hrest]

/-- Blocks written one after the other are read in their order, up to the order of the headers
in each and up to the end of the text. A call that finds none does not move. -/
theorem parseBlocks_buildNvBlocks {blocks : List (HashMap String String)} (h : ∀ m ∈ blocks, Encodable m ∧ WellFormed m)
    {fuel : ℕ} (hfuel : blocks.length ≤ fuel) :
    (∃ outs, List.Forall₂ Same outs blocks ∧
      parseBlocks (blocks.flatMap buildNvBlock) fuel 0 = (outs,(blocks.flatMap buildNvBlock).length)) ∧
      ∀ plain offset, (parseNvBlock plain offset).1 = none → (parseNvBlock plain offset).2 = offset :=
  ⟨parseBlocks_append h hfuel [],fun _ _ => parseNvBlock_snd_of_none⟩

/-- The headers of an error stream and a block without headers. -/
theorem parseBlocks_errorStream :
    (∃ outs, List.Forall₂ Same outs [AList.insert "streamtype" "error" ∅,∅] ∧
      parseBlocks ([AList.insert "streamtype" "error" ∅,∅].flatMap buildNvBlock) 3 0 =
        (outs,([AList.insert "streamtype" "error" ∅,∅].flatMap buildNvBlock).length)) ∧
      ∀ plain offset, (parseNvBlock plain offset).1 = none → (parseNvBlock plain offset).2 = offset := by
  refine parseBlocks_buildNvBlocks ?_ (by decide)
  intro m hm
  simp only [List.mem_cons,List.not_mem_nil,or_false] at hm
  unfold Encodable
  rcases hm with rfl | rfl
  · decide
  · decide

end KubeAir.Streaming.HeaderBlock
