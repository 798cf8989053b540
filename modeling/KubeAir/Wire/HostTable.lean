import KubeAir.Wire.Lines
import Mathlib.Data.List.TakeWhile

/-! # Tables of hosts

A line of the table has an address and the names that it goes by, with blanks between them. A `#` begins
a comment, and a line without a name says nothing. Of two entries with a name the first one counts.
-/
namespace KubeAir.Wire

structure HostEntry where
  address : String
  names : List String
deriving DecidableEq, Repr

namespace HostEntry

def blank (c : Char) : Bool := [' ','\t','\n','\x0b','\x0c','\r'].contains c

def ofLine (line : List Char) : Option HostEntry :=
  match (words blank (line.takeWhile (· ≠ '#'))).map String.ofList with
  | address :: name :: names => some ⟨address,name :: names⟩
  | _ => none

/-- The entries of a table. -/
def table (text : List Char) : List HostEntry := (text.splitOn '\n').filterMap ofLine

/-- An entry as a line, with tabs between the words. -/
def line (e : HostEntry) : List Char := ['\t'].intercalate ((e.address :: e.names).map String.toList)

/-- The address that a name stands for. -/
def lookup (entries : List HostEntry) (name : String) : Option String := (entries.find? (name ∈ ·.names)).map HostEntry.address

/-- One word of a line. -/
def Word (s : String) : Prop := s ≠ "" ∧ ∀ c ∈ s.toList, blank c = false ∧ c ≠ '#'

structure WellFormed (e : HostEntry) : Prop where
  named : e.names ≠ []
  words : ∀ s ∈ e.address :: e.names, Word s

theorem lookup_append (entries entries' : List HostEntry) (name : String) :
    lookup (entries ++ entries') name = (lookup entries name).or (lookup entries' name) := by
  unfold lookup
  rw [List.find?_append]
  cases entries.find? (name ∈ ·.names) with
  | none => rfl
  | some e => rfl

/-! ## Text that is put together -/

section Text

/-- What follows a whole line is read on its own. -/
theorem table_line (s t : List Char) : table (s ++ '\n' :: t) = table s ++ table t := by
  unfold table
  rw [List.splitOn_append_cons_self,List.filterMap_append]

theorem table_lines (lines : List (List Char)) : table (lines.flatMap fun s => s ++ ['\n']) = lines.flatMap table := by
  induction lines with
  | nil => rfl
  | cons s lines ih => rw [List.flatMap_cons,List.append_assoc,List.singleton_append,table_line,ih,List.flatMap_cons]

end Text

/-! ## Lines of words -/

section Lines
variable {e : HostEntry} {text : List Char}

theorem mem_intercalate {α : Type*} {sep a : α} {ws : List (List α)} (h : a ∈ [sep].intercalate ws) : a = sep ∨ ∃ w ∈ ws, a ∈ w := by
  induction ws with
  | nil => cases h
  | cons w ws ih =>
    cases ws with
    | nil =>
      rw [List.intercalate_singleton] at h
      exact .inr ⟨w,List.mem_cons_self,h⟩
    | cons w' ws =>
      rw [List.intercalate_cons_cons,List.append_assoc,List.mem_append,List.singleton_append,List.mem_cons] at h
      rcases h with hw | hsep | hrest
      · exact .inr ⟨w,List.mem_cons_self,hw⟩
      · exact .inl hsep
      · rcases ih hrest with hsep | ⟨v,hv,hav⟩
        · exact .inl hsep
        · exact .inr ⟨v,List.mem_cons_of_mem _ hv,hav⟩

/-- Whatever the text is, its entries are made of words. -/
theorem wellFormed_of_mem_table (h : e ∈ table text) : e.WellFormed := by
  obtain ⟨s,-,hs⟩ := List.mem_filterMap.mp h
  have hword : ∀ w ∈ (words blank (s.takeWhile (· ≠ '#'))).map String.ofList, Word w := by
    intro w hw
    obtain ⟨cs,hcs,rfl⟩ := List.mem_map.mp hw
    obtain ⟨hne,hblank⟩ := mem_words hcs
    refine ⟨by simpa using hne,fun c hc => ?_⟩
    rw [String.toList_ofList] at hc
    refine ⟨hblank c hc,?_⟩
    have hmem : c ∈ s.takeWhile (· ≠ '#') := mem_of_mem_words hcs hc
    simpa using List.mem_takeWhile_imp hmem
  unfold ofLine at hs
  split at hs
  · next address name names heq =>
    obtain rfl := Option.some.inj hs
    rw [heq] at hword
    exact ⟨List.cons_ne_nil _ _,hword⟩
  · cases hs

theorem char_of_mem_line (h : e.WellFormed) {c : Char} (hc : c ∈ e.line) : c ≠ '\n' ∧ c ≠ '#' := by
  rcases mem_intercalate hc with rfl | ⟨w,hw,hcw⟩
  · decide
  · obtain ⟨s,hs,rfl⟩ := List.mem_map.mp hw
    obtain ⟨hblank,hcomment⟩ := (h.words s hs).2 c hcw
    refine ⟨?_,hcomment⟩
    rintro rfl
    exact absurd hblank (by decide)

theorem ofLine_line (h : e.WellFormed) : ofLine e.line = some e := by
  have htake : e.line.takeWhile (· ≠ '#') = e.line :=
    List.takeWhile_eq_self_iff.mpr fun c hc => decide_eq_true (char_of_mem_line h hc).2
  have hwords : words blank e.line = (e.address :: e.names).map String.toList := by
    refine words_intercalate (by decide) fun w hw => ?_
    obtain ⟨s,hs,rfl⟩ := List.mem_map.mp hw
    obtain ⟨hne,hchars⟩ := h.words s hs
    exact ⟨by simpa using hne,fun c hc => (hchars c hc).1⟩
  obtain ⟨address,names⟩ := e
  cases names with
  | nil => exact absurd rfl h.named
  | cons name names =>
    unfold ofLine
    rw [htake,hwords]
    simp [Function.comp_def]

theorem table_of_line (h : e.WellFormed) : table e.line = [e] := by
  have hnewline : '\n' ∉ e.line := fun hmem => (char_of_mem_line h hmem).1 rfl
  rw [table,List.splitOn_eq_singleton hnewline,List.filterMap_cons_some (ofLine_line h),List.filterMap_nil]

/-- Entries are read back from their lines just when they are made of words. -/
theorem read_back_iff (es : List HostEntry) : es.flatMap (fun e => table e.line) = es ↔ ∀ e ∈ es, e.WellFormed := by
  constructor
  · intro heq e he
    rw [← heq] at he
    obtain ⟨e',-,hmem⟩ := List.mem_flatMap.mp he
    exact wellFormed_of_mem_table hmem
  · intro h
    induction es with
    | nil => rfl
    | cons e es ih =>
      obtain ⟨he,hes⟩ := List.forall_mem_cons.mp h
      rw [List.flatMap_cons,table_of_line he,ih hes,List.singleton_append]

end Lines
end HostEntry
end KubeAir.Wire
