import Mathlib.Data.List.Basic
import Mathlib.Data.List.Infix

/-! # Lexical paths

Paths as they are written, without a file system behind them. Joining an absolute path
replaces the base, and a step up undoes the last name that is left, if there is one.
-/
namespace KubeAir.Paths

inductive Part
  | up
  | name (s : String)
deriving DecidableEq, Repr

structure Path where
  absolute : Bool
  parts : List Part
deriving DecidableEq, Repr

namespace Path

/-- What a piece between two slashes says. -/
def partOf (piece : List Char) : Option Part :=
  if piece = [] ∨ piece = ['.'] then none
  else if piece = ['.','.'] then some .up
  else some (.name (String.ofList piece))

def parse (s : String) : Path := ⟨s.toList.head? = some '/',(s.toList.splitOn '/').filterMap partOf⟩

def join (base p : Path) : Path := if p.absolute then p else ⟨base.absolute,base.parts ++ p.parts⟩

def parent (p : Path) : Option Path := if p.parts = [] then none else some ⟨p.absolute,p.parts.dropLast⟩

/-! ## Walking along a path -/

/-- One step: how far above the start a walk got, and the names it is below that. -/
def walk (w : ℕ × List String) : Part → ℕ × List String
  | .name s => (w.1,w.2 ++ [s])
  | .up => if w.2 = [] then (w.1 + 1,[]) else (w.1,w.2.dropLast)

def climb (parts : List Part) : ℕ × List String := parts.foldl walk (0,[])

/-- Where a path leads. Nothing is above the root. -/
def resolve (p : Path) : ℕ × List String := (if p.absolute then 0 else (climb p.parts).1,(climb p.parts).2)

/-- A path leads to something below the base, or to the base. -/
def Inside (base p : Path) : Prop :=
  p.absolute = base.absolute ∧ p.resolve.1 = base.resolve.1 ∧ base.resolve.2 <+: p.resolve.2

/-- A path that is joined to a base comes back below it: an absolute one starts with the
names of the base, a relative one goes down again through the names that it went up by. -/
def Stays (base p : Path) : Prop :=
  if p.absolute then base.absolute = true ∧ base.resolve.2 <+: p.resolve.2
  else base.resolve.2.drop (base.resolve.2.length - (climb p.parts).1) <+: (climb p.parts).2 ∧
    (base.absolute = true ∨ (climb p.parts).1 ≤ base.resolve.2.length)

instance (base p : Path) : Decidable (Inside base p) := inferInstanceAs (Decidable (_ ∧ _))

instance (base p : Path) : Decidable (Stays base p) := by
  unfold Stays
  infer_instance

theorem climb_concat (parts : List Part) (x : Part) : climb (parts ++ [x]) = walk (climb parts) x := by
  unfold climb
  rw [List.foldl_append,List.foldl_cons,List.foldl_nil]

theorem climb_append (l m : List Part) :
    climb (l ++ m) = ((climb l).1 + ((climb m).1 - (climb l).2.length),
      (climb l).2.take ((climb l).2.length - (climb m).1) ++ (climb m).2) := by
  induction m using List.reverseRecOn with
  | nil => simp [climb]
  | append_singleton m x ih =>
    rw [← List.append_assoc,climb_concat,climb_concat,ih]
    cases x with
    | name s => simp only [walk,List.append_assoc]
    | up =>
      by_cases hm : (climb m).2 = []
      · simp only [walk,hm,List.append_nil,if_true]
        by_cases hk : (climb m).1 < (climb l).2.length
        · have hne : (climb l).2.take ((climb l).2.length - (climb m).1) ≠ [] := by
            intro he
            have := congrArg List.length he
            simp only [List.length_take,List.length_nil] at this
            omega
          rw [if_neg hne,List.dropLast_eq_take,List.length_take,List.take_take]
          refine Prod.ext ?_ ?_
          · dsimp only
            omega
          · dsimp only
            congr 1
            omega
        · have he : (climb l).2.length - (climb m).1 = 0 := by omega
          have he' : (climb l).2.length - ((climb m).1 + 1) = 0 := by omega
          rw [he,he',List.take_zero,if_pos rfl]
          refine Prod.ext ?_ rfl
          dsimp only
          omega
      · have hne : (climb l).2.take ((climb l).2.length - (climb m).1) ++ (climb m).2 ≠ [] := by simp [hm]
        simp only [walk,if_neg hm,if_neg hne,List.dropLast_append_of_ne_nil hm]

/-- Without steps up a path leads to its names. -/
theorem climb_names (names : List String) : climb (names.map Part.name) = (0,names) := by
  induction names using List.reverseRecOn with
  | nil => rfl
  | append_singleton names s ih =>
    rw [List.map_append,List.map_singleton,climb_concat,ih]
    rfl

theorem exists_names {parts : List Part} (h : Part.up ∉ parts) : ∃ names : List String, parts = names.map Part.name := by
  induction parts with
  | nil => exact ⟨[],rfl⟩
  | cons x parts ih =>
    obtain ⟨names,rfl⟩ := ih (fun hm => h (List.mem_cons_of_mem x hm))
    cases x with
    | up => exact absurd List.mem_cons_self h
    | name s => exact ⟨s :: names,rfl⟩

theorem climb_of_notMem_up {parts : List Part} (h : Part.up ∉ parts) : (climb parts).1 = 0 := by
  obtain ⟨names,rfl⟩ := exists_names h
  rw [climb_names]

/-! ## Joining -/

variable {base p : Path}

theorem prefix_take_append (D N : List String) (n : ℕ) : D <+: D.take n ++ N ↔ D.drop n <+: N := by
  have h : D.take n ++ D.drop n <+: D.take n ++ N ↔ D.drop n <+: N := List.prefix_append_right_inj (D.take n)
  rwa [List.take_append_drop] at h

theorem resolve_join (h : p.absolute = false) : (base.join p).resolve =
    (if base.absolute then 0 else base.resolve.1 + ((climb p.parts).1 - base.resolve.2.length),
      base.resolve.2.take (base.resolve.2.length - (climb p.parts).1) ++ (climb p.parts).2) := by
  unfold join resolve
  rw [h]
  simp only [Bool.false_eq_true,↓reduceIte,climb_append]
  cases base.absolute with
  | true => rfl
  | false => rfl

/-- Where a joined path leads, told from the text that is joined. -/
theorem inside_join_iff : Inside base (base.join p) ↔ Stays base p := by
  unfold Inside Stays
  cases h : p.absolute with
  | true =>
    have hj : base.join p = p := by simp [join,h]
    rw [hj,h]
    constructor
    · rintro ⟨hb,-,hp⟩
      exact ⟨hb.symm,hp⟩
    · rintro ⟨hb,hp⟩
      refine ⟨hb.symm,?_,hp⟩
      simp [resolve,h,hb]
  | false =>
    have ha : (base.join p).absolute = base.absolute := by simp [join,h]
    rw [resolve_join h,ha,prefix_take_append]
    simp only [Bool.false_eq_true,↓reduceIte,true_and]
    cases hb : base.absolute with
    | true => simp [resolve,hb]
    | false =>
      simp only [Bool.false_eq_true,↓reduceIte,false_or,Nat.add_eq_left,Nat.sub_eq_zero_iff_le]
      exact and_comm

theorem inside_self (base : Path) : Inside base base := ⟨rfl,rfl,List.prefix_rfl⟩

/-- A name below a path is inside of whatever the path is inside of. -/
theorem Inside.below (h : Inside base p) (s : String) : Inside base (p.join ⟨false,[.name s]⟩) := by
  obtain ⟨ha,hr,hp⟩ := h
  have hresolve : (p.join ⟨false,[.name s]⟩).resolve = (p.resolve.1,p.resolve.2 ++ [s]) := by
    rw [resolve_join rfl]
    cases hb : p.absolute with
    | true => simp [climb,walk,resolve,hb]
    | false => simp [climb,walk]
  refine ⟨ha,?_,?_⟩
  · rw [hresolve,hr]
  · rw [hresolve]
    exact hp.trans (List.prefix_append _ _)

theorem stays_of_notMem_up (hp : p.absolute = false) (h : Part.up ∉ p.parts) : Stays base p := by
  unfold Stays
  rw [hp,climb_of_notMem_up h]
  simp

theorem parent_join (hp : p.absolute = false) (hne : p.parts ≠ []) :
    (base.join p).parent = some (base.join ⟨false,p.parts.dropLast⟩) := by
  unfold parent join
  rw [hp]
  simp [hne,List.dropLast_append_of_ne_nil hne]

theorem join_of_absolute (h : p.absolute = true) : base.join p = p := by simp [join,h]

theorem inside_iff_of_absolute (h : p.absolute = true) : Inside base p ↔ Stays base p := by
  have hj := @inside_join_iff base p
  rwa [join_of_absolute h] at hj

/-- A text names something below the base, and so does the directory that it is in: the text
stays there, and so does the text without its last part. An empty text names the base, which
is in a directory outside of the base, unless the base ends in a step up. -/
def Contained (base p : Path) : Prop :=
  Stays base p ∧ (∀ q, p.parent = some q → Stays base q) ∧
    (p.absolute = false → p.parts = [] → ∀ q, base.parent = some q → Inside base q)

theorem contained_iff : Contained base p ↔
    Inside base (base.join p) ∧ ∀ q, (base.join p).parent = some q → Inside base q := by
  unfold Contained
  rw [inside_join_iff]
  refine and_congr_right fun _ => ?_
  cases ha : p.absolute with
  | true =>
    rw [join_of_absolute ha]
    constructor
    · rintro ⟨h,-⟩ q hq
      have hqa : q.absolute = true := by
        unfold parent at hq
        split at hq
        · cases hq
        · cases hq
          exact ha
      exact (inside_iff_of_absolute hqa).mpr (h q hq)
    · intro h
      refine ⟨?_,fun h => nomatch h⟩
      intro q hq
      have hqa : q.absolute = true := by
        unfold parent at hq
        split at hq
        · cases hq
        · cases hq
          exact ha
      exact (inside_iff_of_absolute hqa).mp (h q hq)
  | false =>
    by_cases hp : p.parts = []
    · have hj : base.join p = base := by simp [join,ha,hp]
      have hpar : p.parent = none := by simp [parent,hp]
      rw [hj,hpar]
      simp [hp]
    · have hpar : p.parent = some ⟨false,p.parts.dropLast⟩ := by simp [parent,hp,ha]
      rw [parent_join ha hp,hpar]
      simp only [Option.some.injEq,forall_eq',hp,false_implies,implies_true,and_true,inside_join_iff]

end Path
end KubeAir.Paths
