import Mathlib.Data.List.Basic
import Mathlib.Data.List.Range

/-! # Ranges of consecutive numbers

An increasing list of numbers as ranges with a gap between any two: there is one way to write it
so, and collapsing the list finds it.
-/
namespace KubeAir.Wire.Ranges

/-- The numbers of a range, both ends included. -/
def between (r : ℕ × ℕ) : List ℕ := List.range' r.1 (r.2 + 1 - r.1)

def expand (ranges : List (ℕ × ℕ)) : List ℕ := ranges.flatMap between

/-- The ranges of the numbers that follow, of which the first has begun already. -/
def collapse (start stop : ℕ) : List ℕ → List (ℕ × ℕ)
  | [] => [(start,stop)]
  | n :: rest => if n = stop + 1 then collapse start n rest else (start,stop) :: collapse n n rest

/-- Ranges in order, none of which is empty or could be joined with the next. -/
structure Separated (ranges : List (ℕ × ℕ)) : Prop where
  nonempty : ∀ r ∈ ranges, r.1 ≤ r.2
  apart : ranges.Pairwise (fun r r' => r.2 + 1 < r'.1)

variable {start stop n : ℕ} {l : List ℕ} {ranges ranges' : List (ℕ × ℕ)} {r : ℕ × ℕ}

theorem mem_between : n ∈ between r ↔ r.1 ≤ n ∧ n ≤ r.2 := by
  unfold between
  rw [List.mem_range'_1]
  omega

theorem between_single (n : ℕ) : between (n,n) = [n] := by
  simp [between]

theorem mem_expand : n ∈ expand ranges ↔ ∃ r ∈ ranges, r.1 ≤ n ∧ n ≤ r.2 := by
  simp [expand,mem_between]

theorem between_concat (h : start ≤ stop) : between (start,stop) ++ [stop + 1] = between (start,stop + 1) := by
  have hcount : stop + 1 + 1 - start = (stop + 1 - start) + 1 := by omega
  have hlast : start + 1 * (stop + 1 - start) = stop + 1 := by omega
  unfold between
  dsimp only
  rw [hcount,List.range'_concat,hlast]

theorem expand_collapse (h : start ≤ stop) : expand (collapse start stop l) = between (start,stop) ++ l := by
  induction l generalizing start stop with
  | nil => simp [collapse,expand]
  | cons n rest ih =>
    unfold collapse
    split
    · next heq =>
      subst heq
      rw [ih (Nat.le_succ_of_le h),← between_concat h,List.append_assoc]
      rfl
    · have hrest := ih (le_refl n)
      rw [between_single] at hrest
      show between (start,stop) ++ expand (collapse n n rest) = _
      rw [hrest]
      rfl

theorem le_of_mem_collapse (hl : (stop :: l).Pairwise (· < ·)) (h : start ≤ stop) (hr : r ∈ collapse start stop l) :
    start ≤ r.1 := by
  induction l generalizing start stop with
  | nil =>
    rw [List.mem_singleton.mp hr]
  | cons n rest ih =>
    obtain ⟨hfirst,hrest⟩ := List.pairwise_cons.mp hl
    have hn : stop < n := hfirst n List.mem_cons_self
    unfold collapse at hr
    split at hr
    · exact ih hrest (by omega) hr
    · rcases List.mem_cons.mp hr with rfl | hr
      · exact le_rfl
      · have hle := ih hrest (le_refl n) hr
        omega

/-- Collapsing leaves a gap between any two ranges. -/
theorem separated_collapse (hl : (stop :: l).Pairwise (· < ·)) (h : start ≤ stop) : Separated (collapse start stop l) := by
  induction l generalizing start stop with
  | nil => exact ⟨by simpa [collapse] using h,List.pairwise_singleton _ _⟩
  | cons n rest ih =>
    obtain ⟨hfirst,hrest⟩ := List.pairwise_cons.mp hl
    have hn : stop < n := hfirst n List.mem_cons_self
    unfold collapse
    split
    · exact ih hrest (by omega)
    · next hgap =>
      obtain ⟨hnonempty,hapart⟩ := ih hrest (le_refl n)
      refine ⟨List.forall_mem_cons.mpr ⟨h,hnonempty⟩,List.pairwise_cons.mpr ⟨?_,hapart⟩⟩
      intro r hr
      have hle := le_of_mem_collapse hrest (le_refl n) hr
      show stop + 1 < r.1
      omega

theorem Separated.tail (h : Separated (r :: ranges)) : Separated ranges :=
  ⟨fun r' hr' => h.nonempty r' (List.mem_cons_of_mem _ hr'),h.apart.of_cons⟩

/-- The first range ends where the first number is missing. -/
theorem Separated.le_of_expand {r' : ℕ × ℕ} (h : Separated (r :: ranges))
    (hstart : r.1 = r'.1) (heq : expand (r :: ranges) = expand (r' :: ranges')) : r'.2 ≤ r.2 := by
  by_contra hlonger
  have hnonempty := h.nonempty r List.mem_cons_self
  have hnext : r.2 + 1 ∈ expand (r' :: ranges') := mem_expand.mpr ⟨r',List.mem_cons_self,by omega,by omega⟩
  rw [← heq] at hnext
  obtain ⟨s,hs,hlow,hhigh⟩ := mem_expand.mp hnext
  rcases List.mem_cons.mp hs with rfl | hs
  · omega
  · have hgap := (List.pairwise_cons.mp h.apart).1 s hs
    omega

theorem head_expand (h : Separated (r :: ranges)) : (expand (r :: ranges)).head? = some r.1 := by
  have hnonempty := h.nonempty r List.mem_cons_self
  have hcount : r.2 + 1 - r.1 = (r.2 - r.1) + 1 := by omega
  show (between r ++ expand ranges).head? = some r.1
  unfold between
  rw [hcount,List.range'_succ]
  rfl

/-- Numbers are those of one list of separated ranges at most. -/
theorem Separated.unique (h : Separated ranges) (h' : Separated ranges') (heq : expand ranges = expand ranges') :
    ranges = ranges' := by
  induction ranges generalizing ranges' with
  | nil =>
    cases ranges' with
    | nil => rfl
    | cons r' ranges' =>
      have hhead := head_expand h'
      rw [← heq] at hhead
      cases hhead
  | cons r ranges ih =>
    cases ranges' with
    | nil =>
      have hhead := head_expand h
      rw [heq] at hhead
      cases hhead
    | cons r' ranges' =>
      have hstart : r.1 = r'.1 := by
        have hhead := head_expand h
        rw [heq,head_expand h'] at hhead
        exact (Option.some.inj hhead).symm
      have hstop : r.2 = r'.2 :=
        Nat.le_antisymm (h'.le_of_expand hstart.symm heq.symm) (h.le_of_expand hstart heq)
      have hr : r = r' := Prod.ext hstart hstop
      subst hr
      rw [ih h.tail h'.tail (List.append_cancel_left heq)]

end KubeAir.Wire.Ranges
