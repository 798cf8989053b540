import Mathlib.Data.Finset.Lattice.Basic
import Mathlib.Data.Finset.Max
import Mathlib.Data.Finset.SDiff
import Mathlib.Logic.Function.Basic

/-! # Partitions of a finite pool

A pool is shared out between holders. `Exclusive` says that no element has two holders,
`Partition` that besides every element of the pool is either free or held. Taking free
elements and giving back what one holder has keep both.
-/
namespace KubeAir.Accounting

section Firsts
variable {α : Type*} [LinearOrder α]

/-- The `n` least elements of a set, or all of them if there are fewer. -/
def firsts : ℕ → Finset α → Finset α
  | 0, _ => ∅
  | n + 1, s => if h : s.Nonempty then insert (s.min' h) (firsts n (s.erase (s.min' h))) else ∅

theorem firsts_subset (n : ℕ) (s : Finset α) : firsts n s ⊆ s := by
  induction n generalizing s with
  | zero => exact Finset.empty_subset s
  | succ n ih =>
    unfold firsts
    split
    · next h => exact Finset.insert_subset (s.min'_mem h) ((ih _).trans (s.erase_subset _))
    · exact Finset.empty_subset s

theorem card_firsts {n : ℕ} {s : Finset α} (h : n ≤ s.card) : (firsts n s).card = n := by
  induction n generalizing s with
  | zero => rfl
  | succ n ih =>
    have hne : s.Nonempty := Finset.card_pos.mp (by omega)
    have hcard := s.card_erase_of_mem (s.min'_mem hne)
    have hnot : s.min' hne ∉ firsts n (s.erase (s.min' hne)) :=
      fun hmem => Finset.notMem_erase _ s (firsts_subset _ _ hmem)
    unfold firsts
    rw [dif_pos hne,Finset.card_insert_of_notMem hnot,ih (by omega)]

end Firsts

variable {κ α : Type*} [DecidableEq κ] [DecidableEq α]
variable {whole free : Finset α} {held : κ → Finset α} {k : κ}

/-- No element has two holders. -/
def Exclusive (held : κ → Finset α) : Prop := ∀ k l, k ≠ l → Disjoint (held k) (held l)

/-- Every element of the pool is free or has one holder. -/
structure Partition (whole free : Finset α) (held : κ → Finset α) : Prop where
  exclusive : Exclusive held
  apart : ∀ k, Disjoint (held k) free
  cover : ∀ a, a ∈ whole ↔ a ∈ free ∨ ∃ k, a ∈ held k

omit [DecidableEq α] [DecidableEq κ] in
theorem exclusive_empty : Exclusive (fun _ : κ => (∅ : Finset α)) :=
  fun _ _ _ => Finset.disjoint_empty_left _

omit [DecidableEq α] in
/-- A holder may get what nobody else has. -/
theorem Exclusive.update (h : Exclusive held) {s : Finset α} (hs : ∀ l, l ≠ k → Disjoint s (held l)) :
    Exclusive (Function.update held k s) := by
  intro l m hlm
  by_cases hl : l = k
  · subst hl
    rw [Function.update_self,Function.update_of_ne (Ne.symm hlm)]
    exact hs m (Ne.symm hlm)
  · rw [Function.update_of_ne hl]
    by_cases hm : m = k
    · subst hm
      rw [Function.update_self]
      exact (hs l hl).symm
    · rw [Function.update_of_ne hm]
      exact h l m hlm

omit [DecidableEq α] [DecidableEq κ] in
theorem Partition.initial : Partition whole whole (fun _ : κ => (∅ : Finset α)) := by
  refine ⟨exclusive_empty,fun _ => Finset.disjoint_empty_left _,?_⟩
  intro a
  constructor
  · exact .inl
  · rintro (h | ⟨k,h⟩)
    · exact h
    · exact absurd h (Finset.notMem_empty a)

omit [DecidableEq α] [DecidableEq κ] in
theorem Partition.held_subset (h : Partition whole free held) (k : κ) : held k ⊆ whole :=
  fun a ha => (h.cover a).mpr (.inr ⟨k,ha⟩)

/-- A holder that has nothing takes free elements. -/
theorem Partition.take (h : Partition whole free held) {taken : Finset α} (hsub : taken ⊆ free)
    (hk : held k = ∅) : Partition whole (free \ taken) (Function.update held k taken) := by
  constructor
  · exact h.exclusive.update fun l _ => (Finset.disjoint_of_subset_right hsub (h.apart l)).symm
  · intro l
    by_cases hl : l = k
    · subst hl
      rw [Function.update_self]
      exact Finset.disjoint_sdiff
    · rw [Function.update_of_ne hl]
      exact Finset.disjoint_of_subset_right Finset.sdiff_subset (h.apart l)
  · intro a
    rw [h.cover a,Finset.mem_sdiff]
    constructor
    · rintro (ha | ⟨l,ha⟩)
      · by_cases hat : a ∈ taken
        · exact .inr ⟨k,by rwa [Function.update_self]⟩
        · exact .inl ⟨ha,hat⟩
      · have hl : l ≠ k := by
          rintro rfl
          rw [hk] at ha
          exact Finset.notMem_empty a ha
        exact .inr ⟨l,by rwa [Function.update_of_ne hl]⟩
    · rintro (⟨ha,-⟩ | ⟨l,ha⟩)
      · exact .inl ha
      · by_cases hl : l = k
        · subst hl
          rw [Function.update_self] at ha
          exact .inl (hsub ha)
        · rw [Function.update_of_ne hl] at ha
          exact .inr ⟨l,ha⟩

/-- A holder gives back what it has. -/
theorem Partition.give (h : Partition whole free held) :
    Partition whole (free ∪ held k) (Function.update held k ∅) := by
  constructor
  · exact h.exclusive.update fun l _ => Finset.disjoint_empty_left _
  · intro l
    by_cases hl : l = k
    · subst hl
      rw [Function.update_self]
      exact Finset.disjoint_empty_left _
    · rw [Function.update_of_ne hl,Finset.disjoint_union_right]
      exact ⟨h.apart l,h.exclusive l k hl⟩
  · intro a
    rw [h.cover a,Finset.mem_union]
    constructor
    · rintro (ha | ⟨l,ha⟩)
      · exact .inl (.inl ha)
      · by_cases hl : l = k
        · subst hl
          exact .inl (.inr ha)
        · exact .inr ⟨l,by rwa [Function.update_of_ne hl]⟩
    · rintro ((ha | ha) | ⟨l,ha⟩)
      · exact .inl ha
      · exact .inr ⟨k,ha⟩
      · by_cases hl : l = k
        · subst hl
          rw [Function.update_self] at ha
          exact absurd ha (Finset.notMem_empty a)
        · rw [Function.update_of_ne hl] at ha
          exact .inr ⟨l,ha⟩

end KubeAir.Accounting
