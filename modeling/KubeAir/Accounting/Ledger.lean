import Mathlib.Algebra.BigOperators.Group.List.Basic
import Mathlib.Data.List.AList

/-! # Totals over a finite map

The sum of an amount over the entries of a map. A new entry adds its amount, and the entry
that is erased takes its amount with it.
-/
namespace KubeAir.Accounting
variable {κ β M : Type*} [AddCommMonoid M]

/-- The sum of an amount over the entries of a map. -/
def total (f : κ → β → M) (m : AList (fun _ : κ => β)) : M := (m.entries.map (fun e => f e.1 e.2)).sum

variable [DecidableEq κ] {f : κ → β → M} {m : AList (fun _ : κ => β)} {k : κ} {v : β}

omit [DecidableEq κ] in
@[simp] theorem total_empty : total f (∅ : AList (fun _ : κ => β)) = 0 := rfl

omit [DecidableEq κ] in
@[simp] theorem total_one : total (fun _ _ => 1) m = m.entries.length := by
  unfold total
  induction m.entries with
  | nil => rfl
  | cons e es ih =>
    rw [List.map_cons,List.sum_cons,ih,List.length_cons,Nat.add_comm]

theorem total_insert (h : m.lookup k = none) : total f (m.insert k v) = f k v + total f m := by
  have hnot : k ∉ m := AList.lookup_eq_none.mp h
  unfold total
  rw [AList.insert_of_notMem hnot,List.map_cons,List.sum_cons]

/-- An insertion replaces what was there. -/
theorem total_insert_erase (k : κ) (v : β) : total f (m.insert k v) = f k v + total f (m.erase k) := by
  unfold total
  rw [AList.entries_insert,List.map_cons,List.sum_cons]
  rfl

theorem total_erase (h : m.lookup k = some v) : f k v + total f (m.erase k) = total f m := by
  have hmem : k ∈ m.entries.keys := by
    have hsome : (m.lookup k).isSome = true := by rw [h]; rfl
    exact AList.lookup_isSome.mp hsome
  obtain ⟨v',l₁,l₂,hnot,heq,herase⟩ := List.exists_of_kerase hmem
  have hv : v' = v := by
    have hlookup : m.lookup k = some v' := by
      refine AList.mem_lookup_iff.mpr ?_
      rw [heq]
      exact List.mem_append_right _ List.mem_cons_self
    rw [h] at hlookup
    exact (Option.some.inj hlookup).symm
  subst hv
  have hentries : (m.erase k).entries = l₁ ++ l₂ := herase
  unfold total
  rw [hentries,heq,List.map_append,List.sum_append,List.map_append,List.sum_append,
    List.map_cons,List.sum_cons,add_left_comm]

end KubeAir.Accounting
