import Mathlib.Data.List.Induction

/-! # Streaks

How many of the last elements of a history have a property, without a gap.
-/
namespace KubeAir.Transition
variable {α : Type*} {p : α → Bool} {l : List α} {a : α} {n : ℕ}

/-- The last `n` elements have the property. -/
def LastAll (n : ℕ) (p : α → Bool) (l : List α) : Prop :=
  ∃ pre suf, l = pre ++ suf ∧ suf.length = n ∧ ∀ x ∈ suf, p x = true

/-- The length of the longest end of a history whose elements all have the property. -/
def streak (p : α → Bool) (l : List α) : ℕ := (l.reverse.takeWhile p).length

theorem streak_concat : streak p (l ++ [a]) = if p a = true then streak p l + 1 else 0 := by
  unfold streak
  rw [List.reverse_append,List.reverse_singleton,List.singleton_append,List.takeWhile_cons]
  split <;> rfl

theorem streak_le_length : streak p l ≤ l.length := by
  have hlen : l.reverse.length = l.length := List.length_reverse
  exact Nat.le_trans (List.takeWhile_prefix p).length_le (Nat.le_of_eq hlen)

theorem lastAll_zero : LastAll 0 p l := ⟨l,[],(List.append_nil l).symm,rfl,fun _ h => absurd h List.not_mem_nil⟩

theorem lastAll_concat : LastAll (n + 1) p (l ++ [a]) ↔ p a = true ∧ LastAll n p l := by
  constructor
  · rintro ⟨pre,suf,hl,hlen,hsuf⟩
    obtain ⟨b,rest,rfl⟩ : ∃ b rest, suf = rest ++ [b] := by
      rcases List.eq_nil_or_concat suf with rfl | ⟨rest,b,rfl⟩
      · cases hlen
      · exact ⟨b,rest,List.concat_eq_append⟩
    rw [← List.append_assoc] at hl
    obtain ⟨rfl,hb⟩ := List.append_inj' hl rfl
    cases hb
    rw [List.length_append,List.length_singleton] at hlen
    refine ⟨hsuf a (List.mem_append_right rest List.mem_cons_self),pre,rest,rfl,Nat.succ.inj hlen,?_⟩
    exact fun x hx => hsuf x (List.mem_append_left [a] hx)
  · rintro ⟨ha,pre,suf,rfl,rfl,hsuf⟩
    refine ⟨pre,suf ++ [a],List.append_assoc _ _ _,by rw [List.length_append,List.length_singleton],?_⟩
    intro x hx
    rcases List.mem_append.mp hx with hx | hx
    · exact hsuf x hx
    · rw [List.mem_singleton.mp hx]
      exact ha

theorem le_streak_iff : n ≤ streak p l ↔ LastAll n p l := by
  induction l using List.reverseRecOn generalizing n with
  | nil =>
    constructor
    · intro h
      obtain rfl := Nat.le_zero.mp h
      exact lastAll_zero
    · rintro ⟨pre,suf,hl,rfl,-⟩
      rw [(List.append_eq_nil_iff.mp hl.symm).2]
      exact Nat.le_refl _
  | append_singleton l a ih =>
    cases n with
    | zero => exact iff_of_true (Nat.zero_le _) lastAll_zero
    | succ n =>
      rw [streak_concat,lastAll_concat]
      by_cases ha : p a = true
      · rw [if_pos ha,Nat.succ_le_succ_iff,ih]
        exact ⟨fun h => ⟨ha,h⟩,fun h => h.2⟩
      · rw [if_neg ha]
        exact iff_of_false (Nat.not_succ_le_zero n) (fun h => ha h.1)

end KubeAir.Transition
