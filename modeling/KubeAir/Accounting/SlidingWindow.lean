import Mathlib.Algebra.Order.Monoid.Defs
import Mathlib.Data.List.Basic

/-! # Sliding windows

How many of some times lie within a window that ends now. Where an event is let in only if its
window holds few enough before it, no window of that length ever holds more, wherever it lies.
-/
namespace KubeAir.Accounting.SlidingWindow
variable {α : Type*} [LinearOrder α] [Add α]

/-- The times that a window of this length which ends now still holds. -/
def recent (window now : α) (times : List α) : List α := times.filter (fun t => now ≤ t + window)

/-- No window of this length holds more times. -/
def Bounded (window : α) (limit : ℕ) (times : List α) : Prop :=
  ∀ first last, last ≤ first + window → (times.filter (fun t => first ≤ t ∧ t ≤ last)).length ≤ limit

variable {window now : α} {limit : ℕ} {times queue : List α}

theorem recent_append (l l' : List α) : recent window now (l ++ l') = recent window now l ++ recent window now l' :=
  List.filter_append l l'

/-- What a later window holds is among what an earlier one held. -/
theorem recent_recent {earlier : α} (h : earlier ≤ now) :
    recent window now (recent window earlier times) = recent window now times := by
  unfold recent
  rw [List.filter_filter]
  refine List.filter_congr ?_
  intro t _
  have himp : now ≤ t + window → earlier ≤ t + window := h.trans
  simpa using himp

theorem bounded_nil : Bounded window limit [] := fun _ _ _ => Nat.zero_le _

variable [AddRightMono α]

/-- In a queue that is in order, the times that the window has left are in front. -/
theorem dropWhile_eq_recent (h : queue.Pairwise (· ≤ ·)) :
    queue.dropWhile (fun t => t + window < now) = recent window now queue := by
  induction queue with
  | nil => rfl
  | cons t queue ih =>
    obtain ⟨hfirst,hrest⟩ := List.pairwise_cons.mp h
    by_cases hgone : t + window < now
    · have hnot : ¬now ≤ t + window := not_le.mpr hgone
      rw [List.dropWhile_cons_of_pos (by simpa using hgone),ih hrest]
      unfold recent
      rw [List.filter_cons_of_neg (by simpa using hnot)]
    · have hkept : ∀ u ∈ t :: queue, now ≤ u + window := by
        intro u hu
        rcases List.mem_cons.mp hu with rfl | hu
        · exact not_lt.mp hgone
        · exact (not_lt.mp hgone).trans (add_le_add_left (hfirst u hu) window)
      rw [List.dropWhile_cons_of_neg (by simpa using hgone)]
      unfold recent
      rw [List.filter_eq_self.mpr (by simpa using hkept)]

/-- An event whose window had room leaves every window with room enough. -/
theorem Bounded.concat (h : Bounded window limit times) (hroom : (recent window now times).length < limit) :
    Bounded window limit (times ++ [now]) := by
  intro first last hlast
  rw [List.filter_append,List.length_append]
  by_cases hnow : first ≤ now ∧ now ≤ last
  · have hsub : (times.filter (fun t => first ≤ t ∧ t ≤ last)).length ≤ (recent window now times).length := by
      refine (List.monotone_filter_right times ?_).length_le
      intro t ht
      obtain ⟨hfirst,-⟩ := of_decide_eq_true ht
      exact decide_eq_true (hnow.2.trans (hlast.trans (add_le_add_left hfirst window)))
    rw [List.filter_cons_of_pos (by simpa using hnow),List.filter_nil,List.length_singleton]
    omega
  · rw [List.filter_cons_of_neg (by simpa using hnow),List.filter_nil,List.length_nil]
    exact h first last hlast

end KubeAir.Accounting.SlidingWindow
