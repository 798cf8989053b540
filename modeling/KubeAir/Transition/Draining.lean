import KubeAir.Transition.Runs

/-! # Channels that fill up and systems that drain

A channel of bounded capacity, whose senders wait for room. A system drains if every step of its
own lowers a rank and it only stops at rest; then it comes to rest on every schedule.
-/
namespace KubeAir.Transition

/-- A channel that holds no more than its capacity. -/
structure BoundedChannel (α : Type*) (capacity : ℕ) where
  queue : List α
  fits : queue.length ≤ capacity

namespace BoundedChannel
variable {α : Type*} {capacity : ℕ} {c c' : BoundedChannel α capacity} {a : α}

def empty : BoundedChannel α capacity := ⟨[],Nat.zero_le capacity⟩

/-- A sender does not have to wait. -/
def HasRoom (c : BoundedChannel α capacity) : Prop := c.queue.length < capacity

instance (c : BoundedChannel α capacity) : Decidable c.HasRoom := inferInstanceAs (Decidable (_ < _))

def send (c : BoundedChannel α capacity) (a : α) (h : c.HasRoom) : BoundedChannel α capacity where
  queue := c.queue ++ [a]
  fits := by
    simp only [List.length_append,List.length_singleton]
    exact h

def recv : BoundedChannel α capacity → Option (α × BoundedChannel α capacity)
  | ⟨[],_⟩ => none
  | ⟨a :: queue,h⟩ => some (a,⟨queue,Nat.le_of_succ_le h⟩)

@[simp] theorem queue_empty : (empty : BoundedChannel α capacity).queue = [] := rfl

@[simp] theorem queue_send (h : c.HasRoom) : (c.send a h).queue = c.queue ++ [a] := rfl

theorem recv_eq_some (h : c.recv = some (a,c')) : c.queue = a :: c'.queue := by
  obtain ⟨queue,hfits⟩ := c
  cases queue with
  | nil => cases h
  | cons b queue =>
    obtain ⟨rfl,rfl⟩ := Prod.mk.inj (Option.some.inj h)
    rfl

theorem exists_recv (h : c.queue ≠ []) : ∃ a c', c.recv = some (a,c') := by
  obtain ⟨queue,hfits⟩ := c
  cases queue with
  | nil => exact absurd rfl h
  | cons b queue => exact ⟨b,_,rfl⟩

theorem hasRoom_of_nil (hcapacity : 0 < capacity) (h : c.queue = []) : c.HasRoom := by
  simpa [HasRoom,h] using hcapacity

end BoundedChannel

section Draining
variable {S A : Type*} {R : S → A → S → Prop} {I rest : S → Prop} {rank : S → ℕ} {s t : S} {w : List A}

/-- Every step lowers the rank, and where none can be taken the state is at rest. -/
structure Drains (R : S → A → S → Prop) (I rest : S → Prop) (rank : S → ℕ) : Prop where
  kept : ∀ s a t, I s → R s a t → I t
  lowered : ∀ s a t, I s → R s a t → rank t < rank s
  moves : ∀ s, I s → ¬rest s → ∃ a t, R s a t

/-- The rank bounds how long the system can go on. -/
theorem Drains.length_le (h : Drains R I rest rank) (hr : Runs R s w t) (hs : I s) : w.length + rank t ≤ rank s := by
  induction hr with
  | nil s => simp
  | cons hstep _ ih =>
    have hrest := ih (h.kept _ _ _ hs hstep)
    have hlower := h.lowered _ _ _ hs hstep
    simp only [List.length_cons]
    omega

/-- From everywhere the system can come to rest. -/
theorem Drains.exists_rest (h : Drains R I rest rank) (hs : I s) : ∃ w t, Runs R s w t ∧ rest t := by
  induction hn : rank s using Nat.strongRecOn generalizing s with
  | ind n ih =>
    by_cases hrest : rest s
    · exact ⟨[],s,.nil s,hrest⟩
    · obtain ⟨a,t,hstep⟩ := h.moves s hs hrest
      have hlower := h.lowered _ _ _ hs hstep
      obtain ⟨w,u,hr,hu⟩ := ih (rank t) (by omega) (h.kept _ _ _ hs hstep) rfl
      exact ⟨a :: w,u,.cons hstep hr,hu⟩

/-- Whatever the schedule, the system stops after as many steps as its rank says, and only at rest. -/
theorem Drains.settles (h : Drains R I rest rank) (hs : I s) (hr : Runs R s w t) :
    w.length ≤ rank s ∧ (rest t ∨ ∃ a u, R t a u) ∧ ∃ w' u, Runs R t w' u ∧ rest u := by
  have ht : I t := hr.invariant h.kept hs
  have hlength := h.length_le hr hs
  refine ⟨by omega,?_,h.exists_rest ht⟩
  by_cases hrest : rest t
  · exact .inl hrest
  · exact .inr (h.moves t ht hrest)

end Draining
end KubeAir.Transition
