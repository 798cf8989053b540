import KubeAir.Transition.Program

/-! # Programs that take turns

Several programs work on one world, and a turn performs the next call of one of them. A
program that keeps to a contract in spite of drift keeps to it among others whose calls
are no more than drift.
-/
namespace KubeAir.Transition
variable {Op : Type} {Answer : Op → Type} {α W Call Choice : Type}

/-- A world and the programs that are under way in it. -/
structure Threads (Op : Type) (Answer : Op → Type) (α W : Type) where
  world : W
  programs : List (Program Op Answer α) := []

/-- A call starts a program, and a choice settles what the program leaves to the environment. -/
inductive Turn (Call Choice : Type)
  | start (c : Call)
  | resume (i : ℕ) (choice : Choice)

namespace Threads

/-- The call that is due in a turn. -/
def due (s : Threads Op Answer α W) : Turn Call Choice → Option Op
  | .start _ => none
  | .resume i _ =>
    match s.programs[i]? with
    | some (.call op _) => some op
    | _ => none

section Steps
variable (program : Call → Program Op Answer α) (perform : Choice → W → (op : Op) → Answer op × W)

def step (s : Threads Op Answer α W) : Turn Call Choice → Threads Op Answer α W
  | .start c => { s with programs := s.programs ++ [program c] }
  | .resume i choice =>
    match s.programs[i]? with
    | some (.call op next) =>
      ⟨(perform choice s.world op).2,s.programs.set i (next (perform choice s.world op).1)⟩
    | _ => s

def run (s : Threads Op Answer α W) (turns : List (Turn Call Choice)) : Threads Op Answer α W :=
  turns.foldl (step program perform) s

variable {program perform} {s : Threads Op Answer α W} {t : Turn Call Choice}

theorem run_concat (turns : List (Turn Call Choice)) :
    run program perform s (turns ++ [t]) = step program perform (run program perform s turns) t := by
  unfold run
  rw [List.foldl_append,List.foldl_cons,List.foldl_nil]

theorem due_eq_some {op : Op} : s.due t = some op ↔
    ∃ i choice next, t = .resume i choice ∧ s.programs[i]? = some (.call op next) := by
  cases t with
  | start c => simp [due]
  | resume i choice =>
    dsimp only [due]
    constructor
    · intro h
      split at h
      · next op' next hsome =>
        obtain rfl := Option.some.inj h
        exact ⟨i,choice,next,rfl,hsome⟩
      · cases h
    · rintro ⟨_,_,next,⟨⟩,hsome⟩
      rw [hsome]

variable (program perform) in
/-- A turn with a call performs it. -/
theorem step_of_due {op : Op} (h : s.due t = some op) : ∃ i choice next,
    t = .resume i choice ∧ s.programs[i]? = some (.call op next) ∧ step program perform s t =
      ⟨(perform choice s.world op).2,s.programs.set i (next (perform choice s.world op).1)⟩ := by
  obtain ⟨i,choice,next,rfl,hsome⟩ := due_eq_some.mp h
  refine ⟨i,choice,next,rfl,hsome,?_⟩
  dsimp only [step]
  rw [hsome]

variable (program perform) in
/-- A turn without a call leaves the world alone. -/
theorem step_of_due_eq_none (h : s.due t = none) : (step program perform s t).world = s.world ∧
    ∀ p ∈ (step program perform s t).programs, p ∈ s.programs ∨ ∃ c, p = program c := by
  cases t with
  | start c =>
    refine ⟨rfl,fun p hp => ?_⟩
    rcases List.mem_append.mp hp with hp | hp
    · exact .inl hp
    · exact .inr ⟨c,List.mem_singleton.mp hp⟩
  | resume i choice =>
    dsimp only [due] at h
    dsimp only [step]
    split
    · next hsome =>
      rw [hsome] at h
      cases h
    · exact ⟨rfl,fun p hp => .inl hp⟩

/-- Every program under way keeps to the contract. -/
def Sound (C : Contract Op Answer W) (s : Threads Op Answer α W) : Prop :=
  ∀ p ∈ s.programs, p.Meets C (fun _ _ => True) s.world

variable {C : Contract Op Answer W}

/-- The call that is due is allowed. -/
theorem Sound.allowed (h : s.Sound C) (hrefl : ∀ w, C.drift w w) {op : Op} (hdue : s.due t = some op) :
    C.allowed s.world op := by
  obtain ⟨i,choice,next,rfl,hsome⟩ := due_eq_some.mp hdue
  exact (h _ (List.mem_of_getElem? hsome) s.world (hrefl s.world)).1

/-- A turn keeps every program to the contract if calls are answered as the contract says and
the other programs see no more than drift. -/
theorem Sound.step (h : s.Sound C) (hrefl : ∀ w, C.drift w w)
    (htrans : ∀ a b c, C.drift a b → C.drift b c → C.drift a c)
    (hstart : ∀ c, (program c).Meets C (fun _ _ => True) s.world)
    (hperform : ∀ choice op, C.allowed s.world op → C.drift s.world (perform choice s.world op).2 ∧
      C.answers s.world op (perform choice s.world op).1 (perform choice s.world op).2) :
    (Threads.step program perform s t).Sound C := by
  cases hdue : s.due t with
  | none =>
    obtain ⟨hworld,hprograms⟩ := step_of_due_eq_none program perform hdue
    intro p hp
    rw [hworld]
    rcases hprograms p hp with hp | ⟨c,rfl⟩
    · exact h p hp
    · exact hstart c
  | some op =>
    obtain ⟨i,choice,next,-,hsome,hstep⟩ := step_of_due program perform hdue
    obtain ⟨hallowed,hnext⟩ := h _ (List.mem_of_getElem? hsome) s.world (hrefl s.world)
    obtain ⟨hdrift,hanswers⟩ := hperform choice op hallowed
    rw [hstep]
    intro p hp
    rcases List.mem_or_eq_of_mem_set hp with hp | rfl
    · exact (h p hp).drift hdrift htrans (fun _ _ _ _ _ => trivial)
    · exact hnext _ _ hanswers

end Steps
end Threads
end KubeAir.Transition
