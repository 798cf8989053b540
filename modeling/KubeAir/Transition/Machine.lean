import Mathlib.Data.List.Basic

/-! # Machines that answer

A machine takes inputs one after another and answers each of them. The inputs of a run are kept
with their answers, so that what was answered can be counted and compared.
-/
namespace KubeAir.Transition.Machine
variable {S A B V : Type*} (step : S → A → B × S)

/-- The state after some inputs. -/
def after (s : S) (w : List A) : S := w.foldl (fun s a => (step s a).2) s

/-- The inputs with their answers. -/
def answers : S → List A → List (A × B)
  | _, [] => []
  | s, a :: w => (a,(step s a).1) :: answers (step s a).2 w

variable {step} {s t : S} {v w : List A} {a : A} {b : B}

theorem after_concat : after step s (w ++ [a]) = (step (after step s w) a).2 := by
  simp [after]

theorem answers_append : answers step s (v ++ w) = answers step s v ++ answers step (after step s v) w := by
  induction v generalizing s with
  | nil => rfl
  | cons a v ih => exact congrArg (List.cons (a,(step s a).1)) ih

theorem answers_concat :
    answers step s (w ++ [a]) = answers step s w ++ [(a,(step (after step s w) a).1)] := answers_append

theorem map_fst_answers : (answers step s w).map Prod.fst = w := by
  induction w generalizing s with
  | nil => rfl
  | cons a w ih => exact congrArg (List.cons a) ih

theorem fst_mem_of_mem_answers {p : A × B} (h : p ∈ answers step s w) : p.1 ∈ w := by
  have hmem := List.mem_map_of_mem (f := Prod.fst) h
  rwa [map_fst_answers] at hmem

/-- An answer that was given is that of the state the inputs before it lead to. -/
theorem answers_split {before rest : List (A × B)} (h : answers step s w = before ++ (a,b) :: rest) :
    ∃ v u, w = v ++ a :: u ∧ before = answers step s v ∧ b = (step (after step s v) a).1 := by
  induction before generalizing s w with
  | nil =>
    cases w with
    | nil => cases h
    | cons a' w =>
      obtain ⟨hhead,-⟩ := List.cons.inj h
      obtain ⟨rfl,rfl⟩ := Prod.mk.inj hhead
      exact ⟨[],w,rfl,rfl,rfl⟩
  | cons p before ih =>
    cases w with
    | nil => cases h
    | cons a' w =>
      obtain ⟨rfl,htail⟩ := List.cons.inj h
      obtain ⟨v,u,rfl,rfl,rfl⟩ := ih htail
      exact ⟨a' :: v,u,rfl,rfl,rfl⟩

/-- Inputs that leave alone what the others are answered by change no answer of the others. -/
theorem answers_filter (view : S → V) (concern : A → Bool)
    (hsame : ∀ s t a, view s = view t → concern a = true →
      (step s a).1 = (step t a).1 ∧ view (step s a).2 = view (step t a).2)
    (hother : ∀ s a, concern a = false → view (step s a).2 = view s) (h : view s = view t) :
    (answers step s w).filter (fun p => concern p.1) = answers step t (w.filter concern) := by
  induction w generalizing s t with
  | nil => rfl
  | cons a w ih =>
    cases ha : concern a with
    | true =>
      obtain ⟨hanswer,hview⟩ := hsame s t a h ha
      rw [List.filter_cons_of_pos ha]
      unfold answers
      rw [List.filter_cons_of_pos (by simpa using ha),hanswer,ih hview]
    | false =>
      have hskip : view (step s a).2 = view t := (hother s a ha).trans h
      rw [answers,List.filter_cons_of_neg (by simp [ha]),List.filter_cons_of_neg (by simp [ha]),ih hskip]

end KubeAir.Transition.Machine
