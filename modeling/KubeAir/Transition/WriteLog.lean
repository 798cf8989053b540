import Mathlib.Logic.Function.Basic

/-! # Logs of writes

A log of writes to keys, of which the last one of a key counts. A write that says again what the
whole log says already may stand anywhere in it.
-/
namespace KubeAir.Transition
variable {K V : Type*} [DecidableEq K] {view : K → V} {log rest : List (K × V)} {k : K} {v : V}

/-- What a log of writes makes of a view. -/
def written (view : K → V) (log : List (K × V)) : K → V :=
  log.foldl (fun view w => Function.update view w.1 w.2) view

@[simp] theorem written_nil : written view [] = view := rfl

@[simp] theorem written_cons (w : K × V) : written view (w :: log) = written (Function.update view w.1 w.2) log := rfl

@[simp] theorem written_append : written view (log ++ rest) = written (written view log) rest := List.foldl_append

theorem written_update (h : written view log k = v) : written (Function.update view k v) log = written view log := by
  induction log generalizing view with
  | nil =>
    have hv : view k = v := h
    simp [← hv]
  | cons w log ih =>
    simp only [written_cons] at h ⊢
    by_cases hk : w.1 = k
    · simp [hk]
    · rw [Function.update_comm (Ne.symm hk)]
      exact ih h

/-- A write of what its key is left with in the end changes nothing, wherever it stands. -/
theorem written_insert (h : written view (log ++ rest) k = v) :
    written view (log ++ (k,v) :: rest) = written view (log ++ rest) := by
  simp only [written_append,written_cons] at h ⊢
  exact written_update h

end KubeAir.Transition
