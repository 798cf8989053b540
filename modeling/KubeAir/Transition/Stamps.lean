import Mathlib.Data.List.Basic

/-! # Stamped values

A value that is kept with the time of its last change, over the steps of a run. The stamp is
right when the time moves exactly with the value.
-/
namespace KubeAir.Transition
variable {S A V T : Type*} {step : S → A → S} {P Q : S → A → Prop} {s : S} {w : List A}

/-- The time moves exactly when the value does, if there was one before. -/
def Tracks (before after : Option (V × T)) : Prop :=
  ∀ p q, before = some p → after = some q → (q.2 ≠ p.2 ↔ q.1 ≠ p.1)

/-- A value may be written with a time: it is the first one, or one changes with the other. -/
def Due (before : Option (V × T)) (v : V) (t : T) : Prop := ∀ p, before = some p → (t ≠ p.2 ↔ v ≠ p.1)

/-- The steps of a run that satisfy a law, each in the state it meets. -/
def EachStep (step : S → A → S) (P : S → A → Prop) : S → List A → Prop
  | _, [] => True
  | s, a :: w => P s a ∧ EachStep step P (step s a) w

theorem tracks_some {before : Option (V × T)} {v : V} {t : T} : Tracks before (some (v,t)) ↔ Due before v t := by
  constructor
  · exact fun h p hp => h p (v,t) hp rfl
  · intro h p q hp hq
    obtain rfl := Option.some.inj hq
    exact h p hp

theorem tracks_refl (o : Option (V × T)) : Tracks o o := by
  intro p q hp hq
  obtain rfl := Option.some.inj (hp.symm.trans hq)
  exact iff_of_false (fun h => h rfl) (fun h => h rfl)

/-- A value that is rewritten with its old time has to stay. -/
theorem tracks_map {before : Option (V × T)} {f : V → V} :
    Tracks before (before.map (fun p => (f p.1,p.2))) ↔ ∀ p, before = some p → f p.1 = p.1 := by
  constructor
  · intro h p hp
    have hp' : before.map (fun p => (f p.1,p.2)) = some (f p.1,p.2) := by rw [hp,Option.map_some]
    exact not_not.mp (fun hne => (h p _ hp hp').mpr hne rfl)
  · intro h p q hp hq
    rw [hp,Option.map_some] at hq
    obtain rfl := Option.some.inj hq
    exact iff_of_false (fun hne => hne rfl) (fun hne => hne (h p hp))

theorem eachStep_congr (h : ∀ s a, P s a ↔ Q s a) : EachStep step P s w ↔ EachStep step Q s w := by
  induction w generalizing s with
  | nil => exact Iff.rfl
  | cons a w ih => exact and_congr (h s a) ih

/-- A family of laws holds along a run when all of it holds at each step. -/
theorem forall_eachStep {K : Type*} {P : K → S → A → Prop} :
    (∀ k, EachStep step (P k) s w) ↔ EachStep step (fun s a => ∀ k, P k s a) s w := by
  induction w generalizing s with
  | nil => exact iff_of_true (fun _ => trivial) trivial
  | cons a w ih =>
    constructor
    · exact fun h => ⟨fun k => (h k).1,ih.mp (fun k => (h k).2)⟩
    · exact fun h k => ⟨h.1 k,ih.mpr h.2 k⟩

/-- Two laws that agree where an invariant holds agree along a run, if the invariant is kept where
the law is. -/
theorem eachStep_congr_of_inv {I : S → Prop} (h : ∀ s a, I s → (P s a ↔ Q s a))
    (hkeep : ∀ s a, I s → P s a → I (step s a)) (hs : I s) : EachStep step P s w ↔ EachStep step Q s w := by
  induction w generalizing s with
  | nil => exact Iff.rfl
  | cons a w ih =>
    constructor
    · exact fun hP => ⟨(h s a hs).mp hP.1,(ih (hkeep s a hs hP.1)).mp hP.2⟩
    · intro hQ
      have hP := (h s a hs).mpr hQ.1
      exact ⟨hP,(ih (hkeep s a hs hP)).mpr hQ.2⟩

end KubeAir.Transition
