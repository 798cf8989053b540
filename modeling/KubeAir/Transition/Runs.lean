import Mathlib.Logic.Relation
import Mathlib.Data.List.Basic

/-! # Runs of labelled transition relations

A run carries the exact word of actions it performs, so that a law about the
steps before and after a given action can be stated. Guards restrict a relation
by a predicate on the state before a step and on its action; they never look at
the state after it.
-/
namespace KubeAir.Transition
variable {S A : Type*} {R : S → A → S → Prop}

/-- `Runs R s w t`: the word `w` of actions leads from `s` to `t`. -/
inductive Runs (R : S → A → S → Prop) : S → List A → S → Prop
  | nil (s : S) : Runs R s [] s
  | cons {s t u : S} {a : A} {w : List A} : R s a t → Runs R t w u → Runs R s (a :: w) u

/-- The steps of `R` whose action is allowed in the state it meets. -/
def Guarded (ok : S → A → Prop) (R : S → A → S → Prop) (s : S) (a : A) (t : S) : Prop :=
  ok s a ∧ R s a t

/-- The graph of a partial step function. -/
def ofStep (step : S → A → Option S) (s : S) (a : A) (t : S) : Prop := step s a = some t

/-- Executing a word of actions with a partial step function. -/
def exec (step : S → A → Option S) : S → List A → Option S
  | s, [] => some s
  | s, a :: w => (step s a).bind (fun t => exec step t w)

theorem runs_of_exec {step : S → A → Option S} {s t : S} {w : List A}
    (h : exec step s w = some t) : Runs (ofStep step) s w t := by
  induction w generalizing s with
  | nil =>
    obtain rfl : s = t := Option.some.inj h
    exact .nil s
  | cons a w ih =>
    obtain ⟨u,hu,hw⟩ := Option.bind_eq_some_iff.mp h
    exact .cons hu (ih hw)

theorem exec_of_runs {step : S → A → Option S} {s t : S} {w : List A}
    (h : Runs (ofStep step) s w t) : exec step s w = some t := by
  induction h with
  | nil s => rfl
  | cons hs _ ih =>
    unfold ofStep at hs
    rw [exec,hs,Option.bind_some,ih]

/-- A step function that refuses the actions its guard does not allow. -/
def guardedStep (ok : S → A → Prop) [∀ s a, Decidable (ok s a)] (step : S → A → Option S)
    (s : S) (a : A) : Option S :=
  if ok s a then step s a else none

theorem guarded_of_exec {ok : S → A → Prop} [∀ s a, Decidable (ok s a)] {step : S → A → Option S}
    {s t : S} {w : List A} (h : exec (guardedStep ok step) s w = some t) :
    Runs (Guarded ok (ofStep step)) s w t := by
  induction w generalizing s with
  | nil =>
    obtain rfl : s = t := Option.some.inj h
    exact .nil s
  | cons a w ih =>
    obtain ⟨u,hu,hw⟩ := Option.bind_eq_some_iff.mp h
    exact .cons (Option.ite_none_right_eq_some.mp hu) (ih hw)

namespace Runs

theorem mono {R' : S → A → S → Prop} {s t : S} {w : List A}
    (h : ∀ s a t, R s a t → R' s a t) (hr : Runs R s w t) : Runs R' s w t := by
  induction hr with
  | nil s => exact .nil s
  | cons hs _ ih => exact .cons (h _ _ _ hs) ih

theorem of_guarded {ok : S → A → Prop} {s t : S} {w : List A}
    (hr : Runs (Guarded ok R) s w t) : Runs R s w t :=
  hr.mono (fun _ _ _ h => h.2)

/-- A run whose actions are allowed in every state. -/
theorem guarded {ok : S → A → Prop} {s t : S} {w : List A} (hr : Runs R s w t) (h : ∀ a ∈ w, ∀ s, ok s a) :
    Runs (Guarded ok R) s w t := by
  induction hr with
  | nil s => exact .nil s
  | cons hs _ ih => exact .cons ⟨h _ List.mem_cons_self _,hs⟩ (ih fun a ha => h a (List.mem_cons_of_mem _ ha))

/-- Guards that agree on every step allow the same runs. -/
theorem guarded_congr {ok ok' : S → A → Prop} {s t : S} {w : List A}
    (h : ∀ s a, ok s a ↔ ok' s a) : Runs (Guarded ok R) s w t ↔ Runs (Guarded ok' R) s w t := by
  constructor
  · exact mono (fun s a _ hst => ⟨(h s a).mp hst.1,hst.2⟩)
  · exact mono (fun s a _ hst => ⟨(h s a).mpr hst.1,hst.2⟩)

theorem append {s t u : S} {v w : List A} (hv : Runs R s v t) (hw : Runs R t w u) :
    Runs R s (v ++ w) u := by
  induction hv with
  | nil _ => exact hw
  | cons hs _ ih => exact .cons hs (ih hw)

theorem split {s u : S} {v w : List A} (h : Runs R s (v ++ w) u) :
    ∃ t, Runs R s v t ∧ Runs R t w u := by
  induction v generalizing s with
  | nil => exact ⟨s,.nil s,h⟩
  | cons a v ih =>
    cases h with
    | cons hs hr =>
      obtain ⟨t,hv,hw⟩ := ih hr
      exact ⟨t,.cons hs hv,hw⟩

/-- The step performed between two parts of a word. -/
theorem split_step {s u : S} {v w : List A} {a : A} (h : Runs R s (v ++ a :: w) u) :
    ∃ t t', Runs R s v t ∧ R t a t' ∧ Runs R t' w u := by
  obtain ⟨t,hv,hw⟩ := h.split
  cases hw with
  | cons hs hr => exact ⟨t,_,hv,hs,hr⟩

/-- What holds at the start and is kept by every step holds at the end. -/
theorem invariant {I : S → Prop} {s t : S} {w : List A} (hr : Runs R s w t)
    (hstep : ∀ s a t, I s → R s a t → I t) (hs : I s) : I t := by
  induction hr with
  | nil _ => exact hs
  | cons h _ ih => exact ih (hstep _ _ _ hs h)

/-- Where a guard says exactly which steps keep a law, the runs of guarded steps are the runs
that keep the law all along. -/
theorem guarded_iff_lawful {I : S → Prop} {ok : S → A → Prop} {law : S → S → Prop} {s t : S} {w : List A}
    (hiff : ∀ s a t, I s → R s a t → (ok s a ↔ law s t)) (hstep : ∀ s a t, I s → R s a t → law s t → I t)
    (hs : I s) : Runs (Guarded ok R) s w t ↔ Runs (fun s a t => R s a t ∧ law s t) s w t := by
  constructor
  · intro h
    induction h with
    | nil s => exact .nil s
    | cons hst _ ih =>
      have hlaw := (hiff _ _ _ hs hst.2).mp hst.1
      exact .cons ⟨hst.2,hlaw⟩ (ih (hstep _ _ _ hs hst.2 hlaw))
  · intro h
    induction h with
    | nil s => exact .nil s
    | cons hst _ ih =>
      exact .cons ⟨(hiff _ _ _ hs hst.1).mpr hst.2,hst.1⟩ (ih (hstep _ _ _ hs hst.1 hst.2))

end Runs

/-- Somewhere along the run a step satisfying `mark` is taken. -/
inductive Happens (R : S → A → S → Prop) (mark : S → A → Prop) : S → List A → S → Prop
  | now {s t u : S} {a : A} {w : List A} :
      R s a t → mark s a → Runs R t w u → Happens R mark s (a :: w) u
  | later {s t u : S} {a : A} {w : List A} :
      R s a t → Happens R mark t w u → Happens R mark s (a :: w) u

theorem Happens.mono {R' : S → A → S → Prop} {mark : S → A → Prop} {s t : S} {w : List A}
    (h : ∀ s a t, R s a t → R' s a t) (hp : Happens R mark s w t) : Happens R' mark s w t := by
  induction hp with
  | now hs hm hr => exact .now (h _ _ _ hs) hm (hr.mono h)
  | later hs _ ih => exact .later (h _ _ _ hs) ih

/-- Whether executing a word takes a marked step. -/
def marked (step : S → A → Option S) (mark : S → A → Prop) [∀ s a, Decidable (mark s a)] :
    S → List A → Bool
  | _, [] => false
  | s, a :: w => decide (mark s a) || ((step s a).map (fun t => marked step mark t w)).getD false

theorem Happens.marked {step : S → A → Option S} {mark : S → A → Prop}
    [∀ s a, Decidable (mark s a)] {s t : S} {w : List A} (h : Happens (ofStep step) mark s w t) :
    marked step mark s w = true := by
  induction h with
  | now hs hm _ => simp [Transition.marked,hm]
  | later hs _ ih =>
    unfold ofStep at hs
    simp [Transition.marked,hs,ih]

/-- An obligation that every unmarked step keeps is either met along the run or
still standing at its end. -/
theorem Runs.happens_or {I : S → Prop} {mark : S → A → Prop} {P : A → Prop} {s t : S} {w : List A}
    (hr : Runs R s w t) (hP : ∀ a ∈ w, P a)
    (hstep : ∀ s a t, P a → I s → R s a t → mark s a ∨ I t) (hs : I s) :
    Happens R mark s w t ∨ I t := by
  induction hr with
  | nil _ => exact .inr hs
  | cons h hrest ih =>
    rcases hstep _ _ _ (hP _ List.mem_cons_self) hs h with hm | hi
    · exact .inl (.now h hm hrest)
    · exact (ih (fun b hb => hP b (List.mem_cons_of_mem _ hb)) hi).imp (.later h) id

end KubeAir.Transition
