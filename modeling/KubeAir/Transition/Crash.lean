import KubeAir.Transition.Program
import Mathlib.Logic.Relation

/-! # Programs that are cut off

A program may stop for good after any of its calls, and be started again in the world that it has
left. A call that was under way when it stopped counts as one whose answer was not waited for.
-/
namespace KubeAir.Transition.Program
variable {Op : Type} {Answer : Op → Type} {α W : Type}

/-- The program can have been cut off in the world that comes last. -/
inductive Cut (C : Contract Op Answer W) : Program Op Answer α → W → W → Prop
  | here (p : Program Op Answer α) (w : W) : Cut C p w w
  | call {op : Op} {next : Answer op → Program Op Answer α} {w w₁ w₂ w₃ : W} {ans : Answer op} (hdrift : C.drift w w₁)
      (hans : C.answers w₁ op ans w₂) (hrest : Cut C (next ans) w₂ w₃) : Cut C (.call op next) w w₃

/-- Some starts of the program, one after another, each of them cut off somewhere. -/
abbrev Restarts (C : Contract Op Answer W) (p : Program Op Answer α) : W → W → Prop := Relation.ReflTransGen (Cut C p)

section Rules
variable {C : Contract Op Answer W} {p : Program Op Answer α} {w w' : W} {I : W → Prop}

/-- An assertion that goes with every call and every result is never left. -/
theorem Meets.cut {Q : α → W → Prop} (h : p.Meets C Q w) (hcut : Cut C p w w') (hrefl : ∀ w, C.drift w w)
    (hcall : ∀ w op, C.allowed w op → I w) (hret : ∀ a w, Q a w → I w) : I w' := by
  induction hcut with
  | here p w =>
    cases p with
    | ret a => exact hret a w h
    | call op next => exact hcall w op (h w (hrefl w)).1
  | call hdrift hans hrest ih => exact ih ((h _ hdrift).2 _ _ hans)

theorem Restarts.keep (hr : Restarts C p w w') (hw : I w) (hp : ∀ w, I w → p.Meets C (fun _ => I) w)
    (hrefl : ∀ w, C.drift w w) (hcall : ∀ w op, C.allowed w op → I w) : I w' := by
  induction hr with
  | refl => exact hw
  | tail hbefore hcut ih => exact (hp _ ih).cut hcut hrefl hcall fun _ _ h => h

/-- A start that is not cut off. -/
theorem Cut.run (answer : W → (op : Op) → Answer op × W) (hrefl : ∀ w, C.drift w w)
    (hans : ∀ w op, C.answers w op (answer w op).1 (answer w op).2) (p : Program Op Answer α) (w : W) :
    Cut C p w (p.run answer w).2 := by
  induction p generalizing w with
  | ret a => exact .here _ w
  | call op next ih => exact .call (hrefl w) (hans w op) (ih _ _)

end Rules
end KubeAir.Transition.Program
