import KubeAir.Transition.Program

/-! # What some execution of a program does

`Meets` speaks about all executions in an environment, the judgements here about one: it
ends with a result, or it comes to a call that satisfies `U`.
-/
namespace KubeAir.Transition
variable {Op : Type} {Answer : Op → Type} {α β σ ε ε' ι W : Type}

/-- How an environment may answer a call, and what the world is afterwards. -/
abbrev Environment (Op : Type) (Answer : Op → Type) (W : Type) := W → (op : Op) → Answer op → W → Prop

namespace Program

/-- Some execution returns, and `Q` holds when it does. -/
def Ends (E : Environment Op Answer W) : Program Op Answer α → (α → W → Prop) → W → Prop
  | .ret a, Q => Q a
  | .call op next, Q => fun w => ∃ a w', E w op a w' ∧ (next a).Ends E Q w'

/-- Some execution comes to a call that satisfies `U`. -/
def Reaches (E : Environment Op Answer W) (U : Op → Prop) : Program Op Answer α → W → Prop
  | .ret _ => fun _ => False
  | .call op next => fun w => U op ∨ ∃ a w', E w op a w' ∧ (next a).Reaches E U w'

section Rules
variable {E : Environment Op Answer W} {U : Op → Prop} {p : Program Op Answer α} {f : α → Program Op Answer β} {w : W}

theorem ends_pure {a : α} {Q : α → W → Prop} (h : Q a w) : (pure a : Program Op Answer α).Ends E Q w := h

theorem ends_request {op : Op} {Q : Answer op → W → Prop} {a : Answer op} {w' : W} (h : E w op a w') (hQ : Q a w') :
    (request op : Program Op Answer (Answer op)).Ends E Q w := ⟨a,w',h,hQ⟩

theorem reaches_request {op : Op} (h : U op) : (request op : Program Op Answer (Answer op)).Reaches E U w := .inl h

theorem Ends.mono {Q Q' : α → W → Prop} (h : p.Ends E Q w) (hQ : ∀ a w, Q a w → Q' a w) : p.Ends E Q' w := by
  induction p generalizing w with
  | ret a => exact hQ a w h
  | call op next ih =>
    obtain ⟨a,w',ha,hnext⟩ := h
    exact ⟨a,w',ha,ih a hnext⟩

theorem ends_bind {Q : β → W → Prop} (h : p.Ends E (fun a w => (f a).Ends E Q w) w) : (p >>= f).Ends E Q w := by
  induction p generalizing w with
  | ret a => exact h
  | call op next ih =>
    obtain ⟨a,w',ha,hnext⟩ := h
    exact ⟨a,w',ha,ih a hnext⟩

/-- The call is reached after the first part has returned. -/
theorem reaches_bind (h : p.Ends E (fun a w => (f a).Reaches E U w) w) : (p >>= f).Reaches E U w := by
  induction p generalizing w with
  | ret a => exact h
  | call op next ih =>
    obtain ⟨a,w',ha,hnext⟩ := h
    exact .inr ⟨a,w',ha,ih a hnext⟩

/-- The call is reached by the first part. -/
theorem Reaches.bind (h : p.Reaches E U w) : (p >>= f).Reaches E U w := by
  induction p generalizing w with
  | ret a => exact h.elim
  | call op next ih =>
    rcases h with hop | ⟨a,w',ha,hnext⟩
    · exact .inl hop
    · exact .inr ⟨a,w',ha,ih a hnext⟩

end Rules
end Program

namespace Routine

/-- `Program.Ends` for a routine started in the state `s`. -/
def Ends (E : Environment Op Answer W) (m : Routine Op Answer σ ε α) (Q : Except ε α → σ → W → Prop) (s : σ) (w : W) :
    Prop :=
  (m s).Ends E (fun r => Q r.1 r.2) w

section Rules
variable {E : Environment Op Answer W} {U : Op → Prop} {m : Routine Op Answer σ ε α} {f : α → Routine Op Answer σ ε β}
  {s : σ} {w : W}

theorem Ends.mono {Q Q' : Except ε α → σ → W → Prop} (h : m.Ends E Q s w) (hQ : ∀ r s w, Q r s w → Q' r s w) :
    m.Ends E Q' s w :=
  Program.Ends.mono h fun r => hQ r.1 r.2

theorem ends_get {Q : Except ε σ → σ → W → Prop} (h : Q (.ok s) s w) :
    (get : Routine Op Answer σ ε σ).Ends E Q s w := h

theorem ends_lift {p : Program Op Answer α} {Q : Except ε α → σ → W → Prop} (h : p.Ends E (fun a => Q (.ok a) s) w) :
    (liftM p : Routine Op Answer σ ε α).Ends E Q s w :=
  Program.ends_bind h

theorem ends_bind {Q : Except ε β → σ → W → Prop} (h : m.Ends E (fun r s w => match r with
      | .ok a => (f a).Ends E Q s w
      | .error e => Q (.error e) s w) s w) : (m >>= f).Ends E Q s w := by
  refine Program.ends_bind (Program.Ends.mono h ?_)
  rintro ⟨r,t⟩ v hv
  cases r with
  | ok a => exact hv
  | error e => exact hv

theorem reaches_bind (h : m.Ends E (fun r s w => ∃ a, r = .ok a ∧ (f a s).Reaches E U w) s w) :
    ((m >>= f) s).Reaches E U w := by
  refine Program.reaches_bind (Program.Ends.mono h ?_)
  rintro ⟨r,t⟩ v ⟨a,rfl,hv⟩
  exact hv

theorem Reaches.bind (h : (m s).Reaches E U w) : ((m >>= f) s).Reaches E U w := Program.Reaches.bind h

/-- A loop of which every round can be completed with `I`. -/
theorem Ends.forEach {body : ι → Routine Op Answer σ ε Unit} {l : List ι} {I : σ → W → Prop}
    (hbody : ∀ x ∈ l, ∀ s w, I s w → (body x).Ends E (fun r s w => r = .ok () ∧ I s w) s w) (h : I s w) :
    (Routine.forEach body l).Ends E (fun r s w => r = .ok () ∧ I s w) s w := by
  induction l generalizing s w with
  | nil => exact ⟨rfl,h⟩
  | cons x xs ih =>
    unfold Routine.forEach
    refine ends_bind ((hbody x List.mem_cons_self s w h).mono ?_)
    rintro r s w ⟨rfl,hI⟩
    exact ih (fun y hy => hbody y (List.mem_cons_of_mem _ hy)) hI

end Rules
end Routine
end KubeAir.Transition
