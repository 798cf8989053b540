import Mathlib.Data.List.Forall2

/-! # Programs that call an environment

A program is a tree: it returns, or makes a call and continues with the answer. Between
two calls the world may drift, and a contract says how far, which calls a program may
make, and how they are answered. Routines add a state of their own and an early exit.
-/
namespace KubeAir.Transition
variable {Op : Type} {Answer : Op → Type} {α β σ ε ε' ι W : Type}

inductive Program (Op : Type) (Answer : Op → Type) (α : Type)
  | ret (a : α)
  | call (op : Op) (next : Answer op → Program Op Answer α)

/-- What a program relies on and what it has to respect. -/
structure Contract (Op : Type) (Answer : Op → Type) (W : Type) where
  drift : W → W → Prop
  allowed : W → Op → Prop
  answers : W → (op : Op) → Answer op → W → Prop

/-- A contract that is only relied on, and then stays so, where `G` holds. -/
def Contract.guarded {V : Type} (C : Contract Op Answer W) (view : V → W) (G : V → Prop) : Contract Op Answer V where
  drift v v' := G v → C.drift (view v) (view v') ∧ G v'
  allowed v op := G v → C.allowed (view v) op
  answers v op ans v' := G v → C.answers (view v) op ans (view v') ∧ G v'

namespace Program

protected def bind : Program Op Answer α → (α → Program Op Answer β) → Program Op Answer β
  | .ret a, f => f a
  | .call op next, f => .call op (fun ans => (next ans).bind f)

instance : Monad (Program Op Answer) where
  pure := .ret
  bind := .bind

def request (op : Op) : Program Op Answer (Answer op) := .call op .ret

/-- Every call is allowed where it is made, and `Q` holds when the program returns. -/
def Meets (C : Contract Op Answer W) : Program Op Answer α → (α → W → Prop) → W → Prop
  | .ret a, Q => Q a
  | .call op next, Q => fun w => ∀ w', C.drift w w' →
      C.allowed w' op ∧ ∀ ans w'', C.answers w' op ans w'' → (next ans).Meets C Q w''

/-- Whatever the answers are, every call satisfies `U` and every result `R`. -/
def Every (U : Op → Prop) (R : α → Prop) : Program Op Answer α → Prop
  | .ret a => R a
  | .call op next => U op ∧ ∀ ans, (next ans).Every U R

/-- Every call the program can make satisfies `U`. -/
abbrev Uses (U : Op → Prop) (p : Program Op Answer α) : Prop := p.Every U (fun _ => True)

section Rules
variable {C : Contract Op Answer W} {p : Program Op Answer α} {f : α → Program Op Answer β} {w : W}

@[simp] theorem meets_ret {a : α} {Q : α → W → Prop} : (ret a : Program Op Answer α).Meets C Q w ↔ Q a w :=
  Iff.rfl

@[simp] theorem meets_pure {a : α} {Q : α → W → Prop} :
    (pure a : Program Op Answer α).Meets C Q w ↔ Q a w :=
  Iff.rfl

theorem Meets.mono {Q Q' : α → W → Prop} (h : p.Meets C Q w) (hQ : ∀ a w, Q a w → Q' a w) :
    p.Meets C Q' w := by
  induction p generalizing w with
  | ret a => exact hQ a w h
  | call op next ih =>
    intro w' hw
    obtain ⟨hop,hans⟩ := h w' hw
    exact ⟨hop,fun ans w'' ha => ih ans (hans ans w'' ha)⟩

theorem Meets.and {Q Q' : α → W → Prop} (h : p.Meets C Q w) (h' : p.Meets C Q' w) :
    p.Meets C (fun a w => Q a w ∧ Q' a w) w := by
  induction p generalizing w with
  | ret a => exact ⟨h,h'⟩
  | call op next ih =>
    intro w' hw
    obtain ⟨hop,hans⟩ := h w' hw
    exact ⟨hop,fun ans w'' ha => ih ans (hans ans w'' ha) ((h' w' hw).2 ans w'' ha)⟩

@[simp] theorem meets_bind {Q : β → W → Prop} :
    (p >>= f).Meets C Q w ↔ p.Meets C (fun a w => (f a).Meets C Q w) w := by
  induction p generalizing w with
  | ret a => exact Iff.rfl
  | call op next ih =>
    constructor
    · intro h w' hw
      obtain ⟨hop,hans⟩ := h w' hw
      exact ⟨hop,fun ans w'' ha => (ih ans).mp (hans ans w'' ha)⟩
    · intro h w' hw
      obtain ⟨hop,hans⟩ := h w' hw
      exact ⟨hop,fun ans w'' ha => (ih ans).mpr (hans ans w'' ha)⟩

theorem Meets.guarded {V : Type} {view : V → W} {G : V → Prop} {v : V} {Q : α → W → Prop} (h : p.Meets C Q (view v)) (hG : G v) :
    p.Meets (C.guarded view G) (fun a v' => Q a (view v')) v := by
  induction p generalizing v with
  | ret a => exact h
  | call op next ih =>
    intro v' hdrift
    obtain ⟨hworld,hG'⟩ := hdrift hG
    obtain ⟨hallowed,hans⟩ := h (view v') hworld
    refine ⟨fun _ => hallowed,fun ans v'' hanswer => ?_⟩
    obtain ⟨hanswered,hG''⟩ := hanswer hG'
    exact ih ans (hans ans (view v'') hanswered) hG''

/-- A single call made where `P` holds, for an assertion that drift keeps. -/
theorem meets_request {op : Op} {P : W → Prop} {Q : Answer op → W → Prop} (hw : P w)
    (hdrift : ∀ w w', P w → C.drift w w' → P w')
    (hop : ∀ w, P w → C.allowed w op ∧ ∀ ans w', C.answers w op ans w' → Q ans w') :
    (request op : Program Op Answer (Answer op)).Meets C Q w := by
  intro w' hd
  exact hop w' (hdrift w w' hw hd)

theorem Every.mono {U U' : Op → Prop} {R R' : α → Prop} (h : p.Every U R) (hU : ∀ op, U op → U' op)
    (hR : ∀ a, R a → R' a) : p.Every U' R' := by
  induction p with
  | ret a => exact hR a h
  | call op next ih => exact ⟨hU op h.1,fun ans => ih ans (h.2 ans)⟩

theorem Every.bind {U : Op → Prop} {R : α → Prop} {R' : β → Prop} (hp : p.Every U R)
    (hf : ∀ a, R a → (f a).Every U R') : (p >>= f).Every U R' := by
  induction p with
  | ret a => exact hf a hp
  | call op next ih => exact ⟨hp.1,fun ans => ih ans (hp.2 ans)⟩

theorem Every.request {U : Op → Prop} {op : Op} (h : U op) :
    (request op : Program Op Answer (Answer op)).Uses U :=
  ⟨h,fun _ => trivial⟩

theorem Every.pure {U : Op → Prop} {R : α → Prop} {a : α} (h : R a) :
    (Pure.pure a : Program Op Answer α).Every U R :=
  h

theorem Uses.bind {U : Op → Prop} (hp : p.Uses U) (hf : ∀ a, (f a).Uses U) : (p >>= f).Uses U :=
  Every.bind hp (fun a _ => hf a)

/-- What drift and the calls of the program keep holds when it returns. -/
theorem Every.meets {U : Op → Prop} {R : α → Prop} {P : W → Prop} (h : p.Every U R) (hw : P w)
    (hdrift : ∀ w w', P w → C.drift w w' → P w')
    (hop : ∀ w op, P w → U op → C.allowed w op ∧ ∀ ans w', C.answers w op ans w' → P w') :
    p.Meets C (fun a w => R a ∧ P w) w := by
  induction p generalizing w with
  | ret a => exact ⟨h,hw⟩
  | call op next ih =>
    intro w' hd
    obtain ⟨hallowed,hans⟩ := hop w' op (hdrift w w' hw hd) h.1
    exact ⟨hallowed,fun ans w'' ha => ih ans (h.2 ans) (hans ans w'' ha)⟩

/-- Drift before a program does not matter when it is transitive and keeps what comes after. -/
theorem Meets.drift {Q : α → W → Prop} {w' : W} (h : p.Meets C Q w) (hw : C.drift w w')
    (htrans : ∀ a b c, C.drift a b → C.drift b c → C.drift a c)
    (hQ : ∀ a w w', Q a w → C.drift w w' → Q a w') : p.Meets C Q w' := by
  cases p with
  | ret a => exact hQ a w w' h hw
  | call op next => exact fun w'' hd => h w'' (htrans w w' w'' hw hd)

end Rules

/-- Visiting the elements of a list one after another. -/
def forEach (body : ι → Program Op Answer Unit) : List ι → Program Op Answer Unit
  | [] => .ret ()
  | x :: xs => do
    body x
    forEach body xs

theorem Uses.forEach {U : Op → Prop} {body : ι → Program Op Answer Unit} {l : List ι}
    (h : ∀ x ∈ l, (body x).Uses U) : (Program.forEach body l).Uses U := by
  induction l with
  | nil => trivial
  | cons x xs ih =>
    apply Uses.bind (h x List.mem_cons_self)
    intro _
    exact ih (fun y hy => h y (List.mem_cons_of_mem _ hy))

/-- A loop whose every round keeps `I`. -/
theorem Meets.forEach {C : Contract Op Answer W} {body : ι → Program Op Answer Unit} {l : List ι}
    {I : W → Prop} {w : W} (hbody : ∀ x ∈ l, ∀ w, I w → (body x).Meets C (fun _ => I) w) (h : I w) :
    (Program.forEach body l).Meets C (fun _ => I) w := by
  induction l generalizing w with
  | nil => exact h
  | cons x xs ih =>
    unfold Program.forEach
    rw [meets_bind]
    exact (hbody x List.mem_cons_self w h).mono fun _ w hw =>
      ih (fun y hy => hbody y (List.mem_cons_of_mem _ hy)) hw

/-- Collecting the results of a program over a list. -/
def forList (body : ι → Program Op Answer α) : List ι → Program Op Answer (List α)
  | [] => .ret []
  | x :: xs => do
    let a ← body x
    let rest ← forList body xs
    pure (a :: rest)

theorem Uses.forList {U : Op → Prop} {body : ι → Program Op Answer α} {l : List ι}
    (h : ∀ x ∈ l, (body x).Uses U) : (Program.forList body l).Uses U := by
  induction l with
  | nil => trivial
  | cons x xs ih =>
    apply Uses.bind (h x List.mem_cons_self)
    intro a
    exact Uses.bind (ih (fun y hy => h y (List.mem_cons_of_mem _ hy))) (fun _ => trivial)

/-- Collecting results of which each is in relation to its element. -/
theorem Meets.forList_forall₂ {C : Contract Op Answer W} {body : ι → Program Op Answer α} {l : List ι}
    {I : W → Prop} {R : ι → α → Prop} {w : W}
    (hbody : ∀ x ∈ l, ∀ w, I w → (body x).Meets C (fun a w => R x a ∧ I w) w) (h : I w) :
    (Program.forList body l).Meets C (fun as w => List.Forall₂ R l as ∧ I w) w := by
  induction l generalizing w with
  | nil => exact ⟨.nil,h⟩
  | cons x xs ih =>
    unfold Program.forList
    rw [meets_bind]
    refine (hbody x List.mem_cons_self w h).mono ?_
    rintro a w ⟨ha,hw⟩
    rw [meets_bind]
    refine (ih (fun y hy => hbody y (List.mem_cons_of_mem _ hy)) hw).mono ?_
    rintro as w ⟨has,hw⟩
    exact ⟨.cons ha has,hw⟩

/-- Collecting results of which each satisfies `R`, with rounds that keep `I`. -/
theorem Meets.forList {C : Contract Op Answer W} {body : ι → Program Op Answer α} {l : List ι}
    {I : W → Prop} {R : α → Prop} {w : W}
    (hbody : ∀ x ∈ l, ∀ w, I w → (body x).Meets C (fun a w => R a ∧ I w) w) (h : I w) :
    (Program.forList body l).Meets C (fun as w => (as.length = l.length ∧ ∀ a ∈ as, R a) ∧ I w) w := by
  refine (Meets.forList_forall₂ (R := fun _ => R) hbody h).mono ?_
  rintro as w ⟨has,hw⟩
  have hboth : List.Forall₂ (fun a _ => R a ∧ True) as l := List.Forall₂.flip (has.imp fun _ _ ha => ⟨ha,trivial⟩)
  exact ⟨⟨has.length_eq.symm,((List.forall₂_and_left as l).mp hboth).1⟩,hw⟩

/-- Running a program against one way to answer its calls. -/
def run (answer : W → (op : Op) → Answer op × W) : Program Op Answer α → W → α × W
  | .ret a, w => (a,w)
  | .call op next, w => (next (answer w op).1).run answer (answer w op).2

theorem run_bind (answer : W → (op : Op) → Answer op × W) (p : Program Op Answer α) (f : α → Program Op Answer β) (w : W) :
    (p >>= f).run answer w = (f (p.run answer w).1).run answer (p.run answer w).2 := by
  induction p generalizing w with
  | ret a => rfl
  | call op next ih => exact ih _ _

theorem Meets.run {C : Contract Op Answer W} {p : Program Op Answer α} {Q : α → W → Prop} {w : W}
    (h : p.Meets C Q w) (answer : W → (op : Op) → Answer op × W) (hdrift : ∀ w, C.drift w w)
    (hanswer : ∀ w op, C.answers w op (answer w op).1 (answer w op).2) :
    Q (p.run answer w).1 (p.run answer w).2 := by
  induction p generalizing w with
  | ret a => exact h
  | call op next ih =>
    obtain ⟨-,hans⟩ := h w (hdrift w)
    exact ih _ (hans _ _ (hanswer w op))

end Program

/-- A program with a state of type `σ` that may exit early with an `ε`. -/
def Routine (Op : Type) (Answer : Op → Type) (σ ε α : Type) : Type :=
  σ → Program Op Answer (Except ε α × σ)

namespace Routine

protected def bind (m : Routine Op Answer σ ε α) (f : α → Routine Op Answer σ ε β) :
    Routine Op Answer σ ε β :=
  fun s => do
    match ← m s with
    | (.ok a,s) => f a s
    | (.error e,s) => pure (.error e,s)

instance : Monad (Routine Op Answer σ ε) where
  pure a := fun s => pure (.ok a,s)
  bind := .bind

instance : MonadLift (Program Op Answer) (Routine Op Answer σ ε) where
  monadLift p := fun s => do
    let a ← p
    pure (.ok a,s)

def get : Routine Op Answer σ ε σ := fun s => pure (.ok s,s)

def modify (f : σ → σ) : Routine Op Answer σ ε Unit := fun s => pure (.ok (),f s)

/-- Leaving the routine early. -/
def exit (e : ε) : Routine Op Answer σ ε α := fun s => pure (.error e,s)

/-- The outcome of a routine as a value. -/
def attempt (m : Routine Op Answer σ ε' α) : Routine Op Answer σ ε (Except ε' α) :=
  fun s => do
    let (r,s) ← m s
    pure (.ok r,s)

def forEach (body : ι → Routine Op Answer σ ε Unit) : List ι → Routine Op Answer σ ε Unit
  | [] => pure ()
  | x :: xs => do
    body x
    forEach body xs

/-- `Program.Meets` for a routine started in the state `s`. -/
def Meets (C : Contract Op Answer W) (m : Routine Op Answer σ ε α)
    (Q : Except ε α → σ → W → Prop) (s : σ) (w : W) : Prop :=
  (m s).Meets C (fun r => Q r.1 r.2) w

section Rules
variable {C : Contract Op Answer W} {m : Routine Op Answer σ ε α} {f : α → Routine Op Answer σ ε β}
  {s : σ} {w : W}

theorem Meets.mono {Q Q' : Except ε α → σ → W → Prop} (h : m.Meets C Q s w)
    (hQ : ∀ r s w, Q r s w → Q' r s w) : m.Meets C Q' s w :=
  Program.Meets.mono h (fun r => hQ r.1 r.2)

@[simp] theorem meets_pure {a : α} {Q : Except ε α → σ → W → Prop} :
    (pure a : Routine Op Answer σ ε α).Meets C Q s w ↔ Q (.ok a) s w :=
  Iff.rfl

@[simp] theorem meets_get {Q : Except ε σ → σ → W → Prop} :
    (get : Routine Op Answer σ ε σ).Meets C Q s w ↔ Q (.ok s) s w :=
  Iff.rfl

@[simp] theorem meets_modify {g : σ → σ} {Q : Except ε Unit → σ → W → Prop} :
    (modify g : Routine Op Answer σ ε Unit).Meets C Q s w ↔ Q (.ok ()) (g s) w :=
  Iff.rfl

@[simp] theorem meets_exit {e : ε} {Q : Except ε α → σ → W → Prop} :
    (exit e : Routine Op Answer σ ε α).Meets C Q s w ↔ Q (.error e) s w :=
  Iff.rfl

theorem meets_bind {Q : Except ε β → σ → W → Prop} : (m >>= f).Meets C Q s w ↔
    m.Meets C (fun r s w => match r with
      | .ok a => (f a).Meets C Q s w
      | .error e => Q (.error e) s w) s w := by
  change (m s >>= _).Meets C _ w ↔ (m s).Meets C _ w
  rw [Program.meets_bind]
  constructor
  · intro h
    refine h.mono ?_
    rintro ⟨r,t⟩ v hv
    cases r with
    | ok a => exact hv
    | error e => exact hv
  · intro h
    refine h.mono ?_
    rintro ⟨r,t⟩ v hv
    cases r with
    | ok a => exact hv
    | error e => exact hv

@[simp] theorem meets_lift {p : Program Op Answer α} {Q : Except ε α → σ → W → Prop} :
    (liftM p : Routine Op Answer σ ε α).Meets C Q s w ↔ p.Meets C (fun a => Q (.ok a) s) w :=
  Program.meets_bind

@[simp] theorem meets_attempt {m : Routine Op Answer σ ε' α} {Q : Except ε (Except ε' α) → σ → W → Prop} :
    (attempt m : Routine Op Answer σ ε (Except ε' α)).Meets C Q s w ↔
      m.Meets C (fun r => Q (.ok r)) s w :=
  Program.meets_bind

/-- A loop whose every round keeps `I`, or leaves the routine with `Q`. -/
theorem Meets.forEach {body : ι → Routine Op Answer σ ε Unit} {l : List ι} {I : σ → W → Prop}
    {Q : Except ε Unit → σ → W → Prop} (hbody : ∀ x ∈ l, ∀ s w, I s w →
      (body x).Meets C (fun r s w => match r with
        | .ok _ => I s w
        | .error e => Q (.error e) s w) s w)
    (hdone : ∀ s w, I s w → Q (.ok ()) s w) (h : I s w) : (Routine.forEach body l).Meets C Q s w := by
  induction l generalizing s w with
  | nil => exact hdone s w h
  | cons x xs ih =>
    unfold Routine.forEach
    rw [meets_bind]
    refine (hbody x List.mem_cons_self s w h).mono ?_
    intro r s w hr
    cases r with
    | ok _ => exact ih (fun y hy => hbody y (List.mem_cons_of_mem _ hy)) hr
    | error e => exact hr

end Rules

/-- Whatever the answers are, every call satisfies `U` and the state moves along `R`. -/
def Keeps (U : Op → Prop) (R : σ → σ → Prop) (m : Routine Op Answer σ ε α) : Prop :=
  ∀ s, (m s).Every U (fun r => R s r.2)

section Keeps
variable {U : Op → Prop} {R : σ → σ → Prop} {m : Routine Op Answer σ ε α} {f : α → Routine Op Answer σ ε β}

theorem Keeps.pure (hR : ∀ s, R s s) (a : α) : (Pure.pure a : Routine Op Answer σ ε α).Keeps U R := hR

theorem Keeps.get (hR : ∀ s, R s s) : (Routine.get : Routine Op Answer σ ε σ).Keeps U R := hR

theorem Keeps.exit (hR : ∀ s, R s s) (e : ε) : (Routine.exit e : Routine Op Answer σ ε α).Keeps U R := hR

theorem Keeps.modify {g : σ → σ} (h : ∀ s, R s (g s)) :
    (Routine.modify g : Routine Op Answer σ ε Unit).Keeps U R :=
  h

theorem Keeps.lift (hR : ∀ s, R s s) {p : Program Op Answer α} (h : p.Uses U) :
    (liftM p : Routine Op Answer σ ε α).Keeps U R :=
  fun s => Program.Every.bind h (fun _ _ => hR s)

theorem Keeps.attempt {m : Routine Op Answer σ ε' α} (h : m.Keeps U R) :
    (attempt m : Routine Op Answer σ ε (Except ε' α)).Keeps U R :=
  fun s => Program.Every.bind (h s) (fun _ hr => hr)

theorem Keeps.bind (htrans : ∀ a b c, R a b → R b c → R a c) (hm : m.Keeps U R)
    (hf : ∀ a, (f a).Keeps U R) : (m >>= f).Keeps U R := by
  intro s
  apply Program.Every.bind (hm s)
  rintro ⟨r,t⟩ hr
  cases r with
  | ok a => exact (hf a t).mono (fun _ h => h) (fun _ h => htrans s t _ hr h)
  | error e => exact hr

theorem Keeps.forEach (hR : ∀ s, R s s) (htrans : ∀ a b c, R a b → R b c → R a c)
    {body : ι → Routine Op Answer σ ε Unit} {l : List ι} (h : ∀ x ∈ l, (body x).Keeps U R) :
    (Routine.forEach body l).Keeps U R := by
  induction l with
  | nil => exact Keeps.pure hR ()
  | cons x xs ih =>
    apply Keeps.bind htrans (h x List.mem_cons_self)
    intro _
    exact ih (fun y hy => h y (List.mem_cons_of_mem _ hy))

/-- A routine that keeps an assertion about the world. -/
theorem Keeps.meets {C : Contract Op Answer W} {P : W → Prop} {s : σ} {w : W} (h : m.Keeps U R) (hw : P w)
    (hdrift : ∀ w w', P w → C.drift w w' → P w')
    (hop : ∀ w op, P w → U op → C.allowed w op ∧ ∀ ans w', C.answers w op ans w' → P w') :
    m.Meets C (fun _ s' w => R s s' ∧ P w) s w :=
  Program.Every.meets (h s) hw hdrift hop

end Keeps
end Routine
end KubeAir.Transition
