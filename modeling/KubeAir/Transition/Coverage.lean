import KubeAir.Transition.Program

/-! # The calls a program can make

`Uses` says that no execution of a program makes a call outside of a set. The lemmas here
take it apart exactly, along the results that a program can return: a loop that stops at the
first failure makes the calls of an element only if all elements before it can succeed.
-/
namespace KubeAir.Transition
variable {Op : Type} {Answer : Op → Type} {α β ε ι : Type}

namespace Program

/-- Some answers lead to the result `b`. -/
def Returns : Program Op Answer α → α → Prop
  | .ret a, b => a = b
  | .call _ next, b => ∃ ans, (next ans).Returns b

/-- Going on only after a success. -/
def andThen (p : Program Op Answer (Except ε Unit)) (q : Program Op Answer (Except ε β)) : Program Op Answer (Except ε β) := do
  match ← p with
  | .ok () => q
  | .error e => pure (.error e)

/-- Visiting the elements of a list until one of them fails. -/
def forUntil (body : ι → Program Op Answer (Except ε Unit)) : List ι → Program Op Answer (Except ε Unit)
  | [] => .ret (.ok ())
  | x :: xs => andThen (body x) (forUntil body xs)

section Rules
variable {U : Op → Prop} {p : Program Op Answer α} {f : α → Program Op Answer β}

theorem uses_ret {a : α} : (ret a : Program Op Answer α).Uses U ↔ True := Iff.rfl

@[simp] theorem uses_pure {a : α} : (pure a : Program Op Answer α).Uses U ↔ True := Iff.rfl

@[simp] theorem uses_request {op : Op} : (request op : Program Op Answer (Answer op)).Uses U ↔ U op := by
  constructor
  · intro h
    exact h.1
  · intro h
    exact ⟨h,fun _ => trivial⟩

@[simp] theorem returns_pure {a b : α} : (pure a : Program Op Answer α).Returns b ↔ a = b := Iff.rfl

@[simp] theorem returns_request {op : Op} (ans : Answer op) :
    (request op : Program Op Answer (Answer op)).Returns ans ↔ True :=
  ⟨fun _ => trivial,fun _ => ⟨ans,rfl⟩⟩

theorem uses_bind : (p >>= f).Uses U ↔ p.Uses U ∧ ∀ a, p.Returns a → (f a).Uses U := by
  induction p with
  | ret a =>
    constructor
    · intro h
      refine ⟨trivial,?_⟩
      rintro b rfl
      exact h
    · intro h
      exact h.2 a rfl
  | call op next ih =>
    constructor
    · rintro ⟨hop,hans⟩
      refine ⟨⟨hop,fun ans => ((ih ans).mp (hans ans)).1⟩,?_⟩
      rintro a ⟨ans,ha⟩
      exact ((ih ans).mp (hans ans)).2 a ha
    · rintro ⟨⟨hop,hans⟩,hf⟩
      exact ⟨hop,fun ans => (ih ans).mpr ⟨hans ans,fun a ha => hf a ⟨ans,ha⟩⟩⟩

theorem returns_bind {b : β} : (p >>= f).Returns b ↔ ∃ a, p.Returns a ∧ (f a).Returns b := by
  induction p with
  | ret a =>
    constructor
    · intro h
      exact ⟨a,rfl,h⟩
    · rintro ⟨c,rfl,h⟩
      exact h
  | call op next ih =>
    constructor
    · rintro ⟨ans,h⟩
      obtain ⟨a,ha,hb⟩ := (ih ans).mp h
      exact ⟨a,⟨ans,ha⟩,hb⟩
    · rintro ⟨a,⟨ans,ha⟩,hb⟩
      exact ⟨ans,(ih ans).mpr ⟨a,ha,hb⟩⟩

/-- A program returns when every call can be answered. -/
theorem exists_returns (hanswer : ∀ op, Nonempty (Answer op)) (p : Program Op Answer α) : ∃ a, p.Returns a := by
  induction p with
  | ret a => exact ⟨a,rfl⟩
  | call op next ih =>
    obtain ⟨ans⟩ := hanswer op
    obtain ⟨a,ha⟩ := ih ans
    exact ⟨a,ans,ha⟩

/-- A program whose result does not matter to what follows. -/
theorem uses_bind_of_forall (hanswer : ∀ op, Nonempty (Answer op)) {q : Program Op Answer β} :
    (p >>= fun _ => q).Uses U ↔ p.Uses U ∧ q.Uses U := by
  rw [uses_bind]
  constructor
  · rintro ⟨hp,hq⟩
    obtain ⟨a,ha⟩ := exists_returns hanswer p
    exact ⟨hp,hq a ha⟩
  · rintro ⟨hp,hq⟩
    exact ⟨hp,fun _ _ => hq⟩

/-- A call whose answer does not matter to what follows. -/
theorem uses_request_bind {op : Op} {g : Answer op → Program Op Answer β} :
    (request op >>= g).Uses U ↔ U op ∧ ∀ ans, (g ans).Uses U := by
  rw [uses_bind,uses_request]
  simp

theorem uses_andThen {p : Program Op Answer (Except ε Unit)} {q : Program Op Answer (Except ε β)} :
    (andThen p q).Uses U ↔ p.Uses U ∧ (p.Returns (.ok ()) → q.Uses U) := by
  rw [andThen,uses_bind]
  constructor
  · rintro ⟨hp,hq⟩
    exact ⟨hp,fun h => hq (.ok ()) h⟩
  · rintro ⟨hp,hq⟩
    refine ⟨hp,?_⟩
    intro r hr
    cases r with
    | ok u => exact hq hr
    | error e => trivial

theorem returns_ok_andThen {p : Program Op Answer (Except ε Unit)} {q : Program Op Answer (Except ε β)} {b : β} :
    (andThen p q).Returns (.ok b) ↔ p.Returns (.ok ()) ∧ q.Returns (.ok b) := by
  rw [andThen,returns_bind]
  constructor
  · rintro ⟨r,hr,h⟩
    cases r with
    | ok u => exact ⟨hr,h⟩
    | error e => cases h
  · rintro ⟨hp,hq⟩
    exact ⟨.ok (),hp,hq⟩

theorem bind_bind {γ : Type} (p : Program Op Answer α) (f : α → Program Op Answer β) (g : β → Program Op Answer γ) :
    (p >>= f) >>= g = p >>= fun a => f a >>= g := by
  induction p with
  | ret a => rfl
  | call op next ih =>
    show call op (fun ans => (next ans >>= f) >>= g) = call op (fun ans => next ans >>= fun a => f a >>= g)
    congr 1
    funext ans
    exact ih ans

theorem andThen_andThen {p q : Program Op Answer (Except ε Unit)} {r : Program Op Answer (Except ε β)} :
    andThen (andThen p q) r = andThen p (andThen q r) := by
  unfold andThen
  rw [bind_bind]
  congr 1
  funext x
  cases x with
  | ok u => rfl
  | error e => rfl

end Rules

section Loops
variable {U : Op → Prop} {l m : List ι}

theorem uses_forEach (hanswer : ∀ op, Nonempty (Answer op)) {body : ι → Program Op Answer Unit} :
    (Program.forEach body l).Uses U ↔ ∀ x ∈ l, (body x).Uses U := by
  induction l with
  | nil => simp [Program.forEach,uses_ret]
  | cons x l ih =>
    unfold Program.forEach
    rw [uses_bind_of_forall hanswer,ih,List.forall_mem_cons]

variable {body : ι → Program Op Answer (Except ε Unit)}

theorem returns_ok_forUntil : (forUntil body l).Returns (.ok ()) ↔ ∀ x ∈ l, (body x).Returns (.ok ()) := by
  induction l with
  | nil =>
    constructor
    · intro _ x hx
      cases hx
    · intro _
      rfl
  | cons x l ih => rw [forUntil,returns_ok_andThen,ih,List.forall_mem_cons]

theorem uses_forUntil_cons {x : ι} : (forUntil body (x :: l)).Uses U ↔
    (body x).Uses U ∧ ((body x).Returns (.ok ()) → (forUntil body l).Uses U) := by
  rw [forUntil,uses_andThen]

/-- An element is visited exactly if all elements before it can succeed. -/
theorem uses_forUntil : (forUntil body l).Uses U ↔ ∀ pre x post, l = pre ++ x :: post →
    (∀ y ∈ pre, (body y).Returns (.ok ())) → (body x).Uses U := by
  induction l with
  | nil =>
    constructor
    · intro _ pre x post h
      exact absurd h.symm (by simp)
    · intro _
      trivial
  | cons y l ih =>
    rw [uses_forUntil_cons,ih]
    constructor
    · rintro ⟨hy,hl⟩ pre x post he hpre
      cases pre with
      | nil =>
        obtain ⟨rfl,-⟩ := List.cons.inj he
        exact hy
      | cons z pre =>
        obtain ⟨rfl,rfl⟩ := List.cons.inj he
        exact hl (hpre y List.mem_cons_self) pre x post rfl (fun w hw => hpre w (List.mem_cons_of_mem y hw))
    · intro h
      refine ⟨h [] y l rfl (fun z hz => nomatch hz),?_⟩
      intro hy pre x post he hpre
      refine h (y :: pre) x post (by rw [he,List.cons_append]) ?_
      exact List.forall_mem_cons.mpr ⟨hy,hpre⟩

/-- Where every element can succeed all of them are visited. -/
theorem uses_forUntil_of_returns (hok : ∀ x ∈ l, (body x).Returns (.ok ())) :
    (forUntil body l).Uses U ↔ ∀ x ∈ l, (body x).Uses U := by
  induction l with
  | nil => simp [forUntil,uses_ret]
  | cons x l ih =>
    obtain ⟨hx,hl⟩ := List.forall_mem_cons.mp hok
    rw [uses_forUntil_cons,ih hl,List.forall_mem_cons]
    simp [hx]

/-- Two loops one after the other are one loop. -/
theorem forUntil_append : forUntil body (l ++ m) = andThen (forUntil body l) (forUntil body m) := by
  induction l with
  | nil => rfl
  | cons x l ih => rw [List.cons_append,forUntil,forUntil,andThen_andThen,ih]

end Loops
end Program
end KubeAir.Transition
