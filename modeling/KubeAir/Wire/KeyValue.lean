import Mathlib.Data.List.Basic
import Mathlib.Data.List.Infix

/-! # Lines `key="value"`

The text of such lines one after the other, nothing escaped. The end of a value is where a quote
is before a newline, unless the value contains these itself.
-/
namespace KubeAir.Wire.KeyValue
variable {k k' v v' r r' : List Char} {ps qs : List (List Char × List Char)}

def line (p : List Char × List Char) : List Char := p.1 ++ '=' :: '"' :: (p.2 ++ ['"','\n'])

def text (ps : List (List Char × List Char)) : List Char := ps.flatMap line

/-- What ends one line and begins the next one. -/
def joint (k : List Char) : List Char := '"' :: '\n' :: (k ++ ['=','"'])

@[simp] theorem text_nil : text [] = [] := rfl

@[simp] theorem text_cons (p : List Char × List Char) : text (p :: ps) = line p ++ text ps := List.flatMap_cons

/-- Two lines are one whose value contains the joint. -/
theorem text_merge : text ((k,v ++ joint k' ++ v') :: ps) = text ((k,v) :: (k',v') :: ps) := by
  simp [line,joint]

/-- The first occurrence of a character splits a text in one way. -/
theorem append_cons_inj {c : Char} (hk : c ∉ k) (hk' : c ∉ k') (h : k ++ c :: r = k' ++ c :: r') : k = k' ∧ r = r' := by
  have hshort : ∀ {x s s' : List Char}, c ∉ x → c :: s = x ++ c :: s' → x = [] := by
    intro x s s' hx hs
    cases x with
    | nil => rfl
    | cons d x =>
      rw [List.cons_append,List.cons.injEq] at hs
      exact absurd (hs.1 ▸ List.mem_cons_self) hx
  rcases List.append_eq_append_iff.mp h with ⟨x,rfl,hx⟩ | ⟨x,rfl,hx⟩
  · obtain rfl := hshort (fun hc => hk' (List.mem_append_right k hc)) hx
    exact ⟨(List.append_nil k).symm,List.tail_eq_of_cons_eq hx⟩
  · obtain rfl := hshort (fun hc => hk (List.mem_append_right k' hc)) hx
    exact ⟨List.append_nil k',(List.tail_eq_of_cons_eq hx).symm⟩

/-- The key is read up to the first equals sign. -/
theorem line_append_inj (hk : '=' ∉ k) (hk' : '=' ∉ k') (h : line (k,v) ++ r = line (k',v') ++ r') :
    k = k' ∧ v ++ '"' :: '\n' :: r = v' ++ '"' :: '\n' :: r' := by
  simp only [line,List.append_assoc,List.cons_append,List.nil_append] at h
  obtain ⟨hkeys,htail⟩ := append_cons_inj hk hk' h
  exact ⟨hkeys,List.tail_eq_of_cons_eq htail⟩

/-- A value in which no quote is before a newline ends where the first one is. -/
theorem append_closing_inj (hv : ¬['"','\n'] <:+: v) (hv' : ¬['"','\n'] <:+: v')
    (h : v ++ '"' :: '\n' :: r = v' ++ '"' :: '\n' :: r') : v = v' ∧ r = r' := by
  have hshort : ∀ {w s s' : List Char}, ¬['"','\n'] <:+: w → '"' :: '\n' :: s = w ++ '"' :: '\n' :: s' → w = [] := by
    intro w s s' hw hs
    match w,hw,hs with
    | [],_,_ => rfl
    | [c],_,hs => simp at hs
    | c :: d :: w,hw,hs =>
      simp only [List.cons_append,List.cons.injEq] at hs
      obtain ⟨rfl,rfl,-⟩ := hs
      exact absurd ⟨[],w,rfl⟩ hw
  induction v generalizing v' with
  | nil =>
    obtain rfl := hshort hv' h
    simpa using h
  | cons c v ih =>
    cases v' with
    | nil => cases hshort hv h.symm
    | cons d v' =>
      simp only [List.cons_append,List.cons.injEq] at h
      obtain ⟨rfl,htail⟩ := h
      obtain ⟨rfl,hr⟩ := ih (fun hin => hv (List.infix_cons hin)) (fun hin => hv' (List.infix_cons hin)) htail
      exact ⟨rfl,hr⟩

theorem line_ne_nil (p : List Char × List Char) : line p ≠ [] := by
  simp [line]

/-- Keys without an equals sign and values without a quote before a newline can be read back. -/
theorem text_injective (hps : ∀ p ∈ ps, '=' ∉ p.1 ∧ ¬['"','\n'] <:+: p.2)
    (hqs : ∀ q ∈ qs, '=' ∉ q.1 ∧ ¬['"','\n'] <:+: q.2) (h : text ps = text qs) : ps = qs := by
  induction ps generalizing qs with
  | nil =>
    cases qs with
    | nil => rfl
    | cons q qs => exact absurd (List.append_eq_nil_iff.mp h.symm).1 (line_ne_nil q)
  | cons p ps ih =>
    cases qs with
    | nil => exact absurd (List.append_eq_nil_iff.mp h).1 (line_ne_nil p)
    | cons q qs =>
      obtain ⟨⟨hkp,hvp⟩,hps⟩ := List.forall_mem_cons.mp hps
      obtain ⟨⟨hkq,hvq⟩,hqs⟩ := List.forall_mem_cons.mp hqs
      obtain ⟨hkey,hrest⟩ := line_append_inj hkp hkq h
      obtain ⟨hvalue,htext⟩ := append_closing_inj hvp hvq hrest
      rw [ih hps hqs htext,Prod.ext hkey hvalue]

/-- A text that is not empty ends with the end of a value, and begins with a key. -/
theorem text_cons_eq (p : List Char × List Char) (ps : List (List Char × List Char)) :
    ∃ t, text (p :: ps) = p.1 ++ '=' :: '"' :: t ++ ['"','\n'] := by
  induction ps generalizing p with
  | nil => exact ⟨p.2,by simp [line]⟩
  | cons q ps ih =>
    obtain ⟨t,ht⟩ := ih q
    refine ⟨p.2 ++ '"' :: '\n' :: (q.1 ++ '=' :: '"' :: t),?_⟩
    rw [text_cons,ht]
    simp [line]

/-- Other lines with the text of a single one split its value at joints. -/
theorem text_eq_line (hk : '=' ∉ k) (hps : ∀ p ∈ ps, '=' ∉ p.1) (h : text ps = line (k,v)) :
    ps = [(k,v)] ∨ ∃ a p qs, ps = (k,a) :: p :: qs ∧ joint p.1 <:+: v := by
  cases ps with
  | nil => exact absurd h.symm (line_ne_nil _)
  | cons q ps =>
    obtain ⟨q1,q2⟩ := q
    have hq := (List.forall_mem_cons.mp hps).1
    rw [← List.append_nil (line (k,v)),text_cons] at h
    obtain ⟨rfl,hrest⟩ := line_append_inj hq hk h
    cases ps with
    | nil =>
      rw [text_nil] at hrest
      rw [List.append_cancel_right hrest]
      exact Or.inl rfl
    | cons p qs =>
      obtain ⟨t,ht⟩ := text_cons_eq p qs
      refine Or.inr ⟨q2,p,qs,rfl,q2,t,?_⟩
      rw [ht] at hrest
      have hsplit : (q2 ++ joint p.1 ++ t) ++ ['"','\n'] = v ++ ['"','\n'] := by
        rw [← hrest]
        simp [joint]
      exact List.append_cancel_right hsplit

end KubeAir.Wire.KeyValue
