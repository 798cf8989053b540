import Mathlib.Data.List.Basic

/-! # Reading lines and words

Lines are cut behind every newline, before anything is known about the text in them. A reader
that stops at the first line which is no text gives the texts of those before it. The words of a
line are what blanks leave of it.
-/
namespace KubeAir.Wire

/-- Every line with the newline that ends it; the last one may have none. -/
def rawLines : List UInt8 → List (List UInt8)
  | [] => []
  | b :: rest =>
    if b = 10 then [b] :: rawLines rest
    else
      match rawLines rest with
      | [] => [[b]]
      | line :: lines => (b :: line) :: lines

section Inclusive
variable {α : Type*} [DecidableEq α] {sep : α}

/-- Parts with the separator that ends them; the last one may have none. -/
def splitInclusive (sep : α) : List α → List (List α)
  | [] => []
  | a :: rest =>
    if a = sep then [a] :: splitInclusive sep rest
    else
      match splitInclusive sep rest with
      | [] => [[a]]
      | part :: parts => (a :: part) :: parts

theorem splitInclusive_part {part : List α} (h : sep ∉ part) (rest : List α) :
    splitInclusive sep (part ++ sep :: rest) = (part ++ [sep]) :: splitInclusive sep rest := by
  induction part with
  | nil => exact if_pos rfl
  | cons a part ih =>
    rw [List.mem_cons,not_or] at h
    obtain ⟨ha,hpart⟩ := h
    rw [List.cons_append,splitInclusive,if_neg (Ne.symm ha),ih hpart]
    rfl

theorem splitInclusive_parts {parts : List (List α)} (h : ∀ part ∈ parts, sep ∉ part) :
    splitInclusive sep (parts.flatMap (fun part => part ++ [sep])) = parts.map (fun part => part ++ [sep]) := by
  induction parts with
  | nil => rfl
  | cons part parts ih =>
    obtain ⟨hpart,hparts⟩ := List.forall_mem_cons.mp h
    rw [List.flatMap_cons,List.append_assoc,List.singleton_append,splitInclusive_part hpart,ih hparts,List.map_cons]

end Inclusive

theorem rawLines_eq (bytes : List UInt8) : rawLines bytes = splitInclusive 10 bytes := by
  induction bytes with
  | nil => rfl
  | cons b rest ih =>
    rw [rawLines,splitInclusive,ih]
    cases splitInclusive 10 rest with
    | nil => rfl
    | cons part parts => rfl

theorem rawLines_lines {lines : List (List UInt8)} (h : ∀ line ∈ lines, 10 ∉ line) :
    rawLines (lines.flatMap (fun line => line ++ [10])) = lines.map (fun line => line ++ [10]) := by
  rw [rawLines_eq]
  exact splitInclusive_parts h

section MapWhile
variable {α β γ : Type*}

/-- The results up to the first element that has none. -/
def mapWhile (f : α → Option β) : List α → List β
  | [] => []
  | a :: l =>
    match f a with
    | some b => b :: mapWhile f l
    | none => []

theorem mapWhile_cons_of_some {f : α → Option β} {a : α} {b : β} (h : f a = some b) (l : List α) :
    mapWhile f (a :: l) = b :: mapWhile f l := by
  rw [mapWhile,h]

theorem mapWhile_cons_of_none {f : α → Option β} {a : α} (h : f a = none) (l : List α) : mapWhile f (a :: l) = [] := by
  rw [mapWhile,h]

theorem mem_mapWhile {f : α → Option β} {l : List α} {b : β} (h : b ∈ mapWhile f l) : ∃ a ∈ l, f a = some b := by
  induction l with
  | nil => cases h
  | cons a l ih =>
    cases ha : f a with
    | none =>
      rw [mapWhile_cons_of_none ha] at h
      cases h
    | some c =>
      rw [mapWhile_cons_of_some ha] at h
      rcases List.mem_cons.mp h with rfl | h
      · exact ⟨a,List.mem_cons_self,ha⟩
      · obtain ⟨a',hmem,ha'⟩ := ih h
        exact ⟨a',List.mem_cons_of_mem _ hmem,ha'⟩

theorem mapWhile_map (f : β → Option γ) (g : α → β) (l : List α) : mapWhile f (l.map g) = mapWhile (f ∘ g) l := by
  induction l with
  | nil => rfl
  | cons a l ih =>
    rw [List.map_cons]
    cases h : f (g a) with
    | none => rw [mapWhile_cons_of_none h,mapWhile_cons_of_none (f := f ∘ g) h]
    | some c => rw [mapWhile_cons_of_some h,mapWhile_cons_of_some (f := f ∘ g) h,ih]

/-- Results that are all there. -/
theorem mapWhile_of_forall {f : α → Option β} {g : α → β} {l : List α} (h : ∀ a ∈ l, f a = some (g a)) :
    mapWhile f l = l.map g := by
  induction l with
  | nil => rfl
  | cons a l ih =>
    obtain ⟨ha,hl⟩ := List.forall_mem_cons.mp h
    rw [mapWhile_cons_of_some ha,ih hl,List.map_cons]

/-- A second function that has a result wherever the first has one. -/
theorem filterMap_mapWhile {f : α → Option β} {g : β → Option γ} {k : α → Option γ} (hnone : ∀ a, f a = none → k a = none)
    (hsome : ∀ a b, f a = some b → ∃ c, g b = some c ∧ k a = some c) (l : List α) : (mapWhile f l).filterMap g = mapWhile k l := by
  induction l with
  | nil => rfl
  | cons a l ih =>
    cases h : f a with
    | none =>
      rw [mapWhile_cons_of_none h,mapWhile_cons_of_none (hnone a h)]
      rfl
    | some b =>
      obtain ⟨c,hg,hk⟩ := hsome a b h
      rw [mapWhile_cons_of_some h,mapWhile_cons_of_some hk,List.filterMap_cons_some hg,ih]

end MapWhile

section Words
variable {α : Type*} {blank : α → Bool}

/-- The words between blanks. -/
def words (blank : α → Bool) (s : List α) : List (List α) := (s.splitOnP blank).filter (fun word => !word.isEmpty)

theorem not_blank_of_mem_splitOnP {s part : List α} (h : part ∈ s.splitOnP blank) : ∀ a ∈ part, blank a = false := by
  induction s generalizing part with
  | nil =>
    rw [List.splitOnP_nil,List.mem_singleton] at h
    simp [h]
  | cons b s ih =>
    obtain ⟨first,parts,hparts⟩ := List.exists_cons_of_ne_nil (List.splitOnP_ne_nil blank s)
    rw [hparts] at ih
    rw [List.splitOnP_cons_eq_if_modifyHead,hparts] at h
    split at h
    · rcases List.mem_cons.mp h with rfl | h
      · simp
      · exact ih h
    · next hb =>
      rcases List.mem_cons.mp h with rfl | h
      · exact List.forall_mem_cons.mpr ⟨by simpa using hb,ih List.mem_cons_self⟩
      · exact ih (List.mem_cons_of_mem _ h)

theorem mem_of_mem_splitOnP {s part : List α} {a : α} (h : part ∈ s.splitOnP blank) (ha : a ∈ part) : a ∈ s := by
  induction s generalizing part with
  | nil =>
    rw [List.splitOnP_nil,List.mem_singleton] at h
    rwa [h] at ha
  | cons b s ih =>
    obtain ⟨first,parts,hparts⟩ := List.exists_cons_of_ne_nil (List.splitOnP_ne_nil blank s)
    rw [hparts] at ih
    rw [List.splitOnP_cons_eq_if_modifyHead,hparts] at h
    split at h
    · rcases List.mem_cons.mp h with rfl | h
      · cases ha
      · exact List.mem_cons_of_mem _ (ih h ha)
    · rcases List.mem_cons.mp h with rfl | h
      · rcases List.mem_cons.mp ha with rfl | ha
        · exact List.mem_cons_self
        · exact List.mem_cons_of_mem _ (ih List.mem_cons_self ha)
      · exact List.mem_cons_of_mem _ (ih (List.mem_cons_of_mem _ h) ha)

/-- A word is not empty, and no blank is in it. -/
theorem mem_words {s word : List α} (h : word ∈ words blank s) : word ≠ [] ∧ ∀ a ∈ word, blank a = false := by
  obtain ⟨hpart,hne⟩ := List.mem_filter.mp h
  exact ⟨by simpa using hne,not_blank_of_mem_splitOnP hpart⟩

theorem mem_of_mem_words {s word : List α} {a : α} (h : word ∈ words blank s) (ha : a ∈ word) : a ∈ s :=
  mem_of_mem_splitOnP (List.mem_filter.mp h).1 ha

/-- What stands before the first blank is the first word. -/
theorem words_append_cons {word : List α} {a : α} (hne : word ≠ []) (h : ∀ b ∈ word, blank b = false) (ha : blank a = true)
    (s : List α) : words blank (word ++ a :: s) = word :: words blank s := by
  have hword : (!word.isEmpty) = true := by simpa using hne
  unfold words
  rw [List.splitOnP_append_cons_of_forall_mem h a ha,List.filter_cons,if_pos hword]

/-- Words with blanks between them. -/
theorem words_intercalate {sep : α} (hsep : blank sep = true) {ws : List (List α)}
    (h : ∀ w ∈ ws, w ≠ [] ∧ ∀ a ∈ w, blank a = false) : words blank ([sep].intercalate ws) = ws := by
  induction ws with
  | nil => rfl
  | cons w ws ih =>
    obtain ⟨⟨hne,hw⟩,hws⟩ := List.forall_mem_cons.mp h
    cases ws with
    | nil =>
      have hword : (!w.isEmpty) = true := by simpa using hne
      rw [List.intercalate_singleton,words,List.splitOnP_eq_singleton hw,List.filter_cons,if_pos hword,List.filter_nil]
    | cons w' ws =>
      rw [List.intercalate_cons_cons,List.append_assoc,List.singleton_append,words_append_cons hne hw hsep,ih hws]

end Words

end KubeAir.Wire
