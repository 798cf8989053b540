import KubeAir.Paths.Lexical
import Mathlib.Logic.Function.Basic

/-! # Disks

What is at a place, told by the names that lead there from the root, and what becomes of the
contents of files when files are written one after another and others are swept away.
-/
namespace KubeAir.Paths
variable {C : Type}

inductive DiskNode (C : Type)
  | file (contents : C)
  | dir
  /-- neither, a socket for example, or a link whose target is gone -/
  | other (dangling : Bool)

structure Disk (C : Type) where
  node : List String → Option (DiskNode C)
  parent : ∀ place name, (node (place ++ [name])).isSome → node place = some .dir

/-- The place that a path leads to from a working directory. -/
def Path.place (cwd : List String) (p : Path) : List String :=
  (Path.climb (if p.absolute then p.parts else cwd.map Part.name ++ p.parts)).2

/-- The path of what is below a directory, spelled with the path of the directory. -/
def Path.below (base : Path) (names : List String) : Path := ⟨base.absolute,base.parts ++ names.map Part.name⟩

theorem Path.place_below (cwd : List String) (base : Path) (names : List String) :
    (base.below names).place cwd = base.place cwd ++ names := by
  have hclimb : ∀ parts : List Part, (climb (parts ++ names.map Part.name)).2 = (climb parts).2 ++ names := by
    intro parts
    rw [climb_append,climb_names]
    simp only [Nat.sub_zero,List.take_length]
  unfold place below
  dsimp only
  split
  · exact hclimb base.parts
  · rw [← List.append_assoc,hclimb]

theorem Path.below_nil (base : Path) : base.below [] = base := by
  unfold below
  rw [List.map_nil,List.append_nil]

theorem Path.below_append (base : Path) (names names' : List String) :
    (base.below names).below names' = base.below (names ++ names') := by
  unfold below
  rw [List.map_append,List.append_assoc]

namespace Disk

/-- The contents of the file at a place, if there is one. -/
def contents (d : Disk C) (place : List String) : Option C :=
  match d.node place with
  | some (.file c) => some c
  | _ => none

theorem contents_eq_some {d : Disk C} {place : List String} {c : C} : d.contents place = some c ↔ d.node place = some (.file c) := by
  unfold contents
  constructor
  · intro h
    split at h
    · next heq => rw [heq,Option.some.inj h]
    · cases h
  · intro h
    rw [h]

/-- Nothing is below what is not there. -/
theorem node_append_eq_none {d : Disk C} {place : List String} (h : d.node place ≠ some .dir) {names : List String}
    (hne : names ≠ []) : d.node (place ++ names) = none := by
  induction names using List.reverseRecOn with
  | nil => exact absurd rfl hne
  | append_singleton names name ih =>
    by_contra hn
    have hparent := d.parent (place ++ names) name (by
      rw [List.append_assoc]
      exact Option.isSome_iff_ne_none.mpr hn)
    cases names with
    | nil => exact h (by rwa [List.append_nil] at hparent)
    | cons x xs =>
      rw [ih (List.cons_ne_nil x xs)] at hparent
      cases hparent

/-- One file, and the directories that lead to it. -/
def single (place : List String) (c : C) : Disk C where
  node p := if p = place then some (.file c) else if p <+: place then some .dir else none
  parent p name h := by
    have hbelow : p ++ [name] <+: place := by
      by_contra hno
      have hne : p ++ [name] ≠ place := fun he => hno (he ▸ List.prefix_rfl)
      rw [if_neg hne,if_neg hno] at h
      cases h
    have hp : p <+: place := (List.prefix_append p [name]).trans hbelow
    have hne : p ≠ place := by
      rintro rfl
      have hlength := hbelow.length_le
      rw [List.length_append,List.length_singleton] at hlength
      omega
    rw [if_neg hne,if_pos hp]

/-- A directory, and those that lead to it. -/
def dirs (place : List String) : Disk C where
  node p := if p <+: place then some .dir else none
  parent p name h := by
    have hbelow : p ++ [name] <+: place := by
      by_contra hno
      rw [if_neg hno] at h
      cases h
    rw [if_pos ((List.prefix_append p [name]).trans hbelow)]

/-- Without its only file a directory is empty. -/
theorem node_dirs (place : List String) (name : String) (c : C) :
    (dirs place : Disk C).node = Function.update (single (place ++ [name]) c).node (place ++ [name]) none := by
  funext p
  by_cases hp : p = place ++ [name]
  · have hno : ¬p <+: place := by
      intro hbelow
      have hlength := hbelow.length_le
      rw [hp,List.length_append,List.length_singleton] at hlength
      omega
    rw [hp,Function.update_self]
    exact if_neg (hp ▸ hno)
  · rw [Function.update_of_ne hp]
    simp [dirs,single,hp,List.prefix_concat_iff]

theorem contents_single (place : List String) (c : C) (p : List String) :
    (single place c).contents p = if p = place then some c else none := by
  unfold contents single
  by_cases he : p = place
  · simp [he]
  · by_cases hp : p <+: place
    · simp [he,hp]
    · simp [he,hp]

end Disk

/-! ## Files written one after another -/

/-- The contents of files after some were written; the last one counts. -/
def overlay (old : List String → Option C) (ws : List (List String × C)) : List String → Option C :=
  ws.foldl (fun m e => Function.update m e.1 (some e.2)) old

section Overlay
variable {old : List String → Option C} {ws : List (List String × C)} {place : List String}

theorem overlay_append (ws' : List (List String × C)) : overlay old (ws ++ ws') = overlay (overlay old ws) ws' :=
  List.foldl_append

theorem overlay_concat (e : List String × C) :
    overlay old (ws ++ [e]) place = if e.1 = place then some e.2 else overlay old ws place := by
  have h : overlay old (ws ++ [e]) = Function.update (overlay old ws) e.1 (some e.2) := overlay_append [e]
  rw [h]
  split
  · next he =>
    subst he
    exact Function.update_self _ _ _
  · next he => exact Function.update_of_ne (Ne.symm he) _ _

theorem overlay_of_notMem (h : ∀ e ∈ ws, e.1 ≠ place) : overlay old ws place = old place := by
  induction ws using List.reverseRecOn with
  | nil => rfl
  | append_singleton ws x ih =>
    rw [overlay_concat,if_neg (h x (List.mem_append_right _ (List.mem_singleton_self x)))]
    exact ih (fun e he => h e (List.mem_append_left _ he))

/-- What was there before does not show where a file was written. -/
theorem exists_overlay_of_mem (h : ∃ e ∈ ws, e.1 = place) : ∃ c, ∀ old, overlay old ws place = some c := by
  induction ws using List.reverseRecOn with
  | nil =>
    obtain ⟨e,he,-⟩ := h
    exact absurd he List.not_mem_nil
  | append_singleton ws x ih =>
    by_cases hx : x.1 = place
    · exact ⟨x.2,fun old => by rw [overlay_concat,if_pos hx]⟩
    · obtain ⟨e,he,hp⟩ := h
      rcases List.mem_append.mp he with he | he
      · obtain ⟨c,hc⟩ := ih ⟨e,he,hp⟩
        exact ⟨c,fun old => by rw [overlay_concat,if_neg hx,hc]⟩
      · exact absurd (List.mem_singleton.mp he ▸ hp) hx

/-- A file is what it was if the last that was written in its place, if any, is the same. -/
theorem overlay_eq_some_iff {c : C} (h : old place = some c) :
    overlay old ws place = some c ↔ ∀ c', overlay (fun _ => none) ws place = some c' → c' = c := by
  by_cases hw : ∃ e ∈ ws, e.1 = place
  · obtain ⟨last,hlast⟩ := exists_overlay_of_mem hw
    rw [hlast,hlast]
    constructor
    · intro he c' hc'
      exact Option.some.inj (hc'.symm.trans he)
    · intro hsame
      rw [hsame last rfl]
  · have hno : ∀ e ∈ ws, e.1 ≠ place := fun e he hp => hw ⟨e,he,hp⟩
    rw [overlay_of_notMem hno,overlay_of_notMem hno]
    constructor
    · intro _ c' hc'
      cases hc'
    · intro _
      exact h

/-- Writing files and sweeping others away leaves exactly the files that were written, where it
sweeps none of them away and keeps no other that was there. -/
theorem swept_overlay_iff {ι : Type} {at' : ι → List String} {keep : ι → Prop} [DecidablePred keep] :
    (∀ i, (if keep i then overlay old ws (at' i) else none) = overlay (fun _ => none) ws (at' i)) ↔
      (∀ e ∈ ws, ∀ i, e.1 = at' i → keep i) ∧ ∀ i, keep i → (∀ e ∈ ws, e.1 ≠ at' i) → old (at' i) = none := by
  constructor
  · intro h
    constructor
    · intro e he i hi
      obtain ⟨c,hc⟩ := exists_overlay_of_mem ⟨e,he,hi⟩
      have hplace := h i
      by_contra hkeep
      rw [if_neg hkeep,hc] at hplace
      cases hplace
    · intro i hkeep hno
      have hplace := h i
      rwa [if_pos hkeep,overlay_of_notMem hno,overlay_of_notMem hno] at hplace
  · rintro ⟨hwritten,hstale⟩ i
    by_cases hw : ∃ e ∈ ws, e.1 = at' i
    · obtain ⟨c,hc⟩ := exists_overlay_of_mem hw
      obtain ⟨e,he,hp⟩ := hw
      rw [if_pos (hwritten e he i hp),hc,hc]
    · have hno : ∀ e ∈ ws, e.1 ≠ at' i := fun e he hp => hw ⟨e,he,hp⟩
      rw [overlay_of_notMem hno,overlay_of_notMem hno]
      split
      · next hkeep => exact hstale i hkeep hno
      · rfl

end Overlay
end KubeAir.Paths
