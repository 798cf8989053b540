import KubeAir.Adapters.TopologyManager

/-! # Merging topology hints

The merged hint is meant to have the nodes common to all hints that name some, and to be preferred
when all hints are. Two hints without nodes are merged to a preferred one, whatever they say, so
that the order of the hints can matter.
-/
namespace KubeAir.Adapters
open Core

/-- The nodes common to the hints that name some, if any do. -/
def CommonNodes (hints : List TopologyHint) : Option (Finset ℕ) → Prop
  | none => ∀ h ∈ hints, h.numaAffinity = none
  | some s => (∃ h ∈ hints, h.numaAffinity ≠ none) ∧ ∀ n, n ∈ s ↔ ∀ h ∈ hints, ∀ a, h.numaAffinity = some a → n ∈ a

/-- What merging is for: one hint for every order, common nodes, preferred as all hints are, and
accepted when there is a node left or none was asked for. -/
structure MergesAlike (hints : List TopologyHint) : Prop where
  perm : ∀ hints', hints'.Perm hints → TopologyManager.mergeHints hints' = TopologyManager.mergeHints hints
  affinity : CommonNodes hints (TopologyManager.mergeHints hints).numaAffinity
  preferred : (TopologyManager.mergeHints hints).preferred = true ↔ ∀ h ∈ hints, h.preferred = true
  accepted : ∀ (m : TopologyManager) podUid containerName, m.policy = .restricted ∨ m.policy = .singleNumaNode →
    ((∃ h, (m.admitHints podUid containerName hints).1 = .ok h) ↔
      ∃ nodes, CommonNodes hints nodes ∧ ∀ s, nodes = some s → s.Nonempty)

/-- No refusal is forgotten: at most one hint is without nodes, or those without nodes are preferred,
or one with nodes is not. -/
def Remembered (hints : List TopologyHint) : Prop :=
  (hints.filter (fun h => h.numaAffinity = none)).length ≤ 1 ∨
    (∀ h ∈ hints, h.numaAffinity = none → h.preferred = true) ∨
    ∃ h ∈ hints, h.numaAffinity ≠ none ∧ h.preferred = false

namespace TopologyHint
variable {acc h other : TopologyHint} {hints : List TopologyHint}

theorem intersect_none_none (h₁ : h.numaAffinity = none) (h₂ : other.numaAffinity = none) :
    h.intersect other = noPreference := by
  unfold intersect
  rw [h₁,h₂]

theorem preferred_intersect (h' : h.numaAffinity ≠ none ∨ other.numaAffinity ≠ none) :
    (h.intersect other).preferred = (h.preferred && other.preferred) := by
  rcases h with ⟨_ | a,p⟩ <;> rcases other with ⟨_ | b,q⟩ <;> first | rfl | exact absurd h' (by simp)

theorem intersect_eq_none_iff :
    (h.intersect other).numaAffinity = none ↔ h.numaAffinity = none ∧ other.numaAffinity = none := by
  rcases h with ⟨_ | a,p⟩ <;> rcases other with ⟨_ | b,q⟩ <;> simp [intersect,noPreference,withNumaNodes]

/-- Two hints stand for the nodes that they have in common. -/
theorem commonNodes_cons_intersect {nodes : Option (Finset ℕ)} (h : TopologyHint) :
    CommonNodes (acc.intersect h :: hints) nodes ↔ CommonNodes (acc :: h :: hints) nodes := by
  rcases acc with ⟨_ | a,p⟩ <;> rcases h with ⟨_ | b,q⟩ <;> cases nodes <;>
    simp [CommonNodes,intersect,noPreference,withNumaNodes,Finset.mem_inter,and_assoc]

theorem commonNodes_foldl (acc : TopologyHint) (hints : List TopologyHint) :
    CommonNodes (acc :: hints) (hints.foldl intersect acc).numaAffinity := by
  induction hints generalizing acc with
  | nil => rcases acc with ⟨_ | a,p⟩ <;> simp [CommonNodes]
  | cons h hints ih => exact (commonNodes_cons_intersect h).mp (ih (acc.intersect h))

theorem commonNodes_perm {hints' : List TopologyHint} (hperm : hints'.Perm hints) {nodes : Option (Finset ℕ)} :
    CommonNodes hints' nodes ↔ CommonNodes hints nodes := by
  cases nodes <;> simp only [CommonNodes,hperm.mem_iff]

theorem commonNodes_unique {nodes nodes' : Option (Finset ℕ)} (hnodes : CommonNodes hints nodes)
    (hnodes' : CommonNodes hints nodes') : nodes = nodes' := by
  cases nodes with
  | none =>
    cases nodes' with
    | none => rfl
    | some s =>
      obtain ⟨h,hmem,hne⟩ := hnodes'.1
      exact absurd (hnodes h hmem) hne
  | some s =>
    cases nodes' with
    | none =>
      obtain ⟨h,hmem,hne⟩ := hnodes.1
      exact absurd (hnodes' h hmem) hne
    | some s' => exact congrArg some (Finset.ext fun n => (hnodes.2 n).trans (hnodes'.2 n).symm)

/-! ## Preferences -/

/-- After a hint with nodes every preference counts. -/
theorem preferred_foldl (hacc : acc.numaAffinity ≠ none) (hints : List TopologyHint) :
    (hints.foldl intersect acc).preferred = (acc.preferred && hints.all (·.preferred)) := by
  induction hints generalizing acc with
  | nil => exact (Bool.and_true _).symm
  | cons h hints ih =>
    have hnext : (acc.intersect h).numaAffinity ≠ none := fun hnone => hacc (intersect_eq_none_iff.mp hnone).1
    rw [List.foldl_cons,ih hnext,preferred_intersect (.inl hacc),List.all_cons,Bool.and_assoc]

theorem preferred_foldl_of_all (hacc : acc.preferred = true) (hall : ∀ h ∈ hints, h.preferred = true) :
    (hints.foldl intersect acc).preferred = true := by
  induction hints generalizing acc with
  | nil => exact hacc
  | cons h hints ih =>
    obtain ⟨hh,hall⟩ := List.forall_mem_cons.mp hall
    refine ih ?_ hall
    by_cases hnone : acc.numaAffinity = none ∧ h.numaAffinity = none
    · rw [intersect_none_none hnone.1 hnone.2]
      rfl
    · rw [preferred_intersect (not_and_or.mp hnone),hacc,hh]
      rfl

/-- A hint with nodes is never forgotten. -/
theorem preferred_of_foldl (h : (hints.foldl intersect acc).preferred = true) :
    ∀ x ∈ acc :: hints, x.numaAffinity ≠ none → x.preferred = true := by
  induction hints generalizing acc with
  | nil => exact List.forall_mem_singleton.mpr (fun _ => h)
  | cons y hints ih =>
    obtain ⟨hnext,hrest⟩ := List.forall_mem_cons.mp (ih h)
    have hpair : acc.numaAffinity ≠ none ∨ y.numaAffinity ≠ none → acc.preferred = true ∧ y.preferred = true := by
      intro hsome
      have hboth := hnext (fun hnone => not_and_or.mpr hsome (intersect_eq_none_iff.mp hnone))
      rwa [preferred_intersect hsome,Bool.and_eq_true] at hboth
    exact List.forall_mem_cons.mpr ⟨fun hx => (hpair (.inl hx)).1,
      List.forall_mem_cons.mpr ⟨fun hx => (hpair (.inr hx)).2,hrest⟩⟩

/-- Of several hints without nodes nothing is left. -/
theorem foldl_without_nodes (hacc : acc.numaAffinity = none) (hall : ∀ x ∈ hints, x.numaAffinity = none)
    (hne : hints ≠ []) : hints.foldl intersect acc = noPreference := by
  induction hints generalizing acc with
  | nil => exact absurd rfl hne
  | cons h hints ih =>
    obtain ⟨hh,hall⟩ := List.forall_mem_cons.mp hall
    rw [List.foldl_cons,intersect_none_none hacc hh]
    cases hints with
    | nil => rfl
    | cons x hints => exact ih rfl hall (List.cons_ne_nil x hints)

end TopologyHint

namespace TopologyManager
open TopologyHint
variable {hints hints' : List TopologyHint}

theorem commonNodes_mergeHints (hints : List TopologyHint) : CommonNodes hints (mergeHints hints).numaAffinity := by
  cases hints with
  | nil => exact fun h hmem => by cases hmem
  | cons h hints => exact commonNodes_foldl h hints

theorem preferred_mergeHints_of_all (hall : ∀ h ∈ hints, h.preferred = true) : (mergeHints hints).preferred = true := by
  cases hints with
  | nil => rfl
  | cons h hints => exact preferred_foldl_of_all (List.forall_mem_cons.mp hall).1 (List.forall_mem_cons.mp hall).2

theorem preferred_of_mergeHints (h : (mergeHints hints).preferred = true) :
    ∀ x ∈ hints, x.numaAffinity ≠ none → x.preferred = true := by
  cases hints with
  | nil => exact fun x hmem => by cases hmem
  | cons y hints => exact preferred_of_foldl h

/-- With at most one hint without nodes every preference counts. -/
theorem preferred_mergeHints_of_one (hone : (hints.filter (fun h => h.numaAffinity = none)).length ≤ 1)
    (h : (mergeHints hints).preferred = true) : ∀ x ∈ hints, x.preferred = true := by
  cases hints with
  | nil => exact fun x hmem => by cases hmem
  | cons acc hints =>
    by_cases hacc : acc.numaAffinity = none
    · rw [List.filter_cons_of_pos (by simpa using hacc),List.length_cons] at hone
      have hempty := List.eq_nil_of_length_eq_zero (Nat.le_zero.mp (Nat.le_of_succ_le_succ hone))
      have hsome : ∀ x ∈ hints, x.numaAffinity ≠ none := fun x hx hnone =>
        List.filter_eq_nil_iff.mp hempty x hx (decide_eq_true hnone)
      cases hints with
      | nil => exact List.forall_mem_singleton.mpr h
      | cons y hints =>
        have hy := hsome y List.mem_cons_self
        have hnext : (acc.intersect y).numaAffinity ≠ none := fun hnone => hy (intersect_eq_none_iff.mp hnone).2
        have hflags := (preferred_foldl hnext hints).symm.trans h
        rw [preferred_intersect (.inr hy),Bool.and_eq_true,Bool.and_eq_true,List.all_eq_true] at hflags
        exact List.forall_mem_cons.mpr ⟨hflags.1.1,List.forall_mem_cons.mpr ⟨hflags.1.2,hflags.2⟩⟩
    · have hflags := (preferred_foldl hacc hints).symm.trans h
      rw [Bool.and_eq_true,List.all_eq_true] at hflags
      exact List.forall_mem_cons.mpr hflags

theorem preferred_mergeHints_iff (hrem : Remembered hints) :
    (mergeHints hints).preferred = true ↔ ∀ h ∈ hints, h.preferred = true := by
  refine ⟨fun h => ?_,preferred_mergeHints_of_all⟩
  rcases hrem with hone | hnone | ⟨x,hx,hsome,hflag⟩
  · exact preferred_mergeHints_of_one hone h
  · intro x hx
    by_cases hsome : x.numaAffinity = none
    · exact hnone x hx hsome
    · exact preferred_of_mergeHints h x hx hsome
  · rw [preferred_of_mergeHints h x hx hsome] at hflag
    cases hflag

theorem remembered_perm (hperm : hints'.Perm hints) (h : Remembered hints) : Remembered hints' := by
  unfold Remembered at *
  rw [(hperm.filter _).length_eq]
  simp only [hperm.mem_iff]
  exact h

/-- In some order what the hints without nodes say is lost. -/
theorem exists_perm_preferred (h : ¬Remembered hints) :
    ∃ hints', hints'.Perm hints ∧ (mergeHints hints').preferred = true := by
  obtain ⟨hmany,hrest⟩ := not_or.mp h
  obtain ⟨-,hflags⟩ := not_or.mp hrest
  refine ⟨_,List.filter_append_perm (fun h => decide (h.numaAffinity = none)) hints,?_⟩
  have hnone : ∀ x ∈ hints.filter (fun h => h.numaAffinity = none), x.numaAffinity = none := fun x hx =>
    of_decide_eq_true (List.mem_filter.mp hx).2
  cases hw : hints.filter (fun h => h.numaAffinity = none) with
  | nil =>
    rw [hw] at hmany
    exact absurd (Nat.zero_le 1) hmany
  | cons u us =>
    rw [hw] at hnone hmany
    obtain ⟨hu,hus⟩ := List.forall_mem_cons.mp hnone
    have hne : us ≠ [] := by
      rintro rfl
      exact hmany le_rfl
    rw [List.cons_append,mergeHints,List.foldl_append,foldl_without_nodes hu hus hne]
    refine preferred_foldl_of_all rfl fun x hx => ?_
    obtain ⟨hx,hsome⟩ := List.mem_filter.mp hx
    by_contra hflag
    exact hflags ⟨x,hx,by simpa using hsome,Bool.eq_false_of_not_eq_true hflag⟩

/-! ## Acceptance -/

theorem accepted_iff_of_restricted {m : TopologyManager} (hpolicy : m.policy = .restricted) (podUid : PodUID)
    (containerName : String) : (∃ h, (m.admitHints podUid containerName hints).1 = .ok h) ↔
      ∀ s, (mergeHints hints).numaAffinity = some s → s.Nonempty := by
  unfold admitHints
  rw [hpolicy]
  generalize mergeHints hints = merged
  rcases merged with ⟨_ | s,preferred⟩
  · simp [isEmptyAffinity]
  · by_cases hs : s = ∅ <;> simp [isEmptyAffinity,hs,Finset.nonempty_iff_ne_empty]

theorem accepted_iff_of_singleNumaNode {m : TopologyManager} (hpolicy : m.policy = .singleNumaNode) (podUid : PodUID)
    (containerName : String) : (∃ h, (m.admitHints podUid containerName hints).1 = .ok h) ↔
      ∃ s, (mergeHints hints).numaAffinity = some s ∧ s.Nonempty := by
  unfold admitHints
  rw [hpolicy]
  generalize mergeHints hints = merged
  rcases merged with ⟨_ | s,preferred⟩
  · simp [singleNumaHint]
  · by_cases hs : s.Nonempty <;> simp [singleNumaHint,hs]

theorem exists_commonNodes_iff : (∃ nodes, CommonNodes hints nodes ∧ ∀ s, nodes = some s → s.Nonempty) ↔
    ∀ s, (mergeHints hints).numaAffinity = some s → s.Nonempty := by
  constructor
  · rintro ⟨nodes,hnodes,h⟩
    rwa [commonNodes_unique (commonNodes_mergeHints hints) hnodes]
  · exact fun h => ⟨_,commonNodes_mergeHints hints,h⟩

theorem mergeHints_constrained (h : ∃ x ∈ hints, x.numaAffinity ≠ none) : (mergeHints hints).numaAffinity ≠ none := by
  intro hnone
  obtain ⟨x,hx,hsome⟩ := h
  have hcommon := commonNodes_mergeHints hints
  rw [hnone] at hcommon
  exact hsome (hcommon x hx)

/-- Merging does what it is for exactly when some hint names nodes and no refusal is forgotten. -/
theorem mergesAlike_iff (hints : List TopologyHint) :
    MergesAlike hints ↔ (∃ h ∈ hints, h.numaAffinity ≠ none) ∧ Remembered hints := by
  constructor
  · intro hlaw
    constructor
    · by_contra hnone
      have hfree : ∀ h ∈ hints, h.numaAffinity = none := by
        push Not at hnone
        exact hnone
      have haccepted := (hlaw.accepted { policy := .singleNumaNode } ⟨""⟩ "" (.inr rfl)).mpr
        ⟨none,hfree,fun s hs => by cases hs⟩
      obtain ⟨s,hs,-⟩ := (accepted_iff_of_singleNumaNode rfl ⟨""⟩ "").mp haccepted
      have hcommon := commonNodes_unique (commonNodes_mergeHints hints) (show CommonNodes hints none from hfree)
      rw [hs] at hcommon
      cases hcommon
    · by_contra hforgotten
      obtain ⟨hints',hperm,hflag⟩ := exists_perm_preferred hforgotten
      rw [hlaw.perm hints' hperm] at hflag
      exact hforgotten (.inr (.inl fun h hmem _ => hlaw.preferred.mp hflag h hmem))
  · rintro ⟨hsome,hrem⟩
    refine ⟨fun hints' hperm => ?_,commonNodes_mergeHints hints,preferred_mergeHints_iff hrem,?_⟩
    · have haffinity := commonNodes_unique ((commonNodes_perm hperm).mp (commonNodes_mergeHints hints'))
        (commonNodes_mergeHints hints)
      have hflag : (mergeHints hints').preferred = (mergeHints hints).preferred := by
        rw [Bool.eq_iff_iff,preferred_mergeHints_iff (remembered_perm hperm hrem),preferred_mergeHints_iff hrem]
        simp only [hperm.mem_iff]
      exact congrArg₂ TopologyHint.mk haffinity hflag
    · intro m podUid containerName hpolicy
      rw [exists_commonNodes_iff]
      rcases hpolicy with hpolicy | hpolicy
      · exact accepted_iff_of_restricted hpolicy podUid containerName
      · rw [accepted_iff_of_singleNumaNode hpolicy]
        obtain ⟨s,hs⟩ := Option.ne_none_iff_exists'.mp (mergeHints_constrained hsome)
        rw [hs]
        simp

/-- Three hints, of which one without nodes is not preferred, in two orders. -/
theorem preference_forgotten :
    (mergeHints [⟨none,false⟩,.noPreference,.withNumaNodes {0} true]).preferred = true ∧
      (mergeHints [⟨none,false⟩,.withNumaNodes {0} true,.noPreference]).preferred = false ∧
        ¬MergesAlike [⟨none,false⟩,.noPreference,.withNumaNodes {0} true] := by
  refine ⟨rfl,rfl,fun hlaw => ?_⟩
  have hflag : false = true := congrArg TopologyHint.preferred
    (hlaw.perm [⟨none,false⟩,.withNumaNodes {0} true,.noPreference] (.cons _ (.swap _ _ [])))
  cases hflag

end TopologyManager

end KubeAir.Adapters
