import KubeAir.Core.PodEvents

/-! # Host aliases over histories of calls

A stored entry never loses its aliases. The rule that merges a file pod into its mirror pod
asks for nothing but names, so it also takes in a pod that is none.
-/
namespace KubeAir.Core
open Transition

def PodCall.Removes (uid : PodUID) : PodCall → Prop
  | .upsert _ _ => False
  | .remove u _ _ => u = uid

/-- The call hands the aliases of its pod to an entry of another UID. -/
def PodCall.MergesIn (m : PodManager) : PodCall → Prop
  | .upsert pod _ => m.Merges pod
  | .remove _ _ _ => False

/-- The pod that the call upserts has an entry of its own. -/
def PodCall.Stored (t : PodManager) : PodCall → Prop
  | .upsert pod _ => (t.get pod.uid).isSome = true
  | .remove _ _ _ => True

namespace PodManager

/-- The entry of the UID is stored and brings aliases. -/
def HasAliases (m : PodManager) (uid : PodUID) : Prop := ∃ pod, m.get uid = some pod ∧ pod.hostAliases ≠ []

section Lemmas
variable {m n t : PodManager} {pod : PodSpec} {uid : PodUID}

theorem HasAliases.store (h : m.HasAliases uid) (pod : PodSpec) (hpod : uid = pod.uid → pod.hostAliases ≠ []) :
    (m.store pod).HasAliases uid := by
  by_cases hu : uid = pod.uid
  · refine ⟨pod,?_,hpod hu⟩
    rw [hu,get_store_self]
  · obtain ⟨old,hget,hne⟩ := h
    refine ⟨old,?_,hne⟩
    rw [get_store_ne m pod uid hu,hget]

/-- A pod that is stored again without aliases takes those of its entry. -/
theorem inheritAliases_ne_nil {old : PodSpec} (hget : m.get pod.uid = some old) (hne : old.hostAliases ≠ []) :
    (m.inheritAliases pod).hostAliases ≠ [] := by
  unfold inheritAliases
  rw [hget]
  dsimp only [Option.isSome_some,if_true]
  rw [if_pos rfl]
  by_cases hempty : pod.hostAliases = []
  · have hcond : (pod.hostAliases.isEmpty && !old.hostAliases.isEmpty) = true := by simp [hempty,hne]
    dsimp only
    rw [if_pos hcond]
    exact hne
  · have hcond : (pod.hostAliases.isEmpty && !old.hostAliases.isEmpty) = false := by simp [hempty]
    dsimp only
    rw [if_neg (by simp [hcond])]
    exact hempty

theorem HasAliases.upsert (h : m.HasAliases uid) (pod : PodSpec) (now : DateTime) :
    (m.upsert pod now).2.HasAliases uid := by
  by_cases hmerges : m.Merges pod
  · obtain ⟨existing,hentry⟩ := Option.isSome_iff_exists.mp hmerges.2.2
    rw [upsert_of_merges m pod hmerges hentry]
    unfold mergeAliases
    by_cases hne : existing.hostAliases ≠ pod.hostAliases
    · rw [if_pos hne]
      exact h.store { existing with hostAliases := pod.hostAliases } (fun _ => hmerges.2.1)
    · rw [if_neg hne]
      exact h
  · rw [upsert_of_not_merges m pod hmerges]
    have hstored : (m.store (m.inheritAliases pod)).HasAliases uid := by
      refine h.store _ ?_
      intro hu
      obtain ⟨old,hget,hne⟩ := h
      rw [hu,inheritAliases_uid] at hget
      exact inheritAliases_ne_nil hget hne
    obtain ⟨new,hnew,hne⟩ := hstored
    refine ⟨new,?_,hne⟩
    rw [get_insertPod,hnew]

theorem HasAliases.called {c : PodCall} (h : m.HasAliases uid) (hc : ¬ c.Removes uid) (ht : Called m c t) :
    t.HasAliases uid := by
  obtain ⟨n,hreordered,hcall⟩ := ht
  obtain ⟨old,hget,hne⟩ := h
  have hn : n.HasAliases uid := ⟨old,(hreordered.get uid).trans hget,hne⟩
  have ht : (n.call c).2 = t := congrArg Prod.snd hcall
  rw [← ht]
  cases c with
  | upsert pod now => exact hn.upsert pod now
  | remove u fallbackSpec at_ =>
    obtain ⟨old,hget,hne⟩ := hn
    refine ⟨old,?_,hne⟩
    show (n.remove u _ at_).2.get uid = some old
    rw [get_remove,if_neg (fun hu => hc hu.symm)]
    exact hget

theorem HasAliases.runs {calls : List PodCall} (h : m.HasAliases uid) (hr : Runs Called m calls t)
    (hkept : ∀ c ∈ calls, ¬ c.Removes uid) : t.HasAliases uid := by
  induction hr with
  | nil s => exact h
  | cons hs _ ih =>
    exact ih (h.called (hkept _ List.mem_cons_self) hs) (fun c hc => hkept c (List.mem_cons_of_mem _ hc))

/-- An equivalent entry is found in every order of the map. -/
theorem isSome_equivalentEntry : (m.equivalentEntry pod).isSome = true ↔
    ∃ r, m.get r.uid = some r ∧ r.podRef.ns = pod.podRef.ns ∧ podNamesEquivalent r pod = true ∧ r.uid ≠ pod.uid := by
  unfold equivalentEntry
  rw [List.find?_isSome]
  constructor
  · rintro ⟨r,hmem,hcond⟩
    simp only [Bool.and_eq_true,beq_iff_eq,bne_iff_ne] at hcond
    exact ⟨r,(m.mem_list r).mp hmem,hcond.1.1,hcond.1.2,hcond.2⟩
  · rintro ⟨r,hget,hns,hname,huid⟩
    refine ⟨r,(m.mem_list r).mpr hget,?_⟩
    simp only [Bool.and_eq_true,beq_iff_eq,bne_iff_ne]
    exact ⟨⟨hns,hname⟩,huid⟩

theorem Reordered.merges (h : Reordered m n) : n.Merges pod ↔ m.Merges pod := by
  unfold Merges
  rw [isSome_equivalentEntry,isSome_equivalentEntry,h.get]
  simp only [h.get]

/-- After an upsert whose send succeeds the pod has an entry exactly when it has not been merged into another. -/
theorem stored_iff {c : PodCall} (h : Called m c t) : c.Stored t ↔ ¬ c.MergesIn m := by
  obtain ⟨n,hreordered,hcall⟩ := h
  cases c with
  | remove uid fallbackSpec at_ => exact iff_of_true trivial not_false
  | upsert pod now =>
    have ht : (n.upsert pod now).2 = t := congrArg Prod.snd hcall
    show (t.get pod.uid).isSome = true ↔ ¬ m.Merges pod
    rw [← ht,isSome_get_upsert,hreordered.merges]
    constructor
    · rintro (⟨-,hnot⟩ | hsome)
      · exact hnot
      · intro hmerges
        rw [hreordered.get,hmerges.1] at hsome
        cases hsome
    · intro hnot
      exact .inl ⟨rfl,hnot⟩

end Lemmas

/-- Over every history of calls whose sends succeed an entry keeps its aliases until it is removed. The histories
in which every upserted pod gets an entry are those in which no upsert merges its pod into another entry. -/
theorem aliases_kept_and_stored {calls : List PodCall} {m t : PodManager} (hr : Runs Called m calls t) :
    (∀ uid, m.HasAliases uid → (∀ c ∈ calls, ¬ c.Removes uid) → t.HasAliases uid) ∧
    (Runs (fun s c t => Called s c t ∧ c.Stored t) m calls t ↔
      Runs (Guarded (fun s c => ¬ c.MergesIn s) Called) m calls t) := by
  refine ⟨fun uid h hkept => h.runs hr hkept,?_⟩
  constructor
  · exact Runs.mono (fun s c t h => ⟨(stored_iff h.1).mp h.2,h.1⟩)
  · exact Runs.mono (fun s c t h => ⟨h.2,(stored_iff h.2).mpr h.1⟩)

/-- A pod with aliases that is created again under a new UID. -/
def recreatedPod (uid : String) : PodSpec where
  uid := ⟨uid⟩
  podRef := { ns := "default", name := "web-0" }
  hostAliases := [{ ip := "10.0.0.1", hostnames := ["db"] }]

/-- The old pod is stored. -/
def beforeRecreation : PodManager := (({} : PodManager).upsert (recreatedPod "old") 0).2

def afterRecreation : PodManager := (beforeRecreation.upsert (recreatedPod "new") 1).2

theorem runs_beforeRecreation : Runs Called {} [.upsert (recreatedPod "old") 0] beforeRecreation :=
  .cons ⟨{},⟨.refl _,rfl,rfl⟩,rfl⟩ (.nil _)

/-- The pod is upserted again without its aliases; a pod of an equivalent name comes without aliases, one of another
name with aliases; and the second pod is removed. -/
def laterCalls : List PodCall :=
  [.upsert { recreatedPod "old" with hostAliases := [] } 1,.upsert { recreatedPod "new" with hostAliases := [] } 2,
    .upsert { recreatedPod "other" with podRef := { ns := "default", name := "cache" } } 3,.remove ⟨"new"⟩ none 4]

theorem called_call (m : PodManager) (c : PodCall) (h : (m.call c).1 = .ok ()) : Called m c (m.call c).2 :=
  ⟨m,⟨.refl _,rfl,rfl⟩,Prod.ext h rfl⟩

theorem aliases_kept_and_stored_later : ∃ t, Runs Called beforeRecreation laterCalls t ∧
    beforeRecreation.HasAliases ⟨"old"⟩ ∧ t.HasAliases ⟨"old"⟩ ∧
    Runs (fun s c t => Called s c t ∧ c.Stored t) beforeRecreation laterCalls t := by
  have hguarded : Runs (Guarded (fun s c => ¬ c.MergesIn s) Called) beforeRecreation laterCalls
      (laterCalls.foldl (fun m c => (m.call c).2) beforeRecreation) := by
    refine .cons ⟨?_,called_call _ _ ?_⟩ (.cons ⟨?_,called_call _ _ ?_⟩ (.cons ⟨?_,called_call _ _ ?_⟩
      (.cons ⟨id,called_call _ _ rfl⟩ (.nil _))))
    · show ¬ PodManager.Merges _ _
      decide +kernel
    · rfl
    · show ¬ PodManager.Merges _ _
      decide +kernel
    · rfl
    · show ¬ PodManager.Merges _ _
      decide +kernel
    · rfl
  have hold : beforeRecreation.HasAliases ⟨"old"⟩ := ⟨recreatedPod "old",rfl,by decide⟩
  have hkept := aliases_kept_and_stored hguarded.of_guarded
  refine ⟨_,hguarded.of_guarded,hold,hkept.1 _ hold ?_,hkept.2.mpr hguarded⟩
  intro c hc
  rcases List.mem_cons.mp hc with rfl | hc
  · exact id
  rcases List.mem_cons.mp hc with rfl | hc
  · exact id
  rcases List.mem_cons.mp hc with rfl | hc
  · exact id
  · obtain rfl := List.mem_singleton.mp hc
    show ¬ (⟨"new"⟩ : PodUID) = ⟨"old"⟩
    decide

/-- The new pod is merged into the old entry and gets none itself. -/
theorem not_stored_recreated : Runs Called {} [.upsert (recreatedPod "old") 0] beforeRecreation ∧
    Called beforeRecreation (.upsert (recreatedPod "new") 1) afterRecreation ∧
    afterRecreation.get ⟨"new"⟩ = none := by
  have hmerges : beforeRecreation.Merges (recreatedPod "new") := by decide +kernel
  have hcalled : Called beforeRecreation (.upsert (recreatedPod "new") 1) afterRecreation := by
    refine ⟨beforeRecreation,⟨.refl _,rfl,rfl⟩,?_⟩
    show beforeRecreation.upsert (recreatedPod "new") 1 = _
    rfl
  refine ⟨runs_beforeRecreation,hcalled,?_⟩
  cases hget : afterRecreation.get ⟨"new"⟩ with
  | none => rfl
  | some pod =>
    have hstored : (PodCall.upsert (recreatedPod "new") 1).Stored afterRecreation := by
      show (afterRecreation.get ⟨"new"⟩).isSome = true
      rw [hget]
      rfl
    exact absurd hmerges ((stored_iff hcalled).mp hstored)

end PodManager
end KubeAir.Core
