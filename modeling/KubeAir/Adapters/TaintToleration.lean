import KubeAir.Adapters.Admission

/-! # Taints and tolerations

A toleration is for taints with its key, its value and its effect. The check looks at the key and
the value only, and takes a toleration without a key for every taint.
-/
namespace KubeAir.Adapters.Admission
open Core

/-- The effect as tolerations write it. -/
def TaintEffect.spec : TaintEffect → Core.TaintEffect
  | .noSchedule => .noSchedule
  | .preferNoSchedule => .preferNoSchedule
  | .noExecute => .noExecute

/-- The taint keeps pods off the node that do not tolerate it. -/
def NodeTaint.Excludes (taint : NodeTaint) : Prop := taint.effect = .noSchedule ∨ taint.effect = .noExecute

/-- What a toleration is for: without an effect for all effects, without a key for all keys, but
then only with the operator `Exists`. -/
structure Tolerates (t : Toleration) (taint : NodeTaint) : Prop where
  effect : t.effect = none ∨ t.effect = some taint.effect.spec
  key : t.key = some taint.key ∨ t.key = none ∧ t.operator = .exists
  value : t.operator = .equal → t.value = taint.value

/-- What the check compares. -/
def matchesTaint (t : Toleration) (taint : NodeTaint) : Prop :=
  (t.key = none ∨ t.key = some taint.key) ∧ (t.operator = .exists ∨ t.value = taint.value)

theorem podToleratesTaint_iff {pod : PodSpec} {taint : NodeTaint} :
    podToleratesTaint pod taint = true ↔ ∃ t ∈ pod.tolerations, matchesTaint t taint := by
  unfold podToleratesTaint
  rw [List.any_eq_true]
  refine exists_congr fun t => and_congr_right fun _ => ?_
  rw [Bool.and_eq_true]
  refine and_congr ?_ ?_
  · cases t.key <;> simp
  · cases t.operator <;> simp

/-- A toleration that is for the taint matches it; the other way round it takes the effect and, for
`Equal`, a key. -/
theorem tolerates_iff {t : Toleration} {taint : NodeTaint} :
    Tolerates t taint ↔ matchesTaint t taint ∧ (t.effect = none ∨ t.effect = some taint.effect.spec) ∧
      (t.operator = .equal → t.key ≠ none) := by
  constructor
  · rintro ⟨heffect,hkey,hvalue⟩
    refine ⟨⟨hkey.symm.imp_left (·.1),?_⟩,heffect,fun hequal hnone => ?_⟩
    · cases hop : t.operator with
      | equal => exact .inr (hvalue hop)
      | «exists» => exact .inl rfl
    · rw [hnone,hequal] at hkey
      rcases hkey with hkey | ⟨-,hkey⟩ <;> cases hkey
  · rintro ⟨⟨hkey,hvalue⟩,heffect,hgiven⟩
    refine ⟨heffect,?_,fun hequal => hvalue.resolve_left fun hop => ?_⟩
    · rcases hkey with hnone | hkey
      · cases hop : t.operator with
        | equal => exact absurd hnone (hgiven hop)
        | «exists» => exact .inr ⟨hnone,rfl⟩
      · exact .inl hkey
    · rw [hequal] at hop
      cases hop

section Taints
variable (a : AdmissionController) (pod : PodSpec) (usage : ResourceUsage) (overheads : RuntimeOverheads)
variable (known : List String)

/-- The checks other than that of the taints pass. -/
def OthersPass : Prop :=
  rejectMaxPods a usage = none ∧ rejectCpu a pod usage overheads = none ∧ rejectMemory a pod usage overheads = none ∧
    rejectPorts pod usage = none ∧ rejectRuntimeClass pod known = none ∧ rejectNodeSelector a pod = none ∧
      rejectClaims pod = none

/-- Every taint that keeps pods off is tolerated. -/
def AllTolerated (tolerated : NodeTaint → Prop) : Prop := ∀ taint ∈ a.nodeTaints, taint.Excludes → tolerated taint

/-- A pod is admitted only if it tolerates the taints, and always if it does and the other checks
pass. -/
structure TaintsRespected : Prop where
  excluded : admitWithRuntimeOverhead a pod usage overheads known = .admitted →
    AllTolerated a (fun taint => ∃ t ∈ pod.tolerations, Tolerates t taint)
  admitted : AllTolerated a (fun taint => ∃ t ∈ pod.tolerations, Tolerates t taint) →
    OthersPass a pod usage overheads known → admitWithRuntimeOverhead a pod usage overheads known = .admitted

theorem rejectTaints_eq_none_iff :
    rejectTaints a pod = none ↔ AllTolerated a (fun taint => podToleratesTaint pod taint = true) := by
  unfold rejectTaints AllTolerated NodeTaint.Excludes
  rw [List.findSome?_eq_none_iff]
  refine forall₂_congr fun taint _ => ?_
  by_cases hexcludes : taint.effect = .noSchedule ∨ taint.effect = .noExecute
  · cases htolerates : podToleratesTaint pod taint <;> simp [hexcludes,htolerates]
  · simp [hexcludes]

theorem admitted_iff : admitWithRuntimeOverhead a pod usage overheads known = .admitted ↔
    OthersPass a pod usage overheads known ∧ AllTolerated a (fun taint => podToleratesTaint pod taint = true) := by
  have hnone : admitWithRuntimeOverhead a pod usage overheads known = .admitted ↔
      rejection a pod usage overheads known = none := by
    unfold admitWithRuntimeOverhead
    cases rejection a pod usage overheads known <;> simp
  rw [hnone,← rejectTaints_eq_none_iff]
  unfold rejection OthersPass
  simp only [Option.or_eq_none_iff]
  tauto

/-- The taints are respected exactly if, should the pod be admitted, each of them is matched by a
toleration that is for its effect and names a key or has the operator `Exists`. -/
theorem taintsRespected_iff :
    TaintsRespected a pod usage overheads known ↔
      (OthersPass a pod usage overheads known → AllTolerated a (fun taint => podToleratesTaint pod taint = true) →
        AllTolerated a (fun taint => ∃ t ∈ pod.tolerations, matchesTaint t taint ∧
          (t.effect = none ∨ t.effect = some taint.effect.spec) ∧ (t.operator = .equal → t.key ≠ none))) := by
  simp only [← tolerates_iff]
  constructor
  · exact fun h hothers hmatch => h.excluded ((admitted_iff a pod usage overheads known).mpr ⟨hothers,hmatch⟩)
  · intro h
    refine ⟨fun hlet => ?_,fun htolerated hothers => ?_⟩
    · obtain ⟨hothers,hmatch⟩ := (admitted_iff a pod usage overheads known).mp hlet
      exact h hothers hmatch
    · refine (admitted_iff a pod usage overheads known).mpr ⟨hothers,fun taint hmem hexcludes => ?_⟩
      obtain ⟨t,ht,htolerates⟩ := htolerated taint hmem hexcludes
      exact podToleratesTaint_iff.mpr ⟨t,ht,(tolerates_iff.mp htolerates).1⟩

end Taints

/-! ## Another effect -/

/-- A node whose pods are to leave. -/
def drainedNode : AdmissionController where
  allocatable := ⟨4000,8589934592,110⟩
  nodeTaints := [{ key := "maintenance", effect := .noExecute }]

/-- A pod that tolerates not to be scheduled there. -/
def scheduledPod : PodSpec where
  uid := ⟨"uid-a"⟩
  podRef := ⟨"default","web"⟩
  tolerations := [{ key := some "maintenance", operator := .exists, effect := some .noSchedule }]

theorem other_effect_admitted :
    admitWithRuntimeOverhead drainedNode scheduledPod {} ∅ [] = .admitted ∧
      ¬TaintsRespected drainedNode scheduledPod {} ∅ [] := by
  have hlet : admitWithRuntimeOverhead drainedNode scheduledPod {} ∅ [] = .admitted := rfl
  refine ⟨ hlet,fun h => ?_⟩
  obtain ⟨t,ht,htolerates⟩ := h.excluded hlet _ List.mem_cons_self (.inr rfl)
  obtain rfl := List.mem_singleton.mp ht
  rcases htolerates.effect with heffect | heffect <;> cases heffect

end KubeAir.Adapters.Admission
