import KubeAir.Core.Pod

/-! # The security settings of a container

The settings that the worker passes to the runtime: those of the container, and those of the pod
where the container has none.
-/
namespace KubeAir.Worker
open Core

structure LinuxContainerSecurity where
  runAsUser : Option UInt32 := none
  runAsGroup : Option UInt32 := none
  supplementalGroups : List UInt32 := []
  privileged : Bool := false
  readOnlyRootFilesystem : Bool := false
  allowPrivilegeEscalation : Option Bool := none
  capabilitiesAdd : List String := []
  capabilitiesDrop : List String := []
  seccompProfileType : Option String := none
  seccompLocalhostPath : Option String := none
  apparmorProfile : Option String := none

/-- `fsGroup` and the supplemental groups, each of them once after it. -/
def supplementalGroups (sc : PodSecurityContext) : List UInt32 :=
  sc.supplementalGroups.foldl (fun groups g => if g ∈ groups then groups else groups ++ [g]) sc.fsGroup.toList

def apparmorProfileText (ap : ProfileSpec) : String :=
  match ap.type with
  | "Unconfined" => "unconfined"
  | "Localhost" => "localhost/" ++ ap.localhostProfile.getD ""
  | _ => "runtime/default"

def buildContainerSecurity (ctrSc : Option SecurityContext) (podSc : Option PodSecurityContext) :
    LinuxContainerSecurity :=
  let capabilities := (ctrSc.bind (·.capabilities)).getD {}
  let seccomp := (ctrSc.bind (·.seccompProfile)).or (podSc.bind (·.seccompProfile))
  { runAsUser := (ctrSc.bind (·.runAsUser)).or (podSc.bind (·.runAsUser))
    runAsGroup := (ctrSc.bind (·.runAsGroup)).or (podSc.bind (·.runAsGroup))
    supplementalGroups := (podSc.map supplementalGroups).getD []
    privileged := (ctrSc.bind (·.privileged)).getD false
    readOnlyRootFilesystem := (ctrSc.bind (·.readOnlyRootFilesystem)).getD false
    allowPrivilegeEscalation := ctrSc.bind (·.allowPrivilegeEscalation)
    capabilitiesAdd := capabilities.add
    capabilitiesDrop := capabilities.drop
    seccompProfileType := seccomp.map (·.type)
    seccompLocalhostPath := seccomp.bind (·.localhostProfile)
    apparmorProfile := (ctrSc.bind (·.apparmorProfile)).map apparmorProfileText }

/-- The groups are `fsGroup` and those that are given. -/
theorem mem_supplementalGroups {sc : PodSecurityContext} {g : UInt32} :
    g ∈ supplementalGroups sc ↔ sc.fsGroup = some g ∨ g ∈ sc.supplementalGroups := by
  have hfold : ∀ l groups : List UInt32,
      g ∈ l.foldl (fun groups g => if g ∈ groups then groups else groups ++ [g]) groups ↔ g ∈ groups ∨ g ∈ l := by
    intro l
    induction l with
    | nil => simp
    | cons a l ih =>
      intro groups
      rw [List.foldl_cons,ih,List.mem_cons]
      by_cases ha : a ∈ groups
      · rw [if_pos ha]
        constructor
        · exact fun h => h.imp_right Or.inr
        · rintro (h | rfl | h)
          · exact Or.inl h
          · exact Or.inl ha
          · exact Or.inr h
      · rw [if_neg ha,List.mem_append,List.mem_singleton,or_assoc]
  unfold supplementalGroups
  rw [hfold,Option.mem_toList]

end KubeAir.Worker
