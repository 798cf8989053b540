import KubeAir.Core.Phase
import KubeAir.Worker.RestartPolicy

/-! # The phase against the decisions of the sync loop

The phase is derived from the policy of the pod and from flags over its containers,
the restarts from the policy of each container. A status list is taken as the worker
writes it, with one entry for each container of the spec and in the same order.
-/
namespace KubeAir.Worker
open Core
variable {container : ContainerSpec} {pod : RestartPolicy}

theorem finished_of_never {s : ContainerState} (hp : containerRestartPolicy container pod = .never)
    (hs : s.isTerminated = true) : finished container pod s = true := by
  cases s with
  | terminated code => simp [finished,restartsAfter,hp]
  | _ => cases hs

theorem finished_of_onFailure {s : ContainerState} (hp : containerRestartPolicy container pod = .onFailure)
    (hs : s.isSucceeded = true) : finished container pod s = true := by
  cases s with
  | terminated code =>
    have hcode : code = 0 := by simpa using hs
    simp [finished,restartsAfter,hp,hcode]
  | _ => cases hs

/-- A terminal phase and the sync loop agree about the containers that follow the
policy of the pod, and no order of the status list changes the phase. -/
theorem terminal_phase_agrees (pod : PodSpec) (initStatuses statuses : List ContainerStatus) :
    (computePodPhase initStatuses statuses pod.restartPolicy = .succeeded →
      pod.restartPolicy ≠ .always ∧ statuses ≠ [] ∧ (∀ s ∈ initStatuses, s.state.isSucceeded = true) ∧
        ∀ s ∈ statuses, s.state.isSucceeded = true) ∧
    (computePodPhase initStatuses statuses pod.restartPolicy = .failed →
      pod.restartPolicy = .never ∧ anyActive statuses = false ∧
        (InitFailed initStatuses pod.restartPolicy ∨
          (∀ s ∈ initStatuses, s.state.isSucceeded = true) ∧ ∃ s ∈ statuses, s.state.isFailed = true)) ∧
    ((computePodPhase initStatuses statuses pod.restartPolicy).IsTerminal →
      ∀ p ∈ pod.containers.zip statuses,
        containerRestartPolicy p.1 pod.restartPolicy = pod.restartPolicy → p.2.state.isTerminated = true →
          finished p.1 pod.restartPolicy p.2.state = true) ∧
    ∀ statuses', statuses.Perm statuses' →
      computePodPhase initStatuses statuses' pod.restartPolicy =
        computePodPhase initStatuses statuses pod.restartPolicy := by
  refine ⟨computePodPhase_eq_succeeded,computePodPhase_eq_failed,?_,fun _ h => (computePodPhase_perm h).symm⟩
  rintro (hphase | hphase) ⟨ctr,s⟩ hmem hpolicy hterm
  · obtain ⟨halways,-,-,hall⟩ := computePodPhase_eq_succeeded hphase
    have hs := hall s (List.of_mem_zip hmem).2
    cases hp : pod.restartPolicy with
    | always => exact (halways hp).elim
    | onFailure =>
      rw [hp] at hpolicy
      exact finished_of_onFailure hpolicy hs
    | never =>
      rw [hp] at hpolicy
      exact finished_of_never hpolicy hterm
  · obtain ⟨hp,-,-⟩ := computePodPhase_eq_failed hphase
    rw [hp] at hpolicy ⊢
    exact finished_of_never hpolicy hterm

/-- A pod whose only init container has failed and whose app container never started. -/
def failedSetupPod : PodSpec :=
  { uid := ⟨"uid-a"⟩
    podRef := ⟨"default","web"⟩
    initContainers := [{ name := "setup" }]
    containers := [{ name := "web" }]
    restartPolicy := .never }

theorem terminal_phase_of_init_failure : ¬ ∀ (pod : PodSpec) (initStatuses statuses : List ContainerStatus),
    initStatuses.length = pod.initContainers.length → statuses.length = pod.containers.length →
    (computePodPhase initStatuses statuses pod.restartPolicy).IsTerminal →
    ∀ p ∈ pod.containers.zip statuses, finished p.1 pod.restartPolicy p.2.state = true := by
  intro h
  have hweb := h failedSetupPod [{ name := "setup", state := .terminated 1 "Error" none 0 0 }]
    [{ name := "web", state := .waiting "PodInitializing" none }] rfl rfl (by decide)
    _ List.mem_cons_self
  cases hweb

/-- The statuses of the sidecar init containers, in the order of the spec. -/
def sidecarStatuses (pod : PodSpec) (initStatuses : List ContainerStatus) : List ContainerStatus :=
  ((pod.initContainers.zip initStatuses).filter (fun p => isSidecarInitContainer p.1)).map Prod.snd

/-- The status list with the sidecars taken out. -/
def withoutSidecars (pod : PodSpec) (initStatuses : List ContainerStatus) : List ContainerStatus :=
  ((pod.initContainers.zip initStatuses).filter (fun p => !isSidecarInitContainer p.1)).map Prod.snd

/-- The sidecars leave the phase alone: an app container is active, all sidecars have
exited with code 0, or the first that has not says what the app containers say. -/
def SidecarsSilent (pod : PodSpec) (initStatuses statuses : List ContainerStatus) : Prop :=
  anyActive statuses = true ∨
    match (sidecarStatuses pod initStatuses).find? (fun s => !s.state.isSucceeded) with
    | none => True
    | some s =>
      if s.state.isFailed && pod.restartPolicy == .never then ∃ a ∈ statuses, a.state.isFailed = true
      else (∀ a ∈ statuses, a.state.isFailed = false) ∧
        (statuses = [] ∨ ∃ a ∈ statuses, a.state.isSucceeded = false)

theorem zip_map_snd {specs : List ContainerSpec} {initStatuses : List ContainerStatus}
    (h : initStatuses.length = specs.length) : (specs.zip initStatuses).map Prod.snd = initStatuses :=
  List.map_snd_zip (by omega)

/-- With all other init containers done, the scan is decided by the sidecars. -/
theorem scan_sidecarStatuses {pod : PodSpec} {initStatuses : List ContainerStatus}
    (hlen : initStatuses.length = pod.initContainers.length)
    (hdone : ∀ p ∈ pod.initContainers.zip initStatuses,
      isSidecarInitContainer p.1 = false → p.2.state.isSucceeded = true) :
    scanInitStatuses pod.restartPolicy initStatuses =
      scanInitStatuses pod.restartPolicy (sidecarStatuses pod initStatuses) := by
  unfold sidecarStatuses
  rw [scanInitStatuses_filter Prod.snd _ _ hdone,zip_map_snd hlen]

theorem scan_withoutSidecars {pod : PodSpec} {initStatuses : List ContainerStatus}
    (hdone : ∀ p ∈ pod.initContainers.zip initStatuses,
      isSidecarInitContainer p.1 = false → p.2.state.isSucceeded = true) :
    scanInitStatuses pod.restartPolicy (withoutSidecars pod initStatuses) = none := by
  rw [scanInitStatuses_eq_none]
  intro s hs
  obtain ⟨p,hp,rfl⟩ := List.mem_map.mp hs
  obtain ⟨hmem,hside⟩ := List.mem_filter.mp hp
  exact hdone p hmem (by simpa using hside)

/-- The sidecars decide nothing about the phase exactly when they are silent. -/
theorem phase_withoutSidecars_iff (pod : PodSpec) (initStatuses statuses : List ContainerStatus)
    (hlen : initStatuses.length = pod.initContainers.length)
    (hdone : ∀ p ∈ pod.initContainers.zip initStatuses,
      isSidecarInitContainer p.1 = false → p.2.state.isSucceeded = true) :
    computePodPhase initStatuses statuses pod.restartPolicy =
        computePodPhase (withoutSidecars pod initStatuses) statuses pod.restartPolicy ↔
      SidecarsSilent pod initStatuses statuses := by
  unfold SidecarsSilent
  cases hact : anyActive statuses with
  | true => simp [computePodPhase_of_active hact]
  | false =>
    rw [computePodPhase_of_not_active hact,computePodPhase_of_not_active hact,
      scan_withoutSidecars hdone,scan_sidecarStatuses hlen hdone,scanInitStatuses_eq]
    simp only [Bool.false_eq_true,false_or]
    cases (sidecarStatuses pod initStatuses).find? (fun s => !s.state.isSucceeded) with
    | none => simp
    | some s =>
      simp only [Option.map_some,Option.getD_some,Option.getD_none,blockedPhase]
      by_cases hfail : (s.state.isFailed && pod.restartPolicy == .never) = true
      · rw [if_pos hfail,if_pos hfail,eq_comm,settledPhase_eq_failed]
        have hnever : pod.restartPolicy = .never := eq_of_beq (Bool.and_eq_true_iff.mp hfail).2
        simp only [hnever,true_and]
      · rw [if_neg hfail,if_neg hfail,eq_comm,settledPhase_eq_pending]

/-- A pod with one sidecar whose app container has exited with code 0. -/
def sidecarPod : PodSpec :=
  { uid := ⟨"uid-a"⟩
    podRef := ⟨"default","web"⟩
    initContainers := [{ name := "proxy", restartPolicy := some .always }]
    containers := [{ name := "web" }]
    restartPolicy := .never }

def finishedWeb : List ContainerStatus := [{ name := "web", state := .terminated 0 "Completed" none 0 0 }]

/-- A sidecar that was stopped with code 137 beside an app container that failed. -/
theorem phase_withoutSidecars_of_failed :
    computePodPhase [{ name := "proxy", state := .terminated 137 "Error" none 0 0 }]
        [{ name := "web", state := .terminated 1 "Error" none 0 0 }] .never =
      computePodPhase (withoutSidecars sidecarPod [{ name := "proxy", state := .terminated 137 "Error" none 0 0 }])
        [{ name := "web", state := .terminated 1 "Error" none 0 0 }] .never :=
  (phase_withoutSidecars_iff sidecarPod [{ name := "proxy", state := .terminated 137 "Error" none 0 0 }]
    [{ name := "web", state := .terminated 1 "Error" none 0 0 }] rfl (by decide)).mpr
    (.inr ⟨_,List.mem_cons_self,rfl⟩)

/-- The sidecar has been stopped with code 137 after the app container succeeded. -/
theorem phase_of_stopped_sidecar : ¬ ∀ (pod : PodSpec) (initStatuses statuses : List ContainerStatus),
    initStatuses.length = pod.initContainers.length →
    (∀ p ∈ pod.initContainers.zip initStatuses,
      isSidecarInitContainer p.1 = false → p.2.state.isSucceeded = true) →
    computePodPhase initStatuses statuses pod.restartPolicy =
      computePodPhase (withoutSidecars pod initStatuses) statuses pod.restartPolicy := by
  intro h
  have hphase := h sidecarPod [{ name := "proxy", state := .terminated 137 "Error" none 0 0 }] finishedWeb
    rfl (by decide)
  cases hphase

end KubeAir.Worker
