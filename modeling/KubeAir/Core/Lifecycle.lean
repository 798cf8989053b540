import KubeAir.Core.Pod

/-! # Pod lifecycle states

The status record that the kubelet keeps for every pod, and the fold that derives
the phase of a pod from the states of its containers.
-/
namespace KubeAir.Core

inductive PodPhase
  | pending
  | running
  | succeeded
  | failed
  | unknown
deriving DecidableEq, Repr

/-- The phases that no later event is meant to leave. -/
def PodPhase.IsTerminal (p : PodPhase) : Prop := p = .succeeded ∨ p = .failed

instance (p : PodPhase) : Decidable p.IsTerminal := inferInstanceAs (Decidable (_ ∨ _))

inductive ContainerState
  | waiting (reason : String) (message : Option String)
  | running (startedAt : DateTime)
  | terminated (exitCode : ℤ) (reason : String) (message : Option String)
      (startedAt finishedAt : DateTime)
deriving DecidableEq, Repr

structure ContainerStatus where
  name : String
  state : ContainerState
  lastState : Option ContainerState := none
  ready : Bool := false
  restartCount : ℕ := 0
  image : String := ""
  imageId : String := ""
  containerId : Option String := none
  started : Option Bool := none
  resources : Option ResourceRequirements := none
  allocatedResources : HashMap String ResourceQuantity := ∅

inductive PodConditionType
  | podScheduled
  | containersReady
  | initialized
  | ready
  | podReadyToStartContainers
  | disruptionTarget
deriving DecidableEq, Repr

inductive ConditionStatus
  | true
  | false
  | unknown
deriving DecidableEq, Repr

structure PodCondition where
  conditionType : PodConditionType
  status : ConditionStatus
  lastProbeTime : Option DateTime := none
  lastTransitionTime : Option DateTime := none
  reason : Option String := none
  message : Option String := none
deriving DecidableEq, Repr

/-- Full pod lifecycle status tracked by the kubelet. -/
structure PodLifecycleState where
  phase : PodPhase := .pending
  reason : Option String := none
  conditions : List PodCondition := []
  containerStatuses : List ContainerStatus := []
  initContainerStatuses : List ContainerStatus := []
  ephemeralContainerStatuses : List ContainerStatus := []
  startTime : Option DateTime := none
  podIp : Option String := none
  hostIp : Option String := none
  observedGeneration : Option ℤ := none

namespace ContainerState

def isRunning : ContainerState → Bool
  | .running _ => true
  | _ => false

def isTerminated : ContainerState → Bool
  | .terminated .. => true
  | _ => false

/-- `Waiting` with the reason the worker gives while it sleeps before a restart. -/
def isCrashLoop : ContainerState → Bool
  | .waiting reason _ => reason == "CrashLoopBackOff"
  | _ => false

/-- `Terminated { exit_code, .. } if exit_code == 0`. -/
def isSucceeded : ContainerState → Bool
  | .terminated code .. => code == 0
  | _ => false

/-- `Terminated { exit_code, .. } if exit_code != 0`. -/
def isFailed : ContainerState → Bool
  | .terminated code .. => code != 0
  | _ => false

variable {code : ℤ} {reason : String} {message : Option String} {startedAt finishedAt : DateTime}

@[simp] theorem isSucceeded_waiting : (waiting reason message).isSucceeded = false := rfl
@[simp] theorem isSucceeded_running : (running startedAt).isSucceeded = false := rfl
@[simp] theorem isSucceeded_terminated :
    (terminated code reason message startedAt finishedAt).isSucceeded = (code == 0) := rfl
@[simp] theorem isFailed_waiting : (waiting reason message).isFailed = false := rfl
@[simp] theorem isFailed_running : (running startedAt).isFailed = false := rfl
@[simp] theorem isFailed_terminated :
    (terminated code reason message startedAt finishedAt).isFailed = (code != 0) := rfl

theorem isFailed_of_isSucceeded {s : ContainerState} (h : s.isSucceeded = true) : s.isFailed = false := by
  cases s with
  | terminated code => simpa using h
  | _ => rfl

end ContainerState

/-- The loop over the init containers in `compute_pod_phase`: the phase it returns
early, or `none` when every init container has succeeded. -/
def scanInitStatuses (restartPolicy : RestartPolicy) : List ContainerStatus → Option PodPhase
  | [] => none
  | status :: rest =>
    match status.state with
    | .waiting .. => some .pending
    | .running _ => some .pending
    | .terminated code .. =>
      if code ≠ 0 then
        match restartPolicy with
        | .never => some .failed
        | _ => some .pending
      else scanInitStatuses restartPolicy rest

/-- Determines the next phase based on container states and restart policy. -/
def computePodPhase (initStatuses statuses : List ContainerStatus)
    (restartPolicy : RestartPolicy) : PodPhase :=
  if statuses.any (fun s => s.state.isRunning) then .running
  else if statuses.any (fun s => s.state.isCrashLoop) then .running
  else
    match scanInitStatuses restartPolicy initStatuses with
    | some phase => phase
    | none =>
      if statuses.all (fun s => s.state.isSucceeded) && !statuses.isEmpty then
        match restartPolicy with
        | .never | .onFailure => .succeeded
        | .always => .running
      else if statuses.any (fun s => s.state.isFailed) then
        match restartPolicy with
        | .never => .failed
        | _ => .running
      else .pending

end KubeAir.Core
