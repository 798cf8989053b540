import KubeAir.Core.Lifecycle

/-! # Status patches sent to the API server

The document that `report_pod_status` sends for a lifecycle state, field by field.
-/
namespace KubeAir.Adapters
open Core

structure K8sPodCondition where
  type : String
  status : String
  reason : Option String
  message : Option String
  lastProbeTime : Option DateTime
  lastTransitionTime : Option DateTime
deriving DecidableEq

structure K8sStateWaiting where
  reason : Option String
  message : Option String
deriving DecidableEq

structure K8sStateTerminated where
  exitCode : ℤ
  reason : Option String
  message : Option String
  startedAt : Option DateTime
  finishedAt : Option DateTime
deriving DecidableEq

structure K8sContainerState where
  waiting : Option K8sStateWaiting := none
  running : Option (Option DateTime) := none
  terminated : Option K8sStateTerminated := none
deriving DecidableEq

structure K8sResourceRequirements where
  requests : Option (HashMap String String)
  limits : Option (HashMap String String)
deriving DecidableEq

structure K8sContainerStatus where
  name : String
  state : Option K8sContainerState
  lastState : Option K8sContainerState
  ready : Bool
  restartCount : ℤ
  image : String
  imageId : String
  containerId : Option String
  started : Option Bool
  resources : Option K8sResourceRequirements
  allocatedResources : Option (HashMap String String)
deriving DecidableEq

/-- The `status` object of the patch. -/
structure PodStatusDoc where
  phase : String
  reason : Option String
  conditions : List K8sPodCondition
  containerStatuses : List K8sContainerStatus
  initContainerStatuses : List K8sContainerStatus
  ephemeralContainerStatuses : List K8sContainerStatus
  startTime : Option DateTime
  podIp : Option String
  podIps : List String
  hostIp : Option String
  hostIps : List String
  /-- left out of the document when there is none -/
  observedGeneration : Option ℤ
deriving DecidableEq

def lifecycleToPhase (state : PodLifecycleState) : String :=
  match state.phase with
  | .pending => "Pending"
  | .running => "Running"
  | .succeeded => "Succeeded"
  | .failed => "Failed"
  | .unknown => "Unknown"

def podConditionToK8s (c : PodCondition) : K8sPodCondition where
  type :=
    match c.conditionType with
    | .podScheduled => "PodScheduled"
    | .containersReady => "ContainersReady"
    | .initialized => "Initialized"
    | .ready => "Ready"
    | .podReadyToStartContainers => "PodReadyToStartContainers"
    | .disruptionTarget => "DisruptionTarget"
  status :=
    match c.status with
    | .true => "True"
    | .false => "False"
    | .unknown => "Unknown"
  reason := c.reason
  message := c.message
  lastProbeTime := c.lastProbeTime
  lastTransitionTime := c.lastTransitionTime

def containerStateToK8s : ContainerState → K8sContainerState
  | .waiting reason message => { waiting := some { reason := some reason, message := message } }
  | .running startedAt => { running := some (some startedAt) }
  | .terminated exitCode reason message startedAt finishedAt =>
    { terminated := some
        { exitCode := exitCode
          reason := some reason
          message := message
          startedAt := some startedAt
          finishedAt := some finishedAt } }

/-- The remainders and quotients are those of Rust, which round toward zero. -/
def resourceQuantityToString (q : ResourceQuantity) : String :=
  let gi : ℤ := 1024 * 1024 * 1024
  let mi : ℤ := 1024 * 1024
  let ki : ℤ := 1024
  match q.unit with
  | .millicores => if q.value.tmod 1000 = 0 then toString (q.value.tdiv 1000) else toString q.value ++ "m"
  | .bytes =>
    if q.value.tmod gi = 0 then toString (q.value.tdiv gi) ++ "Gi"
    else if q.value.tmod mi = 0 then toString (q.value.tdiv mi) ++ "Mi"
    else if q.value.tmod ki = 0 then toString (q.value.tdiv ki) ++ "Ki"
    else toString q.value
  | .count => toString q.value

def quantitiesToK8s (m : HashMap String ResourceQuantity) : Option (HashMap String String) :=
  if m.entries.isEmpty then none else some (m.mapValues resourceQuantityToString)

def resourceRequirementsToK8s (r : ResourceRequirements) : K8sResourceRequirements where
  requests := quantitiesToK8s r.requests
  limits := quantitiesToK8s r.limits

/-- `x as i32` of an unsigned 32-bit value. -/
def asI32 (n : ℕ) : ℤ := if n < 2 ^ 31 then n else n - 2 ^ 32

def lifecycleContainerStatusToK8s (cs : ContainerStatus) : K8sContainerStatus :=
  let (stateReady,started) :=
    match cs.state with
    | .waiting .. => (false,some false)
    | .running _ => (true,some true)
    | .terminated .. => (false,some true)
  { name := cs.name
    state := some (containerStateToK8s cs.state)
    lastState := cs.lastState.map containerStateToK8s
    ready := cs.ready || stateReady
    restartCount := asI32 cs.restartCount
    image := cs.image
    imageId := cs.imageId
    containerId := cs.containerId
    started := started
    resources := cs.resources.map resourceRequirementsToK8s
    allocatedResources := quantitiesToK8s cs.allocatedResources }

/-- `build_pod_status_json` on the values `report_pod_status` derives from the state. -/
def buildPodStatus (state : PodLifecycleState) : PodStatusDoc where
  phase := lifecycleToPhase state
  reason := state.reason
  conditions := state.conditions.map podConditionToK8s
  containerStatuses := state.containerStatuses.map lifecycleContainerStatusToK8s
  initContainerStatuses := state.initContainerStatuses.map lifecycleContainerStatusToK8s
  ephemeralContainerStatuses := state.ephemeralContainerStatuses.map lifecycleContainerStatusToK8s
  startTime := state.startTime
  podIp := state.podIp
  podIps := (state.podIp.filter (fun ip => ip != "")).toList
  hostIp := state.hostIp
  hostIps := state.hostIp.toList
  observedGeneration := state.observedGeneration

end KubeAir.Adapters
