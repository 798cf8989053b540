import KubeAir.Worker.RestartPolicy
import KubeAir.Worker.Sandbox

/-! # The status pass

`update_pod_status` asks the runtime for every recorded container, derives the phase and
the conditions from the answers, and stores the whole state in one write.
-/
namespace KubeAir.Worker
open Core Transition

variable (pod : PodSpec) (state : PodRuntimeState)

/-- `unwrap_or_else(Utc::now)`. -/
def orNow : Option DateTime → WorkerM DateTime
  | some t => pure t
  | none => now

def exitReason (code : ℤ) : String := if code = 0 then "Completed" else "Error"

def crashLoopState (name : String) : ContainerState :=
  .waiting "CrashLoopBackOff" (some ("back-off " ++ name ++ " restarting failed container"))

def terminatedState (s : RuntimeContainer) (message : Option String) (now : DateTime) : ContainerState :=
  .terminated (s.exitCode.getD (-1)) (exitReason (s.exitCode.getD (-1))) message
    (s.startedAt.getD now) (s.finishedAt.getD now)

/-- The init containers that do not keep the later ones from running. -/
def initDone (s : ContainerStatus) : Bool :=
  s.state.isSucceeded ||
    ((((pod.initContainers.find? (fun c => c.name == s.name)).or pod.initContainers.head?).map
      isSidecarInitContainer).getD false && s.state.isRunning)

/-- The snapshot taken before a restart, or what the previous status still shows. -/
def lastStateOf (name : String) (previous : List ContainerStatus) (current : ContainerState) :
    Option ContainerState :=
  if (state.restartCounts.lookup name).getD 0 > 0 then
    (state.lastTerminatedStates.lookup name).or
      ((previous.find? (fun s => s.name == name)).bind fun prev =>
        match prev.state with
        | .terminated .. => some prev.state
        | .running _ => if current.isRunning then none else some prev.state
        | .waiting .. => none)
  else none

def restartCountOf (name : String) : ℕ := (state.restartCounts.lookup name).getD 0 - 1

/-- Waiting states of a container without a recorded ID. -/
def unrecordedState (name : String) (predecessorsDone : Bool) : ContainerState :=
  match state.containerConfigErrors.lookup name with
  | some msg => .waiting "CreateContainerConfigError" (some msg)
  | none => .waiting (if predecessorsDone then "ContainerCreating" else "PodInitializing") none

def initContainerState (ctr : ContainerSpec) (s : RuntimeContainer) : WorkerM ContainerState :=
  match s.state with
  | .running => do pure (.running (← orNow s.startedAt))
  | .exited => do
    let now ← now
    if ctr.name ∈ state.crashLoopBackoff then pure (crashLoopState ctr.name)
    else pure (terminatedState s none now)
  | _ => pure (.waiting "ContainerCreating" none)

/-- State and image of an init container, given the statuses of the ones before it. -/
def observeInitContainer (before : List ContainerStatus) (ctr : ContainerSpec) :
    WorkerM (ContainerState × String) :=
  match state.containerIds.lookup ctr.name with
  | some cid => do
    match ← reportedStatus cid with
    | .ok (some s) => do pure (← initContainerState state ctr s,s.imageRef)
    | _ => pure (.waiting "Unknown" none,"")
  | none =>
    let idx := pod.initContainers.findIdx (fun c => c.name == ctr.name)
    let prevAllDone := idx == 0 || (before.take idx).all (initDone pod)
    pure (unrecordedState state ctr.name prevAllDone,"")

/-- The result of the readiness probe, where there is one. -/
def probeReady (ctr : ContainerSpec) (cid : String) : WorkerM Bool :=
  if ctr.readinessProbe.isSome then do pure ((← containerReadiness cid).getD false)
  else pure true

def initContainerReady (ctr : ContainerSpec) (current : ContainerState) : WorkerM Bool :=
  if current.isSucceeded then pure true
  else if current.isRunning && isSidecarInitContainer ctr then
    match state.containerIds.lookup ctr.name with
    | some cid => probeReady ctr cid
    | none => pure false
  else pure false

def initContainerStatus (previous before : List ContainerStatus) (ctr : ContainerSpec) :
    WorkerM ContainerStatus := do
  let (current,imageId) ← observeInitContainer pod state before ctr
  let ready ← initContainerReady state ctr current
  pure
    { name := ctr.name
      state := current
      lastState := lastStateOf state ctr.name previous current
      ready := ready
      restartCount := restartCountOf state ctr.name
      image := ctr.image
      imageId := imageId
      containerId := (state.containerIds.lookup ctr.name).map ("containerd://" ++ ·)
      started := some current.isRunning
      resources := some ctr.resources
      allocatedResources := ctr.resources.requests }

/-- The statuses of the init containers, each seeing those before it. -/
def initContainerStatuses (previous before : List ContainerStatus) :
    List ContainerSpec → WorkerM (List ContainerStatus)
  | [] => pure before
  | ctr :: rest => do
    let status ← initContainerStatus pod state previous before ctr
    initContainerStatuses previous (before ++ [status]) rest

/-- A container that exited less than 800 ms after its start is still shown as running. -/
def justStarted (name : String) : WorkerM Bool :=
  match state.recentlyStarted.lookup name with
  | some t => do pure (decide ((← instant) - t < 800 * 10 ^ 6))
  | none => pure false

def appContainerState (ctr : ContainerSpec) (cid : String) (s : RuntimeContainer) :
    WorkerM (ContainerState × Bool) :=
  match s.state with
  | .running => do
    let ready ← probeReady ctr cid
    pure (.running (← orNow s.startedAt),ready)
  | .exited => do
    let now ← now
    if ← justStarted state ctr.name then
      pure (.running (← orNow s.startedAt),false)
    else if ctr.name ∈ state.crashLoopBackoff then pure (crashLoopState ctr.name,false)
    else do
      let message ← readTerminationMessage ctr (s.exitCode.getD (-1))
      pure (terminatedState s message now,false)
  | _ => pure (.waiting "ContainerCreating" none,false)

def observeAppContainer (allInitsDone : Bool) (ctr : ContainerSpec) :
    WorkerM (ContainerState × Bool × String) :=
  match state.containerIds.lookup ctr.name with
  | some cid => do
    match ← reportedStatus cid with
    | .ok (some s) => do
      let (current,ready) ← appContainerState state ctr cid s
      pure (current,ready,s.imageRef)
    | _ => pure (.waiting "Unknown" none,false,"")
  | none => pure (unrecordedState state ctr.name allInitsDone,false,"")

def appContainerStatus (previous : List ContainerStatus) (allInitsDone : Bool) (ctr : ContainerSpec) :
    WorkerM ContainerStatus := do
  let (current,ready,imageId) ← observeAppContainer state allInitsDone ctr
  pure
    { name := ctr.name
      state := current
      lastState := lastStateOf state ctr.name previous current
      ready := ready
      restartCount := restartCountOf state ctr.name
      image := ctr.image
      imageId := imageId
      containerId := (state.containerIds.lookup ctr.name).map ("containerd://" ++ ·)
      started := some ready
      resources := some ctr.resources
      allocatedResources := ctr.resources.requests }

def ephemeralContainerState (s : RuntimeContainer) : WorkerM ContainerState :=
  match s.state with
  | .running => do pure (.running (← orNow s.startedAt))
  | .exited => do pure (terminatedState s none (← now))
  | _ => pure (.waiting "ContainerCreating" none)

def observeEphemeralContainer (ctr : ContainerSpec) : WorkerM (ContainerState × String) :=
  match state.containerIds.lookup ctr.name with
  | some cid => do
    match ← reportedStatus cid with
    | .ok (some s) => do pure (← ephemeralContainerState s,s.imageRef)
    | _ => pure (.waiting "Unknown" none,"")
  | none => pure (.waiting "EphemeralContainerScheduled" none,"")

def ephemeralContainerStatus (ctr : ContainerSpec) : WorkerM ContainerStatus := do
  let (current,imageId) ← observeEphemeralContainer state ctr
  pure
    { name := ctr.name
      state := current
      image := ctr.image
      imageId := imageId
      containerId := (state.containerIds.lookup ctr.name).map ("containerd://" ++ ·)
      started := some current.isRunning
      resources := some ctr.resources
      allocatedResources := ctr.resources.requests }

/-- Changing the first condition of a type. -/
def modifyCondition (conditionType : PodConditionType) (f : PodCondition → PodCondition) :
    List PodCondition → List PodCondition
  | [] => []
  | c :: rest =>
    if c.conditionType = conditionType then f c :: rest
    else c :: modifyCondition conditionType f rest

/-- Replacing the condition of the same type, or adding it. -/
def putCondition (condition : PodCondition) (conditions : List PodCondition) : List PodCondition :=
  if conditions.any (fun c => c.conditionType = condition.conditionType) then
    modifyCondition condition.conditionType (fun _ => condition) conditions
  else conditions ++ [condition]

/-- The Initialized condition while init containers are pending. It is never reverted
from True. -/
def initializedConditions (initStatuses : List ContainerStatus) (conditions : List PodCondition) :
    List PodCondition :=
  if pod.initContainers.isEmpty then conditions
  else
    let incomplete := (initStatuses.filter (fun s => !s.state.isSucceeded)).map (·.name)
    modifyCondition .initialized (fun c =>
      if c.status = .true then c
      else if incomplete.isEmpty then { c with status := .true, reason := none, message := none }
      else
        { c with
          status := .false
          reason := some "ContainersNotInitialized"
          message := some ("containers with incomplete status: [" ++
            String.intercalate " " incomplete ++ "]") }) conditions

/-- A running sidecar that is not ready keeps the pod from being ready. -/
def sidecarsReady (initStatuses : List ContainerStatus) : Bool :=
  initStatuses.all fun s =>
    s.ready || !(((pod.initContainers.find? (fun c => c.name == s.name)).map
      isSidecarInitContainer).getD false && s.state.isRunning)

def readyCondition (conditionType : PodConditionType) (ready : Bool) (now : DateTime) : PodCondition where
  conditionType := conditionType
  status := if ready then .true else .false
  lastProbeTime := some now
  lastTransitionTime := some now

/-- The stored state with the phase and the conditions that follow from the statuses. -/
def derivedState (ls : PodLifecycleState) (initStatuses statuses ephemeralStatuses : List ContainerStatus)
    (now : DateTime) : PodLifecycleState :=
  let allReady := sidecarsReady pod initStatuses && statuses.all (·.ready)
  let conditions := putCondition (readyCondition .containersReady allReady now)
    (initializedConditions pod initStatuses ls.conditions)
  let initialized := conditions.any (fun c => c.conditionType = .initialized && c.status = .true)
  { ls with
    phase := computePodPhase initStatuses statuses pod.restartPolicy
    initContainerStatuses := initStatuses
    containerStatuses := statuses
    ephemeralContainerStatuses := ephemeralStatuses
    conditions := putCondition (readyCondition .ready (allReady && initialized) now) conditions
    observedGeneration := pod.generation.or ls.observedGeneration }

def updatePodStatus : WorkerM Unit := do
  let ls := (← getStatus).getD {}
  let initStatuses ← initContainerStatuses pod state ls.initContainerStatuses [] pod.initContainers
  let allInitsDone := initStatuses.all (initDone pod)
  let statuses ← Program.forList (appContainerStatus state ls.containerStatuses allInitsDone) pod.containers
  let ephemeralStatuses ← Program.forList (ephemeralContainerStatus state) pod.ephemeralContainers
  let now ← now
  setStatus (derivedState pod ls initStatuses statuses ephemeralStatuses now)

end KubeAir.Worker
