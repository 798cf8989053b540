import KubeAir.Worker.PodStatusUpdate

/-! # The sync pass

`sync_pod` as a routine over the runtime state of the pod: it returns when the pass ran to
its end and exits with the result of every earlier `return`.
-/
namespace KubeAir.Worker
open Core Transition

/-- Routines of the pass; `ε` is what they exit with. -/
abbrev PassM (ε α : Type) := Routine Request Request.Answer PodRuntimeState ε α

abbrev SyncM (α : Type) := PassM PodSyncResult α

abbrev StartM (α : Type) := PassM KubeletError α

/-- The `?` operator. -/
def orExit {α : Type} (p : WorkerM (Except KubeletError α)) : StartM α := do
  match ← p with
  | .ok a => pure a
  | .error e => Routine.exit e

def validatePod (pod : PodSpec) : Except KubeletError Unit :=
  if pod.podRef.name = "" then .error (.config "pod name cannot be empty")
  else if pod.podRef.ns = "" then .error (.config "pod namespace cannot be empty")
  else if pod.uid.val = "" then .error (.config "pod UID cannot be empty")
  else
    match pod.containers.find? (fun c => c.name = "" || c.image = "") with
    | none => .ok ()
    | some c =>
      if c.name = "" then .error (.config "container name cannot be empty")
      else .error (.config ("container '" ++ c.name ++ "' has no image"))

variable (worker : PodWorker) (pod : PodSpec)

/-! ## Starting a container -/

/-- The record of the previous container is dropped before the next one is created. -/
def dropRecord (name : String) : StartM Unit := do
  match (← Routine.get).containerIds.lookup name with
  | none => pure ()
  | some old => do
    let _ ← removeContainer old
    forgetProbes old
    Routine.modify fun st =>
      { st with
        probeRegistered := st.probeRegistered.erase name
        startupProbeRegistered := st.startupProbeRegistered.erase name
        readinessProbeRegistered := st.readinessProbeRegistered.erase name
        containerIds := st.containerIds.erase name }

def cleanupReservedContainerName (ctr : ContainerSpec) : WorkerM Unit := do
  match ← listContainers .nameCleanup with
  | .error _ => pure ()
  | .ok containers =>
    Program.forEach (fun c => do
        let _ ← removeContainer c.id
        pure ())
      (containers.filter (fun c => c.labels.lookup "kubelet.rs/pod_uid" = some pod.uid.val &&
        c.labels.lookup "kubelet.rs/container_name" = some ctr.name))

def cleanupContainerById (containerId : String) : WorkerM Unit := do
  let _ ← stopContainer containerId 0
  let _ ← removeContainer containerId
  pure ()

/-- Clearing the container that an error names, and those with the name of the new one. -/
def cleanupReserved (ctr : ContainerSpec) : Option String → WorkerM Unit
  | some reserved => do
    cleanupContainerById reserved
    cleanupReservedContainerName pod ctr
  | none => cleanupReservedContainerName pod ctr

/-- `create_container`, retried once when a stale container holds the name. -/
def createOrReplace (ctr : ContainerSpec) (config : CreateContainerConfig) :
    WorkerM (Except KubeletError String) := do
  match ← createContainer config with
  | .ok cid => pure (.ok cid)
  | .error e =>
    if (reservedContainerName e.text).isSome then do
      cleanupReserved pod ctr (reservedContainerId e.text)
      createContainer config
    else pure (.error e)

/-- A container whose PostStart hook fails is stopped and not recorded. -/
def postStart (ctr : ContainerSpec) (cid : String) : StartM Unit := do
  match ctr.lifecycle.bind (·.postStart) with
  | none => pure ()
  | some handler =>
    match ← runPostStart handler cid ctr.name with
    | .ok _ => pure ()
    | .error e => do
      let _ ← stopContainer cid 0
      Routine.exit e

def recordStarted (name cid : String) (at_ : Instant) (st : PodRuntimeState) : PodRuntimeState :=
  { st with
    crashLoopBackoff := st.crashLoopBackoff.erase name
    containerIds := st.containerIds.insert name cid
    recentlyStarted := st.recentlyStarted.insert name at_ }

/-- Starting a container that has been created under the ID `cid`. -/
def startCreated (ctr : ContainerSpec) (cid : String) : StartM Unit := do
  match ← runtimeStartContainer cid with
  | .error e => do
    let _ ← removeContainer cid
    Routine.exit e
  | .ok _ => do
    postStart ctr cid
    let _ ← reportedStatus cid
    let at_ ← instant
    Routine.modify (recordStarted ctr.name cid at_)

/-- Creating and starting a container whose preparation succeeded. -/
def createAndStart (ctr : ContainerSpec) (sandboxId imageId : String) : StartM Unit := do
  let attempt := ((← Routine.get).restartCounts.lookup ctr.name).getD 0
  dropRecord ctr.name
  let cid ← orExit (createOrReplace pod ctr
    { podUid := pod.uid.val
      podName := pod.podRef.name
      podNamespace := pod.podRef.ns
      attempt := attempt
      container := ctr
      sandboxId := sandboxId
      imageId := imageId
      security := buildContainerSecurity ctr.securityContext pod.securityContext
      shareProcessNamespace := pod.shareProcessNamespace.getD false })
  Routine.modify fun st =>
    { st with restartCounts := st.restartCounts.insert ctr.name (saturatingSucc attempt) }
  startCreated ctr cid

def startContainer (ctr : ContainerSpec) (sandboxId : String) : StartM Unit := do
  let imageId ← orExit (ensureImage ctr.image)
  match ← orExit (prepareContainer ctr) with
  | some msg => Routine.modify fun st =>
      { st with containerConfigErrors := st.containerConfigErrors.insert ctr.name msg }
  | none => createAndStart pod ctr sandboxId imageId

/-! ## Probes and resources of a running container -/

def registered (kind : ProbeKind) (st : PodRuntimeState) : HashMap String String :=
  match kind with
  | .startup => st.startupProbeRegistered
  | .liveness => st.probeRegistered
  | .readiness => st.readinessProbeRegistered

def register (kind : ProbeKind) (name cid : String) (st : PodRuntimeState) : PodRuntimeState :=
  match kind with
  | .startup => { st with startupProbeRegistered := st.startupProbeRegistered.insert name cid }
  | .liveness => { st with probeRegistered := st.probeRegistered.insert name cid }
  | .readiness => { st with readinessProbeRegistered := st.readinessProbeRegistered.insert name cid }

/-- A probe task is spawned once for each container ID. -/
def armProbe (kind : ProbeKind) (probe : Option Probe) (name cid : String) : SyncM Unit := do
  let st ← Routine.get
  if probe.isSome && (registered kind st).lookup name != some cid then do
    spawnProbe kind cid (st.sandboxIp.getD "")
    Routine.modify (register kind name cid)
  else pure ()

def startupDone (ctr : ContainerSpec) (cid : String) : WorkerM Bool :=
  if ctr.startupProbe.isSome then do pure ((← containerStartupDone cid).getD false)
  else pure true

/-- The other probes wait for the startup probe. The answer tells whether it is done. -/
def armProbes (ctr : ContainerSpec) (cid : String) : SyncM Bool := do
  armProbe .startup ctr.startupProbe ctr.name cid
  let started ← startupDone ctr cid
  if started then do
    armProbe .liveness ctr.livenessProbe ctr.name cid
    armProbe .readiness ctr.readinessProbe ctr.name cid
    pure true
  else pure false

def applyContainerResizeIfNeeded (name cid : String) (resources : ResourceRequirements) : SyncM Unit := do
  let quantity := fun (m : HashMap String ResourceQuantity) k => ((m.lookup k).map (·.value)).getD 0
  let cpuReqMillis := quantity resources.requests "cpu"
  let cpuLimMillis := quantity resources.limits "cpu"
  let memLimBytes := quantity resources.limits "memory"
  if (← Routine.get).appliedResources.lookup name = some (cpuReqMillis,cpuLimMillis,memLimBytes) then
    pure ()
  else do
    let cpuShares := min (max ((cpuReqMillis * 1024).tdiv 1000) 2) 262144
    let cpuQuota := if cpuLimMillis > 0 then cpuLimMillis * 100 else -1
    match ← updateContainerResources cid cpuShares cpuQuota 100000 memLimBytes with
    | .error _ => pure ()
    | .ok _ => Routine.modify fun st =>
        { st with appliedResources :=
            st.appliedResources.insert name (cpuReqMillis,cpuLimMillis,memLimBytes) }

/-! ## Back-off and failures -/

/-- `min(2^(n-1) * 10, 300)` seconds, with the exponent capped at 5. -/
def backoffSecs (count : ℕ) : ℕ := min (2 ^ min (count - 1) 5 * 10) 300

/-- Reporting what the status store holds. -/
def reportStored : WorkerM Unit := do
  match ← getStatus with
  | some ls => do
    let _ ← reportPodStatus ls
    pure ()
  | none => pure ()

/-- Reporting CrashLoopBackOff while the pass sleeps. -/
def crashLoopSleep (name : String) (seconds : ℕ) : SyncM Unit := do
  Routine.modify fun st => { st with crashLoopBackoff := insert name st.crashLoopBackoff }
  updatePodStatus pod (← Routine.get)
  reportStored
  sleep seconds
  Routine.modify fun st => { st with crashLoopBackoff := st.crashLoopBackoff.erase name }

def bumpStartFailure (name : String) (st : PodRuntimeState) : PodRuntimeState :=
  { st with startFailureBackoff :=
      st.startFailureBackoff.insert name ((st.startFailureBackoff.lookup name).getD 0 + 1) }

def clearStartFailure (name : String) (st : PodRuntimeState) : PodRuntimeState :=
  { st with startFailureBackoff := st.startFailureBackoff.erase name }

/-- The sandbox is gone: the next pass makes a new one. -/
def forgetSandbox (st : PodRuntimeState) : PodRuntimeState :=
  { st with sandboxId := none, containerIds := ∅ }

/-- A failed PodScheduled condition, and the phase set back to Pending. -/
def unscheduledState (ls : PodLifecycleState) (reason message : String) (now : DateTime) :
    PodLifecycleState :=
  { ls with
    phase := .pending
    conditions := ls.conditions.filter (fun c => c.conditionType ≠ .podScheduled) ++
      [{ conditionType := .podScheduled
         status := .false
         lastTransitionTime := some now
         reason := some reason
         message := some message }] }

/-- Changing the stored state of the pod, if there is one. -/
def updateStored (f : PodLifecycleState → WorkerM PodLifecycleState) : WorkerM Unit := do
  match ← getStatus with
  | some ls => do setStatus (← f ls)
  | none => pure ()

/-- The status write of the early error paths. -/
def markUnscheduled (reason message : String) (f : PodLifecycleState → PodLifecycleState) : WorkerM Unit :=
  updateStored fun ls => do pure (f (unscheduledState ls reason message (← now)))

/-- The first entry of a name set to `Waiting`, if there is one. -/
def markWaiting (name : String) (state : ContainerState) :
    List ContainerStatus → Option (List ContainerStatus)
  | [] => none
  | s :: rest =>
    if s.name = name then some ({ s with state := state } :: rest)
    else (markWaiting name state rest).map (s :: ·)

/-- `ErrImagePull` on the container whose image could not be pulled. -/
def markImagePullError (name message : String) (ls : PodLifecycleState) : PodLifecycleState :=
  let waiting := ContainerState.waiting "ErrImagePull" (some message)
  match markWaiting name waiting ls.containerStatuses with
  | some statuses => { ls with containerStatuses := statuses }
  | none =>
    match markWaiting name waiting ls.initContainerStatuses with
    | some statuses => { ls with initContainerStatuses := statuses }
    | none => ls

/-- The stored state of a pod that ran past its deadline. -/
def deadlineExceededState (ls : PodLifecycleState) : WorkerM PodLifecycleState := do
  let t ← now
  pure
    { ls with
      phase := .failed
      reason := some "DeadlineExceeded"
      conditions := modifyCondition .ready (fun c =>
        { c with
          status := .false
          reason := some "DeadlineExceeded"
          message := some "Pod was active on the node longer than the specified deadline"
          lastTransitionTime := some t }) ls.conditions }

/-- The pod is terminated and its stored state failed. -/
def terminateFailed (f : PodLifecycleState → WorkerM PodLifecycleState) : SyncM Unit := do
  terminatePod pod (← Routine.get) pod.terminationGracePeriodSeconds
  updateStored f
  Routine.exit .terminated

/-! ## The steps of a pass -/

/-- `x as i64` of an unsigned 64-bit value. -/
def asI64 (x : ℕ) : ℤ := (x : ℤ).bmod (2 ^ 64)

/-- Seconds since the stored start time exceed the active deadline. -/
def deadlineExceeded (ls : Option PodLifecycleState) (now : DateTime) : Bool :=
  match pod.activeDeadlineSeconds, ls.bind (·.startTime) with
  | some deadline, some start => decide ((now - start).tdiv (10 ^ 9) > asI64 deadline)
  | _, _ => false

def checkDeadline : SyncM Unit := do
  if pod.activeDeadlineSeconds.isSome then do
    let ls ← getStatus
    let t ← now
    if deadlineExceeded pod ls t then terminateFailed pod deadlineExceededState
    else pure ()
  else pure ()

def ensureVolumes : SyncM Unit := do
  match ← ensurePodVolumes (← Routine.get).sandboxIp with
  | .ok _ => pure ()
  | .error e => do
    markUnscheduled "VolumeMountFailed" ("Failed to mount volumes: " ++ e.text) id
    Routine.exit (.needsRetry ("volume mount failed: " ++ e.text))

def sleepAfter (failures : ℕ) : WorkerM Unit :=
  if failures > 0 then sleep (backoffSecs failures) else pure ()

def ensureContainerImage (ctr : ContainerSpec) : SyncM Unit := do
  sleepAfter (((← Routine.get).imagePullBackoff.lookup ctr.image).getD 0)
  match ← ensureImage ctr.image with
  | .ok _ => Routine.modify fun st => { st with imagePullBackoff := st.imagePullBackoff.erase ctr.image }
  | .error e => do
    markUnscheduled "ImagePullFailed" ("Failed to pull image '" ++ ctr.image ++ "': " ++ e.text)
      (markImagePullError ctr.name e.text)
    Routine.modify fun st =>
      { st with imagePullBackoff :=
          st.imagePullBackoff.insert ctr.image ((st.imagePullBackoff.lookup ctr.image).getD 0 + 1) }
    if isRegistryAuthError e then
      Routine.exit (.needsRetry ("image pull failed with registry authorization error for '" ++ ctr.image ++
        "': " ++ e.text ++ " (will retry — pull secret may not be available yet)"))
    else Routine.exit (.needsRetry ("image pull failed: " ++ e.text))

/-- The addresses of a pod whose sandbox is up. -/
def addressedState (sandboxIp : Option String) (ls : PodLifecycleState) : PodLifecycleState :=
  { ls with
    podIp := if pod.hostNetwork then some worker.nodeInternalIp else sandboxIp.filter (· ≠ "")
    hostIp := some worker.nodeInternalIp }

/-- What the runtime lists for the pod is taken over. -/
def adoptListed (id : String) : SyncM Unit := do
  match ← listContainers (.recovery id) with
  | .ok ctrs => Routine.modify fun st => recoverContainers pod st ctrs
  | .error _ => pure ()

/-- A new or recovered sandbox is noted. -/
def enterSandbox (id : String) (ip : Option String) : SyncM Unit := do
  Routine.modify fun st => { st with sandboxId := some id, sandboxIp := ip }
  adoptListed pod id
  updateStored fun ls => pure (addressedState worker pod ip ls)

/-- The ID of the sandbox of the pod, which is created when there is none. -/
def ensureSandbox : SyncM String := do
  match (← Routine.get).sandboxId with
  | some id => pure id
  | none =>
    match ← createSandbox worker pod with
    | .ok (id,ip) => do
      enterSandbox worker pod id ip
      pure id
    | .error e => do
      markUnscheduled "SandboxCreationFailed" ("Failed to create pod sandbox: " ++ e.text) id
      Routine.exit (.needsRetry ("sandbox creation failed: " ++ e.text))

/-- The snapshot of an exited container before it is restarted. -/
def snapshot (name reason : String) (s : RuntimeContainer) : SyncM Unit := do
  let startedAt ← orNow s.startedAt
  let finishedAt ← orNow s.finishedAt
  Routine.modify fun st =>
    { st with
      lastTerminatedStates := st.lastTerminatedStates.insert name
        (.terminated (s.exitCode.getD (-1)) reason none startedAt finishedAt) }

/-- A sidecar that runs is left alone. -/
def sidecarRuns (ctr : ContainerSpec) (cid : String) : SyncM Bool := do
  match ← containerStatus cid with
  | .ok (some s) =>
    if s.state = .running then do
      let _ ← armProbes ctr cid
      pure true
    else pure false
  | _ => pure false

/-- A recorded init container: completed, to be awaited, fatal for the pod, or to be restarted. -/
def initCompleted (ctr : ContainerSpec) (cid : String) : SyncM Bool := do
  match ← containerStatus cid with
  | .ok (some s) =>
    match s.state with
    | .running => do
      updatePodStatus pod (← Routine.get)
      Routine.exit (.needsRetry "init container still running")
    | .exited =>
      if s.exitCode = some 0 then pure true
      else if pod.restartPolicy = .never then do
        updatePodStatus pod (← Routine.get)
        terminateFailed pod (fun ls => pure { ls with phase := .failed })
        pure false
      else do
        snapshot ctr.name "Error" s
        pure false
    | _ => pure false
  | _ => pure false

def initProceeds (ctr : ContainerSpec) : SyncM Bool := do
  match (← Routine.get).containerIds.lookup ctr.name with
  | none => pure false
  | some cid => if isSidecarInitContainer ctr then sidecarRuns ctr cid else initCompleted pod ctr cid

def initBackoff (name : String) : SyncM Unit := do
  let st ← Routine.get
  let count := max ((st.restartCounts.lookup name).getD 0) ((st.startFailureBackoff.lookup name).getD 0)
  if count > 0 then crashLoopSleep pod name (backoffSecs count)
  else pure ()

/-- A start that failed: the sandbox is gone, or the failure is counted. -/
def startFailed (name : String) (e : KubeletError) : SyncM Unit := do
  if isSandboxNotFoundError e then do
    Routine.modify forgetSandbox
    Routine.exit (.needsRetry "sandbox not found, will recreate")
  else Routine.modify (bumpStartFailure name)

def runInitContainer (sandboxId : String) (ctr : ContainerSpec) : SyncM Unit := do
  if ← initProceeds pod ctr then pure ()
  else do
    initBackoff pod ctr.name
    match ← Routine.attempt (startContainer pod ctr sandboxId) with
    | .ok _ => do
      Routine.modify (clearStartFailure ctr.name)
      if isSidecarInitContainer ctr then pure ()
      else do
        updatePodStatus pod (← Routine.get)
        Routine.exit (.needsRetry "init container started, waiting for completion")
    | .error e => do
      startFailed ctr.name e
      updatePodStatus pod (← Routine.get)
      Routine.exit (.needsRetry ("init container failed: " ++ e.text))

/-- The Initialized condition turns True once the init containers are through. -/
def markInitialized : SyncM Unit := do
  if pod.initContainers.isEmpty then pure ()
  else
    match ← getStatus with
    | none => pure ()
    | some ls =>
      if ((ls.conditions.find? (fun c => c.conditionType = .initialized)).map (·.status)).getD .true = .true then
        pure ()
      else do
        let t ← now
        setStatus { ls with
          conditions := modifyCondition .initialized
            (fun c => { c with status := .true, lastTransitionTime := some t }) ls.conditions }

def resizeWhenArmed (ctr : ContainerSpec) (cid : String) (armed : Bool) : SyncM Unit :=
  if armed then applyContainerResizeIfNeeded ctr.name cid ctr.resources else pure ()

/-- An exited app container is left alone, or restarted after its back-off. -/
def appExited (ctr : ContainerSpec) (s : RuntimeContainer) : SyncM Bool := do
  let code := s.exitCode.getD (-1)
  snapshot ctr.name (exitReason code) s
  if restartsAfter ctr pod.restartPolicy code then do
    let restart := ((← Routine.get).restartCounts.lookup ctr.name).getD 0
    crashLoopSleep pod ctr.name (backoffSecs restart)
    pure false
  else pure true

/-- Whether the app container is to be left alone. -/
def appProceeds (ctr : ContainerSpec) : SyncM Bool := do
  match (← Routine.get).containerIds.lookup ctr.name with
  | none => pure false
  | some cid =>
    match ← containerStatus cid with
    | .ok (some s) =>
      match s.state with
      | .running => do
        resizeWhenArmed ctr cid (← armProbes ctr cid)
        pure true
      | .exited => appExited pod ctr s
      | _ => pure false
    | _ => pure false

def runAppContainer (sandboxId : String) (ctr : ContainerSpec) : SyncM Unit := do
  if ← appProceeds pod ctr then pure ()
  else do
    let st ← Routine.get
    if (st.containerConfigErrors.lookup ctr.name).isSome then pure ()
    else do
      sleepAfter ((st.startFailureBackoff.lookup ctr.name).getD 0)
      match ← Routine.attempt (startContainer pod ctr sandboxId) with
      | .ok _ => Routine.modify (clearStartFailure ctr.name)
      | .error e => startFailed ctr.name e

/-- All app containers are recorded and have exited. -/
def allExited (state : PodRuntimeState) : List ContainerSpec → WorkerM Bool
  | [] => pure true
  | ctr :: rest =>
    match state.containerIds.lookup ctr.name with
    | none => pure false
    | some cid => do
      match ← reportedStatus cid with
      | .ok (some s) => if s.state = .exited then allExited state rest else pure false
      | _ => pure false

def allAppContainersTerminated (state : PodRuntimeState) : WorkerM Bool :=
  if pod.containers.isEmpty then pure false else allExited state pod.containers

def stopSidecarInitContainers (state : PodRuntimeState) : WorkerM Unit :=
  Program.forEach (fun sidecar =>
      match state.containerIds.lookup sidecar.name with
      | none => pure ()
      | some cid => do
        let _ ← stopContainer cid pod.terminationGracePeriodSeconds
        pure ())
    (pod.initContainers.filter isSidecarInitContainer)

/-- If app containers are done, the sidecars are stopped. -/
def stopSidecarsWhenDone (state : PodRuntimeState) : WorkerM Unit := do
  if ← allAppContainersTerminated pod state then stopSidecarInitContainers pod state
  else pure ()

/-- Ephemeral containers are started once and then left alone. -/
def runEphemeralContainer (sandboxId : String) (ctr : ContainerSpec) : SyncM Unit := do
  if ((← Routine.get).containerIds.lookup ctr.name).isSome then pure ()
  else do
    let _ ← Routine.attempt (startContainer pod ctr sandboxId)
    pure ()

/-- The containers of a pod whose sandbox is up. -/
def syncContainers (sandboxId : String) : SyncM Unit := do
  Routine.forEach (runInitContainer pod sandboxId) pod.initContainers
  markInitialized pod
  Routine.forEach (runAppContainer pod sandboxId) pod.containers
  stopSidecarsWhenDone pod (← Routine.get)
  Routine.forEach (runEphemeralContainer pod sandboxId) pod.ephemeralContainers
  updatePodStatus pod (← Routine.get)

/-- Full pod sync. -/
def syncSteps : SyncM Unit := do
  match validatePod pod with
  | .error e => Routine.exit (.failed ("Validation failed: " ++ e.text))
  | .ok _ => do
    checkDeadline pod
    ensureVolumes
    Routine.forEach ensureContainerImage (pod.containers ++ pod.initContainers)
    let sandboxId ← ensureSandbox worker pod
    syncContainers pod sandboxId

/-- The pass as a program: its result and the state it leaves. -/
def syncPod (state : PodRuntimeState) : WorkerM (PodSyncResult × PodRuntimeState) := do
  match ← syncSteps worker pod state with
  | (.ok _,st) => pure (.synced,st)
  | (.error r,st) => pure (r,st)

end KubeAir.Worker
