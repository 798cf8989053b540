import KubeAir.Worker.Request
import KubeAir.Worker.State

/-! # Sandboxes and teardown

Creating the sandbox of a pod or finding the one it already has, adopting the containers
the runtime lists for it, and the two ways a pod is taken down.
-/
namespace KubeAir.Worker
open Core Transition

/-- What the worker knows about its node. -/
structure PodWorker where
  nodeName : String
  podInfraContainerImage : String
  nodeInternalIp : String

variable (worker : PodWorker) (pod : PodSpec)

def sandboxMatchesPodIdentity (sandbox : SandboxStatus) : Bool :=
  let baseName := stripSuffix pod.podRef.name ("-" ++ worker.nodeName)
  if sandbox.podUid = pod.uid.val then true
  else if sandbox.podName = pod.podRef.name && sandbox.podNamespace = pod.podRef.ns then true
  else if baseName = some sandbox.podName && sandbox.podNamespace = pod.podRef.ns then true
  else
    match sandbox.labels.lookup "io.kubernetes.pod.name", sandbox.labels.lookup "io.kubernetes.pod.namespace" with
    | some name, some ns =>
      if ns = pod.podRef.ns then name = pod.podRef.name || baseName = some name else false
    | _, _ => false

def cleanupSandbox (sandboxId : String) : WorkerM Unit := do
  let _ ← stopPodSandbox sandboxId
  let _ ← removePodSandbox sandboxId
  pure ()

def cleanupStaleSandboxesForPod : WorkerM Unit := do
  match ← listPodSandboxes with
  | .error _ => pure ()
  | .ok sandboxes =>
    Program.forEach (fun sandbox => cleanupSandbox sandbox.id)
      (sandboxes.filter (sandboxMatchesPodIdentity worker pod))

/-- The loop of `recover_existing_sandbox` over the listed sandboxes. -/
def recoverFrom : List SandboxStatus → WorkerM (Except KubeletError (Option (String × Option String)))
  | [] => pure (.ok none)
  | sandbox :: rest =>
    if sandboxMatchesPodIdentity worker pod sandbox = false then recoverFrom rest
    else if sandbox.podUid = pod.uid.val ∧ sandbox.state = .ready then do
      match ← podSandboxStatus sandbox.id with
      | .error e => pure (.error e)
      | .ok status => pure (.ok (some (sandbox.id,status.bind (·.network))))
    else do
      cleanupSandbox sandbox.id
      recoverFrom rest

def recoverExistingSandbox : WorkerM (Except KubeletError (Option (String × Option String))) := do
  match ← listPodSandboxes with
  | .error e => pure (.error e)
  | .ok sandboxes => recoverFrom worker pod sandboxes

def createSandboxConfig : CreateSandboxConfig where
  podUid := pod.uid.val
  podName := pod.podRef.name
  podNamespace := pod.podRef.ns
  hostNetwork := pod.hostNetwork
  sandboxImage := worker.podInfraContainerImage

/-- `run_pod_sandbox`, retried once when a stale sandbox holds the name. -/
def runNewSandbox : WorkerM (Except KubeletError String) := do
  match ← runPodSandbox (createSandboxConfig worker pod) with
  | .ok id => pure (.ok id)
  | .error e =>
    if contains e.text "is reserved for" then do
      cleanupStaleSandboxesForPod worker pod
      runPodSandbox (createSandboxConfig worker pod)
    else pure (.error e)

def createSandbox : WorkerM (Except KubeletError (String × Option String)) := do
  match ← ensureImage worker.podInfraContainerImage with
  | .error e => pure (.error (.runtime ("failed to pull pod infra container image: " ++ e.text)))
  | .ok _ =>
    match ← recoverExistingSandbox worker pod with
    | .error e => pure (.error e)
    | .ok (some found) => pure (.ok found)
    | .ok none =>
      match ← runNewSandbox worker pod with
      | .error e => pure (.error e)
      | .ok id =>
        match ← podSandboxStatus id with
        | .error e => pure (.error e)
        | .ok status => pure (.ok (id,status.bind (·.network)))

/-- Recovery takes over what runs and the init containers that have exited. -/
def shouldRecover (ctr : RuntimeContainer) : Bool :=
  match ctr.state with
  | .running => true
  | .exited => pod.initContainers.any (fun ic => ic.name == ctr.name)
  | _ => false

/-- `u32::saturating_add(1)`. -/
def saturatingSucc (n : ℕ) : ℕ := min (n + 1) (2 ^ 32 - 1)

def recoverContainer (state : PodRuntimeState) (ctr : RuntimeContainer) : PodRuntimeState :=
  if ctr.podUid = pod.uid.val ∧ state.containerIds.lookup ctr.name = none then
    let recovered := saturatingSucc ctr.attempt
    { state with
      containerIds :=
        if shouldRecover pod ctr then state.containerIds.insert ctr.name ctr.id else state.containerIds
      restartCounts := state.restartCounts.insert ctr.name
        (max recovered ((state.restartCounts.lookup ctr.name).getD 0)) }
  else state

def recoverContainers (state : PodRuntimeState) (ctrs : List RuntimeContainer) : PodRuntimeState :=
  ctrs.foldl (recoverContainer pod) state

def preStop (gracePeriod : ℕ) (name containerId : String) : WorkerM Unit :=
  match (((pod.containers ++ pod.initContainers).find? (fun c => c.name == name)).bind
      (·.lifecycle)).bind (·.preStop) with
  | some handler => runPreStop handler containerId name gracePeriod
  | none => pure ()

/-- The PreStop hook, then a graceful stop, then a forced one. -/
def stopForTermination (gracePeriod : ℕ) (name containerId : String) : WorkerM Unit := do
  preStop pod gracePeriod name containerId
  match ← stopContainer containerId gracePeriod with
  | .ok _ => pure ()
  | .error _ => do
    let _ ← stopContainer containerId 0
    pure ()

def removeWithRetries (containerId : String) : ℕ → WorkerM Unit
  | 0 => pure ()
  | attempts + 1 => do
    match ← removeContainer containerId with
    | .ok _ => pure ()
    | .error _ =>
      if attempts = 0 then pure ()
      else do
        pause 500
        removeWithRetries containerId attempts

def cleanupOwnSandbox (state : PodRuntimeState) : WorkerM Unit :=
  match state.sandboxId with
  | some sandboxId => cleanupSandbox sandboxId
  | none => pure ()

/-- Terminate a pod gracefully. Failures are logged and passed over. -/
def terminatePod (state : PodRuntimeState) (gracePeriod : ℕ) : WorkerM Unit := do
  Program.forEach (fun e => stopForTermination pod gracePeriod e.1 e.2) state.containerIds.entries
  pause 500
  Program.forEach (fun e => removeWithRetries e.2 3) state.containerIds.entries
  cleanupOwnSandbox state
  let _ ← unmountPodVolumes
  Program.forEach (fun e => forgetProbes e.2) state.containerIds.entries

/-- Fallback cleanup of everything the runtime still lists for a UID. -/
def cleanupPodContainerdByUid (podUid : String) : WorkerM Unit := do
  match ← listPodSandboxes with
  | .error _ => pure ()
  | .ok sandboxes =>
    let matching := sandboxes.filter (fun s => s.podUid == podUid)
    if matching.isEmpty then pure ()
    else do
      let containers ← listContainers .podCleanup
      let owned := ((containers.toOption).getD []).filter (fun c => c.podUid == podUid)
      Program.forEach (fun sandbox => do
        Program.forEach (fun ctr => do
          let _ ← stopContainer ctr.id 0
          let _ ← removeContainer ctr.id
          pure ()) owned
        cleanupSandbox sandbox.id) matching

end KubeAir.Worker
