import KubeAir.Core.Lifecycle
import KubeAir.Transition.Program
import Mathlib.Data.List.Infix
import KubeAir.Worker.ContainerSecurity

/-! # What the worker asks for

The calls of the pod worker to the container runtime, the image and volume managers,
the status store, the clocks and the probers, each with the type of its answer. Metrics,
log lines, events, checkpoints and the pod cgroup have no answer the worker acts on and
are left out.
-/
namespace KubeAir.Worker
open Core Transition

inductive RuntimeContainerState
  | created
  | running
  | exited
  | unknown
deriving DecidableEq, Repr

structure RuntimeContainer where
  id : String
  podUid : String
  name : String
  imageRef : String := ""
  state : RuntimeContainerState
  startedAt : Option DateTime := none
  finishedAt : Option DateTime := none
  exitCode : Option ℤ := none
  labels : HashMap String String := ∅
  attempt : ℕ := 0

inductive SandboxState
  | ready
  | notReady
deriving DecidableEq, Repr

/-- Sandbox status; of its network only the address is read. -/
structure SandboxStatus where
  id : String
  podUid : String
  podName : String
  podNamespace : String
  state : SandboxState
  network : Option String := none
  labels : HashMap String String := ∅

structure CreateContainerConfig where
  podUid : String
  podName : String
  podNamespace : String
  attempt : ℕ
  container : ContainerSpec
  sandboxId : String
  imageId : String
  security : LinuxContainerSecurity
  shareProcessNamespace : Bool

structure CreateSandboxConfig where
  podUid : String
  podName : String
  podNamespace : String
  hostNetwork : Bool
  sandboxImage : String

/-- Where the worker lists containers from. The runtime does not see it. -/
inductive ListSite
  | recovery (sandboxId : String)
  | nameCleanup
  | podCleanup
deriving DecidableEq, Repr

/-- Whether the answer decides about a restart or is only reported. -/
inductive StatusSite
  | decision
  | report
deriving DecidableEq, Repr

inductive ProbeKind
  | startup
  | liveness
  | readiness
deriving DecidableEq, Repr

inductive Request
  | now
  | instant
  | sleep (seconds : ℕ)
  | pause (millis : ℕ)
  | ensurePodVolumes (podIp : Option String)
  | unmountPodVolumes
  | ensureImage (image : String)
  | prepareContainer (container : ContainerSpec)
  | runPodSandbox (config : CreateSandboxConfig)
  | stopPodSandbox (sandboxId : String)
  | removePodSandbox (sandboxId : String)
  | podSandboxStatus (sandboxId : String)
  | listPodSandboxes
  | createContainer (config : CreateContainerConfig)
  | startContainer (containerId : String)
  | stopContainer (containerId : String) (timeoutSeconds : ℕ)
  | removeContainer (containerId : String)
  | listContainers (site : ListSite)
  | containerStatus (site : StatusSite) (containerId : String)
  | updateContainerResources (containerId : String)
      (cpuShares cpuQuota cpuPeriod memoryLimitBytes : ℤ)
  | runPostStart (handler : LifecycleHandler) (containerId containerName : String)
  | runPreStop (handler : LifecycleHandler) (containerId containerName : String) (gracePeriod : ℕ)
  | getStatus
  | setStatus (state : PodLifecycleState)
  | reportPodStatus (state : PodLifecycleState)
  | containerStartupDone (containerId : String)
  | containerReadiness (containerId : String)
  | forgetProbes (containerId : String)
  | spawnProbe (kind : ProbeKind) (containerId podIp : String)
  | readTerminationMessage (container : ContainerSpec) (exitCode : ℤ)

/-- Preparing a container resolves its image, environment and mounts; the answer is
the message of an invalid `subPathExpr`, if there is one. -/
abbrev Request.Answer : Request → Type
  | .now => DateTime
  | .instant => Instant
  | .sleep _ => Unit
  | .pause _ => Unit
  | .ensurePodVolumes _ => Except KubeletError Unit
  | .unmountPodVolumes => Except KubeletError Unit
  | .ensureImage _ => Except KubeletError String
  | .prepareContainer _ => Except KubeletError (Option String)
  | .runPodSandbox _ => Except KubeletError String
  | .stopPodSandbox _ => Except KubeletError Unit
  | .removePodSandbox _ => Except KubeletError Unit
  | .podSandboxStatus _ => Except KubeletError (Option SandboxStatus)
  | .listPodSandboxes => Except KubeletError (List SandboxStatus)
  | .createContainer _ => Except KubeletError String
  | .startContainer _ => Except KubeletError Unit
  | .stopContainer .. => Except KubeletError Unit
  | .removeContainer _ => Except KubeletError Unit
  | .listContainers _ => Except KubeletError (List RuntimeContainer)
  | .containerStatus .. => Except KubeletError (Option RuntimeContainer)
  | .updateContainerResources .. => Except KubeletError Unit
  | .runPostStart .. => Except KubeletError Unit
  | .runPreStop .. => Unit
  | .getStatus => Option PodLifecycleState
  | .setStatus _ => Unit
  | .reportPodStatus _ => Except KubeletError Unit
  | .containerStartupDone _ => Option Bool
  | .containerReadiness _ => Option Bool
  | .forgetProbes _ => Unit
  | .spawnProbe .. => Unit
  | .readTerminationMessage .. => Option String

abbrev WorkerM (α : Type) := Program Request Request.Answer α

def ask (request : Request) : WorkerM request.Answer := Program.request request

/-! The calls under the names of the ports. -/

def now : WorkerM DateTime := ask .now
def instant : WorkerM Instant := ask .instant
def sleep (seconds : ℕ) : WorkerM Unit := ask (.sleep seconds)
/-- `tokio::time::sleep` between the calls that take a pod down. -/
def pause (millis : ℕ) : WorkerM Unit := ask (.pause millis)
def ensurePodVolumes (podIp : Option String) : WorkerM (Except KubeletError Unit) :=
  ask (.ensurePodVolumes podIp)
def unmountPodVolumes : WorkerM (Except KubeletError Unit) := ask .unmountPodVolumes
def ensureImage (image : String) : WorkerM (Except KubeletError String) := ask (.ensureImage image)
def prepareContainer (container : ContainerSpec) : WorkerM (Except KubeletError (Option String)) :=
  ask (.prepareContainer container)
def runPodSandbox (config : CreateSandboxConfig) : WorkerM (Except KubeletError String) :=
  ask (.runPodSandbox config)
def stopPodSandbox (sandboxId : String) : WorkerM (Except KubeletError Unit) :=
  ask (.stopPodSandbox sandboxId)
def removePodSandbox (sandboxId : String) : WorkerM (Except KubeletError Unit) :=
  ask (.removePodSandbox sandboxId)
def podSandboxStatus (sandboxId : String) : WorkerM (Except KubeletError (Option SandboxStatus)) :=
  ask (.podSandboxStatus sandboxId)
def listPodSandboxes : WorkerM (Except KubeletError (List SandboxStatus)) := ask .listPodSandboxes
def createContainer (config : CreateContainerConfig) : WorkerM (Except KubeletError String) :=
  ask (.createContainer config)
def runtimeStartContainer (containerId : String) : WorkerM (Except KubeletError Unit) :=
  ask (.startContainer containerId)
def stopContainer (containerId : String) (timeoutSeconds : ℕ) : WorkerM (Except KubeletError Unit) :=
  ask (.stopContainer containerId timeoutSeconds)
def removeContainer (containerId : String) : WorkerM (Except KubeletError Unit) :=
  ask (.removeContainer containerId)
def listContainers (site : ListSite) : WorkerM (Except KubeletError (List RuntimeContainer)) :=
  ask (.listContainers site)
def containerStatus (containerId : String) : WorkerM (Except KubeletError (Option RuntimeContainer)) :=
  ask (.containerStatus .decision containerId)
def reportedStatus (containerId : String) : WorkerM (Except KubeletError (Option RuntimeContainer)) :=
  ask (.containerStatus .report containerId)
def updateContainerResources (containerId : String)
    (cpuShares cpuQuota cpuPeriod memoryLimitBytes : ℤ) : WorkerM (Except KubeletError Unit) :=
  ask (.updateContainerResources containerId cpuShares cpuQuota cpuPeriod memoryLimitBytes)
def runPostStart (handler : LifecycleHandler) (containerId containerName : String) :
    WorkerM (Except KubeletError Unit) :=
  ask (.runPostStart handler containerId containerName)
def runPreStop (handler : LifecycleHandler) (containerId containerName : String) (gracePeriod : ℕ) : WorkerM Unit :=
  ask (.runPreStop handler containerId containerName gracePeriod)
def getStatus : WorkerM (Option PodLifecycleState) := ask .getStatus
def setStatus (state : PodLifecycleState) : WorkerM Unit := ask (.setStatus state)
def reportPodStatus (state : PodLifecycleState) : WorkerM (Except KubeletError Unit) :=
  ask (.reportPodStatus state)
def containerStartupDone (containerId : String) : WorkerM (Option Bool) :=
  ask (.containerStartupDone containerId)
def containerReadiness (containerId : String) : WorkerM (Option Bool) :=
  ask (.containerReadiness containerId)
def forgetProbes (containerId : String) : WorkerM Unit := ask (.forgetProbes containerId)
def spawnProbe (kind : ProbeKind) (containerId podIp : String) : WorkerM Unit :=
  ask (.spawnProbe kind containerId podIp)
def readTerminationMessage (container : ContainerSpec) (exitCode : ℤ) : WorkerM (Option String) :=
  ask (.readTerminationMessage container exitCode)

/-! Classification of errors by their text. -/

def contains (s pattern : String) : Bool := pattern.toList <:+: s.toList

def isSandboxNotFoundError : KubeletError → Bool
  | .runtime msg =>
    let lower := msg.toLower
    (contains lower "notfound" || contains lower "not found") &&
      (contains lower "sandbox" || contains lower "find sandbox")
  | _ => false

def isRegistryAuthError : KubeletError → Bool
  | .runtime msg =>
    let lower := msg.toLower
    contains lower "403" || contains lower "forbidden" || contains lower "unauthorized" ||
      contains lower "authentication required" || contains lower "pull access denied"
  | _ => false

/-- `input.find(marker)`, as the text that follows the marker. -/
def afterMarker (marker : List Char) : List Char → Option (List Char)
  | [] => if marker = [] then some [] else none
  | c :: rest =>
    if marker <+: c :: rest then some ((c :: rest).drop marker.length) else afterMarker marker rest

/-- `input.replace("\\\"", "\"")`. -/
def unescapeQuotes : List Char → List Char
  | '\\' :: '"' :: rest => '"' :: unescapeQuotes rest
  | c :: rest => c :: unescapeQuotes rest
  | [] => []

def extractQuotedValue (input marker : String) : Option String := do
  let tail ← afterMarker marker.toList (unescapeQuotes input.toList)
  match tail.dropWhile (fun c => c.isWhitespace) with
  | '"' :: quoted =>
    if '"' ∈ quoted then some (String.ofList (quoted.takeWhile (fun c => c ≠ '"'))) else none
  | _ => none

def reservedContainerName (error : String) : Option String :=
  extractQuotedValue error "failed to reserve container name"

def reservedContainerId (error : String) : Option String :=
  extractQuotedValue error "is reserved for"

end KubeAir.Worker
