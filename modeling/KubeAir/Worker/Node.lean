import KubeAir.Worker.Request

/-! # The world behind the worker

A container runtime that answers truthfully or not at all: a call either takes effect or
fails and changes nothing, and a container changes by itself only by exiting. The answer to
a call that has taken effect can be lost, so that it fails for the worker alone. The log of
starts and exits, newest first, is what the laws about a run are stated over.
-/
namespace KubeAir.Worker
open Core Transition

/-- A container of the runtime, which stores it under its ID. -/
structure ContainerRecord where
  podUid : String
  sandboxId : String
  name : String
  imageRef : String := ""
  attempt : ℕ := 0
  state : RuntimeContainerState := .created
  startedAt : Option DateTime := none
  finishedAt : Option DateTime := none
  exitCode : Option ℤ := none
deriving DecidableEq, Repr

inductive Event
  | started (podUid sandboxId name : String)
  | exited (podUid name : String) (code : ℤ)
deriving DecidableEq, Repr

structure Node where
  containers : HashMap String ContainerRecord := ∅
  sandboxes : HashMap String SandboxStatus := ∅
  status : Option PodLifecycleState := none
  clock : DateTime := 0
  uptime : Instant := 0
  log : List Event := []

/-- What the environment chooses when it answers a call. -/
inductive Choice
  | accept
  | fault (e : KubeletError)
  | named (id : String)
  | message (msg : Option String)
  | time (t : ℤ)
  | listed (ids : List String)
  | flag (b : Option Bool)

instance (c : Choice) : Decidable (∀ e, c ≠ .fault e) :=
  match c with
  | .fault e => .isFalse fun h => h e rfl
  | .accept | .named _ | .message _ | .time _ | .listed _ | .flag _ => .isTrue fun _ => nofun

/-- How a call ends for the worker: with the answer, or with an error in its place. -/
inductive Outcome
  | reply (c : Choice)
  | lost (c : Choice) (e : KubeletError)

/-- The call has not taken effect. -/
def Outcome.fails : Outcome → Bool
  | .reply (.fault _) => true
  | .lost (.fault _) _ => true
  | _ => false

/-- The worker is told of an error. -/
def Outcome.errs : Outcome → Bool
  | .reply (.fault _) => true
  | .lost .. => true
  | _ => false

/-- A call that can fail is answered with the error. -/
def Request.failure (e : KubeletError) : (op : Request) → Option op.Answer
  | .ensurePodVolumes _ => some (.error e)
  | .unmountPodVolumes => some (.error e)
  | .ensureImage _ => some (.error e)
  | .prepareContainer _ => some (.error e)
  | .runPodSandbox _ => some (.error e)
  | .stopPodSandbox _ => some (.error e)
  | .removePodSandbox _ => some (.error e)
  | .podSandboxStatus _ => some (.error e)
  | .listPodSandboxes => some (.error e)
  | .createContainer _ => some (.error e)
  | .startContainer _ => some (.error e)
  | .stopContainer .. => some (.error e)
  | .removeContainer _ => some (.error e)
  | .listContainers _ => some (.error e)
  | .containerStatus .. => some (.error e)
  | .updateContainerResources .. => some (.error e)
  | .runPostStart .. => some (.error e)
  | .reportPodStatus _ => some (.error e)
  | _ => none

/-- The status of a container, with the labels the runtime client sets. -/
def ContainerRecord.observed (id : String) (r : ContainerRecord) : RuntimeContainer where
  id := id
  podUid := r.podUid
  name := r.name
  imageRef := r.imageRef
  state := r.state
  startedAt := r.startedAt
  finishedAt := r.finishedAt
  exitCode := r.exitCode
  labels := (AList.insert "kubelet.rs/container_name" r.name ∅).insert "kubelet.rs/pod_uid" r.podUid
  attempt := r.attempt

/-- A listing shows no times and no exit code. -/
def ContainerRecord.listed (id : String) (r : ContainerRecord) : RuntimeContainer :=
  { r.observed id with startedAt := none, finishedAt := none, exitCode := none }

namespace Node
variable (w : Node)

/-- A call that takes effect if it may, or fails. -/
def commit (may : Bool) (next : Node) : Choice → Option (Except KubeletError Unit × Node)
  | .accept => if may then some (.ok (),next) else none
  | .fault e => some (.error e,w)
  | _ => none

/-- A call that reads a value, or fails. -/
def read {α : Type} (a : α) : Choice → Option (Except KubeletError α × Node)
  | .accept => some (.ok a,w)
  | .fault e => some (.error e,w)
  | _ => none

def isRunning (id : String) : Bool :=
  ((w.containers.lookup id).map (fun r => decide (r.state = .running))).getD false

def anyRunningIn (sandboxId : String) : Bool :=
  w.containers.entries.any (fun e => e.2.sandboxId == sandboxId && decide (e.2.state = .running))

def put (id : String) (r : ContainerRecord) : Node := { w with containers := w.containers.insert id r }

def drop (id : String) : Node := { w with containers := w.containers.erase id }

/-- Removing a sandbox removes its containers. -/
def dropSandbox (sandboxId : String) : Node :=
  { w with
    sandboxes := w.sandboxes.erase sandboxId
    containers := (w.containers.entries.filter (fun e => e.2.sandboxId ≠ sandboxId)).toAList }

def newRecord (config : CreateContainerConfig) : ContainerRecord where
  podUid := config.podUid
  sandboxId := config.sandboxId
  name := config.container.name
  imageRef := config.imageId
  attempt := config.attempt

def newSandbox (id : String) (config : CreateSandboxConfig) : SandboxStatus where
  id := id
  podUid := config.podUid
  podName := config.podName
  podNamespace := config.podNamespace
  state := .ready
  labels := (AList.insert "io.kubernetes.pod.name" config.podName ∅).insert
    "io.kubernetes.pod.namespace" config.podNamespace

/-- A container that has been created starts to run. -/
def start (id : String) (r : ContainerRecord) : Node :=
  { w.put id { r with state := .running, startedAt := some w.clock } with
    log := .started r.podUid r.sandboxId r.name :: w.log }

/-- The container that an error names as holding a reserved name has that name. -/
def reservedHonestly (config : CreateContainerConfig) (e : KubeletError) : Bool :=
  match (reservedContainerId e.text).bind w.containers.lookup with
  | some r => r.podUid == config.podUid && r.name == config.container.name
  | none => true

/-- The answer to a call and the world after it. -/
def respond (r : Request) (c : Choice) : Option (r.Answer × Node) :=
  match r with
  | .now =>
    match c with
    | .time t => if w.clock ≤ t then some (t,{ w with clock := t }) else none
    | _ => none
  | .instant =>
    match c with
    | .time t => if (w.uptime : ℤ) ≤ t then some (t.toNat,{ w with uptime := t.toNat }) else none
    | _ => none
  | .sleep _ => some ((),w)
  | .pause _ => some ((),w)
  | .ensurePodVolumes _ => w.commit true w c
  | .unmountPodVolumes => w.commit true w c
  | .ensureImage _ =>
    match c with
    | .named id => some (.ok id,w)
    | .fault e => some (.error e,w)
    | _ => none
  | .prepareContainer _ =>
    match c with
    | .message msg => some (.ok msg,w)
    | .fault e => some (.error e,w)
    | _ => none
  | .runPodSandbox config =>
    match c with
    | .named id =>
      if w.sandboxes.lookup id = none then
        some (.ok id,{ w with sandboxes := w.sandboxes.insert id (newSandbox id config) })
      else none
    | .fault e => some (.error e,w)
    | _ => none
  | .stopPodSandbox id =>
    let stopped := (w.sandboxes.lookup id).map (fun s => { s with state := .notReady })
    w.commit (!w.anyRunningIn id) { w with sandboxes := w.sandboxes.setEntry id stopped } c
  | .removePodSandbox id => w.commit (!w.anyRunningIn id) (w.dropSandbox id) c
  | .podSandboxStatus id => w.read (w.sandboxes.lookup id) c
  | .listPodSandboxes =>
    match c with
    | .listed ids =>
      if ids.Perm w.sandboxes.keys then some (.ok (ids.filterMap w.sandboxes.lookup),w) else none
    | .fault e => some (.error e,w)
    | _ => none
  | .createContainer config =>
    match c with
    | .named id => if w.containers.lookup id = none then some (.ok id,w.put id (newRecord config)) else none
    | .fault e => if w.reservedHonestly config e then some (.error e,w) else none
    | _ => none
  | .startContainer id =>
    match w.containers.lookup id with
    | some r => w.commit (r.state = .created) (w.start id r) c
    | none => w.commit false w c
  | .stopContainer id _ => w.commit (!w.isRunning id) w c
  | .removeContainer id => w.commit true (w.drop id) c
  | .listContainers _ =>
    match c with
    | .listed ids =>
      if ids.Perm w.containers.keys then
        some (.ok (ids.filterMap (fun id => (w.containers.lookup id).map (ContainerRecord.listed id))),w)
      else none
    | .fault e => some (.error e,w)
    | _ => none
  | .containerStatus _ id => w.read ((w.containers.lookup id).map (ContainerRecord.observed id)) c
  | .updateContainerResources .. => w.commit true w c
  | .runPostStart .. => w.commit true w c
  | .runPreStop .. => some ((),w)
  | .getStatus => some (w.status,w)
  | .setStatus state => some ((),{ w with status := some state })
  | .reportPodStatus _ => w.commit true w c
  | .containerStartupDone _ =>
    match c with
    | .flag b => some (b,w)
    | _ => none
  | .containerReadiness _ =>
    match c with
    | .flag b => some (b,w)
    | _ => none
  | .forgetProbes _ => some ((),w)
  | .spawnProbe .. => some ((),w)
  | .readTerminationMessage .. =>
    match c with
    | .message msg => some (msg,w)
    | _ => none

/-- The answer to a call and the world after it, as the call ends. -/
def settle (op : Request) : Outcome → Option (op.Answer × Node)
  | .reply c => w.respond op c
  | .lost c e => (w.respond op c).bind fun r => (op.failure e).map fun a => (a,r.2)

/-- A running container exits. -/
def exit (id : String) (code : ℤ) : Option Node :=
  match w.containers.lookup id with
  | some r =>
    if r.state = .running then
      some { w.put id { r with state := .exited, exitCode := some code, finishedAt := some w.clock } with
        log := .exited r.podUid r.name code :: w.log }
    else none
  | none => none

end Node
end KubeAir.Worker
