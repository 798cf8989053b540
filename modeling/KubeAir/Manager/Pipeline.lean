import KubeAir.Manager.HostPort
import KubeAir.Manager.SyncModel
import KubeAir.Worker.Node
import KubeAir.Worker.SyncPod

/-! # The pod pipeline

The runtime manager together with what its tasks execute inside the worker. A call of a
task is answered by the runtime of the node and by the entry of its pod in the status
store, so tasks of different pods share the runtime and nothing else.
-/
namespace KubeAir.Manager
open Core Worker Transition

/-- What a task executes inside the worker, and for which pod. A pass is late if the
stored phase of the pod was terminal when it began. -/
inductive Work
  | pass (uid : PodUID) (late : Bool) (program : WorkerM (PodSyncResult × PodRuntimeState))
  | teardown (uid : PodUID) (program : WorkerM Unit)

/-- The runtime is the node without its status, which is read from the store. -/
structure Pipeline where
  manager : ManagerState := {}
  node : Node := {}
  work : HashMap ℕ Work := ∅

inductive PipelineAction
  | upsert (pod : PodSpec) (now : DateTime)
  | remove (uid : PodUID) (fallback : Option PodSpec) (now : Instant)
  | handleUpdate (update : PodUpdate) (now : DateTime)
  /-- `poll_pleg` handles one event -/
  | plegEvent (uid : PodUID)
  | evictPod (uid : PodUID) (message : String) (gracePeriod : ℕ) (now : DateTime)
  /-- task `i` runs outside the worker up to the next lock or await -/
  | run (i : ℕ)
  | pollDrain (i : ℕ) (expired : Bool)
  /-- the call that task `i` waits for inside the worker is answered -/
  | reply (i : ℕ) (c : Choice)
  /-- task `i` returns from the worker -/
  | finish (i : ℕ)
  /-- a running container exits -/
  | exit (containerId : String) (code : ℤ)

/-- `RuntimeManager::handle_update`. -/
def ManagerState.handleUpdate (s : ManagerState) (update : PodUpdate) (now : DateTime) : ManagerState :=
  match update.op with
  | .remove => s.deletePod update.pod
  | _ =>
    match checkHostPortConflict s.podManager update.pod with
    | some message => { s with podManager := rejectPodAdmission s.podManager update.pod message now }
    | none => s.syncPod update.pod

/-- The body of the loop of `poll_pleg`. -/
def ManagerState.plegEvent (s : ManagerState) (uid : PodUID) : ManagerState :=
  match s.podManager.get uid with
  | some pod => s.syncPod pod
  | none => s

def CleanupKind.gracePeriod (pod : PodSpec) : CleanupKind → ℕ
  | .deletion => pod.terminationGracePeriodSeconds
  | .eviction gracePeriod => gracePeriod

namespace Pipeline

/-- The node as the tasks of one pod see it. -/
def world (s : Pipeline) (uid : PodUID) : Node :=
  { s.node with status := s.manager.podManager.status.get uid }

def putStatus (s : Pipeline) (uid : PodUID) : Option PodLifecycleState → Pipeline
  | some state => { s with manager.podManager.status := s.manager.podManager.status.set uid state }
  | none => s

/-- What a call of a task has changed. -/
def setWorld (s : Pipeline) (uid : PodUID) (w : Node) : Pipeline :=
  { s.putStatus uid w.status with node := w }

def setWork (s : Pipeline) (i : ℕ) (work : Work) : Pipeline := { s with work := s.work.insert i work }

/-- A task that has come into the worker starts to execute what it is there for. -/
def enter (worker : PodWorker) (s : Pipeline) (i : ℕ) : Pipeline :=
  match s.manager.tasks[i]? with
  | some (.sync _ pod (.syncing state)) =>
    s.setWork i (.pass pod.uid (isTerminalStatus s.manager.podManager pod.uid) (syncPod worker pod state))
  | some (.cleanup kind pod (.terminating state)) =>
    s.setWork i (.teardown pod.uid (terminatePod pod state (kind.gracePeriod pod)))
  | some (.cleanup _ pod .cleaning) =>
    s.setWork i (.teardown pod.uid (cleanupPodContainerdByUid pod.uid.val))
  | _ => s

/-- A call of task `i` is answered. -/
def reply (s : Pipeline) (i : ℕ) (c : Choice) : Option Pipeline :=
  match s.work.lookup i with
  | some (.pass uid late (.call op next)) =>
    ((s.world uid).respond op c).map fun r => (s.setWorld uid r.2).setWork i (.pass uid late (next r.1))
  | some (.teardown uid (.call op next)) =>
    ((s.world uid).respond op c).map fun r => (s.setWorld uid r.2).setWork i (.teardown uid (next r.1))
  | _ => none

/-- Task `i` goes on outside the worker. -/
def finish (s : Pipeline) (i : ℕ) : Option Pipeline :=
  let leave := fun m : ManagerState => { s with manager := m, work := s.work.erase i }
  match s.work.lookup i with
  | some (.pass _ _ (.ret (result,state))) => (s.manager.step (.passReturns i result state)).map leave
  | some (.teardown _ (.ret _)) => (s.manager.step (.run i)).map leave
  | _ => none

def step (worker : PodWorker) (s : Pipeline) : PipelineAction → Option Pipeline
  | .upsert pod now => (s.manager.step (.upsert pod now)).map fun m => { s with manager := m }
  | .remove uid fallback now =>
    (s.manager.step (.remove uid fallback now)).map fun m => { s with manager := m }
  | .handleUpdate update now => some { s with manager := s.manager.handleUpdate update now }
  | .plegEvent uid => some { s with manager := s.manager.plegEvent uid }
  | .evictPod uid message gracePeriod now =>
    (s.manager.step (.evictPod uid message gracePeriod now)).map fun m => { s with manager := m }
  | .run i =>
    match s.work.lookup i with
    | some _ => none
    | none => (s.manager.step (.run i)).map fun m => { s with manager := m }.enter worker i
  | .pollDrain i expired =>
    (s.manager.step (.pollDrain i expired)).map fun m => { s with manager := m }.enter worker i
  | .reply i c => s.reply i c
  | .finish i => s.finish i
  | .exit id code => (s.node.exit id code).map fun w => { s with node := w }

end Pipeline
end KubeAir.Manager
