import KubeAir.Core.PodManager
import KubeAir.Worker.State
import KubeAir.Transition.Runs

/-! # Runtime manager as a machine of interleaved tasks

Every critical section of the slot table and of the runtime-state map is one step,
and so is every await between two of them. A task spawned by `sync_pod`, `delete_pod`
or `evict_pod` is an entry of the task table with its own program counter. The
worker is an input: a sync pass may return any result and any runtime state.
-/
namespace KubeAir.Manager
open Core Worker Transition

/-- Execution flags of one pod: at most one active sync, bursts coalesced. -/
structure PodSyncSlot where
  running : Bool := false
  pending : Bool := false
  retryCount : ℕ := 0
deriving DecidableEq, Repr

/-- `u32::saturating_add(1)`. -/
def satSucc32 (n : ℕ) : ℕ := min (n + 1) (2 ^ 32 - 1)

/-- The back-off before a retry, in milliseconds: 500ms, 1s, 2s, … capped at 30s. -/
def retryBackoff (retryCount : ℕ) : ℕ := min (500 * 2 ^ (min retryCount 6 - 1)) 30000

/-- Where the task of a `sync_pod` call stands. -/
inductive SyncPc
  /-- at the head of the loop, about to take the runtime state -/
  | takeState
  /-- inside `worker.sync_pod`, holding the runtime state -/
  | syncing (state : PodRuntimeState)
  /-- about to lock the state map with the result of the pass -/
  | storeResult (result : PodSyncResult) (state : PodRuntimeState)
  | clearRetry
  | reportSynced
  | reportRetry
  | countRetry
  | sleeping (millis : ℕ)
  | reportTerminated
  /-- about to decide between a trailing sync and leaving the loop -/
  | checkPending
  /-- behind the loop, about to clear the slot once more -/
  | trailing
  | exited

/-- The tasks that stop a pod share their body; only a deletion marks the pod, and an
eviction brings its own grace period, in seconds. -/
inductive CleanupKind
  | deletion
  | eviction (gracePeriod : ℕ)
deriving DecidableEq, Repr

/-- Where the task of a `delete_pod` or `evict_pod` call stands. -/
inductive CleanupPc
  | takeState
  | terminating (state : PodRuntimeState)
  /-- polling the slot until no sync runs or the 30 s deadline has passed -/
  | draining
  | cleaning
  | reporting
  | forceDeleting
  | unmarking
  | exited

inductive ManagerTask
  | sync (uid : PodUID) (currentPod : PodSpec) (pc : SyncPc)
  | cleanup (kind : CleanupKind) (pod : PodSpec) (pc : CleanupPc)

/-- The entries of one UID in `sync_slots` and `pod_states`. -/
structure PodCell where
  slot : Option PodSyncSlot
  state : Option PodRuntimeState

namespace PodCell

/-- `locked.remove(&uid).unwrap_or_default()`, the value taken out. -/
def takenState (c : PodCell) : PodRuntimeState := c.state.getD {}

/-- `slots.get(&uid).map(|s| s.running).unwrap_or(false)`. -/
def stillRunning (c : PodCell) : Bool := (c.slot.map (·.running)).getD false

def isPending (c : PodCell) : Bool := (c.slot.map (·.pending)).getD false

/-- The slot acquisition of `sync_pod`: the new entry, and whether to spawn. -/
def acquire (c : PodCell) : PodCell × Bool :=
  let sl := c.slot.getD {}
  if sl.running then ({ c with slot := some { sl with pending := true } },false)
  else ({ c with slot := some { sl with running := true } },true)

/-- The arm of the match on the pass result, up to the release of the state map. -/
def storeResult (c : PodCell) (result : PodSyncResult) (st : PodRuntimeState) : PodCell × SyncPc :=
  match result with
  | .synced => ({ c with state := some st },.clearRetry)
  | .needsRetry _ => ({ c with state := some st },.reportRetry)
  | .failed _ => ({ c with state := some st },.checkPending)
  | .terminated => ({ c with state := none },.reportTerminated)

/-- `retry_count = 0` on success, if the slot still exists. -/
def clearRetry (c : PodCell) : PodCell :=
  { c with slot := c.slot.map (fun sl => { sl with retryCount := 0 }) }

/-- Counting a retry; the slot is created afresh when it has been lost. -/
def countRetry (c : PodCell) : PodCell × ℕ :=
  let sl := c.slot.getD {}
  let sl := { sl with retryCount := satSucc32 sl.retryCount }
  ({ c with slot := some sl },sl.retryCount)

/-- Picking up a newer spec after the back-off. -/
def pollPending (c : PodCell) (desired : Option PodSpec) : PodCell × Option PodSpec :=
  match c.slot with
  | some sl => if sl.pending then ({ c with slot := some { sl with pending := false } },desired) else (c,none)
  | none => (c,none)

/-- The end of an iteration: the pod of the trailing sync, if one is due. -/
def checkPending (c : PodCell) (desired : Option PodSpec) : PodCell × Option PodSpec :=
  match c.slot with
  | some sl =>
    if sl.pending then ({ c with slot := some { sl with pending := false } },desired)
    else ({ c with slot := none },none)
  | none => (c,none)

end PodCell

/-- One step of the task loop of `sync_pod` outside the worker. `desired` is what
`pod_manager.get` answers for the UID of the task. -/
def runSync (desired : Option PodSpec) (pod : PodSpec) (c : PodCell) :
    SyncPc → Option (PodCell × PodSpec × SyncPc)
  | .takeState => some ({ c with state := none },pod,.syncing c.takenState)
  | .syncing _ => none
  | .storeResult result st => some ((c.storeResult result st).1,pod,(c.storeResult result st).2)
  | .clearRetry => some (c.clearRetry,pod,.reportSynced)
  | .reportSynced => some (c,pod,.checkPending)
  | .reportRetry => some (c,pod,.countRetry)
  | .countRetry => some (c.countRetry.1,pod,.sleeping (retryBackoff c.countRetry.2))
  | .sleeping _ => some ((c.pollPending desired).1,(c.pollPending desired).2.getD pod,.takeState)
  | .reportTerminated => some (c,pod,.checkPending)
  | .checkPending =>
    match c.checkPending desired with
    | (c,some next) => some (c,next,.takeState)
    | (c,none) => some (c,pod,.trailing)
  | .trailing => some ({ c with slot := none },pod,.exited)
  | .exited => none

/-- One step of the task of `delete_pod` or `evict_pod` outside its drain wait. -/
def runCleanup (kind : CleanupKind) (c : PodCell) : CleanupPc → Option (PodCell × CleanupPc)
  | .takeState => some ({ c with state := none },.terminating c.takenState)
  | .terminating _ => some (c,.draining)
  | .draining => none
  | .cleaning => some (c,.reporting)
  | .reporting => some (c,.forceDeleting)
  | .forceDeleting =>
    match kind with
    | .deletion => some (c,.unmarking)
    | .eviction _ => some (c,.exited)
  | .unmarking => some (c,.exited)
  | .exited => none

/-- The status that `evict_pod` stores before it terminates the pod. -/
def evictedState (ls : PodLifecycleState) (message : String) (now : DateTime) : PodLifecycleState :=
  { ls with
    phase := .failed
    reason := some "Evicted"
    conditions := ls.conditions.filter (fun c => c.conditionType != .disruptionTarget) ++
      [{ conditionType := .disruptionTarget
         status := .true
         lastTransitionTime := some now
         reason := some "EvictionByEvictionAPI"
         message := some message }] }

structure ManagerState where
  podManager : PodManager := {}
  podStates : HashMap PodUID PodRuntimeState := ∅
  syncSlots : HashMap PodUID PodSyncSlot := ∅
  deletingPods : Finset PodUID := ∅
  tasks : List ManagerTask := []

inductive ManagerAction
  /-- `PodManager::upsert` -/
  | upsert (pod : PodSpec) (now : DateTime)
  /-- `PodManager::remove` -/
  | remove (uid : PodUID) (fallback : Option PodSpec) (now : Instant)
  /-- the slot acquisition of `sync_pod`, together with the spawn -/
  | syncPod (pod : PodSpec)
  | deletePod (pod : PodSpec)
  | evictPod (uid : PodUID) (message : String) (gracePeriod : ℕ) (now : DateTime)
  /-- a worker or the admission check stores the status of a pod -/
  | report (uid : PodUID) (state : PodLifecycleState)
  /-- task `i` runs up to the next lock or await -/
  | run (i : ℕ)
  /-- the sync pass of task `i` returns -/
  | passReturns (i : ℕ) (result : PodSyncResult) (state : PodRuntimeState)
  /-- task `i` polls the slot while it drains; `expired` says that its deadline has passed -/
  | pollDrain (i : ℕ) (expired : Bool)

namespace ManagerState

def cell (s : ManagerState) (uid : PodUID) : PodCell :=
  { slot := s.syncSlots.lookup uid, state := s.podStates.lookup uid }

def setCell (s : ManagerState) (uid : PodUID) (c : PodCell) : ManagerState :=
  { s with
    syncSlots := s.syncSlots.setEntry uid c.slot
    podStates := s.podStates.setEntry uid c.state }

def setTask (s : ManagerState) (i : ℕ) (t : ManagerTask) : ManagerState :=
  { s with tasks := s.tasks.set i t }

def spawn (s : ManagerState) (t : ManagerTask) : ManagerState :=
  { s with tasks := s.tasks ++ [t] }

/-- `RuntimeManager::sync_pod`. -/
def syncPod (s : ManagerState) (pod : PodSpec) : ManagerState :=
  match (s.cell pod.uid).acquire with
  | (c,true) => (s.setCell pod.uid c).spawn (.sync pod.uid pod .takeState)
  | (c,false) => s.setCell pod.uid c

/-- `RuntimeManager::delete_pod`. -/
def deletePod (s : ManagerState) (pod : PodSpec) : ManagerState :=
  { s with deletingPods := insert pod.uid s.deletingPods }.spawn (.cleanup .deletion pod .takeState)

/-- `RuntimeManager::evict_pod`. -/
def evictPod (s : ManagerState) (uid : PodUID) (message : String) (gracePeriod : ℕ) (now : DateTime) :
    ManagerState :=
  match s.podManager.get uid with
  | some pod =>
    let ls := evictedState ((s.podManager.status.get uid).getD {}) message now
    { s with podManager := { s.podManager with status := s.podManager.status.set uid ls } }.spawn
      (.cleanup (.eviction gracePeriod) pod .takeState)
  | none => s

/-- The pod of a finished deletion leaves the deleting set. -/
def unmark (s : ManagerState) (pod : PodSpec) : CleanupPc → ManagerState
  | .unmarking => { s with deletingPods := s.deletingPods.erase pod.uid }
  | _ => s

def step (s : ManagerState) : ManagerAction → Option ManagerState
  | .upsert pod now => some { s with podManager := (s.podManager.upsert pod now).2 }
  | .remove uid fallback now => some { s with podManager := (s.podManager.remove uid fallback now).2 }
  | .syncPod pod => some (s.syncPod pod)
  | .deletePod pod => some (s.deletePod pod)
  | .evictPod uid message gracePeriod now => some (s.evictPod uid message gracePeriod now)
  | .report uid state =>
    some { s with podManager := { s.podManager with status := s.podManager.status.set uid state } }
  | .run i =>
    match s.tasks[i]? with
    | some (.sync uid pod pc) =>
      (runSync (s.podManager.get uid) pod (s.cell uid) pc).map
        (fun (c,pod,pc) => (s.setCell uid c).setTask i (.sync uid pod pc))
    | some (.cleanup kind pod pc) =>
      (runCleanup kind (s.cell pod.uid) pc).map
        (fun (c,pc') => ((s.unmark pod pc).setCell pod.uid c).setTask i (.cleanup kind pod pc'))
    | none => none
  | .passReturns i result st =>
    match s.tasks[i]? with
    | some (.sync uid pod (.syncing _)) => some (s.setTask i (.sync uid pod (.storeResult result st)))
    | _ => none
  | .pollDrain i expired =>
    match s.tasks[i]? with
    | some (.cleanup kind pod .draining) =>
      if (s.cell pod.uid).stillRunning && !expired then some s
      else some (s.setTask i (.cleanup kind pod .cleaning))
    | _ => none

end ManagerState
end KubeAir.Manager
