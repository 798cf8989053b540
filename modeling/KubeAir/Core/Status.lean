import KubeAir.Core.Lifecycle

/-! # Pod status store

`PodStatusManager` keeps one lifecycle state per pod UID. Every operation is one
access to a concurrent map, hence atomic.
-/
namespace KubeAir.Core

abbrev PodStatusManager := HashMap PodUID PodLifecycleState

namespace PodStatusManager

def get (m : PodStatusManager) (uid : PodUID) : Option PodLifecycleState := m.lookup uid

def set (m : PodStatusManager) (uid : PodUID) (state : PodLifecycleState) : PodStatusManager :=
  m.insert uid state

/-- The container status that `initialize` gives a container which has not been created. -/
def initialContainerStatus (reason : String) (c : ContainerSpec) : ContainerStatus where
  name := c.name
  state := .waiting reason none
  image := c.image
  started := some false
  resources := some c.resources
  allocatedResources := c.resources.requests

/-- The state stored for a pod that enters the desired set. A start time that is
already stored wins over the one the API server reports, which wins over `now`. -/
def initialState (m : PodStatusManager) (pod : PodSpec) (now : DateTime) : PodLifecycleState where
  startTime := ((get m pod.uid).bind (·.startTime)).or (pod.observedStartTime.or (some now))
  containerStatuses := pod.containers.map (initialContainerStatus "ContainerCreating")
  initContainerStatuses := pod.initContainers.map (initialContainerStatus "PodInitializing")
  conditions :=
    [{ conditionType := .podScheduled, status := .true, lastTransitionTime := some now },
     { conditionType := .initialized
       status := if pod.initContainers.isEmpty then .true else .false
       lastTransitionTime := some now }]

def initializePod (m : PodStatusManager) (pod : PodSpec) (now : DateTime) : PodStatusManager :=
  m.insert pod.uid (initialState m pod now)

variable (m : PodStatusManager) {uid : PodUID}

@[simp] theorem get_empty : get (∅ : PodStatusManager) uid = none := AList.lookup_empty uid

@[simp] theorem get_set (state : PodLifecycleState) : get (set m uid state) uid = some state :=
  AList.lookup_insert m

theorem get_set_ne {uid' : PodUID} (h : uid ≠ uid') (state : PodLifecycleState) :
    get (set m uid' state) uid = get m uid :=
  AList.lookup_insert_ne h

@[simp] theorem get_initializePod (pod : PodSpec) (now : DateTime) :
    get (initializePod m pod now) pod.uid = some (initialState m pod now) :=
  AList.lookup_insert m

theorem get_initializePod_ne {pod : PodSpec} (h : uid ≠ pod.uid) (now : DateTime) :
    get (initializePod m pod now) uid = get m uid :=
  AList.lookup_insert_ne h

@[simp] theorem initialState_phase (pod : PodSpec) (now : DateTime) :
    (initialState m pod now).phase = .pending := rfl

end PodStatusManager
end KubeAir.Core
