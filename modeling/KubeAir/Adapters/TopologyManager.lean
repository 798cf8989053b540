import KubeAir.Adapters.ResourceManager
import Mathlib.Data.Finset.Max

/-! # Topology manager

A container is admitted when its hints agree on NUMA nodes, as far as the policy asks for
it. The hints are made up from the number of nodes.
-/
namespace KubeAir.Adapters
open Core

/-- A hint from a resource provider about NUMA affinity. -/
structure TopologyHint where
  /-- the nodes that satisfy the hint, if it prefers any -/
  numaAffinity : Option (Finset ℕ)
  preferred : Bool

namespace TopologyHint

def noPreference : TopologyHint := ⟨none,true⟩

def withNumaNodes (nodes : Finset ℕ) (preferred : Bool) : TopologyHint := ⟨some nodes,preferred⟩

def intersect (h other : TopologyHint) : TopologyHint :=
  match h.numaAffinity,other.numaAffinity with
  | none,none => noPreference
  | some a,none => withNumaNodes a (h.preferred && other.preferred)
  | none,some a => withNumaNodes a (h.preferred && other.preferred)
  | some a,some b => withNumaNodes (a ∩ b) (h.preferred && other.preferred)

def isEmptyAffinity (h : TopologyHint) : Bool := (h.numaAffinity.map (fun s => decide (s = ∅))).getD false

end TopologyHint

inductive TopologyPolicy
  | none
  | bestEffort
  | restricted
  | singleNumaNode
deriving DecidableEq, Repr

def TopologyPolicy.parse (s : String) : TopologyPolicy :=
  if s = "best-effort" then .bestEffort
  else if s = "restricted" then .restricted
  else if s = "single-numa-node" then .singleNumaNode
  else .none

structure TopologyManager where
  policy : TopologyPolicy
  acceptedHints : HashMap (String × String) TopologyHint := ∅

namespace TopologyManager

def new (policy : String) : TopologyManager := { policy := .parse policy }

def mergeHints : List TopologyHint → TopologyHint
  | [] => .noPreference
  | h :: hints => hints.foldl .intersect h

/-- The node with the lowest ID among those that satisfy the hint. -/
def singleNumaHint (merged : TopologyHint) : Option TopologyHint :=
  merged.numaAffinity.bind fun affinity =>
    if h : affinity.Nonempty then some (.withNumaNodes {affinity.min' h} true) else none

def record (m : TopologyManager) (podUid : PodUID) (containerName : String) (hint : TopologyHint) : TopologyManager :=
  { m with acceptedHints := m.acceptedHints.insert (podUid.val,containerName) hint }

def notAligned (podUid : PodUID) (containerName : String) : KubeletError :=
  .admission ("topology restricted: no aligned NUMA resources for " ++ podUid.val ++ "/" ++ containerName)

def notOnOneNode (podUid : PodUID) (containerName : String) : KubeletError :=
  .admission ("topology single-numa-node: cannot satisfy on one NUMA node for " ++ podUid.val ++ "/" ++ containerName)

/-- Admit a container, computing the merged topology hint. -/
def admitHints (m : TopologyManager) (podUid : PodUID) (containerName : String) (hints : List TopologyHint) :
    Except KubeletError TopologyHint × TopologyManager :=
  let merged := mergeHints hints
  match m.policy with
  | .none => (.ok .noPreference,m)
  | .bestEffort =>
    let hint := if merged.isEmptyAffinity then .noPreference else merged
    (.ok hint,m.record podUid containerName hint)
  | .restricted =>
    if merged.isEmptyAffinity then (.error (notAligned podUid containerName),m)
    else (.ok merged,m.record podUid containerName merged)
  | .singleNumaNode =>
    match singleNumaHint merged with
    | some h => (.ok h,m.record podUid containerName h)
    | none => (.error (notOnOneNode podUid containerName),m)

/-- Removing the hints of a pod. -/
def removePod (m : TopologyManager) (podUid : PodUID) : TopologyManager :=
  { m with acceptedHints := (m.acceptedHints.keys.filter (fun k => k.1 = podUid.val)).foldl (·.erase ·) m.acceptedHints }

def getHint (m : TopologyManager) (podUid : PodUID) (containerName : String) : Option TopologyHint :=
  m.acceptedHints.lookup (podUid.val,containerName)

end TopologyManager

/-- The resource manager with the topology manager beside the other three. -/
structure AlignedResourceManager where
  resources : ResourceManager
  topology : TopologyManager

namespace AlignedResourceManager

/-- The hints of the CPU manager and of the memory manager. -/
def hints (s : AlignedResourceManager) : List TopologyHint :=
  [.noPreference,.withNumaNodes (Finset.range s.resources.memory.numaNodes.length) true]

/-- Topology checks for a container. -/
def admitContainer (s : AlignedResourceManager) (podUid : PodUID) (container : ContainerSpec) :
    Except KubeletError Unit × AlignedResourceManager :=
  match s.topology.admitHints podUid container.name s.hints with
  | (.ok _,topology) => (.ok (),{ s with topology := topology })
  | (.error e,topology) => (.error e,{ s with topology := topology })

def allocate (utilization : NumaNode → ℕ) (rpc : PluginRpc) (s : AlignedResourceManager) (pod : PodSpec)
    (container : ContainerSpec) : Except KubeletError ContainerResources × AlignedResourceManager :=
  match s.resources.allocate utilization rpc pod container with
  | (r,resources) => (r,{ s with resources := resources })

/-- Release all resources allocated to a pod. -/
def releasePod (s : AlignedResourceManager) (podUid : PodUID) (containers : List String) : AlignedResourceManager where
  resources :=
    { cpu := containers.foldl (fun m containerName => m.release podUid containerName) s.resources.cpu
      memory := containers.foldl (fun m containerName => m.release podUid containerName) s.resources.memory
      devices := s.resources.devices.deallocatePod podUid }
  topology := s.topology.removePod podUid

end AlignedResourceManager

inductive ResourceCall
  | admitContainer (podUid : PodUID) (container : ContainerSpec)
  | allocate (rpc : PluginRpc) (pod : PodSpec) (container : ContainerSpec)
  | releasePod (podUid : PodUID) (containers : List String)
  /-- what plugins and others do to the device manager -/
  | devices (m : DeviceManager)

def AlignedResourceManager.step (utilization : NumaNode → ℕ) (s : AlignedResourceManager) :
    ResourceCall → AlignedResourceManager
  | .admitContainer podUid container => (s.admitContainer podUid container).2
  | .allocate rpc pod container => (s.allocate utilization rpc pod container).2
  | .releasePod podUid containers => s.releasePod podUid containers
  | .devices m => { s with resources := { s.resources with devices := m } }

end KubeAir.Adapters
