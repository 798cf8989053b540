import KubeAir.Core.Pod

/-! # Device manager

Device plugins advertise devices of a resource. An allocation reserves device IDs in the
endpoint of the plugin, asks the plugin, and then records them for the pod or takes the
reservation back. The two tables are updated in critical sections of their own.
-/
namespace KubeAir.Adapters
open Core

inductive DeviceHealth
  | healthy
  | unhealthy
deriving DecidableEq, Repr

/-- A single device advertised by a plugin. -/
structure Device where
  id : String
  health : DeviceHealth
deriving DecidableEq, Repr

structure DeviceSpec where
  containerPath : String
  hostPath : String
  permissions : String
deriving DecidableEq, Repr

structure Mount where
  containerPath : String
  hostPath : String
  readOnly : Bool
deriving DecidableEq, Repr

/-- What a plugin returns when Allocate is called. -/
structure AllocateResponse where
  envs : HashMap String String := ∅
  devices : List DeviceSpec := []
  mounts : List Mount := []

/-- A registered device plugin. Its allocations are kept under the key of the container. -/
structure PluginEndpoint where
  resourceName : String
  socketPath : String
  devices : List Device := []
  allocations : HashMap String (List String) := ∅

namespace PluginEndpoint

def allocated (ep : PluginEndpoint) : List String := ep.allocations.entries.flatMap (·.2)

def available (ep : PluginEndpoint) : List Device :=
  ep.devices.filter (fun d => d.health = .healthy && !ep.allocated.contains d.id)

def availableCount (ep : PluginEndpoint) : ℕ := ep.available.length

/-- The first `count` available device IDs. -/
def allocateDevices (ep : PluginEndpoint) (count : ℕ) : Option (List String) :=
  let ids := (ep.available.take count).map (·.id)
  if ids.length < count then none else some ids

end PluginEndpoint

abbrev DeviceIdsByResource := HashMap String (List String)
abbrev ContainerDeviceAllocations := HashMap String DeviceIdsByResource

structure DeviceManager where
  /-- resource name to plugin endpoint -/
  plugins : HashMap String PluginEndpoint := ∅
  /-- pod to container to resource to device IDs -/
  podAllocations : HashMap String ContainerDeviceAllocations := ∅

def allocationKey (podUid : PodUID) (containerName : String) : String := podUid.val ++ ":" ++ containerName

/-- The plugin's answer to an Allocate call on its socket. -/
abbrev PluginRpc := String → String → List String → Except KubeletError AllocateResponse

namespace DeviceManager

def registerPlugin (m : DeviceManager) (resourceName socketPath : String) : DeviceManager :=
  { m with plugins := m.plugins.insert resourceName { resourceName := resourceName, socketPath := socketPath } }

/-- Update the device list from a ListAndWatch stream event. -/
def updateDevices (m : DeviceManager) (resourceName : String) (devices : List Device) : DeviceManager :=
  match m.plugins.lookup resourceName with
  | some ep => { m with plugins := m.plugins.insert resourceName { ep with devices := devices } }
  | none => m

def noDevicePlugin (resourceName : String) : KubeletError :=
  .resource ("no device plugin for resource '" ++ resourceName ++ "'")

def notEnoughDevices (resourceName : String) (need available : ℕ) : KubeletError :=
  .resource ("not enough '" ++ resourceName ++ "' devices: need " ++ toString need ++ ", available " ++
    toString available)

def reserveIn (m : DeviceManager) (ep : PluginEndpoint) (key resourceName : String) (ids : List String) :
    DeviceManager :=
  { m with plugins := m.plugins.insert resourceName { ep with allocations := ep.allocations.insert key ids } }

/-- The first critical section of `allocate`: the device IDs and the socket of the plugin. -/
def reserve (m : DeviceManager) (podUid : PodUID) (containerName resourceName : String) (count : ℕ) :
    Except KubeletError (List String × String) × DeviceManager :=
  match m.plugins.lookup resourceName with
  | none => (.error (noDevicePlugin resourceName),m)
  | some ep =>
    match ep.allocateDevices count with
    | none => (.error (notEnoughDevices resourceName count ep.availableCount),m)
    | some ids => (.ok (ids,ep.socketPath),m.reserveIn ep (allocationKey podUid containerName) resourceName ids)

/-- The critical section of `allocate` after the plugin has failed. -/
def dropReservation (m : DeviceManager) (podUid : PodUID) (containerName resourceName : String) : DeviceManager :=
  match m.plugins.lookup resourceName with
  | none => m
  | some ep =>
    { m with
      plugins := m.plugins.insert resourceName
        { ep with allocations := ep.allocations.erase (allocationKey podUid containerName) } }

/-- The critical section of `allocate` after the plugin has answered. -/
def record (m : DeviceManager) (podUid : PodUID) (containerName resourceName : String) (ids : List String) :
    DeviceManager :=
  let containers := (m.podAllocations.lookup podUid.val).getD ∅
  let resources := (containers.lookup containerName).getD ∅
  let recorded := (resources.lookup resourceName).getD []
  { m with
    podAllocations := m.podAllocations.insert podUid.val
      (containers.insert containerName (resources.insert resourceName (recorded ++ ids))) }

/-- Allocate devices for a container, with nothing in between its critical sections. -/
def allocate (m : DeviceManager) (rpc : PluginRpc) (podUid : PodUID) (containerName resourceName : String)
    (count : ℕ) : Except KubeletError AllocateResponse × DeviceManager :=
  match m.reserve podUid containerName resourceName count with
  | (.error e,m) => (.error e,m)
  | (.ok (ids,socketPath),m) =>
    match rpc resourceName socketPath ids with
    | .ok response => (.ok response,m.record podUid containerName resourceName ids)
    | .error e => (.error e,m.dropReservation podUid containerName resourceName)

/-- Taking released IDs out of the allocation of a container. -/
def releaseIds (plugins : HashMap String PluginEndpoint) (key resourceName : String) (released : List String) :
    HashMap String PluginEndpoint :=
  match plugins.lookup resourceName with
  | none => plugins
  | some ep =>
    match ep.allocations.lookup key with
    | none => plugins
    | some ids =>
      let kept := ids.filter (fun id => !released.contains id)
      plugins.insert resourceName
        { ep with allocations := if kept.isEmpty then ep.allocations.erase key else ep.allocations.insert key kept }

/-- Release all devices allocated to a pod. -/
def deallocatePod (m : DeviceManager) (podUid : PodUID) : DeviceManager :=
  match m.podAllocations.lookup podUid.val with
  | none => m
  | some containers =>
    { plugins := containers.entries.foldl (fun plugins c =>
        c.2.entries.foldl (fun plugins r =>
          releaseIds plugins (allocationKey podUid c.1) r.1 r.2) plugins) m.plugins
      podAllocations := m.podAllocations.erase podUid.val }

end DeviceManager
end KubeAir.Adapters
