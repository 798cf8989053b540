import KubeAir.Adapters.CpuManager
import KubeAir.Adapters.DeviceManager
import KubeAir.Adapters.MemoryManager

/-! # Resource manager

`allocate` assigns CPUs, then memory, then the devices of one extended resource after the
other, and returns the first error it meets. What was assigned before stays assigned.
-/
namespace KubeAir.Adapters
open Core

/-- What gets injected into a container's config after allocation. -/
structure ContainerResources where
  cpusetCpus : String := ""
  cpusetMems : String := ""
  deviceEnv : HashMap String String := ∅
  devices : List DeviceSpec := []
  deviceMounts : List Mount := []

structure ResourceManager where
  cpu : CpuManager
  memory : MemoryManager
  devices : DeviceManager

/-- `v.max(0) as u64`, and 0 where there is no value. -/
def parseCpuMillis (s : Option ℤ) : ℕ := (s.getD 0).toNat

def parseMemoryBytes (s : Option ℤ) : UInt64 := UInt64.ofNat (s.getD 0).toNat

/-- `value.to_string().parse::<usize>().unwrap_or(1)`. -/
def deviceCount (value : ℤ) : ℕ := if 0 ≤ value then value.toNat else 1

/-- The limits that are no standard resources, with the device counts. -/
def extendedResources (limits : HashMap String ResourceQuantity) : List (String × ℕ) :=
  (limits.entries.filter (fun e => e.1 ∉ ["cpu","memory","ephemeral-storage"])).map
    (fun e => (e.1,deviceCount e.2.value))

namespace DeviceManager
variable (rpc : PluginRpc) (podUid : PodUID) (containerName : String)

/-- The loop of `ResourceManager::allocate` over the extended resources. -/
def allocateAll (m : DeviceManager) (acc : ContainerResources) :
    List (String × ℕ) → Except KubeletError ContainerResources × DeviceManager
  | [] => (.ok acc,m)
  | (resource,count) :: rest =>
    match m.allocate rpc podUid containerName resource count with
    | (.ok response,m) =>
      m.allocateAll
        { acc with
          deviceEnv := response.envs ∪ acc.deviceEnv
          devices := acc.devices ++ response.devices
          deviceMounts := acc.deviceMounts ++ response.mounts } rest
    | (.error e,m) => (.error e,m)

end DeviceManager

namespace ResourceManager
variable (utilization : NumaNode → ℕ) (rpc : PluginRpc)

def cpuRequest (container : ContainerSpec) : ℕ :=
  parseCpuMillis ((container.resources.requests.lookup "cpu").map (·.value))

def memRequest (container : ContainerSpec) : UInt64 :=
  parseMemoryBytes ((container.resources.requests.lookup "memory").map (·.value))

/-- Allocate resources for a container. -/
def allocate (s : ResourceManager) (pod : PodSpec) (container : ContainerSpec) :
    Except KubeletError ContainerResources × ResourceManager :=
  let qos := computeQosClass pod
  match s.cpu.assign pod.uid container.name qos (cpuRequest container) with
  | (.error e,cpu) => (.error e,{ s with cpu := cpu })
  | (.ok cpuset,cpu) =>
    match s.memory.assign utilization pod.uid container.name qos (memRequest container) with
    | (.error e,memory) => (.error e,{ s with cpu := cpu, memory := memory })
    | (.ok mems,memory) =>
      match s.devices.allocateAll rpc pod.uid container.name
        { cpusetCpus := CpuSet.toCpusetString cpuset, cpusetMems := mems } (extendedResources container.resources.limits) with
      | (r,devices) => (r,{ cpu := cpu, memory := memory, devices := devices })

end ResourceManager
end KubeAir.Adapters
