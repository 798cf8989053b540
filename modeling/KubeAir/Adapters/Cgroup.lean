import KubeAir.Adapters.Quantity
import KubeAir.Core.Qos
import KubeAir.Paths.Lexical

/-! # Cgroups of pods

Where the cgroup manager keeps the cgroup of a pod, and what it writes there.
-/
namespace KubeAir.Adapters.Cgroup
open Core Paths

/-- `uid.replace('-', "_")`. -/
def safeUid (uid : PodUID) : String := String.ofList (uid.val.toList.map (fun c => if c = '-' then '_' else c))

structure CgroupPath where
  root : Path

namespace CgroupPath

def kubepods (p : CgroupPath) : Path := p.root.join (Path.parse "kubepods.slice")

def qosSlice (p : CgroupPath) (qos : QosClass) : Path :=
  p.kubepods.join (Path.parse (match qos with
    | .guaranteed => "kubepods-guaranteed.slice"
    | .burstable => "kubepods-burstable.slice"
    | .bestEffort => "kubepods-besteffort.slice"))

def podSlice (p : CgroupPath) (qos : QosClass) (uid : PodUID) : Path :=
  (p.qosSlice qos).join (Path.parse (match qos with
    | .guaranteed => "kubepods-guaranteed-pod" ++ safeUid uid ++ ".slice"
    | .burstable => "kubepods-burstable-pod" ++ safeUid uid ++ ".slice"
    | .bestEffort => "kubepods-besteffort-pod" ++ safeUid uid ++ ".slice"))

end CgroupPath

structure CgroupManager where
  paths : CgroupPath
  dryRun : Bool

/-- A control file and the text written to it. -/
structure CgroupWrite where
  dir : Path
  file : String
  text : String
deriving DecidableEq

/-- The write to `memory.max`, if it comes to one. `created` tells whether the directories could
be made. -/
def CgroupManager.createPodCgroupWithMemoryLimit (m : CgroupManager) (qos : QosClass) (uid : PodUID)
    (containerMemoryBytes overheadMemoryBytes : ℤ) (created : Bool) : Option CgroupWrite :=
  let path := m.paths.podSlice qos uid
  if m.dryRun || !created then none
  else
    let podMemoryLimit := Quantity.saturate (containerMemoryBytes + overheadMemoryBytes)
    if 0 < podMemoryLimit then
      some
        { dir := path
          file := "memory.max"
          text := toString podMemoryLimit }
    else none

end KubeAir.Adapters.Cgroup
