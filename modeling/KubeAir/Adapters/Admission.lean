import KubeAir.Accounting.Word
import KubeAir.Core.Pod

/-! # Pod admission

The node-local admission checks, the usage that they compare with, and the bookkeeping of
the pods that were admitted. Additions are those of 64-bit words unless they say saturating.
-/
namespace KubeAir.Adapters.Admission
open Core Accounting

/-! ## Quantities -/

def parseCpuMillis (s : Option ℤ) : UInt64 := UInt64.ofNat (s.getD 0).toNat

def parseMemoryBytes (s : Option ℤ) : UInt64 := UInt64.ofNat (s.getD 0).toNat

/-- `char::is_whitespace`. -/
def isWhitespace (c : Char) : Bool :=
  (9 ≤ c.toNat && c.toNat ≤ 13) || (8192 ≤ c.toNat && c.toNat ≤ 8202) ||
    [32,133,160,5760,8232,8233,8239,8287,12288].contains c.toNat

/-- `str::trim`. -/
def trim (s : String) : String :=
  String.ofList (((s.toList.dropWhile isWhitespace).reverse.dropWhile isWhitespace).reverse)

theorem dropWhile_of_none {p : Char → Bool} {cs : List Char} (h : ∀ c ∈ cs, p c = false) : cs.dropWhile p = cs := by
  cases cs with
  | nil => rfl
  | cons c cs => exact List.dropWhile_cons_of_neg (Bool.not_eq_true _ ▸ h c List.mem_cons_self)

/-- A text without white space is left as it is. -/
theorem trim_of_none_blank {s : String} (h : ∀ c ∈ s.toList, isWhitespace c = false) : trim s = s := by
  have hback : ∀ c ∈ s.toList.reverse, isWhitespace c = false := fun c hc => h c (List.mem_reverse.mp hc)
  unfold trim
  rw [dropWhile_of_none h,dropWhile_of_none hback,List.reverse_reverse,String.ofList_toList]

/-- `str::parse::<u64>`. -/
def parseU64 (s : String) : Option UInt64 := (parseUnsigned 64 s).map UInt64.ofNat

def parseCpuOverheadMillis : Option String → UInt64
  | none => 0
  | some v =>
    match stripSuffix (trim v) "m" with
    | some m => (parseU64 m).getD 0
    | none => saturatingMul ((parseU64 (trim v)).getD 0) 1000

def parseMemoryOverheadBytes : Option String → UInt64
  | none => 0
  | some v =>
    match stripSuffix (trim v) "Ki" with
    | some x => saturatingMul ((parseU64 x).getD 0) 1024
    | none =>
      match stripSuffix (trim v) "Mi" with
      | some x => saturatingMul (saturatingMul ((parseU64 x).getD 0) 1024) 1024
      | none =>
        match stripSuffix (trim v) "Gi" with
        | some x => saturatingMul (saturatingMul (saturatingMul ((parseU64 x).getD 0) 1024) 1024) 1024
        | none => (parseU64 (trim v)).getD 0

/-- Runtime class to overhead quantities. -/
abbrev RuntimeOverheads := HashMap String (HashMap String String)

def podRuntimeOverhead (pod : PodSpec) (overheads : RuntimeOverheads) : Option (HashMap String String) :=
  pod.runtimeClassName.bind (overheads.lookup ·)

def cpuOverhead (pod : PodSpec) (overheads : RuntimeOverheads) : UInt64 :=
  parseCpuOverheadMillis ((podRuntimeOverhead pod overheads).bind (·.lookup "cpu"))

def memoryOverhead (pod : PodSpec) (overheads : RuntimeOverheads) : UInt64 :=
  parseMemoryOverheadBytes ((podRuntimeOverhead pod overheads).bind (·.lookup "memory"))

def containerCpu (ctr : ContainerSpec) : UInt64 :=
  parseCpuMillis ((ctr.resources.requests.lookup "cpu").map (·.value))

def containerMemory (ctr : ContainerSpec) : UInt64 :=
  parseMemoryBytes ((ctr.resources.requests.lookup "memory").map (·.value))

def allContainers (pod : PodSpec) : List ContainerSpec := pod.containers ++ pod.initContainers

def podCpuMillis (pod : PodSpec) : UInt64 := (allContainers pod).foldl (fun acc c => acc + containerCpu c) 0

def podMemoryBytes (pod : PodSpec) : UInt64 := (allContainers pod).foldl (fun acc c => acc + containerMemory c) 0

/-! ## Usage -/

/-- The `Debug` text of a protocol. -/
def protocolText : Protocol → String
  | .tcp => "TCP"
  | .udp => "UDP"
  | .sctp => "SCTP"

abbrev HostPortKey := ℕ × String

/-- The host ports of a container with their protocols. -/
def containerHostPorts (ctr : ContainerSpec) : List HostPortKey :=
  ctr.ports.filterMap (fun port => port.hostPort.map (fun hp => (hp,protocolText port.protocol)))

/-- Resources currently consumed by running pods. -/
structure ResourceUsage where
  cpuMillicores : UInt64 := 0
  memoryBytes : UInt64 := 0
  overheadCpuMillicores : UInt64 := 0
  overheadMemoryBytes : UInt64 := 0
  podCount : UInt32 := 0
  /-- host port and protocol to pod UID -/
  hostPorts : HashMap HostPortKey String := ∅

namespace ResourceUsage

def addContainer (uid : String) (u : ResourceUsage) (ctr : ContainerSpec) : ResourceUsage :=
  { u with
    cpuMillicores := u.cpuMillicores + containerCpu ctr
    memoryBytes := u.memoryBytes + containerMemory ctr
    hostPorts := (containerHostPorts ctr).foldl (fun ports key => ports.insert key uid) u.hostPorts }

def addPodWithOverhead (u : ResourceUsage) (pod : PodSpec) (overheads : RuntimeOverheads) : ResourceUsage :=
  let u := (allContainers pod).foldl (addContainer pod.uid.val) { u with podCount := u.podCount + 1 }
  { u with
    overheadCpuMillicores := u.overheadCpuMillicores + cpuOverhead pod overheads
    overheadMemoryBytes := u.overheadMemoryBytes + memoryOverhead pod overheads }

def removeContainer (u : ResourceUsage) (ctr : ContainerSpec) : ResourceUsage :=
  { u with
    cpuMillicores := saturatingSub u.cpuMillicores (containerCpu ctr)
    memoryBytes := saturatingSub u.memoryBytes (containerMemory ctr)
    hostPorts := (containerHostPorts ctr).foldl (fun ports key => ports.erase key) u.hostPorts }

def removePodWithOverhead (u : ResourceUsage) (pod : PodSpec) (overheads : RuntimeOverheads) : ResourceUsage :=
  let u := (allContainers pod).foldl removeContainer { u with podCount := if 1 ≤ u.podCount then u.podCount - 1 else 0 }
  { u with
    overheadCpuMillicores := saturatingSub u.overheadCpuMillicores (cpuOverhead pod overheads)
    overheadMemoryBytes := saturatingSub u.overheadMemoryBytes (memoryOverhead pod overheads) }

end ResourceUsage

/-! ## The checks -/

/-- Node allocatable resources. -/
structure NodeAllocatable where
  cpuMillicores : UInt64
  memoryBytes : UInt64
  maxPods : UInt32

inductive TaintEffect
  | noSchedule
  | preferNoSchedule
  | noExecute
deriving DecidableEq, Repr

structure NodeTaint where
  key : String
  value : Option String := none
  effect : TaintEffect

structure AdmissionController where
  allocatable : NodeAllocatable
  nodeLabels : HashMap String String := ∅
  nodeTaints : List NodeTaint := []

inductive AdmissionResult
  | admitted
  | reject (message : String)

def podToleratesTaint (pod : PodSpec) (taint : NodeTaint) : Bool :=
  pod.tolerations.any fun t =>
    (match t.key with
      | some k => k == taint.key
      | none => true) &&
    (match t.operator with
      | .exists => true
      | .equal => t.value == taint.value)

/-- The `Debug` text of an effect. -/
def TaintEffect.text : TaintEffect → String
  | .noSchedule => "NoSchedule"
  | .preferNoSchedule => "PreferNoSchedule"
  | .noExecute => "NoExecute"

/-- The `Debug` text of an optional string. -/
def optionText : Option String → String
  | none => "None"
  | some v => "Some(" ++ v.quote ++ ")"

section Checks
variable (a : AdmissionController) (pod : PodSpec) (usage : ResourceUsage) (overheads : RuntimeOverheads)

def requestedCpu : UInt64 := podCpuMillis pod + cpuOverhead pod overheads

def availableCpu : UInt64 :=
  saturatingSub a.allocatable.cpuMillicores (usage.cpuMillicores + usage.overheadCpuMillicores)

def requestedMemory : UInt64 := podMemoryBytes pod + memoryOverhead pod overheads

def availableMemory : UInt64 :=
  saturatingSub a.allocatable.memoryBytes (usage.memoryBytes + usage.overheadMemoryBytes)

def rejectMaxPods : Option String :=
  if a.allocatable.maxPods ≤ usage.podCount then
    some ("max pods exceeded: " ++ toString usage.podCount ++ " / " ++ toString a.allocatable.maxPods)
  else none

def rejectCpu : Option String :=
  if availableCpu a usage < requestedCpu pod overheads then
    some ("insufficient CPU: requested " ++ toString (requestedCpu pod overheads) ++ "m, available " ++
      toString (availableCpu a usage) ++ "m")
  else none

def rejectMemory : Option String :=
  if availableMemory a usage < requestedMemory pod overheads then
    some ("insufficient memory: requested " ++ toString (requestedMemory pod overheads) ++ " bytes, available " ++
      toString (availableMemory a usage) ++ " bytes")
  else none

/-- All host ports of a pod, in the order of its containers. -/
def podHostPorts : List HostPortKey := (allContainers pod).flatMap containerHostPorts

def rejectPorts : Option String :=
  (podHostPorts pod).findSome? fun key =>
    (usage.hostPorts.lookup key).map fun existingUid =>
      "port conflict: hostPort " ++ toString key.1 ++ "/" ++ key.2 ++ " already in use by pod " ++ existingUid

def rejectRuntimeClass (known : List String) : Option String :=
  match pod.runtimeClassName with
  | some rc => if rc ∈ known then none else some ("RuntimeClass '" ++ rc ++ "' not available on this node")
  | none => none

def rejectNodeSelector : Option String :=
  pod.nodeSelector.entries.findSome? fun e =>
    if a.nodeLabels.lookup e.1 = some e.2 then none
    else some ("node selector mismatch: '" ++ e.1 ++ "=" ++ e.2 ++ "' not on node")

def rejectTaints : Option String :=
  a.nodeTaints.findSome? fun taint =>
    if (taint.effect = .noSchedule ∨ taint.effect = .noExecute) ∧ podToleratesTaint pod taint = false then
      some ("pod does not tolerate taint " ++ taint.key ++ "=" ++ optionText taint.value ++ ":" ++ taint.effect.text)
    else none

def rejectClaims : Option String :=
  pod.resourceClaims.findSome? fun claim =>
    if !claim.allocated then some ("resource claim '" ++ claim.name ++ "' is not allocated")
    else if !claim.prepared then some ("resource claim '" ++ claim.name ++ "' is not prepared")
    else none

/-- The first check that does not pass. -/
def rejection (known : List String) : Option String :=
  (rejectMaxPods a usage).or <| (rejectCpu a pod usage overheads).or <| (rejectMemory a pod usage overheads).or <|
    (rejectPorts pod usage).or <| (rejectRuntimeClass pod known).or <| (rejectNodeSelector a pod).or <|
      (rejectTaints a pod).or (rejectClaims pod)

/-- Run all admission predicates for a pod. -/
def admitWithRuntimeOverhead (known : List String) : AdmissionResult :=
  match rejection a pod usage overheads known with
  | some message => .reject message
  | none => .admitted

end Checks
end KubeAir.Adapters.Admission
