import KubeAir.Adapters.PodObject
import KubeAir.Adapters.QuantityPrinting
import KubeAir.Wire.Binary64
import KubeAir.Wire.Utf8
import KubeAir.Worker.FieldRef

/-! # The downward API

The sources of variables and the items of downward API volumes. Both can ask for a limit or a
request of a container, and they answer in different ways.
-/
namespace KubeAir.Worker.DownwardApi
open Core FieldRef Wire.Binary64

abbrev ConfigMaps := HashMap String (HashMap String String)

abbrev Secrets := HashMap String (HashMap String (List UInt8))

/-- `(millicores as f64 / 1000.0).ceil() as i64`. Amounts of 64 bits do not saturate. -/
def wholeCores (millicores : ℤ) : ℤ := ⌈toF64 (toF64 millicores / 1000)⌉

/-- The divisors for bytes that are known; any other one counts as 1. -/
def divisorBytes : String → ℤ
  | "1k" | "1K" => 1000
  | "1Ki" => 1024
  | "1M" => 1000000
  | "1Mi" => 1048576
  | "1G" => 1000000000
  | "1Gi" => 1073741824
  | _ => 1

def applyResourceDivisor (raw : ℤ) (isCpu : Bool) (divisor : String) : ℤ :=
  if isCpu then if divisor = "1m" then raw else wholeCores raw
  else raw.tdiv (divisorBytes divisor)

def nodeAllocatableMemoryBytes (host : HostView) : ℤ :=
  match host.memTotal with
  | some kibibytes => kibibytes * 1024
  | none => 8 * 1024 * 1024 * 1024

def nodeAllocatableCpuMillicores (host : HostView) : ℤ := host.cpus * 1000

/-- `resolve_env_var_source`. -/
def resolveEnvVarSource (host : HostView) (pod : PodSpec) (container : ContainerSpec) (podIp : Option String)
    (source : EnvVarSource) (configmaps : ConfigMaps) (secrets : Secrets) : Except KubeletError String :=
  match source with
  | .fieldRef fieldPath =>
    .ok
      (match fieldPath with
      | "metadata.name" => pod.podRef.name
      | "metadata.namespace" => pod.podRef.ns
      | "metadata.uid" => pod.uid.val
      | "spec.nodeName" => pod.nodeName
      | "spec.serviceAccountName" => pod.serviceAccountName
      | "status.podIP" | "status.podIPs" =>
        (podIp.filter (· ≠ "")).getD (if pod.hostNetwork then host.internalIp else "")
      | "status.hostIP" => host.internalIp
      | _ => resolveFieldRef host pod fieldPath)
  | .resourceFieldRef _ resource =>
    .ok
      (match resource with
      | "limits.cpu" =>
        ((container.resources.limits.lookup "cpu").map fun q => toString (applyResourceDivisor q.value true "1")).getD
          (toString (applyResourceDivisor (nodeAllocatableCpuMillicores host) true "1"))
      | "requests.cpu" =>
        ((container.resources.requests.lookup "cpu").map fun q => toString (applyResourceDivisor q.value true "1")).getD "0"
      | "limits.memory" =>
        ((container.resources.limits.lookup "memory").map fun q => toString q.value).getD
          (toString (nodeAllocatableMemoryBytes host))
      | "requests.memory" => ((container.resources.requests.lookup "memory").map fun q => toString q.value).getD "0"
      | _ => "")
  | .configMapKeyRef name key optional =>
    match (configmaps.lookup name).bind (·.lookup key) with
    | some value => .ok value
    | none =>
      if optional then .ok ""
      else .error (.runtime ("missing required ConfigMap key '" ++ name ++ "." ++ key ++ "'"))
  | .secretKeyRef name key optional =>
    match (secrets.lookup name).bind (·.lookup key) with
    | some value => .ok (String.ofList (Wire.Utf8.fromUtf8Lossy value))
    | none =>
      if optional then .ok ""
      else .error (.runtime ("missing required Secret key '" ++ name ++ "." ++ key ++ "'"))

/-- The container that is named, or the first one. -/
def referredContainer (pod : PodSpec) (containerName : Option String) : Option ContainerSpec :=
  (containerName.bind fun n => (pod.containers ++ pod.initContainers).find? (fun c => c.name = n)).or pod.containers.head?

/-- The limit that is in effect: without one that is positive, what the node has. -/
def positiveOr (allocatable : ℤ) (limit : Option ResourceQuantity) : ℤ :=
  if 0 < (limit.map (·.value)).getD 0 then (limit.map (·.value)).getD 0 else allocatable

/-- The amount that a file is about. -/
def rawValue (host : HostView) (ctr : ContainerSpec) : String → Option ℤ
  | "limits.cpu" => some (positiveOr (nodeAllocatableCpuMillicores host) (ctr.resources.limits.lookup "cpu"))
  | "limits.memory" => some (positiveOr (nodeAllocatableMemoryBytes host) (ctr.resources.limits.lookup "memory"))
  | "limits.ephemeral-storage" => (ctr.resources.limits.lookup "ephemeral-storage").map (·.value)
  | "requests.cpu" => (ctr.resources.requests.lookup "cpu").map (·.value)
  | "requests.memory" => (ctr.resources.requests.lookup "memory").map (·.value)
  | "requests.ephemeral-storage" => (ctr.resources.requests.lookup "ephemeral-storage").map (·.value)
  | _ => none

/-- `resource.contains("cpu")`. -/
def containsCpu (resource : String) : Bool := decide (['c','p','u'] <:+: resource.toList)

/-- `resolve_downward_api_value`. -/
def resolveDownwardApiValue (host : HostView) (pod : PodSpec) (item : DownwardAPIVolumeFile) (podIp : Option String) :
    String :=
  let amount := item.resourceFieldRef.bind fun ref =>
    (referredContainer pod ref.containerName).bind fun ctr =>
      (rawValue host ctr ref.resource).map fun raw =>
        applyResourceDivisor raw (containsCpu ref.resource) (ref.divisor.getD "1")
  match amount with
  | some value => toString value
  | none => (item.fieldRef.map fun field => resolveFieldRefWithPodIp host pod field podIp).getD ""

end KubeAir.Worker.DownwardApi
