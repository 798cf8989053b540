import KubeAir.Core.Volume
import Mathlib.Algebra.Group.Nat.Defs
import Mathlib.Algebra.Ring.Int.Defs
import Mathlib.Data.List.AList

/-! # Pod domain model

The desired state of a pod as the sources declare it. A record keeps the fields
that the modelled functions read, with the defaults of the source. Hash maps are
association lists with distinct keys; their order is the order in which the map
happens to be iterated, and no law about them may depend on it.
-/
namespace KubeAir.Core

abbrev HashMap (K V : Type) := AList (fun _ : K => V)

namespace HashMap
variable {K V : Type} [DecidableEq K]

/-- Writing or dropping the entry of a key. -/
def setEntry (m : HashMap K V) (k : K) : Option V → HashMap K V
  | some v => m.insert k v
  | none => m.erase k

@[simp] theorem lookup_setEntry (m : HashMap K V) (k : K) (v : Option V) :
    (m.setEntry k v).lookup k = v := by
  cases v with
  | some v => exact AList.lookup_insert m
  | none => exact AList.lookup_erase k m

theorem lookup_setEntry_ne (m : HashMap K V) {k k' : K} (h : k ≠ k') (v : Option V) :
    (m.setEntry k' v).lookup k = m.lookup k := by
  cases v with
  | some v => exact AList.lookup_insert_ne h
  | none => exact AList.lookup_erase_ne h

theorem lookup_insert_eq_some {m : HashMap K V} {k k' : K} {v v' : V} :
    (m.insert k' v').lookup k = some v ↔ k = k' ∧ v' = v ∨ k ≠ k' ∧ m.lookup k = some v := by
  by_cases hk : k = k'
  · subst hk
    rw [AList.lookup_insert,Option.some_inj]
    simp only [true_and,ne_eq,not_true_eq_false,false_and,or_false]
  · rw [AList.lookup_insert_ne hk]
    simp only [hk,false_and,ne_eq,not_false_eq_true,true_and,false_or]

theorem lookup_erase_eq_some {m : HashMap K V} {k k' : K} {v : V} :
    (m.erase k').lookup k = some v ↔ k ≠ k' ∧ m.lookup k = some v := by
  by_cases hk : k = k'
  · subst hk
    rw [AList.lookup_erase]
    simp only [reduceCtorEq,ne_eq,not_true_eq_false,false_and]
  · rw [AList.lookup_erase_ne hk]
    simp only [hk,ne_eq,not_false_eq_true,true_and]

/-- The map with a function applied to every value. -/
def mapValues {W : Type} (m : HashMap K V) (f : V → W) : HashMap K W where
  entries := m.entries.map (fun e => ⟨e.1,f e.2⟩)
  nodupKeys := by
    have h := m.nodupKeys
    unfold List.NodupKeys List.keys at h ⊢
    rwa [List.map_map]

end HashMap

namespace HashMap
variable {K V : Type}

theorem keys_filterMap {W : Type} (f : K → V → Option W) (l : List (Sigma (fun _ : K => V))) :
    (List.filterMap (fun e => (f e.1 e.2).map (fun w => (⟨e.1,w⟩ : Sigma (fun _ : K => W)))) l).keys.Sublist
      l.keys := by
  induction l with
  | nil => exact List.Sublist.refl _
  | cons e l ih =>
    cases h : f e.1 e.2 with
    | none =>
      rw [List.filterMap_cons_none (by rw [h]; rfl)]
      exact ih.cons _
    | some w =>
      rw [List.filterMap_cons_some (by rw [h]; rfl)]
      exact ih.cons_cons _

/-- The map with a function applied to every entry, which drops those that have no result. -/
def filterMapValues {W : Type} (m : HashMap K V) (f : K → V → Option W) : HashMap K W where
  entries := m.entries.filterMap (fun e => (f e.1 e.2).map (fun w => ⟨e.1,w⟩))
  nodupKeys := by exact (keys_filterMap f m.entries).nodup m.nodupKeys

theorem lookup_filterMapValues [DecidableEq K] {W : Type} (m : HashMap K V) (f : K → V → Option W) (k : K) :
    (m.filterMapValues f).lookup k = (m.lookup k).bind (f k) := by
  apply Option.ext
  intro w
  change w ∈ (m.filterMapValues f).lookup k ↔ _
  rw [AList.mem_lookup_iff,Option.bind_eq_some_iff]
  constructor
  · intro h
    obtain ⟨⟨k',v⟩,he,hw⟩ := List.mem_filterMap.mp h
    obtain ⟨w',hf,heq⟩ := Option.map_eq_some_iff.mp hw
    cases heq
    exact ⟨v,AList.mem_lookup_iff.mpr he,hf⟩
  · rintro ⟨v,hv,hf⟩
    have he := AList.mem_lookup_iff.mp (show v ∈ m.lookup k from hv)
    exact List.mem_filterMap.mpr ⟨⟨k,v⟩,he,by rw [hf]; rfl⟩

theorem lookup_mapValues [DecidableEq K] {W : Type} (m : HashMap K V) (f : V → W) (k : K) :
    (m.mapValues f).lookup k = (m.lookup k).map f := by
  apply Option.ext
  intro w
  change w ∈ (m.mapValues f).lookup k ↔ _
  rw [AList.mem_lookup_iff,Option.map_eq_some_iff]
  constructor
  · intro h
    obtain ⟨⟨k',v⟩,he,heq⟩ := List.mem_map.mp h
    cases heq
    exact ⟨v,AList.mem_lookup_iff.mpr he,rfl⟩
  · rintro ⟨v,hv,rfl⟩
    have he := AList.mem_lookup_iff.mp (show v ∈ m.lookup k from hv)
    exact List.mem_map.mpr ⟨⟨k,v⟩,he,rfl⟩

theorem isEmpty_iff [DecidableEq K] (m : HashMap K V) : m.entries.isEmpty = true ↔ ∀ k v, m.lookup k ≠ some v := by
  rw [List.isEmpty_iff,List.eq_nil_iff_forall_not_mem]
  constructor
  · intro h k v hv
    exact h ⟨k,v⟩ (AList.mem_lookup_iff.mp (show v ∈ m.lookup k from hv))
  · intro h e he
    exact h e.1 e.2 (AList.mem_lookup_iff.mpr he)

end HashMap

/-- Nanoseconds since the Unix epoch. -/
abbrev DateTime := ℤ

/-- Nanoseconds of the monotonic clock. -/
abbrev Instant := ℕ

structure PodUID where
  val : String
deriving DecidableEq, Repr

theorem PodUID.eq_of_val {u v : PodUID} (h : u.val = v.val) : u = v := by
  cases u
  cases v
  exact congrArg PodUID.mk h

/-- Qualified pod reference: namespace (`ns`) and name. -/
structure PodRef where
  ns : String
  name : String
deriving DecidableEq, Repr

/-- The errors raised by the modelled functions, with their messages. -/
inductive KubeletError
  | runtime (msg : String)
  | config (msg : String)
  | podStatus (msg : String)
  | lifecycle (msg : String)
  | imagePull (msg : String)
  | volumeMount (msg : String)
  | resource (msg : String)
  | admission (msg : String)
  | io (msg : String)
  | internal (msg : String)
deriving DecidableEq, Repr

/-- The `Display` text of an error. -/
def KubeletError.text : KubeletError → String
  | .runtime msg => "Runtime error: " ++ msg
  | .config msg => "Configuration error: " ++ msg
  | .podStatus msg => "Pod status error: " ++ msg
  | .lifecycle msg => "Lifecycle hook error: " ++ msg
  | .imagePull msg => "Image pull error: " ++ msg
  | .volumeMount msg => "Volume mount error: " ++ msg
  | .resource msg => "Resource allocation error: " ++ msg
  | .admission msg => "Admission error: " ++ msg
  | .io msg => "IO error: " ++ msg
  | .internal msg => "Internal error: " ++ msg

inductive ResourceUnit
  | bytes
  | millicores
  | count
deriving DecidableEq, Repr

structure ResourceQuantity where
  value : ℤ
  unit : ResourceUnit
deriving DecidableEq, Repr

structure ResourceRequirements where
  requests : HashMap String ResourceQuantity := ∅
  limits : HashMap String ResourceQuantity := ∅

inductive Protocol
  | tcp
  | udp
  | sctp
deriving DecidableEq, Repr

structure ContainerPort where
  name : Option String := none
  containerPort : ℕ
  hostPort : Option ℕ := none
  protocol : Protocol := .tcp
  hostIp : Option String := none
deriving DecidableEq, Repr

inductive RestartPolicy
  | always
  | onFailure
  | never
deriving DecidableEq, Repr

inductive ProbeHandler
  | exec (command : List String)
  | httpGet (path : String) (port : ℕ) (host : Option String) (scheme : String)
  | tcpSocket (port : ℕ) (host : Option String)
  | grpc (port : ℕ) (service : Option String)
deriving DecidableEq, Repr

structure Probe where
  handler : ProbeHandler
  initialDelaySeconds : ℕ
  periodSeconds : ℕ
  timeoutSeconds : ℕ
  successThreshold : ℕ
  failureThreshold : ℕ
deriving DecidableEq, Repr

inductive LifecycleHandler
  | exec (command : List String)
  | httpGet (path : String) (port : ℕ) (host : Option String) (scheme : String)
  | tcpSocket (port : ℕ) (host : Option String)
  | sleep (seconds : ℕ)
deriving DecidableEq, Repr

structure Lifecycle where
  postStart : Option LifecycleHandler := none
  preStop : Option LifecycleHandler := none
deriving DecidableEq, Repr

inductive EnvVarSource
  | fieldRef (fieldPath : String)
  | resourceFieldRef (containerName : Option String) (resource : String)
  | configMapKeyRef (name key : String) (optional : Bool)
  | secretKeyRef (name key : String) (optional : Bool)
deriving DecidableEq, Repr

structure EnvVar where
  name : String
  value : Option String := none
  valueFrom : Option EnvVarSource := none
deriving DecidableEq, Repr

/-- The config map or the secret whose entries become variables. -/
structure EnvFromRef where
  name : String
  optional : Bool
deriving DecidableEq, Repr

structure EnvFromSource where
  namePrefix : Option String := none
  configMapRef : Option EnvFromRef := none
  secretRef : Option EnvFromRef := none
deriving DecidableEq, Repr

inductive ImagePullPolicy
  | always
  | ifNotPresent
  | never
deriving DecidableEq, Repr

/-- A seccomp or AppArmor profile: `RuntimeDefault`, `Unconfined` or `Localhost` with its file. -/
structure ProfileSpec where
  type : String
  localhostProfile : Option String := none
deriving DecidableEq, Repr

structure Capabilities where
  add : List String := []
  drop : List String := []
deriving DecidableEq, Repr

structure SecurityContext where
  runAsUser : Option UInt32 := none
  runAsGroup : Option UInt32 := none
  runAsNonRoot : Option Bool := none
  privileged : Option Bool := none
  readOnlyRootFilesystem : Option Bool := none
  allowPrivilegeEscalation : Option Bool := none
  capabilities : Option Capabilities := none
  seccompProfile : Option ProfileSpec := none
  apparmorProfile : Option ProfileSpec := none
  procMount : Option String := none
deriving DecidableEq, Repr

structure Sysctl where
  name : String
  value : String
deriving DecidableEq, Repr

structure PodSecurityContext where
  runAsUser : Option UInt32 := none
  runAsGroup : Option UInt32 := none
  runAsNonRoot : Option Bool := none
  fsGroup : Option UInt32 := none
  supplementalGroups : List UInt32 := []
  sysctls : List Sysctl := []
  seccompProfile : Option ProfileSpec := none
  fsGroupChangePolicy : Option String := none
deriving DecidableEq, Repr

structure ContainerSpec where
  name : String
  image : String := ""
  command : List String := []
  args : List String := []
  env : List EnvVar := []
  envFrom : List EnvFromSource := []
  imagePullPolicy : ImagePullPolicy := .ifNotPresent
  securityContext : Option SecurityContext := none
  ports : List ContainerPort := []
  resources : ResourceRequirements := {}
  volumeMounts : List VolumeMount := []
  livenessProbe : Option Probe := none
  readinessProbe : Option Probe := none
  startupProbe : Option Probe := none
  lifecycle : Option Lifecycle := none
  terminationMessagePath : Option String := none
  terminationMessagePolicy : Option String := none
  restartPolicy : Option RestartPolicy := none

/-- An entry added to a pod's `/etc/hosts` file. -/
structure HostAlias where
  ip : String
  hostnames : List String
deriving DecidableEq, Repr

inductive TolerationOperator
  | equal
  | exists
deriving DecidableEq, Repr

inductive TaintEffect
  | noSchedule
  | preferNoSchedule
  | noExecute
deriving DecidableEq, Repr

structure Toleration where
  key : Option String := none
  operator : TolerationOperator := .equal
  value : Option String := none
  effect : Option TaintEffect := none
deriving DecidableEq, Repr

structure ResourceClaimRef where
  name : String
  allocated : Bool
  prepared : Bool
deriving DecidableEq, Repr

/-- The desired state of a pod as declared by the API server or a static manifest. -/
structure PodSpec where
  uid : PodUID
  podRef : PodRef
  containers : List ContainerSpec := []
  initContainers : List ContainerSpec := []
  ephemeralContainers : List ContainerSpec := []
  nodeName : String := ""
  hostNetwork : Bool := false
  hostPid : Bool := false
  hostIpc : Bool := false
  securityContext : Option PodSecurityContext := none
  annotations : HashMap String String := ∅
  labels : HashMap String String := ∅
  restartPolicy : RestartPolicy := .always
  terminationGracePeriodSeconds : ℕ := 30
  serviceAccountName : String := "default"
  tolerations : List Toleration := []
  nodeSelector : HashMap String String := ∅
  runtimeClassName : Option String := none
  activeDeadlineSeconds : Option ℕ := none
  shareProcessNamespace : Option Bool := none
  resourceClaims : List ResourceClaimRef := []
  hostAliases : List HostAlias := []
  /-- `spec.hostname` -/
  hostname : Option String := none
  volumes : List VolumeSpec := []
  observedStartTime : Option DateTime := none
  generation : Option ℤ := none

/-- `spec.hostname` if it is set, otherwise the name of the pod; at most 63 characters. -/
def PodSpec.effectiveHostname (pod : PodSpec) : String :=
  String.ofList (((pod.hostname.filter (· ≠ "")).getD pod.podRef.name).toList.take 63)

inductive PodOperation
  | add
  | update
  | remove
  | reconcile
deriving DecidableEq, Repr

/-- A pod update event sent to the pod manager and to the runtime manager. -/
structure PodUpdate where
  pod : PodSpec
  op : PodOperation

/-- `s.strip_suffix(&suffix)`. -/
def stripSuffix (s suffix : String) : Option String :=
  if suffix.toList <:+ s.toList then
    some (String.ofList (s.toList.take (s.toList.length - suffix.toList.length)))
  else none

/-- `str::parse` for an unsigned type: an optional plus sign and decimal digits, at least one. -/
def parseUnsigned (bits : ℕ) (s : String) : Option ℕ :=
  let digits := match s.toList with
    | '+' :: rest => rest
    | cs => cs
  let value := digits.foldl (fun n c => 10 * n + (c.toNat - 48)) 0
  if digits.isEmpty || !digits.all Char.isDigit || 2 ^ bits ≤ value then none else some value

end KubeAir.Core
