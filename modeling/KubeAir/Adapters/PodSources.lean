import KubeAir.Accounting.Ledger
import KubeAir.Core.Pod
import Mathlib.Algebra.Order.BigOperators.Group.List
import Mathlib.Algebra.Order.Group.Int

/-! # Polling pod sources

What the file source and the URL source share: the manifests, the map from a key to the UID
that was announced for it, and the events. A key is a path for one and a UID for the other.
-/
namespace KubeAir.Adapters
open Core Accounting

/-! ## Manifests -/

structure ManifestVolumeMount where
  name : String
  mountPath : String
  subPath : Option String := none
  readOnly : Option Bool := none

structure ManifestResourceFieldRef where
  resource : String
  containerName : Option String := none

/-- A key of a config map or of a secret. -/
structure ManifestKeyRef where
  name : String
  key : String
  optional : Option Bool := none

structure ManifestEnvVarSource where
  /-- the field path -/
  fieldRef : Option String := none
  resourceFieldRef : Option ManifestResourceFieldRef := none
  configMapKeyRef : Option ManifestKeyRef := none
  secretKeyRef : Option ManifestKeyRef := none

structure ManifestEnvVar where
  name : String
  value : Option String := none
  valueFrom : Option ManifestEnvVarSource := none

structure ManifestCapabilities where
  add : Option (List String) := none
  drop : Option (List String) := none

structure ManifestSecurityContext where
  privileged : Option Bool := none
  capabilities : Option ManifestCapabilities := none
  runAsUser : Option UInt32 := none
  runAsGroup : Option UInt32 := none
  runAsNonRoot : Option Bool := none
  readOnlyRootFilesystem : Option Bool := none
  allowPrivilegeEscalation : Option Bool := none

structure ManifestPodSecurityContext where
  runAsUser : Option UInt32 := none
  runAsGroup : Option UInt32 := none

/-- A container. The schema of the file source ends with the pull policy. -/
structure ManifestContainer where
  name : String
  image : String
  command : Option (List String) := none
  args : Option (List String) := none
  volumeMounts : Option (List ManifestVolumeMount) := none
  imagePullPolicy : Option String := none
  env : Option (List ManifestEnvVar) := none
  securityContext : Option ManifestSecurityContext := none

structure ManifestHostPath where
  path : String
  pathType : Option String := none

structure ManifestEmptyDir where
  medium : Option String := none

structure ManifestConfigMap where
  name : Option String := none
  items : Option (List KeyToPath) := none
  optional : Option Bool := none
  defaultMode : Option ℤ := none

/-- A secret, by the name that its kind of volume uses. -/
structure ManifestSecret where
  name : Option String := none
  items : Option (List KeyToPath) := none
  optional : Option Bool := none
  defaultMode : Option ℤ := none

structure ManifestServiceAccountToken where
  audience : Option String := none
  expirationSeconds : Option UInt64 := none
  path : String

structure ManifestProjectedSource where
  serviceAccountToken : Option ManifestServiceAccountToken := none
  configMap : Option ManifestConfigMap := none
  secret : Option ManifestSecret := none

structure ManifestProjected where
  sources : Option (List ManifestProjectedSource) := none
  defaultMode : Option ℤ := none

structure ManifestPersistentVolumeClaim where
  claimName : String
  readOnly : Option Bool := none

structure ManifestVolume where
  name : String
  hostPath : Option ManifestHostPath := none
  emptyDir : Option ManifestEmptyDir := none
  configMap : Option ManifestConfigMap := none
  secret : Option ManifestSecret := none
  persistentVolumeClaim : Option ManifestPersistentVolumeClaim := none
  projected : Option ManifestProjected := none

structure ManifestHostAlias where
  ip : Option String := none
  hostnames : Option (List String) := none

structure ManifestMetadata where
  name : Option String := none
  ns : Option String := none
  uid : Option String := none
  annotations : Option (HashMap String String) := none
  labels : Option (HashMap String String) := none

/-- A pod. The schema of the file source has no host PID and IPC, no security context and no priority
class. -/
structure ManifestSpec where
  containers : Option (List ManifestContainer) := none
  initContainers : Option (List ManifestContainer) := none
  volumes : Option (List ManifestVolume) := none
  restartPolicy : Option String := none
  hostNetwork : Option Bool := none
  nodeName : Option String := none
  hostAliases : Option (List ManifestHostAlias) := none
  hostPid : Option Bool := none
  hostIpc : Option Bool := none
  securityContext : Option ManifestPodSecurityContext := none
  priorityClassName : Option String := none

structure PodManifest where
  metadata : ManifestMetadata := {}
  spec : ManifestSpec := {}

def parseRestartPolicy : Option String → RestartPolicy
  | some "Never" => .never
  | some "OnFailure" => .onFailure
  | _ => .always

def parseImagePullPolicy : Option String → ImagePullPolicy
  | some "Always" => .always
  | some "Never" => .never
  | _ => .ifNotPresent

/-- The container of a manifest, as far as both schemas go. -/
def parseContainer (c : ManifestContainer) : ContainerSpec where
  name := c.name
  image := c.image
  command := c.command.getD []
  args := c.args.getD []
  imagePullPolicy := parseImagePullPolicy c.imagePullPolicy
  volumeMounts := (c.volumeMounts.getD []).map fun m =>
    { name := m.name, mountPath := m.mountPath, subPath := m.subPath, readOnly := m.readOnly.getD false }

def ManifestHostPath.source (hp : ManifestHostPath) : VolumeSource := .hostPath hp.path hp.pathType

def ManifestEmptyDir.source (ed : ManifestEmptyDir) : VolumeSource := .emptyDir ed.medium

def ManifestConfigMap.source (cm : ManifestConfigMap) : VolumeSource :=
  .configMap (cm.name.getD "") (cm.items.getD []) (cm.optional.getD false) cm.defaultMode

def ManifestSecret.source (s : ManifestSecret) : VolumeSource :=
  .secret (s.name.getD "") (s.items.getD []) (s.optional.getD false) s.defaultMode

def ManifestPersistentVolumeClaim.source (pvc : ManifestPersistentVolumeClaim) : VolumeSource :=
  .persistentVolumeClaim pvc.claimName (pvc.readOnly.getD false)

def ManifestProjectedSource.source (s : ManifestProjectedSource) : Option ProjectedVolumeSource :=
  match s.serviceAccountToken,s.configMap,s.secret with
  | some token,_,_ =>
    some (.serviceAccountToken token.audience (token.expirationSeconds.map (·.toNat)) token.path)
  | none,some cm,_ => some (.configMap (cm.name.getD "") (cm.items.getD []) (cm.optional.getD false))
  | none,none,some secret => some (.secret (secret.name.getD "") (secret.items.getD []) (secret.optional.getD false))
  | none,none,none => none

def ManifestProjected.source (p : ManifestProjected) : VolumeSource :=
  .projected ((p.sources.getD []).filterMap (·.source)) p.defaultMode

def parseHostAlias (ha : ManifestHostAlias) : HostAlias where
  ip := ha.ip.getD ""
  hostnames := ha.hostnames.getD []

/-- The pod of a manifest, once its UID, namespace and name are settled. How containers and volume
sources are read is up to the source. -/
def manifestPod (nodeName : String) (container : ManifestContainer → ContainerSpec)
    (volumeSource : ManifestVolume → Option VolumeSource) (m : PodManifest) (uid ns name : String) : PodSpec where
  uid := ⟨uid⟩
  podRef := { ns := ns, name := name ++ "-" ++ nodeName }
  containers := (m.spec.containers.getD []).map container
  initContainers := (m.spec.initContainers.getD []).map container
  nodeName := m.spec.nodeName.getD nodeName
  hostNetwork := m.spec.hostNetwork.getD false
  annotations := m.metadata.annotations.getD ∅
  labels := m.metadata.labels.getD ∅
  restartPolicy := parseRestartPolicy m.spec.restartPolicy
  hostAliases := (m.spec.hostAliases.getD []).map parseHostAlias
  volumes := (m.spec.volumes.getD []).filterMap fun v => (volumeSource v).map fun source => ⟨v.name,source⟩

/-! ## What a source has announced -/

structure PollState where
  known : HashMap String PodUID := ∅
  sent : List PodUpdate := []

namespace PollState

/-- The operation under which a pod is announced. -/
def operation (s : PollState) (key : String) (uid : PodUID) : PodOperation :=
  if s.known.lookup key = some uid then .reconcile
  else if (s.known.lookup key).isSome then .update
  else .add

def announce (s : PollState) (key : String) (pod : PodSpec) : PollState where
  known := s.known.insert key pod.uid
  sent := s.sent ++ [{ pod := pod, op := s.operation key pod.uid }]

/-- Taking a key out, with the pod that is synthesised for its Remove event. -/
def withdraw (removedPod : String → PodUID → PodSpec) (s : PollState) (key : String) : PollState :=
  match s.known.lookup key with
  | some uid =>
    { known := s.known.erase key
      sent := s.sent ++ [{ pod := removedPod key uid, op := .remove }] }
  | none => s

/-- The end of a poll: the keys that it has not met are withdrawn. -/
def withdrawAbsent (removedPod : String → PodUID → PodSpec) (current : List String) (s : PollState) : PollState :=
  (s.known.keys.filter (fun key => !current.contains key)).foldl (withdraw removedPod) s

end PollState

/-! ## Adds and Removes -/

def delta (uid : PodUID) (u : PodUpdate) : ℤ :=
  if u.pod.uid = uid then
    match u.op with
    | .add => 1
    | .remove => -1
    | _ => 0
  else 0

/-- Adds minus Removes of a UID. -/
def net (uid : PodUID) (events : List PodUpdate) : ℤ := (events.map (delta uid)).sum

/-- The keys under which a UID is known. -/
def holders (uid : PodUID) (known : HashMap String PodUID) : ℤ := total (fun _ u => if u = uid then 1 else 0) known

/-- The UID has more Adds than Removes. -/
def Outstanding (events : List PodUpdate) (uid : PodUID) : Prop := 0 < net uid events

/-- Adds and Removes differ by the keys that a UID is known under. -/
def Balanced (s : PollState) : Prop := ∀ uid, net uid s.sent = holders uid s.known

section Lemmas
variable {s : PollState} {key : String} {pod : PodSpec} {uid : PodUID} {events : List PodUpdate}
variable {removedPod : String → PodUID → PodSpec} {current keys : List String}

@[simp] theorem net_concat (u : PodUpdate) : net uid (events ++ [u]) = net uid events + delta uid u := by
  simp [net]

@[simp] theorem delta_add (uid : PodUID) (pod : PodSpec) :
    delta uid { pod := pod, op := .add } = if pod.uid = uid then 1 else 0 := rfl

@[simp] theorem delta_remove (uid : PodUID) (pod : PodSpec) :
    delta uid { pod := pod, op := .remove } = if pod.uid = uid then -1 else 0 := rfl

@[simp] theorem delta_reconcile (uid : PodUID) (pod : PodSpec) : delta uid { pod := pod, op := .reconcile } = 0 :=
  ite_self 0

theorem balanced_empty : Balanced {} := fun _ => rfl

theorem holders_insert (h : s.known.lookup key = none) (new : PodUID) :
    holders uid (s.known.insert key new) = (if new = uid then 1 else 0) + holders uid s.known :=
  total_insert h

theorem holders_erase {known : HashMap String PodUID} {old : PodUID} (h : known.lookup key = some old) (uid : PodUID) :
    (if old = uid then 1 else 0) + holders uid (known.erase key) = holders uid known :=
  total_erase (f := fun _ u => if u = uid then (1 : ℤ) else 0) h

theorem holders_nonneg (uid : PodUID) (known : HashMap String PodUID) : 0 ≤ holders uid known := by
  unfold holders total
  refine List.sum_nonneg ?_
  intro n hn
  obtain ⟨e,-,rfl⟩ := List.mem_map.mp hn
  dsimp only
  split <;> omega

theorem holders_pos_iff (uid : PodUID) (known : HashMap String PodUID) :
    0 < holders uid known ↔ ∃ key, known.lookup key = some uid := by
  constructor
  · intro hpos
    by_contra hnone
    have hzero : holders uid known = 0 := by
      unfold holders total
      refine List.sum_eq_zero ?_
      intro n hn
      obtain ⟨e,he,rfl⟩ := List.mem_map.mp hn
      refine if_neg ?_
      intro hu
      exact hnone ⟨e.1,AList.mem_lookup_iff.mpr (hu ▸ he)⟩
    omega
  · rintro ⟨key,hkey⟩
    have herase := holders_erase hkey uid
    have hrest := holders_nonneg uid (known.erase key)
    rw [if_pos rfl] at herase
    omega

/-- A UID is outstanding exactly when it is known under some key. -/
theorem Balanced.outstanding_iff (h : Balanced s) : Outstanding s.sent uid ↔ ∃ key, s.known.lookup key = some uid := by
  unfold Outstanding
  rw [h uid,holders_pos_iff]

/-- Announcing a pod under a new key, or again under the UID that its key is known with. -/
theorem Balanced.announce (h : Balanced s) (hsame : ∀ old, s.known.lookup key = some old → old = pod.uid) :
    Balanced (s.announce key pod) := by
  intro uid
  unfold PollState.announce PollState.operation
  dsimp only
  rw [net_concat,h uid]
  cases hlookup : s.known.lookup key with
  | none =>
    rw [holders_insert hlookup,if_neg (by simp),if_neg (by simp),delta_add,add_comm]
  | some old =>
    obtain rfl := hsame old hlookup
    have hinsert : holders uid (s.known.insert key pod.uid) =
        (if pod.uid = uid then 1 else 0) + holders uid (s.known.erase key) :=
      total_insert_erase key pod.uid
    rw [if_pos rfl,delta_reconcile,add_zero,hinsert,holders_erase hlookup uid]

theorem Balanced.withdraw (h : Balanced s) (hpod : ∀ key uid, (removedPod key uid).uid = uid) (key : String) :
    Balanced (s.withdraw removedPod key) := by
  unfold PollState.withdraw
  cases hlookup : s.known.lookup key with
  | none => exact h
  | some old =>
    intro uid
    dsimp only
    rw [net_concat,h uid,delta_remove,hpod,← holders_erase hlookup uid]
    by_cases hu : old = uid
    · rw [if_pos hu,if_pos hu]
      omega
    · rw [if_neg hu,if_neg hu,zero_add,add_zero]

theorem Balanced.withdrawAll (h : Balanced s) (hpod : ∀ key uid, (removedPod key uid).uid = uid) (keys : List String) :
    Balanced (keys.foldl (PollState.withdraw removedPod) s) := by
  induction keys generalizing s with
  | nil => exact h
  | cons key rest ih => exact ih (h.withdraw hpod key)

theorem Balanced.withdrawAbsent (h : Balanced s) (hpod : ∀ key uid, (removedPod key uid).uid = uid)
    (current : List String) : Balanced (s.withdrawAbsent removedPod current) :=
  h.withdrawAll hpod _

theorem lookup_withdraw (k : String) :
    (s.withdraw removedPod key).known.lookup k = if k = key then none else s.known.lookup k := by
  unfold PollState.withdraw
  cases hlookup : s.known.lookup key with
  | none =>
    by_cases hk : k = key
    · rw [if_pos hk,hk,hlookup]
    · rw [if_neg hk]
  | some old =>
    by_cases hk : k = key
    · rw [if_pos hk,hk]
      exact AList.lookup_erase _ _
    · rw [if_neg hk]
      exact AList.lookup_erase_ne hk

theorem lookup_withdrawAll (keys : List String) (k : String) :
    (keys.foldl (PollState.withdraw removedPod) s).known.lookup k = if k ∈ keys then none else s.known.lookup k := by
  induction keys generalizing s with
  | nil => simp
  | cons key rest ih =>
    rw [List.foldl_cons,ih,lookup_withdraw]
    by_cases hrest : k ∈ rest
    · rw [if_pos hrest,if_pos (List.mem_cons_of_mem _ hrest)]
    · rw [if_neg hrest]
      by_cases hk : k = key
      · rw [if_pos hk,if_pos (hk ▸ List.mem_cons_self)]
      · rw [if_neg hk,if_neg (fun h => (List.mem_cons.mp h).elim hk hrest)]

/-- Only the keys that the poll has met are known after it. -/
theorem lookup_withdrawAbsent (k : String) :
    (s.withdrawAbsent removedPod current).known.lookup k = if k ∈ current then s.known.lookup k else none := by
  unfold PollState.withdrawAbsent
  rw [lookup_withdrawAll]
  by_cases hcurrent : k ∈ current
  · rw [if_pos hcurrent,if_neg]
    simp [hcurrent]
  · rw [if_neg hcurrent]
    by_cases hknown : k ∈ s.known.keys
    · rw [if_pos]
      simp [hcurrent,hknown]
    · have hnone : s.known.lookup k = none := AList.lookup_eq_none.mpr (fun h => hknown (AList.mem_keys.mp h))
      rw [hnone,ite_self]

/-- A poll that has met every known key withdraws nothing. -/
theorem withdrawAbsent_of_subset (h : ∀ key ∈ s.known.keys, key ∈ current) :
    s.withdrawAbsent removedPod current = s := by
  unfold PollState.withdrawAbsent
  have hnone : s.known.keys.filter (fun key => !current.contains key) = [] := by
    rw [List.filter_eq_nil_iff]
    intro key hkey
    simp [h key hkey]
  rw [hnone]
  rfl

end Lemmas

end KubeAir.Adapters
