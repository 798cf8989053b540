import KubeAir.Adapters.PodObject
import KubeAir.Core.PodManager
import KubeAir.Transition.Runs
import Mathlib.Data.Finset.Basic

/-! # The pod watch

How the events of the watcher become updates, and what dispatching them makes of the
desired set. A pod object carries the fields that decide about its update and those
of the modelled spec; how a container is converted is a parameter.
-/
namespace KubeAir.Adapters
open Core Transition

structure K8sObjectMeta where
  uid : Option String := none
  name : Option String := none
  ns : Option String := none
  deletionTimestamp : Option DateTime := none
  annotations : Option (HashMap String String) := none
  labels : Option (HashMap String String) := none
  generation : Option ℤ := none

structure K8sHostAlias where
  ip : Option String
  hostnames : Option (List String)

structure K8sPodSpec (C E : Type) where
  nodeName : Option String := none
  containers : List C := []
  initContainers : Option (List C) := none
  ephemeralContainers : Option (List E) := none
  restartPolicy : Option String := none
  activeDeadlineSeconds : Option ℤ := none
  terminationGracePeriodSeconds : Option ℤ := none
  serviceAccountName : Option String := none
  hostNetwork : Option Bool := none
  hostPid : Option Bool := none
  hostIpc : Option Bool := none
  shareProcessNamespace : Option Bool := none
  hostname : Option String := none
  securityContext : Option K8sPodSecurityContext := none
  volumes : Option (List K8sVolume) := none
  hostAliases : Option (List K8sHostAlias) := none
  nodeSelector : Option (HashMap String String) := none
  runtimeClassName : Option String := none

structure K8sPod (C E : Type) where
  metadata : K8sObjectMeta := {}
  spec : Option (K8sPodSpec C E) := none
  startTime : Option DateTime := none

def restartPolicyOf : Option String → RestartPolicy
  | some "Never" => .never
  | some "OnFailure" => .onFailure
  | _ => .always

variable {C E : Type} (k8sContainerToSpec : C → ContainerSpec)
  (k8sEphemeralContainerToSpec : E → ContainerSpec)

/-- `pod_to_spec`: pods without UID, name or spec and mirrors of static pods are skipped. -/
def podToSpec (pod : K8sPod C E) (nodeName : String) : Option PodSpec := do
  let uid ← pod.metadata.uid
  let name ← pod.metadata.name
  let ns := pod.metadata.ns.getD "default"
  if pod.metadata.annotations.any (fun a => (a.lookup "kubernetes.io/config.mirror").isSome) then
    none
  else
    let spec ← pod.spec
    some
      { uid := ⟨uid⟩
        podRef := ⟨ns,name⟩
        nodeName := spec.nodeName.getD nodeName
        containers := spec.containers.map k8sContainerToSpec
        initContainers := (spec.initContainers.getD []).map k8sContainerToSpec
        ephemeralContainers := (spec.ephemeralContainers.getD []).map k8sEphemeralContainerToSpec
        restartPolicy := restartPolicyOf spec.restartPolicy
        activeDeadlineSeconds := spec.activeDeadlineSeconds.map asU64
        terminationGracePeriodSeconds := (spec.terminationGracePeriodSeconds.map asU64).getD 30
        serviceAccountName := spec.serviceAccountName.getD ""
        hostNetwork := spec.hostNetwork.getD false
        hostPid := spec.hostPid.getD false
        hostIpc := spec.hostIpc.getD false
        shareProcessNamespace := spec.shareProcessNamespace
        hostname := spec.hostname.filter (· ≠ "")
        securityContext := spec.securityContext.map (·.toSpec)
        nodeSelector := spec.nodeSelector.getD ∅
        runtimeClassName := spec.runtimeClassName
        labels := pod.metadata.labels.getD ∅
        annotations := pod.metadata.annotations.getD ∅
        volumes := (spec.volumes.getD []).filterMap k8sVolumeToSpec
        hostAliases := (spec.hostAliases.getD []).map (fun ha =>
          { ip := ha.ip.getD "", hostnames := ha.hostnames.getD [] })
        observedStartTime := pod.startTime
        generation := pod.metadata.generation }

/-- The removal of a pod object, unless it lacks a UID or a name. -/
def removeUpdate (metadata : K8sObjectMeta) (nodeName : String) : Option PodUpdate :=
  let uid := metadata.uid.getD ""
  let name := metadata.name.getD ""
  let ns := metadata.ns.getD "default"
  if uid = "" ∨ name = "" then none
  else some { pod := { uid := ⟨uid⟩, podRef := ⟨ns,name⟩, nodeName := nodeName }, op := .remove }

/-- The update of an object that the watcher reports as present. -/
def presentUpdate (nodeName : String) (pod : K8sPod C E) : Option PodUpdate :=
  if pod.metadata.deletionTimestamp.isSome then removeUpdate pod.metadata nodeName
  else (podToSpec k8sContainerToSpec k8sEphemeralContainerToSpec pod nodeName).map
    (fun spec => { pod := spec, op := .add })

inductive WatchEvent (C E : Type)
  | applied (pod : K8sPod C E)
  | deleted (pod : K8sPod C E)
  | restarted (pods : List (K8sPod C E))

def podEventToUpdates (nodeName : String) : WatchEvent C E → List PodUpdate
  | .applied pod => (presentUpdate k8sContainerToSpec k8sEphemeralContainerToSpec nodeName pod).toList
  | .deleted pod => (removeUpdate pod.metadata nodeName).toList
  | .restarted pods => pods.filterMap (presentUpdate k8sContainerToSpec k8sEphemeralContainerToSpec nodeName)

/-- The updates of a periodic relist; pods being deleted are left to their events. -/
def relistUpdates (nodeName : String) (items : List (K8sPod C E)) : List PodUpdate :=
  items.filterMap (fun pod =>
    if pod.metadata.deletionTimestamp.isSome then none
    else (podToSpec k8sContainerToSpec k8sEphemeralContainerToSpec pod nodeName).map
      (fun spec => { pod := spec, op := .reconcile }))

/-- The pod manager behind the source channel. `apiSourced` records the UIDs whose
entry was last stored for the watch. -/
structure SourceState where
  podManager : PodManager := {}
  apiSourced : Finset PodUID := ∅

/-- An update taken from the source channel. -/
structure Dispatch where
  fromApi : Bool
  update : PodUpdate
  now : DateTime
  at_ : Instant

namespace SourceState

/-- The source dispatch loop; an error is logged and the next update taken. -/
def dispatch (s : SourceState) (d : Dispatch) : SourceState :=
  match d.update.op with
  | .remove =>
    { podManager := (s.podManager.remove d.update.pod.uid (some d.update.pod) d.at_).2
      apiSourced := s.apiSourced.erase d.update.pod.uid }
  | _ =>
    let pm := (s.podManager.upsert d.update.pod d.now).2
    { podManager := pm
      apiSourced :=
        if (pm.get d.update.pod.uid).isNone then s.apiSourced
        else if d.fromApi then insert d.update.pod.uid s.apiSourced
        else s.apiSourced.erase d.update.pod.uid }

def step (s : SourceState) (d : Dispatch) : Option SourceState := some (s.dispatch d)

/-- The UID is desired and was stored for the watch. -/
def ApiDesired (s : SourceState) (u : PodUID) : Prop :=
  u ∈ s.apiSourced ∧ (s.podManager.get u).isSome = true

end SourceState

/-- The dispatch stores its pod instead of merging it into an equivalent entry. -/
def StoresOwn (s : SourceState) (d : Dispatch) : Prop :=
  d.update.op ≠ .remove → ¬ s.podManager.Merges d.update.pod

theorem apiDesired_remove {s : SourceState} {d : Dispatch} (h : d.update.op = .remove) (u : PodUID) :
    (s.dispatch d).ApiDesired u ↔ u ≠ d.update.pod.uid ∧ s.ApiDesired u := by
  unfold SourceState.ApiDesired SourceState.dispatch
  rw [h]
  simp only [Finset.mem_erase,PodManager.get_remove]
  by_cases hu : u = d.update.pod.uid
  · simp [hu]
  · simp [hu]

theorem apiDesired_add {s : SourceState} {d : Dispatch} (h : d.update.op ≠ .remove) (hapi : d.fromApi = true)
    (u : PodUID) : (s.dispatch d).ApiDesired u ↔
      (u = d.update.pod.uid ∧ ¬ s.podManager.Merges d.update.pod) ∨ s.ApiDesired u := by
  have hget := s.podManager.isSome_get_upsert d.update.pod u d.now
  have hown := s.podManager.isSome_get_upsert d.update.pod d.update.pod.uid d.now
  have hd : s.dispatch d =
      { podManager := (s.podManager.upsert d.update.pod d.now).2
        apiSourced :=
          if ((s.podManager.upsert d.update.pod d.now).2.get d.update.pod.uid).isNone then s.apiSourced
          else insert d.update.pod.uid s.apiSourced } := by
    unfold SourceState.dispatch
    cases hop : d.update.op with
    | remove => exact (h hop).elim
    | _ => simp only [hapi,↓reduceIte]
  rw [hd]
  unfold SourceState.ApiDesired
  dsimp only
  rw [hget]
  cases hstored : (s.podManager.upsert d.update.pod d.now).2.get d.update.pod.uid with
  | none =>
    rw [hstored] at hown
    have hmerges : s.podManager.Merges d.update.pod := by
      by_contra hm
      cases hown.mpr (.inl ⟨rfl,hm⟩)
    simp [hmerges]
  | some pod =>
    have hmerges : ¬ s.podManager.Merges d.update.pod := by
      intro hm
      rw [hstored] at hown
      rcases hown.mp rfl with ⟨-,hn⟩ | hold
      · exact hn hm
      · rw [hm.1] at hold
        cases hold
    simp only [Option.isNone_some,Bool.false_eq_true,↓reduceIte,Finset.mem_insert,hmerges,
      not_false_eq_true,and_true]
    exact or_and_left.symm

/-- Dispatches for other UIDs do not touch the entry. -/
theorem apiDesired_of_ne {s t : SourceState} {w : List Dispatch} {u : PodUID}
    (hr : Runs (ofStep SourceState.step) s w t) (hapi : ∀ d ∈ w, d.fromApi = true)
    (hne : ∀ d ∈ w, d.update.pod.uid ≠ u) : t.ApiDesired u ↔ s.ApiDesired u := by
  induction hr with
  | nil s => rfl
  | @cons s s' t d w hs _ ih =>
    cases hs
    rw [ih (fun e he => hapi e (List.mem_cons_of_mem _ he)) (fun e he => hne e (List.mem_cons_of_mem _ he))]
    have hu : u ≠ d.update.pod.uid := (hne d List.mem_cons_self).symm
    by_cases hop : d.update.op = .remove
    · rw [apiDesired_remove hop]
      simp only [hu,ne_eq,not_false_eq_true,true_and]
    · rw [apiDesired_add hop (hapi d List.mem_cons_self)]
      simp only [hu,false_and,false_or]

/-- The desired entries after dispatching updates of distinct pods that are all stored. -/
theorem apiDesired_runs {s t : SourceState} {w : List Dispatch} (u : PodUID)
    (hr : Runs (Guarded StoresOwn (ofStep SourceState.step)) s w t) (hapi : ∀ d ∈ w, d.fromApi = true)
    (hnodup : (w.map (fun d => d.update.pod.uid)).Nodup) :
    t.ApiDesired u ↔ (∃ d ∈ w, d.update.op ≠ .remove ∧ d.update.pod.uid = u) ∨
      (s.ApiDesired u ∧ ∀ d ∈ w, d.update.op = .remove → d.update.pod.uid ≠ u) := by
  induction hr with
  | nil s => simp
  | @cons s s' t d w hs _ ih =>
    obtain ⟨hown,hs⟩ := hs
    cases hs
    obtain ⟨hfresh,hrest⟩ := List.nodup_cons.mp hnodup
    rw [ih (fun e he => hapi e (List.mem_cons_of_mem _ he)) hrest]
    simp only [List.mem_cons,exists_eq_or_imp,forall_eq_or_imp]
    by_cases hop : d.update.op = .remove
    · have hcomm : u = d.update.pod.uid ↔ d.update.pod.uid = u := eq_comm
      rw [apiDesired_remove hop]
      simp only [hop,ne_eq,not_true_eq_false,false_and,false_or,forall_true_left,hcomm]
      refine or_congr Iff.rfl ?_
      rw [and_assoc,and_left_comm]
    · rw [apiDesired_add hop (hapi d List.mem_cons_self)]
      have hlater : u = d.update.pod.uid → ∀ e ∈ w, e.update.op = .remove → e.update.pod.uid ≠ u := by
        rintro rfl e he - heq
        exact hfresh (List.mem_map.mpr ⟨e,he,heq⟩)
      simp only [hop,hown hop,ne_eq,not_false_eq_true,true_and,and_true,false_implies]
      constructor
      · rintro (hadd | ⟨hu | hold,hrem⟩)
        · exact .inl (.inr hadd)
        · exact .inl (.inl hu.symm)
        · exact .inr ⟨hold,hrem⟩
      · rintro ((hu | hadd) | ⟨hold,hrem⟩)
        · exact .inr ⟨.inl hu.symm,hlater hu.symm⟩
        · exact .inl hadd
        · exact .inr ⟨.inr hold,hrem⟩

/-- A pod that is merged away is missing when its updates have been dispatched. -/
theorem exists_missing {s t : SourceState} {w : List Dispatch}
    (hr : Runs (ofStep SourceState.step) s w t) (hapi : ∀ d ∈ w, d.fromApi = true)
    (hnodup : (w.map (fun d => d.update.pod.uid)).Nodup)
    (hmerged : ¬ Runs (Guarded StoresOwn (ofStep SourceState.step)) s w t) :
    ∃ d ∈ w, d.update.op ≠ .remove ∧ ¬ t.ApiDesired d.update.pod.uid := by
  induction hr with
  | nil s => exact (hmerged (.nil s)).elim
  | @cons s s' t d w hs hr ih =>
    obtain ⟨hfresh,hrest⟩ := List.nodup_cons.mp hnodup
    have hapi' : ∀ e ∈ w, e.fromApi = true := fun e he => hapi e (List.mem_cons_of_mem _ he)
    by_cases hown : StoresOwn s d
    · obtain ⟨e,he,hop,hmiss⟩ := ih hapi' hrest (fun hg => hmerged (.cons ⟨hown,hs⟩ hg))
      exact ⟨e,List.mem_cons_of_mem _ he,hop,hmiss⟩
    · unfold StoresOwn at hown
      push Not at hown
      obtain ⟨hop,hm⟩ := hown
      refine ⟨d,List.mem_cons_self,hop,?_⟩
      rw [apiDesired_of_ne hr hapi' (fun e he heq => hfresh (List.mem_map.mpr ⟨e,he,heq⟩))]
      cases hs
      rw [apiDesired_add hop (hapi d List.mem_cons_self)]
      rintro (⟨-,hn⟩ | ⟨-,hold⟩)
      · exact hn hm
      · rw [hm.1] at hold
        cases hold

section Converged
variable (nodeName : String) (pods : List (K8sPod C E))

/-- The list names the UID with a pod that is not being deleted and that the source takes. -/
def Listed (u : PodUID) : Prop :=
  ∃ pod ∈ pods, pod.metadata.deletionTimestamp = none ∧
    ∃ spec, podToSpec k8sContainerToSpec k8sEphemeralContainerToSpec pod nodeName = some spec ∧ spec.uid = u

/-- The list names the UID with a pod that is being deleted. -/
def Terminating (u : PodUID) : Prop :=
  ∃ pod ∈ pods, pod.metadata.deletionTimestamp.isSome = true ∧
    ∃ update, removeUpdate pod.metadata nodeName = some update ∧ update.pod.uid = u

/-- No pod has left the API server while the watch was down. -/
def Covers (s : SourceState) : Prop :=
  ∀ u, s.ApiDesired u → Listed k8sContainerToSpec k8sEphemeralContainerToSpec nodeName pods u ∨
    Terminating nodeName pods u

/-- The desired pods of the watch are the pods of the list. -/
def Converged (s : SourceState) : Prop :=
  ∀ u, s.ApiDesired u ↔ Listed k8sContainerToSpec k8sEphemeralContainerToSpec nodeName pods u

variable {k8sContainerToSpec k8sEphemeralContainerToSpec} {nodeName}

theorem removeUpdate_op {metadata : K8sObjectMeta} {update : PodUpdate}
    (h : removeUpdate metadata nodeName = some update) : update.op = .remove := by
  unfold removeUpdate at h
  dsimp only at h
  split at h
  · cases h
  · cases h
    rfl

theorem removeUpdate_uid {metadata : K8sObjectMeta} {update : PodUpdate}
    (h : removeUpdate metadata nodeName = some update) : metadata.uid = some update.pod.uid.val := by
  unfold removeUpdate at h
  dsimp only at h
  split at h
  · cases h
  · next hne =>
    cases h
    cases huid : metadata.uid with
    | none => simp [huid] at hne
    | some uid => rfl

theorem podToSpec_uid {pod : K8sPod C E} {spec : PodSpec}
    (h : podToSpec k8sContainerToSpec k8sEphemeralContainerToSpec pod nodeName = some spec) :
    pod.metadata.uid = some spec.uid.val := by
  unfold podToSpec at h
  simp only [Option.bind_eq_bind,Option.bind_eq_some_iff] at h
  obtain ⟨uid,huid,name,-,h⟩ := h
  split at h
  · cases h
  · obtain ⟨spec',-,h⟩ := Option.bind_eq_some_iff.mp h
    cases h
    exact huid

theorem presentUpdate_eq {pod : K8sPod C E} {update : PodUpdate} :
    presentUpdate k8sContainerToSpec k8sEphemeralContainerToSpec nodeName pod = some update ↔
      (pod.metadata.deletionTimestamp.isSome = true ∧ removeUpdate pod.metadata nodeName = some update) ∨
      (pod.metadata.deletionTimestamp = none ∧ update.op = .add ∧
        podToSpec k8sContainerToSpec k8sEphemeralContainerToSpec pod nodeName = some update.pod) := by
  unfold presentUpdate
  cases pod.metadata.deletionTimestamp with
  | some time => simp
  | none =>
    simp only [Option.isSome_none,Bool.false_eq_true,↓reduceIte,Option.map_eq_some_iff,false_and,
      true_and,false_or]
    constructor
    · rintro ⟨spec,hspec,rfl⟩
      exact ⟨rfl,hspec⟩
    · rintro ⟨hop,hspec⟩
      refine ⟨update.pod,hspec,?_⟩
      rw [← hop]

theorem presentUpdate_uid {pod : K8sPod C E} {update : PodUpdate}
    (h : presentUpdate k8sContainerToSpec k8sEphemeralContainerToSpec nodeName pod = some update) :
    pod.metadata.uid = some update.pod.uid.val := by
  rcases presentUpdate_eq.mp h with ⟨-,hremove⟩ | ⟨-,-,hspec⟩
  · exact removeUpdate_uid hremove
  · exact podToSpec_uid hspec

theorem podEventToUpdates_restarted :
    podEventToUpdates k8sContainerToSpec k8sEphemeralContainerToSpec nodeName (.restarted pods) =
      pods.filterMap (presentUpdate k8sContainerToSpec k8sEphemeralContainerToSpec nodeName) := rfl

/-- A list that names every object once yields at most one update for each UID. -/
theorem nodup_updates (h : (pods.filterMap (fun pod => pod.metadata.uid)).Nodup) :
    ((podEventToUpdates k8sContainerToSpec k8sEphemeralContainerToSpec nodeName (.restarted pods)).map
      (fun update => update.pod.uid)).Nodup := by
  rw [podEventToUpdates_restarted]
  induction pods with
  | nil => exact List.nodup_nil
  | cons pod rest ih =>
    cases hp : presentUpdate k8sContainerToSpec k8sEphemeralContainerToSpec nodeName pod with
    | none =>
      rw [List.filterMap_cons_none hp]
      refine ih ?_
      cases hu : pod.metadata.uid with
      | none => simpa only [List.filterMap_cons,hu] using h
      | some uid =>
        simp only [List.filterMap_cons,hu] at h
        exact (List.nodup_cons.mp h).2
    | some update =>
      have hu := presentUpdate_uid hp
      simp only [List.filterMap_cons,hu] at h
      rw [List.filterMap_cons_some hp,List.map_cons]
      obtain ⟨hfresh,hrest⟩ := List.nodup_cons.mp h
      refine List.nodup_cons.mpr ⟨?_,ih hrest⟩
      intro hmem
      obtain ⟨other,hother,heq⟩ := List.mem_map.mp hmem
      obtain ⟨pod',hpod',hp'⟩ := List.mem_filterMap.mp hother
      refine hfresh (List.mem_filterMap.mpr ⟨pod',hpod',?_⟩)
      rw [presentUpdate_uid hp',heq]

theorem listed_iff (u : PodUID) :
    Listed k8sContainerToSpec k8sEphemeralContainerToSpec nodeName pods u ↔
      ∃ update ∈ podEventToUpdates k8sContainerToSpec k8sEphemeralContainerToSpec nodeName (.restarted pods),
        update.op ≠ .remove ∧ update.pod.uid = u := by
  unfold Listed
  rw [podEventToUpdates_restarted]
  constructor
  · rintro ⟨pod,hpod,hdel,spec,hspec,rfl⟩
    exact ⟨{ pod := spec, op := .add },
      List.mem_filterMap.mpr ⟨pod,hpod,presentUpdate_eq.mpr (.inr ⟨hdel,rfl,hspec⟩)⟩,nofun,rfl⟩
  · rintro ⟨update,hmem,hop,rfl⟩
    obtain ⟨pod,hpod,hp⟩ := List.mem_filterMap.mp hmem
    rcases presentUpdate_eq.mp hp with ⟨-,hremove⟩ | ⟨hdel,-,hspec⟩
    · exact (hop (removeUpdate_op hremove)).elim
    · exact ⟨pod,hpod,hdel,update.pod,hspec,rfl⟩

theorem terminating_iff (u : PodUID) :
    Terminating nodeName pods u ↔
      ∃ update ∈ podEventToUpdates k8sContainerToSpec k8sEphemeralContainerToSpec nodeName (.restarted pods),
        update.op = .remove ∧ update.pod.uid = u := by
  unfold Terminating
  rw [podEventToUpdates_restarted]
  constructor
  · rintro ⟨pod,hpod,hdel,update,hremove,rfl⟩
    exact ⟨update,List.mem_filterMap.mpr ⟨pod,hpod,presentUpdate_eq.mpr (.inl ⟨hdel,hremove⟩)⟩,
      removeUpdate_op hremove,rfl⟩
  · rintro ⟨update,hmem,hop,rfl⟩
    obtain ⟨pod,hpod,hp⟩ := List.mem_filterMap.mp hmem
    rcases presentUpdate_eq.mp hp with ⟨hdel,hremove⟩ | ⟨-,hadd,-⟩
    · exact ⟨pod,hpod,hdel,update,hremove,rfl⟩
    · rw [hadd] at hop
      cases hop

end Converged

/-- A relist after a broken watch converges exactly when no desired pod of the watch is
absent from the list and no listed pod is merged into an equivalent entry. -/
theorem converged_iff (k8sContainerToSpec : C → ContainerSpec) (k8sEphemeralContainerToSpec : E → ContainerSpec)
    (nodeName : String) (pods : List (K8sPod C E)) (s t : SourceState) (w : List Dispatch)
    (hlist : (pods.filterMap (fun pod => pod.metadata.uid)).Nodup)
    (hw : w.map Dispatch.update =
      podEventToUpdates k8sContainerToSpec k8sEphemeralContainerToSpec nodeName (.restarted pods))
    (hapi : ∀ d ∈ w, d.fromApi = true) (hr : Runs (ofStep SourceState.step) s w t) :
    Converged k8sContainerToSpec k8sEphemeralContainerToSpec nodeName pods t ↔
      Covers k8sContainerToSpec k8sEphemeralContainerToSpec nodeName pods s ∧
        Runs (Guarded StoresOwn (ofStep SourceState.step)) s w t := by
  have hnodup : (w.map (fun d => d.update.pod.uid)).Nodup := by
    have h := @nodup_updates C E k8sContainerToSpec k8sEphemeralContainerToSpec nodeName pods hlist
    rwa [← hw,List.map_map] at h
  have hlisted : ∀ u, Listed k8sContainerToSpec k8sEphemeralContainerToSpec nodeName pods u ↔
      ∃ d ∈ w, d.update.op ≠ .remove ∧ d.update.pod.uid = u := by
    intro u
    rw [listed_iff,← hw]
    simp only [List.mem_map,exists_exists_and_eq_and]
  have hterminating : ∀ u, Terminating nodeName pods u ↔
      ∃ d ∈ w, d.update.op = .remove ∧ d.update.pod.uid = u := by
    intro u
    rw [@terminating_iff C E k8sContainerToSpec k8sEphemeralContainerToSpec,← hw]
    simp only [List.mem_map,exists_exists_and_eq_and]
  constructor
  · intro hconv
    constructor
    · intro u hu
      by_contra hnone
      push Not at hnone
      have hne : ∀ d ∈ w, d.update.pod.uid ≠ u := by
        rintro d hd rfl
        by_cases hop : d.update.op = .remove
        · exact hnone.2 ((hterminating _).mpr ⟨d,hd,hop,rfl⟩)
        · exact hnone.1 ((hlisted _).mpr ⟨d,hd,hop,rfl⟩)
      exact hnone.1 ((hconv u).mp ((apiDesired_of_ne hr hapi hne).mpr hu))
    · by_contra hmerged
      obtain ⟨d,hd,hop,hmiss⟩ := exists_missing hr hapi hnodup hmerged
      exact hmiss ((hconv _).mpr ((hlisted _).mpr ⟨d,hd,hop,rfl⟩))
  · rintro ⟨hcovers,hguard⟩ u
    rw [apiDesired_runs u hguard hapi hnodup,hlisted]
    constructor
    · rintro (hadd | ⟨hold,hrem⟩)
      · exact hadd
      · rcases hcovers u hold with hl | ht
        · exact (hlisted u).mp hl
        · obtain ⟨d,hd,hop,heq⟩ := (hterminating u).mp ht
          exact (hrem d hd hop heq).elim
    · exact .inl

/-- A pod object whose containers are already in the form of the spec. -/
def webObject : K8sPod ContainerSpec ContainerSpec :=
  { metadata := { uid := some "uid-a", name := some "web" }
    spec := some { serviceAccountName := some "default" } }

def webDispatch : Dispatch where
  fromApi := true
  update := { pod := { uid := ⟨"uid-a"⟩, podRef := ⟨"default","web"⟩, nodeName := "node1" }, op := .add }
  now := 0
  at_ := 0

def dbObject : K8sPod ContainerSpec ContainerSpec :=
  { metadata := { uid := some "uid-b", name := some "db" }, spec := some {} }

/-- The updates of events, as the watch sends them. -/
def sent (events : List (WatchEvent ContainerSpec ContainerSpec)) : List Dispatch :=
  (events.flatMap (podEventToUpdates id id "node1")).map fun update => { fromApi := true, update := update, now := 0, at_ := 0 }

/-- Two pods are desired when the watch breaks. -/
def beforeRelist : SourceState := (sent [.restarted [webObject,dbObject]]).foldl SourceState.dispatch {}

/-- One pod is as it was but for its aliases, one is being deleted, and one is new and has aliases. -/
def relisted : List (K8sPod ContainerSpec ContainerSpec) :=
  [{ webObject with spec := some { hostAliases := some [{ ip := some "10.0.0.1", hostnames := some ["web.local"] }] } },
    { dbObject with metadata := { dbObject.metadata with deletionTimestamp := some 1 } },
    { metadata := { uid := some "uid-c", name := some "cache" }
      spec := some { hostAliases := some [{ ip := some "10.0.0.2", hostnames := some ["cache.local"] }] } }]

theorem converged_of_relist : beforeRelist.ApiDesired ⟨"uid-a"⟩ ∧ beforeRelist.ApiDesired ⟨"uid-b"⟩ ∧
    Converged id id "node1" relisted ((sent [.restarted relisted]).foldl SourceState.dispatch beforeRelist) := by
  refine ⟨⟨by decide,rfl⟩,⟨by decide,rfl⟩,(converged_iff id id "node1" relisted beforeRelist _ (sent [.restarted relisted])
    (by decide) rfl (by decide) (runs_of_exec rfl)).mpr ⟨?_,.cons ⟨?_,rfl⟩ (.cons ⟨?_,rfl⟩ (.cons ⟨?_,rfl⟩ (.nil _)))⟩⟩
  · rintro u ⟨hu,-⟩
    have hknown : u = ⟨"uid-b"⟩ ∨ u = ⟨"uid-a"⟩ := by
      rcases Finset.mem_insert.mp hu with rfl | hu
      · exact .inl rfl
      · exact .inr (Finset.mem_insert.mp hu |>.resolve_right (Finset.notMem_empty u))
    rcases hknown with rfl | rfl
    · exact .inr ⟨_,.tail _ (.head _),rfl,_,rfl,rfl⟩
    · exact .inl ⟨_,.head _,rfl,_,rfl,rfl⟩
  · exact fun _ => by decide
  · exact fun hop => absurd rfl hop
  · exact fun _ => by decide

/-- The pod is deleted from the API server while the watch is down. -/
theorem not_converged_of_missed_deletion :
    ¬ ∀ (events : List (WatchEvent ContainerSpec ContainerSpec)) (pods : List (K8sPod ContainerSpec ContainerSpec))
      (v w : List Dispatch) (s t : SourceState), (pods.filterMap (fun pod => pod.metadata.uid)).Nodup →
      v.map Dispatch.update = events.flatMap (podEventToUpdates id id "node1") →
      (∀ d ∈ v, d.fromApi = true) → Runs (ofStep SourceState.step) {} v s →
      w.map Dispatch.update = podEventToUpdates id id "node1" (.restarted pods) →
      (∀ d ∈ w, d.fromApi = true) → Runs (ofStep SourceState.step) s w t →
      Converged id id "node1" pods t := by
  intro h
  have hconv := h [.applied webObject] [] [webDispatch] [] _ _ (by decide) rfl (by decide) (runs_of_exec rfl)
    rfl (by decide) (.nil _)
  have hweb := (hconv ⟨"uid-a"⟩).mp ⟨by decide,rfl⟩
  obtain ⟨pod,hpod,-⟩ := hweb
  cases hpod

end KubeAir.Adapters
