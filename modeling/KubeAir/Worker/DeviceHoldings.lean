import KubeAir.Adapters.DeviceExclusivity
import KubeAir.Worker.Sandbox

/-! # Devices held for pods

The starts of containers that ask the device manager for the devices in their limits, and the
terminations of pods. What is recorded for a pod when a plugin grants devices is cleaned up by
`deallocate_pod`, which the worker never calls.
-/
namespace KubeAir.Worker.DeviceHoldings
open Core Adapters Transition

/-- A call of `DeviceManager::allocate`. -/
structure AllocateCall where
  podUid : PodUID
  containerName : String
  resourceName : String
  count : ℕ

abbrev DeviceAnswer (_ : AllocateCall) : Type := Except KubeletError AllocateResponse

abbrev DeviceProgram (α : Type) : Type := Program AllocateCall DeviceAnswer α

/-- What is injected into a container. -/
structure Injected where
  devices : List DeviceSpec := []
  mounts : List Mount := []
  envs : List (String × String) := []

def Injected.add (acc : Injected) (resp : AllocateResponse) : Injected where
  devices := acc.devices ++ resp.devices
  mounts := acc.mounts ++ resp.mounts
  envs := acc.envs ++ resp.envs.entries.map (fun e => (e.1,e.2))

/-- Standard resources are skipped; an extended resource has a slash in its name. -/
def isExtended (resource : String) : Bool :=
  resource ∉ ["cpu","memory","ephemeral-storage"] && resource.toList.contains '/'

/-- The loop of `allocate_device_resources`. A resource that is refused is only logged. -/
def allocateLimits (pod : PodSpec) (ctr : ContainerSpec) :
    List (Sigma fun _ : String => ResourceQuantity) → Injected → DeviceProgram Injected
  | [], acc => pure acc
  | e :: limits, acc =>
    if isExtended e.1 && e.2.value.toNat ≠ 0 then do
      let call : AllocateCall := ⟨pod.uid,ctr.name,e.1,e.2.value.toNat⟩
      match ← (Program.request call : DeviceProgram (DeviceAnswer call)) with
      | .ok resp => allocateLimits pod ctr limits (acc.add resp)
      | .error _ => allocateLimits pod ctr limits acc
    else allocateLimits pod ctr limits acc

def allocateDeviceResources (pod : PodSpec) (ctr : ContainerSpec) : DeviceProgram Injected :=
  allocateLimits pod ctr ctr.resources.limits.entries {}

/-! ## Starts and terminations side by side -/

inductive HoldingTask
  /-- `start_container` before its next allocation, or past the last one -/
  | start (podUid : PodUID) (program : DeviceProgram Injected)
  /-- `start_container` with IDs reserved, while the plugin is asked -/
  | waiting (podUid : PodUID) (claim : DeviceClaim)
      (next : Except KubeletError AllocateResponse → DeviceProgram Injected)
  /-- `terminate_pod` -/
  | terminate (podUid : PodUID) (program : WorkerM Unit)

def HoldingTask.startsFor : HoldingTask → Option PodUID
  | .start uid _ => some uid
  | .waiting uid .. => some uid
  | .terminate .. => none

structure HoldingSystem where
  manager : DeviceManager := {}
  tasks : HashMap ℕ HoldingTask := ∅
  /-- pods that were terminated, with no start since then -/
  terminated : List PodUID := []
  /-- the allocations that the plugins granted so far -/
  granted : List DeviceClaim := []

inductive HoldingAction
  | registerPlugin (resourceName socketPath : String)
  | updateDevices (resourceName : String) (devices : List Device)
  | startContainer (i : ℕ) (pod : PodSpec) (ctr : ContainerSpec)
  /-- task `i` is in the first critical section of its next allocation -/
  | reserve (i : ℕ)
  | pluginAnswers (i : ℕ) (resp : AllocateResponse)
  | pluginFails (i : ℕ) (e : KubeletError)
  | startReturns (i : ℕ)
  | terminatePod (i : ℕ) (pod : PodSpec) (state : PodRuntimeState) (gracePeriod : ℕ)
  /-- a call of the termination `i` is answered -/
  | reply (i : ℕ) (answer : ∀ request : Request, request.Answer)
  | terminateReturns (i : ℕ)

namespace HoldingSystem

def setTask (s : HoldingSystem) (i : ℕ) (t : HoldingTask) : HoldingSystem := { s with tasks := s.tasks.insert i t }

/-- The first critical section of an allocation of task `i`. -/
def reserve (s : HoldingSystem) (i : ℕ) (uid : PodUID) (c : AllocateCall)
    (next : Except KubeletError AllocateResponse → DeviceProgram Injected) : HoldingSystem :=
  match s.manager.reserve c.podUid c.containerName c.resourceName c.count with
  | (.ok (ids,_),m) => { s with manager := m }.setTask i (.waiting uid ⟨c.podUid,c.containerName,c.resourceName,ids⟩ next)
  | (.error e,m) => { s with manager := m }.setTask i (.start uid (next (.error e)))

def step (s : HoldingSystem) : HoldingAction → Option HoldingSystem
  | .registerPlugin resourceName socketPath =>
    some { s with manager := s.manager.registerPlugin resourceName socketPath }
  | .updateDevices resourceName devices => some { s with manager := s.manager.updateDevices resourceName devices }
  | .startContainer i pod ctr =>
    match s.tasks.lookup i with
    | some _ => none
    | none => some ({ s with terminated := s.terminated.filter (· ≠ pod.uid) }.setTask i
        (.start pod.uid (allocateDeviceResources pod ctr)))
  | .reserve i =>
    match s.tasks.lookup i with
    | some (.start uid (.call c next)) => some (s.reserve i uid c next)
    | _ => none
  | .pluginAnswers i resp =>
    match s.tasks.lookup i with
    | some (.waiting uid c next) =>
      some ({ s with
        manager := s.manager.record c.podUid c.containerName c.resourceName c.deviceIds
        granted := c :: s.granted }.setTask i (.start uid (next (.ok resp))))
    | _ => none
  | .pluginFails i e =>
    match s.tasks.lookup i with
    | some (.waiting uid c next) =>
      some ({ s with manager := s.manager.dropReservation c.podUid c.containerName c.resourceName }.setTask i
        (.start uid (next (.error e))))
    | _ => none
  | .startReturns i =>
    match s.tasks.lookup i with
    | some (.start _ (.ret _)) => some { s with tasks := s.tasks.erase i }
    | _ => none
  | .terminatePod i pod state gracePeriod =>
    match s.tasks.lookup i with
    | some _ => none
    | none => some (s.setTask i (.terminate pod.uid (Worker.terminatePod pod state gracePeriod)))
  | .reply i answer =>
    match s.tasks.lookup i with
    | some (.terminate uid (.call request next)) => some (s.setTask i (.terminate uid (next (answer request))))
    | _ => none
  | .terminateReturns i =>
    match s.tasks.lookup i with
    | some (.terminate uid (.ret _)) =>
      some { s with tasks := s.tasks.erase i, terminated := uid :: s.terminated }
    | _ => none

/-- No `start_container` for the pod is under way. -/
def NoStart (s : HoldingSystem) (uid : PodUID) : Prop :=
  ∀ i t, s.tasks.lookup i = some t → t.startsFor ≠ some uid

/-- An allocation that was granted, or that waits for its plugin. -/
def Claimed (s : HoldingSystem) (d : DeviceClaim) : Prop :=
  d ∈ s.granted ∨ ∃ i uid next, s.tasks.lookup i = some (.waiting uid d next)

/-- The manager holds nothing for a pod: there is no record of it, and every allocation in the
endpoint of a plugin is one of another pod. -/
def HoldsNothing (s : HoldingSystem) (uid : PodUID) : Prop :=
  s.manager.podAllocations.lookup uid.val = none ∧
    ∀ resourceName ep key ids, s.manager.plugins.lookup resourceName = some ep → ep.allocations.lookup key = some ids →
      ∃ d, s.Claimed d ∧ d.podUid ≠ uid ∧ d.resourceName = resourceName ∧ d.key = key ∧ d.deviceIds = ids

end HoldingSystem

/-! ## The invariant -/

theorem uses_allocateLimits (pod : PodSpec) (ctr : ContainerSpec)
    (limits : List (Sigma fun _ : String => ResourceQuantity)) (acc : Injected) :
    (allocateLimits pod ctr limits acc).Uses (fun c => c.podUid = pod.uid) := by
  induction limits generalizing acc with
  | nil => trivial
  | cons e limits ih =>
    unfold allocateLimits
    split
    · refine Program.Uses.bind (Program.Every.request rfl) ?_
      intro answer
      cases answer with
      | ok resp => exact ih _
      | error e => exact ih _
    · exact ih _

/-- A start asks for its own pod only. -/
def HoldingTask.Own : HoldingTask → Prop
  | .start uid program => program.Uses (fun c => c.podUid = uid)
  | .waiting uid d next => d.podUid = uid ∧ ∀ answer, (next answer).Uses (fun c => c.podUid = uid)
  | .terminate .. => True

structure HoldingInv (s : HoldingSystem) : Prop where
  own : ∀ i t, s.tasks.lookup i = some t → t.Own
  recorded : ∀ u, s.manager.podAllocations.lookup u = none ↔ ∀ d ∈ s.granted, d.podUid.val ≠ u
  reserved : ∀ resourceName ep key ids, s.manager.plugins.lookup resourceName = some ep →
    ep.allocations.lookup key = some ids →
      ∃ d, s.Claimed d ∧ d.resourceName = resourceName ∧ d.key = key ∧ d.deviceIds = ids

theorem holdingInv_initial : HoldingInv {} := by
  refine ⟨?_,?_,?_⟩
  · intro i t h
    cases h
  · intro u
    exact ⟨fun _ d hd => absurd hd List.not_mem_nil,fun _ => rfl⟩
  · intro resourceName ep key ids h
    cases h

/-- Every allocation in an endpoint of `plugins` is in one of `m`. -/
def Within (m : DeviceManager) (plugins : HashMap String PluginEndpoint) : Prop :=
  ∀ resourceName ep key ids, plugins.lookup resourceName = some ep → ep.allocations.lookup key = some ids →
    ∃ ep', m.plugins.lookup resourceName = some ep' ∧ ep'.allocations.lookup key = some ids

section Manager
variable {m : DeviceManager}

theorem within_registerPlugin (resourceName socketPath : String) :
    Within m (m.registerPlugin resourceName socketPath).plugins := by
  intro r ep key ids hep hids
  rcases HashMap.lookup_insert_eq_some.mp hep with ⟨-,rfl⟩ | ⟨-,hold⟩
  · cases hids
  · exact ⟨ep,hold,hids⟩

theorem within_updateDevices (resourceName : String) (devices : List Device) :
    Within m (m.updateDevices resourceName devices).plugins := by
  intro r ep key ids hep hids
  unfold DeviceManager.updateDevices at hep
  cases hold : m.plugins.lookup resourceName with
  | none =>
    rw [hold] at hep
    exact ⟨ep,hep,hids⟩
  | some ep' =>
    rw [hold] at hep
    rcases HashMap.lookup_insert_eq_some.mp hep with ⟨rfl,rfl⟩ | ⟨-,hother⟩
    · exact ⟨ep',hold,hids⟩
    · exact ⟨ep,hother,hids⟩

/-- A reservation that is dropped leaves nothing under its key. -/
theorem within_dropReservation {d : DeviceClaim} {r : String} {ep : PluginEndpoint} {key : String} {ids : List String}
    (hep : (m.dropReservation d.podUid d.containerName d.resourceName).plugins.lookup r = some ep)
    (hids : ep.allocations.lookup key = some ids) :
    (∃ ep', m.plugins.lookup r = some ep' ∧ ep'.allocations.lookup key = some ids) ∧
      (d.resourceName = r → d.key ≠ key) := by
  unfold DeviceManager.dropReservation at hep
  cases hold : m.plugins.lookup d.resourceName with
  | none =>
    rw [hold] at hep
    refine ⟨⟨ep,hep,hids⟩,?_⟩
    rintro rfl
    rw [hold] at hep
    cases hep
  | some ep' =>
    rw [hold] at hep
    rcases HashMap.lookup_insert_eq_some.mp hep with ⟨rfl,rfl⟩ | ⟨hne,hother⟩
    · obtain ⟨hkey,hids⟩ := HashMap.lookup_erase_eq_some.mp hids
      exact ⟨⟨ep',hold,hids⟩,fun _ h => hkey h.symm⟩
    · exact ⟨⟨ep,hother,hids⟩,fun h => absurd h.symm hne⟩

theorem podAllocations_record (d : DeviceClaim) (u : String) :
    (m.record d.podUid d.containerName d.resourceName d.deviceIds).podAllocations.lookup u = none ↔
      d.podUid.val ≠ u ∧ m.podAllocations.lookup u = none := by
  unfold DeviceManager.record
  dsimp only
  by_cases hu : u = d.podUid.val
  · subst hu
    rw [AList.lookup_insert]
    simp only [reduceCtorEq,ne_eq,not_true_eq_false,false_and]
  · rw [AList.lookup_insert_ne hu]
    simp only [ne_eq,Ne.symm hu,not_false_eq_true,true_and]

theorem podAllocations_updateDevices (resourceName : String) (devices : List Device) :
    (m.updateDevices resourceName devices).podAllocations = m.podAllocations := by
  unfold DeviceManager.updateDevices
  cases m.plugins.lookup resourceName with
  | none => rfl
  | some ep => rfl

theorem podAllocations_dropReservation (podUid : PodUID) (containerName resourceName : String) :
    (m.dropReservation podUid containerName resourceName).podAllocations = m.podAllocations := by
  unfold DeviceManager.dropReservation
  cases m.plugins.lookup resourceName with
  | none => rfl
  | some ep => rfl

/-- A reservation that is refused changes nothing. -/
theorem reserve_error {podUid : PodUID} {containerName resourceName : String} {count : ℕ} {e : KubeletError}
    {m' : DeviceManager} (h : m.reserve podUid containerName resourceName count = (.error e,m')) : m' = m := by
  unfold DeviceManager.reserve at h
  cases hep : m.plugins.lookup resourceName with
  | none =>
    rw [hep] at h
    exact (Prod.mk.inj h).2.symm
  | some ep =>
    rw [hep] at h
    dsimp only at h
    cases hids : ep.allocateDevices count with
    | none =>
      rw [hids] at h
      exact (Prod.mk.inj h).2.symm
    | some ids =>
      rw [hids] at h
      cases (Prod.mk.inj h).1

/-- What a reservation adds is under its own key. -/
theorem reserve_ok {podUid : PodUID} {containerName resourceName : String} {count : ℕ} {ids : List String}
    {socketPath : String} {m' : DeviceManager}
    (h : m.reserve podUid containerName resourceName count = (.ok (ids,socketPath),m')) :
    m'.podAllocations = m.podAllocations ∧
      ∀ r ep key ids', m'.plugins.lookup r = some ep → ep.allocations.lookup key = some ids' →
        (r = resourceName ∧ key = allocationKey podUid containerName ∧ ids' = ids) ∨
          ∃ ep', m.plugins.lookup r = some ep' ∧ ep'.allocations.lookup key = some ids' := by
  unfold DeviceManager.reserve at h
  cases hep : m.plugins.lookup resourceName with
  | none =>
    rw [hep] at h
    cases (Prod.mk.inj h).1
  | some ep =>
    rw [hep] at h
    dsimp only at h
    cases hids : ep.allocateDevices count with
    | none =>
      rw [hids] at h
      cases (Prod.mk.inj h).1
    | some free =>
      rw [hids] at h
      obtain ⟨hok,rfl⟩ := Prod.mk.inj h
      obtain rfl : free = ids := (Prod.mk.inj (Except.ok.inj hok)).1
      refine ⟨rfl,?_⟩
      intro r ep' key ids' hep' hids'
      rcases HashMap.lookup_insert_eq_some.mp hep' with ⟨rfl,rfl⟩ | ⟨-,hother⟩
      · rcases HashMap.lookup_insert_eq_some.mp hids' with ⟨rfl,rfl⟩ | ⟨-,hold⟩
        · exact .inl ⟨rfl,rfl,rfl⟩
        · exact .inr ⟨ep,hep,hold⟩
      · exact .inr ⟨ep',hother,hids'⟩

end Manager

section Steps
variable {s : HoldingSystem}

/-- A change of the manager alone, which adds no allocation. -/
theorem HoldingInv.of_manager (h : HoldingInv s) {m : DeviceManager} (hwithin : Within s.manager m.plugins)
    (hpods : m.podAllocations = s.manager.podAllocations) : HoldingInv { s with manager := m } := by
  refine ⟨h.own,?_,?_⟩
  · intro u
    dsimp only
    rw [hpods]
    exact h.recorded u
  · intro resourceName ep key ids hep hids
    obtain ⟨ep',hep',hids'⟩ := hwithin resourceName ep key ids hep hids
    exact h.reserved resourceName ep' key ids hep' hids'

/-- Other tasks with the same plugin calls open. -/
theorem HoldingInv.withTasks (h : HoldingInv s) {tasks : HashMap ℕ HoldingTask} (terminated : List PodUID)
    (hown : ∀ j t, tasks.lookup j = some t → t.Own)
    (hwaits : ∀ j uid d next, s.tasks.lookup j = some (.waiting uid d next) → tasks.lookup j = some (.waiting uid d next)) :
    HoldingInv { s with tasks := tasks, terminated := terminated } := by
  refine ⟨hown,h.recorded,?_⟩
  intro resourceName ep key ids hep hids
  obtain ⟨d,hd,heq⟩ := h.reserved resourceName ep key ids hep hids
  refine ⟨d,?_,heq⟩
  rcases hd with hd | ⟨j,uid,next,hj⟩
  · exact .inl hd
  · exact .inr ⟨j,uid,next,hwaits j uid d next hj⟩

/-- A task that does not wait for its plugin is replaced. -/
theorem HoldingInv.setTask (h : HoldingInv s) {i : ℕ} {t : HoldingTask} (ht : t.Own)
    (hi : ∀ uid d next, s.tasks.lookup i ≠ some (.waiting uid d next)) : HoldingInv (s.setTask i t) := by
  refine h.withTasks s.terminated ?_ ?_
  · intro j t' hj
    rcases HashMap.lookup_insert_eq_some.mp hj with ⟨-,rfl⟩ | ⟨-,hold⟩
    · exact ht
    · exact h.own j t' hold
  · intro j uid d next hj
    refine (AList.lookup_insert_ne ?_).trans hj
    rintro rfl
    exact hi uid d next hj

/-- A task that does not wait for its plugin ends. -/
theorem HoldingInv.erase (h : HoldingInv s) {i : ℕ} (terminated : List PodUID)
    (hi : ∀ uid d next, s.tasks.lookup i ≠ some (.waiting uid d next)) :
    HoldingInv { s with tasks := s.tasks.erase i, terminated := terminated } := by
  refine h.withTasks terminated ?_ ?_
  · intro j t hj
    exact h.own j t (HashMap.lookup_erase_eq_some.mp hj).2
  · intro j uid d next hj
    refine (AList.lookup_erase_ne ?_).trans hj
    rintro rfl
    exact hi uid d next hj

theorem holdingInv_reserve (h : HoldingInv s) {i : ℕ} {uid : PodUID} {c : AllocateCall}
    {next : DeviceAnswer c → DeviceProgram Injected} (hi : s.tasks.lookup i = some (.start uid (.call c next))) :
    HoldingInv (s.reserve i uid c next) := by
  obtain ⟨hcall,hnext⟩ := h.own i _ hi
  have hidle : ∀ uid d next, s.tasks.lookup i ≠ some (.waiting uid d next) := by
    intro uid d next hw
    rw [hi] at hw
    cases hw
  unfold HoldingSystem.reserve
  rcases hr : s.manager.reserve c.podUid c.containerName c.resourceName c.count with ⟨_ | ⟨ids,socketPath⟩,m⟩
  · obtain rfl := reserve_error hr
    exact h.setTask (hnext _) hidle
  · obtain ⟨hpods,hadded⟩ := reserve_ok hr
    refine ⟨?_,?_,?_⟩
    · intro j t hj
      rcases HashMap.lookup_insert_eq_some.mp hj with ⟨-,rfl⟩ | ⟨-,hold⟩
      · exact ⟨hcall,hnext⟩
      · exact h.own j t hold
    · intro u
      change m.podAllocations.lookup u = none ↔ _
      rw [hpods]
      exact h.recorded u
    · intro r ep key ids' hep hids
      rcases hadded r ep key ids' hep hids with ⟨rfl,rfl,rfl⟩ | ⟨ep',hep',hids'⟩
      · exact ⟨_,.inr ⟨i,uid,next,AList.lookup_insert _⟩,rfl,rfl,rfl⟩
      · obtain ⟨d,hd,heq⟩ := (h.setTask (i := i) (t := .start uid (.call c next)) ⟨hcall,hnext⟩ hidle).reserved
          r ep' key ids' hep' hids'
        refine ⟨d,?_,heq⟩
        rcases hd with hd | ⟨j,uid',next',hj⟩
        · exact .inl hd
        · rcases HashMap.lookup_insert_eq_some.mp hj with ⟨-,hw⟩ | ⟨hne,hold⟩
          · cases hw
          · exact .inr ⟨j,uid',next',(AList.lookup_insert_ne hne).trans hold⟩

theorem holdingInv_pluginAnswers (h : HoldingInv s) {i : ℕ} {uid : PodUID} {d : DeviceClaim}
    {next : Except KubeletError AllocateResponse → DeviceProgram Injected}
    (hi : s.tasks.lookup i = some (.waiting uid d next)) (resp : AllocateResponse) :
    HoldingInv ({ s with
      manager := s.manager.record d.podUid d.containerName d.resourceName d.deviceIds
      granted := d :: s.granted }.setTask i (.start uid (next (.ok resp)))) := by
  refine ⟨?_,?_,?_⟩
  · intro j t hj
    rcases HashMap.lookup_insert_eq_some.mp hj with ⟨-,rfl⟩ | ⟨-,hold⟩
    · exact (h.own i _ hi).2 _
    · exact h.own j t hold
  · intro u
    refine (podAllocations_record d u).trans ?_
    rw [h.recorded u]
    exact (List.forall_mem_cons (p := fun d : DeviceClaim => d.podUid.val ≠ u)).symm
  · intro r ep key ids hep hids
    obtain ⟨d',hd',heq⟩ := h.reserved r ep key ids hep hids
    refine ⟨d',?_,heq⟩
    rcases hd' with hd' | ⟨j,uid',next',hj⟩
    · exact .inl (List.mem_cons_of_mem _ hd')
    · by_cases hji : j = i
      · subst hji
        rw [hi] at hj
        cases hj
        exact .inl List.mem_cons_self
      · exact .inr ⟨j,uid',next',(AList.lookup_insert_ne hji).trans hj⟩

theorem holdingInv_pluginFails (h : HoldingInv s) {i : ℕ} {uid : PodUID} {d : DeviceClaim}
    {next : Except KubeletError AllocateResponse → DeviceProgram Injected}
    (hi : s.tasks.lookup i = some (.waiting uid d next)) (e : KubeletError) :
    HoldingInv ({ s with manager := s.manager.dropReservation d.podUid d.containerName d.resourceName }.setTask i
      (.start uid (next (.error e)))) := by
  refine ⟨?_,?_,?_⟩
  · intro j t hj
    rcases HashMap.lookup_insert_eq_some.mp hj with ⟨-,rfl⟩ | ⟨-,hold⟩
    · exact (h.own i _ hi).2 _
    · exact h.own j t hold
  · intro u
    change (s.manager.dropReservation d.podUid d.containerName d.resourceName).podAllocations.lookup u = none ↔ _
    rw [podAllocations_dropReservation]
    exact h.recorded u
  · intro r ep key ids hep hids
    obtain ⟨⟨ep',hep',hids'⟩,hother⟩ := within_dropReservation hep hids
    obtain ⟨d',hd',hres,hkey,hdids⟩ := h.reserved r ep' key ids hep' hids'
    refine ⟨d',?_,hres,hkey,hdids⟩
    rcases hd' with hd' | ⟨j,uid',next',hj⟩
    · exact .inl hd'
    · by_cases hji : j = i
      · -- the claim of the task that failed is the one that was dropped
        subst hji
        rw [hi] at hj
        cases hj
        exact absurd hkey (hother hres)
      · exact .inr ⟨j,uid',next',(AList.lookup_insert_ne hji).trans hj⟩

theorem holdingInv_step (h : HoldingInv s) {a : HoldingAction} {t : HoldingSystem} (hs : s.step a = some t) :
    HoldingInv t := by
  have hidle {i : ℕ} {t : HoldingTask} (ht : s.tasks.lookup i = some t) (hw : ∀ uid d next, t ≠ .waiting uid d next) :
      ∀ uid d next, s.tasks.lookup i ≠ some (.waiting uid d next) := by
    intro uid d next h
    rw [ht] at h
    exact hw uid d next (Option.some.inj h)
  have hfree {i : ℕ} (hi : s.tasks.lookup i = none) :
      ∀ uid d next, s.tasks.lookup i ≠ some (.waiting uid d next) := by
    intro uid d next h
    rw [hi] at h
    cases h
  cases a with
  | registerPlugin resourceName socketPath =>
    obtain rfl := Option.some.inj hs
    exact h.of_manager (within_registerPlugin resourceName socketPath) rfl
  | updateDevices resourceName devices =>
    obtain rfl := Option.some.inj hs
    exact h.of_manager (within_updateDevices resourceName devices) (podAllocations_updateDevices resourceName devices)
  | startContainer i pod ctr =>
    simp only [HoldingSystem.step] at hs
    split at hs
    · cases hs
    · next hi =>
      obtain rfl := Option.some.inj hs
      have hkept : HoldingInv { s with terminated := s.terminated.filter (· ≠ pod.uid) } :=
        ⟨h.own,h.recorded,h.reserved⟩
      exact hkept.setTask (uses_allocateLimits pod ctr _ _) (hfree hi)
  | reserve i =>
    simp only [HoldingSystem.step] at hs
    split at hs
    · next hi =>
      obtain rfl := Option.some.inj hs
      exact holdingInv_reserve h hi
    · cases hs
  | pluginAnswers i resp =>
    simp only [HoldingSystem.step] at hs
    split at hs
    · next hi =>
      obtain rfl := Option.some.inj hs
      exact holdingInv_pluginAnswers h hi resp
    · cases hs
  | pluginFails i e =>
    simp only [HoldingSystem.step] at hs
    split at hs
    · next hi =>
      obtain rfl := Option.some.inj hs
      exact holdingInv_pluginFails h hi e
    · cases hs
  | startReturns i =>
    simp only [HoldingSystem.step] at hs
    split at hs
    · next hi =>
      obtain rfl := Option.some.inj hs
      exact h.erase s.terminated (hidle hi (by intro _ _ _ h; cases h))
    · cases hs
  | terminatePod i pod state gracePeriod =>
    simp only [HoldingSystem.step] at hs
    split at hs
    · cases hs
    · next hi =>
      obtain rfl := Option.some.inj hs
      exact h.setTask trivial (hfree hi)
  | reply i answer =>
    simp only [HoldingSystem.step] at hs
    split at hs
    · next hi =>
      obtain rfl := Option.some.inj hs
      exact h.setTask trivial (hidle hi (by intro _ _ _ h; cases h))
    · cases hs
  | terminateReturns i =>
    simp only [HoldingSystem.step] at hs
    split at hs
    · next hi =>
      obtain rfl := Option.some.inj hs
      exact h.erase _ (hidle hi (by intro _ _ _ h; cases h))
    · cases hs

/-- While nothing is started for a pod, the manager holds nothing for it exactly when its plugins
granted it nothing. -/
theorem HoldingInv.holdsNothing_iff (h : HoldingInv s) {uid : PodUID} (hstart : s.NoStart uid) :
    s.HoldsNothing uid ↔ ∀ d ∈ s.granted, d.podUid ≠ uid := by
  have hval : (∀ d ∈ s.granted, d.podUid.val ≠ uid.val) ↔ ∀ d ∈ s.granted, d.podUid ≠ uid := by
    refine forall₂_congr ?_
    intro d _
    exact not_congr ⟨PodUID.eq_of_val,congrArg PodUID.val⟩
  constructor
  · rintro ⟨hnone,-⟩
    exact hval.mp ((h.recorded uid.val).mp hnone)
  · intro hgranted
    refine ⟨(h.recorded uid.val).mpr (hval.mpr hgranted),?_⟩
    intro resourceName ep key ids hep hids
    obtain ⟨d,hd,heq⟩ := h.reserved resourceName ep key ids hep hids
    refine ⟨d,hd,?_,heq⟩
    rcases hd with hd | ⟨i,owner,next,hi⟩
    · exact hgranted d hd
    · rintro rfl
      obtain ⟨rfl,-⟩ := h.own i _ hi
      exact hstart i _ hi rfl

end Steps

/-! ## Terminated pods -/

/-- Nothing is held for a pod that was terminated, as long as nothing is started for it. -/
def NoStaleHoldings (s : HoldingSystem) : Prop := ∀ uid ∈ s.terminated, s.NoStart uid → s.HoldsNothing uid

/-- No plugin granted devices to a pod that was terminated and is not started again. -/
def NothingGranted (s : HoldingSystem) : Prop :=
  ∀ uid ∈ s.terminated, s.NoStart uid → ∀ d ∈ s.granted, d.podUid ≠ uid

/-- What the plugins granted to a pod stays with it, whatever terminates it. -/
theorem noStaleHoldings_iff {w : List HoldingAction} {s : HoldingSystem}
    (hr : Runs (ofStep HoldingSystem.step) {} w s) : NoStaleHoldings s ↔ NothingGranted s := by
  have hinv : HoldingInv s := hr.invariant (fun _ _ _ h hs => holdingInv_step h hs) holdingInv_initial
  refine forall₃_congr ?_
  intro uid _ hstart
  exact hinv.holdsNothing_iff hstart

section Examples

/-- Everything the termination asks for is done. -/
def quietAnswers : ∀ request : Request, request.Answer
  | .now => (0 : ℤ)
  | .instant => (0 : ℕ)
  | .sleep _ => ()
  | .pause _ => ()
  | .ensurePodVolumes _ => .ok ()
  | .unmountPodVolumes => .ok ()
  | .ensureImage image => .ok image
  | .prepareContainer _ => .ok none
  | .runPodSandbox _ => .ok "sandbox"
  | .stopPodSandbox _ => .ok ()
  | .removePodSandbox _ => .ok ()
  | .podSandboxStatus _ => .ok none
  | .listPodSandboxes => .ok []
  | .createContainer _ => .ok "container"
  | .startContainer _ => .ok ()
  | .stopContainer .. => .ok ()
  | .removeContainer _ => .ok ()
  | .listContainers _ => .ok []
  | .containerStatus .. => .ok none
  | .updateContainerResources .. => .ok ()
  | .runPostStart .. => .ok ()
  | .runPreStop .. => ()
  | .getStatus => none
  | .setStatus _ => ()
  | .reportPodStatus _ => .ok ()
  | .containerStartupDone _ => none
  | .containerReadiness _ => none
  | .forgetProbes _ => ()
  | .spawnProbe .. => ()
  | .readTerminationMessage .. => none

def gpuContainer : ContainerSpec where
  name := "app"
  image := "app:1"
  resources := { limits := AList.insert "vendor.io/gpu" ⟨1,.count⟩ ∅ }

def gpuPod : PodSpec where
  uid := ⟨"u"⟩
  podRef := ⟨"default","p"⟩
  containers := [gpuContainer]

def gpuState : PodRuntimeState where
  sandboxId := some "sandbox"
  containerIds := AList.insert "app" "c1" ∅

/-- A container is given a device, and its pod is terminated gracefully. -/
def gpuRun (answer : HoldingAction) : List HoldingAction :=
  [.registerPlugin "vendor.io/gpu" "gpu.sock",.updateDevices "vendor.io/gpu" [⟨"gpu-0",.healthy⟩],
   .startContainer 0 gpuPod gpuContainer,.reserve 0,answer,.startReturns 0,.terminatePod 1 gpuPod gpuState 30] ++
  List.replicate 7 (.reply 1 quietAnswers) ++ [.terminateReturns 1]

theorem noStart_of_no_tasks {s : HoldingSystem} (h : s.tasks.entries.isEmpty = true) (uid : PodUID) :
    s.NoStart uid := by
  intro i t hi
  have hmem := AList.mem_lookup_iff.mp (Option.mem_def.mpr hi)
  rw [List.isEmpty_iff.mp h] at hmem
  cases hmem

/-- The plugin refuses, and the pod is terminated with nothing held. -/
theorem noStaleHoldings_of_refused : ∃ s, Runs (ofStep HoldingSystem.step) {}
    (gpuRun (.pluginFails 0 (.resource "refused"))) s ∧ s.terminated = [⟨"u"⟩] ∧
      (NoStaleHoldings s ↔ NothingGranted s) ∧ NothingGranted s := by
  have hexec : ((exec HoldingSystem.step {} (gpuRun (.pluginFails 0 (.resource "refused")))).map
      (fun s => (s.terminated,s.granted))) = some ([⟨"u"⟩],[]) := by
    decide +kernel
  obtain ⟨s,hs,heq⟩ := Option.map_eq_some_iff.mp hexec
  obtain ⟨hterminated,hgranted⟩ := Prod.mk.inj heq
  have hr := runs_of_exec hs
  refine ⟨s,hr,hterminated,noStaleHoldings_iff hr,?_⟩
  intro uid _ _ d hd
  rw [hgranted] at hd
  cases hd

/-- The device is still recorded for the pod once `terminate_pod` has returned. -/
theorem holdings_left : ∃ s, Runs (ofStep HoldingSystem.step) {} (gpuRun (.pluginAnswers 0 {})) s ∧
    ⟨"u"⟩ ∈ s.terminated ∧ s.NoStart ⟨"u"⟩ ∧ ¬ s.HoldsNothing ⟨"u"⟩ ∧ ¬ NoStaleHoldings s := by
  have hexec : ((exec HoldingSystem.step {} (gpuRun (.pluginAnswers 0 {}))).map
      (fun s => ((s.terminated,s.tasks.entries.isEmpty),(s.manager.podAllocations.lookup "u").isSome))) =
      some (([⟨"u"⟩],true),true) := by
    decide +kernel
  obtain ⟨s,hs,heq⟩ := Option.map_eq_some_iff.mp hexec
  obtain ⟨hleft,hheld⟩ := Prod.mk.inj heq
  obtain ⟨hterminated,htasks⟩ := Prod.mk.inj hleft
  have hmem : ⟨"u"⟩ ∈ s.terminated := by
    rw [hterminated]
    exact List.mem_cons_self
  have hstart := noStart_of_no_tasks htasks ⟨"u"⟩
  have hnot : ¬ s.HoldsNothing ⟨"u"⟩ := by
    rintro ⟨hnone,-⟩
    rw [hnone] at hheld
    cases hheld
  exact ⟨s,runs_of_exec hs,hmem,hstart,hnot,fun h => hnot (h _ hmem hstart)⟩

end Examples

end KubeAir.Worker.DeviceHoldings
