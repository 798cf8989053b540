import KubeAir.Adapters.DeviceManager
import KubeAir.Transition.Runs
import Mathlib.Data.List.Perm.Basic

/-! # Device exclusivity over whole runs

Calls of the device manager with the allocations that are under way, each between its
critical sections, and the device IDs that live containers were handed.
-/
namespace KubeAir.Adapters
open Core Transition

/-- The device IDs that one allocation is about. -/
structure DeviceClaim where
  podUid : PodUID
  containerName : String
  resourceName : String
  deviceIds : List String
deriving DecidableEq

def DeviceClaim.key (c : DeviceClaim) : String := allocationKey c.podUid c.containerName

/-- The manager, the allocations that wait for their plugin, and the answers of the
allocations that returned Ok, until the pod of the container is deallocated. -/
structure DeviceSystem where
  manager : DeviceManager := {}
  pending : List DeviceClaim := []
  handed : List DeviceClaim := []

inductive DeviceAction
  | registerPlugin (resourceName socketPath : String)
  | updateDevices (resourceName : String) (devices : List Device)
  /-- the first critical section of an allocate call -/
  | allocate (podUid : PodUID) (containerName resourceName : String) (count : ℕ)
  /-- the plugin answers pending allocation `i` -/
  | pluginAnswers (i : ℕ)
  | pluginFails (i : ℕ)
  | deallocatePod (podUid : PodUID)

namespace DeviceSystem

def claims (s : DeviceSystem) : List DeviceClaim := s.pending ++ s.handed

def allocate (s : DeviceSystem) (podUid : PodUID) (containerName resourceName : String) (count : ℕ) :
    DeviceSystem :=
  match s.manager.reserve podUid containerName resourceName count with
  | (.ok (ids,_),m) =>
    { s with manager := m, pending := s.pending ++ [⟨podUid,containerName,resourceName,ids⟩] }
  | (.error _,m) => { s with manager := m }

def step (s : DeviceSystem) : DeviceAction → Option DeviceSystem
  | .registerPlugin resourceName socketPath =>
    some { s with manager := s.manager.registerPlugin resourceName socketPath }
  | .updateDevices resourceName devices => some { s with manager := s.manager.updateDevices resourceName devices }
  | .allocate podUid containerName resourceName count =>
    some (s.allocate podUid containerName resourceName count)
  | .pluginAnswers i => s.pending[i]?.map fun c =>
    { manager := s.manager.record c.podUid c.containerName c.resourceName c.deviceIds
      pending := s.pending.eraseIdx i
      handed := c :: s.handed }
  | .pluginFails i => s.pending[i]?.map fun c =>
    { s with
      manager := s.manager.dropReservation c.podUid c.containerName c.resourceName
      pending := s.pending.eraseIdx i }
  | .deallocatePod podUid =>
    some { s with
      manager := s.manager.deallocatePod podUid
      handed := s.handed.filter (fun c => c.podUid ≠ podUid) }

end DeviceSystem

/-- No device ID of a resource was handed to two live containers. -/
def DevicesExclusive (s : DeviceSystem) : Prop :=
  ∀ c ∈ s.handed, ∀ d ∈ s.handed, c.resourceName = d.resourceName →
    (c.podUid,c.containerName) ≠ (d.podUid,d.containerName) → ∀ id ∈ c.deviceIds, id ∉ d.deviceIds

/-- What is recorded under a key for a resource. -/
def PluginEndpoint.recordOf (ep : PluginEndpoint) (key : String) : List String :=
  (ep.allocations.lookup key).getD []

/-- A plugin registers again only when no device of the resource is allocated, a container
is given devices only when none are recorded for it, and a failure drops no other record. -/
def KeepsRecords (s : DeviceSystem) : DeviceAction → Prop
  | .registerPlugin resourceName _ => ∀ ep ∈ s.manager.plugins.lookup resourceName, ep.allocated = []
  | .allocate podUid containerName resourceName count =>
    ∀ ep ∈ s.manager.plugins.lookup resourceName, (ep.allocateDevices count).isSome = true →
      ep.recordOf (allocationKey podUid containerName) = []
  | .pluginFails i => ∀ c ∈ s.pending[i]?, ∀ ep ∈ s.manager.plugins.lookup c.resourceName,
      ∀ id ∈ ep.recordOf c.key, id ∈ c.deviceIds
  | _ => True

instance (s : DeviceSystem) : ∀ a, Decidable (KeepsRecords s a)
  | .registerPlugin resourceName _ =>
    inferInstanceAs (Decidable (∀ ep ∈ s.manager.plugins.lookup resourceName, ep.allocated = []))
  | .allocate podUid containerName resourceName count =>
    inferInstanceAs (Decidable (∀ ep ∈ s.manager.plugins.lookup resourceName,
      (ep.allocateDevices count).isSome = true → ep.recordOf (allocationKey podUid containerName) = []))
  | .pluginFails i =>
    inferInstanceAs (Decidable (∀ c ∈ s.pending[i]?, ∀ ep ∈ s.manager.plugins.lookup c.resourceName,
      ∀ id ∈ ep.recordOf c.key, id ∈ c.deviceIds))
  | .updateDevices .. => instDecidableTrue
  | .pluginAnswers _ => instDecidableTrue
  | .deallocatePod _ => instDecidableTrue

/-! ## The invariant -/

/-- The endpoint of the resource holds the claim under the key of the container. -/
def Recorded (plugins : HashMap String PluginEndpoint) (c : DeviceClaim) : Prop :=
  ∃ ep, plugins.lookup c.resourceName = some ep ∧ ep.allocations.lookup c.key = some c.deviceIds

/-- Claims on one resource share no device ID. -/
def Apart (c d : DeviceClaim) : Prop := c.resourceName = d.resourceName → ∀ id ∈ c.deviceIds, id ∉ d.deviceIds

theorem apart_symm {c d : DeviceClaim} (h : Apart c d) : Apart d c :=
  fun heq id hd hc => h heq.symm id hc hd

instance : Std.Symm Apart := ⟨fun _ _ => apart_symm⟩

/-- The IDs recorded for the cleanup of a pod. -/
def DeviceManager.recordedIds (m : DeviceManager) (uid containerName resourceName : String) : List String :=
  ((((m.podAllocations.lookup uid).getD ∅).lookup containerName).getD ∅ : DeviceIdsByResource).lookup
    resourceName |>.getD []

structure DeviceInv (s : DeviceSystem) : Prop where
  recorded : ∀ c ∈ s.claims, c.deviceIds ≠ [] → Recorded s.manager.plugins c
  apart : s.claims.Pairwise Apart
  tracked : ∀ uid containerName resourceName id, id ∈ s.manager.recordedIds uid containerName resourceName →
    ∃ c ∈ s.handed, c.podUid.val = uid ∧ c.containerName = containerName ∧ c.resourceName = resourceName ∧
      id ∈ c.deviceIds

section Endpoints
variable {plugins : HashMap String PluginEndpoint} {ep : PluginEndpoint} {c : DeviceClaim} {resourceName key : String}

theorem mem_allocated {ids : List String} {id : String} (h : ep.allocations.lookup key = some ids) (hid : id ∈ ids) :
    id ∈ ep.allocated :=
  List.mem_flatMap.mpr ⟨⟨key,ids⟩,AList.mem_lookup_iff.mp h,hid⟩

theorem notMem_allocated {count : ℕ} {ids : List String} {id : String} (h : ep.allocateDevices count = some ids)
    (hid : id ∈ ids) : id ∉ ep.allocated := by
  unfold PluginEndpoint.allocateDevices at h
  dsimp only at h
  split at h
  · cases h
  · obtain rfl := Option.some.inj h
    obtain ⟨d,hd,rfl⟩ := List.mem_map.mp hid
    have havailable := (List.mem_filter.mp (List.mem_of_mem_take hd)).2
    simpa using (Bool.and_eq_true_iff.mp havailable).2

/-- A change of the endpoint that keeps the record of the claim. -/
theorem Recorded.insert (h : Recorded plugins c) {ep' : PluginEndpoint}
    (hkeep : c.resourceName = resourceName → ∀ ep, plugins.lookup resourceName = some ep →
      ep.allocations.lookup c.key = some c.deviceIds → ep'.allocations.lookup c.key = some c.deviceIds) :
    Recorded (plugins.insert resourceName ep') c := by
  obtain ⟨ep,hep,hids⟩ := h
  by_cases hres : c.resourceName = resourceName
  · refine ⟨ep',?_,hkeep hres ep (hres ▸ hep) hids⟩
    rw [hres,AList.lookup_insert]
  · exact ⟨ep,(AList.lookup_insert_ne hres).trans hep,hids⟩

theorem Recorded.mem_allocated (h : Recorded plugins c) (hep : plugins.lookup c.resourceName = some ep)
    {id : String} (hid : id ∈ c.deviceIds) : id ∈ ep.allocated := by
  obtain ⟨ep',hep',hids⟩ := h
  rw [hep] at hep'
  obtain rfl := Option.some.inj hep'
  exact Adapters.mem_allocated hids hid

/-- Released IDs that are not those of the claim leave its record alone. -/
theorem Recorded.releaseIds (h : Recorded plugins c) {released : List String}
    (hapart : c.resourceName = resourceName → c.key = key → ∀ id ∈ c.deviceIds, id ∉ released)
    (hne : c.deviceIds ≠ []) : Recorded (DeviceManager.releaseIds plugins key resourceName released) c := by
  unfold DeviceManager.releaseIds
  cases hep : plugins.lookup resourceName with
  | none => exact h
  | some ep =>
    dsimp only
    cases hids : ep.allocations.lookup key with
    | none => exact h
    | some ids =>
      dsimp only
      refine h.insert ?_
      intro hres ep' hep' hrecord
      rw [hep] at hep'
      obtain rfl := Option.some.inj hep'
      by_cases hkey : c.key = key
      · rw [hkey,hids] at hrecord
        obtain rfl := Option.some.inj hrecord
        have hkept : c.deviceIds.filter (fun id => !released.contains id) = c.deviceIds := by
          refine List.filter_eq_self.mpr ?_
          intro id hid
          simpa using hapart hres hkey id hid
        rw [hkept,if_neg (by simpa using hne),hkey,AList.lookup_insert]
      · split
        · rw [AList.lookup_erase_ne hkey]
          exact hrecord
        · rw [AList.lookup_insert_ne hkey]
          exact hrecord

end Endpoints

section Steps
variable {s : DeviceSystem}

theorem deviceInv_initial : DeviceInv {} := by
  refine ⟨?_,List.Pairwise.nil,?_⟩
  · intro c hc
    cases hc
  · intro uid containerName resourceName id hid
    cases hid

/-- A change of the plugins that keeps the record of every claim. -/
theorem DeviceInv.of_plugins (h : DeviceInv s) {plugins : HashMap String PluginEndpoint}
    (hrecorded : ∀ c ∈ s.claims, c.deviceIds ≠ [] → Recorded s.manager.plugins c → Recorded plugins c) :
    DeviceInv { s with manager := { s.manager with plugins := plugins } } :=
  ⟨fun c hc hne => hrecorded c hc hne (h.recorded c hc hne),h.apart,h.tracked⟩

theorem deviceInv_registerPlugin (h : DeviceInv s) {resourceName : String} (socketPath : String)
    (hok : ∀ ep ∈ s.manager.plugins.lookup resourceName, ep.allocated = []) :
    DeviceInv { s with manager := s.manager.registerPlugin resourceName socketPath } := by
  refine h.of_plugins ?_
  intro c hc hne hrecorded
  refine hrecorded.insert ?_
  intro hres ep hep _
  obtain ⟨id,hid⟩ := List.exists_mem_of_ne_nil _ hne
  have hallocated := hrecorded.mem_allocated (hres ▸ hep) hid
  rw [hok ep hep] at hallocated
  cases hallocated

theorem deviceInv_updateDevices (h : DeviceInv s) (resourceName : String) (devices : List Device) :
    DeviceInv { s with manager := s.manager.updateDevices resourceName devices } := by
  unfold DeviceManager.updateDevices
  cases hep : s.manager.plugins.lookup resourceName with
  | none => exact h
  | some ep =>
    refine h.of_plugins ?_
    intro c hc hne hrecorded
    refine hrecorded.insert ?_
    intro _ ep' hep' hids
    rw [hep] at hep'
    obtain rfl := Option.some.inj hep'
    exact hids

theorem deviceInv_allocate (h : DeviceInv s) {podUid : PodUID} {containerName resourceName : String} {count : ℕ}
    (hok : KeepsRecords s (.allocate podUid containerName resourceName count)) :
    DeviceInv (s.allocate podUid containerName resourceName count) := by
  unfold DeviceSystem.allocate DeviceManager.reserve
  cases hep : s.manager.plugins.lookup resourceName with
  | none => exact h
  | some ep =>
    dsimp only
    cases hids : ep.allocateDevices count with
    | none => exact h
    | some ids =>
      dsimp only
      let new : DeviceClaim := ⟨podUid,containerName,resourceName,ids⟩
      have hfree : ep.recordOf new.key = [] := hok ep hep (by rw [hids]; rfl)
      have hperm : (s.pending ++ [new] ++ s.handed).Perm (new :: s.claims) := by
        rw [List.append_assoc]
        exact List.perm_middle
      refine ⟨?_,?_,h.tracked⟩
      · intro c hc hne
        rcases List.mem_cons.mp (hperm.mem_iff.mp hc) with rfl | hc
        · exact ⟨_,AList.lookup_insert _,AList.lookup_insert _⟩
        · refine (h.recorded c hc hne).insert ?_
          intro _ ep' hep' hrecord
          rw [hep] at hep'
          obtain rfl := Option.some.inj hep'
          by_cases hkey : c.key = new.key
          · unfold PluginEndpoint.recordOf at hfree
            rw [← hkey,hrecord] at hfree
            exact (hne hfree).elim
          · exact (AList.lookup_insert_ne hkey).trans hrecord
      · refine (hperm.pairwise_iff apart_symm).mpr (List.pairwise_cons.mpr ⟨?_,h.apart⟩)
        intro c hc hres id hid hmem
        have hlookup : s.manager.plugins.lookup c.resourceName = some ep := by
          rw [← hres]
          exact hep
        have hallocated := (h.recorded c hc (List.ne_nil_of_mem hmem)).mem_allocated hlookup hmem
        exact notMem_allocated hids hid hallocated

theorem recordedIds_record (m : DeviceManager) (c : DeviceClaim) (uid containerName resourceName id : String)
    (h : id ∈ (m.record c.podUid c.containerName c.resourceName c.deviceIds).recordedIds uid containerName resourceName) :
    id ∈ m.recordedIds uid containerName resourceName ∨
      c.podUid.val = uid ∧ c.containerName = containerName ∧ c.resourceName = resourceName ∧ id ∈ c.deviceIds := by
  unfold DeviceManager.recordedIds DeviceManager.record at h
  unfold DeviceManager.recordedIds
  dsimp only at h
  by_cases hu : uid = c.podUid.val
  · subst hu
    rw [AList.lookup_insert,Option.getD_some] at h
    by_cases hn : containerName = c.containerName
    · subst hn
      rw [AList.lookup_insert,Option.getD_some] at h
      by_cases hr : resourceName = c.resourceName
      · subst hr
        rw [AList.lookup_insert,Option.getD_some,List.mem_append] at h
        exact h.imp (fun hid => hid) fun hid => ⟨rfl,rfl,rfl,hid⟩
      · rw [AList.lookup_insert_ne hr] at h
        exact .inl h
    · rw [AList.lookup_insert_ne hn] at h
      exact .inl h
  · rw [AList.lookup_insert_ne hu] at h
    exact .inl h

/-- The claims with a pending one put first. -/
theorem claims_perm {i : ℕ} {c : DeviceClaim} (hi : s.pending[i]? = some c) :
    s.claims.Perm (c :: (s.pending.eraseIdx i ++ s.handed)) := by
  obtain ⟨hlt,rfl⟩ := List.getElem?_eq_some_iff.mp hi
  exact ((List.getElem_cons_eraseIdx_perm hlt).symm.append_right _)

theorem deviceInv_pluginAnswers (h : DeviceInv s) {i : ℕ} {c : DeviceClaim} (hi : s.pending[i]? = some c) :
    DeviceInv
      { manager := s.manager.record c.podUid c.containerName c.resourceName c.deviceIds
        pending := s.pending.eraseIdx i
        handed := c :: s.handed } := by
  have hperm : (s.pending.eraseIdx i ++ c :: s.handed).Perm s.claims :=
    List.perm_middle.trans (claims_perm hi).symm
  refine ⟨?_,(hperm.pairwise_iff apart_symm).mpr h.apart,?_⟩
  · intro d hd hne
    exact h.recorded d (hperm.mem_iff.mp hd) hne
  · intro uid containerName resourceName id hid
    rcases recordedIds_record s.manager c uid containerName resourceName id hid with hold | hnew
    · obtain ⟨d,hd,heq⟩ := h.tracked uid containerName resourceName id hold
      exact ⟨d,List.mem_cons_of_mem _ hd,heq⟩
    · exact ⟨c,List.mem_cons_self,hnew⟩

theorem deviceInv_pluginFails (h : DeviceInv s) {i : ℕ} {c : DeviceClaim} (hi : s.pending[i]? = some c)
    (hok : KeepsRecords s (.pluginFails i)) :
    DeviceInv
      { s with
        manager := s.manager.dropReservation c.podUid c.containerName c.resourceName
        pending := s.pending.eraseIdx i } := by
  have hperm := claims_perm hi
  have hpairwise := (hperm.pairwise_iff apart_symm).mp h.apart
  have hrest : ∀ d ∈ s.pending.eraseIdx i ++ s.handed, d ∈ s.claims :=
    fun d hd => hperm.mem_iff.mpr (List.mem_cons_of_mem _ hd)
  unfold DeviceManager.dropReservation
  cases hep : s.manager.plugins.lookup c.resourceName with
  | none => exact ⟨fun d hd hne => h.recorded d (hrest d hd) hne,(List.pairwise_cons.mp hpairwise).2,h.tracked⟩
  | some ep =>
    refine ⟨?_,(List.pairwise_cons.mp hpairwise).2,h.tracked⟩
    intro d hd hne
    refine (h.recorded d (hrest d hd) hne).insert ?_
    intro hres ep' hep' hrecord
    rw [hep] at hep'
    obtain rfl := Option.some.inj hep'
    by_cases hkey : d.key = c.key
    · -- the record dropped is that of `c`, which shares no ID with `d`
      obtain ⟨id,hid⟩ := List.exists_mem_of_ne_nil _ hne
      have hmem : id ∈ ep.recordOf c.key := by
        unfold PluginEndpoint.recordOf
        rw [← hkey,hrecord]
        exact hid
      have hown := hok c hi ep hep id hmem
      exact absurd hid ((List.pairwise_cons.mp hpairwise).1 d hd hres.symm id hown)
    · exact (AList.lookup_erase_ne hkey).trans hrecord

/-- Releasing what is recorded for one container keeps the records of the other claims. -/
theorem recorded_foldl_resources {c : DeviceClaim} (hne : c.deviceIds ≠ []) (key : String)
    (resources : List (Σ _ : String, List String)) (plugins : HashMap String PluginEndpoint)
    (h : Recorded plugins c)
    (hapart : ∀ r ∈ resources, c.resourceName = r.1 → c.key = key → ∀ id ∈ c.deviceIds, id ∉ r.2) :
    Recorded (resources.foldl (fun plugins r => DeviceManager.releaseIds plugins key r.1 r.2) plugins) c := by
  induction resources generalizing plugins with
  | nil => exact h
  | cons r rest ih =>
    refine ih _ (h.releaseIds (hapart r List.mem_cons_self) hne) ?_
    intro r' hr'
    exact hapart r' (List.mem_cons_of_mem _ hr')

theorem recorded_foldl_containers {c : DeviceClaim} (hne : c.deviceIds ≠ []) (podUid : PodUID)
    (containers : List (Σ _ : String, DeviceIdsByResource)) (plugins : HashMap String PluginEndpoint)
    (h : Recorded plugins c)
    (hapart : ∀ e ∈ containers, ∀ r ∈ e.2.entries, c.resourceName = r.1 → ∀ id ∈ c.deviceIds, id ∉ r.2) :
    Recorded (containers.foldl (fun plugins e => e.2.entries.foldl (fun plugins r =>
      DeviceManager.releaseIds plugins (allocationKey podUid e.1) r.1 r.2) plugins) plugins) c := by
  induction containers generalizing plugins with
  | nil => exact h
  | cons e rest ih =>
    refine ih _ (recorded_foldl_resources hne _ e.2.entries plugins h ?_) ?_
    · intro r hr hres _
      exact hapart e List.mem_cons_self r hr hres
    · intro e' he'
      exact hapart e' (List.mem_cons_of_mem _ he')

theorem recordedIds_deallocatePod (m : DeviceManager) (podUid : PodUID) (uid containerName resourceName id : String)
    (h : id ∈ (m.deallocatePod podUid).recordedIds uid containerName resourceName) :
    uid ≠ podUid.val ∧ id ∈ m.recordedIds uid containerName resourceName := by
  unfold DeviceManager.deallocatePod at h
  cases hcs : m.podAllocations.lookup podUid.val with
  | none =>
    rw [hcs] at h
    refine ⟨?_,h⟩
    rintro rfl
    unfold DeviceManager.recordedIds at h
    dsimp only at h
    rw [hcs] at h
    cases h
  | some containers =>
    rw [hcs] at h
    unfold DeviceManager.recordedIds at h
    dsimp only at h
    by_cases hu : uid = podUid.val
    · subst hu
      rw [AList.lookup_erase] at h
      cases h
    · rw [AList.lookup_erase_ne hu] at h
      exact ⟨hu,h⟩

theorem deviceInv_deallocatePod (h : DeviceInv s) (podUid : PodUID) :
    DeviceInv
      { s with
        manager := s.manager.deallocatePod podUid
        handed := s.handed.filter (fun c => c.podUid ≠ podUid) } := by
  have hkept {c : DeviceClaim} (hc : c ∈ s.pending ++ s.handed.filter (fun c => c.podUid ≠ podUid)) :
      c ∈ s.claims ∧ ∀ d ∈ s.handed, d.podUid = podUid → Apart c d := by
    obtain ⟨-,hhanded,hbetween⟩ := List.pairwise_append.mp h.apart
    rcases List.mem_append.mp hc with hc | hc
    · exact ⟨List.mem_append_left _ hc,fun d hd _ => hbetween c hc d hd⟩
    · obtain ⟨hmem,huid⟩ := List.mem_filter.mp hc
      refine ⟨List.mem_append_right _ hmem,?_⟩
      intro d hd hduid
      refine hhanded.forall hmem hd ?_
      rintro rfl
      simp [hduid] at huid
  refine ⟨?_,?_,?_⟩
  · intro c hc hne
    obtain ⟨hclaim,hapart⟩ := hkept hc
    have hrecorded := h.recorded c hclaim hne
    dsimp only
    unfold DeviceManager.deallocatePod
    cases hcs : s.manager.podAllocations.lookup podUid.val with
    | none => exact hrecorded
    | some containers =>
      refine recorded_foldl_containers hne podUid containers.entries _ hrecorded ?_
      intro e he r hr hres id hid hreleased
      have hids : id ∈ s.manager.recordedIds podUid.val e.1 r.1 := by
        unfold DeviceManager.recordedIds
        rw [hcs,Option.getD_some,AList.mem_lookup_iff.mpr he,Option.getD_some,AList.mem_lookup_iff.mpr hr]
        exact hreleased
      obtain ⟨d,hd,hduid,-,hdres,hdid⟩ := h.tracked _ _ _ id hids
      exact hapart d hd (PodUID.eq_of_val hduid) (hres.trans hdres.symm) id hid hdid
  · exact h.apart.sublist (List.Sublist.append_left (List.filter_sublist) s.pending)
  · intro uid containerName resourceName id hid
    obtain ⟨hne,hold⟩ := recordedIds_deallocatePod s.manager podUid uid containerName resourceName id hid
    obtain ⟨c,hc,huid,heq⟩ := h.tracked uid containerName resourceName id hold
    refine ⟨c,List.mem_filter.mpr ⟨hc,?_⟩,huid,heq⟩
    simp only [ne_eq,decide_not,Bool.not_eq_true',decide_eq_false_iff_not]
    rintro rfl
    exact hne huid.symm

theorem deviceInv_step {t : DeviceSystem} {a : DeviceAction} (h : DeviceInv s) (hok : KeepsRecords s a)
    (hs : s.step a = some t) : DeviceInv t := by
  cases a with
  | registerPlugin resourceName socketPath =>
    obtain rfl := Option.some.inj hs
    exact deviceInv_registerPlugin h socketPath hok
  | updateDevices resourceName devices =>
    obtain rfl := Option.some.inj hs
    exact deviceInv_updateDevices h resourceName devices
  | allocate podUid containerName resourceName count =>
    obtain rfl := Option.some.inj hs
    exact deviceInv_allocate h hok
  | pluginAnswers i =>
    obtain ⟨c,hi,rfl⟩ := Option.map_eq_some_iff.mp hs
    exact deviceInv_pluginAnswers h hi
  | pluginFails i =>
    obtain ⟨c,hi,rfl⟩ := Option.map_eq_some_iff.mp hs
    exact deviceInv_pluginFails h hi hok
  | deallocatePod podUid =>
    obtain rfl := Option.some.inj hs
    exact deviceInv_deallocatePod h podUid

/-- Live containers that were given devices were given devices of their own. -/
theorem DeviceInv.exclusive (h : DeviceInv s) : DevicesExclusive s := by
  intro c hc d hd hres hne
  have hhanded := (List.pairwise_append.mp h.apart).2.1
  refine hhanded.forall hc hd ?_ hres
  rintro rfl
  exact hne rfl

end Steps

/-- In a run whose steps all keep the records no device is handed to two live containers. -/
theorem devices_exclusive {w : List DeviceAction} {s : DeviceSystem}
    (hr : Runs (Guarded KeepsRecords (ofStep DeviceSystem.step)) {} w s) : DevicesExclusive s :=
  (hr.invariant (fun _ _ _ h hs => deviceInv_step h hs.1 hs.2) deviceInv_initial).exclusive

def gpus : List Device := [⟨"gpu-0",.healthy⟩,⟨"gpu-1",.healthy⟩]

/-- Two pods share the devices of a plugin, and one of them goes. -/
def sharedPlugin : List DeviceAction :=
  [.registerPlugin "vendor.io/gpu" "gpu.sock",.updateDevices "vendor.io/gpu" gpus,
   .allocate ⟨"a"⟩ "app" "vendor.io/gpu" 1,.allocate ⟨"b"⟩ "app" "vendor.io/gpu" 1,.pluginAnswers 1,.pluginFails 0,
   .allocate ⟨"c"⟩ "app" "vendor.io/gpu" 1,.pluginAnswers 0]

theorem devices_exclusive_of_shared : ∃ s, s.handed.map (fun c => (c.podUid.val,c.deviceIds)) =
    [("c",["gpu-0"]),("b",["gpu-1"])] ∧ DevicesExclusive s := by
  have hexec : ((exec (guardedStep KeepsRecords DeviceSystem.step) {} sharedPlugin).map
      (fun s => s.handed.map (fun c => (c.podUid.val,c.deviceIds)))) =
      some [("c",["gpu-0"]),("b",["gpu-1"])] := by
    decide +kernel
  obtain ⟨s,hs,heq⟩ := Option.map_eq_some_iff.mp hexec
  exact ⟨s,heq,devices_exclusive (guarded_of_exec hs)⟩

/-- The plugin registers again and its one device is handed out a second time. -/
theorem not_devicesExclusive :
    ∃ s, Runs (ofStep DeviceSystem.step) {}
      [.registerPlugin "vendor.io/gpu" "gpu.sock",.updateDevices "vendor.io/gpu" [⟨"gpu-0",.healthy⟩],
       .allocate ⟨"a"⟩ "app" "vendor.io/gpu" 1,.pluginAnswers 0,
       .registerPlugin "vendor.io/gpu" "gpu.sock",.updateDevices "vendor.io/gpu" [⟨"gpu-0",.healthy⟩],
       .allocate ⟨"b"⟩ "app" "vendor.io/gpu" 1,.pluginAnswers 0] s ∧ ¬ DevicesExclusive s := by
  have hexec : ((exec DeviceSystem.step {}
      [.registerPlugin "vendor.io/gpu" "gpu.sock",.updateDevices "vendor.io/gpu" [⟨"gpu-0",.healthy⟩],
       .allocate ⟨"a"⟩ "app" "vendor.io/gpu" 1,.pluginAnswers 0,
       .registerPlugin "vendor.io/gpu" "gpu.sock",.updateDevices "vendor.io/gpu" [⟨"gpu-0",.healthy⟩],
       .allocate ⟨"b"⟩ "app" "vendor.io/gpu" 1,.pluginAnswers 0]).map (·.handed)) =
      some [⟨⟨"b"⟩,"app","vendor.io/gpu",["gpu-0"]⟩,⟨⟨"a"⟩,"app","vendor.io/gpu",["gpu-0"]⟩] := by
    decide +kernel
  obtain ⟨s,hs,heq⟩ := Option.map_eq_some_iff.mp hexec
  refine ⟨s,runs_of_exec hs,?_⟩
  intro h
  unfold DevicesExclusive at h
  rw [heq] at h
  exact absurd h (by decide)

end KubeAir.Adapters
