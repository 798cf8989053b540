import KubeAir.Adapters.DeviceExclusivity

/-! # Devices over container restarts

A container that is started again asks for its devices again. Its own earlier grant counts as
taken, the endpoint then forgets it and the records of the pod keep it beside the new one.
-/
namespace KubeAir.Adapters
open Core Transition

/-- What a container asks a device plugin for at each start. -/
structure DeviceRequest where
  podUid : PodUID
  containerName : String
  resourceName : String
  count : ℕ
  pos : 0 < count

inductive RestartAction
  /-- the container is started again and granted these devices -/
  | granted (deviceIds : List String)
  /-- the container is started again and gets an error -/
  | refused
  /-- other containers come and go -/
  | others

namespace DeviceRequest
variable (q : DeviceRequest)

/-- The call, with a plugin that answers it. -/
def allocate (m : DeviceManager) (response : AllocateResponse) :
    Except KubeletError AllocateResponse × DeviceManager :=
  m.allocate (fun _ _ _ => .ok response) q.podUid q.containerName q.resourceName q.count

def key : String := allocationKey q.podUid q.containerName

/-- The devices that the call takes. -/
def grantOf (m : DeviceManager) : Option (List String) :=
  (m.plugins.lookup q.resourceName).bind (·.allocateDevices q.count)

/-- What the endpoint of the plugin records for the container. -/
def endpointRecord (m : DeviceManager) : Option (List String) :=
  (m.plugins.lookup q.resourceName).bind (·.allocations.lookup q.key)

/-- What is recorded for the cleanup of the pod. -/
def tracked (m : DeviceManager) : List String := m.recordedIds q.podUid.val q.containerName q.resourceName

def deviceList (m : DeviceManager) : Option (List Device) := (m.plugins.lookup q.resourceName).map (·.devices)

/-- The healthy devices outside of every recorded allocation. -/
def freeCount (m : DeviceManager) : ℕ := ((m.plugins.lookup q.resourceName).map (·.availableCount)).getD 0

/-- The rest of the system leaves the device list and the records of the container. -/
structure OthersChange (m m' : DeviceManager) : Prop where
  devices : q.deviceList m' = q.deviceList m
  endpoint : q.endpointRecord m' = q.endpointRecord m
  tracked : q.tracked m' = q.tracked m

/-- Restarts of the container; the second component is what it was granted last. -/
inductive Step : DeviceManager × List String → RestartAction → DeviceManager × List String → Prop
  | granted {m m' : DeviceManager} {last ids : List String} (response : AllocateResponse)
      (hcall : q.allocate m response = (.ok response,m')) (hids : q.grantOf m = some ids) :
      Step (m,last) (.granted ids) (m',ids)
  | refused {m m' : DeviceManager} {last : List String} (response : AllocateResponse) {e : KubeletError}
      (hcall : q.allocate m response = (.error e,m')) : Step (m,last) .refused (m',last)
  | others {m m' : DeviceManager} {last : List String} (h : q.OthersChange m m') : Step (m,last) .others (m',last)

/-- Both tables record exactly what was granted last. -/
def Exact (s : DeviceManager × List String) : Prop :=
  q.endpointRecord s.1 = some s.2 ∧ ∀ id, id ∈ q.tracked s.1 ↔ id ∈ s.2

/-- The last grant is recorded in both tables. -/
structure Held (s : DeviceManager × List String) : Prop where
  endpoint : q.endpointRecord s.1 = some s.2
  nonempty : s.2 ≠ []
  tracked : ∀ id ∈ s.2, id ∈ q.tracked s.1

/-- A device is recorded that was not granted last. -/
def Leaks (s : DeviceManager × List String) : Prop := ∃ id ∈ q.tracked s.1, id ∉ s.2

section Lemmas
variable {q} {m m' : DeviceManager} {response : AllocateResponse} {ids last : List String}
variable {s t : DeviceManager × List String} {w : List RestartAction}

theorem length_allocateDevices {ep : PluginEndpoint} {count : ℕ} (h : ep.allocateDevices count = some ids) :
    ids.length = count := by
  unfold PluginEndpoint.allocateDevices at h
  dsimp only at h
  split at h
  · cases h
  · next hlong =>
    obtain rfl := Option.some.inj h
    have hle : ((ep.available.take count).map (·.id)).length ≤ count := by
      rw [List.length_map,List.length_take]
      exact Nat.min_le_left _ _
    omega

theorem isSome_allocateDevices {ep : PluginEndpoint} {count : ℕ} :
    (ep.allocateDevices count).isSome = true ↔ count ≤ ep.availableCount := by
  unfold PluginEndpoint.allocateDevices PluginEndpoint.availableCount
  dsimp only
  rw [List.length_map,List.length_take]
  by_cases hshort : min count ep.available.length < count
  · rw [if_pos hshort]
    refine iff_of_false (by simp) ?_
    omega
  · rw [if_neg hshort]
    refine iff_of_true rfl ?_
    omega

/-- The call is granted exactly when it finds enough free devices. -/
theorem isSome_grantOf : (q.grantOf m).isSome = true ↔ q.count ≤ q.freeCount m := by
  have hpos := q.pos
  unfold grantOf freeCount
  cases m.plugins.lookup q.resourceName with
  | none =>
    refine iff_of_false (by simp) ?_
    show ¬ q.count ≤ 0
    omega
  | some ep => exact isSome_allocateDevices

theorem allocate_granted {ep : PluginEndpoint} (hep : m.plugins.lookup q.resourceName = some ep)
    (hids : ep.allocateDevices q.count = some ids) :
    q.allocate m response = (.ok response,
      (m.reserveIn ep q.key q.resourceName ids).record q.podUid q.containerName q.resourceName ids) := by
  unfold allocate DeviceManager.allocate DeviceManager.reserve
  rw [hep]
  dsimp only
  rw [hids]
  rfl

theorem allocate_refused (h : q.grantOf m = none) (response : AllocateResponse) : ∃ e, q.allocate m response = (.error e,m) := by
  unfold grantOf at h
  unfold allocate DeviceManager.allocate DeviceManager.reserve
  cases hep : m.plugins.lookup q.resourceName with
  | none => exact ⟨_,rfl⟩
  | some ep =>
    rw [hep] at h
    have hids : ep.allocateDevices q.count = none := h
    dsimp only
    rw [hids]
    exact ⟨_,rfl⟩

/-- The call returns Ok exactly when enough healthy devices are outside of every recorded allocation. -/
theorem allocate_ok_iff : (∃ r, (q.allocate m response).1 = .ok r) ↔ q.count ≤ q.freeCount m := by
  rw [← isSome_grantOf]
  cases hgrant : q.grantOf m with
  | none =>
    obtain ⟨e,hcall⟩ := allocate_refused hgrant response
    rw [hcall]
    simp
  | some ids =>
    obtain ⟨ep,hep,hids⟩ := Option.bind_eq_some_iff.mp hgrant
    rw [allocate_granted hep hids]
    simp

theorem tracked_record : q.tracked (m.record q.podUid q.containerName q.resourceName ids) = q.tracked m ++ ids := by
  unfold tracked DeviceManager.recordedIds DeviceManager.record
  dsimp only
  rw [AList.lookup_insert,Option.getD_some,AList.lookup_insert,Option.getD_some,AList.lookup_insert,Option.getD_some]

/-- What a granted call leaves in the two tables. -/
theorem granted_tables (hcall : q.allocate m response = (.ok response,m')) (hids : q.grantOf m = some ids) :
    q.endpointRecord m' = some ids ∧ q.tracked m' = q.tracked m ++ ids ∧ ids ≠ [] ∧
      ∀ last, q.endpointRecord m = some last → ∀ id ∈ last, id ∉ ids := by
  obtain ⟨ep,hep,hids⟩ := Option.bind_eq_some_iff.mp hids
  rw [allocate_granted hep hids] at hcall
  obtain rfl := (Prod.mk.inj hcall).2
  refine ⟨?_,tracked_record,?_,?_⟩
  · unfold endpointRecord
    show (AList.lookup q.resourceName (m.plugins.insert q.resourceName _)).bind _ = _
    rw [AList.lookup_insert]
    exact AList.lookup_insert _
  · rintro rfl
    have hlength := length_allocateDevices hids
    have hpos := q.pos
    rw [List.length_nil] at hlength
    omega
  · intro last hlast id hid hmem
    unfold endpointRecord at hlast
    rw [hep] at hlast
    exact notMem_allocated hids hmem (mem_allocated hlast hid)

theorem refused_same {e : KubeletError} (hcall : q.allocate m response = (.error e,m')) : m' = m := by
  cases hgrant : q.grantOf m with
  | none =>
    obtain ⟨e',hcall'⟩ := allocate_refused hgrant response
    rw [hcall'] at hcall
    exact (Prod.mk.inj hcall).2.symm
  | some ids =>
    obtain ⟨ep,hep,hids⟩ := Option.bind_eq_some_iff.mp hgrant
    rw [allocate_granted hep hids] at hcall
    cases (Prod.mk.inj hcall).1

/-- A grant to a container that holds devices leaves the old ones recorded. -/
theorem leaks_of_granted (hs : q.Held (m,last)) (hcall : q.allocate m response = (.ok response,m'))
    (hids : q.grantOf m = some ids) : q.Leaks (m',ids) := by
  obtain ⟨-,htracked,-,hapart⟩ := granted_tables hcall hids
  obtain ⟨id,hid⟩ := List.exists_mem_of_ne_nil _ hs.nonempty
  refine ⟨id,?_,hapart _ hs.endpoint id hid⟩
  rw [htracked]
  exact List.mem_append_left _ (hs.tracked id hid)

theorem Held.step {a : RestartAction} (hs : q.Held s) (h : q.Step s a t) : q.Held t := by
  cases h with
  | granted response hcall hids =>
    obtain ⟨hendpoint,htracked,hne,-⟩ := granted_tables hcall hids
    refine ⟨hendpoint,hne,?_⟩
    intro id hid
    rw [htracked]
    exact List.mem_append_right _ hid
  | refused response hcall =>
    rw [refused_same hcall]
    exact hs
  | others hothers =>
    refine ⟨hothers.endpoint.trans hs.endpoint,hs.nonempty,?_⟩
    intro id hid
    rw [hothers.tracked]
    exact hs.tracked id hid

theorem Leaks.step {a : RestartAction} (hs : q.Held s) (hleaks : q.Leaks s) (h : q.Step s a t) : q.Leaks t := by
  cases h with
  | granted response hcall hids => exact leaks_of_granted hs hcall hids
  | refused response hcall =>
    rw [refused_same hcall]
    exact hleaks
  | others hothers =>
    obtain ⟨id,hid,hnot⟩ := hleaks
    refine ⟨id,?_,hnot⟩
    rw [hothers.tracked]
    exact hid

/-- From the first grant on, a further grant leaks for good. -/
theorem leaks_of_run (hr : Runs q.Step s w t) (hs : q.Held s) (h : q.Leaks s ∨ ∃ ids, .granted ids ∈ w) :
    q.Leaks t := by
  induction hr with
  | nil s =>
    rcases h with h | ⟨ids,hids⟩
    · exact h
    · cases hids
  | @cons s u t a w hstep hrest ih =>
    refine ih (hs.step hstep) ?_
    rcases h with h | ⟨ids,hids⟩
    · exact .inl (h.step hs hstep)
    · rcases List.mem_cons.mp hids with rfl | hlater
      · cases hstep with
        | granted response hcall hids => exact .inl (leaks_of_granted hs hcall hids)
      · exact .inr ⟨ids,hlater⟩

theorem exact_of_others (hr : Runs q.Step s w t) (hs : q.Exact s) (h : ∀ a ∈ w, a = .others) : q.Exact t := by
  induction hr with
  | nil s => exact hs
  | @cons s u t a w hstep hrest ih =>
    obtain rfl := h a List.mem_cons_self
    refine ih ?_ (fun b hb => h b (List.mem_cons_of_mem _ hb))
    cases hstep with
    | others hothers =>
      refine ⟨hothers.endpoint.trans hs.1,?_⟩
      intro id
      rw [hothers.tracked]
      exact hs.2 id

end Lemmas

/-- A container is granted devices for the first time and lives on among others. The records stay exact and no
restart is refused exactly while it is not restarted at all: a refused restart gets an error, a granted one
leaves the earlier devices recorded. A restart is granted exactly when enough healthy devices are outside of
every recorded allocation, its own among them. -/
theorem entitlement_kept_iff {q : DeviceRequest} {m : DeviceManager} {ids : List String} {w : List RestartAction}
    {t : DeviceManager × List String} (hfresh : q.tracked m = [])
    (hr : Runs q.Step (m,[]) (.granted ids :: w) t) :
    (.refused ∉ w ∧ q.Exact t ↔ ∀ a ∈ w, a = .others) ∧
    ∀ response, (∃ r, (q.allocate t.1 response).1 = .ok r) ↔ q.count ≤ q.freeCount t.1 := by
  refine ⟨?_,fun _ => allocate_ok_iff⟩
  cases hr with
  | cons hfirst hrest =>
    cases hfirst with
    | @granted _ m' _ _ response hcall hids =>
      obtain ⟨hendpoint,htracked,hne,-⟩ := granted_tables hcall hids
      rw [hfresh,List.nil_append] at htracked
      have hheld : q.Held (m',ids) := ⟨hendpoint,hne,fun id hid => htracked ▸ hid⟩
      have hexact : q.Exact (m',ids) := ⟨hendpoint,fun id => by rw [htracked]⟩
      constructor
      · rintro ⟨hrefused,ht⟩ a ha
        cases a with
        | others => rfl
        | refused => exact absurd ha hrefused
        | granted ids' =>
          obtain ⟨id,hid,hnot⟩ := leaks_of_run hrest hheld (.inr ⟨ids',ha⟩)
          exact absurd ((ht.2 id).mp hid) hnot
      · intro hothers
        refine ⟨fun hrefused => ?_,exact_of_others hrest hexact hothers⟩
        cases hothers _ hrefused

end DeviceRequest

def gpuRequest : DeviceRequest where
  podUid := ⟨"a"⟩
  containerName := "app"
  resourceName := "vendor.io/gpu"
  count := 1
  pos := Nat.one_pos

/-- A plugin with these devices. -/
def pluginWith (devices : List Device) : DeviceManager :=
  (({} : DeviceManager).registerPlugin "vendor.io/gpu" "gpu.sock").updateDevices "vendor.io/gpu" devices

/-- The manager after the first start of the container, and after the second. -/
def afterStart (devices : List Device) : DeviceManager := (gpuRequest.allocate (pluginWith devices) {}).2

def afterRestart (devices : List Device) : DeviceManager := (gpuRequest.allocate (afterStart devices) {}).2

/-- The manager once a container of another pod has started beside it. -/
def afterOther (devices : List Device) : DeviceManager :=
  ({ gpuRequest with podUid := ⟨"b"⟩ }.allocate (afterStart devices) {}).2

theorem runs_otherStart : Runs gpuRequest.Step (pluginWith gpus,[]) [.granted ["gpu-0"],.others] (afterOther gpus,["gpu-0"]) :=
  .cons (.granted {} rfl (by decide +kernel))
    (.cons (.others ⟨by decide +kernel,by decide +kernel,by decide +kernel⟩) (.nil _))

/-- The other container gets the last device. -/
theorem entitlement_kept_iff_otherStart :
    (RestartAction.refused ∉ [RestartAction.others] ∧ gpuRequest.Exact (afterOther gpus,["gpu-0"]) ↔
      ∀ a ∈ [RestartAction.others], a = .others) ∧
    ∀ response, (∃ r, (gpuRequest.allocate (afterOther gpus) response).1 = .ok r) ↔
      gpuRequest.count ≤ gpuRequest.freeCount (afterOther gpus) :=
  DeviceRequest.entitlement_kept_iff (q := gpuRequest) (m := pluginWith gpus) rfl runs_otherStart

/-- With one device the restart is refused; with two the first one stays recorded when the second is granted. -/
theorem entitlement_lost :
    Runs gpuRequest.Step (pluginWith [⟨"gpu-0",.healthy⟩],[]) [.granted ["gpu-0"],.refused]
      (afterRestart [⟨"gpu-0",.healthy⟩],["gpu-0"]) ∧
    Runs gpuRequest.Step (pluginWith gpus,[]) [.granted ["gpu-0"],.granted ["gpu-1"]] (afterRestart gpus,["gpu-1"]) ∧
    gpuRequest.tracked (afterRestart gpus) = ["gpu-0","gpu-1"] := by
  refine ⟨?_,?_,by decide +kernel⟩
  · exact .cons (.granted {} rfl (by decide +kernel))
      (.cons (.refused {} rfl) (.nil _))
  · exact .cons (.granted {} rfl (by decide +kernel))
      (.cons (.granted {} rfl (by decide +kernel)) (.nil _))

end KubeAir.Adapters
