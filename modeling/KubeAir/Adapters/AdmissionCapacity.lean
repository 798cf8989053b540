import KubeAir.Accounting.Ledger
import KubeAir.Adapters.Admission
import KubeAir.Transition.Runs

/-! # Admission capacity over whole runs

Pods are admitted and added, and live pods removed again, in any order. As long as the exact
requests of every pod that reaches the resource checks are words, the usage is the exact sum
over the live pods and stays within what the node can allocate.
-/
namespace KubeAir.Adapters.Admission
open Core Accounting Transition

/-- A pod with the overheads that it was added with. -/
structure Placement where
  pod : PodSpec
  overheads : RuntimeOverheads

structure CapacityState where
  usage : ResourceUsage := {}
  live : HashMap PodUID Placement := ∅

inductive CapacityAction
  /-- an admission check, and the addition of the pod if it passes -/
  | place (pod : PodSpec) (overheads : RuntimeOverheads) (known : List String)
  | remove (uid : PodUID)

def CapacityState.step (a : AdmissionController) (s : CapacityState) : CapacityAction → Option CapacityState
  | .place pod overheads known =>
    if (s.live.lookup pod.uid).isSome then none
    else
      match admitWithRuntimeOverhead a pod s.usage overheads known with
      | .admitted =>
        some { usage := s.usage.addPodWithOverhead pod overheads
               live := s.live.insert pod.uid ⟨pod,overheads⟩ }
      | .reject _ => some s
  | .remove uid => (s.live.lookup uid).map fun p =>
    { usage := s.usage.removePodWithOverhead p.pod p.overheads
      live := s.live.erase uid }

/-- What the containers of a pod request, exactly. -/
def exactCpu (pod : PodSpec) : ℕ := exactSum containerCpu (allContainers pod)

def exactMemory (pod : PodSpec) : ℕ := exactSum containerMemory (allContainers pod)

/-- The usage is the exact sum over the live pods and within the allocatable resources, and
every host port of a live pod is recorded to that pod. -/
structure CapacityKept (a : AdmissionController) (s : CapacityState) : Prop where
  cpu : s.usage.cpuMillicores.toNat = total (fun _ p => exactCpu p.pod) s.live
  memory : s.usage.memoryBytes.toNat = total (fun _ p => exactMemory p.pod) s.live
  overheadCpu : s.usage.overheadCpuMillicores.toNat = total (fun _ p => (cpuOverhead p.pod p.overheads).toNat) s.live
  overheadMemory :
    s.usage.overheadMemoryBytes.toNat = total (fun _ p => (memoryOverhead p.pod p.overheads).toNat) s.live
  podCount : s.usage.podCount.toNat = s.live.entries.length
  cpuFits : s.usage.cpuMillicores.toNat + s.usage.overheadCpuMillicores.toNat ≤ a.allocatable.cpuMillicores.toNat
  memoryFits : s.usage.memoryBytes.toNat + s.usage.overheadMemoryBytes.toNat ≤ a.allocatable.memoryBytes.toNat
  podsFit : s.usage.podCount ≤ a.allocatable.maxPods
  ports : ∀ uid p, s.live.lookup uid = some p → ∀ key ∈ podHostPorts p.pod,
    s.usage.hostPorts.lookup key = some uid.val

/-- The additions that the action comes to make are exact. -/
def NoOverflow (a : AdmissionController) (s : CapacityState) : CapacityAction → Prop
  | .place pod overheads known =>
    (rejectMaxPods a s.usage = none →
      exactCpu pod + (cpuOverhead pod overheads).toNat < 2 ^ 64 ∧
      s.usage.cpuMillicores.toNat + s.usage.overheadCpuMillicores.toNat < 2 ^ 64) ∧
    (rejectMaxPods a s.usage = none → rejectCpu a pod s.usage overheads = none →
      exactMemory pod + (memoryOverhead pod overheads).toNat < 2 ^ 64 ∧
      s.usage.memoryBytes.toNat + s.usage.overheadMemoryBytes.toNat < 2 ^ 64) ∧
    (rejection a pod s.usage overheads known = none →
      s.usage.cpuMillicores.toNat + exactCpu pod < 2 ^ 64 ∧
      s.usage.memoryBytes.toNat + exactMemory pod < 2 ^ 64 ∧
      s.usage.overheadCpuMillicores.toNat + (cpuOverhead pod overheads).toNat < 2 ^ 64 ∧
      s.usage.overheadMemoryBytes.toNat + (memoryOverhead pod overheads).toNat < 2 ^ 64 ∧
      s.usage.podCount.toNat + 1 < 2 ^ 32)
  | .remove _ => True

/-- A pod that reaches the CPU check requests a word of CPU with its overhead, and one that
passes it requests a word of memory. -/
def RequestsFit (a : AdmissionController) (s : CapacityState) : CapacityAction → Prop
  | .place pod overheads _ => s.usage.podCount < a.allocatable.maxPods →
      exactCpu pod + (cpuOverhead pod overheads).toNat < 2 ^ 64 ∧
      (s.usage.cpuMillicores.toNat + s.usage.overheadCpuMillicores.toNat +
          (exactCpu pod + (cpuOverhead pod overheads).toNat) ≤ a.allocatable.cpuMillicores.toNat →
        exactMemory pod + (memoryOverhead pod overheads).toNat < 2 ^ 64)
  | .remove _ => True

instance (a : AdmissionController) (s : CapacityState) : ∀ action, Decidable (RequestsFit a s action)
  | .place .. => inferInstanceAs (Decidable (_ → _))
  | .remove _ => instDecidableTrue

/-! ## Adding and removing -/

section Usage
variable (u : ResourceUsage) (uid : String) (ctrs : List ContainerSpec)

theorem foldl_addContainer : ctrs.foldl (ResourceUsage.addContainer uid) u =
    { u with
      cpuMillicores := ctrs.foldl (fun acc c => acc + containerCpu c) u.cpuMillicores
      memoryBytes := ctrs.foldl (fun acc c => acc + containerMemory c) u.memoryBytes
      hostPorts := (ctrs.flatMap containerHostPorts).foldl (fun ports key => ports.insert key uid) u.hostPorts } := by
  induction ctrs generalizing u with
  | nil => rfl
  | cons c ctrs ih =>
    rw [List.foldl_cons,ih,List.flatMap_cons,List.foldl_append]
    rfl

theorem foldl_removeContainer : ctrs.foldl ResourceUsage.removeContainer u =
    { u with
      cpuMillicores := ctrs.foldl (fun acc c => saturatingSub acc (containerCpu c)) u.cpuMillicores
      memoryBytes := ctrs.foldl (fun acc c => saturatingSub acc (containerMemory c)) u.memoryBytes
      hostPorts := (ctrs.flatMap containerHostPorts).foldl (fun ports key => ports.erase key) u.hostPorts } := by
  induction ctrs generalizing u with
  | nil => rfl
  | cons c ctrs ih =>
    rw [List.foldl_cons,ih,List.flatMap_cons,List.foldl_append]
    rfl

theorem lookup_foldl_insert (keys : List HostPortKey) (ports : HashMap HostPortKey String) (key : HostPortKey) :
    (keys.foldl (fun ports key => ports.insert key uid) ports).lookup key =
      if key ∈ keys then some uid else ports.lookup key := by
  induction keys generalizing ports with
  | nil => rfl
  | cons k keys ih =>
    rw [List.foldl_cons,ih]
    by_cases hk : key ∈ keys
    · rw [if_pos hk,if_pos (List.mem_cons_of_mem _ hk)]
    · rw [if_neg hk]
      by_cases hkey : key = k
      · rw [hkey,AList.lookup_insert,if_pos List.mem_cons_self]
      · rw [AList.lookup_insert_ne hkey,if_neg (fun h => (List.mem_cons.mp h).elim hkey hk)]

theorem lookup_foldl_erase (keys : List HostPortKey) (ports : HashMap HostPortKey String) (key : HostPortKey) :
    (keys.foldl (fun ports key => ports.erase key) ports).lookup key =
      if key ∈ keys then none else ports.lookup key := by
  induction keys generalizing ports with
  | nil => rfl
  | cons k keys ih =>
    rw [List.foldl_cons,ih]
    by_cases hk : key ∈ keys
    · rw [if_pos hk,if_pos (List.mem_cons_of_mem _ hk)]
    · rw [if_neg hk]
      by_cases hkey : key = k
      · rw [hkey,AList.lookup_erase,if_pos List.mem_cons_self]
      · rw [AList.lookup_erase_ne hkey,if_neg (fun h => (List.mem_cons.mp h).elim hkey hk)]

end Usage

section Steps
variable {a : AdmissionController} {s t : CapacityState} {pod : PodSpec} {overheads : RuntimeOverheads}
variable {known : List String}

theorem capacityKept_initial (a : AdmissionController) : CapacityKept a {} := by
  refine ⟨rfl,rfl,rfl,rfl,rfl,Nat.zero_le _,Nat.zero_le _,?_,?_⟩
  · exact UInt32.zero_le
  · intro uid p h
    cases h

theorem of_ite_none {P : Prop} [Decidable P] {m : String} (h : (if P then some m else none) = none) : ¬ P := by
  intro hP
  rw [if_pos hP] at h
  cases h

theorem podCount_lt (h : rejectMaxPods a s.usage = none) : s.usage.podCount < a.allocatable.maxPods :=
  UInt32.not_le.mp (of_ite_none h)

theorem toNat_requestedCpu (h : exactCpu pod + (cpuOverhead pod overheads).toNat < 2 ^ 64) :
    (requestedCpu pod overheads).toNat = exactCpu pod + (cpuOverhead pod overheads).toNat := by
  have hpod : (podCpuMillis pod).toNat = 0 + exactCpu pod :=
    toNat_foldl_add (a := 0) (by rw [UInt64.toNat_zero]; unfold exactCpu at h; omega)
  unfold requestedCpu
  rw [toNat_add_of_lt (by omega),hpod]
  omega

theorem toNat_requestedMemory (h : exactMemory pod + (memoryOverhead pod overheads).toNat < 2 ^ 64) :
    (requestedMemory pod overheads).toNat = exactMemory pod + (memoryOverhead pod overheads).toNat := by
  have hpod : (podMemoryBytes pod).toNat = 0 + exactMemory pod :=
    toNat_foldl_add (a := 0) (by rw [UInt64.toNat_zero]; unfold exactMemory at h; omega)
  unfold requestedMemory
  rw [toNat_add_of_lt (by omega),hpod]
  omega

/-- A pod that passes the CPU check finds room for its exact request. -/
theorem cpuFits_of_passes (h : CapacityKept a s) (hfit : exactCpu pod + (cpuOverhead pod overheads).toNat < 2 ^ 64)
    (hpass : rejectCpu a pod s.usage overheads = none) :
    s.usage.cpuMillicores.toNat + s.usage.overheadCpuMillicores.toNat +
      (exactCpu pod + (cpuOverhead pod overheads).toNat) ≤ a.allocatable.cpuMillicores.toNat := by
  have hle := UInt64.le_iff_toNat_le.mp (UInt64.not_lt.mp (of_ite_none hpass))
  have hcpu := h.cpuFits
  have hlt := a.allocatable.cpuMillicores.toNat_lt
  rw [toNat_requestedCpu hfit] at hle
  unfold availableCpu at hle
  rw [toNat_saturatingSub,toNat_add_of_lt (by omega)] at hle
  omega

theorem memoryFits_of_passes (h : CapacityKept a s)
    (hfit : exactMemory pod + (memoryOverhead pod overheads).toNat < 2 ^ 64)
    (hpass : rejectMemory a pod s.usage overheads = none) :
    s.usage.memoryBytes.toNat + s.usage.overheadMemoryBytes.toNat +
      (exactMemory pod + (memoryOverhead pod overheads).toNat) ≤ a.allocatable.memoryBytes.toNat := by
  have hle := UInt64.le_iff_toNat_le.mp (UInt64.not_lt.mp (of_ite_none hpass))
  have hmemory := h.memoryFits
  have hlt := a.allocatable.memoryBytes.toNat_lt
  rw [toNat_requestedMemory hfit] at hle
  unfold availableMemory at hle
  rw [toNat_saturatingSub,toNat_add_of_lt (by omega)] at hle
  omega

/-- What an admission says, with the requests of the pod in exact arithmetic. -/
structure Admitted (a : AdmissionController) (s : CapacityState) (pod : PodSpec) (overheads : RuntimeOverheads) :
    Prop where
  pods : s.usage.podCount < a.allocatable.maxPods
  cpu : s.usage.cpuMillicores.toNat + s.usage.overheadCpuMillicores.toNat +
    (exactCpu pod + (cpuOverhead pod overheads).toNat) ≤ a.allocatable.cpuMillicores.toNat
  memory : s.usage.memoryBytes.toNat + s.usage.overheadMemoryBytes.toNat +
    (exactMemory pod + (memoryOverhead pod overheads).toNat) ≤ a.allocatable.memoryBytes.toNat
  ports : ∀ key ∈ podHostPorts pod, s.usage.hostPorts.lookup key = none

theorem admitted_of_passes (h : CapacityKept a s) (hok : RequestsFit a s (.place pod overheads known))
    (hpass : rejection a pod s.usage overheads known = none) : Admitted a s pod overheads := by
  unfold rejection at hpass
  simp only [Option.or_eq_none_iff] at hpass
  obtain ⟨hpods,hcpu,hmemory,hports,-⟩ := hpass
  obtain ⟨hcpufit,hmemoryfit⟩ := hok (podCount_lt hpods)
  have hroom := cpuFits_of_passes h hcpufit hcpu
  refine ⟨podCount_lt hpods,hroom,memoryFits_of_passes h (hmemoryfit hroom) hmemory,?_⟩
  intro key hkey
  exact Option.map_eq_none_iff.mp (List.findSome?_eq_none_iff.mp hports key hkey)

/-- Conversely the exact request is compared with the exact room. -/
theorem passes_of_cpuFits (h : CapacityKept a s) (hfit : exactCpu pod + (cpuOverhead pod overheads).toNat < 2 ^ 64)
    (hroom : s.usage.cpuMillicores.toNat + s.usage.overheadCpuMillicores.toNat +
      (exactCpu pod + (cpuOverhead pod overheads).toNat) ≤ a.allocatable.cpuMillicores.toNat) :
    rejectCpu a pod s.usage overheads = none := by
  have hcpu := h.cpuFits
  have hlt := a.allocatable.cpuMillicores.toNat_lt
  unfold rejectCpu
  refine if_neg ?_
  rw [UInt64.lt_iff_toNat_lt,toNat_requestedCpu hfit]
  unfold availableCpu
  rw [toNat_saturatingSub,toNat_add_of_lt (by omega)]
  omega

theorem noOverflow_of_requestsFit (h : CapacityKept a s) {action : CapacityAction} (hok : RequestsFit a s action) :
    NoOverflow a s action := by
  cases action with
  | remove uid => trivial
  | place pod overheads known =>
    have hcpu := h.cpuFits
    have hmemory := h.memoryFits
    have hcpulimit := a.allocatable.cpuMillicores.toNat_lt
    have hmemorylimit := a.allocatable.memoryBytes.toNat_lt
    refine ⟨?_,?_,?_⟩
    · intro hpods
      exact ⟨(hok (podCount_lt hpods)).1,by omega⟩
    · intro hpods hpass
      obtain ⟨hcpufit,hmemoryfit⟩ := hok (podCount_lt hpods)
      exact ⟨hmemoryfit (cpuFits_of_passes h hcpufit hpass),by omega⟩
    · intro hpass
      obtain ⟨hpods,hcpu',hmemory',-⟩ := admitted_of_passes h hok hpass
      have hcount := UInt32.lt_iff_toNat_lt.mp hpods
      have hlimit := a.allocatable.maxPods.toNat_lt
      refine ⟨?_,?_,?_,?_,?_⟩ <;> omega

theorem requestsFit_of_noOverflow (h : CapacityKept a s) {action : CapacityAction} (hok : NoOverflow a s action) :
    RequestsFit a s action := by
  cases action with
  | remove uid => trivial
  | place pod overheads known =>
    obtain ⟨hcpu,hmemory,-⟩ := hok
    intro hcount
    have hpods : rejectMaxPods a s.usage = none := if_neg (UInt32.not_le.mpr hcount)
    refine ⟨(hcpu hpods).1,?_⟩
    intro hroom
    exact (hmemory hpods (passes_of_cpuFits h (hcpu hpods).1 hroom)).1

theorem capacityKept_place (h : CapacityKept a s) (hnew : s.live.lookup pod.uid = none)
    (hadmitted : Admitted a s pod overheads) :
    CapacityKept a
      { usage := s.usage.addPodWithOverhead pod overheads
        live := s.live.insert pod.uid ⟨pod,overheads⟩ } := by
  obtain ⟨hpods,hcpu,hmemory,hports⟩ := hadmitted
  have hcpulimit := a.allocatable.cpuMillicores.toNat_lt
  have hmemorylimit := a.allocatable.memoryBytes.toNat_lt
  have hcount := UInt32.lt_iff_toNat_lt.mp hpods
  have hpodlimit := a.allocatable.maxPods.toNat_lt
  have hcpusum : ((allContainers pod).foldl (fun acc c => acc + containerCpu c) s.usage.cpuMillicores).toNat =
      s.usage.cpuMillicores.toNat + exactCpu pod := toNat_foldl_add (by unfold exactCpu at hcpu; omega)
  have hmemorysum : ((allContainers pod).foldl (fun acc c => acc + containerMemory c) s.usage.memoryBytes).toNat =
      s.usage.memoryBytes.toNat + exactMemory pod := toNat_foldl_add (by unfold exactMemory at hmemory; omega)
  have hcpuover : (s.usage.overheadCpuMillicores + cpuOverhead pod overheads).toNat =
      s.usage.overheadCpuMillicores.toNat + (cpuOverhead pod overheads).toNat := toNat_add_of_lt (by omega)
  have hmemoryover : (s.usage.overheadMemoryBytes + memoryOverhead pod overheads).toNat =
      s.usage.overheadMemoryBytes.toNat + (memoryOverhead pod overheads).toNat := toNat_add_of_lt (by omega)
  have hpodsum : (s.usage.podCount + 1).toNat = s.usage.podCount.toNat + 1 := by
    rw [UInt32.toNat_add,UInt32.toNat_one,Nat.mod_eq_of_lt (by omega)]
  unfold ResourceUsage.addPodWithOverhead
  rw [foldl_addContainer]
  refine ⟨?_,?_,?_,?_,?_,?_,?_,?_,?_⟩ <;> dsimp only
  · rw [hcpusum,total_insert hnew,h.cpu,Nat.add_comm]
  · rw [hmemorysum,total_insert hnew,h.memory,Nat.add_comm]
  · rw [hcpuover,total_insert hnew,h.overheadCpu,Nat.add_comm]
  · rw [hmemoryover,total_insert hnew,h.overheadMemory,Nat.add_comm]
  · rw [hpodsum,h.podCount,AList.entries_insert_of_notMem (AList.lookup_eq_none.mp hnew),List.length_cons]
  · rw [hcpusum,hcpuover]
    omega
  · rw [hmemorysum,hmemoryover]
    omega
  · rw [UInt32.le_iff_toNat_le,hpodsum]
    omega
  · intro uid p hp key hkey
    rw [lookup_foldl_insert]
    rcases HashMap.lookup_insert_eq_some.mp hp with ⟨rfl,rfl⟩ | ⟨hne,hp⟩
    · exact if_pos hkey
    · have hold := h.ports uid p hp key hkey
      split
      · next hmem =>
        rw [hports key hmem] at hold
        cases hold
      · exact hold

/-- A host port is recorded to one pod. -/
theorem CapacityKept.ports_disjoint (h : CapacityKept a s) {u v : PodUID} {p q : Placement} (hne : u ≠ v)
    (hp : s.live.lookup u = some p) (hq : s.live.lookup v = some q) {key : HostPortKey}
    (hkey : key ∈ podHostPorts p.pod) : key ∉ podHostPorts q.pod := by
  intro hmem
  have hu := h.ports u p hp key hkey
  have hv := h.ports v q hq key hmem
  rw [hu] at hv
  exact hne (PodUID.eq_of_val (Option.some.inj hv))

/-- `pod_count.saturating_sub(1)`. -/
theorem toNat_podCount_sub (n : UInt32) : (if 1 ≤ n then n - 1 else 0).toNat = n.toNat - 1 := by
  split
  · next hle => rw [UInt32.toNat_sub_of_le _ _ hle,UInt32.toNat_one]
  · next hle =>
    have hzero := UInt32.lt_iff_toNat_lt.mp (UInt32.not_le.mp hle)
    rw [UInt32.toNat_one] at hzero
    rw [UInt32.toNat_zero]
    omega

theorem capacityKept_remove (h : CapacityKept a s) {uid : PodUID} {p : Placement}
    (hlive : s.live.lookup uid = some p) :
    CapacityKept a
      { usage := s.usage.removePodWithOverhead p.pod p.overheads
        live := s.live.erase uid } := by
  have hcpu := total_erase (f := fun _ p => exactCpu p.pod) hlive
  have hmemory := total_erase (f := fun _ p => exactMemory p.pod) hlive
  have hcpuover := total_erase (f := fun _ p => (cpuOverhead p.pod p.overheads).toNat) hlive
  have hmemoryover := total_erase (f := fun _ p => (memoryOverhead p.pod p.overheads).toNat) hlive
  have hcount := total_erase (f := fun _ _ => 1) hlive
  have hpod := h.podCount
  rw [total_one,total_one] at hcount
  rw [← h.cpu] at hcpu
  rw [← h.memory] at hmemory
  rw [← h.overheadCpu] at hcpuover
  rw [← h.overheadMemory] at hmemoryover
  have hcpufits := h.cpuFits
  have hmemoryfits := h.memoryFits
  have hpodsfit := UInt32.le_iff_toNat_le.mp h.podsFit
  have hcpusum := toNat_foldl_sub containerCpu (allContainers p.pod) s.usage.cpuMillicores
  have hmemorysum := toNat_foldl_sub containerMemory (allContainers p.pod) s.usage.memoryBytes
  have hpodsum := toNat_podCount_sub s.usage.podCount
  change _ = _ - exactCpu p.pod at hcpusum
  change _ = _ - exactMemory p.pod at hmemorysum
  unfold ResourceUsage.removePodWithOverhead
  rw [foldl_removeContainer]
  refine ⟨?_,?_,?_,?_,?_,?_,?_,?_,?_⟩ <;> dsimp only
  · rw [hcpusum]
    omega
  · rw [hmemorysum]
    omega
  · rw [toNat_saturatingSub]
    omega
  · rw [toNat_saturatingSub]
    omega
  · rw [hpodsum]
    omega
  · rw [hcpusum,toNat_saturatingSub]
    omega
  · rw [hmemorysum,toNat_saturatingSub]
    omega
  · rw [UInt32.le_iff_toNat_le,hpodsum]
    omega
  · intro u q hq key hkey
    obtain ⟨hne,hq⟩ := HashMap.lookup_erase_eq_some.mp hq
    rw [lookup_foldl_erase]
    exact (if_neg (h.ports_disjoint hne hq hlive hkey)).trans (h.ports u q hq key hkey)

theorem capacityKept_step {action : CapacityAction} (h : CapacityKept a s) (hok : RequestsFit a s action)
    (hs : s.step a action = some t) : CapacityKept a t := by
  cases action with
  | place pod overheads known =>
    unfold CapacityState.step at hs
    dsimp only at hs
    split at hs
    · cases hs
    · next hlive =>
      have hnew : s.live.lookup pod.uid = none := Option.not_isSome_iff_eq_none.mp hlive
      unfold admitWithRuntimeOverhead at hs
      cases hrejection : rejection a pod s.usage overheads known with
      | none =>
        rw [hrejection] at hs
        obtain rfl := Option.some.inj hs
        exact capacityKept_place h hnew (admitted_of_passes h hok hrejection)
      | some message =>
        rw [hrejection] at hs
        obtain rfl := Option.some.inj hs
        exact h
  | remove uid =>
    obtain ⟨p,hlive,rfl⟩ := Option.map_eq_some_iff.mp hs
    exact capacityKept_remove h hlive

end Steps

/-- In a run whose requests are words the usage stays exact and within the allocatable
resources, and an action makes only exact additions precisely when its requests are words. -/
theorem capacity_kept {a : AdmissionController} {actions : List CapacityAction} {s : CapacityState}
    (hr : Runs (Guarded (RequestsFit a) (ofStep (CapacityState.step a))) {} actions s) :
    CapacityKept a s ∧ ∀ action, NoOverflow a s action ↔ RequestsFit a s action := by
  have hkept : CapacityKept a s :=
    hr.invariant (fun _ _ _ h hs => capacityKept_step h hs.1 hs.2) (capacityKept_initial a)
  exact ⟨hkept,fun action => ⟨requestsFit_of_noOverflow hkept,noOverflow_of_requestsFit hkept⟩⟩

/-- A container that requests CPU, memory and a host port. -/
def requesting (cpu memory : ℤ) (hostPort : ℕ) : ContainerSpec where
  name := "app"
  resources := { requests := ((∅ : HashMap String ResourceQuantity).insert "cpu"
    ⟨cpu,.millicores⟩).insert "memory" ⟨memory,.bytes⟩ }
  ports := [{ containerPort := 80, hostPort := some hostPort }]

def requestingPod (name : String) (containers : List ContainerSpec) : PodSpec where
  uid := ⟨name⟩
  podRef := { name := name, ns := "default" }
  containers := containers
  runtimeClassName := some "gvisor"

def smallNode : AdmissionController where
  allocatable := { cpuMillicores := 4000, memoryBytes := 8192, maxPods := 2 }

def gvisorOverhead : RuntimeOverheads :=
  (∅ : RuntimeOverheads).insert "gvisor" ((∅ : HashMap String String).insert "cpu" "250m")

def requestingActions : List CapacityAction :=
  [.place (requestingPod "a" [requesting 1000 4096 8080]) gvisorOverhead ["gvisor"],
   .place (requestingPod "b" [requesting 1000 4096 8080]) gvisorOverhead ["gvisor"],
   .remove ⟨"a"⟩,
   .place (requestingPod "b" [requesting 1000 4096 8080,requesting 1500 1024 8081]) gvisorOverhead ["gvisor"]]

theorem capacity_kept_of_requests : ∃ s : CapacityState,
    s.usage.cpuMillicores = 2500 ∧ s.usage.overheadCpuMillicores = 250 ∧ CapacityKept smallNode s := by
  have hexec : ((exec (guardedStep (RequestsFit smallNode) (CapacityState.step smallNode)) {} requestingActions).map
      (fun s => (s.usage.cpuMillicores,s.usage.overheadCpuMillicores))) = some (2500,250) := by
    decide +kernel
  obtain ⟨s,hs,heq⟩ := Option.map_eq_some_iff.mp hexec
  obtain ⟨hcpu,hoverhead⟩ := Prod.mk.inj heq
  exact ⟨s,hcpu,hoverhead,(capacity_kept (guarded_of_exec hs)).1⟩

/-- The requests of three containers add up to 0 in words, and the pod is admitted. -/
theorem not_capacityKept : ∃ s, Runs (ofStep (CapacityState.step smallNode)) {}
    [.place (requestingPod "a" [requesting (2 ^ 63 - 1) 0 8080,requesting (2 ^ 63 - 1) 0 8081,requesting 2 0 8082])
      gvisorOverhead ["gvisor"]] s ∧ ¬ CapacityKept smallNode s := by
  have hexec : ((exec (CapacityState.step smallNode) {}
      [.place (requestingPod "a" [requesting (2 ^ 63 - 1) 0 8080,requesting (2 ^ 63 - 1) 0 8081,requesting 2 0 8082])
        gvisorOverhead ["gvisor"]]).map
      (fun s => (s.usage.cpuMillicores.toNat,total (fun _ p => exactCpu p.pod) s.live))) = some (0,2 ^ 64) := by
    decide +kernel
  obtain ⟨s,hs,heq⟩ := Option.map_eq_some_iff.mp hexec
  refine ⟨s,runs_of_exec hs,?_⟩
  intro h
  obtain ⟨husage,htotal⟩ := Prod.mk.inj heq
  have hcpu := h.cpu
  rw [husage,htotal] at hcpu
  exact absurd hcpu (by decide)

end KubeAir.Adapters.Admission
