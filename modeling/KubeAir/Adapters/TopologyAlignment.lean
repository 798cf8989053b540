import KubeAir.Adapters.TopologyManager
import KubeAir.Wire.Numeral

/-! # Topology alignment

A hint speaks of the first node IDs, as many as there are nodes, or of node 0; the memory
manager hands out the IDs that the nodes have. The two agree exactly where the IDs that a
container is given are small enough.
-/
namespace KubeAir.Adapters
open Core

/-! ## The nodes named in a `memory.mems` string -/

/-- A node ID is one of the entries of the string. -/
def NamesNode (mems : String) (id : ℕ) : Prop := (toString id).toList ∈ mems.toList.splitOn ','

theorem namesNode_intercalate (ids : List ℕ) (id : ℕ) :
    NamesNode (String.intercalate "," (ids.map toString)) id ↔ id ∈ ids := by
  unfold NamesNode
  rw [String.toList_intercalate,List.map_map]
  cases ids with
  | nil => simp
  | cons a ids =>
    have hsplit : List.splitOn ',' (List.intercalate ",".toList ((a :: ids).map (String.toList ∘ toString))) =
        (a :: ids).map (String.toList ∘ toString) := by
      refine List.splitOn_intercalate ',' ?_ (by simp)
      intro l hl
      obtain ⟨b,-,rfl⟩ := List.mem_map.mp hl
      exact Wire.notMem_toString (by decide)
    rw [hsplit,List.mem_map]
    constructor
    · rintro ⟨b,hb,he⟩
      have hbid : b = id := Wire.toString_inj he
      exact hbid ▸ hb
    · intro h
      exact ⟨id,h,rfl⟩

theorem namesNode_toString (a id : ℕ) : NamesNode (toString a) id ↔ id = a := by
  have h := namesNode_intercalate [a] id
  rw [List.mem_singleton] at h
  rw [← h]
  simp

/-! ## Hints -/

namespace TopologyPolicy

/-- How many of the first node IDs a policy admits to. -/
def bound (policy : TopologyPolicy) (nodeCount : ℕ) : ℕ := if policy = .restricted then nodeCount else 1

end TopologyPolicy

/-- The hint that a policy accepts, if it accepts any. -/
theorem admitHints_affinity {m : TopologyManager} (hpolicy : m.policy = .restricted ∨ m.policy = .singleNumaNode)
    {podUid : PodUID} {containerName : String} {n : ℕ} {h : TopologyHint} {m' : TopologyManager}
    (ha : m.admitHints podUid containerName [.noPreference,.withNumaNodes (Finset.range n) true] = (.ok h,m')) :
    h.numaAffinity = some (Finset.range (m.policy.bound n)) ∧ n ≠ 0 ∧ m' = m.record podUid containerName h := by
  have hmerge : TopologyManager.mergeHints [.noPreference,.withNumaNodes (Finset.range n) true] =
      .withNumaNodes (Finset.range n) true := rfl
  unfold TopologyManager.admitHints at ha
  rcases hpolicy with hp | hp
  · simp only [hp,hmerge] at ha
    by_cases he : Finset.range n = ∅
    · simp [TopologyHint.isEmptyAffinity,TopologyHint.withNumaNodes,he] at ha
    · rw [if_neg (by simp [TopologyHint.isEmptyAffinity,TopologyHint.withNumaNodes,he])] at ha
      cases ha
      refine ⟨?_,?_,rfl⟩
      · rw [hp]
        rfl
      · rintro rfl
        exact he rfl
  · simp only [hp,hmerge] at ha
    by_cases hn : n = 0
    · subst hn
      simp [TopologyManager.singleNumaHint,TopologyHint.withNumaNodes] at ha
    · have hne : (Finset.range n).Nonempty := Finset.nonempty_range_iff.mpr hn
      have hmin : (Finset.range n).min' hne = 0 :=
        Nat.le_zero.mp (Finset.min'_le _ 0 (Finset.mem_range.mpr (Nat.pos_of_ne_zero hn)))
      have hsingle : TopologyManager.singleNumaHint (.withNumaNodes (Finset.range n) true) =
          some (.withNumaNodes {0} true) := by
        simp only [TopologyManager.singleNumaHint,TopologyHint.withNumaNodes,Option.bind_some,dif_pos hne,hmin]
      rw [hsingle] at ha
      cases ha
      refine ⟨?_,hn,rfl⟩
      rw [hp]
      rfl

theorem admitHints_error {m m' : TopologyManager} {podUid : PodUID} {containerName : String}
    {hints : List TopologyHint} {e : KubeletError} (h : m.admitHints podUid containerName hints = (.error e,m')) :
    m' = m := by
  unfold TopologyManager.admitHints at h
  cases hp : m.policy with
  | none =>
    rw [hp] at h
    cases h
  | bestEffort =>
    rw [hp] at h
    cases h
  | restricted =>
    simp only [hp] at h
    split at h
    · cases h
      rfl
    · cases h
  | singleNumaNode =>
    simp only [hp] at h
    split at h
    · cases h
    · cases h
      rfl

/-! ## What every call keeps -/

theorem ids_updateNode (id : ℕ) (f : UInt64 → UInt64) (ns : List NumaNode) :
    (MemoryManager.updateNode id f ns).map (·.id) = ns.map (·.id) := by
  induction ns with
  | nil => rfl
  | cons n ns ih =>
    unfold MemoryManager.updateNode
    by_cases h : n.id = id
    · rw [if_pos h]
      rfl
    · rw [if_neg h,List.map_cons,List.map_cons,ih]

/-- The manager has the same policy and nodes of the same IDs. -/
def SameNodes (m n : MemoryManager) : Prop :=
  n.policy = m.policy ∧ n.numaNodes.map (·.id) = m.numaNodes.map (·.id)

theorem sameNodes_assign (utilization : NumaNode → ℕ) (m : MemoryManager) (podUid : PodUID) (containerName : String)
    (qos : QosClass) (request : UInt64) : SameNodes m (m.assign utilization podUid containerName qos request).2 := by
  have hcases := m.assigns utilization podUid containerName qos request
  generalize m.assign utilization podUid containerName qos request = r at hcases
  cases hcases with
  | pinned _ _ _ _ _ => exact ⟨rfl,ids_updateNode _ _ _⟩
  | _ => exact ⟨rfl,rfl⟩

theorem sameNodes_release (m : MemoryManager) (podUid : PodUID) (containerName : String) :
    SameNodes m (m.release podUid containerName) := by
  unfold MemoryManager.release
  cases m.assignments.lookup (podUid.val,containerName) with
  | none => exact ⟨rfl,rfl⟩
  | some a =>
    refine ⟨rfl,?_⟩
    dsimp only
    generalize m.numaNodes = ns
    induction a.numaNodes generalizing ns with
    | nil => rfl
    | cons id ids ih => rw [List.foldl_cons,ih,ids_updateNode]

theorem sameNodes_releaseAll (podUid : PodUID) (containers : List String) (m : MemoryManager) :
    SameNodes m (containers.foldl (fun m containerName => m.release podUid containerName) m) := by
  induction containers generalizing m with
  | nil => exact ⟨rfl,rfl⟩
  | cons c containers ih =>
    have h := sameNodes_release m podUid c
    have h' := ih (m.release podUid c)
    exact ⟨h'.1.trans h.1,h'.2.trans h.2⟩

theorem lookup_foldl_erase {K V : Type} [DecidableEq K] {keys : List K} {m : HashMap K V} {key : K} {v : V}
    (h : (keys.foldl (·.erase ·) m).lookup key = some v) : m.lookup key = some v := by
  induction keys generalizing m with
  | nil => exact h
  | cons k keys ih => exact (HashMap.lookup_erase_eq_some.mp (ih h)).2

/-- The nodes are those of the start, and every accepted hint is for the first of their
number, or for node 0. -/
structure HintsInv (policy : TopologyPolicy) (nodes : List NumaNode) (s : AlignedResourceManager) : Prop where
  kept : s.topology.policy = policy
  ids : s.resources.memory.numaNodes.map (·.id) = nodes.map (·.id)
  accepted : ∀ key h, s.topology.acceptedHints.lookup key = some h →
    h.numaAffinity = some (Finset.range (policy.bound nodes.length)) ∧ nodes ≠ []

section Runs
variable {policy : TopologyPolicy} {nodes : List NumaNode} {s : AlignedResourceManager}

theorem HintsInv.length (h : HintsInv policy nodes s) : s.resources.memory.numaNodes.length = nodes.length := by
  have := congrArg List.length h.ids
  rwa [List.length_map,List.length_map] at this

theorem hintsInv_admitContainer (hpolicy : policy = .restricted ∨ policy = .singleNumaNode) (h : HintsInv policy nodes s)
    (podUid : PodUID) (container : ContainerSpec) : HintsInv policy nodes (s.admitContainer podUid container).2 := by
  unfold AlignedResourceManager.admitContainer
  cases ha : s.topology.admitHints podUid container.name s.hints with
  | mk r m' =>
    cases r with
    | error e =>
      obtain rfl := admitHints_error ha
      exact h
    | ok hint =>
      have hp := hpolicy
      rw [← h.kept] at hp
      obtain ⟨haff,hn,rfl⟩ := admitHints_affinity hp ha
      refine ⟨h.kept,h.ids,?_⟩
      intro key g hk
      rcases HashMap.lookup_insert_eq_some.mp hk with ⟨-,rfl⟩ | ⟨-,hk⟩
      · rw [h.length] at haff hn
        rw [haff,h.kept]
        refine ⟨rfl,?_⟩
        rintro rfl
        exact hn rfl
      · exact h.accepted key g hk

theorem allocateAll_mems {rpc : PluginRpc} {podUid : PodUID} {containerName : String} {m : DeviceManager}
    {acc r : ContainerResources} {ds : List (String × ℕ)}
    (h : (m.allocateAll rpc podUid containerName acc ds).1 = .ok r) : r.cpusetMems = acc.cpusetMems := by
  induction ds generalizing m acc with
  | nil =>
    cases h
    rfl
  | cons d ds ih =>
    unfold DeviceManager.allocateAll at h
    cases ha : m.allocate rpc podUid containerName d.1 d.2 with
    | mk r' m' =>
      rw [ha] at h
      cases r' with
      | error e => cases h
      | ok response =>
        have hr := ih h
        exact hr

/-- What `allocate` does to the memory manager, and the nodes that it answers. -/
theorem allocate_memory (utilization : NumaNode → ℕ) (rpc : PluginRpc) (s : ResourceManager) (pod : PodSpec)
    (container : ContainerSpec) :
    SameNodes s.memory (s.allocate utilization rpc pod container).2.memory ∧
      ∀ r, (s.allocate utilization rpc pod container).1 = .ok r →
        (s.memory.assign utilization pod.uid container.name (computeQosClass pod)
          (ResourceManager.memRequest container)).1 = .ok r.cpusetMems := by
  have hsame := sameNodes_assign utilization s.memory pod.uid container.name (computeQosClass pod)
    (ResourceManager.memRequest container)
  unfold ResourceManager.allocate
  dsimp only
  cases s.cpu.assign pod.uid container.name (computeQosClass pod) (ResourceManager.cpuRequest container) with
  | mk r cpu =>
    cases r with
    | error e => exact ⟨⟨rfl,rfl⟩,fun r h => nomatch h⟩
    | ok cpuset =>
      dsimp only
      generalize s.memory.assign utilization pod.uid container.name (computeQosClass pod)
        (ResourceManager.memRequest container) = out at hsame ⊢
      obtain ⟨r,memory⟩ := out
      cases r with
      | error e => exact ⟨hsame,fun r h => nomatch h⟩
      | ok mems =>
        refine ⟨hsame,?_⟩
        intro r h
        rw [allocateAll_mems h]

theorem hintsInv_step (hpolicy : policy = .restricted ∨ policy = .singleNumaNode) (utilization : NumaNode → ℕ)
    (h : HintsInv policy nodes s) (call : ResourceCall) : HintsInv policy nodes (s.step utilization call) := by
  cases call with
  | admitContainer podUid container => exact hintsInv_admitContainer hpolicy h podUid container
  | allocate rpc pod container =>
    have hm := (allocate_memory utilization rpc s.resources pod container).1
    exact ⟨h.kept,hm.2.trans h.ids,h.accepted⟩
  | releasePod podUid containers =>
    refine ⟨h.kept,(sameNodes_releaseAll podUid containers s.resources.memory).2.trans h.ids,?_⟩
    intro key g hk
    exact h.accepted key g (lookup_foldl_erase hk)
  | devices m => exact ⟨h.kept,h.ids,h.accepted⟩

theorem hintsInv_foldl (hpolicy : policy = .restricted ∨ policy = .singleNumaNode) (utilization : NumaNode → ℕ)
    (h : HintsInv policy nodes s) (calls : List ResourceCall) :
    HintsInv policy nodes (calls.foldl (AlignedResourceManager.step utilization) s) := by
  induction calls generalizing s with
  | nil => exact h
  | cons call calls ih => exact ih (hintsInv_step hpolicy utilization h call)

end Runs

/-! ## The nodes a container is given -/

/-- The nodes that the memory of a container comes from: all of them where nothing pins it,
those it is pinned to, or the first least utilized one with enough bytes free. -/
inductive GivesNode (utilization : NumaNode → ℕ) (m : MemoryManager) (podUid : PodUID) (containerName : String)
    (qos : QosClass) (request : UInt64) : ℕ → Prop
  | unmanaged {n : NumaNode} (hpolicy : m.policy = .none) (hn : n ∈ m.numaNodes) :
      GivesNode utilization m podUid containerName qos request n.id
  | unpinned {n : NumaNode} (hpolicy : m.policy = .static)
      (hkey : m.assignments.lookup (podUid.val,containerName) = none) (hqos : qos ≠ .guaranteed)
      (hn : n ∈ m.numaNodes) : GivesNode utilization m podUid containerName qos request n.id
  | pinned {a : MemoryAssignment} {id : ℕ} (hpolicy : m.policy = .static)
      (hkey : m.assignments.lookup (podUid.val,containerName) = some a) (hid : id ∈ a.numaNodes) :
      GivesNode utilization m podUid containerName qos request id
  | chosen {n : NumaNode} (hpolicy : m.policy = .static)
      (hkey : m.assignments.lookup (podUid.val,containerName) = none) (hqos : qos = .guaranteed)
      (hn : (m.numaNodes.filter (fun n => request ≤ n.freeBytes)).argmin utilization = some n) :
      GivesNode utilization m podUid containerName qos request n.id

theorem namesNode_all {m : MemoryManager} (hne : m.numaNodes ≠ []) (id : ℕ) :
    NamesNode m.allNumaNodesString id ↔ ∃ n ∈ m.numaNodes, n.id = id := by
  unfold MemoryManager.allNumaNodesString
  rw [if_neg (by simpa using hne)]
  have h := namesNode_intercalate (m.numaNodes.map (·.id)) id
  rw [List.map_map] at h
  exact h.trans List.mem_map

section Given
variable {utilization : NumaNode → ℕ} {m : MemoryManager} {podUid : PodUID} {containerName : String} {qos : QosClass}
  {request : UInt64}

theorem givesNode_unmanaged_iff (hpolicy : m.policy = .none) (id : ℕ) :
    GivesNode utilization m podUid containerName qos request id ↔ ∃ n ∈ m.numaNodes, n.id = id := by
  constructor
  · intro h
    cases h with
    | unmanaged _ hn => exact ⟨_,hn,rfl⟩
    | unpinned hp => rw [hpolicy] at hp; cases hp
    | pinned hp => rw [hpolicy] at hp; cases hp
    | chosen hp => rw [hpolicy] at hp; cases hp
  · rintro ⟨n,hn,rfl⟩
    exact .unmanaged hpolicy hn

theorem givesNode_pinned_iff {a : MemoryAssignment} (hpolicy : m.policy = .static)
    (hkey : m.assignments.lookup (podUid.val,containerName) = some a) (id : ℕ) :
    GivesNode utilization m podUid containerName qos request id ↔ id ∈ a.numaNodes := by
  constructor
  · intro h
    cases h with
    | unmanaged hp => rw [hpolicy] at hp; cases hp
    | unpinned _ hk => rw [hkey] at hk; cases hk
    | pinned _ hk hid =>
      rw [hkey] at hk
      cases hk
      exact hid
    | chosen _ hk => rw [hkey] at hk; cases hk
  · exact .pinned hpolicy hkey

theorem givesNode_unpinned_iff (hpolicy : m.policy = .static)
    (hkey : m.assignments.lookup (podUid.val,containerName) = none) (hqos : qos ≠ .guaranteed) (id : ℕ) :
    GivesNode utilization m podUid containerName qos request id ↔ ∃ n ∈ m.numaNodes, n.id = id := by
  constructor
  · intro h
    cases h with
    | unmanaged hp => rw [hpolicy] at hp; cases hp
    | unpinned _ _ _ hn => exact ⟨_,hn,rfl⟩
    | pinned _ hk => rw [hkey] at hk; cases hk
    | chosen _ _ hq => exact absurd hq hqos
  · rintro ⟨n,hn,rfl⟩
    exact .unpinned hpolicy hkey hqos hn

theorem givesNode_chosen_iff {n : NumaNode} (hpolicy : m.policy = .static)
    (hkey : m.assignments.lookup (podUid.val,containerName) = none) (hqos : qos = .guaranteed)
    (hbest : (m.numaNodes.filter (fun n => request ≤ n.freeBytes)).argmin utilization = some n) (id : ℕ) :
    GivesNode utilization m podUid containerName qos request id ↔ id = n.id := by
  constructor
  · intro h
    cases h with
    | unmanaged hp => rw [hpolicy] at hp; cases hp
    | unpinned _ _ hq => exact absurd hqos hq
    | pinned _ hk => rw [hkey] at hk; cases hk
    | chosen _ _ _ hn =>
      rw [hbest] at hn
      cases hn
      rfl
  · rintro rfl
    exact .chosen hpolicy hkey hqos hbest

/-- The string of the memory manager names exactly these nodes. -/
theorem namesNode_assign (hne : m.numaNodes ≠ []) {mems : String}
    (h : (m.assign utilization podUid containerName qos request).1 = .ok mems) (id : ℕ) :
    NamesNode mems id ↔ GivesNode utilization m podUid containerName qos request id := by
  unfold MemoryManager.assign at h
  cases hpolicy : m.policy with
  | none =>
    rw [if_pos hpolicy] at h
    cases h
    rw [namesNode_all hne,givesNode_unmanaged_iff hpolicy]
  | static =>
    rw [if_neg (by rw [hpolicy]; exact nofun)] at h
    cases hkey : m.assignments.lookup (podUid.val,containerName) with
    | some a =>
      rw [hkey] at h
      cases h
      rw [namesNode_intercalate,givesNode_pinned_iff hpolicy hkey]
    | none =>
      rw [hkey] at h
      dsimp only at h
      by_cases hqos : qos = .guaranteed
      · rw [if_neg (not_not_intro hqos)] at h
        unfold MemoryManager.bestNumaNode at h
        cases hbest : (m.numaNodes.filter (fun n => request ≤ n.freeBytes)).argmin utilization with
        | none =>
          rw [hbest] at h
          cases h
        | some n =>
          rw [hbest] at h
          cases h
          rw [namesNode_toString,givesNode_chosen_iff hpolicy hkey hqos hbest]
      · rw [if_pos hqos] at h
        cases h
        rw [namesNode_all hne,givesNode_unpinned_iff hpolicy hkey hqos]

end Given

/-! ## Accepted hints are honoured -/

/-- The managers at the start. -/
def AlignedResourceManager.initial (cpu : CpuManager) (memoryPolicy : String) (nodes : List NumaNode)
    (topologyPolicy : String) (devices : DeviceManager) : AlignedResourceManager where
  resources := ⟨cpu,.new memoryPolicy nodes,devices⟩
  topology := .new topologyPolicy

theorem hintsInv_initial (cpu : CpuManager) (memoryPolicy : String) (nodes : List NumaNode) (topologyPolicy : String)
    (devices : DeviceManager) :
    HintsInv (.parse topologyPolicy) nodes (.initial cpu memoryPolicy nodes topologyPolicy devices) :=
  ⟨rfl,rfl,fun _ _ h => nomatch h⟩

/-- After any calls, the nodes that an allocation answers are all in the accepted hint of the
container exactly if the IDs of the nodes that it is given are small enough: below the number
of nodes for the restricted policy, and 0 for the policy of a single node. -/
theorem hint_honoured_iff (utilization : NumaNode → ℕ) (cpu : CpuManager) (memoryPolicy : String)
    (nodes : List NumaNode) {topologyPolicy : String} (devices : DeviceManager)
    (hpolicy : topologyPolicy = "restricted" ∨ topologyPolicy = "single-numa-node") (calls : List ResourceCall)
    {s : AlignedResourceManager}
    (hs : s = calls.foldl (AlignedResourceManager.step utilization)
      (.initial cpu memoryPolicy nodes topologyPolicy devices))
    {rpc : PluginRpc} {pod : PodSpec} {container : ContainerSpec} {hint : TopologyHint} {r : ContainerResources}
    (hhint : s.topology.getHint pod.uid container.name = some hint)
    (hr : (s.allocate utilization rpc pod container).1 = .ok r) :
    (∀ id, NamesNode r.cpusetMems id → ∃ affinity, hint.numaAffinity = some affinity ∧ id ∈ affinity) ↔
      ∀ id, GivesNode utilization s.resources.memory pod.uid container.name (computeQosClass pod)
        (ResourceManager.memRequest container) id →
          if topologyPolicy = "restricted" then id < nodes.length else id = 0 := by
  have hparse : TopologyPolicy.parse topologyPolicy = .restricted ∨ TopologyPolicy.parse topologyPolicy = .singleNumaNode := by
    rcases hpolicy with rfl | rfl
    · exact .inl rfl
    · exact .inr rfl
  have hinv := hintsInv_foldl hparse utilization (hintsInv_initial cpu memoryPolicy nodes topologyPolicy devices) calls
  rw [← hs] at hinv
  obtain ⟨haff,hne⟩ := hinv.accepted _ _ hhint
  have hnodes : s.resources.memory.numaNodes ≠ [] := by
    intro he
    have hl := hinv.length
    rw [he,List.length_nil] at hl
    exact hne (List.length_eq_zero_iff.mp hl.symm)
  have hmems := (allocate_memory utilization rpc s.resources pod container).2 r hr
  have hbound : ∀ id, (∃ affinity, hint.numaAffinity = some affinity ∧ id ∈ affinity) ↔
      if topologyPolicy = "restricted" then id < nodes.length else id = 0 := by
    intro id
    rw [haff]
    rcases hpolicy with rfl | rfl
    · simp [TopologyPolicy.parse,TopologyPolicy.bound]
    · simp [TopologyPolicy.parse,TopologyPolicy.bound]
  constructor
  · intro h id hg
    exact (hbound id).mp (h id ((namesNode_assign hnodes hmems id).mpr hg))
  · intro h id hn
    exact (hbound id).mpr (h id ((namesNode_assign hnodes hmems id).mp hn))

/-- Two nodes whose IDs are not contiguous. -/
def sparseNodes : List NumaNode := [⟨0,64,64⟩,⟨2,64,64⟩]

def denseNodes : List NumaNode := [⟨0,64,64⟩,⟨1,64,64⟩]

def burstContainer : ContainerSpec := { name := "app" }

def burstPod : PodSpec := { uid := ⟨"uid-1"⟩, podRef := ⟨"default","web"⟩, containers := [burstContainer] }

def noPlugins : PluginRpc := fun _ _ _ => .error (.resource "no plugin")

/-- The managers of a host with the given nodes after one container was admitted. -/
def admittedOn (nodes : List NumaNode) : AlignedResourceManager :=
  [ResourceCall.admitContainer burstPod.uid burstContainer].foldl (AlignedResourceManager.step (fun _ => 0))
    (.initial (.new "none" ∅ ∅) "None" nodes "restricted" {})

def allNodesHint (n : ℕ) : TopologyHint := ⟨some (Finset.range n),true⟩

/-- What the container is given on the nodes with these IDs. -/
def given (mems : String) : ContainerResources := { cpusetCpus := CpuSet.toCpusetString ∅, cpusetMems := mems }

theorem allocate_dense :
    ((admittedOn denseNodes).allocate (fun _ => 0) noPlugins burstPod burstContainer).1 = .ok (given "0,1") := rfl

theorem getHint_dense : (admittedOn denseNodes).topology.getHint burstPod.uid burstContainer.name = some (allNodesHint 2) := rfl

theorem hint_honoured_iff_dense :
    (∀ id, NamesNode "0,1" id → ∃ affinity, (allNodesHint 2).numaAffinity = some affinity ∧ id ∈ affinity) ↔
      ∀ id, GivesNode (fun _ => 0) (admittedOn denseNodes).resources.memory burstPod.uid burstContainer.name
        (computeQosClass burstPod) (ResourceManager.memRequest burstContainer) id →
          if "restricted" = "restricted" then id < denseNodes.length else id = 0 :=
  hint_honoured_iff (fun _ => 0) (.new "none" ∅ ∅) "None" denseNodes {} (.inl rfl)
    [.admitContainer burstPod.uid burstContainer] rfl getHint_dense allocate_dense

theorem allocate_sparse :
    ((admittedOn sparseNodes).allocate (fun _ => 0) noPlugins burstPod burstContainer).1 = .ok (given "0,2") := rfl

theorem getHint_sparse :
    (admittedOn sparseNodes).topology.getHint burstPod.uid burstContainer.name = some (allNodesHint 2) := rfl

/-- Admitted for nodes 0 and 1, the container is given nodes 0 and 2. -/
theorem hint_not_honoured :
    ¬ ∀ (utilization : NumaNode → ℕ) (cpu : CpuManager) (memoryPolicy : String) (nodes : List NumaNode)
      (topologyPolicy : String) (devices : DeviceManager) (calls : List ResourceCall) (s : AlignedResourceManager)
      (rpc : PluginRpc) (pod : PodSpec) (container : ContainerSpec) (hint : TopologyHint) (r : ContainerResources),
      topologyPolicy = "restricted" ∨ topologyPolicy = "single-numa-node" →
      s = calls.foldl (AlignedResourceManager.step utilization)
        (.initial cpu memoryPolicy nodes topologyPolicy devices) →
      s.topology.getHint pod.uid container.name = some hint →
      (s.allocate utilization rpc pod container).1 = .ok r →
      ∀ id, NamesNode r.cpusetMems id → ∃ affinity, hint.numaAffinity = some affinity ∧ id ∈ affinity := by
  intro h
  have hnamed : NamesNode (given "0,2").cpusetMems 2 := by
    unfold NamesNode given
    decide +kernel
  obtain ⟨affinity,haff,hmem⟩ := h (fun _ => 0) (.new "none" ∅ ∅) "None" sparseNodes "restricted" {}
    [.admitContainer burstPod.uid burstContainer] (admittedOn sparseNodes) noPlugins burstPod burstContainer
    (allNodesHint 2) (given "0,2") (.inl rfl) rfl getHint_sparse allocate_sparse 2 hnamed
  obtain rfl : Finset.range 2 = affinity := Option.some.inj haff
  exact absurd hmem (by decide)

end KubeAir.Adapters
