import KubeAir.Adapters.MemoryManager
import KubeAir.Wire.Binary64

/-! # The choice of a NUMA node

A container is to get the least utilized of the nodes that have enough bytes free. The key of the
selection is the utilization cut to an integer, so every node that is not as good as full has the
same, and the first of them is taken.
-/
namespace KubeAir.Adapters
open Core Wire.Binary64

namespace NumaNode

/-- `NumaNode::utilization` in doubles. -/
def utilization (n : NumaNode) : ℚ :=
  if n.totalBytes = 0 then 0
  else toF64 (1 - toF64 (toF64 n.freeBytes.toNat / toF64 n.totalBytes.toNat))

/-- `utilization() as u64`. -/
def utilizationKey (n : NumaNode) : ℕ := ⌊n.utilization⌋₊

/-- The part of the memory that is in use. -/
def usedFraction (n : NumaNode) : ℚ :=
  if n.totalBytes = 0 then 0 else 1 - (n.freeBytes.toNat : ℚ) / n.totalBytes.toNat

end NumaNode

namespace MemoryManager
open NumaNode
variable {m : MemoryManager} {podUid : PodUID} {containerName : String} {qos : QosClass} {request : UInt64} {numaId : ℕ}

/-- The nodes that have enough bytes free. -/
def candidates (m : MemoryManager) (request : UInt64) : List NumaNode :=
  m.numaNodes.filter (fun n => request ≤ n.freeBytes)

/-- The first node that is not as good as full, or else the first. -/
def firstBelowFull (nodes : List NumaNode) : Option NumaNode :=
  (nodes.find? (fun n => n.utilization < 1)).or nodes.head?

/-- The call pins a container that had no assignment to the node. -/
def Pins (m : MemoryManager) (podUid : PodUID) (containerName : String) (qos : QosClass) (request : UInt64)
    (numaId : ℕ) : Prop :=
  m.assignments.lookup (podUid.val,containerName) = none ∧
    ∃ a, (m.assign utilizationKey podUid containerName qos request).2.assignments.lookup (podUid.val,containerName) =
      some a ∧ a.numaNodes = [numaId]

/-- The node has enough bytes free, and none that has is less used. -/
def LeastUtilized (m : MemoryManager) (request : UInt64) (numaId : ℕ) : Prop :=
  ∃ node ∈ m.candidates request, node.id = numaId ∧ ∀ n ∈ m.candidates request, node.usedFraction ≤ n.usedFraction

/-- A new container is pinned to a least utilized node. -/
def PinsLeastUtilized (m : MemoryManager) : MemoryManagerCall → Prop
  | .assign podUid containerName qos request => ∀ numaId, m.Pins podUid containerName qos request numaId →
      m.LeastUtilized request numaId
  | .release .. => True

/-- If the call is for a new guaranteed container, the first node below full is a least utilized one. -/
def FirstIsLeast (m : MemoryManager) : MemoryManagerCall → Prop
  | .assign podUid containerName qos request => m.policy = .static → qos = .guaranteed →
      m.assignments.lookup (podUid.val,containerName) = none →
        ∀ first, firstBelowFull (m.candidates request) = some first → m.LeastUtilized request first.id
  | .release .. => True

theorem pins_iff : m.Pins podUid containerName qos request numaId ↔
    m.policy = .static ∧ qos = .guaranteed ∧ m.assignments.lookup (podUid.val,containerName) = none ∧
      m.bestNumaNode utilizationKey request = some numaId := by
  unfold Pins assign
  by_cases hpolicy : m.policy = .none
  · rw [if_pos hpolicy,hpolicy]
    refine iff_of_false ?_ (fun h => by cases h.1)
    rintro ⟨hkey,a,ha,-⟩
    rw [hkey] at ha
    cases ha
  · have hstatic : m.policy = .static := by
      cases h : m.policy with
      | none => exact absurd h hpolicy
      | static => rfl
    rw [if_neg hpolicy]
    cases hkey : m.assignments.lookup (podUid.val,containerName) with
    | some existing => exact iff_of_false (fun h => by cases h.1) (fun h => by cases h.2.2.1)
    | none =>
      dsimp only
      by_cases hqos : qos = .guaranteed
      · rw [if_neg (not_not_intro hqos)]
        cases hbest : m.bestNumaNode utilizationKey request with
        | none =>
          refine iff_of_false ?_ (fun h => by cases h.2.2.2)
          rintro ⟨-,a,ha,-⟩
          rw [hkey] at ha
          cases ha
        | some best =>
          dsimp only [pin]
          rw [AList.lookup_insert]
          simp [hstatic,hqos,eq_comm]
      · rw [if_pos hqos]
        refine iff_of_false ?_ (fun h => hqos h.2.1)
        rintro ⟨-,a,ha,-⟩
        rw [hkey] at ha
        cases ha

/-! ## The key -/

theorem utilization_le_one (n : NumaNode) : n.utilization ≤ 1 := by
  unfold utilization
  split
  · exact zero_le_one
  · have hfree : (0 : ℚ) ≤ toF64 n.freeBytes.toNat := toF64_nonneg (Nat.cast_nonneg _)
    have htotal : (0 : ℚ) ≤ toF64 n.totalBytes.toNat := toF64_nonneg (Nat.cast_nonneg _)
    exact toF64_le_one (sub_le_self 1 (toF64_nonneg (div_nonneg hfree htotal)))

theorem utilizationKey_eq (n : NumaNode) : n.utilizationKey = if n.utilization < 1 then 0 else 1 := by
  unfold utilizationKey
  split
  · next h => exact Nat.floor_eq_zero.mpr h
  · next h => rw [le_antisymm (utilization_le_one n) (not_lt.mp h),Nat.floor_one]

theorem argmin_utilizationKey (nodes : List NumaNode) : nodes.argmin utilizationKey = firstBelowFull nodes := by
  induction nodes with
  | nil => rfl
  | cons n nodes ih =>
    rw [List.argmin_cons,ih]
    unfold firstBelowFull
    rw [List.find?_cons,List.head?_cons]
    by_cases hn : n.utilization < 1
    · -- nothing has a smaller key than zero
      have hzero : n.utilizationKey = 0 := by rw [utilizationKey_eq,if_pos hn]
      rw [decide_eq_true hn]
      cases (nodes.find? (fun n => n.utilization < 1)).or nodes.head? with
      | none => rfl
      | some c => exact if_neg (by rw [hzero]; exact Nat.not_lt_zero _)
    · have hone : n.utilizationKey = 1 := by rw [utilizationKey_eq,if_neg hn]
      rw [decide_eq_false hn]
      cases hfind : nodes.find? (fun n => n.utilization < 1) with
      | some c =>
        have hc : c.utilizationKey = 0 := by
          rw [utilizationKey_eq,if_pos (by simpa using List.find?_some hfind)]
        exact if_pos (by rw [hc,hone]; exact Nat.zero_lt_one)
      | none =>
        cases nodes with
        | nil => rfl
        | cons c nodes =>
          have hc : c.utilizationKey = 1 := by
            have hfull := List.find?_eq_none.mp hfind c List.mem_cons_self
            rw [utilizationKey_eq,if_neg (by simpa using hfull)]
          exact if_neg (by rw [hc,hone]; exact Nat.lt_irrefl 1)

theorem pinsLeastUtilized_step_iff (m : MemoryManager) (call : MemoryManagerCall) :
    m.PinsLeastUtilized call ↔ m.FirstIsLeast call := by
  cases call with
  | release => exact Iff.rfl
  | assign podUid containerName qos request =>
    have hbest : m.bestNumaNode utilizationKey request = (firstBelowFull (m.candidates request)).map (·.id) := by
      rw [← argmin_utilizationKey]
      rfl
    unfold PinsLeastUtilized FirstIsLeast
    simp only [pins_iff,hbest,Option.map_eq_some_iff]
    constructor
    · exact fun h hpolicy hqos hkey first hfirst => h first.id ⟨hpolicy,hqos,hkey,first,hfirst,rfl⟩
    · rintro h numaId ⟨hpolicy,hqos,hkey,first,hfirst,rfl⟩
      exact h hpolicy hqos hkey first hfirst

/-- In a run every new container is pinned to a least utilized node exactly if at every such call
the first node below full is one. -/
theorem pinsLeastUtilized_iff (nodes : List NumaNode) (calls : List MemoryManagerCall) :
    (∀ pre call rest, calls = pre ++ call :: rest →
      (pre.foldl (step utilizationKey) (new "Static" nodes)).PinsLeastUtilized call) ↔
        ∀ pre call rest, calls = pre ++ call :: rest →
          (pre.foldl (step utilizationKey) (new "Static" nodes)).FirstIsLeast call := by
  simp only [pinsLeastUtilized_step_iff]

/-! ## Two nodes -/

def gibibytes (n : ℕ) : UInt64 := UInt64.ofNat (n * 2 ^ 30)

/-- A node that is half full, and an empty one. -/
def unevenNodes : List NumaNode := [⟨0,gibibytes 16,gibibytes 8⟩,⟨1,gibibytes 16,gibibytes 16⟩]

theorem toNat_gibibytes_eight : (gibibytes 8).toNat = 2 ^ 33 := by decide

theorem toNat_gibibytes_sixteen : (gibibytes 16).toNat = 2 ^ 34 := by decide

theorem gibibytes_sixteen_ne_zero : gibibytes 16 ≠ 0 := by decide

theorem utilization_half : NumaNode.utilization ⟨0,gibibytes 16,gibibytes 8⟩ = 1 / 2 := by
  have hquot : ((2 ^ 33 : ℕ) : ℚ) / (2 ^ 34 : ℕ) = 1 / 2 := by norm_num
  have hrest : (1 : ℚ) - 1 / 2 = 1 / 2 := by norm_num
  unfold utilization
  rw [if_neg gibibytes_sixteen_ne_zero,toNat_gibibytes_eight,toNat_gibibytes_sixteen,toF64_natCast (by norm_num),
    toF64_natCast (by norm_num),hquot,toF64_half,hrest,toF64_half]

/-- The half full node is chosen. -/
theorem half_full_chosen :
    ¬∀ pre call rest, [MemoryManagerCall.assign ⟨"uid-a"⟩ "app" .guaranteed (gibibytes 1)] = pre ++ call :: rest →
      (pre.foldl (step utilizationKey) (new "Static" unevenNodes)).PinsLeastUtilized call := by
  intro h
  have hcandidates : (new "Static" unevenNodes).candidates (gibibytes 1) = unevenNodes := by decide
  have hbest : (new "Static" unevenNodes).bestNumaNode utilizationKey (gibibytes 1) = some 0 := by
    change (List.argmin utilizationKey ((new "Static" unevenNodes).candidates (gibibytes 1))).map (·.id) = some 0
    rw [argmin_utilizationKey,hcandidates,firstBelowFull,unevenNodes,List.find?_cons,
      decide_eq_true (by rw [utilization_half]; norm_num)]
    rfl
  obtain ⟨node,hnode,hid,hleast⟩ := h [] _ [] rfl 0 (pins_iff.mpr ⟨rfl,rfl,rfl,hbest⟩)
  change node ∈ (new "Static" unevenNodes).candidates (gibibytes 1) at hnode
  change ∀ n ∈ (new "Static" unevenNodes).candidates (gibibytes 1), _ at hleast
  rw [hcandidates] at hnode hleast
  rcases List.mem_cons.mp hnode with rfl | hnode
  · have hle := hleast ⟨1,gibibytes 16,gibibytes 16⟩ (List.mem_cons_of_mem _ List.mem_cons_self)
    unfold usedFraction at hle
    rw [if_neg gibibytes_sixteen_ne_zero,if_neg gibibytes_sixteen_ne_zero,toNat_gibibytes_eight,
      toNat_gibibytes_sixteen] at hle
    norm_num at hle
  · obtain rfl := List.mem_singleton.mp hnode
    cases hid

end MemoryManager
end KubeAir.Adapters
