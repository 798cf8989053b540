import KubeAir.Accounting.Ledger
import KubeAir.Accounting.Word
import KubeAir.Core.Qos
import Mathlib.Data.List.MinMax

/-! # Memory manager

Guaranteed containers are pinned to one NUMA node, whose free bytes they take along. In
every state that calls lead to, what a node has free and what is pinned to it add up to
what it had at the start.
-/
namespace KubeAir.Adapters
open Core Accounting

structure NumaNode where
  id : ℕ
  totalBytes : UInt64
  freeBytes : UInt64
deriving DecidableEq, Repr

structure MemoryAssignment where
  podUid : PodUID
  containerName : String
  /-- the NUMA nodes that the memory of the container is pinned to -/
  numaNodes : List ℕ
  bytes : UInt64

inductive MemoryManagerPolicy
  | none
  | static
deriving DecidableEq, Repr

def MemoryManagerPolicy.parse (s : String) : MemoryManagerPolicy := if s = "Static" then .static else .none

structure MemoryManager where
  policy : MemoryManagerPolicy
  numaNodes : List NumaNode
  assignments : HashMap (String × String) MemoryAssignment := ∅

namespace MemoryManager

/-- `MemoryManager::new` on a host with the given nodes. -/
def new (policy : String) (numaNodes : List NumaNode) : MemoryManager where
  policy := .parse policy
  numaNodes := numaNodes

/-- Changing the first node with an ID, if there is one. -/
def updateNode (id : ℕ) (f : UInt64 → UInt64) : List NumaNode → List NumaNode
  | [] => []
  | n :: rest => if n.id = id then { n with freeBytes := f n.freeBytes } :: rest else n :: updateNode id f rest

def allNumaNodesString (m : MemoryManager) : String :=
  if m.numaNodes.isEmpty then "0" else String.intercalate "," (m.numaNodes.map (fun n => toString n.id))

section Assign
-- `n.utilization() as u64`, where `utilization` computes with floats
variable (utilization : NumaNode → ℕ)

/-- The least utilized node that has enough bytes free. -/
def bestNumaNode (m : MemoryManager) (bytesNeeded : UInt64) : Option ℕ :=
  ((m.numaNodes.filter (fun n => bytesNeeded ≤ n.freeBytes)).argmin utilization).map (·.id)

def noNumaNode (bytes : UInt64) (podUid : PodUID) (containerName : String) : KubeletError :=
  .resource ("no NUMA node with " ++ toString bytes ++ " bytes free for pod " ++ podUid.val ++ "/" ++ containerName)

/-- Pinning the memory of a container to a node. -/
def pin (m : MemoryManager) (podUid : PodUID) (containerName : String) (numaId : ℕ) (bytes : UInt64) :
    MemoryManager :=
  { m with
    numaNodes := updateNode numaId (saturatingSub · bytes) m.numaNodes
    assignments := m.assignments.insert (podUid.val,containerName) ⟨podUid,containerName,[numaId],bytes⟩ }

/-- Assign NUMA memory for a container; the answer is its `memory.mems` string. -/
def assign (m : MemoryManager) (podUid : PodUID) (containerName : String) (qos : QosClass)
    (memoryRequestBytes : UInt64) : Except KubeletError String × MemoryManager :=
  if m.policy = .none then (.ok m.allNumaNodesString,m)
  else
    match m.assignments.lookup (podUid.val,containerName) with
    | some existing => (.ok (String.intercalate "," (existing.numaNodes.map toString)),m)
    | none =>
      if qos ≠ .guaranteed then (.ok m.allNumaNodesString,m)
      else
        match m.bestNumaNode utilization memoryRequestBytes with
        | none => (.error (noNumaNode memoryRequestBytes podUid containerName),m)
        | some numaId => (.ok (toString numaId),m.pin podUid containerName numaId memoryRequestBytes)

def release (m : MemoryManager) (podUid : PodUID) (containerName : String) : MemoryManager :=
  match m.assignments.lookup (podUid.val,containerName) with
  | some assignment =>
    { m with
      numaNodes := assignment.numaNodes.foldl
        (fun nodes numaId => updateNode numaId (· + assignment.bytes) nodes) m.numaNodes
      assignments := m.assignments.erase (podUid.val,containerName) }
  | none => m

end Assign
end MemoryManager

inductive MemoryManagerCall
  | assign (podUid : PodUID) (containerName : String) (qos : QosClass) (memoryRequestBytes : UInt64)
  | release (podUid : PodUID) (containerName : String)

namespace MemoryManager
variable (utilization : NumaNode → ℕ)

def step (m : MemoryManager) : MemoryManagerCall → MemoryManager
  | .assign podUid containerName qos request => (m.assign utilization podUid containerName qos request).2
  | .release podUid containerName => m.release podUid containerName

/-- The outcomes of `assign`. -/
inductive Assigns (m : MemoryManager) (podUid : PodUID) (containerName : String) (qos : QosClass) (request : UInt64) :
    Except KubeletError String × MemoryManager → Prop
  | unmanaged (hpolicy : m.policy = .none) : Assigns m podUid containerName qos request (.ok m.allNumaNodesString,m)
  | repeated {a : MemoryAssignment} (hpolicy : m.policy = .static)
      (hkey : m.assignments.lookup (podUid.val,containerName) = some a) :
      Assigns m podUid containerName qos request (.ok (String.intercalate "," (a.numaNodes.map toString)),m)
  | unpinned (hpolicy : m.policy = .static) (hkey : m.assignments.lookup (podUid.val,containerName) = none)
      (hqos : qos ≠ .guaranteed) : Assigns m podUid containerName qos request (.ok m.allNumaNodesString,m)
  | refused (hpolicy : m.policy = .static) (hkey : m.assignments.lookup (podUid.val,containerName) = none)
      (hqos : qos = .guaranteed) (hfull : ∀ n ∈ m.numaNodes, ¬ request ≤ n.freeBytes) :
      Assigns m podUid containerName qos request (.error (noNumaNode request podUid containerName),m)
  | pinned {node : NumaNode} (hpolicy : m.policy = .static)
      (hkey : m.assignments.lookup (podUid.val,containerName) = none) (hqos : qos = .guaranteed)
      (hnode : node ∈ m.numaNodes) (hfree : request ≤ node.freeBytes) :
      Assigns m podUid containerName qos request (.ok (toString node.id),m.pin podUid containerName node.id request)

variable {utilization} in
/-- The selection only picks nodes with enough bytes free. -/
theorem bestNumaNode_eq_some {m : MemoryManager} {bytes : UInt64} {id : ℕ}
    (h : m.bestNumaNode utilization bytes = some id) :
    ∃ node ∈ m.numaNodes, node.id = id ∧ bytes ≤ node.freeBytes := by
  obtain ⟨node,hnode,hid⟩ := Option.map_eq_some_iff.mp h
  obtain ⟨hmem,hfree⟩ := List.mem_filter.mp (List.argmin_mem hnode)
  exact ⟨node,hmem,hid,of_decide_eq_true hfree⟩

theorem assigns (m : MemoryManager) (podUid : PodUID) (containerName : String) (qos : QosClass) (request : UInt64) :
    m.Assigns podUid containerName qos request (m.assign utilization podUid containerName qos request) := by
  unfold assign
  by_cases hpolicy : m.policy = .none
  · rw [if_pos hpolicy]
    exact .unmanaged hpolicy
  · have hstatic : m.policy = .static := by
      cases h : m.policy with
      | none => exact (hpolicy h).elim
      | static => rfl
    rw [if_neg hpolicy]
    cases hkey : m.assignments.lookup (podUid.val,containerName) with
    | some a => exact .repeated hstatic hkey
    | none =>
      dsimp only
      by_cases hqos : qos = .guaranteed
      · rw [if_neg (not_not_intro hqos)]
        cases hbest : m.bestNumaNode utilization request with
        | none =>
          refine .refused hstatic hkey hqos ?_
          intro n hn hfree
          have hfilter := List.argmin_eq_none.mp (Option.map_eq_none_iff.mp hbest)
          have hmem : n ∈ m.numaNodes.filter (fun n => request ≤ n.freeBytes) :=
            List.mem_filter.mpr ⟨hn,decide_eq_true hfree⟩
          rw [hfilter] at hmem
          cases hmem
        | some numaId =>
          obtain ⟨node,hmem,rfl,hfree⟩ := bestNumaNode_eq_some hbest
          exact .pinned hstatic hkey hqos hmem hfree
      · rw [if_pos hqos]
        exact .unpinned hstatic hkey hqos

/-! ## Conservation -/

/-- The bytes of all assignments that are pinned to a node. -/
def pinnedBytes (m : MemoryManager) (id : ℕ) : ℕ :=
  total (fun _ a => if id ∈ a.numaNodes then a.bytes.toNat else 0) m.assignments

/-- What a node has free and what is pinned to it add up to what it had at first. -/
def Conserved (m : MemoryManager) (n₀ n : NumaNode) : Prop :=
  n.id = n₀.id ∧ n.totalBytes = n₀.totalBytes ∧ n.freeBytes.toNat + m.pinnedBytes n.id = n₀.freeBytes.toNat

/-- The arithmetic of the call is exact: no subtraction saturates and no addition overflows. -/
def Exact (m : MemoryManager) : MemoryManagerCall → Prop
  | .assign podUid containerName _ request => ∀ id node,
      m.assignments.lookup (podUid.val,containerName) = none → m.bestNumaNode utilization request = some id →
      m.numaNodes.find? (fun n => n.id = id) = some node → request ≤ node.freeBytes
  | .release podUid containerName => ∀ a id node,
      m.assignments.lookup (podUid.val,containerName) = some a → id ∈ a.numaNodes →
      m.numaNodes.find? (fun n => n.id = id) = some node → node.freeBytes.toNat + a.bytes.toNat < 2 ^ 64

/-- What every call keeps, for the nodes that the manager began with. -/
structure MemoryInv (policy : String) (nodes : List NumaNode) (m : MemoryManager) : Prop where
  policy : m.policy = .parse policy
  conserved : List.Forall₂ m.Conserved nodes m.numaNodes
  single : ∀ key a, m.assignments.lookup key = some a → ∃ id, a.numaNodes = [id]

section Nodes
variable {nodes ns : List NumaNode} {id : ℕ} {f : UInt64 → UInt64} {R S : NumaNode → NumaNode → Prop}

theorem forall₂_of_mem (h : List.Forall₂ R nodes ns) (himp : ∀ a b, b ∈ ns → R a b → S a b) :
    List.Forall₂ S nodes ns := by
  induction h with
  | nil => exact .nil
  | cons hab _ ih =>
    exact .cons (himp _ _ List.mem_cons_self hab) (ih fun a b hb => himp a b (List.mem_cons_of_mem _ hb))

/-- With distinct IDs a change of one node is a change of the node with its ID. -/
theorem forall₂_updateNode (h : List.Forall₂ R nodes ns) (hnodup : (ns.map (·.id)).Nodup)
    (hhit : ∀ a n, n ∈ ns → n.id = id → R a n → S a { n with freeBytes := f n.freeBytes })
    (hmiss : ∀ a n, n.id ≠ id → R a n → S a n) : List.Forall₂ S nodes (updateNode id f ns) := by
  induction h with
  | nil => exact .nil
  | @cons a n nodes rest hab hrest ih =>
    rw [List.map_cons,List.nodup_cons] at hnodup
    unfold updateNode
    by_cases hid : n.id = id
    · rw [if_pos hid]
      refine .cons (hhit a n List.mem_cons_self hid hab) (forall₂_of_mem hrest ?_)
      intro b k hk hbk
      refine hmiss b k ?_ hbk
      intro heq
      exact hnodup.1 (List.mem_map.mpr ⟨k,hk,heq.trans hid.symm⟩)
    · rw [if_neg hid]
      exact .cons (hmiss a n hid hab) (ih hnodup.2 fun b k hk => hhit b k (List.mem_cons_of_mem _ hk))

theorem ids_of_forall₂ (h : List.Forall₂ R nodes ns) (hid : ∀ a n, R a n → n.id = a.id) :
    ns.map (·.id) = nodes.map (·.id) := by
  induction h with
  | nil => rfl
  | cons hab _ ih => rw [List.map_cons,List.map_cons,hid _ _ hab,ih]

end Nodes

section Steps
variable {policy : String} {nodes : List NumaNode} {m : MemoryManager} {podUid : PodUID} {containerName : String}
variable {request : UInt64}

theorem memoryInv_new (policy : String) (nodes : List NumaNode) : MemoryInv policy nodes (new policy nodes) := by
  refine ⟨rfl,List.forall₂_same.mpr ?_,?_⟩
  · intro n _
    exact ⟨rfl,rfl,rfl⟩
  · intro key a h
    cases h

theorem MemoryInv.nodup (h : MemoryInv policy nodes m) (hnodup : (nodes.map (·.id)).Nodup) :
    (m.numaNodes.map (·.id)).Nodup := by
  rw [ids_of_forall₂ h.conserved fun _ _ hn => hn.1]
  exact hnodup

theorem pinnedBytes_pin (hkey : m.assignments.lookup (podUid.val,containerName) = none) (numaId id : ℕ) :
    (m.pin podUid containerName numaId request).pinnedBytes id =
      (if id = numaId then request.toNat else 0) + m.pinnedBytes id := by
  unfold pinnedBytes pin
  rw [total_insert hkey]
  simp only [List.mem_singleton]

theorem pinnedBytes_release {a : MemoryAssignment} {numaId : ℕ}
    (hkey : m.assignments.lookup (podUid.val,containerName) = some a) (hsingle : a.numaNodes = [numaId]) (id : ℕ) :
    (if id = numaId then a.bytes.toNat else 0) + (m.release podUid containerName).pinnedBytes id =
      m.pinnedBytes id := by
  unfold pinnedBytes release
  rw [hkey,← total_erase hkey,hsingle]
  simp only [List.mem_singleton]

theorem memoryInv_pin (h : MemoryInv policy nodes m) (hnodup : (nodes.map (·.id)).Nodup) {node : NumaNode}
    (hkey : m.assignments.lookup (podUid.val,containerName) = none) (hnode : node ∈ m.numaNodes)
    (hfree : request ≤ node.freeBytes) : MemoryInv policy nodes (m.pin podUid containerName node.id request) := by
  refine ⟨h.policy,?_,?_⟩
  · refine forall₂_updateNode h.conserved (h.nodup hnodup) ?_ ?_
    · rintro n₀ n hn hid ⟨hids,htotal,hsum⟩
      obtain rfl : n = node := List.inj_on_of_nodup_map (h.nodup hnodup) hn hnode hid
      refine ⟨hids,htotal,?_⟩
      have hle := UInt64.le_iff_toNat_le.mp hfree
      dsimp only
      rw [toNat_saturatingSub,pinnedBytes_pin hkey,if_pos rfl]
      omega
    · rintro n₀ n hid ⟨hids,htotal,hsum⟩
      refine ⟨hids,htotal,?_⟩
      rw [pinnedBytes_pin hkey,if_neg hid,Nat.zero_add]
      exact hsum
  · intro key a hk
    rcases HashMap.lookup_insert_eq_some.mp hk with ⟨-,rfl⟩ | ⟨-,hk⟩
    · exact ⟨node.id,rfl⟩
    · exact h.single key a hk

theorem memoryInv_release (h : MemoryInv policy nodes m) (hnodup : (nodes.map (·.id)).Nodup) :
    MemoryInv policy nodes (m.release podUid containerName) := by
  cases hkey : m.assignments.lookup (podUid.val,containerName) with
  | none =>
    unfold release
    rw [hkey]
    exact h
  | some a =>
    obtain ⟨numaId,hsingle⟩ := h.single _ a hkey
    have hpinned := pinnedBytes_release (m := m) hkey hsingle
    have hnodes : (m.release podUid containerName).numaNodes =
        updateNode numaId (· + a.bytes) m.numaNodes := by
      unfold release
      rw [hkey]
      dsimp only
      rw [hsingle]
      rfl
    refine ⟨?_,?_,?_⟩
    · unfold release
      rw [hkey]
      exact h.policy
    · rw [hnodes]
      refine forall₂_updateNode h.conserved (h.nodup hnodup) ?_ ?_
      · rintro n₀ n - hid ⟨hids,htotal,hsum⟩
        refine ⟨hids,htotal,?_⟩
        have hp := hpinned n.id
        have hlt := n₀.freeBytes.toNat_lt
        rw [if_pos hid] at hp
        dsimp only
        rw [UInt64.toNat_add,Nat.mod_eq_of_lt (by omega)]
        omega
      · rintro n₀ n hid ⟨hids,htotal,hsum⟩
        refine ⟨hids,htotal,?_⟩
        have hp := hpinned n.id
        rw [if_neg hid,Nat.zero_add] at hp
        rw [hp]
        exact hsum
    · intro key b hk
      unfold release at hk
      rw [hkey] at hk
      exact h.single key b (HashMap.lookup_erase_eq_some.mp hk).2

theorem memoryInv_step (h : MemoryInv policy nodes m) (hnodup : (nodes.map (·.id)).Nodup) (call : MemoryManagerCall) :
    MemoryInv policy nodes (m.step utilization call) := by
  cases call with
  | assign podUid containerName qos request =>
    change MemoryInv policy nodes (m.assign utilization podUid containerName qos request).2
    have hcases := m.assigns utilization podUid containerName qos request
    generalize m.assign utilization podUid containerName qos request = r at hcases
    cases hcases with
    | pinned _ hkey _ hnode hfree => exact memoryInv_pin h hnodup hkey hnode hfree
    | _ => exact h
  | release podUid containerName => exact memoryInv_release h hnodup

theorem memoryInv_foldl (h : MemoryInv policy nodes m) (hnodup : (nodes.map (·.id)).Nodup)
    (calls : List MemoryManagerCall) : MemoryInv policy nodes (calls.foldl (step utilization) m) := by
  induction calls generalizing m with
  | nil => exact h
  | cons call calls ih => exact ih (memoryInv_step utilization h hnodup call)

theorem exists_of_forall₂ {R : NumaNode → NumaNode → Prop} {ns : List NumaNode} (h : List.Forall₂ R nodes ns)
    {n : NumaNode} (hn : n ∈ ns) : ∃ n₀, R n₀ n := by
  induction h with
  | nil => cases hn
  | @cons a b _ _ hab _ ih =>
    rcases List.mem_cons.mp hn with rfl | hn
    · exact ⟨a,hab⟩
    · exact ih hn

theorem exact_of_inv (h : MemoryInv policy nodes m) (hnodup : (nodes.map (·.id)).Nodup) (call : MemoryManagerCall) :
    m.Exact utilization call := by
  cases call with
  | assign podUid containerName qos request =>
    intro id node _ hbest hfind
    obtain ⟨node',hmem',hid',hfree⟩ := bestNumaNode_eq_some hbest
    have hmem := List.mem_of_find?_eq_some hfind
    have hid : node.id = id := by simpa using List.find?_some hfind
    obtain rfl : node' = node := List.inj_on_of_nodup_map (h.nodup hnodup) hmem' hmem (hid'.trans hid.symm)
    exact hfree
  | release podUid containerName =>
    intro a id node hkey hmem hfind
    obtain ⟨numaId,hsingle⟩ := h.single _ a hkey
    obtain rfl : id = numaId := by
      rw [hsingle] at hmem
      exact List.mem_singleton.mp hmem
    have hid : node.id = id := by simpa using List.find?_some hfind
    obtain ⟨n₀,-,-,hsum⟩ := exists_of_forall₂ h.conserved (List.mem_of_find?_eq_some hfind)
    have hp := pinnedBytes_release (m := m) hkey hsingle id
    have hlt := n₀.freeBytes.toNat_lt
    rw [if_pos rfl] at hp
    rw [hid] at hsum
    omega

/-- Releasing containers one after another. -/
def releaseAll (m : MemoryManager) (containers : List (PodUID × String)) : MemoryManager :=
  containers.foldl (fun m c => m.release c.1 c.2) m

theorem memoryInv_releaseAll (h : MemoryInv policy nodes m) (hnodup : (nodes.map (·.id)).Nodup)
    (containers : List (PodUID × String)) : MemoryInv policy nodes (m.releaseAll containers) := by
  induction containers generalizing m with
  | nil => exact h
  | cons c containers ih => exact ih (memoryInv_release h hnodup)

theorem lookup_releaseAll {containers : List (PodUID × String)} {key : String × String} {a : MemoryAssignment}
    (h : (m.releaseAll containers).assignments.lookup key = some a) :
    m.assignments.lookup key = some a ∧ ∀ c ∈ containers, (c.1.val,c.2) ≠ key := by
  induction containers generalizing m with
  | nil => exact ⟨h,fun c hc => absurd hc List.not_mem_nil⟩
  | cons c containers ih =>
    obtain ⟨hkey,hrest⟩ := ih h
    change (m.release c.1 c.2).assignments.lookup key = some a at hkey
    unfold release at hkey
    cases hc : m.assignments.lookup (c.1.val,c.2) with
    | none =>
      rw [hc] at hkey
      refine ⟨hkey,List.forall_mem_cons.mpr ⟨?_,hrest⟩⟩
      rintro rfl
      rw [hc] at hkey
      cases hkey
    | some b =>
      rw [hc] at hkey
      obtain ⟨hne,hkey⟩ := HashMap.lookup_erase_eq_some.mp hkey
      exact ⟨hkey,List.forall_mem_cons.mpr ⟨hne.symm,hrest⟩⟩

/-- A manager without assignments is the one it was at first. -/
theorem eq_new_of_empty (h : MemoryInv policy nodes m) (hempty : ∀ key, m.assignments.lookup key = none) :
    m = new policy nodes := by
  have hassignments : m.assignments = ∅ := by
    refine AList.ext ?_
    cases hentries : m.assignments.entries with
    | nil => rfl
    | cons e rest =>
      have hmem : e ∈ m.assignments.entries := by
        rw [hentries]
        exact List.mem_cons_self
      have hsome := AList.mem_lookup_iff.mpr hmem
      rw [hempty] at hsome
      cases hsome
  have hnodes : nodes = m.numaNodes := by
    have hzero (id : ℕ) : m.pinnedBytes id = 0 := by
      unfold pinnedBytes
      rw [hassignments,total_empty]
    have hsame : List.Forall₂ (· = ·) nodes m.numaNodes := by
      refine h.conserved.imp ?_
      rintro n₀ n ⟨hid,htotal,hsum⟩
      rw [hzero,Nat.add_zero,UInt64.toNat_inj] at hsum
      cases n₀
      cases n
      exact NumaNode.mk.injEq .. ▸ ⟨hid.symm,htotal.symm,hsum.symm⟩
    rwa [List.forall₂_eq_eq_eq] at hsame
  obtain ⟨p,ns,as⟩ := m
  obtain rfl : p = .parse policy := h.policy
  obtain rfl : as = ∅ := hassignments
  obtain rfl : nodes = ns := hnodes
  rfl

end Steps

/-- After any calls what is free and what is pinned add up to what each node had, the next
call computes exactly, and releasing every assignment gives the initial manager again. -/
theorem memory_conserved (policy : String) {nodes : List NumaNode} (hnodup : (nodes.map (·.id)).Nodup)
    (calls : List MemoryManagerCall) :
    let m := calls.foldl (step utilization) (new policy nodes)
    List.Forall₂ m.Conserved nodes m.numaNodes ∧ (∀ call, m.Exact utilization call) ∧
    ∀ containers : List (PodUID × String),
      (∀ key ∈ m.assignments, ∃ c ∈ containers, (c.1.val,c.2) = key) →
      m.releaseAll containers = new policy nodes := by
  intro m
  have hinv : MemoryInv policy nodes m := memoryInv_foldl utilization (memoryInv_new policy nodes) hnodup calls
  refine ⟨hinv.conserved,exact_of_inv utilization hinv hnodup,?_⟩
  intro containers hall
  refine eq_new_of_empty (memoryInv_releaseAll hinv hnodup containers) ?_
  intro key
  cases hkey : (m.releaseAll containers).assignments.lookup key with
  | none => rfl
  | some a =>
    obtain ⟨hsome,hnot⟩ := lookup_releaseAll hkey
    obtain ⟨c,hc,heq⟩ := hall key (AList.lookup_isSome.mp (by rw [hsome]; rfl))
    exact absurd heq (hnot c hc)

/-- The float computation on nodes that are not almost full. -/
def utilizationOf (n : NumaNode) : ℕ := if n.totalBytes ≠ 0 ∧ n.freeBytes = 0 then 1 else 0

def twoNodes : List NumaNode := [⟨0,8192,8192⟩,⟨1,8192,4096⟩]

theorem memory_conserved_two :
    let m := [MemoryManagerCall.assign ⟨"a"⟩ "app" .guaranteed 8192,.assign ⟨"b"⟩ "app" .guaranteed 1024].foldl
      (step utilizationOf) (new "Static" twoNodes)
    m.numaNodes.map (·.freeBytes) = [0,3072] ∧ List.Forall₂ m.Conserved twoNodes m.numaNodes :=
  ⟨by decide +kernel,(memory_conserved utilizationOf "Static" (by decide) _).1⟩

end MemoryManager
end KubeAir.Adapters
