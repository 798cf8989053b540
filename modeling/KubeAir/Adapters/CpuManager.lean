import KubeAir.Accounting.Partition
import KubeAir.Core.Qos
import Mathlib.Data.Finset.Sort

/-! # CPU manager

Exclusive CPUs for guaranteed containers that request whole CPUs, and the shared pool for
all others. In every state that calls lead to the node's CPUs without the reserved ones
are partitioned between the available pool and the containers that hold some.
-/
namespace KubeAir.Adapters
open Core Accounting

/-- A set of logical CPU IDs. -/
abbrev CpuSet := Finset ℕ

/-- `CpuSet::take`: the first `count` CPUs and what is left, or nothing. -/
def CpuSet.take (cpus : CpuSet) (count : ℕ) : Option (CpuSet × CpuSet) :=
  if cpus.card < count then none else some (firsts count cpus,cpus \ firsts count cpus)

def cpusetRange (start stop : ℕ) : String :=
  if start = stop then toString start else toString start ++ "-" ++ toString stop

def cpusetParts (start stop : ℕ) : List ℕ → List String
  | [] => [cpusetRange start stop]
  | cpu :: rest =>
    if cpu = stop + 1 then cpusetParts start cpu rest else cpusetRange start stop :: cpusetParts cpu cpu rest

/-- Format as a Linux cpuset string, collapsing ranges. -/
def CpuSet.toCpusetString (cpus : CpuSet) : String :=
  match Finset.sort cpus with
  | [] => ""
  | cpu :: rest => String.intercalate "," (cpusetParts cpu cpu rest)

inductive CpuManagerPolicy
  | none
  | static
deriving DecidableEq, Repr

def CpuManagerPolicy.parse (s : String) : CpuManagerPolicy := if s = "static" then .static else .none

structure CpuAssignment where
  podUid : PodUID
  containerName : String
  cpus : CpuSet
  exclusive : Bool

/-- A container is known by the UID of its pod and its name. -/
abbrev ContainerKey := String × String

structure CpuManager where
  policy : CpuManagerPolicy
  totalCpus : CpuSet
  availableCpus : CpuSet
  reservedCpus : CpuSet
  assignments : HashMap ContainerKey CpuAssignment := ∅

namespace CpuManager

def new (policy : String) (totalCpus reservedCpus : CpuSet) : CpuManager where
  policy := .parse policy
  totalCpus := totalCpus
  availableCpus := totalCpus \ reservedCpus
  reservedCpus := reservedCpus

/-- The CPUs of all exclusive assignments. -/
def exclusivelyAssigned (m : CpuManager) : CpuSet :=
  ((m.assignments.entries.map (·.2)).filter (·.exclusive)).foldl (fun acc a => acc ∪ a.cpus) ∅

/-- The shared pool: total CPUs minus any exclusively assigned ones. -/
def sharedPool (m : CpuManager) : CpuSet := m.totalCpus \ m.exclusivelyAssigned

def notEnoughCpus (need available : ℕ) : KubeletError :=
  .resource ("not enough CPUs: need " ++ toString need ++ ", available " ++ toString available)

def assignExclusive (m : CpuManager) (podUid : PodUID) (containerName : String) (numCpus : ℕ) :
    Except KubeletError CpuSet × CpuManager :=
  match CpuSet.take m.availableCpus numCpus with
  | none => (.error (notEnoughCpus numCpus m.availableCpus.card),m)
  | some (exclusive,rest) =>
    (.ok exclusive,
      { m with
        availableCpus := rest
        assignments := m.assignments.insert (podUid.val,containerName) ⟨podUid,containerName,exclusive,true⟩ })

/-- Assign CPUs to a container. -/
def assign (m : CpuManager) (podUid : PodUID) (containerName : String) (qos : QosClass)
    (cpuRequestMillicores : ℕ) : Except KubeletError CpuSet × CpuManager :=
  if m.policy = .none then (.ok m.totalCpus,m)
  else
    match m.assignments.lookup (podUid.val,containerName) with
    | some existing => (.ok existing.cpus,m)
    | none =>
      if qos = .guaranteed ∧ 1000 ∣ cpuRequestMillicores then
        m.assignExclusive podUid containerName (cpuRequestMillicores / 1000)
      else (.ok m.sharedPool,m)

/-- Release exclusive CPUs when a container exits. -/
def release (m : CpuManager) (podUid : PodUID) (containerName : String) : CpuManager :=
  match m.assignments.lookup (podUid.val,containerName) with
  | some assignment =>
    let rest := { m with assignments := m.assignments.erase (podUid.val,containerName) }
    if assignment.exclusive then { rest with availableCpus := m.availableCpus ∪ assignment.cpus } else rest
  | none => m

end CpuManager

inductive CpuManagerCall
  | assign (podUid : PodUID) (containerName : String) (qos : QosClass) (cpuRequestMillicores : ℕ)
  | release (podUid : PodUID) (containerName : String)

def CpuManagerCall.key : CpuManagerCall → ContainerKey
  | .assign podUid containerName _ _ => (podUid.val,containerName)
  | .release podUid containerName => (podUid.val,containerName)

namespace CpuManager

def step (m : CpuManager) : CpuManagerCall → CpuManager
  | .assign podUid containerName qos request => (m.assign podUid containerName qos request).2
  | .release podUid containerName => m.release podUid containerName

/-- The CPUs that a container holds for itself. -/
def exclusiveCpus (m : CpuManager) (key : ContainerKey) : CpuSet :=
  match m.assignments.lookup key with
  | some a => if a.exclusive then a.cpus else ∅
  | none => ∅

/-! ## What a call can do -/

def takeCpus (m : CpuManager) (podUid : PodUID) (containerName : String) (numCpus : ℕ) : CpuManager :=
  let cpus := firsts numCpus m.availableCpus
  { m with
    availableCpus := m.availableCpus \ cpus
    assignments := m.assignments.insert (podUid.val,containerName) ⟨podUid,containerName,cpus,true⟩ }

/-- The outcomes of `assign`. -/
inductive Assigns (m : CpuManager) (podUid : PodUID) (containerName : String) (qos : QosClass) (request : ℕ) :
    Except KubeletError CpuSet × CpuManager → Prop
  | unmanaged (hpolicy : m.policy = .none) : Assigns m podUid containerName qos request (.ok m.totalCpus,m)
  | repeated {a : CpuAssignment} (hpolicy : m.policy = .static)
      (hkey : m.assignments.lookup (podUid.val,containerName) = some a) :
      Assigns m podUid containerName qos request (.ok a.cpus,m)
  | shared (hpolicy : m.policy = .static) (hkey : m.assignments.lookup (podUid.val,containerName) = none)
      (hrequest : ¬ (qos = .guaranteed ∧ 1000 ∣ request)) :
      Assigns m podUid containerName qos request (.ok m.sharedPool,m)
  | refused (hpolicy : m.policy = .static) (hkey : m.assignments.lookup (podUid.val,containerName) = none)
      (hrequest : qos = .guaranteed ∧ 1000 ∣ request) (hcard : m.availableCpus.card < request / 1000) :
      Assigns m podUid containerName qos request
        (.error (notEnoughCpus (request / 1000) m.availableCpus.card),m)
  | exclusive (hpolicy : m.policy = .static) (hkey : m.assignments.lookup (podUid.val,containerName) = none)
      (hrequest : qos = .guaranteed ∧ 1000 ∣ request) (hcard : request / 1000 ≤ m.availableCpus.card) :
      Assigns m podUid containerName qos request
        (.ok (firsts (request / 1000) m.availableCpus),m.takeCpus podUid containerName (request / 1000))

section Lemmas
variable (m : CpuManager) {podUid : PodUID} {containerName : String} {qos : QosClass} {request : ℕ}

variable (podUid containerName qos request) in
theorem assigns : m.Assigns podUid containerName qos request (m.assign podUid containerName qos request) := by
  unfold assign
  by_cases hpolicy : m.policy = .none
  · rw [if_pos hpolicy]
    exact .unmanaged hpolicy
  · have hstatic : m.policy = .static := by
      cases h : m.policy with
      | none => exact (hpolicy h).elim
      | static => rfl
    rw [if_neg hpolicy]
    cases hkey : m.assignments.lookup (podUid.val,containerName) with
    | some a => exact .repeated hstatic hkey
    | none =>
      dsimp only
      by_cases hrequest : qos = .guaranteed ∧ 1000 ∣ request
      · rw [if_pos hrequest]
        unfold assignExclusive CpuSet.take
        by_cases hcard : m.availableCpus.card < request / 1000
        · rw [if_pos hcard]
          exact .refused hstatic hkey hrequest hcard
        · rw [if_neg hcard]
          exact .exclusive hstatic hkey hrequest (Nat.le_of_not_lt hcard)
      · rw [if_neg hrequest]
        exact .shared hstatic hkey hrequest

/-- A failing assign changes nothing. -/
theorem assign_error {e : KubeletError} (h : (m.assign podUid containerName qos request).1 = .error e) :
    (m.assign podUid containerName qos request).2 = m := by
  have hcases := m.assigns podUid containerName qos request
  generalize m.assign podUid containerName qos request = r at h hcases
  cases hcases with
  | exclusive => cases h
  | _ => rfl

theorem mem_foldl_union (as : List CpuAssignment) (acc : CpuSet) (cpu : ℕ) :
    cpu ∈ as.foldl (fun acc a => acc ∪ a.cpus) acc ↔ cpu ∈ acc ∨ ∃ a ∈ as, cpu ∈ a.cpus := by
  induction as generalizing acc with
  | nil => simp
  | cons a as ih =>
    rw [List.foldl_cons,ih,Finset.mem_union,List.exists_mem_cons_iff,or_assoc]

theorem mem_exclusiveCpus {key : ContainerKey} {cpu : ℕ} : cpu ∈ m.exclusiveCpus key ↔
    ∃ a, m.assignments.lookup key = some a ∧ a.exclusive = true ∧ cpu ∈ a.cpus := by
  unfold exclusiveCpus
  cases m.assignments.lookup key with
  | none => simp
  | some a => by_cases ha : a.exclusive = true <;> simp [ha]

/-- The union that `shared_pool` forms is that of what the containers hold. -/
theorem mem_exclusivelyAssigned {cpu : ℕ} :
    cpu ∈ m.exclusivelyAssigned ↔ ∃ key, cpu ∈ m.exclusiveCpus key := by
  unfold exclusivelyAssigned
  rw [mem_foldl_union]
  constructor
  · rintro (h | ⟨a,ha,hcpu⟩)
    · exact absurd h (Finset.notMem_empty cpu)
    · obtain ⟨hmem,hexclusive⟩ := List.mem_filter.mp ha
      obtain ⟨⟨key,a'⟩,he,rfl⟩ := List.mem_map.mp hmem
      exact ⟨key,m.mem_exclusiveCpus.mpr ⟨a',AList.mem_lookup_iff.mpr he,hexclusive,hcpu⟩⟩
  · rintro ⟨key,hcpu⟩
    obtain ⟨a,hlookup,hexclusive,hcpu⟩ := m.mem_exclusiveCpus.mp hcpu
    refine .inr ⟨a,List.mem_filter.mpr ⟨List.mem_map.mpr ⟨⟨key,a⟩,?_,rfl⟩,hexclusive⟩,hcpu⟩
    exact AList.mem_lookup_iff.mp hlookup

theorem exclusiveCpus_takeCpus (numCpus : ℕ) : (m.takeCpus podUid containerName numCpus).exclusiveCpus =
    Function.update m.exclusiveCpus (podUid.val,containerName) (firsts numCpus m.availableCpus) := by
  funext key
  unfold takeCpus exclusiveCpus
  by_cases hkey : key = (podUid.val,containerName)
  · subst hkey
    rw [Function.update_self,AList.lookup_insert]
    rfl
  · rw [Function.update_of_ne hkey,AList.lookup_insert_ne hkey]

theorem exclusiveCpus_release : (m.release podUid containerName).exclusiveCpus =
    Function.update m.exclusiveCpus (podUid.val,containerName) ∅ := by
  have herase (key : ContainerKey) (c : CpuSet) : { m with
      availableCpus := c
      assignments := m.assignments.erase (podUid.val,containerName) }.exclusiveCpus key =
      Function.update m.exclusiveCpus (podUid.val,containerName) ∅ key := by
    unfold exclusiveCpus
    by_cases hkey : key = (podUid.val,containerName)
    · subst hkey
      rw [Function.update_self,AList.lookup_erase]
    · rw [Function.update_of_ne hkey,AList.lookup_erase_ne hkey]
  unfold release
  cases hkey : m.assignments.lookup (podUid.val,containerName) with
  | some a =>
    dsimp only
    split
    · exact funext fun key => herase key _
    · exact funext fun key => herase key _
  | none =>
    symm
    refine Function.update_eq_self_iff.mpr ?_
    unfold exclusiveCpus
    rw [hkey]

theorem availableCpus_release : (m.release podUid containerName).availableCpus =
    m.availableCpus ∪ m.exclusiveCpus (podUid.val,containerName) := by
  unfold release exclusiveCpus
  cases m.assignments.lookup (podUid.val,containerName) with
  | some a =>
    by_cases ha : a.exclusive = true
    · simp [ha]
    · simp [ha]
  | none => exact (Finset.union_empty _).symm

end Lemmas

/-! ## The partition -/

/-- The CPUs that are not reserved are available or held by one container. -/
def Partitioned (m : CpuManager) : Prop :=
  Partition (m.totalCpus \ m.reservedCpus) m.availableCpus m.exclusiveCpus

/-- No call changes the topology. -/
structure SameNode (m n : CpuManager) : Prop where
  policy : n.policy = m.policy
  total : n.totalCpus = m.totalCpus
  reserved : n.reservedCpus = m.reservedCpus

theorem sameNode_step (m : CpuManager) (call : CpuManagerCall) : SameNode m (m.step call) := by
  cases call with
  | assign podUid containerName qos request =>
    change SameNode m (m.assign podUid containerName qos request).2
    have hcases := m.assigns podUid containerName qos request
    generalize m.assign podUid containerName qos request = r at hcases
    cases hcases <;> exact ⟨rfl,rfl,rfl⟩
  | release podUid containerName =>
    change SameNode m (m.release podUid containerName)
    unfold release
    split
    · dsimp only
      split <;> exact ⟨rfl,rfl,rfl⟩
    · exact ⟨rfl,rfl,rfl⟩

theorem partitioned_new (policy : String) (total reserved : CpuSet) : (new policy total reserved).Partitioned :=
  Partition.initial

theorem partitioned_step {m : CpuManager} (h : m.Partitioned) (call : CpuManagerCall) :
    (m.step call).Partitioned := by
  obtain ⟨-,htotal,hreserved⟩ := sameNode_step m call
  unfold Partitioned
  rw [htotal,hreserved]
  cases call with
  | assign podUid containerName qos request =>
    change Partition _ (m.assign podUid containerName qos request).2.availableCpus
      (m.assign podUid containerName qos request).2.exclusiveCpus
    have hcases := m.assigns podUid containerName qos request
    generalize m.assign podUid containerName qos request = r at hcases
    cases hcases with
    | exclusive _ hkey _ _ =>
      have hnone : m.exclusiveCpus (podUid.val,containerName) = ∅ := by
        unfold exclusiveCpus
        rw [hkey]
      dsimp only
      rw [exclusiveCpus_takeCpus]
      exact Partition.take h (firsts_subset _ _) hnone
    | _ => exact h
  | release podUid containerName =>
    change Partition _ (m.release podUid containerName).availableCpus
      (m.release podUid containerName).exclusiveCpus
    rw [exclusiveCpus_release,availableCpus_release]
    exact Partition.give h

theorem partitioned_foldl {m : CpuManager} (h : m.Partitioned) (calls : List CpuManagerCall) :
    (calls.foldl step m).Partitioned ∧ SameNode m (calls.foldl step m) := by
  induction calls generalizing m with
  | nil => exact ⟨h,rfl,rfl,rfl⟩
  | cons call calls ih =>
    obtain ⟨hpart,hsame⟩ := ih (partitioned_step h call)
    obtain ⟨hpolicy,htotal,hreserved⟩ := sameNode_step m call
    exact ⟨hpart,hsame.policy.trans hpolicy,hsame.total.trans htotal,hsame.reserved.trans hreserved⟩

/-- After any calls no CPU is held twice, what is held is neither available nor reserved,
nothing else is missing from the pool, and an assign that fails leaves everything as it was. -/
theorem cpus_partitioned (policy : String) (total reserved : CpuSet) (calls : List CpuManagerCall) :
    let m := calls.foldl step (new policy total reserved)
    (∀ k l, k ≠ l → Disjoint (m.exclusiveCpus k) (m.exclusiveCpus l)) ∧
    (∀ k, Disjoint (m.exclusiveCpus k) m.availableCpus ∧ Disjoint (m.exclusiveCpus k) reserved) ∧
    m.availableCpus ∪ m.exclusivelyAssigned = total \ reserved ∧
    ∀ podUid containerName qos request e, (m.assign podUid containerName qos request).1 = .error e →
      (m.assign podUid containerName qos request).2 = m := by
  intro m
  obtain ⟨hpart,-,htotal,hreserved⟩ := partitioned_foldl (partitioned_new policy total reserved) calls
  have hwhole : Partition (total \ reserved) m.availableCpus m.exclusiveCpus := by
    change Partition (m.totalCpus \ m.reservedCpus) m.availableCpus m.exclusiveCpus at hpart
    rw [htotal,hreserved] at hpart
    exact hpart
  refine ⟨hwhole.exclusive,?_,?_,fun _ _ _ _ _ h => m.assign_error h⟩
  · intro k
    exact ⟨hwhole.apart k,Finset.disjoint_of_subset_left (hwhole.held_subset k) Finset.sdiff_disjoint⟩
  · ext cpu
    rw [Finset.mem_union,mem_exclusivelyAssigned,hwhole.cover]

end CpuManager
end KubeAir.Adapters
