import KubeAir.Adapters.Admission
import KubeAir.Adapters.Cgroup
import KubeAir.Adapters.QuantityPrinting
import Mathlib.Algebra.Order.BigOperators.Group.List

/-! # The memory cap of a pod

The memory limit that a sync gives the cgroup of a pod, from the limits and requests of its
containers and the overhead of its runtime.
-/
namespace KubeAir.Worker.PodCgroup
open Core Paths Adapters Adapters.Admission Adapters.Cgroup Adapters.Quantity

/-- A pod with the annotations from which its overhead may be read. -/
structure AnnotatedPod extends PodSpec where
  annotations : HashMap String String := ∅

/-! ## What a sync computes -/

/-- An `i64` after an addition that is not checked. -/
def wrap (z : ℤ) : ℤ := z.bmod (2 ^ 64)

/-- `iter().sum()` of `i64` values. -/
def sumI64 (xs : List ℤ) : ℤ := xs.foldl (fun acc x => wrap (acc + x)) 0

/-- Limits come first, then requests; zero means unconstrained. -/
def memoryOf (c : ContainerSpec) : ℤ :=
  (((c.resources.limits.lookup "memory").or (c.resources.requests.lookup "memory")).bind
    (fun q => if 0 < q.value then some q.value else none)).getD 0

def calculatePodMemoryRequests (pod : PodSpec) : ℤ := sumI64 ((pod.containers ++ pod.initContainers).map memoryOf)

def parseMemoryQuantityToBytes (raw : String) : ℤ :=
  let s := trim raw
  match stripSuffix s "Ki" with
  | some x => saturate ((parseI64 x).getD 0 * 1024)
  | none =>
    match stripSuffix s "Mi" with
    | some x => saturate (saturate ((parseI64 x).getD 0 * 1024) * 1024)
    | none =>
      match stripSuffix s "Gi" with
      | some x => saturate (saturate (saturate ((parseI64 x).getD 0 * 1024) * 1024) * 1024)
      | none => (parseI64 s).getD 0

def runtimeOverheadMemoryBytes (pod : AnnotatedPod) (runtimeOverheads : RuntimeOverheads) : ℤ :=
  let fromRuntimeClass := (pod.runtimeClassName.bind (runtimeOverheads.lookup ·)).bind (·.lookup "memory")
  match fromRuntimeClass.map parseMemoryQuantityToBytes with
  | some bytes => bytes
  | none =>
    (((pod.annotations.lookup "kube-air.io/runtime-overhead-memory").or
      (pod.annotations.lookup "kube-air.io/runtime-overhead-memory-bytes")).map parseMemoryQuantityToBytes).getD 0

/-- Step 0 of a sync: the write to the pod's `memory.max`. -/
def syncPodCgroup (m : CgroupManager) (runtimeOverheads : RuntimeOverheads) (pod : AnnotatedPod) (created : Bool) :
    Option CgroupWrite :=
  m.createPodCgroupWithMemoryLimit (computeQosClass pod.toPodSpec) pod.uid
    (calculatePodMemoryRequests pod.toPodSpec) (runtimeOverheadMemoryBytes pod runtimeOverheads) created

/-! ## Sums -/

/-- No addition of a sum leaves the `i64` range. -/
def SumFits (acc : ℤ) : List ℤ → Prop
  | [] => True
  | x :: xs => FitsI64 (acc + x) ∧ SumFits (acc + x) xs

theorem wrap_of_fits {z : ℤ} (h : FitsI64 z) : wrap z = z := by
  unfold FitsI64 at h
  unfold wrap
  rw [Int.bmod_eq_of_le] <;> omega

/-- A sum of numbers that are not negative fits when its total does. -/
theorem sumFits_iff {acc : ℤ} {xs : List ℤ} (hacc : 0 ≤ acc) (hfits : acc < 2 ^ 63) (h : ∀ x ∈ xs, 0 ≤ x) :
    SumFits acc xs ↔ acc + xs.sum < 2 ^ 63 := by
  induction xs generalizing acc with
  | nil => simpa [SumFits] using hfits
  | cons x xs ih =>
    have hx : 0 ≤ x := h x List.mem_cons_self
    have hxs : ∀ y ∈ xs, 0 ≤ y := fun y hy => h y (List.mem_cons_of_mem x hy)
    have hsum : 0 ≤ xs.sum := List.sum_nonneg hxs
    rw [SumFits,List.sum_cons,← add_assoc]
    constructor
    · rintro ⟨hfit,hrest⟩
      exact (ih (by omega) hfit.2 hxs).mp hrest
    · intro htotal
      have hfit : FitsI64 (acc + x) := ⟨by omega,by omega⟩
      exact ⟨hfit,(ih (by omega) hfit.2 hxs).mpr htotal⟩

/-- A sum that is not checked keeps its value up to multiples of the word size. -/
theorem sumI64_eq_wrap (xs : List ℤ) : sumI64 xs = wrap xs.sum := by
  have hfold : ∀ acc : ℤ, xs.foldl (fun acc x => wrap (acc + x)) (wrap acc) = wrap (acc + xs.sum) := by
    induction xs with
    | nil =>
      intro acc
      rw [List.foldl_nil,List.sum_nil,add_zero]
    | cons x xs ih =>
      intro acc
      have hwrap : wrap (wrap acc + x) = wrap (acc + x) := Int.bmod_add_bmod
      rw [List.foldl_cons,hwrap,ih,List.sum_cons,add_assoc]
  have h := hfold 0
  rwa [zero_add] at h

/-! ## The cap and the limits -/

def allContainers (pod : PodSpec) : List ContainerSpec := pod.containers ++ pod.initContainers

def limitOf (c : ContainerSpec) : Option ℤ := (c.resources.limits.lookup "memory").map (·.value)

/-- The container has a positive memory limit. -/
def Limited (c : ContainerSpec) : Prop := ∃ l, limitOf c = some l ∧ 0 < l

/-- The sum of the memory limits. -/
def totalLimit (pod : PodSpec) : ℤ := ((allContainers pod).map (fun c => (limitOf c).getD 0)).sum

/-- The sum of what the containers are charged with: a limit, else a request. -/
def totalAsked (pod : PodSpec) : ℤ := ((allContainers pod).map memoryOf).sum

/-- A cap is written over limited containers only, is not below their limits, and comes from a sum
that did not overflow. -/
structure Covers (slice : Path) (pod : PodSpec) (write : Option CgroupWrite) : Prop where
  written : ∀ l : ℤ, write = some ⟨slice,"memory.max",toString l⟩ →
    (∀ c ∈ allContainers pod, Limited c) ∧ totalLimit pod ≤ l ∧ SumFits 0 ((allContainers pod).map memoryOf)
  unlimited : (∃ c ∈ allContainers pod, limitOf c = none) → write = none

/-- Nothing is written, or all containers are limited and neither the sum nor the overhead is off. -/
def Accounts (m : CgroupManager) (pod : PodSpec) (overhead : ℤ) (created : Bool) : Prop :=
  m.dryRun = true ∨ created = false ∨ wrap (totalAsked pod) + overhead ≤ 0 ∨
    (∀ c ∈ allContainers pod, Limited c) ∧ totalLimit pod < 2 ^ 63 ∧ 0 ≤ overhead

variable {m : CgroupManager} {runtimeOverheads : RuntimeOverheads} {pod : AnnotatedPod} {created : Bool}

theorem memoryOf_nonneg (c : ContainerSpec) : 0 ≤ memoryOf c := by
  unfold memoryOf
  cases (c.resources.limits.lookup "memory").or (c.resources.requests.lookup "memory") with
  | none => exact le_refl 0
  | some q =>
    rw [Option.bind_some]
    split
    · rename_i hq
      exact hq.le
    · exact le_refl 0

theorem memoryOf_of_limited {c : ContainerSpec} (h : Limited c) : memoryOf c = (limitOf c).getD 0 := by
  obtain ⟨l,hl,hpos⟩ := h
  obtain ⟨q,hq,rfl⟩ := Option.map_eq_some_iff.mp hl
  unfold memoryOf
  rw [hq,Option.some_or,Option.bind_some,if_pos hpos,hl]

theorem totalAsked_of_limited {pod : PodSpec} (h : ∀ c ∈ allContainers pod, Limited c) :
    totalAsked pod = totalLimit pod :=
  congrArg List.sum (List.map_congr_left (fun c hc => memoryOf_of_limited (h c hc)))

theorem asked_nonneg (pod : PodSpec) : ∀ x ∈ (allContainers pod).map memoryOf, 0 ≤ x := by
  intro x hx
  obtain ⟨c,-,rfl⟩ := List.mem_map.mp hx
  exact memoryOf_nonneg c

theorem totalAsked_nonneg (pod : PodSpec) : 0 ≤ totalAsked pod := List.sum_nonneg (asked_nonneg pod)

theorem sumFits_asked (pod : PodSpec) : SumFits 0 ((allContainers pod).map memoryOf) ↔ totalAsked pod < 2 ^ 63 := by
  rw [sumFits_iff (le_refl 0) (by decide) (asked_nonneg pod),zero_add,totalAsked]

/-- What a sync writes. -/
theorem syncPodCgroup_eq :
    syncPodCgroup m runtimeOverheads pod created =
      if m.dryRun = false ∧ created = true ∧
          0 < wrap (totalAsked pod.toPodSpec) + runtimeOverheadMemoryBytes pod runtimeOverheads then
        some ⟨m.paths.podSlice (computeQosClass pod.toPodSpec) pod.uid,"memory.max",
          toString (saturate (wrap (totalAsked pod.toPodSpec) + runtimeOverheadMemoryBytes pod runtimeOverheads))⟩
      else none := by
  unfold syncPodCgroup CgroupManager.createPodCgroupWithMemoryLimit calculatePodMemoryRequests
  rw [sumI64_eq_wrap,← allContainers,← totalAsked]
  generalize wrap (totalAsked pod.toPodSpec) + runtimeOverheadMemoryBytes pod runtimeOverheads = total
  have hpos : 0 < saturate total ↔ 0 < total := by
    unfold saturate
    omega
  cases m.dryRun <;> cases created <;> simp [hpos]

theorem covers_none {slice : Path} {pod : PodSpec} : Covers slice pod none where
  written := fun _ h => by cases h
  unlimited := fun _ => rfl

/-- The cap of a pod covers its limits exactly when the containers, their sum and the overhead
account for it, or none is written. -/
theorem syncPodCgroup_covers_iff (m : CgroupManager) (runtimeOverheads : RuntimeOverheads) (pod : AnnotatedPod)
    (created : Bool) :
    Covers (m.paths.podSlice (computeQosClass pod.toPodSpec) pod.uid) pod.toPodSpec
        (syncPodCgroup m runtimeOverheads pod created) ↔
      Accounts m pod.toPodSpec (runtimeOverheadMemoryBytes pod runtimeOverheads) created := by
  rw [syncPodCgroup_eq]
  unfold Accounts
  generalize runtimeOverheadMemoryBytes pod runtimeOverheads = overhead
  by_cases hwrites : m.dryRun = false ∧ created = true ∧ 0 < wrap (totalAsked pod.toPodSpec) + overhead
  · obtain ⟨hdry,hcreated,hpos⟩ := hwrites
    rw [if_pos ⟨hdry,hcreated,hpos⟩]
    constructor
    · intro hcovers
      obtain ⟨hlimited,htotal,hfits⟩ := hcovers.written _ rfl
      have hasked := totalAsked_of_limited hlimited
      have hsum : totalAsked pod.toPodSpec < 2 ^ 63 := (sumFits_asked _).mp hfits
      have hnonneg := totalAsked_nonneg pod.toPodSpec
      rw [wrap_of_fits ⟨by omega,hsum⟩] at htotal
      refine .inr (.inr (.inr ⟨hlimited,hasked ▸ hsum,?_⟩))
      unfold saturate at htotal
      omega
    · rintro (h | h | h | ⟨hlimited,hsum,hoverhead⟩)
      · rw [hdry] at h
        cases h
      · rw [hcreated] at h
        cases h
      · omega
      · have hasked := totalAsked_of_limited hlimited
        have hnonneg := totalAsked_nonneg pod.toPodSpec
        constructor
        · intro l hl
          have htext := congrArg CgroupWrite.text (Option.some.inj hl)
          have hl' := toString_int_inj htext
          refine ⟨hlimited,?_,(sumFits_asked _).mpr (hasked ▸ hsum)⟩
          rw [← hl',wrap_of_fits ⟨by omega,by omega⟩]
          unfold saturate
          omega
        · rintro ⟨c,hc,hnone⟩
          obtain ⟨l,hl,-⟩ := hlimited c hc
          rw [hnone] at hl
          cases hl
  · rw [if_neg hwrites]
    refine iff_of_true covers_none ?_
    by_cases hdry : m.dryRun = true
    · exact .inl hdry
    · by_cases hcreated : created = false
      · exact .inr (.inl hcreated)
      · refine .inr (.inr (.inl (not_lt.mp (fun hpos => hwrites ⟨?_,?_,hpos⟩))))
        · exact Bool.eq_false_iff.mpr hdry
        · exact Bool.eq_true_of_not_eq_false hcreated

/-! ## A pod with one unlimited container -/

def limitedTo (bytes : ℤ) : ContainerSpec where
  name := "app"
  resources := { limits := (∅ : HashMap String ResourceQuantity).insert "memory" ⟨bytes,.bytes⟩ }

/-- An app limited to 128 Mi beside one without a limit. -/
def halfLimited : AnnotatedPod where
  uid := ⟨"u"⟩
  podRef := ⟨"default","web"⟩
  containers := [limitedTo (128 * 1024 * 1024),{ name := "sidecar" }]

def sysFsCgroup (dryRun : Bool) : CgroupManager := ⟨⟨Path.parse "/sys/fs/cgroup"⟩,dryRun⟩

/-- The pod is capped at 128 Mi, which its unlimited container shares. -/
theorem unlimited_capped :
    syncPodCgroup (sysFsCgroup false) ∅ halfLimited true =
        some ⟨Path.parse "/sys/fs/cgroup/kubepods.slice/kubepods-burstable.slice/kubepods-burstable-podu.slice",
          "memory.max","134217728"⟩ ∧
      ¬Covers ((sysFsCgroup false).paths.podSlice (computeQosClass halfLimited.toPodSpec) halfLimited.uid)
        halfLimited.toPodSpec (syncPodCgroup (sysFsCgroup false) ∅ halfLimited true) := by
  have hwrite : syncPodCgroup (sysFsCgroup false) ∅ halfLimited true =
      some ⟨Path.parse "/sys/fs/cgroup/kubepods.slice/kubepods-burstable.slice/kubepods-burstable-podu.slice",
        "memory.max","134217728"⟩ := by
    decide +kernel
  refine ⟨hwrite,fun hcovers => ?_⟩
  have hnone := hcovers.unlimited ⟨{ name := "sidecar" },List.mem_cons_of_mem _ List.mem_cons_self,rfl⟩
  rw [hwrite] at hnone
  cases hnone

end KubeAir.Worker.PodCgroup
