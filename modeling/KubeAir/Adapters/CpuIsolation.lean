import KubeAir.Adapters.CpuManager
import KubeAir.Transition.Runs

/-! # CPU isolation over whole runs

Beside the CPU manager the shared-pool answers that live containers go by. An answer is a
snapshot: what it contains stays off the exclusive sets of the other containers only as
long as no later exclusive assignment takes it.
-/
namespace KubeAir.Adapters
open Core Accounting Transition

/-- The CPU manager under the static policy, and the last answer of every live container
that has no CPUs of its own. -/
structure CpuHistory where
  manager : CpuManager
  shared : HashMap ContainerKey CpuSet := ∅

namespace CpuHistory

/-- What a container goes by after an assign. -/
def answered (s : CpuHistory) (key : ContainerKey) (r : Except KubeletError CpuSet × CpuManager) : CpuHistory where
  manager := r.2
  shared :=
    match r.1 with
    | .ok cpus => if (r.2.assignments.lookup key).isSome then s.shared.erase key else s.shared.insert key cpus
    | .error _ => s.shared

def step (s : CpuHistory) : CpuManagerCall → Option CpuHistory
  | .assign podUid containerName qos request =>
    some (s.answered (podUid.val,containerName) (s.manager.assign podUid containerName qos request))
  | .release podUid containerName =>
    some { manager := s.manager.release podUid containerName
           shared := s.shared.erase (podUid.val,containerName) }

end CpuHistory

/-- No container shares a CPU that another one holds for itself. -/
def CpusIsolated (s : CpuHistory) : Prop :=
  ∀ key cpus other, s.shared.lookup key = some cpus → other ≠ key →
    Disjoint cpus (s.manager.exclusiveCpus other)

/-- An answer is empty only if the other containers hold every CPU of the node. -/
def AnswersUsable (s : CpuHistory) (podUid : PodUID) (containerName : String) (qos : QosClass) (request : ℕ) : Prop :=
  ∀ cpus cpu, (s.manager.assign podUid containerName qos request).1 = .ok cpus →
    cpu ∈ s.manager.totalCpus → (∀ key, key ≠ (podUid.val,containerName) → cpu ∉ s.manager.exclusiveCpus key) →
    cpus.Nonempty

/-- The call would answer a new container with CPUs of its own. -/
def Grants (m : CpuManager) (key : ContainerKey) (qos : QosClass) (request : ℕ) : Prop :=
  m.assignments.lookup key = none ∧ (qos = .guaranteed ∧ 1000 ∣ request) ∧ request / 1000 ≤ m.availableCpus.card

/-- A container asks for no CPU, or comes back with none, only when the shared pool is empty.
An exclusive assignment leaves the CPUs alone that other live containers share. -/
def KeepsIsolation (s : CpuHistory) : CpuManagerCall → Prop
  | .assign podUid containerName qos request =>
    (∀ a ∈ s.manager.assignments.lookup (podUid.val,containerName), a.cpus = ∅ → s.manager.sharedPool = ∅) ∧
    (Grants s.manager (podUid.val,containerName) qos request →
      (request = 0 → s.manager.sharedPool = ∅) ∧
      ∀ e ∈ s.shared.entries, e.1 ≠ (podUid.val,containerName) →
        Disjoint e.2 (firsts (request / 1000) s.manager.availableCpus))
  | .release .. => True

instance (m : CpuManager) (key : ContainerKey) (qos : QosClass) (request : ℕ) :
    Decidable (Grants m key qos request) := inferInstanceAs (Decidable (_ ∧ _))

instance (s : CpuHistory) : ∀ call, Decidable (KeepsIsolation s call)
  | .assign .. => inferInstanceAs (Decidable (_ ∧ _))
  | .release .. => instDecidableTrue

/-- What the isolating runs keep. -/
structure IsolationInv (s : CpuHistory) : Prop where
  static : s.manager.policy = .static
  partitioned : s.manager.Partitioned
  owned : ∀ key a, s.manager.assignments.lookup key = some a → a.exclusive = true
  apart : ∀ key cpus, s.shared.lookup key = some cpus → s.manager.assignments.lookup key = none
  isolated : CpusIsolated s

section Steps
variable {s : CpuHistory} {podUid : PodUID} {containerName : String} {qos : QosClass} {request : ℕ}

theorem exclusiveCpus_of_lookup {m : CpuManager} {key : ContainerKey} (h : m.assignments.lookup key = none) :
    m.exclusiveCpus key = ∅ := by
  unfold CpuManager.exclusiveCpus
  rw [h]

/-- A CPU that no other container holds is in the shared pool, or the container's own. -/
theorem mem_sharedPool {m : CpuManager} {key : ContainerKey} {cpu : ℕ} (htotal : cpu ∈ m.totalCpus)
    (hothers : ∀ other, other ≠ key → cpu ∉ m.exclusiveCpus other) :
    cpu ∈ m.exclusiveCpus key ∨ cpu ∈ m.sharedPool := by
  by_cases hown : cpu ∈ m.exclusiveCpus key
  · exact .inl hown
  · refine .inr (Finset.mem_sdiff.mpr ⟨htotal,?_⟩)
    rw [m.mem_exclusivelyAssigned]
    rintro ⟨other,hother⟩
    by_cases h : other = key
    · subst h
      exact hown hother
    · exact hothers other h hother

theorem answersUsable (h : IsolationInv s)
    (hok : KeepsIsolation s (.assign podUid containerName qos request)) :
    AnswersUsable s podUid containerName qos request := by
  intro cpus cpu hanswer htotal hothers
  have hpool := mem_sharedPool htotal hothers
  have hcases := s.manager.assigns podUid containerName qos request
  generalize s.manager.assign podUid containerName qos request = r at hanswer hcases
  cases hcases with
  | unmanaged hpolicy =>
    rw [h.static] at hpolicy
    cases hpolicy
  | repeated _ hkey =>
    obtain rfl := Except.ok.inj hanswer
    rw [Finset.nonempty_iff_ne_empty]
    intro hempty
    have hnone : s.manager.exclusiveCpus (podUid.val,containerName) = ∅ := by
      unfold CpuManager.exclusiveCpus
      rw [hkey]
      simp [hempty]
    rw [hnone,hok.1 _ hkey hempty] at hpool
    exact hpool.elim (Finset.notMem_empty cpu) (Finset.notMem_empty cpu)
  | shared _ hkey _ =>
    obtain rfl := Except.ok.inj hanswer
    rw [exclusiveCpus_of_lookup hkey] at hpool
    exact ⟨cpu,hpool.resolve_left (Finset.notMem_empty cpu)⟩
  | refused => cases hanswer
  | exclusive _ hkey hrequest hcard =>
    obtain rfl := Except.ok.inj hanswer
    obtain ⟨hzero,-⟩ := hok.2 ⟨hkey,hrequest,hcard⟩
    rw [exclusiveCpus_of_lookup hkey] at hpool
    have hne : request ≠ 0 := by
      intro h0
      rw [hzero h0] at hpool
      exact hpool.elim (Finset.notMem_empty cpu) (Finset.notMem_empty cpu)
    obtain ⟨n,rfl⟩ := hrequest.2
    rw [← Finset.card_pos,card_firsts hcard]
    omega

/-- A container that has CPUs of its own goes by no shared answer. -/
theorem isolationInv_erase (h : IsolationInv s) (key : ContainerKey) :
    IsolationInv { s with shared := s.shared.erase key } := by
  refine ⟨h.static,h.partitioned,h.owned,?_,?_⟩
  · intro k cpus hk
    exact h.apart k cpus (HashMap.lookup_erase_eq_some.mp hk).2
  · intro k cpus other hk hne
    exact h.isolated k cpus other (HashMap.lookup_erase_eq_some.mp hk).2 hne

theorem isolationInv_shared (h : IsolationInv s) {key : ContainerKey}
    (hkey : s.manager.assignments.lookup key = none) :
    IsolationInv { s with shared := s.shared.insert key s.manager.sharedPool } := by
  refine ⟨h.static,h.partitioned,h.owned,?_,?_⟩
  · intro k cpus hk
    by_cases hkk : k = key
    · rw [hkk]
      exact hkey
    · rw [AList.lookup_insert_ne hkk] at hk
      exact h.apart k cpus hk
  · intro k cpus other hk hne
    by_cases hkk : k = key
    · subst hkk
      rw [AList.lookup_insert] at hk
      obtain rfl := Option.some.inj hk
      rw [Finset.disjoint_right]
      intro cpu hcpu
      have hassigned := s.manager.mem_exclusivelyAssigned.mpr ⟨other,hcpu⟩
      exact fun hpool => (Finset.mem_sdiff.mp hpool).2 hassigned
    · rw [AList.lookup_insert_ne hkk] at hk
      exact h.isolated k cpus other hk hne

theorem isolationInv_takeCpus (h : IsolationInv s) {n : ℕ}
    (hpart : (s.manager.takeCpus podUid containerName n).Partitioned)
    (hshared : ∀ e ∈ s.shared.entries, e.1 ≠ (podUid.val,containerName) →
      Disjoint e.2 (firsts n s.manager.availableCpus)) :
    IsolationInv { manager := s.manager.takeCpus podUid containerName n
                   shared := s.shared.erase (podUid.val,containerName) } := by
  refine ⟨h.static,hpart,?_,?_,?_⟩
  · intro k a hk
    by_cases hkk : k = (podUid.val,containerName)
    · subst hkk
      unfold CpuManager.takeCpus at hk
      rw [AList.lookup_insert] at hk
      obtain rfl := Option.some.inj hk
      rfl
    · unfold CpuManager.takeCpus at hk
      rw [AList.lookup_insert_ne hkk] at hk
      exact h.owned k a hk
  · intro k cpus hk
    obtain ⟨hne,hk⟩ := HashMap.lookup_erase_eq_some.mp hk
    unfold CpuManager.takeCpus
    rw [AList.lookup_insert_ne hne]
    exact h.apart k cpus hk
  · intro k cpus other hk hne
    obtain ⟨hkey,hk⟩ := HashMap.lookup_erase_eq_some.mp hk
    dsimp only
    rw [CpuManager.exclusiveCpus_takeCpus]
    by_cases hother : other = (podUid.val,containerName)
    · subst hother
      rw [Function.update_self]
      exact hshared ⟨k,cpus⟩ (AList.mem_lookup_iff.mp hk) hkey
    · rw [Function.update_of_ne hother]
      exact h.isolated k cpus other hk hne

theorem isolationInv_release (h : IsolationInv s) :
    IsolationInv { manager := s.manager.release podUid containerName
                   shared := s.shared.erase (podUid.val,containerName) } := by
  have hsame := CpuManager.sameNode_step s.manager (.release podUid containerName)
  have hlookup (k : ContainerKey) : (s.manager.release podUid containerName).assignments.lookup k =
      (s.manager.assignments.erase (podUid.val,containerName)).lookup k := by
    unfold CpuManager.release
    cases hkey : s.manager.assignments.lookup (podUid.val,containerName) with
    | some a => dsimp only; split <;> rfl
    | none =>
      by_cases hk : k = (podUid.val,containerName)
      · subst hk
        rw [AList.lookup_erase,hkey]
      · rw [AList.lookup_erase_ne hk]
  refine ⟨hsame.policy.trans h.static,
    CpuManager.partitioned_step h.partitioned (.release podUid containerName),?_,?_,?_⟩
  · intro k a hk
    rw [hlookup] at hk
    by_cases hkk : k = (podUid.val,containerName)
    · rw [hkk,AList.lookup_erase] at hk
      cases hk
    · rw [AList.lookup_erase_ne hkk] at hk
      exact h.owned k a hk
  · intro k cpus hk
    obtain ⟨hne,hk⟩ := HashMap.lookup_erase_eq_some.mp hk
    dsimp only
    rw [hlookup,AList.lookup_erase_ne hne]
    exact h.apart k cpus hk
  · intro k cpus other hk hne
    dsimp only
    rw [CpuManager.exclusiveCpus_release]
    by_cases hother : other = (podUid.val,containerName)
    · subst hother
      rw [Function.update_self]
      exact Finset.disjoint_empty_right _
    · rw [Function.update_of_ne hother]
      exact h.isolated k cpus other (HashMap.lookup_erase_eq_some.mp hk).2 hne

theorem isolationInv_step {t : CpuHistory} {call : CpuManagerCall} (h : IsolationInv s)
    (hok : KeepsIsolation s call) (hs : s.step call = some t) : IsolationInv t := by
  cases call with
  | assign podUid containerName qos request =>
    obtain rfl := Option.some.inj hs
    have hpart := CpuManager.partitioned_step h.partitioned (.assign podUid containerName qos request)
    change (s.manager.assign podUid containerName qos request).2.Partitioned at hpart
    have hcases := s.manager.assigns podUid containerName qos request
    generalize s.manager.assign podUid containerName qos request = r at hpart hcases
    unfold CpuHistory.answered
    cases hcases with
    | unmanaged hpolicy =>
      rw [h.static] at hpolicy
      cases hpolicy
    | repeated _ hkey =>
      dsimp only
      rw [hkey,if_pos Option.isSome_some]
      exact isolationInv_erase h _
    | shared _ hkey _ =>
      dsimp only
      rw [hkey,if_neg (by decide)]
      exact isolationInv_shared h hkey
    | refused => exact h
    | exclusive _ hkey hrequest hcard =>
      have hsome : ((s.manager.takeCpus podUid containerName (request / 1000)).assignments.lookup
          (podUid.val,containerName)).isSome = true := by
        unfold CpuManager.takeCpus
        rw [AList.lookup_insert]
        rfl
      dsimp only
      rw [if_pos hsome]
      exact isolationInv_takeCpus h hpart (hok.2 ⟨hkey,hrequest,hcard⟩).2
  | release podUid containerName =>
    obtain rfl := Option.some.inj hs
    exact isolationInv_release h

end Steps

def CpuHistory.start (total reserved : CpuSet) : CpuHistory where
  manager := .new "static" total reserved

theorem isolationInv_start (total reserved : CpuSet) : IsolationInv (.start total reserved) := by
  refine ⟨rfl,CpuManager.partitioned_new "static" total reserved,?_,?_,?_⟩
  · intro key a h
    cases h
  · intro key cpus h
    cases h
  · intro key cpus other h
    cases h

/-- In a run that keeps isolation no shared answer of a live container meets the exclusive
set of another one, and every answer is usable. -/
theorem cpus_isolated {total reserved : CpuSet} {calls : List CpuManagerCall} {s : CpuHistory}
    (hr : Runs (Guarded KeepsIsolation (ofStep CpuHistory.step)) (.start total reserved) calls s) :
    CpusIsolated s ∧ ∀ podUid containerName qos request,
      KeepsIsolation s (.assign podUid containerName qos request) →
        AnswersUsable s podUid containerName qos request := by
  have hinv : IsolationInv s :=
    hr.invariant (fun _ _ _ h hs => isolationInv_step h hs.1 hs.2) (isolationInv_start total reserved)
  exact ⟨hinv.isolated,fun _ _ _ _ hok => answersUsable hinv hok⟩

/-- Two exclusive containers, and one that shares what is left. -/
def isolatingCalls : List CpuManagerCall :=
  [.assign ⟨"a"⟩ "app" .guaranteed 1000,.assign ⟨"b"⟩ "app" .guaranteed 2000,.assign ⟨"c"⟩ "app" .burstable 250,
   .release ⟨"a"⟩ "app"]

theorem cpus_isolated_of_three : ∃ s, s.shared.lookup ("c","app") = some {3} ∧ CpusIsolated s := by
  have hexec : ((exec (guardedStep KeepsIsolation CpuHistory.step) (.start {0,1,2,3} ∅) isolatingCalls).map
      (fun s => s.shared.lookup ("c","app"))) = some (some {3}) := by
    decide +kernel
  obtain ⟨s,hs,hshared⟩ := Option.map_eq_some_iff.mp hexec
  exact ⟨s,hshared,(cpus_isolated (guarded_of_exec hs)).1⟩

/-- A burstable container is told to run on every CPU of the node; the exclusive assignment
that follows takes one of them. A guaranteed container that requests nothing gets no CPU. -/
theorem not_cpusIsolated :
    (∃ s, Runs (ofStep CpuHistory.step) (.start {0,1} ∅)
      [.assign ⟨"a"⟩ "app" .burstable 250,.assign ⟨"b"⟩ "app" .guaranteed 1000] s ∧ ¬ CpusIsolated s) ∧
    ¬ AnswersUsable (.start {0,1} ∅) ⟨"a"⟩ "app" .guaranteed 0 := by
  constructor
  · have hexec : ((exec CpuHistory.step (.start {0,1} ∅)
        [.assign ⟨"a"⟩ "app" .burstable 250,.assign ⟨"b"⟩ "app" .guaranteed 1000]).map
        (fun s => (s.shared.lookup ("a","app"),s.manager.exclusiveCpus ("b","app")))) =
        some (some {0,1},{0}) := by
      decide +kernel
    obtain ⟨s,hs,heq⟩ := Option.map_eq_some_iff.mp hexec
    refine ⟨s,runs_of_exec hs,?_⟩
    intro h
    obtain ⟨hshared,hheld⟩ := Prod.mk.inj heq
    have hdisjoint := h ("a","app") {0,1} ("b","app") hshared (by decide)
    rw [hheld] at hdisjoint
    exact absurd hdisjoint (by decide)
  · intro h
    have hempty := h ∅ 0 (by decide +kernel) (by decide +kernel) (fun key _ => by
      rw [exclusiveCpus_of_lookup rfl]
      exact Finset.notMem_empty 0)
    exact absurd hempty (by decide)

end KubeAir.Adapters
