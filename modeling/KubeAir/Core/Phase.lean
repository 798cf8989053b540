import KubeAir.Core.Lifecycle
import Mathlib.Data.List.Perm.Basic

/-! # The phase computation

The init scan is decided by the first init container that has not succeeded, and the
rest of the computation by flags over the app containers that no order changes.
-/
namespace KubeAir.Core
variable {initStatuses statuses : List ContainerStatus} {restartPolicy : RestartPolicy}

/-- The phase an init container imposes that has not succeeded. -/
def blockedPhase (restartPolicy : RestartPolicy) (status : ContainerStatus) : PodPhase :=
  if status.state.isFailed && restartPolicy == .never then .failed else .pending

theorem scanInitStatuses_eq (restartPolicy : RestartPolicy) (l : List ContainerStatus) :
    scanInitStatuses restartPolicy l =
      (l.find? (fun s => !s.state.isSucceeded)).map (blockedPhase restartPolicy) := by
  induction l with
  | nil => rfl
  | cons status rest ih =>
    unfold scanInitStatuses
    rw [List.find?_cons]
    cases hs : status.state with
    | waiting reason message => simp [blockedPhase,hs]
    | running startedAt => simp [blockedPhase,hs]
    | terminated code reason message startedAt finishedAt =>
      by_cases hcode : code = 0
      · simp [hcode,ih]
      · have hne : (code == 0) = false := by simpa using hcode
        cases restartPolicy <;> simp [blockedPhase,hs,hcode,hne]

theorem scanInitStatuses_eq_none :
    scanInitStatuses restartPolicy initStatuses = none ↔ ∀ s ∈ initStatuses, s.state.isSucceeded = true := by
  simp [scanInitStatuses_eq]

/-- Init containers that have succeeded do not decide the scan. -/
theorem scanInitStatuses_filter {α : Type*} (f : α → ContainerStatus) (keep : α → Bool) (l : List α)
    (h : ∀ x ∈ l, keep x = false → (f x).state.isSucceeded = true) :
    scanInitStatuses restartPolicy ((l.filter keep).map f) = scanInitStatuses restartPolicy (l.map f) := by
  rw [scanInitStatuses_eq,scanInitStatuses_eq]
  congr 1
  induction l with
  | nil => rfl
  | cons x rest ih =>
    have hrest := ih (fun y hy => h y (List.mem_cons_of_mem _ hy))
    cases hk : keep x with
    | true => simp [hk,List.find?_cons,hrest]
    | false => simp [hk,hrest,h x List.mem_cons_self hk]

/-- What the app containers alone say, once none of them runs and no init container blocks. -/
def settledPhase (statuses : List ContainerStatus) (restartPolicy : RestartPolicy) : PodPhase :=
  if statuses.all (fun s => s.state.isSucceeded) && !statuses.isEmpty then
    match restartPolicy with
    | .never | .onFailure => .succeeded
    | .always => .running
  else if statuses.any (fun s => s.state.isFailed) then
    match restartPolicy with
    | .never => .failed
    | _ => .running
  else .pending

/-- Some app container runs or waits for its restart. -/
def anyActive (statuses : List ContainerStatus) : Bool :=
  statuses.any (fun s => s.state.isRunning) || statuses.any (fun s => s.state.isCrashLoop)

theorem computePodPhase_of_active (h : anyActive statuses = true) :
    computePodPhase initStatuses statuses restartPolicy = .running := by
  unfold computePodPhase
  rcases Bool.or_eq_true_iff.mp h with hr | hc
  · simp only [hr,↓reduceIte]
  · simp only [hc,↓reduceIte,ite_self]

theorem computePodPhase_of_not_active (h : anyActive statuses = false) :
    computePodPhase initStatuses statuses restartPolicy =
      (scanInitStatuses restartPolicy initStatuses).getD (settledPhase statuses restartPolicy) := by
  obtain ⟨hr,hc⟩ := Bool.or_eq_false_iff.mp h
  unfold computePodPhase settledPhase
  simp only [hr,hc,Bool.false_eq_true,↓reduceIte]
  cases scanInitStatuses restartPolicy initStatuses <;> rfl

/-- The order in which the app containers are listed does not matter. -/
theorem computePodPhase_perm {statuses' : List ContainerStatus} (h : statuses.Perm statuses') :
    computePodPhase initStatuses statuses restartPolicy =
      computePodPhase initStatuses statuses' restartPolicy := by
  unfold computePodPhase
  rw [h.any_eq,h.any_eq,h.all_eq,h.any_eq,h.isEmpty_eq]

theorem settledPhase_eq_succeeded :
    settledPhase statuses restartPolicy = .succeeded ↔
      restartPolicy ≠ .always ∧ statuses ≠ [] ∧ ∀ s ∈ statuses, s.state.isSucceeded = true := by
  unfold settledPhase
  by_cases hall : (statuses.all (fun s => s.state.isSucceeded) && !statuses.isEmpty) = true
  · have hmem : statuses ≠ [] ∧ ∀ s ∈ statuses, s.state.isSucceeded = true := by
      simpa [and_comm] using hall
    rw [if_pos hall]
    cases restartPolicy with
    | always => simp
    | onFailure => simpa using hmem
    | never => simpa using hmem
  · have hmem : ¬ (statuses ≠ [] ∧ ∀ s ∈ statuses, s.state.isSucceeded = true) := by
      simpa [and_comm] using hall
    rw [if_neg hall]
    constructor
    · intro h
      split at h
      · cases restartPolicy <;> cases h
      · cases h
    · rintro ⟨-,h⟩
      exact (hmem h).elim

theorem settledPhase_eq_failed :
    settledPhase statuses restartPolicy = .failed ↔
      restartPolicy = .never ∧ ∃ s ∈ statuses, s.state.isFailed = true := by
  unfold settledPhase
  by_cases hall : (statuses.all (fun s => s.state.isSucceeded) && !statuses.isEmpty) = true
  · have hmem : ∀ s ∈ statuses, s.state.isSucceeded = true := by
      intro s hs
      exact List.all_eq_true.mp (Bool.and_eq_true_iff.mp hall).1 s hs
    rw [if_pos hall]
    constructor
    · intro h
      cases restartPolicy <;> cases h
    · rintro ⟨-,s,hs,hf⟩
      rw [ContainerState.isFailed_of_isSucceeded (hmem s hs)] at hf
      cases hf
  · rw [if_neg hall]
    by_cases hany : statuses.any (fun s => s.state.isFailed) = true
    · rw [if_pos hany]
      have hmem : ∃ s ∈ statuses, s.state.isFailed = true := List.any_eq_true.mp hany
      cases restartPolicy <;> simp [hmem]
    · rw [if_neg hany]
      have hmem : ¬ ∃ s ∈ statuses, s.state.isFailed = true := fun h => hany (List.any_eq_true.mpr h)
      simp [hmem]

theorem settledPhase_eq_pending :
    settledPhase statuses restartPolicy = .pending ↔
      (∀ s ∈ statuses, s.state.isFailed = false) ∧
        (statuses = [] ∨ ∃ s ∈ statuses, s.state.isSucceeded = false) := by
  unfold settledPhase
  by_cases hall : (statuses.all (fun s => s.state.isSucceeded) && !statuses.isEmpty) = true
  · have hmem : ¬ (statuses = [] ∨ ∃ s ∈ statuses, s.state.isSucceeded = false) := by
      simpa [and_comm] using hall
    rw [if_pos hall]
    constructor
    · intro h
      cases restartPolicy <;> cases h
    · rintro ⟨-,h⟩
      exact (hmem h).elim
  · have hmem : statuses = [] ∨ ∃ s ∈ statuses, s.state.isSucceeded = false := by
      by_contra hnone
      push Not at hnone
      simp only [Bool.not_eq_false] at hnone
      exact hall (by simpa [and_comm] using hnone)
    rw [if_neg hall]
    by_cases hany : statuses.any (fun s => s.state.isFailed) = true
    · rw [if_pos hany]
      obtain ⟨s,hs,hf⟩ := List.any_eq_true.mp hany
      constructor
      · intro h
        cases restartPolicy <;> cases h
      · rintro ⟨h,-⟩
        rw [h s hs] at hf
        cases hf
    · rw [if_neg hany]
      have hnone : ∀ s ∈ statuses, s.state.isFailed = false := by simpa using hany
      exact ⟨fun _ => ⟨hnone,hmem⟩,fun _ => rfl⟩

/-- The first init container that has not succeeded has failed for good. -/
def InitFailed (initStatuses : List ContainerStatus) (restartPolicy : RestartPolicy) : Prop :=
  scanInitStatuses restartPolicy initStatuses = some .failed

theorem scanInitStatuses_ne_succeeded : scanInitStatuses restartPolicy initStatuses ≠ some .succeeded := by
  rw [scanInitStatuses_eq]
  intro h
  obtain ⟨s,-,hs⟩ := Option.map_eq_some_iff.mp h
  unfold blockedPhase at hs
  split at hs <;> cases hs

/-- A failed init container is one that terminated with an error under `Never`. -/
theorem initFailed_iff : InitFailed initStatuses restartPolicy ↔
    restartPolicy = .never ∧
      ∃ before s after, initStatuses = before ++ s :: after ∧
        (∀ b ∈ before, b.state.isSucceeded = true) ∧ s.state.isFailed = true := by
  unfold InitFailed
  rw [scanInitStatuses_eq,Option.map_eq_some_iff]
  constructor
  · rintro ⟨s,hfind,hs⟩
    obtain ⟨-,before,after,rfl,hbefore⟩ := List.find?_eq_some_iff_append.mp hfind
    unfold blockedPhase at hs
    split at hs
    · next h =>
      obtain ⟨hf,hp⟩ := Bool.and_eq_true_iff.mp h
      exact ⟨eq_of_beq hp,before,s,after,rfl,by simpa using hbefore,hf⟩
    · cases hs
  · rintro ⟨rfl,before,s,after,rfl,hbefore,hf⟩
    have hs : s.state.isSucceeded = false := by
      cases h : s.state.isSucceeded with
      | false => rfl
      | true => rw [ContainerState.isFailed_of_isSucceeded h] at hf; cases hf
    refine ⟨s,List.find?_eq_some_iff_append.mpr ⟨by simp [hs],before,after,rfl,by simpa using hbefore⟩,?_⟩
    simp [blockedPhase,hf]

/-- A phase other than running is that of the init containers, or of the app containers after they have finished well. -/
theorem computePodPhase_idle {phase : PodPhase} (hne : phase ≠ .running)
    (h : computePodPhase initStatuses statuses restartPolicy = phase) : anyActive statuses = false ∧
      (scanInitStatuses restartPolicy initStatuses = some phase ∨
        (∀ s ∈ initStatuses, s.state.isSucceeded = true) ∧ settledPhase statuses restartPolicy = phase) := by
  cases hact : anyActive statuses with
  | true =>
    rw [computePodPhase_of_active hact] at h
    exact absurd h.symm hne
  | false =>
    rw [computePodPhase_of_not_active hact] at h
    cases hscan : scanInitStatuses restartPolicy initStatuses with
    | some phase' =>
      rw [hscan] at h
      exact ⟨rfl,.inl (congrArg some h)⟩
    | none =>
      rw [hscan] at h
      exact ⟨rfl,.inr ⟨scanInitStatuses_eq_none.mp hscan,h⟩⟩

/-- Succeeded is the phase of a pod all of whose containers have finished well. -/
theorem computePodPhase_eq_succeeded (h : computePodPhase initStatuses statuses restartPolicy = .succeeded) :
    restartPolicy ≠ .always ∧ statuses ≠ [] ∧ (∀ s ∈ initStatuses, s.state.isSucceeded = true) ∧
      ∀ s ∈ statuses, s.state.isSucceeded = true := by
  obtain ⟨-,hscan | ⟨hinit,hsettled⟩⟩ := computePodPhase_idle (by decide) h
  · exact (scanInitStatuses_ne_succeeded hscan).elim
  · obtain ⟨hp,hne,hall⟩ := settledPhase_eq_succeeded.mp hsettled
    exact ⟨hp,hne,hinit,hall⟩

/-- Failed is the phase of an idle pod that must not restart and has a failed container. -/
theorem computePodPhase_eq_failed (h : computePodPhase initStatuses statuses restartPolicy = .failed) :
    restartPolicy = .never ∧ anyActive statuses = false ∧
      (InitFailed initStatuses restartPolicy ∨
        (∀ s ∈ initStatuses, s.state.isSucceeded = true) ∧ ∃ s ∈ statuses, s.state.isFailed = true) := by
  obtain ⟨hact,hscan | ⟨hinit,hsettled⟩⟩ := computePodPhase_idle (by decide) h
  · exact ⟨(initFailed_iff.mp hscan).1,hact,.inl hscan⟩
  · obtain ⟨hp,hany⟩ := settledPhase_eq_failed.mp hsettled
    exact ⟨hp,hact,.inr ⟨hinit,hany⟩⟩

end KubeAir.Core
