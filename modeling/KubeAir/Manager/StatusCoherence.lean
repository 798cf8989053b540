import KubeAir.Core.Phase
import KubeAir.Manager.HostPort
import KubeAir.Manager.SyncModel
import KubeAir.Worker.Readiness
import KubeAir.Worker.StatusWriters

/-! # Coherent statuses

The writers of the status store: the entry of a new pod, the writes of the passes, the
rejection of a host port and the eviction. A writer stores what it makes of a state that it
has read, while others may write in between.
-/
namespace KubeAir.Manager.StatusCoherence
open Core Transition Worker Worker.Readiness

/-! ## Conditions -/

/-- The status of the first condition of a type. -/
def statusOf (conditions : List PodCondition) (t : PodConditionType) : Option ConditionStatus :=
  (conditions.find? (fun c => c.conditionType = t)).map (·.status)

/-- No two conditions are of one type. -/
def Distinct (conditions : List PodCondition) : Prop := (conditions.map (·.conditionType)).Nodup

section Conditions
variable {conditions : List PodCondition} {t t' : PodConditionType} {f : PodCondition → PodCondition}

theorem map_modifyCondition (hf : ∀ c, c.conditionType = t → (f c).conditionType = t) :
    (modifyCondition t f conditions).map (·.conditionType) = conditions.map (·.conditionType) := by
  induction conditions with
  | nil => rfl
  | cons c conditions ih =>
    unfold modifyCondition
    split
    · next hc => rw [List.map_cons,List.map_cons,hf c hc,hc]
    · rw [List.map_cons,List.map_cons,ih]

theorem Distinct.modifyCondition (h : Distinct conditions) (hf : ∀ c, c.conditionType = t → (f c).conditionType = t) :
    Distinct (modifyCondition t f conditions) := by
  unfold Distinct
  rw [map_modifyCondition hf]
  exact h

/-- A condition of a type that is not there yet is added at the end. -/
theorem Distinct.concat (h : Distinct conditions) {c : PodCondition}
    (hc : ∀ d ∈ conditions, d.conditionType ≠ c.conditionType) : Distinct (conditions ++ [c]) := by
  unfold Distinct
  rw [List.map_append,List.map_singleton]
  refine List.nodup_append.mpr ⟨h,List.nodup_singleton _,?_⟩
  intro u hu v hv
  obtain ⟨d,hd,rfl⟩ := List.mem_map.mp hu
  obtain rfl := List.mem_singleton.mp hv
  exact hc d hd

theorem Distinct.putCondition (h : Distinct conditions) (c : PodCondition) :
    Distinct (putCondition c conditions) := by
  unfold Worker.putCondition
  split
  · exact h.modifyCondition fun _ _ => rfl
  · next hany =>
    refine h.concat ?_
    intro d hd heq
    exact hany (List.any_eq_true.mpr ⟨d,hd,decide_eq_true heq⟩)

/-- The condition of a type put at the end. -/
theorem Distinct.moved (h : Distinct conditions) {p : PodCondition → Bool} {c : PodCondition}
    (hp : ∀ d, p d = true ↔ d.conditionType ≠ c.conditionType) : Distinct (conditions.filter p ++ [c]) := by
  have hfiltered : Distinct (conditions.filter p) := h.sublist (List.Sublist.map _ List.filter_sublist)
  refine hfiltered.concat ?_
  intro d hd
  exact (hp d).mp (List.mem_filter.mp hd).2

theorem statusOf_modifyCondition_ne (h : t' ≠ t) (hf : ∀ c, c.conditionType = t → (f c).conditionType = t) :
    statusOf (modifyCondition t f conditions) t' = statusOf conditions t' := by
  unfold statusOf
  rw [find?_modifyCondition_ne h hf]

theorem find?_modifyCondition_self (hf : ∀ c, c.conditionType = t → (f c).conditionType = t) :
    (modifyCondition t f conditions).find? (fun c => c.conditionType = t) =
      (conditions.find? (fun c => c.conditionType = t)).map f := by
  induction conditions with
  | nil => rfl
  | cons c conditions ih =>
    unfold modifyCondition
    by_cases hc : c.conditionType = t
    · rw [if_pos hc,List.find?_cons_of_pos (by simpa using hf c hc),List.find?_cons_of_pos (by simpa using hc)]
      rfl
    · rw [if_neg hc,List.find?_cons_of_neg (by simpa using hc),List.find?_cons_of_neg (by simpa using hc),ih]

theorem statusOf_putCondition_self (c : PodCondition) :
    statusOf (putCondition c conditions) c.conditionType = some c.status := by
  unfold statusOf
  rw [find?_putCondition_self]
  rfl

theorem statusOf_putCondition_ne {c : PodCondition} (h : t ≠ c.conditionType) :
    statusOf (putCondition c conditions) t = statusOf conditions t := by
  unfold statusOf
  rw [find?_putCondition_ne h]

theorem statusOf_putReady (t : PodConditionType) (ready : Bool) (now : DateTime) :
    statusOf (putCondition (readyCondition t ready now) conditions) t = some (if ready then .true else .false) :=
  statusOf_putCondition_self (readyCondition t ready now)

theorem statusOf_moved {p : PodCondition → Bool} {c : PodCondition}
    (hp : ∀ d, p d = true ↔ d.conditionType ≠ c.conditionType) (h : t ≠ c.conditionType) :
    statusOf (conditions.filter p ++ [c]) t = statusOf conditions t := by
  have hfilter : (conditions.filter p).find? (fun d => d.conditionType = t) =
      conditions.find? (fun d => d.conditionType = t) := by
    rw [List.find?_filter]
    congr 1
    funext d
    by_cases hd : d.conditionType = t
    · have hkept : p d = true := (hp d).mpr (hd ▸ h)
      simp [hd,hkept]
    · simp [hd]
  have hlast : [c].find? (fun d => d.conditionType = t) = none := by
    rw [List.find?_cons_of_neg (by simpa using h.symm),List.find?_nil]
  unfold statusOf
  rw [List.find?_append,hlast,Option.or_none,hfilter]

/-- Among distinct conditions, one that is True is the one of its type. -/
theorem any_true_iff (h : Distinct conditions) :
    conditions.any (fun c => c.conditionType = t && c.status = .true) = true ↔ statusOf conditions t = some .true := by
  unfold statusOf
  induction conditions with
  | nil => simp
  | cons c conditions ih =>
    obtain ⟨hne,hrest⟩ := List.nodup_cons.mp h
    rw [List.any_cons,Bool.or_eq_true,ih hrest]
    by_cases hc : c.conditionType = t
    · rw [List.find?_cons_of_pos (by simpa using hc)]
      have hnone : conditions.find? (fun c => c.conditionType = t) = none := by
        refine List.find?_eq_none.mpr ?_
        intro d hd heq
        exact hne (List.mem_map.mpr ⟨d,hd,(of_decide_eq_true heq).trans hc.symm⟩)
      simp [hnone,hc]
    · rw [List.find?_cons_of_neg (by simpa using hc)]
      simp [hc]

end Conditions

/-! ## The law -/

def IsInitialized (ls : PodLifecycleState) : Prop := statusOf ls.conditions .initialized = some .true

def IsReady (ls : PodLifecycleState) : Prop := statusOf ls.conditions .ready = some .true

/-- A pod that is ready is initialized, its containers are ready and it is not over. -/
structure Coherent (ls : PodLifecycleState) : Prop where
  initialized : IsReady ls → IsInitialized ls
  containersReady : IsReady ls → statusOf ls.conditions .containersReady = some .true
  phase : IsReady ls → ¬ ls.phase.IsTerminal

instance (ls : PodLifecycleState) : Decidable (IsInitialized ls) := inferInstanceAs (Decidable (_ = _))

instance (ls : PodLifecycleState) : Decidable (IsReady ls) := inferInstanceAs (Decidable (_ = _))

/-! ## Writers -/

inductive StatusWriter
  | pass (write : PassWrite)
  | rejectPodAdmission (message : String) (now : DateTime)
  | evictPod (message : String) (now : DateTime)

namespace StatusWriter

def result : StatusWriter → PodLifecycleState → PodLifecycleState
  | .pass write, ls => write.result ls
  | .rejectPodAdmission message now, ls => rejectedState ls message now
  | .evictPod message now, ls => evictedState ls message now

/-- What is stored after the given state was read, if anything is. -/
def apply (writer : StatusWriter) (read : Option PodLifecycleState) : Option PodLifecycleState :=
  match writer with
  | .pass write => write.apply read
  | _ => some (writer.result (read.getD {}))

end StatusWriter

/-- The manager rejects a pod by a write of the state that is stored. -/
theorem status_rejectPodAdmission (m : PodManager) (pod : PodSpec) (message : String) (now : DateTime) :
    ∃ st, (StatusWriter.rejectPodAdmission message now).apply (m.status.get pod.uid) = some st ∧
      (rejectPodAdmission m pod message now).status = m.status.set pod.uid st :=
  ⟨_,rfl,rfl⟩

/-- The manager evicts a pod by a write of the state that is stored. -/
theorem status_evictPod (s : ManagerState) {uid : PodUID} {pod : PodSpec} (hpod : s.podManager.get uid = some pod)
    (message : String) (gracePeriod : ℕ) (now : DateTime) :
    ∃ st, (StatusWriter.evictPod message now).apply (s.podManager.status.get uid) = some st ∧
      (s.evictPod uid message gracePeriod now).podManager.status = s.podManager.status.set uid st := by
  refine ⟨_,rfl,?_⟩
  unfold ManagerState.evictPod
  rw [hpod]
  rfl

structure StatusStore where
  status : PodStatusManager := ∅
  /-- what the writers have read and not written back yet -/
  reads : HashMap ℕ (PodUID × Option PodLifecycleState) := ∅

inductive StatusAction
  | initializePod (pod : PodSpec) (now : DateTime)
  | seedStartTime (uid : PodUID) (startTime : DateTime)
  /-- writer `i` reads the state of a pod -/
  | get (i : ℕ) (uid : PodUID)
  /-- writer `i` stores what it makes of the state it has read -/
  | set (i : ℕ) (writer : StatusWriter)

/-- A start time is only set where there is none. -/
def seedStartTime (m : PodStatusManager) (uid : PodUID) (startTime : DateTime) : PodStatusManager :=
  match m.get uid with
  | some ls => if ls.startTime.isNone then m.set uid { ls with startTime := some startTime } else m
  | none => m

def StatusStore.step (s : StatusStore) : StatusAction → Option StatusStore
  | .initializePod pod now => some { s with status := s.status.initializePod pod now }
  | .seedStartTime uid startTime => some { s with status := seedStartTime s.status uid startTime }
  | .get i uid => some { s with reads := s.reads.insert i (uid,s.status.get uid) }
  | .set i writer =>
    match s.reads.lookup i with
    | none => none
    | some (uid,read) =>
      match writer.apply read with
      | none => some s
      | some st => some { s with status := s.status.set uid st }

/-- Every stored state is coherent, and no pod goes back to not being initialized. -/
def KeepsStatus (s t : StatusStore) : Prop :=
  ∀ uid, (∀ ls ∈ t.status.get uid, Coherent ls) ∧
    ∀ ls ∈ s.status.get uid, IsInitialized ls → ∃ ls' ∈ t.status.get uid, IsInitialized ls'

/-! ## The condition -/

/-- The write turns the Initialized condition True, whatever it was. -/
def StatusWriter.Initializes : StatusWriter → PodLifecycleState → Prop
  | .pass (.markInitialized _), _ => True
  | .pass (.updatePodStatus report), ls =>
    report.pod.initContainers ≠ [] ∧ statusOf ls.conditions .initialized ≠ none ∧
      ∀ cs ∈ report.initStatuses, cs.state.isSucceeded = true
  | _, _ => False

/-- A pod that is ready is not made Failed. -/
def StatusWriter.Careful : StatusWriter → PodLifecycleState → Prop
  | .pass .initFailed, ls | .rejectPodAdmission .., ls | .evictPod .., ls => ¬ IsReady ls
  | .pass (.updatePodStatus report), ls =>
    ¬ (report.pod.containers = [] ∧ InitFailed report.initStatuses report.pod.restartPolicy ∧
      sidecarsReady report.pod report.initStatuses = true ∧ IsInitialized ls)
  | _, _ => True

/-- The condition on a step. A pod with init containers is entered only while it is not
initialized, nobody makes a ready pod Failed, and nobody writes back a state that was read before
the pod was initialized, unless the write says so itself. -/
def KeepsCondition (s : StatusStore) : StatusAction → Prop
  | .initializePod pod _ => pod.initContainers = [] ∨ ∀ ls ∈ s.status.get pod.uid, ¬ IsInitialized ls
  | .set i writer => ∀ p ∈ s.reads.lookup i, (writer.apply p.2).isSome = true →
      writer.Careful (p.2.getD {}) ∧
        ((∃ ls ∈ s.status.get p.1, IsInitialized ls) → IsInitialized (p.2.getD {}) ∨ writer.Initializes (p.2.getD {}))
  | _ => True

/-! ## What a write keeps -/

/-- Only conditions that no law is about differ. -/
def Kept (ls st : PodLifecycleState) : Prop :=
  ∀ t, t ≠ .podScheduled → t ≠ .disruptionTarget → statusOf st.conditions t = statusOf ls.conditions t

section Writes
variable {ls st : PodLifecycleState}

theorem Kept.isReady (h : Kept ls st) : IsReady st ↔ IsReady ls := by
  unfold IsReady
  rw [h .ready (by decide) (by decide)]

theorem Kept.isInitialized (h : Kept ls st) : IsInitialized st ↔ IsInitialized ls := by
  unfold IsInitialized
  rw [h .initialized (by decide) (by decide)]

theorem Kept.coherent (h : Kept ls st) (hls : Coherent ls) (hphase : IsReady ls → ¬ st.phase.IsTerminal) :
    Coherent st := by
  refine ⟨?_,?_,?_⟩
  · intro hready
    exact h.isInitialized.mpr (hls.initialized (h.isReady.mp hready))
  · intro hready
    rw [h .containersReady (by decide) (by decide)]
    exact hls.containersReady (h.isReady.mp hready)
  · intro hready
    exact hphase (h.isReady.mp hready)

/-- A write that makes the pod Failed and touches no readiness. -/
theorem Kept.coherent_failed (h : Kept ls st) (hls : Coherent ls) (hphase : st.phase = .failed) :
    ¬ IsReady ls ↔ Coherent st := by
  constructor
  · intro hready
    exact h.coherent hls fun hr => absurd hr hready
  · intro hst hready
    exact hst.phase (h.isReady.mpr hready) (.inr hphase)

theorem conditions_pullErrorState (pullError : Option (String × String)) :
    (PassWrite.pullErrorState pullError ls).conditions = ls.conditions := by
  cases pullError with
  | none => rfl
  | some e =>
    unfold PassWrite.pullErrorState markImagePullError
    dsimp only
    split
    · rfl
    · split <;> rfl

theorem phase_pullErrorState (pullError : Option (String × String)) :
    (PassWrite.pullErrorState pullError ls).phase = ls.phase := by
  cases pullError with
  | none => rfl
  | some e => exact markImagePullError_phase e.1 e.2 ls

theorem kept_unscheduled (reason message : String) (pullError : Option (String × String)) (now : DateTime) :
    Kept ls (PassWrite.pullErrorState pullError (unscheduledState ls reason message now)) := by
  intro t hscheduled _
  rw [conditions_pullErrorState]
  refine statusOf_moved ?_ hscheduled
  intro d
  simp

theorem kept_rejected (message : String) (now : DateTime) : Kept ls (rejectedState ls message now) := by
  intro t hscheduled _
  refine statusOf_moved ?_ hscheduled
  intro d
  simp

theorem kept_evicted (message : String) (now : DateTime) : Kept ls (evictedState ls message now) := by
  intro t _ hdisruption
  refine statusOf_moved ?_ hdisruption
  intro d
  simp

theorem distinct_initializedConditions {conditions : List PodCondition} (pod : PodSpec)
    (initStatuses : List ContainerStatus) (h : Distinct conditions) :
    Distinct (initializedConditions pod initStatuses conditions) := by
  unfold initializedConditions
  split
  · exact h
  · refine h.modifyCondition ?_
    intro c hc
    split
    · exact hc
    · split
      · exact hc
      · exact hc

/-- The Initialized condition is True if it was, or if every init container has succeeded. -/
theorem initialized_initializedConditions (pod : PodSpec) (initStatuses : List ContainerStatus)
    (conditions : List PodCondition) :
    statusOf (initializedConditions pod initStatuses conditions) .initialized = some .true ↔
      statusOf conditions .initialized = some .true ∨
        pod.initContainers ≠ [] ∧ statusOf conditions .initialized ≠ none ∧
          ∀ cs ∈ initStatuses, cs.state.isSucceeded = true := by
  have hincomplete : ((initStatuses.filter (fun cs => !cs.state.isSucceeded)).map (·.name)).isEmpty = true ↔
      ∀ cs ∈ initStatuses, cs.state.isSucceeded = true := by
    rw [List.isEmpty_iff,List.map_eq_nil_iff,List.filter_eq_nil_iff]
    refine forall₂_congr ?_
    intro cs _
    simp
  unfold initializedConditions
  split
  · next hempty => simp [List.isEmpty_iff.mp hempty]
  · next hne =>
    have hinits : pod.initContainers ≠ [] := fun h => hne (List.isEmpty_iff.mpr h)
    unfold statusOf
    rw [find?_modifyCondition_self]
    · cases conditions.find? (fun c => c.conditionType = .initialized) with
      | none => simp
      | some c =>
        rw [Option.map_some,Option.map_some,Option.map_some]
        by_cases hc : c.status = .true
        · simp [hc]
        · by_cases hall : ∀ cs ∈ initStatuses, cs.state.isSucceeded = true
          · simp only [hc,hincomplete.mpr hall,↓reduceIte]
            simpa using Or.inr ⟨hinits,hall⟩
          · have hfalse : ((initStatuses.filter (fun cs => !cs.state.isSucceeded)).map (·.name)).isEmpty = false :=
              Bool.eq_false_iff.mpr fun h => hall (hincomplete.mp h)
            simp only [hc,hfalse,hall]
            simp [hc]
    · intro c hc
      split
      · exact hc
      · split
        · exact hc
        · exact hc

section Reports
variable (r : StatusReport)

theorem isInitialized_stored : IsInitialized (r.stored ls) ↔
    IsInitialized ls ∨ (StatusWriter.pass (.updatePodStatus r)).Initializes ls := by
  unfold IsInitialized StatusReport.stored derivedState
  dsimp only
  rw [statusOf_putCondition_ne (by simp [readyCondition]),statusOf_putCondition_ne (by simp [readyCondition])]
  exact initialized_initializedConditions r.pod r.initStatuses ls.conditions

theorem distinct_stored (h : Distinct ls.conditions) : Distinct (r.stored ls).conditions :=
  ((distinct_initializedConditions r.pod r.initStatuses h).putCondition _).putCondition _

/-- A stored report says Ready when every container is ready and the pod is initialized. -/
theorem isReady_stored (h : Distinct ls.conditions) : IsReady (r.stored ls) ↔
    sidecarsReady r.pod r.initStatuses = true ∧ r.statuses.all (·.ready) = true ∧ IsInitialized (r.stored ls) := by
  have hdistinct := (distinct_initializedConditions r.pod r.initStatuses h).putCondition
    (readyCondition .containersReady (sidecarsReady r.pod r.initStatuses && r.statuses.all (·.ready)) r.writtenAt)
  have hinitialized : IsInitialized (r.stored ls) ↔ _ :=
    (Eq.congr_left (statusOf_putCondition_ne (by simp [readyCondition]))).trans (any_true_iff hdistinct).symm
  rw [hinitialized]
  refine (Eq.congr_left (statusOf_putReady .ready _ r.writtenAt)).trans ?_
  cases sidecarsReady r.pod r.initStatuses with
  | false => simp
  | true =>
    cases r.statuses.all (·.ready) with
    | false => simp
    | true => simp

theorem containersReady_stored : statusOf (r.stored ls).conditions .containersReady = some .true ↔
    sidecarsReady r.pod r.initStatuses = true ∧ r.statuses.all (·.ready) = true :=
  containersReady_derivedState r.pod ls r.initStatuses r.statuses r.ephemeralStatuses r.writtenAt

/-- A report of a ready pod shows a running container, if the pod has app containers at all. -/
theorem phase_stored (h : r.statuses.all (·.ready) = true) :
    (r.stored ls).phase.IsTerminal ↔ r.pod.containers = [] ∧ InitFailed r.initStatuses r.pod.restartPolicy := by
  have hphase : (r.stored ls).phase = computePodPhase r.initStatuses r.statuses r.pod.restartPolicy := rfl
  rw [hphase]
  cases hstatuses : r.statuses with
  | nil =>
    have hnone : r.pod.containers = [] := by
      have hcounted := r.counted
      rw [hstatuses] at hcounted
      exact List.length_eq_zero_iff.mp hcounted.symm
    rw [computePodPhase_of_not_active rfl]
    unfold InitFailed
    cases hscan : scanInitStatuses r.pod.restartPolicy r.initStatuses with
    | none => simp [hnone,settledPhase,PodPhase.IsTerminal]
    | some phase =>
      have hne : phase ≠ .succeeded := by
        rintro rfl
        exact scanInitStatuses_ne_succeeded hscan
      simp [hnone,PodPhase.IsTerminal,hne]
  | cons cs rest =>
    have hcs : cs ∈ r.statuses := by
      rw [hstatuses]
      exact List.mem_cons_self
    have hrunning := r.running cs hcs (List.all_eq_true.mp h cs hcs)
    have hactive : anyActive (cs :: rest) = true := by
      unfold anyActive
      rw [List.any_cons,hrunning]
      rfl
    have hsome : r.pod.containers ≠ [] := by
      intro hnone
      have hcounted := r.counted
      rw [hstatuses,hnone] at hcounted
      cases hcounted
    rw [computePodPhase_of_active hactive]
    simp [hsome,PodPhase.IsTerminal]

/-- While an init container has failed for good, a report does not turn Initialized True. -/
theorem not_initializes_of_initFailed (h : InitFailed r.initStatuses r.pod.restartPolicy) :
    ¬ (StatusWriter.pass (.updatePodStatus r)).Initializes ls := by
  rintro ⟨-,-,hall⟩
  obtain ⟨-,before,cs,after,heq,-,hfailed⟩ := initFailed_iff.mp h
  have hcs : cs ∈ r.initStatuses := by
    rw [heq]
    exact List.mem_append_right _ List.mem_cons_self
  rw [ContainerState.isFailed_of_isSucceeded (hall cs hcs)] at hfailed
  cases hfailed

/-- A report is coherent by itself, save for a pod without app containers. -/
theorem careful_updatePodStatus (h : Distinct ls.conditions) :
    (StatusWriter.pass (.updatePodStatus r)).Careful ls ↔ Coherent (r.stored ls) := by
  constructor
  · intro hcareful
    refine ⟨?_,?_,?_⟩
    · intro hready
      exact ((isReady_stored r h).mp hready).2.2
    · intro hready
      obtain ⟨hsidecars,happs,-⟩ := (isReady_stored r h).mp hready
      exact (containersReady_stored r).mpr ⟨hsidecars,happs⟩
    · intro hready hterminal
      obtain ⟨hsidecars,happs,hinitialized⟩ := (isReady_stored r h).mp hready
      obtain ⟨hnone,hfailed⟩ := (phase_stored r happs).mp hterminal
      rcases (isInitialized_stored r).mp hinitialized with hinitialized | hinitializes
      · exact hcareful ⟨hnone,hfailed,hsidecars,hinitialized⟩
      · exact not_initializes_of_initFailed r hfailed hinitializes
  · rintro hcoherent ⟨hnone,hfailed,hsidecars,hinitialized⟩
    have happs : r.statuses.all (·.ready) = true := by
      have hcounted := r.counted
      rw [hnone] at hcounted
      rw [List.length_eq_zero_iff.mp hcounted]
      rfl
    have hready := (isReady_stored r h).mpr ⟨hsidecars,happs,(isInitialized_stored r).mpr (.inl hinitialized)⟩
    exact hcoherent.phase hready ((phase_stored r happs).mpr ⟨hnone,hfailed⟩)

end Reports

theorem coherent_of_not_ready (h : ¬ IsReady ls) : Coherent ls :=
  ⟨fun hready => absurd hready h,fun hready => absurd hready h,fun hready => absurd hready h⟩

theorem not_isReady_exceeded (now : DateTime) : ¬ IsReady (PassWrite.exceededState ls now) := by
  unfold IsReady statusOf PassWrite.exceededState
  dsimp only
  rw [find?_modifyCondition_self]
  · cases ls.conditions.find? (fun c => c.conditionType = .ready) with
    | none => simp
    | some c => simp
  · exact fun _ hc => hc

theorem isInitialized_exceeded (now : DateTime) : IsInitialized (PassWrite.exceededState ls now) ↔ IsInitialized ls := by
  unfold IsInitialized PassWrite.exceededState
  dsimp only
  rw [statusOf_modifyCondition_ne (by decide)]
  exact fun _ hc => hc

theorem isInitialized_initializedState (h : PassWrite.initializedKnown ls = false) (now : DateTime) :
    IsInitialized (PassWrite.initializedState ls now) := by
  have hunknown := of_decide_eq_false h
  unfold IsInitialized statusOf PassWrite.initializedState
  dsimp only
  rw [find?_modifyCondition_self]
  · cases hfind : ls.conditions.find? (fun c => c.conditionType = .initialized) with
    | none =>
      rw [hfind] at hunknown
      exact absurd rfl hunknown
    | some c => rfl
  · exact fun _ hc => hc

theorem coherent_initializedState (hls : Coherent ls) (h : PassWrite.initializedKnown ls = false) (now : DateTime) :
    Coherent (PassWrite.initializedState ls now) := by
  have hother {t : PodConditionType} (ht : t ≠ .initialized) :
      statusOf (PassWrite.initializedState ls now).conditions t = statusOf ls.conditions t :=
    statusOf_modifyCondition_ne ht fun _ hc => hc
  have hready : IsReady (PassWrite.initializedState ls now) ↔ IsReady ls := by
    unfold IsReady
    rw [hother (by decide)]
  refine ⟨fun _ => isInitialized_initializedState h now,?_,?_⟩
  · intro hr
    rw [hother (by decide)]
    exact hls.containersReady (hready.mp hr)
  · intro hr
    exact hls.phase (hready.mp hr)

/-! ## One write -/

section Writers
variable (writer : StatusWriter) {read : Option PodLifecycleState}

/-- The Initialized condition is only marked where it is known not to be True. -/
def StatusWriter.Applies : StatusWriter → PodLifecycleState → Prop
  | .pass (.markInitialized _), ls => PassWrite.initializedKnown ls = false
  | _, _ => True

theorem apply_eq_some (h : writer.apply read = some st) :
    st = writer.result (read.getD {}) ∧ writer.Applies (read.getD {}) := by
  have hmap {write : PassWrite} (h : read.map write.result = some st) : st = write.result (read.getD {}) := by
    obtain ⟨ls,rfl,rfl⟩ := Option.map_eq_some_iff.mp h
    rfl
  cases writer with
  | pass write =>
    cases write with
    | unscheduled reason message pullError now => exact ⟨hmap h,trivial⟩
    | addressed worker pod sandboxIp => exact ⟨hmap h,trivial⟩
    | updatePodStatus report => exact ⟨(Option.some.inj h).symm,trivial⟩
    | markInitialized now =>
      obtain ⟨ls,rfl,hls⟩ := Option.bind_eq_some_iff.mp h
      split at hls
      · cases hls
      · next hknown => exact ⟨(Option.some.inj hls).symm,Bool.eq_false_iff.mpr hknown⟩
    | initFailed => exact ⟨hmap h,trivial⟩
    | deadlineExceeded now => exact ⟨hmap h,trivial⟩
  | rejectPodAdmission message now => exact ⟨(Option.some.inj h).symm,trivial⟩
  | evictPod message now => exact ⟨(Option.some.inj h).symm,trivial⟩

theorem distinct_result (h : Distinct ls.conditions) : Distinct (writer.result ls).conditions := by
  cases writer with
  | pass write =>
    cases write with
    | unscheduled reason message pullError now =>
      change Distinct (PassWrite.pullErrorState pullError (unscheduledState ls reason message now)).conditions
      rw [conditions_pullErrorState]
      refine h.moved ?_
      intro d
      simp
    | addressed worker pod sandboxIp => exact h
    | updatePodStatus report => exact distinct_stored report h
    | markInitialized now => exact h.modifyCondition fun _ hc => hc
    | initFailed => exact h
    | deadlineExceeded now => exact h.modifyCondition fun _ hc => hc
  | rejectPodAdmission message now =>
    refine h.moved ?_
    intro d
    simp
  | evictPod message now =>
    refine h.moved ?_
    intro d
    simp

/-- What a write makes of the Initialized condition. -/
theorem isInitialized_result (happlies : writer.Applies ls) :
    IsInitialized (writer.result ls) ↔ IsInitialized ls ∨ writer.Initializes ls := by
  cases writer with
  | pass write =>
    cases write with
    | unscheduled reason message pullError now =>
      exact (kept_unscheduled reason message pullError now).isInitialized.trans (or_iff_left not_false).symm
    | addressed worker pod sandboxIp => exact (or_iff_left not_false).symm
    | updatePodStatus report => exact isInitialized_stored report
    | markInitialized now => exact iff_of_true (isInitialized_initializedState happlies now) (.inr trivial)
    | initFailed => exact (or_iff_left not_false).symm
    | deadlineExceeded now => exact (isInitialized_exceeded now).trans (or_iff_left not_false).symm
  | rejectPodAdmission message now => exact (kept_rejected message now).isInitialized.trans (or_iff_left not_false).symm
  | evictPod message now => exact (kept_evicted message now).isInitialized.trans (or_iff_left not_false).symm

/-- A write of a coherent state is careful exactly when it is coherent itself. -/
theorem careful_iff (h : Distinct ls.conditions) (hls : Coherent ls) (happlies : writer.Applies ls) :
    writer.Careful ls ↔ Coherent (writer.result ls) := by
  cases writer with
  | pass write =>
    cases write with
    | unscheduled reason message pullError now =>
      refine iff_of_true trivial ((kept_unscheduled reason message pullError now).coherent hls ?_)
      intro _
      rw [phase_pullErrorState]
      exact (by decide : ¬ PodPhase.pending.IsTerminal)
    | addressed worker pod sandboxIp => exact iff_of_true trivial ⟨hls.initialized,hls.containersReady,hls.phase⟩
    | updatePodStatus report => exact careful_updatePodStatus report h
    | markInitialized now => exact iff_of_true trivial (coherent_initializedState hls happlies now)
    | initFailed =>
      have hkept : Kept ls { ls with phase := .failed } := fun _ _ _ => rfl
      exact hkept.coherent_failed hls rfl
    | deadlineExceeded now => exact iff_of_true trivial (coherent_of_not_ready (not_isReady_exceeded now))
  | rejectPodAdmission message now => exact (kept_rejected message now).coherent_failed hls rfl
  | evictPod message now => exact (kept_evicted message now).coherent_failed hls rfl

end Writers
end Writes

/-! ## Runs -/

/-- What is known of a state that was stored. -/
structure Sound (ls : PodLifecycleState) : Prop where
  distinct : Distinct ls.conditions
  coherent : Coherent ls

structure StatusInv (s : StatusStore) : Prop where
  stored : ∀ uid, ∀ ls ∈ s.status.get uid, Sound ls
  read : ∀ i p, s.reads.lookup i = some p → ∀ ls ∈ p.2, Sound ls

theorem statusInv_initial : StatusInv {} := by
  refine ⟨?_,?_⟩
  · intro uid ls h
    cases h
  · intro i p h
    cases h

/-- Before the first write there is the default state. -/
theorem sound_getD {read : Option PodLifecycleState} (h : ∀ ls ∈ read, Sound ls) : Sound (read.getD {}) := by
  cases read with
  | some ls => exact h ls rfl
  | none => exact ⟨List.nodup_nil,coherent_of_not_ready (by decide)⟩

section Steps
variable {s t : StatusStore}

theorem keepsStatus_same (h : StatusInv s) (ht : t.status = s.status) : KeepsStatus s t := by
  intro uid
  rw [ht]
  exact ⟨fun ls hls => (h.stored uid ls hls).coherent,fun ls hls hinitialized => ⟨ls,hls,hinitialized⟩⟩

/-- A write keeps the law when the state it stores is coherent and initialized if the old one was. -/
theorem keepsStatus_set (h : StatusInv s) {uid : PodUID} {st : PodLifecycleState}
    (ht : t.status = s.status.set uid st) : KeepsStatus s t ↔
      Coherent st ∧ ((∃ ls ∈ s.status.get uid, IsInitialized ls) → IsInitialized st) := by
  constructor
  · intro hkeeps
    obtain ⟨hcoherent,hinitialized⟩ := hkeeps uid
    rw [ht,PodStatusManager.get_set] at hcoherent hinitialized
    refine ⟨hcoherent st rfl,?_⟩
    rintro ⟨ls,hls,hi⟩
    obtain ⟨st',⟨⟩,hst'⟩ := hinitialized ls hls hi
    exact hst'
  · rintro ⟨hcoherent,hinitialized⟩ u
    rw [ht]
    by_cases hu : u = uid
    · subst hu
      rw [PodStatusManager.get_set]
      refine ⟨?_,fun ls hls hi => ⟨st,rfl,hinitialized ⟨ls,hls,hi⟩⟩⟩
      rintro ls ⟨⟩
      exact hcoherent
    · rw [PodStatusManager.get_set_ne _ hu]
      exact ⟨fun ls hls => (h.stored u ls hls).coherent,fun ls hls hi => ⟨ls,hls,hi⟩⟩

theorem isInitialized_initialState (m : PodStatusManager) (pod : PodSpec) (now : DateTime) :
    IsInitialized (m.initialState pod now) ↔ pod.initContainers = [] := by
  unfold IsInitialized statusOf PodStatusManager.initialState
  cases hinits : pod.initContainers with
  | nil => simp
  | cons ctr rest => simp

theorem sound_initialState (m : PodStatusManager) (pod : PodSpec) (now : DateTime) :
    Sound (m.initialState pod now) := by
  refine ⟨?_,coherent_of_not_ready ?_⟩
  · unfold Distinct PodStatusManager.initialState
    simp
  · unfold IsReady statusOf PodStatusManager.initialState
    simp

/-- A start time is no condition. -/
theorem keepsStatus_seedStartTime (h : StatusInv s) (uid : PodUID) (startTime : DateTime) :
    KeepsStatus s { s with status := seedStartTime s.status uid startTime } ∧
      StatusInv { s with status := seedStartTime s.status uid startTime } := by
  unfold seedStartTime
  cases hget : s.status.get uid with
  | none => exact ⟨keepsStatus_same h rfl,h⟩
  | some ls =>
    dsimp only
    split
    · have hls := h.stored uid ls hget
      have hcoherent : Coherent { ls with startTime := some startTime } :=
        ⟨hls.coherent.initialized,hls.coherent.containersReady,hls.coherent.phase⟩
      refine ⟨(keepsStatus_set h rfl).mpr ⟨hcoherent,?_⟩,?_,h.read⟩
      · rintro ⟨ls',hls',hi⟩
        rw [hget] at hls'
        obtain rfl := Option.some.inj hls'
        exact hi
      · intro u st hst
        by_cases hu : u = uid
        · subst hu
          rw [PodStatusManager.get_set] at hst
          obtain rfl := Option.some.inj hst
          exact ⟨hls.distinct,hcoherent⟩
        · rw [PodStatusManager.get_set_ne _ hu] at hst
          exact h.stored u st hst
    · exact ⟨keepsStatus_same h rfl,h⟩

theorem keepsCondition_initializePod_iff (h : StatusInv s) (pod : PodSpec) (now : DateTime) :
    KeepsCondition s (.initializePod pod now) ↔ KeepsStatus s { s with status := s.status.initializePod pod now } := by
  have hset : KeepsStatus s { s with status := s.status.initializePod pod now } ↔
      Coherent (s.status.initialState pod now) ∧ ((∃ ls ∈ s.status.get pod.uid, IsInitialized ls) →
        IsInitialized (s.status.initialState pod now)) := keepsStatus_set h rfl
  refine Iff.trans ?_ hset.symm
  rw [isInitialized_initialState]
  constructor
  · rintro (hnone | hnot)
    · exact ⟨(sound_initialState s.status pod now).coherent,fun _ => hnone⟩
    · refine ⟨(sound_initialState s.status pod now).coherent,?_⟩
      rintro ⟨ls,hls,hi⟩
      exact absurd hi (hnot ls hls)
  · rintro ⟨-,himp⟩
    by_cases hex : ∃ ls ∈ s.status.get pod.uid, IsInitialized ls
    · exact .inl (himp hex)
    · exact .inr fun ls hls hi => hex ⟨ls,hls,hi⟩

theorem keepsCondition_set_iff {i : ℕ} {writer : StatusWriter} (h : StatusInv s) (hs : s.step (.set i writer) = some t) :
    KeepsCondition s (.set i writer) ↔ KeepsStatus s t := by
  simp only [StatusStore.step] at hs
  cases hread : s.reads.lookup i with
  | none =>
    rw [hread] at hs
    cases hs
  | some p =>
    obtain ⟨uid,read⟩ := p
    rw [hread] at hs
    dsimp only at hs
    have hsound := sound_getD (h.read i (uid,read) hread)
    have hcondition : KeepsCondition s (.set i writer) ↔ ((writer.apply read).isSome = true →
        writer.Careful (read.getD {}) ∧ ((∃ ls ∈ s.status.get uid, IsInitialized ls) →
          IsInitialized (read.getD {}) ∨ writer.Initializes (read.getD {}))) := by
      constructor
      · exact fun hk => hk (uid,read) hread
      · rintro hk p hp
        obtain rfl : (uid,read) = p := Option.some.inj (hread.symm.trans hp)
        exact hk
    rw [hcondition]
    cases hst : writer.apply read with
    | none =>
      rw [hst] at hs
      obtain rfl := Option.some.inj hs
      exact iff_of_true (fun hsome => nomatch hsome) (keepsStatus_same h rfl)
    | some st =>
      rw [hst] at hs
      obtain rfl := Option.some.inj hs
      obtain ⟨rfl,happlies⟩ := apply_eq_some writer hst
      rw [keepsStatus_set h rfl,isInitialized_result writer happlies,
        careful_iff writer hsound.distinct hsound.coherent happlies]
      simp

/-- The condition on a step says exactly when the step keeps the law. -/
theorem keepsCondition_iff {a : StatusAction} (h : StatusInv s) (hs : s.step a = some t) :
    KeepsCondition s a ↔ KeepsStatus s t := by
  cases a with
  | initializePod pod now =>
    obtain rfl := Option.some.inj hs
    exact keepsCondition_initializePod_iff h pod now
  | seedStartTime uid startTime =>
    obtain rfl := Option.some.inj hs
    exact iff_of_true trivial (keepsStatus_seedStartTime h uid startTime).1
  | get i uid =>
    obtain rfl := Option.some.inj hs
    exact iff_of_true trivial (keepsStatus_same h rfl)
  | set i writer => exact keepsCondition_set_iff h hs

/-- What is known of the stored states is known after a step that keeps the law. -/
theorem statusInv_step {a : StatusAction} (h : StatusInv s) (hs : s.step a = some t) (hkeeps : KeepsStatus s t) :
    StatusInv t := by
  have hset {uid : PodUID} {st : PodLifecycleState} (hdistinct : Distinct st.conditions)
      (ht : t = { s with status := s.status.set uid st }) : StatusInv t := by
    subst ht
    refine ⟨?_,h.read⟩
    intro u ls hls
    refine ⟨?_,(hkeeps u).1 ls hls⟩
    by_cases hu : u = uid
    · subst hu
      rw [PodStatusManager.get_set] at hls
      obtain rfl := Option.some.inj hls
      exact hdistinct
    · rw [PodStatusManager.get_set_ne _ hu] at hls
      exact (h.stored u ls hls).distinct
  cases a with
  | initializePod pod now =>
    obtain rfl := Option.some.inj hs
    exact hset (sound_initialState s.status pod now).distinct rfl
  | seedStartTime uid startTime =>
    obtain rfl := Option.some.inj hs
    exact (keepsStatus_seedStartTime h uid startTime).2
  | get i uid =>
    obtain rfl := Option.some.inj hs
    refine ⟨h.stored,?_⟩
    intro j p hj ls hls
    rcases HashMap.lookup_insert_eq_some.mp hj with ⟨-,rfl⟩ | ⟨-,hold⟩
    · exact h.stored uid ls hls
    · exact h.read j p hold ls hls
  | set i writer =>
    simp only [StatusStore.step] at hs
    split at hs
    · cases hs
    · next uid read hread =>
      split at hs
      · obtain rfl := Option.some.inj hs
        exact h
      · next st hst =>
        obtain ⟨rfl,-⟩ := apply_eq_some writer hst
        have hsound := sound_getD (h.read i (uid,read) hread)
        exact hset (distinct_result writer hsound.distinct) (Option.some.inj hs).symm

end Steps

/-- A run in which every stored state is coherent and no pod goes back to not being initialized. -/
def CoherentRun (w : List StatusAction) (t : StatusStore) : Prop :=
  Runs (fun s a t => ofStep StatusStore.step s a t ∧ KeepsStatus s t) {} w t

theorem CoherentRun.statusInv {w : List StatusAction} {t : StatusStore} (h : CoherentRun w t) : StatusInv t :=
  h.invariant (fun _ _ _ h hs => statusInv_step h hs.1 hs.2) statusInv_initial

/-- The coherent runs are the runs whose steps all meet the condition. -/
theorem coherentRun_iff (w : List StatusAction) (t : StatusStore) :
    CoherentRun w t ↔ Runs (Guarded KeepsCondition (ofStep StatusStore.step)) {} w t := by
  have hiff : ∀ s a t, StatusInv s → ofStep StatusStore.step s a t → (KeepsCondition s a ↔ KeepsStatus s t) :=
    fun _ _ _ h hs => keepsCondition_iff h hs
  have hinv : ∀ s a t, StatusInv s → ofStep StatusStore.step s a t → KeepsStatus s t → StatusInv t :=
    fun _ _ _ h hs hkeeps => statusInv_step h hs hkeeps
  exact (Runs.guarded_iff_lawful hiff hinv statusInv_initial).symm

section Examples

def webPod : PodSpec where
  uid := ⟨"u"⟩
  podRef := ⟨"default","web"⟩
  containers := [{ name := "web", image := "web:1" }]

/-- The one container runs and is ready. -/
def readyReport : StatusReport where
  pod := webPod
  initStatuses := []
  statuses := [{ name := "web", state := .running 0, ready := true }]
  ephemeralStatuses := []
  writtenAt := 1
  counted := rfl
  running := by decide

/-- A running pod is evicted. -/
def evictedRun : List StatusAction :=
  [.initializePod webPod 0,.get 0 ⟨"u"⟩,.set 0 (.pass (.updatePodStatus readyReport)),.get 1 ⟨"u"⟩,
   .set 1 (.evictPod "memory" 2)]

/-- The evicted pod is Failed and still Ready. -/
theorem evicted_pod_ready : ∃ t, Runs (ofStep StatusStore.step) {} evictedRun t ∧
    (∃ ls ∈ t.status.get ⟨"u"⟩, IsReady ls ∧ ls.phase = .failed ∧ ¬ Coherent ls) ∧ ¬ CoherentRun evictedRun t := by
  have hexec : ((exec StatusStore.step {} evictedRun).bind (fun t => (t.status.get ⟨"u"⟩).map
      (fun ls => (statusOf ls.conditions .ready,ls.phase)))) = some (some .true,.failed) := by
    decide +kernel
  obtain ⟨t,ht,hls⟩ := Option.bind_eq_some_iff.mp hexec
  obtain ⟨ls,hget,heq⟩ := Option.map_eq_some_iff.mp hls
  obtain ⟨hready,hphase⟩ := Prod.mk.inj heq
  have hnot : ¬ Coherent ls := fun h => h.phase hready (.inr hphase)
  exact ⟨t,runs_of_exec ht,⟨ls,hget,hready,hphase,hnot⟩,fun hr => hnot (hr.statusInv.stored _ ls hget).coherent⟩

end Examples

end KubeAir.Manager.StatusCoherence
