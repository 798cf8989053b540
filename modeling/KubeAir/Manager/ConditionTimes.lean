import KubeAir.Adapters.NodeConditions
import KubeAir.Manager.StatusCoherence
import KubeAir.Transition.Stamps

/-! # Transition times of conditions

When the last transition time of a condition follows its status: the conditions of a pod over
its status passes, and those of the node over the reports of its pressure.
-/
namespace KubeAir.Manager.ConditionTimes
open Core Transition Worker Worker.Readiness StatusCoherence Adapters

/-! ## Conditions of a pod -/

/-- The status of a condition with the time of its last transition. -/
def stampOf (t : PodConditionType) (ls : PodLifecycleState) : Option (ConditionStatus × Option DateTime) :=
  (ls.conditions.find? (fun c => c.conditionType = t)).map (fun c => (c.status,c.lastTransitionTime))

/-- One pass of `update_pod_status`. -/
def pass (ls : PodLifecycleState) (r : StatusReport) : PodLifecycleState := r.stored ls

def toStatus (ready : Bool) : ConditionStatus := if ready then .true else .false

/-- All containers of a report are ready. -/
def reportReady (r : StatusReport) : Bool := sidecarsReady r.pod r.initStatuses && r.statuses.all (·.ready)

/-- The pod is initialized once the report is in. -/
def reportInitialized (ls : PodLifecycleState) (r : StatusReport) : Bool :=
  (putCondition (readyCondition .containersReady (reportReady r) r.writtenAt)
    (initializedConditions r.pod r.initStatuses ls.conditions)).any
      (fun c => c.conditionType = .initialized && c.status = .true)

/-- What the init containers of a report make of the status of `Initialized`. -/
def initializedBy (r : StatusReport) (status : ConditionStatus) : ConditionStatus :=
  if r.pod.initContainers.isEmpty then status
  else if status = .true then .true
  else toStatus (r.initStatuses.all (·.state.isSucceeded))

/-- The statuses of a pass change where the clock has moved, and nowhere else. `Initialized`, whose
time the pass keeps, is true already, or there are no init containers, or it is false and one of them has
not succeeded. -/
structure Timely (ls : PodLifecycleState) (r : StatusReport) : Prop where
  containersReady : Due (stampOf .containersReady ls) (toStatus (reportReady r)) (some r.writtenAt)
  ready : Due (stampOf .ready ls) (toStatus (reportReady r && reportInitialized ls r)) (some r.writtenAt)
  initialized : ∀ p, stampOf .initialized ls = some p → p.1 = .true ∨ r.pod.initContainers = [] ∨
    p.1 = .false ∧ ∃ s ∈ r.initStatuses, s.state.isSucceeded = false

variable {ls : PodLifecycleState} {r : StatusReport} {t : PodConditionType}

theorem initializedBy_eq_self_iff {status : ConditionStatus} : initializedBy r status = status ↔
    status = .true ∨ r.pod.initContainers = [] ∨ status = .false ∧ ∃ s ∈ r.initStatuses, s.state.isSucceeded = false := by
  unfold initializedBy
  by_cases hpod : r.pod.initContainers = []
  · simp [hpod]
  · by_cases htrue : status = .true
    · simp [htrue]
    · rw [if_neg (by rwa [List.isEmpty_iff]),if_neg htrue,or_iff_right htrue,or_iff_right hpod]
      unfold toStatus
      cases hall : r.initStatuses.all (·.state.isSucceeded) with
      | true =>
        have hnone : ¬∃ s ∈ r.initStatuses, s.state.isSucceeded = false := by simpa using hall
        exact iff_of_false (fun h => htrue h.symm) fun h => hnone h.2
      | false =>
        have hsome : ∃ s ∈ r.initStatuses, s.state.isSucceeded = false := by simpa using hall
        exact ⟨fun h => ⟨h.symm,hsome⟩,fun h => h.1.symm⟩

/-- The conditions that a pass stores, before `Ready`. -/
def readinessConditions (ls : PodLifecycleState) (r : StatusReport) : List PodCondition :=
  putCondition (readyCondition .containersReady (reportReady r) r.writtenAt)
    (initializedConditions r.pod r.initStatuses ls.conditions)

theorem conditions_pass : (pass ls r).conditions =
    putCondition (readyCondition .ready (reportReady r && reportInitialized ls r) r.writtenAt)
      (readinessConditions ls r) := rfl

theorem stampOf_ready : stampOf .ready (pass ls r) =
    some (toStatus (reportReady r && reportInitialized ls r),some r.writtenAt) := by
  unfold stampOf
  rw [conditions_pass]
  have hfind : (putCondition (readyCondition .ready (reportReady r && reportInitialized ls r) r.writtenAt)
      (readinessConditions ls r)).find? (fun c => c.conditionType = .ready) =
        some (readyCondition .ready (reportReady r && reportInitialized ls r) r.writtenAt) :=
    find?_putCondition_self (readyCondition .ready _ _)
  exact congrArg (Option.map _) hfind

theorem stampOf_containersReady : stampOf .containersReady (pass ls r) =
    some (toStatus (reportReady r),some r.writtenAt) := by
  unfold stampOf
  have hfind : (readinessConditions ls r).find? (fun c => c.conditionType = .containersReady) =
      some (readyCondition .containersReady (reportReady r) r.writtenAt) :=
    find?_putCondition_self (readyCondition .containersReady _ _)
  rw [conditions_pass,find?_putCondition_ne PodConditionType.noConfusion]
  exact congrArg (Option.map _) hfind

theorem find?_pass (hready : t ≠ .ready) (hcontainers : t ≠ .containersReady) :
    (pass ls r).conditions.find? (fun c => c.conditionType = t) =
      (initializedConditions r.pod r.initStatuses ls.conditions).find? (fun c => c.conditionType = t) := by
  rw [conditions_pass,find?_putCondition_ne hready,readinessConditions,find?_putCondition_ne hcontainers]

theorem incomplete_isEmpty (statuses : List ContainerStatus) :
    ((statuses.filter (fun s => !s.state.isSucceeded)).map (·.name)).isEmpty = statuses.all (·.state.isSucceeded) := by
  induction statuses with
  | nil => rfl
  | cons s statuses ih =>
    cases hs : s.state.isSucceeded with
    | true =>
      rw [List.filter_cons_of_neg (by rw [hs]; decide),ih,List.all_cons,hs,Bool.true_and]
    | false =>
      rw [List.filter_cons_of_pos (by rw [hs]; rfl),List.all_cons,hs,Bool.false_and]
      rfl

/-- What a pass makes of the condition `Initialized`. -/
def markInitialized (r : StatusReport) (c : PodCondition) : PodCondition :=
  if c.status = .true then c
  else if r.initStatuses.all (·.state.isSucceeded) then { c with status := .true, reason := none, message := none }
  else
    { c with
      status := .false
      reason := some "ContainersNotInitialized"
      message := some ("containers with incomplete status: [" ++
        String.intercalate " " ((r.initStatuses.filter (fun s => !s.state.isSucceeded)).map (·.name)) ++ "]") }

theorem initializedConditions_eq (conditions : List PodCondition) (hpod : ¬r.pod.initContainers.isEmpty = true) :
    initializedConditions r.pod r.initStatuses conditions =
      modifyCondition .initialized (markInitialized r) conditions := by
  unfold initializedConditions
  rw [if_neg hpod]
  dsimp only
  rw [incomplete_isEmpty]
  rfl

theorem markInitialized_type (c : PodCondition) : (markInitialized r c).conditionType = c.conditionType := by
  unfold markInitialized
  split
  · rfl
  · split <;> rfl

theorem markInitialized_stamp (c : PodCondition) (hpod : ¬r.pod.initContainers.isEmpty = true) :
    ((markInitialized r c).status,(markInitialized r c).lastTransitionTime) =
      (initializedBy r c.status,c.lastTransitionTime) := by
  unfold markInitialized initializedBy toStatus
  rw [if_neg hpod]
  by_cases hc : c.status = .true
  · rw [if_pos hc,if_pos hc,hc]
  · rw [if_neg hc,if_neg hc]
    cases r.initStatuses.all (·.state.isSucceeded) <;> rfl

/-- A pass keeps the time of `Initialized`. -/
theorem stampOf_initialized : stampOf .initialized (pass ls r) =
    (stampOf .initialized ls).map (fun p => (initializedBy r p.1,p.2)) := by
  unfold stampOf
  rw [find?_pass PodConditionType.noConfusion PodConditionType.noConfusion,Option.map_map]
  by_cases hpod : r.pod.initContainers.isEmpty = true
  · unfold initializedConditions
    rw [if_pos hpod]
    refine congrArg (fun f => Option.map f _) (funext (fun c => ?_))
    simp only [Function.comp_apply,initializedBy,hpod,if_true]
  · rw [initializedConditions_eq _ hpod,find?_modifyCondition_self (fun c hc => (markInitialized_type c).trans hc),
      Option.map_map]
    exact congrArg (fun f => Option.map f _) (funext (fun c => markInitialized_stamp c hpod))

theorem stampOf_other (hready : t ≠ .ready) (hcontainers : t ≠ .containersReady) (hinitialized : t ≠ .initialized) :
    stampOf t (pass ls r) = stampOf t ls := by
  unfold stampOf
  rw [find?_pass hready hcontainers]
  by_cases hpod : r.pod.initContainers.isEmpty = true
  · unfold initializedConditions
    rw [if_pos hpod]
  · rw [initializedConditions_eq _ hpod,
      find?_modifyCondition_ne hinitialized (fun c hc => (markInitialized_type c).trans hc)]

/-- The times of all conditions are right after a pass when it was timely. -/
theorem tracks_pass_iff : (∀ t, Tracks (stampOf t ls) (stampOf t (pass ls r))) ↔ Timely ls r := by
  constructor
  · intro h
    have hready := h .ready
    have hcontainers := h .containersReady
    have hinitialized := h .initialized
    rw [stampOf_ready,tracks_some] at hready
    rw [stampOf_containersReady,tracks_some] at hcontainers
    rw [stampOf_initialized,tracks_map] at hinitialized
    exact ⟨hcontainers,hready,fun p hp => initializedBy_eq_self_iff.mp (hinitialized p hp)⟩
  · intro h t
    by_cases hready : t = .ready
    · subst hready
      rw [stampOf_ready,tracks_some]
      exact h.ready
    · by_cases hcontainers : t = .containersReady
      · subst hcontainers
        rw [stampOf_containersReady,tracks_some]
        exact h.containersReady
      · by_cases hinitialized : t = .initialized
        · subst hinitialized
          rw [stampOf_initialized,tracks_map]
          exact fun p hp => initializedBy_eq_self_iff.mpr (h.initialized p hp)
        · rw [stampOf_other hready hcontainers hinitialized]
          exact tracks_refl _

/-! ## Conditions of the node -/

def nodeStampOf (t : NodeConditionType) (status : NodeStatus) : Option (NodeConditionStatus × DateTime) :=
  (status.condition t).map (fun c => (c.status,c.lastTransitionTime))

/-- A reading of the pressure on the node, and when it is reported. -/
structure PressureReport where
  pressure : Pressure.PressureConditions
  now : DateTime

def report (status : NodeStatus) (p : PressureReport) : NodeStatus := applyPressureConditions status p.pressure p.now

def toNodeStatus (pressure : Bool) : NodeConditionStatus := if pressure then .true else .false

/-- The pressure changes where the clock has moved, and nowhere else. -/
structure PressureTimely (status : NodeStatus) (p : PressureReport) : Prop where
  memory : Due (nodeStampOf .memoryPressure status) (toNodeStatus p.pressure.memoryPressure) p.now
  disk : Due (nodeStampOf .diskPressure status) (toNodeStatus p.pressure.diskPressure) p.now
  pid : Due (nodeStampOf .pidPressure status) (toNodeStatus p.pressure.pidPressure) p.now

variable {status : NodeStatus} {p : PressureReport}

theorem tracks_report_iff :
    (∀ t, Tracks (nodeStampOf t status) (nodeStampOf t (report status p))) ↔ PressureTimely status p := by
  have hstamp : ∀ t c, (report status p).condition t = some c →
      nodeStampOf t (report status p) = some (c.status,c.lastTransitionTime) := by
    intro t c hc
    unfold nodeStampOf
    rw [hc,Option.map_some]
  have hmemory := hstamp .memoryPressure _ (condition_applyPressure _)
  have hdisk := hstamp .diskPressure _ (condition_applyPressure _)
  have hpid := hstamp .pidPressure _ (condition_applyPressure _)
  constructor
  · intro h
    exact
      { memory := tracks_some.mp (hmemory ▸ h .memoryPressure)
        disk := tracks_some.mp (hdisk ▸ h .diskPressure)
        pid := tracks_some.mp (hpid ▸ h .pidPressure) }
  · intro h t
    cases t with
    | memoryPressure => exact hmemory ▸ tracks_some.mpr h.memory
    | diskPressure => exact hdisk ▸ tracks_some.mpr h.disk
    | pidPressure => exact hpid ▸ tracks_some.mpr h.pid
    | ready =>
      have hsame : nodeStampOf .ready (report status p) = nodeStampOf .ready status :=
        congrArg (Option.map _) (condition_applyPressure .ready)
      exact hsame ▸ tracks_refl _
    | networkUnavailable =>
      have hsame : nodeStampOf .networkUnavailable (report status p) = nodeStampOf .networkUnavailable status :=
        congrArg (Option.map _) (condition_applyPressure .networkUnavailable)
      exact hsame ▸ tracks_refl _

/-! ## Runs -/

/-- Over a run of passes, and of reports, the times are right after each step exactly when each
step is timely. -/
theorem transitionTimes_iff (ls : PodLifecycleState) (passes : List StatusReport) (status : NodeStatus)
    (reports : List PressureReport) :
    ((∀ t, EachStep pass (fun ls r => Tracks (stampOf t ls) (stampOf t (pass ls r))) ls passes) ↔
        EachStep pass Timely ls passes) ∧
      ((∀ t, EachStep report (fun s p => Tracks (nodeStampOf t s) (nodeStampOf t (report s p))) status reports) ↔
        EachStep report PressureTimely status reports) := by
  constructor
  · rw [forall_eachStep]
    exact eachStep_congr (fun _ _ => tracks_pass_iff)
  · rw [forall_eachStep]
    exact eachStep_congr (fun _ _ => tracks_report_iff)

/-! ## A second look at the same pod -/

/-- A report about a pod without containers. -/
def emptyReport (now : DateTime) : StatusReport where
  pod :=
    { uid := ⟨"u"⟩
      podRef := ⟨"default","web"⟩ }
  initStatuses := []
  statuses := []
  ephemeralStatuses := []
  writtenAt := now
  counted := rfl
  running := fun _ h => absurd h List.not_mem_nil

/-- A second pass finds the containers ready as before and moves the time, and so does a second
report without pressure. -/
theorem second_pass_moves_time :
    stampOf .containersReady (pass {} (emptyReport 0)) = some (.true,some 0) ∧
      stampOf .containersReady (pass (pass {} (emptyReport 0)) (emptyReport 1)) = some (.true,some 1) ∧
      nodeStampOf .memoryPressure (report {} ⟨{},0⟩) = some (.false,0) ∧
      nodeStampOf .memoryPressure (report (report {} ⟨{},0⟩) ⟨{},1⟩) = some (.false,1) ∧
      ¬EachStep pass (fun ls r => Tracks (stampOf .containersReady ls) (stampOf .containersReady (pass ls r))) {}
        [emptyReport 0,emptyReport 1] ∧
      ¬EachStep report (fun s p => Tracks (nodeStampOf .memoryPressure s) (nodeStampOf .memoryPressure (report s p))) {}
        [⟨{},0⟩,⟨{},1⟩] := by
  refine ⟨rfl,rfl,rfl,rfl,?_,?_⟩
  · rintro ⟨-,h,-⟩
    exact (h (.true,some 0) (.true,some 1) rfl rfl).mp (by decide) rfl
  · rintro ⟨-,h,-⟩
    exact (h (.false,0) (.false,1) rfl rfl).mp (by decide) rfl

end KubeAir.Manager.ConditionTimes
