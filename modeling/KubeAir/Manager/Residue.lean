import KubeAir.Manager.PipelineFrame

/-! # What a removed pod leaves behind

A removal takes the pod out of the desired set and its task out of the runtime state, but
neither touches the status store. A pod that comes back finds the start time it had.
-/
namespace KubeAir.Core
variable {m : PodManager} {pod : PodSpec} {uid : PodUID} {start : DateTime}

/-- The start time that is stored for a UID. -/
def PodManager.startTime (m : PodManager) (uid : PodUID) : Option DateTime := (m.status.get uid).bind (·.startTime)

namespace PodManager

theorem initialState_inheritAliases (status : PodStatusManager) (now : DateTime) :
    status.initialState (m.inheritAliases pod) now = status.initialState pod now := by
  unfold inheritAliases
  dsimp only
  split
  · split <;> rfl
  · rfl

/-- A pod that comes into the desired set is given its initial status. -/
theorem status_upsert_new (hnew : m.get pod.uid = none) (hstored : ¬ m.Merges pod) (now : DateTime) :
    (m.upsert pod now).2.status.get pod.uid = some (m.status.initialState pod now) := by
  have huid := inheritAliases_uid m pod
  rw [upsert_of_not_merges m pod hstored]
  unfold insertPod
  rw [huid,hnew]
  show (m.status.initializePod (m.inheritAliases pod) now).get pod.uid = _
  rw [← huid,PodStatusManager.get_initializePod,initialState_inheritAliases]

/-- The entry of a UID that was never seen, exactly when no other start time is stored. -/
theorem initialState_fresh_iff (hobserved : pod.observedStartTime = none) (now : DateTime) :
    m.status.initialState pod now = PodStatusManager.initialState ∅ pod now ↔
      m.startTime pod.uid = none ∨ m.startTime pod.uid = some now := by
  have hfresh : (PodStatusManager.initialState ∅ pod now).startTime = some now := by
    simp [PodStatusManager.initialState,hobserved]
  have hstart : (m.status.initialState pod now).startTime = (m.startTime pod.uid).or (some now) := by
    simp [PodStatusManager.initialState,PodManager.startTime,hobserved]
  constructor
  · intro hsame
    have htime := congrArg PodLifecycleState.startTime hsame
    rw [hfresh,hstart] at htime
    cases hstored : m.startTime pod.uid with
    | none => exact .inl rfl
    | some old =>
      rw [hstored] at htime
      exact .inr htime
  · intro hstored
    have htime : (m.status.initialState pod now).startTime = some now := by
      rw [hstart]
      rcases hstored with hnone | hnow
      · rw [hnone]
        rfl
      · rw [hnow]
        rfl
    have hrest : m.status.initialState pod now =
        { PodStatusManager.initialState ∅ pod now with startTime := (m.status.initialState pod now).startTime } := rfl
    rw [hrest,htime,← hfresh]

theorem startTime_upsert (h : m.startTime uid = some start) (pod : PodSpec) (now : DateTime) :
    (m.upsert pod now).2.startTime uid = some start := by
  rcases status_upsert_cases m pod uid now with hsame | ⟨rfl,hnew,hstored,-⟩
  · unfold startTime
    rw [hsame]
    exact h
  · unfold startTime
    rw [status_upsert_new hnew hstored now,Option.bind_some]
    show ((m.startTime pod.uid).or _) = some start
    rw [h]
    rfl

end PodManager
end KubeAir.Core

namespace KubeAir.Manager
open Core Transition

namespace ManagerState

/-- The pod is not desired, a deletion of its UID has run to its end, and it comes without a start time of its own
and under no other pod's name. -/
structure Readds (s : ManagerState) (pod : PodSpec) : Prop where
  gone : s.podManager.get pod.uid = none
  deleted : ∃ p, .cleanup .deletion p .exited ∈ s.tasks ∧ p.uid = pod.uid
  unobserved : pod.observedStartTime = none
  apart : ¬ s.podManager.Merges pod

/-- An upsert that brings a removed UID back stores what a UID never seen would get. -/
def StoresFresh (s : ManagerState) (a : ManagerAction) (t : ManagerState) : Prop :=
  ∀ pod now, a = .upsert pod now → s.Readds pod →
    t.podManager.status.get pod.uid = some (PodStatusManager.initialState ∅ pod now)

/-- An upsert that brings a removed UID back finds no start time, or one that is its own time. -/
def FindsNoStart (s : ManagerState) (a : ManagerAction) : Prop :=
  ∀ pod now, a = .upsert pod now → s.Readds pod →
    s.podManager.startTime pod.uid = none ∨ s.podManager.startTime pod.uid = some now

theorem storesFresh_iff {s t : ManagerState} {a : ManagerAction} (h : s.step a = some t) :
    StoresFresh s a t ↔ FindsNoStart s a := by
  have hpod (pod : PodSpec) (now : DateTime) (ha : a = .upsert pod now) (hreadds : s.Readds pod) :
      t.podManager.status.get pod.uid = some (PodStatusManager.initialState ∅ pod now) ↔
        s.podManager.startTime pod.uid = none ∨ s.podManager.startTime pod.uid = some now := by
    subst ha
    obtain rfl : { s with podManager := (s.podManager.upsert pod now).2 } = t := Option.some.inj h
    dsimp only
    rw [PodManager.status_upsert_new hreadds.gone hreadds.apart,Option.some_inj]
    exact PodManager.initialState_fresh_iff hreadds.unobserved now
  constructor
  · intro hfresh pod now ha hreadds
    exact (hpod pod now ha hreadds).mp (hfresh pod now ha hreadds)
  · intro hfinds pod now ha hreadds
    exact (hpod pod now ha hreadds).mpr (hfinds pod now ha hreadds)

/-- No step but a status write changes a start time that is stored. -/
theorem startTime_step {s t : ManagerState} {a : ManagerAction} {uid : PodUID} {start : DateTime}
    (h : s.step a = some t) (hstart : s.podManager.startTime uid = some start)
    (hreport : ∀ st, a = .report uid st → st.startTime = some start) : t.podManager.startTime uid = some start := by
  cases a with
  | upsert pod now =>
    obtain rfl := Option.some.inj h
    exact PodManager.startTime_upsert hstart pod now
  | remove u fallback now =>
    obtain rfl := Option.some.inj h
    show ((s.podManager.remove u fallback now).2.status.get uid).bind _ = _
    rw [PodManager.status_remove]
    exact hstart
  | syncPod pod =>
    obtain rfl := Option.some.inj h
    rw [podManager_syncPod]
    exact hstart
  | deletePod pod =>
    obtain rfl := Option.some.inj h
    exact hstart
  | evictPod u message gracePeriod now =>
    obtain rfl := Option.some.inj h
    unfold evictPod
    cases s.podManager.get u with
    | none => exact hstart
    | some pod =>
      show ((s.podManager.status.set u _).get uid).bind _ = some start
      by_cases hu : uid = u
      · subst hu
        rw [PodStatusManager.get_set,Option.bind_some]
        obtain ⟨ls,hls,hlsStart⟩ := Option.bind_eq_some_iff.mp hstart
        rw [hls]
        exact hlsStart
      · rw [PodStatusManager.get_set_ne _ hu]
        exact hstart
  | report u st =>
    obtain rfl := Option.some.inj h
    show ((s.podManager.status.set u st).get uid).bind _ = some start
    by_cases hu : uid = u
    · subst hu
      rw [PodStatusManager.get_set,Option.bind_some]
      exact hreport st rfl
    · rw [PodStatusManager.get_set_ne _ hu]
      exact hstart
  | run i =>
    rw [podManager_run h]
    exact hstart
  | passReturns i result state =>
    rw [podManager_passReturns h]
    exact hstart
  | pollDrain i expired =>
    rw [podManager_pollDrain h]
    exact hstart

theorem startTime_run {s t : ManagerState} {later : List ManagerAction} {uid : PodUID} {start : DateTime}
    (hr : Runs (ofStep step) s later t) (hstart : s.podManager.startTime uid = some start)
    (hreport : ∀ st, .report uid st ∈ later → st.startTime = some start) : t.podManager.startTime uid = some start := by
  induction hr with
  | nil s => exact hstart
  | cons hstep _ ih =>
    refine ih (startTime_step hstep hstart ?_) (fun st hst => hreport st (List.mem_cons_of_mem _ hst))
    rintro st rfl
    exact hreport st List.mem_cons_self

/-- The histories in which every pod that comes back is given a fresh entry are those in which each of them finds
no start time stored; and a start time that is stored outlives every removal and deletion, until a status write
changes it. -/
theorem readd_fresh_iff (w : List ManagerAction) (s : ManagerState) :
    (Runs (fun s a t => s.step a = some t ∧ StoresFresh s a t) {} w s ↔
      Runs (Guarded FindsNoStart (ofStep step)) {} w s) ∧
    ∀ uid start later t, Runs (ofStep step) s later t → s.podManager.startTime uid = some start →
      (∀ st, .report uid st ∈ later → st.startTime = some start) → t.podManager.startTime uid = some start := by
  refine ⟨⟨?_,?_⟩,fun _ _ _ _ hr hstart hreport => startTime_run hr hstart hreport⟩
  · exact Runs.mono (fun s a t h => ⟨(storesFresh_iff h.1).mp h.2,h.1⟩)
  · exact Runs.mono (fun s a t h => ⟨h.2,(storesFresh_iff h.2).mpr h.1⟩)

/-- A static pod with a deadline of a minute, the same for each poll of its file. -/
def deadlinePod : PodSpec where
  uid := ⟨"static"⟩
  podRef := { ns := "default", name := "job-node1" }
  activeDeadlineSeconds := some 60

/-- The pod is added, removed and deleted. -/
def removedHistory : List ManagerAction :=
  [.upsert deadlinePod 0,.remove ⟨"static"⟩ none 10,.deletePod deadlinePod,.run 0,.run 0,.pollDrain 0 false,.run 0,
   .run 0,.run 0,.run 0]

/-- Brought back at a later time, it has the start time of its first life. -/
theorem not_storesFresh : ∃ s t, Runs (ofStep step) {} removedHistory s ∧ s.Readds deadlinePod ∧
    s.step (.upsert deadlinePod 100) = some t ∧ t.podManager.startTime ⟨"static"⟩ = some 0 ∧
    ¬ StoresFresh s (.upsert deadlinePod 100) t := by
  have hrun : ∃ s, exec step {} removedHistory = some s ∧ s.podManager.get ⟨"static"⟩ = none ∧
      s.tasks = [.cleanup .deletion deadlinePod .exited] ∧ s.podManager.startTime ⟨"static"⟩ = some 0 :=
    ⟨_,rfl,by decide +kernel,rfl,by decide +kernel⟩
  obtain ⟨s,hexec,hget,htasks,hstart⟩ := hrun
  have hexited : .cleanup .deletion deadlinePod .exited ∈ s.tasks := by
    rw [htasks]
    exact List.mem_singleton_self _
  have hreadds : s.Readds deadlinePod := by
    refine ⟨hget,⟨deadlinePod,hexited,rfl⟩,rfl,?_⟩
    rintro ⟨-,haliases,-⟩
    exact haliases rfl
  have hupsert : s.step (.upsert deadlinePod 100) = some { s with podManager := (s.podManager.upsert deadlinePod 100).2 } :=
    rfl
  refine ⟨s,_,runs_of_exec hexec,hreadds,hupsert,PodManager.startTime_upsert hstart deadlinePod 100,?_⟩
  intro hfresh
  rcases (storesFresh_iff hupsert).mp hfresh deadlinePod 100 rfl hreadds with hnone | hnow
  · rw [show s.podManager.startTime deadlinePod.uid = some 0 from hstart] at hnone
    exact absurd hnone nofun
  · rw [show s.podManager.startTime deadlinePod.uid = some 0 from hstart] at hnow
    exact absurd hnow (by decide)

end ManagerState
end KubeAir.Manager
