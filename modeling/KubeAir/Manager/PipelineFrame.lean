import KubeAir.Manager.Pipeline
import KubeAir.Worker.StatusFrame

/-! # What a step of the pipeline touches

The manager inside the pipeline makes steps of its own machine, so what holds of every
run of the manager holds here. For one pod a step changes its stored status, the runtime
or the work of one task.
-/
namespace KubeAir.Manager
open Core Worker Transition

namespace ManagerState
variable {s t : ManagerState}

@[simp] theorem podManager_syncPod (pod : PodSpec) : (s.syncPod pod).podManager = s.podManager := by
  unfold syncPod
  split <;> rfl

@[simp] theorem podManager_plegEvent (uid : PodUID) : (s.plegEvent uid).podManager = s.podManager := by
  unfold plegEvent
  split
  · exact podManager_syncPod _
  · rfl

theorem podManager_run {i : ℕ} (h : s.step (.run i) = some t) : t.podManager = s.podManager := by
  unfold step at h
  dsimp only at h
  split at h
  · obtain ⟨r,-,rfl⟩ := Option.map_eq_some_iff.mp h
    rfl
  · next kind pod pc _ =>
    obtain ⟨r,-,rfl⟩ := Option.map_eq_some_iff.mp h
    cases pc <;> rfl
  · cases h

theorem podManager_passReturns {i : ℕ} {result : PodSyncResult} {state : PodRuntimeState}
    (h : s.step (.passReturns i result state) = some t) : t.podManager = s.podManager := by
  unfold step at h
  dsimp only at h
  split at h
  · obtain rfl := Option.some.inj h
    rfl
  · cases h

theorem podManager_pollDrain {i : ℕ} {expired : Bool} (h : s.step (.pollDrain i expired) = some t) :
    t.podManager = s.podManager := by
  unfold step at h
  dsimp only at h
  split at h
  · split at h
    · obtain rfl := Option.some.inj h
      rfl
    · obtain rfl := Option.some.inj h
      rfl
  · cases h

theorem pollDrain_task {i : ℕ} {expired : Bool} (h : s.step (.pollDrain i expired) = some t) :
    ∃ kind pod pc, t.tasks[i]? = some (.cleanup kind pod pc) := by
  unfold step at h
  dsimp only at h
  split at h
  · next kind pod hi =>
    split at h
    · obtain rfl := Option.some.inj h
      exact ⟨kind,pod,.draining,hi⟩
    · obtain rfl := Option.some.inj h
      exact ⟨kind,pod,.cleaning,List.getElem?_set_self (List.getElem?_eq_some_iff.mp hi).1⟩
  · cases h

/-- A task comes into the worker to sync a pod by taking the runtime state. -/
theorem run_syncing {i : ℕ} {v : PodUID} {pod : PodSpec} {state : PodRuntimeState}
    (h : s.step (.run i) = some t) (ht : t.tasks[i]? = some (.sync v pod (.syncing state))) :
    s.tasks[i]? = some (.sync v pod .takeState) ∧ state = (s.cell v).takenState := by
  unfold step at h
  dsimp only at h
  split at h
  · next uid pod' pc hi =>
    obtain ⟨⟨c,pod'',pc'⟩,hrun,rfl⟩ := Option.map_eq_some_iff.mp h
    have hset := (List.getElem?_eq_some_iff.mp hi).1
    change (s.tasks.set i _)[i]? = _ at ht
    rw [List.getElem?_set_self hset] at ht
    obtain ⟨rfl,rfl,rfl⟩ := ManagerTask.sync.inj (Option.some.inj ht)
    cases pc with
    | takeState =>
      obtain ⟨-,hpod,hstate⟩ := by simpa [runSync] using hrun
      exact ⟨by rw [hi,hpod],hstate.symm⟩
    | storeResult result st => cases result <;> cases hrun
    | checkPending =>
      unfold runSync at hrun
      dsimp only at hrun
      split at hrun <;> cases hrun
    | _ => cases hrun
  · next kind pod' pc hi =>
    obtain ⟨⟨c,pc'⟩,-,rfl⟩ := Option.map_eq_some_iff.mp h
    have hset := (List.getElem?_eq_some_iff.mp hi).1
    have htasks : (s.unmark pod' pc).tasks = s.tasks := by
      unfold unmark
      split <;> rfl
    change ((s.unmark pod' pc).tasks.set i _)[i]? = _ at ht
    rw [htasks,List.getElem?_set_self hset] at ht
    cases ht
  · cases h

end ManagerState

namespace Pipeline
variable {worker : PodWorker} {s t : Pipeline} {u v : PodUID} {i : ℕ}

/-! ## What a step can do -/

theorem step_run (h : s.step worker (.run i) = some t) : s.work.lookup i = none ∧
    ∃ m, s.manager.step (.run i) = some m ∧ t = ({ s with manager := m } : Pipeline).enter worker i := by
  unfold step at h
  dsimp only at h
  split at h
  · cases h
  · next hi =>
    obtain ⟨m,hm,rfl⟩ := Option.map_eq_some_iff.mp h
    exact ⟨hi,m,hm,rfl⟩

/-- An answer goes to a pass or to a teardown. -/
theorem step_reply {c : Choice} (h : s.step worker (.reply i c) = some t) :
    (∃ uid late op next b w, s.work.lookup i = some (.pass uid late (.call op next)) ∧
      (s.world uid).respond op c = some (b,w) ∧ t = (s.setWorld uid w).setWork i (.pass uid late (next b))) ∨
    ∃ uid op next b w, s.work.lookup i = some (.teardown uid (.call op next)) ∧
      (s.world uid).respond op c = some (b,w) ∧ t = (s.setWorld uid w).setWork i (.teardown uid (next b)) := by
  change s.reply i c = some t at h
  unfold reply at h
  split at h
  · next uid late op next hi =>
    obtain ⟨⟨b,w⟩,hrespond,rfl⟩ := Option.map_eq_some_iff.mp h
    exact .inl ⟨uid,late,op,next,b,w,hi,hrespond,rfl⟩
  · next uid op next hi =>
    obtain ⟨⟨b,w⟩,hrespond,rfl⟩ := Option.map_eq_some_iff.mp h
    exact .inr ⟨uid,op,next,b,w,hi,hrespond,rfl⟩
  · cases h

/-- A pass or a teardown that is done gives its task back to the manager. -/
theorem step_finish (h : s.step worker (.finish i) = some t) :
    ∃ m, t = { s with manager := m, work := s.work.erase i } ∧
      ((∃ uid late result state, s.work.lookup i = some (.pass uid late (.ret (result,state))) ∧
        s.manager.step (.passReturns i result state) = some m) ∨
      ∃ uid, s.work.lookup i = some (.teardown uid (.ret ())) ∧ s.manager.step (.run i) = some m) := by
  change s.finish i = some t at h
  unfold finish at h
  dsimp only at h
  split at h
  · next uid late result state hi =>
    obtain ⟨m,hm,rfl⟩ := Option.map_eq_some_iff.mp h
    exact ⟨m,rfl,.inl ⟨uid,late,result,state,hi,hm⟩⟩
  · next uid _ hi =>
    obtain ⟨m,hm,rfl⟩ := Option.map_eq_some_iff.mp h
    exact ⟨m,rfl,.inr ⟨uid,hi,hm⟩⟩
  · cases h

/-! ## The manager -/

theorem manager_enter : (s.enter worker i).manager = s.manager := by
  unfold enter
  split <;> rfl

/-- A step of the pipeline is a run of the manager. -/
theorem step_manager {a : PipelineAction} (h : s.step worker a = some t) :
    ∃ w, Runs (ofStep ManagerState.step) s.manager w t.manager := by
  have hone {a : ManagerAction} {m : ManagerState} (h : s.manager.step a = some m) :
      ∃ w, Runs (ofStep ManagerState.step) s.manager w m := ⟨[a],.cons h (.nil m)⟩
  have hreport (uid : PodUID) (w : Node) :
      ∃ as, Runs (ofStep ManagerState.step) s.manager as (s.setWorld uid w).manager := by
    unfold setWorld
    cases w.status with
    | some state => exact ⟨[.report uid state],.cons rfl (.nil _)⟩
    | none => exact ⟨[],.nil _⟩
  cases a with
  | upsert pod now =>
    obtain rfl := Option.some.inj h
    exact hone (a := .upsert pod now) rfl
  | remove uid fallback now =>
    obtain rfl := Option.some.inj h
    exact hone (a := .remove uid fallback now) rfl
  | evictPod uid message gracePeriod now =>
    obtain rfl := Option.some.inj h
    exact hone (a := .evictPod uid message gracePeriod now) rfl
  | handleUpdate update now =>
    obtain rfl := Option.some.inj h
    change ∃ w, Runs _ s.manager w (s.manager.handleUpdate update now)
    unfold ManagerState.handleUpdate
    split
    · exact hone (a := .deletePod update.pod) rfl
    · split
      · exact hone (a := .report update.pod.uid _) rfl
      · exact hone (a := .syncPod update.pod) rfl
  | plegEvent uid =>
    obtain rfl := Option.some.inj h
    change ∃ w, Runs _ s.manager w (s.manager.plegEvent uid)
    unfold ManagerState.plegEvent
    split
    · next pod _ => exact hone (a := .syncPod pod) rfl
    · exact ⟨[],.nil _⟩
  | run i =>
    obtain ⟨-,m,hm,rfl⟩ := step_run h
    rw [manager_enter]
    exact hone hm
  | pollDrain i expired =>
    obtain ⟨m,hm,rfl⟩ := Option.map_eq_some_iff.mp h
    rw [manager_enter]
    exact hone hm
  | reply i c =>
    rcases step_reply h with ⟨uid,_,_,_,_,w,-,-,rfl⟩ | ⟨uid,_,_,_,w,-,-,rfl⟩
    · exact hreport uid w
    · exact hreport uid w
  | finish i =>
    obtain ⟨m,rfl,⟨_,_,_,_,-,hm⟩ | ⟨_,-,hm⟩⟩ := step_finish h
    · exact hone hm
    · exact hone hm
  | exit id code =>
    obtain ⟨w,-,rfl⟩ := Option.map_eq_some_iff.mp h
    exact ⟨[],.nil _⟩

/-- The pipeline refines the manager: what every run of the manager keeps, its runs keep. -/
theorem runs_manager {w : List PipelineAction} (hr : Runs (ofStep (step worker)) s w t) :
    ∃ w', Runs (ofStep ManagerState.step) s.manager w' t.manager := by
  induction hr with
  | nil s => exact ⟨[],.nil _⟩
  | cons hs _ ih =>
    obtain ⟨v,hv⟩ := step_manager hs
    obtain ⟨w',hw'⟩ := ih
    exact ⟨v ++ w',hv.append hw'⟩

/-! ## The world of one pod -/

theorem world_setWorld_self {w : Node} (h : w.status = none → s.manager.podManager.status.get u = none) :
    (s.setWorld u w).world u = w := by
  unfold setWorld putStatus world
  cases hs : w.status with
  | some state =>
    dsimp only
    rw [PodStatusManager.get_set,← hs]
  | none =>
    dsimp only
    rw [h hs,← hs]

theorem world_setWorld_ne {w : Node} (h : u ≠ v) :
    (s.setWorld v w).world u = { w with status := s.manager.podManager.status.get u } := by
  unfold setWorld putStatus world
  cases w.status with
  | some state =>
    dsimp only
    rw [PodStatusManager.get_set_ne _ h]
  | none => rfl

theorem world_setWork (work : Work) : (s.setWork i work).world u = s.world u := rfl

theorem world_enter : (s.enter worker i).world u = s.world u := by
  unfold enter
  split <;> rfl

end Pipeline
end KubeAir.Manager
