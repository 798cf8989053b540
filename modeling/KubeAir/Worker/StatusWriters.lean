import KubeAir.Worker.OpenPass

/-! # What a pass writes

Every status that a pass stores is one of a few writes, applied to a state that the pass has
read from the store before.
-/
namespace KubeAir.Worker
open Core Transition Program Routine

/-- What `update_pod_status` has found out about the containers. One that is ready is shown
as running. -/
structure StatusReport where
  pod : PodSpec
  initStatuses : List ContainerStatus
  statuses : List ContainerStatus
  ephemeralStatuses : List ContainerStatus
  writtenAt : DateTime
  counted : statuses.length = pod.containers.length
  running : ∀ cs ∈ statuses, cs.ready = true → cs.state.isRunning = true

def StatusReport.stored (r : StatusReport) (ls : PodLifecycleState) : PodLifecycleState :=
  derivedState r.pod ls r.initStatuses r.statuses r.ephemeralStatuses r.writtenAt

inductive PassWrite
  | unscheduled (reason message : String) (pullError : Option (String × String)) (now : DateTime)
  | addressed (worker : PodWorker) (pod : PodSpec) (sandboxIp : Option String)
  | updatePodStatus (report : StatusReport)
  | markInitialized (now : DateTime)
  /-- an init container failed for good -/
  | initFailed
  | deadlineExceeded (now : DateTime)

namespace PassWrite

/-- The condition has turned True, or there is none. -/
def initializedKnown (ls : PodLifecycleState) : Bool :=
  ((ls.conditions.find? (fun c => c.conditionType = .initialized)).map (·.status)).getD .true = .true

def initializedState (ls : PodLifecycleState) (now : DateTime) : PodLifecycleState :=
  { ls with
    conditions := modifyCondition .initialized
      (fun c => { c with status := .true, lastTransitionTime := some now }) ls.conditions }

def exceededState (ls : PodLifecycleState) (now : DateTime) : PodLifecycleState :=
  { ls with
    phase := .failed
    reason := some "DeadlineExceeded"
    conditions := modifyCondition .ready (fun c =>
      { c with
        status := .false
        reason := some "DeadlineExceeded"
        message := some "Pod was active on the node longer than the specified deadline"
        lastTransitionTime := some now }) ls.conditions }

def pullErrorState (pullError : Option (String × String)) (ls : PodLifecycleState) : PodLifecycleState :=
  match pullError with
  | some (name,text) => markImagePullError name text ls
  | none => ls

/-- What a write makes of the state that was read. -/
def result : PassWrite → PodLifecycleState → PodLifecycleState
  | .unscheduled reason message pullError now, ls => pullErrorState pullError (unscheduledState ls reason message now)
  | .addressed worker pod sandboxIp, ls => addressedState worker pod sandboxIp ls
  | .updatePodStatus report, ls => report.stored ls
  | .markInitialized now, ls => initializedState ls now
  | .initFailed, ls => { ls with phase := .failed }
  | .deadlineExceeded now, ls => exceededState ls now

/-- What is stored after the given state was read, if anything is. -/
def apply (write : PassWrite) (read : Option PodLifecycleState) : Option PodLifecycleState :=
  match write with
  | .updatePodStatus _ => some (write.result (read.getD {}))
  | .markInitialized _ => read.bind fun ls => if initializedKnown ls then none else some (write.result ls)
  | _ => read.map write.result

end PassWrite

/-! ## The writes of a program -/

/-- The world of a pass is what the store has answered so far, and the pass writes nothing else
than a write of one of these answers. -/
def writeContract : Contract Request Request.Answer (List (Option PodLifecycleState)) where
  drift w w' := w' = w
  allowed w op := ∀ st, op = .setStatus st → ∃ ls ∈ w, ∃ write : PassWrite, write.apply ls = some st
  answers w op ans w' :=
    match op, ans with
    | .getStatus, ans => w' = ans :: w
    | _, _ => w' = w

/-- A step of a pass that makes no other write. -/
def Writes {α : Type} (m : SyncM α) : Prop :=
  ∀ st w, m.Meets writeContract (fun _ _ _ => True) st w

variable {α β : Type} {w : List (Option PodLifecycleState)} {worker : PodWorker} {pod : PodSpec}

theorem subset_of_answers {op : Request} {ans : op.Answer} {w' : List (Option PodLifecycleState)}
    (h : writeContract.answers w op ans w') : w ⊆ w' := by
  cases op with
  | getStatus =>
    obtain rfl : w' = ans :: w := h
    exact List.subset_cons_self ans w
  | _ =>
    obtain rfl : w' = w := h
    exact List.Subset.refl w'

/-- Calls that write no status only add to what was read. -/
theorem grows_of_every {q : WorkerM α} {R : α → Prop} (hq : q.Every Request.Silent R) :
    q.Meets writeContract (fun a w' => R a ∧ w ⊆ w') w := by
  refine Every.meets (P := fun w' => w ⊆ w') hq (List.Subset.refl w) ?_ ?_
  · rintro v v' hv rfl
    exact hv
  · intro v op hv hop
    refine ⟨?_,fun ans v' h => List.Subset.trans hv (subset_of_answers h)⟩
    rintro st rfl
    exact hop.elim

theorem grows_of_silent {q : WorkerM α} (hq : q.Uses Request.Silent) :
    q.Meets writeContract (fun _ w' => w ⊆ w') w :=
  (grows_of_every hq).mono fun _ _ h => h.2

theorem any_of_uses {q : WorkerM α} (hq : q.Uses Request.Silent) :
    q.Meets writeContract (fun _ _ => True) w :=
  (grows_of_silent hq).mono fun _ _ _ => trivial

theorem reads_getStatus : getStatus.Meets writeContract (fun ls w' => ls ∈ w') w := by
  refine Program.meets_request (P := fun _ => True) trivial (fun _ _ _ _ => trivial) ?_
  intro w _
  refine ⟨fun _ h => (nomatch h),?_⟩
  intro ls w' h
  obtain rfl : w' = ls :: w := h
  exact List.mem_cons_self

theorem writes_setStatus {st : PodLifecycleState} {ls : Option PodLifecycleState} (hls : ls ∈ w)
    (write : PassWrite) (happly : write.apply ls = some st) :
    (setStatus st).Meets writeContract (fun _ _ => True) w := by
  refine Program.meets_request (P := fun v => v = w) rfl ?_ ?_
  · rintro v v' rfl rfl
    rfl
  · rintro v rfl
    refine ⟨?_,fun _ _ _ => trivial⟩
    intro st' heq
    obtain rfl : st = st' := by injection heq
    exact ⟨ls,hls,write,happly⟩

theorem Writes.bind {m : SyncM α} {f : α → SyncM β} (hm : Writes m) (hf : ∀ a, Writes (f a)) :
    Writes (m >>= f) := by
  intro st w
  rw [Routine.meets_bind]
  refine (hm st w).mono ?_
  intro r st w _
  cases r with
  | ok a => exact hf a st w
  | error e => trivial

theorem writes_lift {q : WorkerM α} (h : ∀ w, q.Meets writeContract (fun _ _ => True) w) :
    Writes (liftM q : SyncM α) := by
  intro st w
  rw [Routine.meets_lift]
  exact h w

theorem writes_silent {q : WorkerM α} (hq : q.Uses Request.Silent) : Writes (liftM q : SyncM α) :=
  writes_lift fun _ => any_of_uses hq

theorem writes_ask {op : Request} (hop : op.Silent) : Writes (liftM (ask op) : SyncM op.Answer) :=
  writes_silent (uses_ask hop)

theorem writes_only {m : SyncM α} (hm : Only Request.Silent m) : Writes m := by
  intro st w
  refine (Keeps.meets (P := fun w' => w ⊆ w') hm (List.Subset.refl w) ?_ ?_).mono fun _ _ _ _ => trivial
  · rintro v v' hv rfl
    exact hv
  · intro v op hv hop
    refine ⟨?_,fun ans v' h => List.Subset.trans hv (subset_of_answers h)⟩
    rintro st rfl
    exact hop.elim

theorem writes_pure (a : α) : Writes (pure a) := writes_only (only_pure a)

theorem writes_exit (e : PodSyncResult) : Writes (Routine.exit e : SyncM α) := fun _ _ => trivial

theorem writes_forEach {body : ContainerSpec → SyncM Unit} {l : List ContainerSpec}
    (h : ∀ ctr ∈ l, Writes (body ctr)) : Writes (Routine.forEach body l) := by
  induction l with
  | nil => exact writes_pure ()
  | cons ctr rest ih =>
    apply Writes.bind (h ctr List.mem_cons_self)
    intro _
    exact ih fun c hc => h c (List.mem_cons_of_mem _ hc)

/-! ## The writes of a pass -/

/-- A change of the stored state is a write of the state that was read. -/
theorem any_updateStored_write {f : PodLifecycleState → WorkerM PodLifecycleState}
    (hf : ∀ ls, (f ls).Every Request.Silent fun st => ∃ write : PassWrite, write.apply (some ls) = some st) :
    (updateStored f).Meets writeContract (fun _ _ => True) w := by
  unfold updateStored
  rw [Program.meets_bind]
  refine reads_getStatus.mono ?_
  intro ls w hls
  cases ls with
  | none => trivial
  | some ls =>
    dsimp only
    rw [Program.meets_bind]
    refine (grows_of_every (hf ls)).mono ?_
    rintro st w' ⟨⟨write,happly⟩,hw⟩
    exact writes_setStatus (hw hls) write happly

theorem every_deadlineExceededState (ls : PodLifecycleState) : (deadlineExceededState ls).Every Request.Silent
    fun st => ∃ write : PassWrite, write.apply (some ls) = some st :=
  Every.bind (uses_ask trivial) fun t _ => Every.pure ⟨.deadlineExceeded t,rfl⟩

theorem writes_markUnscheduled {reason message : String} (pullError : Option (String × String)) :
    Writes (liftM (markUnscheduled reason message (PassWrite.pullErrorState pullError)) : SyncM Unit) := by
  refine writes_lift fun w => any_updateStored_write ?_
  intro ls
  exact Every.bind (uses_ask trivial) fun t _ => Every.pure ⟨.unscheduled reason message pullError t,rfl⟩

theorem every_appContainerState (state : PodRuntimeState) (ctr : ContainerSpec) (cid : String)
    (s : RuntimeContainer) : (appContainerState state ctr cid s).Every Request.Silent
      fun r => r.2 = true → r.1.isRunning = true := by
  unfold appContainerState
  split
  · apply Every.bind (silent_of_calm (uses_probeReady ctr cid))
    intro ready _
    exact Every.bind (silent_of_calm (uses_orNow _)) fun _ _ => Every.pure fun _ => rfl
  · apply Every.bind (uses_ask trivial)
    intro t _
    apply Every.bind (silent_of_calm (uses_justStarted state ctr.name))
    intro just _
    split
    · exact Every.bind (silent_of_calm (uses_orNow _)) fun _ _ => Every.pure fun h => nomatch h
    · split
      · exact Every.pure fun h => nomatch h
      · exact Every.bind (uses_ask trivial) fun _ _ => Every.pure fun h => nomatch h
  · exact Every.pure fun h => nomatch h

/-- An app container that is ready is shown as running, whatever the answers are. -/
theorem every_appContainerStatus (state : PodRuntimeState) (previous : List ContainerStatus) (done : Bool)
    (ctr : ContainerSpec) : (appContainerStatus state previous done ctr).Every Request.Silent
      fun cs => cs.ready = true → cs.state.isRunning = true := by
  have hobserve : (observeAppContainer state done ctr).Every Request.Silent
      fun r => r.2.1 = true → r.1.isRunning = true := by
    unfold observeAppContainer
    split
    · apply Every.bind (uses_ask trivial)
      intro r _
      split
      · exact Every.bind (every_appContainerState state ctr _ _) fun _ h => Every.pure h
      · exact Every.pure fun h => nomatch h
    · exact Every.pure fun h => nomatch h
  unfold appContainerStatus
  exact Every.bind hobserve fun _ h => Every.pure h

/-- The status pass is a write of the state that it read first. -/
theorem any_updatePodStatus_write (state : PodRuntimeState) :
    (updatePodStatus pod state).Meets writeContract (fun _ _ => True) w := by
  unfold updatePodStatus
  rw [Program.meets_bind]
  refine reads_getStatus.mono ?_
  intro ls w hls
  rw [Program.meets_bind]
  refine (grows_of_silent (silent_of_calm (uses_initContainerStatuses pod state _ _ _))).mono ?_
  intro initStatuses w₁ h₁
  rw [Program.meets_bind]
  have hstatus (ctr : ContainerSpec) (v : List (Option PodLifecycleState)) (hv : w₁ ⊆ v) :
      (appContainerStatus state (ls.getD {}).containerStatuses (initStatuses.all (initDone pod)) ctr).Meets
        writeContract (fun cs v' => (cs.ready = true → cs.state.isRunning = true) ∧ w₁ ⊆ v') v :=
    (grows_of_every (every_appContainerStatus state _ _ ctr)).mono fun _ _ h => ⟨h.1,List.Subset.trans hv h.2⟩
  refine (Program.Meets.forList (fun ctr _ => hstatus ctr) (List.Subset.refl w₁)).mono ?_
  rintro statuses w₂ ⟨⟨hcount,hrunning⟩,h₂⟩
  rw [Program.meets_bind]
  refine (grows_of_silent (Uses.forList fun ctr _ => silent_of_calm (uses_ephemeralContainerStatus state ctr))).mono ?_
  intro ephemeralStatuses w₃ h₃
  have hnow : now.Uses Request.Silent := uses_ask trivial
  rw [Program.meets_bind]
  refine (grows_of_silent hnow).mono ?_
  intro t w₄ h₄
  let report : StatusReport :=
    { pod := pod
      initStatuses := initStatuses
      statuses := statuses
      ephemeralStatuses := ephemeralStatuses
      writtenAt := t
      counted := hcount
      running := hrunning }
  exact writes_setStatus (h₄ (h₃ (h₂ (h₁ hls)))) (.updatePodStatus report) rfl

theorem writes_updatePodStatus : Writes (do updatePodStatus pod (← Routine.get)) :=
  Writes.bind (writes_only only_get) fun st => writes_lift fun _ => any_updatePodStatus_write st

theorem writes_updatePodStatus_bind {f : SyncM β} (hf : Writes f) :
    Writes (do updatePodStatus pod (← Routine.get); f) :=
  Writes.bind (writes_only only_get) fun st =>
    Writes.bind (writes_lift fun _ => any_updatePodStatus_write st) fun _ => hf

theorem writes_terminateFailed {f : PodLifecycleState → WorkerM PodLifecycleState}
    (hf : ∀ ls, (f ls).Every Request.Silent fun st => ∃ write : PassWrite, write.apply (some ls) = some st) :
    Writes (terminateFailed pod f) := by
  unfold terminateFailed
  apply Writes.bind (writes_only only_get)
  intro st
  apply Writes.bind (writes_silent (silent_of_teardown (uses_terminatePod pod st _)))
  intro _
  exact Writes.bind (writes_lift fun _ => any_updateStored_write hf) fun _ => writes_exit _

theorem writes_checkDeadline : Writes (checkDeadline pod) := by
  unfold checkDeadline
  split
  · apply Writes.bind (writes_ask (by trivial))
    intro ls
    apply Writes.bind (writes_ask (by trivial))
    intro t
    split
    · exact writes_terminateFailed every_deadlineExceededState
    · exact writes_pure ()
  · exact writes_pure ()

theorem writes_ensureVolumes : Writes ensureVolumes := by
  unfold ensureVolumes
  apply Writes.bind (writes_only only_get)
  intro st
  apply Writes.bind (writes_ask (by trivial))
  intro r
  split
  · exact writes_pure ()
  · exact Writes.bind (writes_markUnscheduled none) fun _ => writes_exit _

theorem writes_ensureContainerImage (ctr : ContainerSpec) : Writes (ensureContainerImage ctr) := by
  unfold ensureContainerImage
  apply Writes.bind (writes_only only_get)
  intro st
  apply Writes.bind (writes_silent (uses_sleepAfter (fun _ => trivial) _))
  intro _
  apply Writes.bind (writes_ask (by trivial))
  intro r
  split
  · exact writes_only (only_modify _)
  · next e =>
    apply Writes.bind (writes_markUnscheduled (some (ctr.name,e.text)))
    intro _
    apply Writes.bind (writes_only (only_modify _))
    intro _
    split
    · exact writes_exit _
    · exact writes_exit _

theorem writes_ensureSandbox : Writes (ensureSandbox worker pod) := by
  have henter (id : String) (ip : Option String) : Writes (enterSandbox worker pod id ip) := by
    unfold enterSandbox
    apply Writes.bind (writes_only (only_modify _))
    intro _
    apply Writes.bind (writes_only (only_adoptListed pod id))
    intro _
    exact writes_lift fun _ => any_updateStored_write fun ls => Every.pure ⟨.addressed worker pod ip,rfl⟩
  have hcreate : (createSandbox worker pod).Uses Request.Silent :=
    (uses_createSandbox worker pod).mono (fun _ hop => hop.sandboxing.2) fun _ _ => trivial
  unfold ensureSandbox
  apply Writes.bind (writes_only only_get)
  intro st
  split
  · exact writes_pure _
  · apply Writes.bind (writes_silent hcreate)
    intro r
    split
    · exact Writes.bind (henter _ _) fun _ => writes_pure _
    · exact Writes.bind (writes_markUnscheduled none) fun _ => writes_exit _

theorem writes_crashLoopSleep (name : String) (seconds : ℕ) : Writes (crashLoopSleep pod name seconds) := by
  unfold crashLoopSleep
  apply Writes.bind (writes_only (only_modify _))
  intro _
  apply writes_updatePodStatus_bind
  apply Writes.bind (writes_silent (silent_of_calm uses_reportStored))
  intro _
  exact Writes.bind (writes_ask (by trivial)) fun _ => writes_only (only_modify _)

theorem writes_initProceeds (ctr : ContainerSpec) : Writes (initProceeds pod ctr) := by
  unfold initProceeds
  apply Writes.bind (writes_only only_get)
  intro st
  split
  · exact writes_pure _
  · split
    · unfold sidecarRuns
      apply Writes.bind (writes_ask (by trivial))
      intro r
      split
      · split
        · exact Writes.bind (writes_only (inert_armProbes ctr _).silent) fun _ => writes_pure _
        · exact writes_pure _
      · exact writes_pure _
    · unfold initCompleted
      apply Writes.bind (writes_ask (by trivial))
      intro r
      split
      · split
        · exact writes_updatePodStatus_bind (writes_exit _)
        · split
          · exact writes_pure _
          · split
            · apply writes_updatePodStatus_bind
              exact Writes.bind (writes_terminateFailed fun ls => Every.pure ⟨.initFailed,rfl⟩) fun _ => writes_pure _
            · exact Writes.bind (writes_only (inert_snapshot _ _ _).silent) fun _ => writes_pure _
        · exact writes_pure _
      · exact writes_pure _

theorem writes_startFailed (name : String) (e : KubeletError) : Writes (startFailed name e) := by
  unfold startFailed
  split
  · exact Writes.bind (writes_only (only_modify _)) fun _ => writes_exit _
  · exact writes_only (only_modify _)

theorem writes_attempt (ctr : ContainerSpec) (sandboxId : String) :
    Writes (Routine.attempt (startContainer pod ctr sandboxId)) :=
  writes_only (Keeps.attempt (only_startContainer pod ctr sandboxId))

theorem writes_runInitContainer (sandboxId : String) (ctr : ContainerSpec) :
    Writes (runInitContainer pod sandboxId ctr) := by
  unfold runInitContainer
  apply Writes.bind (writes_initProceeds ctr)
  intro proceed
  split
  · exact writes_pure ()
  · have hbackoff : Writes (initBackoff pod ctr.name) := by
      unfold initBackoff
      apply Writes.bind (writes_only only_get)
      intro st
      dsimp only
      split
      · exact writes_crashLoopSleep ctr.name _
      · exact writes_pure ()
    apply Writes.bind hbackoff
    intro _
    apply Writes.bind (writes_attempt ctr sandboxId)
    intro r
    split
    · apply Writes.bind (writes_only (only_modify _))
      intro _
      split
      · exact writes_pure ()
      · exact writes_updatePodStatus_bind (writes_exit _)
    · apply Writes.bind (writes_startFailed ctr.name _)
      intro _
      exact writes_updatePodStatus_bind (writes_exit _)

theorem writes_markInitialized : Writes (markInitialized pod) := by
  unfold markInitialized
  split
  · exact writes_pure ()
  · intro st w
    rw [Routine.meets_bind,Routine.meets_lift]
    refine reads_getStatus.mono ?_
    intro ls w hls
    cases ls with
    | none => trivial
    | some ls =>
      dsimp only
      split
      · trivial
      · next hunknown =>
        have hnow : now.Uses Request.Silent := uses_ask trivial
        rw [Routine.meets_bind,Routine.meets_lift]
        refine (grows_of_silent hnow).mono ?_
        intro t w' hw
        dsimp only
        rw [Routine.meets_lift]
        refine writes_setStatus (hw hls) (.markInitialized t) ?_
        have hknown : PassWrite.initializedKnown ls = false := decide_eq_false hunknown
        change (if PassWrite.initializedKnown ls = true then none else some _) = some _
        rw [hknown]
        rfl

theorem writes_appProceeds (ctr : ContainerSpec) : Writes (appProceeds pod ctr) := by
  unfold appProceeds
  apply Writes.bind (writes_only only_get)
  intro st
  split
  · exact writes_pure _
  · apply Writes.bind (writes_ask (by trivial))
    intro r
    split
    · split
      · apply Writes.bind (writes_only (inert_armProbes ctr _).silent)
        intro armed
        exact Writes.bind (writes_only (only_resizeWhenArmed ctr _ armed)) fun _ => writes_pure _
      · unfold appExited
        apply Writes.bind (writes_only (inert_snapshot _ _ _).silent)
        intro _
        split
        · apply Writes.bind (writes_only only_get)
          intro st
          exact Writes.bind (writes_crashLoopSleep ctr.name _) fun _ => writes_pure _
        · exact writes_pure _
      · exact writes_pure _
    · exact writes_pure _

theorem writes_runAppContainer (sandboxId : String) (ctr : ContainerSpec) :
    Writes (runAppContainer pod sandboxId ctr) := by
  unfold runAppContainer
  apply Writes.bind (writes_appProceeds ctr)
  intro proceed
  split
  · exact writes_pure ()
  · apply Writes.bind (writes_only only_get)
    intro st
    split
    · exact writes_pure ()
    · apply Writes.bind (writes_silent (uses_sleepAfter (fun _ => trivial) _))
      intro _
      apply Writes.bind (writes_attempt ctr sandboxId)
      intro r
      split
      · exact writes_only (only_modify _)
      · exact writes_startFailed ctr.name _

theorem writes_runEphemeralContainer (sandboxId : String) (ctr : ContainerSpec) :
    Writes (runEphemeralContainer pod sandboxId ctr) := by
  unfold runEphemeralContainer
  apply Writes.bind (writes_only only_get)
  intro st
  split
  · exact writes_pure ()
  · exact Writes.bind (writes_attempt ctr sandboxId) fun _ => writes_pure ()

theorem writes_syncContainers (sandboxId : String) : Writes (syncContainers pod sandboxId) := by
  unfold syncContainers
  apply Writes.bind (writes_forEach fun ctr _ => writes_runInitContainer sandboxId ctr)
  intro _
  apply Writes.bind writes_markInitialized
  intro _
  apply Writes.bind (writes_forEach fun ctr _ => writes_runAppContainer sandboxId ctr)
  intro _
  apply Writes.bind (writes_only only_get)
  intro st
  apply Writes.bind (writes_silent (silent_of_calm (uses_stopSidecarsWhenDone pod st)))
  intro _
  apply Writes.bind (writes_forEach fun ctr _ => writes_runEphemeralContainer sandboxId ctr)
  intro _
  exact writes_updatePodStatus

/-- Every status that a pass stores is a write of one that it has read, whatever the answers are. -/
theorem syncPod_writes (worker : PodWorker) (pod : PodSpec) (st : PodRuntimeState) :
    (syncPod worker pod st).Meets writeContract (fun _ _ => True) [] := by
  have hsteps : Writes (syncSteps worker pod) := by
    unfold syncSteps
    split
    · exact writes_exit _
    · apply Writes.bind writes_checkDeadline
      intro _
      apply Writes.bind writes_ensureVolumes
      intro _
      apply Writes.bind (writes_forEach fun ctr _ => writes_ensureContainerImage ctr)
      intro _
      exact Writes.bind writes_ensureSandbox fun sandboxId => writes_syncContainers sandboxId
  unfold syncPod
  rw [Program.meets_bind]
  refine Program.Meets.mono (hsteps st []) ?_
  rintro ⟨r,st⟩ w _
  cases r with
  | error r => trivial
  | ok _ => trivial

end KubeAir.Worker
