import KubeAir.Worker.StatusFrame

/-! # A pass that begins before the phase is terminal

As long as nobody else settles the phase and the pass does not sleep over a terminal
phase, it writes over none either.
-/
namespace KubeAir.Worker
open Core Transition Program Routine

/-- Nobody else makes the phase terminal, the pass sleeps over no terminal phase, and it
puts no other phase in the place of a terminal one. -/
def openContract : Contract Request Request.Answer Node where
  drift w w' := w.terminal = false → w'.terminal = false
  allowed w op := ∀ st, op = .setStatus st → w.terminal = true → isTerminalState st = true
  answers w op ans w' := (∀ seconds, op = .sleep seconds → w.terminal = false) ∧
    ∃ c, w.respond op c = some (ans,w')

/-- The phase is open when a step of the pass ends, or the pass is over. -/
def StaysOpen {α : Type} : Except PodSyncResult α → PodRuntimeState → Node → Prop
  | .ok _, _, w => w.terminal = false
  | .error _, _, _ => True

/-- A step that begins with an open phase. -/
def Opens {α : Type} (m : SyncM α) : Prop :=
  ∀ st w, w.terminal = false → m.Meets openContract StaysOpen st w

/-- A step that may begin with any phase. -/
def Reopens {α : Type} (m : SyncM α) : Prop := ∀ st w, m.Meets openContract StaysOpen st w

variable {α β : Type} {w : Node} {worker : PodWorker} {pod : PodSpec}

/-! ## Rules -/

theorem terminal_of_silent {op : Request} {c : Choice} {a : op.Answer} {w' : Node} (hop : op.Silent)
    (h : w.respond op c = some (a,w')) : w'.terminal = w.terminal := by
  unfold Node.terminal
  rw [(Node.respond_silent hop h).status]

theorem open_drift (w w' : Node) (hw : w.terminal = false) (hd : openContract.drift w w') :
    w'.terminal = false :=
  hd hw

/-- A program that writes no status keeps the phase open. -/
theorem open_of_silent {q : WorkerM α} (hq : q.Uses Request.Silent) (hw : w.terminal = false) :
    q.Meets openContract (fun _ w => w.terminal = false) w := by
  refine (Every.meets (P := fun w => w.terminal = false) hq hw open_drift ?_).mono fun _ _ h => h.2
  intro w op hw hop
  refine ⟨?_,?_⟩
  · rintro st rfl
    exact hop.elim
  · rintro a w' ⟨-,c,hrespond⟩
    exact (terminal_of_silent hop hrespond).trans hw

theorem any_of_silent {q : WorkerM α} (hq : q.Uses Request.Silent) :
    q.Meets openContract (fun _ _ => True) w := by
  refine (Every.meets (P := fun _ => True) hq trivial (fun _ _ h _ => h) ?_).mono fun _ _ h => h.2
  intro w op _ hop
  refine ⟨?_,fun _ _ _ => trivial⟩
  rintro st rfl
  exact hop.elim

theorem Opens.bind {m : SyncM α} {f : α → SyncM β} (hm : Opens m) (hf : ∀ a, Opens (f a)) :
    Opens (m >>= f) := by
  intro st w hw
  rw [Routine.meets_bind]
  refine (hm st w hw).mono ?_
  intro r st w hr
  cases r with
  | ok a => exact hf a st w hr
  | error e => trivial

theorem Reopens.bind {m : SyncM α} {f : α → SyncM β} (hm : Reopens m) (hf : ∀ a, Opens (f a)) :
    Reopens (m >>= f) := by
  intro st w
  rw [Routine.meets_bind]
  refine (hm st w).mono ?_
  intro r st w hr
  cases r with
  | ok a => exact hf a st w hr
  | error e => trivial

theorem Reopens.opens {m : SyncM α} (hm : Reopens m) : Opens m := fun st w _ => hm st w

theorem opens_only {m : SyncM α} (hm : Only Request.Silent m) : Opens m := by
  intro st w hw
  refine (Keeps.meets (P := fun w => w.terminal = false) hm hw open_drift ?_).mono ?_
  · intro w op hw hop
    refine ⟨?_,?_⟩
    · rintro st rfl
      exact hop.elim
    · rintro a w' ⟨-,c,hrespond⟩
      exact (terminal_of_silent hop hrespond).trans hw
  · rintro r st w ⟨-,hw⟩
    cases r with
    | ok a => exact hw
    | error e => trivial

theorem opens_ask {op : Request} (hop : op.Silent) : Opens (liftM (ask op) : SyncM op.Answer) :=
  opens_only (only_lift (uses_ask hop))

theorem opens_pure (a : α) : Opens (pure a) := opens_only (only_pure a)

theorem reopens_exit (e : PodSyncResult) : Reopens (Routine.exit e : SyncM α) := fun _ _ => trivial

theorem opens_forEach {body : ContainerSpec → SyncM Unit} {l : List ContainerSpec}
    (h : ∀ ctr ∈ l, Opens (body ctr)) : Opens (Routine.forEach body l) := by
  induction l with
  | nil => exact opens_pure ()
  | cons ctr rest ih =>
    apply Opens.bind (h ctr List.mem_cons_self)
    intro _
    exact ih fun c hc => h c (List.mem_cons_of_mem _ hc)

/-- Calls that write no status, at any phase. -/
theorem reopens_silent_bind {q : WorkerM α} {f : α → SyncM β} (hq : q.Uses Request.Silent)
    (hf : ∀ a, Reopens (f a)) : Reopens (liftM q >>= f) := by
  intro st w
  rw [Routine.meets_bind,Routine.meets_lift]
  refine (any_of_silent hq).mono ?_
  intro a w _
  exact hf a st w

/-! ## Writes -/

theorem meets_setStatus {st : PodLifecycleState} {Q : Unit → Node → Prop} {P : Node → Prop}
    (hP : ∀ w w', P w → openContract.drift w w' → P w') (hw : P w)
    (hst : ∀ w, P w → w.terminal = true → isTerminalState st = true)
    (hQ : ∀ w : Node, P w → Q () { w with status := some st }) : (setStatus st).Meets openContract Q w := by
  refine Program.meets_request hw hP ?_
  intro w hw
  refine ⟨?_,?_⟩
  · rintro st' heq
    obtain rfl : st = st' := by injection heq
    exact hst w hw
  · rintro a w' ⟨-,c,hrespond⟩
    rw [Node.respond_setStatus hrespond]
    exact hQ w hw

/-- Writing over an open phase. -/
theorem meets_setStatus_open {st : PodLifecycleState} {Q : Unit → Node → Prop} (hw : w.terminal = false)
    (hQ : ∀ w : Node, Q () { w with status := some st }) : (setStatus st).Meets openContract Q w := by
  refine meets_setStatus (P := fun w => w.terminal = false) open_drift hw ?_ fun w _ => hQ w
  intro w hopen hterminal
  rw [hopen] at hterminal
  cases hterminal

/-- Writing a terminal phase. -/
theorem meets_setStatus_terminal {st : PodLifecycleState} (hst : isTerminalState st = true) :
    (setStatus st).Meets openContract (fun _ _ => True) w :=
  meets_setStatus (P := fun _ => True) (fun _ _ _ _ => trivial) trivial (fun _ _ _ => hst)
    fun _ _ => trivial

theorem meets_getStatus (hw : w.terminal = false) : getStatus.Meets openContract
    (fun ls w => w.terminal = false ∧ ∀ st, ls = some st → isTerminalState st = false) w := by
  refine Program.meets_request hw open_drift ?_
  intro w hw
  refine ⟨fun _ h => (nomatch h),?_⟩
  rintro a w' ⟨-,c,hrespond⟩
  obtain ⟨rfl,rfl⟩ := Prod.mk.inj (Option.some.inj hrespond)
  refine ⟨hw,?_⟩
  intro st hst
  unfold Node.terminal at hw
  rw [hst] at hw
  exact hw

/-- A write that leaves an open phase open. -/
theorem opens_updateStored {f : PodLifecycleState → WorkerM PodLifecycleState}
    (hf : ∀ ls, isTerminalState ls = false →
      (f ls).Every Request.Silent fun st => isTerminalState st = false) :
    Opens (liftM (updateStored f) : SyncM Unit) := by
  intro st w hw
  rw [Routine.meets_lift]
  unfold updateStored
  rw [Program.meets_bind]
  refine (meets_getStatus hw).mono ?_
  rintro ls w ⟨hw,hls⟩
  cases ls with
  | none => exact hw
  | some ls =>
    dsimp only
    rw [Program.meets_bind]
    refine (Every.meets (P := fun w => w.terminal = false) (hf ls (hls ls rfl)) hw open_drift ?_).mono ?_
    · intro w op hw hop
      refine ⟨?_,?_⟩
      · rintro st rfl
        exact hop.elim
      · rintro a w' ⟨-,c,hrespond⟩
        exact (terminal_of_silent hop hrespond).trans hw
    · rintro st w ⟨hst,hw⟩
      exact meets_setStatus_open hw fun w => hst

/-- A write of a terminal phase. -/
theorem any_updateStored {f : PodLifecycleState → WorkerM PodLifecycleState}
    (hf : ∀ ls, (f ls).Every Request.Silent fun st => isTerminalState st = true) :
    (updateStored f).Meets openContract (fun _ _ => True) w := by
  unfold updateStored
  rw [Program.meets_bind]
  have hget : getStatus.Uses Request.Silent := uses_ask trivial
  refine (any_of_silent hget).mono ?_
  intro ls w _
  cases ls with
  | none => trivial
  | some ls =>
    dsimp only
    rw [Program.meets_bind]
    refine (Every.meets (P := fun _ => True) (hf ls) trivial (fun _ _ h _ => h) ?_).mono ?_
    · intro w op _ hop
      refine ⟨?_,fun _ _ _ => trivial⟩
      rintro st rfl
      exact hop.elim
    · exact fun _ _ h => meets_setStatus_terminal h.1

theorem any_updatePodStatus (st : PodRuntimeState) (hw : w.terminal = false) :
    (updatePodStatus pod st).Meets openContract (fun _ _ => True) w := by
  have hquiet {α : Type} {q : WorkerM α} (h : q.Uses Request.Calm) : q.Uses Request.Silent :=
    h.mono (fun _ hop => hop.silent) fun _ _ => trivial
  have hget : getStatus.Uses Request.Silent := uses_ask trivial
  have hnow : now.Uses Request.Silent := uses_ask trivial
  unfold updatePodStatus
  rw [Program.meets_bind]
  refine (open_of_silent hget hw).mono ?_
  intro ls w hw
  rw [Program.meets_bind]
  refine (open_of_silent (hquiet (uses_initContainerStatuses pod st _ _ _)) hw).mono ?_
  intro initStatuses w hw
  rw [Program.meets_bind]
  refine (open_of_silent (Uses.forList fun ctr _ => hquiet (uses_appContainerStatus st _ _ ctr)) hw).mono ?_
  intro statuses w hw
  rw [Program.meets_bind]
  refine (open_of_silent (Uses.forList fun ctr _ => hquiet (uses_ephemeralContainerStatus st ctr)) hw).mono ?_
  intro ephemeralStatuses w hw
  rw [Program.meets_bind]
  refine (open_of_silent hnow hw).mono ?_
  intro t w hw
  exact meets_setStatus_open hw fun _ => trivial

/-- What comes after a status pass has to cope with any phase. -/
theorem opens_updatePodStatus_bind {f : SyncM β} (hf : Reopens f) :
    Opens (do updatePodStatus pod (← Routine.get); f) := by
  intro st w hw
  rw [Routine.meets_bind,Routine.meets_get]
  dsimp only
  rw [Routine.meets_bind,Routine.meets_lift]
  refine (any_updatePodStatus st hw).mono ?_
  intro _ w _
  exact hf st w

/-! ## The parts of a pass -/

theorem silent_of_teardown {q : WorkerM α} (h : q.Uses Request.Teardown) : q.Uses Request.Silent :=
  h.mono (fun _ hop => hop.silent) fun _ _ => trivial

theorem silent_of_calm {q : WorkerM α} (h : q.Uses Request.Calm) : q.Uses Request.Silent :=
  h.mono (fun _ hop => hop.silent) fun _ _ => trivial

theorem reopens_terminateFailed {f : PodLifecycleState → WorkerM PodLifecycleState}
    (hf : ∀ ls, (f ls).Every Request.Silent fun st => isTerminalState st = true) :
    Reopens (terminateFailed pod f) := by
  intro st w
  unfold terminateFailed
  rw [Routine.meets_bind,Routine.meets_get]
  dsimp only
  rw [Routine.meets_bind,Routine.meets_lift]
  refine (any_of_silent (silent_of_teardown (uses_terminatePod pod st _))).mono ?_
  intro _ w _
  dsimp only
  rw [Routine.meets_bind,Routine.meets_lift]
  refine (any_updateStored hf).mono ?_
  exact fun _ _ _ => trivial

theorem silent_deadlineExceededState (ls : PodLifecycleState) :
    (deadlineExceededState ls).Every Request.Silent fun st => isTerminalState st = true :=
  Every.bind (uses_ask trivial) fun _ _ => Every.pure rfl

theorem opens_markUnscheduled {reason message : String} {f : PodLifecycleState → PodLifecycleState}
    (hf : ∀ ls, (f ls).phase = ls.phase) : Opens (liftM (markUnscheduled reason message f) : SyncM Unit) := by
  apply opens_updateStored
  intro ls _
  refine Every.bind (uses_ask trivial) fun t _ => Every.pure ?_
  unfold isTerminalState
  rw [hf]
  rfl

theorem markImagePullError_phase (name message : String) (ls : PodLifecycleState) :
    (markImagePullError name message ls).phase = ls.phase := by
  unfold markImagePullError
  dsimp only
  split
  · rfl
  · split <;> rfl

theorem opens_checkDeadline : Opens (checkDeadline pod) := by
  unfold checkDeadline
  split
  · apply Opens.bind (opens_ask (by trivial))
    intro ls
    apply Opens.bind (opens_ask (by trivial))
    intro t
    split
    · exact (reopens_terminateFailed silent_deadlineExceededState).opens
    · exact opens_pure ()
  · exact opens_pure ()

theorem opens_ensureVolumes : Opens ensureVolumes := by
  unfold ensureVolumes
  apply Opens.bind (opens_only only_get)
  intro st
  apply Opens.bind (opens_ask (by trivial))
  intro r
  split
  · exact opens_pure ()
  · exact Opens.bind (opens_markUnscheduled fun _ => rfl) fun _ => (reopens_exit _).opens

theorem opens_ensureContainerImage (ctr : ContainerSpec) : Opens (ensureContainerImage ctr) := by
  unfold ensureContainerImage
  apply Opens.bind (opens_only only_get)
  intro st
  apply Opens.bind (opens_only (only_lift (uses_sleepAfter (fun _ => trivial) _)))
  intro _
  apply Opens.bind (opens_ask (by trivial))
  intro r
  split
  · exact opens_only (only_modify _)
  · apply Opens.bind (opens_markUnscheduled (markImagePullError_phase _ _))
    intro _
    apply Opens.bind (opens_only (only_modify _))
    intro _
    split
    · exact (reopens_exit _).opens
    · exact (reopens_exit _).opens

theorem opens_enterSandbox (id : String) (ip : Option String) : Opens (enterSandbox worker pod id ip) := by
  unfold enterSandbox
  apply Opens.bind (opens_only (only_modify _))
  intro _
  apply Opens.bind (opens_only (only_adoptListed pod id))
  intro _
  exact opens_updateStored fun ls hls => Every.pure hls

theorem opens_ensureSandbox : Opens (ensureSandbox worker pod) := by
  have hcreate : (createSandbox worker pod).Uses Request.Silent :=
    (uses_createSandbox worker pod).mono (fun _ hop => hop.sandboxing.2) fun _ _ => trivial
  unfold ensureSandbox
  apply Opens.bind (opens_only only_get)
  intro st
  split
  · exact opens_pure _
  · apply Opens.bind (opens_only (only_lift hcreate))
    intro r
    split
    · exact Opens.bind (opens_enterSandbox _ _) fun _ => opens_pure _
    · exact Opens.bind (opens_markUnscheduled fun _ => rfl) fun _ => (reopens_exit _).opens

/-- The pass goes to sleep with an open phase only. -/
theorem opens_crashLoopSleep (name : String) (seconds : ℕ) : Opens (crashLoopSleep pod name seconds) := by
  unfold crashLoopSleep
  apply Opens.bind (opens_only (only_modify _))
  intro _
  apply opens_updatePodStatus_bind
  apply reopens_silent_bind (silent_of_calm uses_reportStored)
  intro _ st w
  rw [Routine.meets_bind,Routine.meets_lift]
  have hop : (Request.sleep seconds).Silent := trivial
  have hsleep : (sleep seconds).Meets openContract (fun _ w => w.terminal = false) w := by
    refine Program.meets_request (P := fun _ => True) trivial (fun _ _ h _ => h) ?_
    intro w _
    refine ⟨fun _ h => (nomatch h),?_⟩
    rintro a w' ⟨hopen,c,hrespond⟩
    exact (terminal_of_silent hop hrespond).trans (hopen seconds rfl)
  exact hsleep

theorem opens_initBackoff (name : String) : Opens (initBackoff pod name) := by
  unfold initBackoff
  apply Opens.bind (opens_only only_get)
  intro st
  dsimp only
  split
  · exact opens_crashLoopSleep name _
  · exact opens_pure ()

theorem opens_initProceeds (ctr : ContainerSpec) : Opens (initProceeds pod ctr) := by
  unfold initProceeds
  apply Opens.bind (opens_only only_get)
  intro st
  split
  · exact opens_pure _
  · split
    · unfold sidecarRuns
      apply Opens.bind (opens_ask (by trivial))
      intro r
      split
      · split
        · exact Opens.bind (opens_only (inert_armProbes ctr _).silent) fun _ => opens_pure _
        · exact opens_pure _
      · exact opens_pure _
    · unfold initCompleted
      apply Opens.bind (opens_ask (by trivial))
      intro r
      split
      · split
        · exact opens_updatePodStatus_bind (reopens_exit _)
        · split
          · exact opens_pure _
          · split
            · apply opens_updatePodStatus_bind
              exact Reopens.bind (reopens_terminateFailed fun ls => Every.pure rfl) fun _ => opens_pure _
            · exact Opens.bind (opens_only (inert_snapshot _ _ _).silent) fun _ => opens_pure _
        · exact opens_pure _
      · exact opens_pure _

theorem opens_startFailed (name : String) (e : KubeletError) : Opens (startFailed name e) := by
  unfold startFailed
  split
  · exact Opens.bind (opens_only (only_modify _)) fun _ => (reopens_exit _).opens
  · exact opens_only (only_modify _)

theorem opens_attempt (ctr : ContainerSpec) (sandboxId : String) :
    Opens (Routine.attempt (startContainer pod ctr sandboxId)) :=
  opens_only (Keeps.attempt (only_startContainer pod ctr sandboxId))

theorem opens_runInitContainer (sandboxId : String) (ctr : ContainerSpec) :
    Opens (runInitContainer pod sandboxId ctr) := by
  unfold runInitContainer
  apply Opens.bind (opens_initProceeds ctr)
  intro proceed
  split
  · exact opens_pure ()
  · apply Opens.bind (opens_initBackoff ctr.name)
    intro _
    apply Opens.bind (opens_attempt ctr sandboxId)
    intro r
    split
    · apply Opens.bind (opens_only (only_modify _))
      intro _
      split
      · exact opens_pure ()
      · exact opens_updatePodStatus_bind (reopens_exit _)
    · apply Opens.bind (opens_startFailed ctr.name _)
      intro _
      exact opens_updatePodStatus_bind (reopens_exit _)

theorem opens_markInitialized : Opens (markInitialized pod) := by
  unfold markInitialized
  split
  · exact opens_pure ()
  · intro st w hw
    rw [Routine.meets_bind,Routine.meets_lift]
    refine (meets_getStatus hw).mono ?_
    rintro ls w ⟨hw,hls⟩
    cases ls with
    | none => exact hw
    | some ls =>
      dsimp only
      split
      · exact hw
      · have hnow : now.Uses Request.Silent := uses_ask trivial
        rw [Routine.meets_bind,Routine.meets_lift]
        refine (open_of_silent hnow hw).mono ?_
        intro t w hw
        dsimp only
        rw [Routine.meets_lift]
        exact meets_setStatus_open hw fun w => hls ls rfl

theorem only_resizeWhenArmed (ctr : ContainerSpec) (cid : String) (armed : Bool) :
    Only Request.Silent (resizeWhenArmed ctr cid armed) := by
  unfold resizeWhenArmed
  split
  · exact (inert_applyContainerResizeIfNeeded ctr.name cid ctr.resources).silent
  · exact only_pure ()

theorem opens_appProceeds (ctr : ContainerSpec) : Opens (appProceeds pod ctr) := by
  unfold appProceeds
  apply Opens.bind (opens_only only_get)
  intro st
  split
  · exact opens_pure _
  · apply Opens.bind (opens_ask (by trivial))
    intro r
    split
    · split
      · apply Opens.bind (opens_only (inert_armProbes ctr _).silent)
        intro armed
        exact Opens.bind (opens_only (only_resizeWhenArmed ctr _ armed)) fun _ => opens_pure _
      · unfold appExited
        apply Opens.bind (opens_only (inert_snapshot _ _ _).silent)
        intro _
        split
        · apply Opens.bind (opens_only only_get)
          intro st
          exact Opens.bind (opens_crashLoopSleep ctr.name _) fun _ => opens_pure _
        · exact opens_pure _
      · exact opens_pure _
    · exact opens_pure _

theorem opens_runAppContainer (sandboxId : String) (ctr : ContainerSpec) :
    Opens (runAppContainer pod sandboxId ctr) := by
  unfold runAppContainer
  apply Opens.bind (opens_appProceeds ctr)
  intro proceed
  split
  · exact opens_pure ()
  · apply Opens.bind (opens_only only_get)
    intro st
    split
    · exact opens_pure ()
    · apply Opens.bind (opens_only (only_lift (uses_sleepAfter (fun _ => trivial) _)))
      intro _
      apply Opens.bind (opens_attempt ctr sandboxId)
      intro r
      split
      · exact opens_only (only_modify _)
      · exact opens_startFailed ctr.name _

theorem opens_runEphemeralContainer (sandboxId : String) (ctr : ContainerSpec) :
    Opens (runEphemeralContainer pod sandboxId ctr) := by
  unfold runEphemeralContainer
  apply Opens.bind (opens_only only_get)
  intro st
  split
  · exact opens_pure ()
  · exact Opens.bind (opens_attempt ctr sandboxId) fun _ => opens_pure ()

/-- After a step with an open phase comes one that may leave any phase. -/
theorem Opens.meets_bind {m : SyncM α} {f : α → SyncM β} {st : PodRuntimeState} (hm : Opens m)
    (hw : w.terminal = false) (hf : ∀ a st w, w.terminal = false →
      (f a).Meets openContract (fun _ _ _ => True) st w) :
    (m >>= f).Meets openContract (fun _ _ _ => True) st w := by
  rw [Routine.meets_bind]
  refine (hm st w hw).mono ?_
  intro r st w hr
  cases r with
  | ok a => exact hf a st w hr
  | error e => trivial

theorem any_syncContainers (sandboxId : String) (st : PodRuntimeState) (hw : w.terminal = false) :
    (syncContainers pod sandboxId).Meets openContract (fun _ _ _ => True) st w := by
  unfold syncContainers
  refine Opens.meets_bind (opens_forEach fun ctr _ => opens_runInitContainer sandboxId ctr) hw ?_
  intro _ st w hw
  refine Opens.meets_bind opens_markInitialized hw ?_
  intro _ st w hw
  refine Opens.meets_bind (opens_forEach fun ctr _ => opens_runAppContainer sandboxId ctr) hw ?_
  intro _ st w hw
  refine Opens.meets_bind (opens_only only_get) hw ?_
  intro st' st w hw
  refine Opens.meets_bind (opens_only (only_lift (silent_of_calm (uses_stopSidecarsWhenDone pod st')))) hw ?_
  intro _ st w hw
  refine Opens.meets_bind (opens_forEach fun ctr _ => opens_runEphemeralContainer sandboxId ctr) hw ?_
  intro _ st w hw
  refine Opens.meets_bind (opens_only only_get) hw ?_
  intro st' st w hw
  rw [Routine.meets_lift]
  exact any_updatePodStatus st' hw

/-- A pass that begins with an open phase puts no other phase in the place of a terminal one. -/
theorem meets_openPass (st : PodRuntimeState) (hw : w.terminal = false) :
    (syncPod worker pod st).Meets openContract (fun _ _ => True) w := by
  have hsteps : (syncSteps worker pod).Meets openContract (fun _ _ _ => True) st w := by
    unfold syncSteps
    split
    · trivial
    · refine Opens.meets_bind opens_checkDeadline hw ?_
      intro _ st w hw
      refine Opens.meets_bind opens_ensureVolumes hw ?_
      intro _ st w hw
      refine Opens.meets_bind (opens_forEach fun ctr _ => opens_ensureContainerImage ctr) hw ?_
      intro _ st w hw
      refine Opens.meets_bind opens_ensureSandbox hw ?_
      intro sandboxId st w hw
      exact any_syncContainers sandboxId st hw
  unfold syncPod
  rw [Program.meets_bind]
  refine Program.Meets.mono hsteps ?_
  rintro ⟨r,st⟩ w _
  cases r with
  | error r => trivial
  | ok _ => trivial

end KubeAir.Worker
