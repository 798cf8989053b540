import KubeAir.Worker.NodeFrame
import KubeAir.Worker.SyncPod

/-! # What the parts of a pass can call

Most parts of a pass neither touch a container nor what the worker remembers about
containers. These frame facts hold whatever the answers are.
-/
namespace KubeAir.Worker
open Core Transition Program Routine

/-- Calls that touch no container, make no sandbox and write no status. -/
def Request.Quiet : Request → Prop
  | .createContainer _ => False
  | .startContainer _ => False
  | .removeContainer _ => False
  | .removePodSandbox _ => False
  | .runPodSandbox _ => False
  | .setStatus _ => False
  | _ => True

/-- Calls outside of the steps that decide about a container, prepare it and start it. -/
def Request.Aside : Request → Prop
  | .prepareContainer _ => False
  | .createContainer _ => False
  | .startContainer _ => False
  | .runPostStart .. => False
  | .containerStatus .decision _ => False
  | .listContainers (.recovery _) => False
  | _ => True

/-- Calls on the side that are quiet. -/
def Request.Calm : Request → Prop
  | .prepareContainer _ => False
  | .createContainer _ => False
  | .startContainer _ => False
  | .runPostStart .. => False
  | .containerStatus .decision _ => False
  | .listContainers (.recovery _) => False
  | .removeContainer _ => False
  | .removePodSandbox _ => False
  | .runPodSandbox _ => False
  | .setStatus _ => False
  | _ => True

/-- Calls on the side that touch no container and may write the status. -/
def Request.Reporting : Request → Prop
  | .prepareContainer _ => False
  | .createContainer _ => False
  | .startContainer _ => False
  | .runPostStart .. => False
  | .containerStatus .decision _ => False
  | .listContainers (.recovery _) => False
  | .removeContainer _ => False
  | .removePodSandbox _ => False
  | _ => True

/-- Calls that take a pod down. -/
def Request.Teardown : Request → Prop
  | .pause _ => True
  | .stopContainer .. => True
  | .removeContainer _ => True
  | .stopPodSandbox _ => True
  | .removePodSandbox _ => True
  | .unmountPodVolumes => True
  | .runPreStop .. => True
  | .forgetProbes _ => True
  | _ => False

/-- Calls that find a sandbox, make one or clean it up. -/
def Request.Housing : Request → Prop
  | .ensureImage _ => True
  | .listPodSandboxes => True
  | .podSandboxStatus _ => True
  | .runPodSandbox _ => True
  | .stopPodSandbox _ => True
  | .removePodSandbox _ => True
  | _ => False

/-- Calls that write no status. -/
def Request.Silent : Request → Prop
  | .setStatus _ => False
  | _ => True

theorem Request.Quiet.passive {op : Request} (h : op.Quiet) : op.Passive := by
  cases op with
  | createContainer | startContainer | removeContainer | removePodSandbox => exact h
  | _ => trivial

theorem Request.Quiet.silent {op : Request} (h : op.Quiet) : op.Silent := by
  cases op with
  | setStatus => exact h
  | _ => trivial

theorem Request.Calm.quiet {op : Request} (h : op.Calm) : op.Quiet := by
  cases op with
  | createContainer | startContainer | removeContainer | removePodSandbox | runPodSandbox | setStatus => exact h
  | _ => trivial

theorem Request.Calm.reporting {op : Request} (h : op.Calm) : op.Reporting := by
  cases op with
  | createContainer | startContainer | removeContainer | removePodSandbox | prepareContainer | runPostStart => exact h
  | containerStatus site _ | listContainers site => cases site <;> trivial
  | _ => trivial

theorem Request.Reporting.passive {op : Request} (h : op.Reporting) : op.Passive := by
  cases op with
  | createContainer | startContainer | removeContainer | removePodSandbox => exact h
  | _ => trivial

theorem Request.Reporting.aside {op : Request} (h : op.Reporting) : op.Aside := by
  cases op with
  | createContainer | startContainer | prepareContainer | runPostStart => exact h
  | containerStatus site _ | listContainers site => cases site <;> trivial
  | _ => trivial

theorem Request.Calm.silent {op : Request} (h : op.Calm) : op.Silent := h.quiet.silent

theorem Request.Teardown.silent {op : Request} (h : op.Teardown) : op.Silent := by
  cases op with
  | setStatus => exact h
  | _ => trivial

theorem Request.Teardown.startsNothing {op : Request} (h : op.Teardown) : op.StartsNothing := by
  cases op with
  | startContainer => exact h
  | _ => trivial

theorem Request.Teardown.aside {op : Request} (h : op.Teardown) : op.Aside := by
  cases op with
  | createContainer | startContainer | prepareContainer | runPostStart => exact h
  | containerStatus site _ | listContainers site => exact h.elim
  | _ => trivial

theorem Request.Housing.aside {op : Request} (h : op.Housing) : op.Aside := by
  cases op with
  | createContainer | startContainer | prepareContainer | runPostStart => exact h
  | containerStatus site _ | listContainers site => exact h.elim
  | _ => trivial

/-- Calls that start no container and write no status. -/
def Request.Sandboxing (op : Request) : Prop := op.StartsNothing ∧ op.Silent

theorem Request.Housing.sandboxing {op : Request} (h : op.Housing) : op.Sandboxing := by
  cases op with
  | startContainer | setStatus => exact h.elim
  | _ => exact ⟨trivial,trivial⟩

/-- The worker remembers the same sandbox and the same containers. -/
def SameIds (st st' : PodRuntimeState) : Prop :=
  st'.sandboxId = st.sandboxId ∧ st'.containerIds = st.containerIds

theorem sameIds_refl (st : PodRuntimeState) : SameIds st st := ⟨rfl,rfl⟩

theorem sameIds_trans (a b c : PodRuntimeState) (hab : SameIds a b) (hbc : SameIds b c) : SameIds a c :=
  ⟨hbc.1.trans hab.1,hbc.2.trans hab.2⟩

variable {U : Request → Prop} {ε α β : Type}

/-- A routine that remembers the same containers and whose calls all satisfy `U`. -/
abbrev Inert (U : Request → Prop) (m : PassM ε α) : Prop := m.Keeps U SameIds

theorem inert_bind {m : PassM ε α} {f : α → PassM ε β} (hm : Inert U m) (hf : ∀ a, Inert U (f a)) :
    Inert U (m >>= f) :=
  Keeps.bind sameIds_trans hm hf

theorem inert_pure (a : α) : Inert U (pure a : PassM ε α) := Keeps.pure sameIds_refl a

theorem inert_get : Inert U (Routine.get : PassM ε PodRuntimeState) := Keeps.get sameIds_refl

theorem inert_exit (e : ε) : Inert U (Routine.exit e : PassM ε α) := Keeps.exit sameIds_refl e

theorem inert_lift {p : WorkerM α} (h : p.Uses U) : Inert U (liftM p : PassM ε α) :=
  Keeps.lift sameIds_refl h

theorem Inert.mono {U' : Request → Prop} {m : PassM ε α} (h : Inert U m) (hU : ∀ op, U op → U' op) :
    Inert U' m :=
  fun st => (h st).mono hU (fun _ hr => hr)

theorem meets_orExit {W : Type} {C : Contract Request Request.Answer W} {q : WorkerM (Except KubeletError α)}
    {Q : Except KubeletError α → PodRuntimeState → W → Prop} {st : PodRuntimeState} {w : W} :
    (orExit q).Meets C Q st w ↔ q.Meets C (fun a => Q a st) w := by
  unfold orExit
  rw [Routine.meets_bind,Routine.meets_lift]
  constructor
  · intro h
    refine h.mono ?_
    intro a w ha
    cases a with
    | ok a => exact ha
    | error e => exact ha
  · intro h
    refine h.mono ?_
    intro a w ha
    cases a with
    | ok a => exact ha
    | error e => exact ha

theorem uses_ask {op : Request} (h : U op) : (ask op).Uses U := Every.request h

theorem uses_pure (a : α) : (pure a : WorkerM α).Uses U := trivial

theorem uses_ite {c : Prop} [Decidable c] {p q : WorkerM α} (hp : p.Uses U) (hq : q.Uses U) :
    (if c then p else q).Uses U := by
  split
  · exact hp
  · exact hq

theorem aside_of_calm {m : PassM ε α} (h : Inert Request.Calm m) : Inert Request.Aside m :=
  h.mono fun _ hop => hop.reporting.aside

theorem aside_of_reporting {m : PassM ε α} (h : Inert Request.Reporting m) : Inert Request.Aside m :=
  h.mono fun _ hop => hop.aside

/-! ## Teardown -/

section Teardown
variable (worker : PodWorker) (pod : PodSpec) (state : PodRuntimeState)

theorem uses_cleanupSandbox (sandboxId : String) : (cleanupSandbox sandboxId).Uses Request.Teardown :=
  Uses.bind (uses_ask trivial) fun _ => Uses.bind (uses_ask trivial) fun _ => trivial

theorem uses_stopForTermination (gracePeriod : ℕ) (name containerId : String) :
    (stopForTermination pod gracePeriod name containerId).Uses Request.Teardown := by
  unfold stopForTermination
  apply Uses.bind
  · unfold preStop
    split
    · exact uses_ask trivial
    · exact uses_pure ()
  · intro _
    apply Uses.bind (uses_ask trivial)
    intro r
    split
    · trivial
    · exact Uses.bind (uses_ask trivial) fun _ => trivial

theorem uses_removeWithRetries (containerId : String) (attempts : ℕ) :
    (removeWithRetries containerId attempts).Uses Request.Teardown := by
  induction attempts with
  | zero => trivial
  | succ attempts ih =>
    apply Uses.bind (uses_ask trivial)
    intro r
    split
    · trivial
    · split
      · trivial
      · exact Uses.bind (uses_ask trivial) fun _ => ih

theorem uses_terminatePod (gracePeriod : ℕ) :
    (terminatePod pod state gracePeriod).Uses Request.Teardown := by
  unfold terminatePod
  apply Uses.bind (Uses.forEach fun e _ => uses_stopForTermination pod gracePeriod e.1 e.2)
  intro _
  apply Uses.bind (uses_ask trivial)
  intro _
  apply Uses.bind (Uses.forEach fun e _ => uses_removeWithRetries e.2 3)
  intro _
  apply Uses.bind
  · unfold cleanupOwnSandbox
    split
    · exact uses_cleanupSandbox _
    · exact uses_pure ()
  · intro _
    apply Uses.bind (uses_ask trivial)
    intro _
    exact Uses.forEach fun e _ => uses_ask trivial

/-! ## The status pass -/

theorem uses_orNow (t : Option DateTime) : (orNow t).Uses Request.Calm := by
  cases t with
  | some t => trivial
  | none => exact uses_ask trivial

theorem uses_initContainerState (ctr : ContainerSpec) (s : RuntimeContainer) :
    (initContainerState state ctr s).Uses Request.Calm := by
  unfold initContainerState
  split
  · exact Uses.bind (uses_orNow _) fun _ => trivial
  · exact Uses.bind (uses_ask trivial) fun _ => uses_ite (uses_pure _) (uses_pure _)
  · trivial

theorem uses_observeInitContainer (before : List ContainerStatus) (ctr : ContainerSpec) :
    (observeInitContainer pod state before ctr).Uses Request.Calm := by
  unfold observeInitContainer
  split
  · apply Uses.bind (uses_ask trivial)
    intro r
    split
    · exact Uses.bind (uses_initContainerState state ctr _) fun _ => trivial
    · trivial
  · trivial

theorem uses_probeReady (ctr : ContainerSpec) (cid : String) : (probeReady ctr cid).Uses Request.Calm :=
  uses_ite (Uses.bind (uses_ask trivial) fun _ => uses_pure _) (uses_pure _)

theorem uses_initContainerReady (ctr : ContainerSpec) (current : ContainerState) :
    (initContainerReady state ctr current).Uses Request.Calm := by
  unfold initContainerReady
  split
  · exact uses_pure _
  · apply uses_ite ?_ (uses_pure _)
    split
    · exact uses_probeReady ctr _
    · exact uses_pure _

theorem uses_initContainerStatuses (previous before : List ContainerStatus) (ctrs : List ContainerSpec) :
    (initContainerStatuses pod state previous before ctrs).Uses Request.Calm := by
  induction ctrs generalizing before with
  | nil => trivial
  | cons ctr rest ih =>
    apply Uses.bind ?_ fun status => ih _
    exact Uses.bind (uses_observeInitContainer pod state before ctr) fun _ =>
      Uses.bind (uses_initContainerReady state ctr _) fun _ => trivial

theorem uses_justStarted (name : String) : (justStarted state name).Uses Request.Calm := by
  unfold justStarted
  split
  · exact Uses.bind (uses_ask trivial) fun _ => trivial
  · trivial

theorem uses_appContainerState (ctr : ContainerSpec) (cid : String) (s : RuntimeContainer) :
    (appContainerState state ctr cid s).Uses Request.Calm := by
  unfold appContainerState
  split
  · apply Uses.bind (uses_probeReady ctr cid)
    intro _
    exact Uses.bind (uses_orNow _) fun _ => trivial
  · apply Uses.bind (uses_ask trivial)
    intro _
    apply Uses.bind (uses_justStarted state ctr.name)
    intro _
    apply uses_ite
    · exact Uses.bind (uses_orNow _) fun _ => trivial
    · exact uses_ite (uses_pure _) (Uses.bind (uses_ask trivial) fun _ => uses_pure _)
  · trivial

theorem uses_appContainerStatus (previous : List ContainerStatus) (allInitsDone : Bool) (ctr : ContainerSpec) :
    (appContainerStatus state previous allInitsDone ctr).Uses Request.Calm := by
  unfold appContainerStatus observeAppContainer
  apply Uses.bind
  · split
    · apply Uses.bind (uses_ask trivial)
      intro r
      split
      · exact Uses.bind (uses_appContainerState state ctr _ _) fun _ => trivial
      · trivial
    · trivial
  · exact fun _ => trivial

theorem uses_ephemeralContainerState (s : RuntimeContainer) :
    (ephemeralContainerState s).Uses Request.Calm := by
  unfold ephemeralContainerState
  split
  · exact Uses.bind (uses_orNow _) fun _ => uses_pure _
  · exact Uses.bind (uses_ask trivial) fun _ => uses_pure _
  · exact uses_pure _

theorem uses_ephemeralContainerStatus (ctr : ContainerSpec) :
    (ephemeralContainerStatus state ctr).Uses Request.Calm := by
  unfold ephemeralContainerStatus observeEphemeralContainer
  apply Uses.bind
  · split
    · apply Uses.bind (uses_ask trivial)
      intro r
      split
      · exact Uses.bind (uses_ephemeralContainerState _) fun _ => uses_pure _
      · exact uses_pure _
    · exact uses_pure _
  · exact fun _ => trivial

theorem uses_updatePodStatus : (updatePodStatus pod state).Uses Request.Reporting := by
  have hcalm {α : Type} {p : WorkerM α} (h : p.Uses Request.Calm) : p.Uses Request.Reporting :=
    h.mono (fun _ hop => hop.reporting) (fun _ _ => trivial)
  unfold updatePodStatus
  apply Uses.bind (uses_ask trivial)
  intro ls
  apply Uses.bind (hcalm (uses_initContainerStatuses pod state _ _ _))
  intro initStatuses
  apply Uses.bind (Uses.forList fun ctr _ => hcalm (uses_appContainerStatus state _ _ ctr))
  intro statuses
  apply Uses.bind (Uses.forList fun ctr _ => hcalm (uses_ephemeralContainerStatus state ctr))
  intro ephemeralStatuses
  exact Uses.bind (uses_ask trivial) fun _ => uses_ask trivial

theorem aside_cleanupReserved (ctr : ContainerSpec) (reserved : Option String) : (cleanupReserved pod ctr reserved).Uses Request.Aside := by
  have hname : (cleanupReservedContainerName pod ctr).Uses Request.Aside := by
    unfold cleanupReservedContainerName
    apply Uses.bind (uses_ask trivial)
    intro r
    split
    · trivial
    · exact Uses.forEach fun c _ => Uses.bind (uses_ask trivial) fun _ => uses_pure ()
  cases reserved with
  | none => exact hname
  | some id =>
    refine Uses.bind ?_ fun _ => hname
    exact Uses.bind (uses_ask trivial) fun _ => Uses.bind (uses_ask trivial) fun _ => uses_pure ()

/-! ## Making a sandbox -/

theorem housing_cleanupSandbox (sandboxId : String) : (cleanupSandbox sandboxId).Uses Request.Housing :=
  Uses.bind (uses_ask trivial) fun _ => Uses.bind (uses_ask trivial) fun _ => trivial

theorem uses_recoverFrom (l : List SandboxStatus) : (recoverFrom worker pod l).Uses Request.Housing := by
  induction l with
  | nil => trivial
  | cons sandbox rest ih =>
    unfold recoverFrom
    apply uses_ite ih
    apply uses_ite
    · apply Uses.bind (uses_ask trivial)
      intro r
      split <;> trivial
    · exact Uses.bind (housing_cleanupSandbox _) fun _ => ih

theorem uses_createSandbox : (createSandbox worker pod).Uses Request.Housing := by
  have hrecover : (recoverExistingSandbox worker pod).Uses Request.Housing := by
    apply Uses.bind (uses_ask trivial)
    intro r
    split
    · trivial
    · exact uses_recoverFrom worker pod _
  have hstale : (cleanupStaleSandboxesForPod worker pod).Uses Request.Housing := by
    apply Uses.bind (uses_ask trivial)
    intro r
    split
    · trivial
    · exact Uses.forEach fun sandbox _ => housing_cleanupSandbox sandbox.id
  have hnew : (runNewSandbox worker pod).Uses Request.Housing := by
    apply Uses.bind (uses_ask trivial)
    intro r
    split
    · trivial
    · exact uses_ite (Uses.bind hstale fun _ => uses_ask trivial) trivial
  unfold createSandbox
  apply Uses.bind (uses_ask trivial)
  intro r
  split
  · trivial
  · apply Uses.bind hrecover
    intro r
    split
    · trivial
    · trivial
    · apply Uses.bind hnew
      intro r
      split
      · trivial
      · apply Uses.bind (uses_ask trivial)
        intro r
        split <;> trivial

/-! ## Steps that leave the containers alone -/

theorem inert_armProbe (kind : ProbeKind) (probe : Option Probe) (name cid : String) :
    Inert Request.Calm (armProbe kind probe name cid) := by
  unfold armProbe
  apply inert_bind inert_get
  intro st
  split
  · apply inert_bind (inert_lift (uses_ask trivial))
    intro _
    exact Keeps.modify fun st => by cases kind <;> exact ⟨rfl,rfl⟩
  · exact inert_pure ()

theorem inert_armProbes (ctr : ContainerSpec) (cid : String) : Inert Request.Calm (armProbes ctr cid) := by
  unfold armProbes
  apply inert_bind (inert_armProbe _ _ _ _)
  intro _
  apply inert_bind
  · exact inert_lift (uses_ite (Uses.bind (uses_ask trivial) fun _ => uses_pure _) (uses_pure _))
  · intro started
    split
    · exact inert_bind (inert_armProbe _ _ _ _) fun _ =>
        inert_bind (inert_armProbe _ _ _ _) fun _ => inert_pure _
    · exact inert_pure _

theorem inert_applyContainerResizeIfNeeded (name cid : String) (resources : ResourceRequirements) :
    Inert Request.Calm (applyContainerResizeIfNeeded name cid resources) := by
  unfold applyContainerResizeIfNeeded
  apply inert_bind inert_get
  intro st
  split
  · exact inert_pure ()
  · apply inert_bind (inert_lift (uses_ask trivial))
    intro r
    split
    · exact inert_pure ()
    · exact Keeps.modify fun st => ⟨rfl,rfl⟩

theorem inert_resizeWhenArmed (ctr : ContainerSpec) (cid : String) (armed : Bool) :
    Inert Request.Reporting (resizeWhenArmed ctr cid armed) := by
  unfold resizeWhenArmed
  split
  · exact (inert_applyContainerResizeIfNeeded ctr.name cid ctr.resources).mono fun _ hop => hop.reporting
  · exact inert_pure ()

theorem inert_snapshot (name reason : String) (s : RuntimeContainer) :
    Inert Request.Calm (snapshot name reason s) :=
  inert_bind (inert_lift (uses_orNow _)) fun _ => inert_bind (inert_lift (uses_orNow _)) fun _ =>
    Keeps.modify fun _ => ⟨rfl,rfl⟩

theorem uses_reportStored : reportStored.Uses Request.Calm := by
  unfold reportStored
  apply Uses.bind (uses_ask trivial)
  intro ls
  split
  · exact Uses.bind (uses_ask trivial) fun _ => uses_pure _
  · exact uses_pure _

theorem inert_crashLoopSleep (name : String) (seconds : ℕ) :
    Inert Request.Reporting (crashLoopSleep pod name seconds) := by
  unfold crashLoopSleep
  apply inert_bind
  · exact Keeps.modify fun st => ⟨rfl,rfl⟩
  intro _
  apply inert_bind inert_get
  intro st
  apply inert_bind (inert_lift (uses_updatePodStatus pod st))
  intro _
  apply inert_bind ((inert_lift uses_reportStored).mono fun _ hop => hop.reporting)
  intro _
  exact inert_bind (inert_lift (uses_ask trivial)) fun _ => Keeps.modify fun st => ⟨rfl,rfl⟩

theorem uses_updateStored {f : PodLifecycleState → WorkerM PodLifecycleState}
    (hf : ∀ ls, (f ls).Uses Request.Calm) : (updateStored f).Uses Request.Reporting := by
  unfold updateStored
  apply Uses.bind (uses_ask trivial)
  intro ls
  split
  · next ls =>
    apply Uses.bind ((hf ls).mono (fun _ hop => hop.reporting) (fun _ _ => trivial))
    exact fun _ => uses_ask trivial
  · exact uses_pure _

theorem uses_deadlineExceededState (ls : PodLifecycleState) :
    (deadlineExceededState ls).Uses Request.Calm :=
  Uses.bind (uses_ask trivial) fun _ => uses_pure _

theorem uses_markUnscheduled (reason message : String) (f : PodLifecycleState → PodLifecycleState) :
    (markUnscheduled reason message f).Uses Request.Reporting :=
  uses_updateStored fun _ => Uses.bind (uses_ask trivial) fun _ => uses_pure _

theorem inert_ensureVolumes : Inert Request.Reporting ensureVolumes := by
  unfold ensureVolumes
  apply inert_bind inert_get
  intro st
  apply inert_bind (inert_lift (uses_ask trivial))
  intro r
  split
  · exact inert_pure ()
  · exact inert_bind (inert_lift (uses_markUnscheduled _ _ _)) fun _ => inert_exit _

theorem uses_sleepAfter (hU : ∀ seconds, U (.sleep seconds)) (failures : ℕ) : (sleepAfter failures).Uses U :=
  uses_ite (uses_ask (hU _)) (uses_pure ())

theorem inert_ensureContainerImage (ctr : ContainerSpec) :
    Inert Request.Reporting (ensureContainerImage ctr) := by
  unfold ensureContainerImage
  apply inert_bind inert_get
  intro st
  apply inert_bind (inert_lift (uses_sleepAfter (fun _ => trivial) _))
  intro _
  apply inert_bind (inert_lift (uses_ask trivial))
  intro r
  split
  · exact Keeps.modify fun st => ⟨rfl,rfl⟩
  · apply inert_bind (inert_lift (uses_markUnscheduled _ _ _))
    intro _
    apply inert_bind
    · exact Keeps.modify fun st => ⟨rfl,rfl⟩
    intro _
    split
    · exact inert_exit _
    · exact inert_exit _

theorem inert_initBackoff (name : String) : Inert Request.Reporting (initBackoff pod name) := by
  unfold initBackoff
  apply inert_bind inert_get
  intro st
  dsimp only
  split
  · exact inert_crashLoopSleep pod name _
  · exact inert_pure ()

theorem inert_markInitialized : Inert Request.Reporting (markInitialized pod) := by
  unfold markInitialized
  split
  · exact inert_pure ()
  · apply inert_bind (inert_lift (uses_ask trivial))
    intro ls
    split
    · exact inert_pure ()
    · split
      · exact inert_pure ()
      · exact inert_bind (inert_lift (uses_ask trivial)) fun _ => inert_lift (uses_ask trivial)

theorem uses_allExited (ctrs : List ContainerSpec) : (allExited state ctrs).Uses Request.Calm := by
  induction ctrs with
  | nil => trivial
  | cons ctr rest ih =>
    unfold allExited
    split
    · exact uses_pure _
    · apply Uses.bind (uses_ask trivial)
      intro r
      split
      · exact uses_ite ih (uses_pure _)
      · exact uses_pure _

theorem uses_stopSidecarsWhenDone : (stopSidecarsWhenDone pod state).Uses Request.Calm := by
  unfold stopSidecarsWhenDone allAppContainersTerminated
  apply Uses.bind (uses_ite (uses_pure _) (uses_allExited state _))
  intro done
  refine uses_ite ?_ (uses_pure ())
  apply Uses.forEach
  intro sidecar _
  split
  · exact uses_pure ()
  · exact Uses.bind (uses_ask trivial) fun _ => uses_pure ()

end Teardown
end KubeAir.Worker
