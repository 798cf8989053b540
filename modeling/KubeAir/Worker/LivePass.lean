import KubeAir.Worker.LiveContainers
import KubeAir.Worker.SyncFrame

/-! # A pass starts only what is down

The worker tells what runs from its answers: the status it asks for before a decision, the
listing at recovery, and what becomes of a container that has started although its start was
answered with an error, or whose PostStart hook has failed. Where these tell the truth about
what runs, `start_container` is called only for a name that is down.
-/
namespace KubeAir.Worker
open Core Transition Program Routine

variable (pod : PodSpec)

/-! ## The condition -/

/-- The running containers of the pod that have a name of the pod. -/
def runningDeclared (w : Node) : List (Σ _ : String, ContainerRecord) :=
  w.containers.entries.filter fun e =>
    e.2.podUid == pod.uid.val && decide (e.2.state = .running) && decide (Declared pod e.2.name)

/-- The listing shows each of them before the others that recovery would adopt under its name. -/
def ShowsRunning (w : Node) (ids : List String) : Prop :=
  ∀ e ∈ runningDeclared pod w,
    ids.find? (fun id => (adoptable pod w e.2.name).any (fun a => a.1 == id)) = some e.1

instance (w : Node) (ids : List String) : Decidable (ShowsRunning pod w ids) := by
  unfold ShowsRunning
  infer_instance

/-- The worker is told what runs; the stray container is the one that it has to stop or to remove. -/
def Tells (w : Node) (stray : Option String) (op : Request) (o : Outcome) : Prop :=
  match op with
  | .containerStatus .decision id => w.isRunning id = true → o.errs = false
  | .listContainers (.recovery _) =>
    match o with
    | .reply (.listed ids) => ShowsRunning pod w ids
    | _ => runningDeclared pod w = []
  | .stopContainer id _ => stray = some id → w.isRunning id = true → o.fails = false
  | .removeContainer id => stray = some id → w.isRunning id = true → o.fails = false
  | _ => True

instance (w : Node) (stray : Option String) (op : Request) (o : Outcome) : Decidable (Tells pod w stray op o) := by
  induction op using Request.casesOn with
  | containerStatus site id =>
    match site with
    | .decision => exact (inferInstance : Decidable (w.isRunning id = true → o.errs = false))
    | .report => exact .isTrue trivial
  | listContainers site =>
    match site with
    | .recovery _ =>
      match o with
      | .reply (.listed ids) => exact (inferInstance : Decidable (ShowsRunning pod w ids))
      | .lost .. | .reply .accept | .reply (.fault _) | .reply (.named _) | .reply (.message _) | .reply (.time _)
      | .reply (.flag _) => exact decidable_of_iff ((runningDeclared pod w).isEmpty = true) List.isEmpty_iff
    | .nameCleanup | .podCleanup => exact .isTrue trivial
  | stopContainer id _ | removeContainer id =>
    exact (inferInstance : Decidable (stray = some id → w.isRunning id = true → o.fails = false))
  | _ => exact .isTrue trivial

/-- The container that may run although its start has failed for the worker or its PostStart hook
has, until the worker has tried to remove or to stop it. -/
def strayAfter (stray : Option String) : Request → Outcome → Option String
  | .startContainer id, o => if o.errs then some id else none
  | .runPostStart _ id _, o => if o.errs then some id else none
  | .stopContainer .., _ => none
  | .removeContainer _, _ => none
  | _, _ => stray

/-! ## The contract -/

/-- The runtime, and the container that has gone astray. -/
structure Watched where
  node : Node
  stray : Option String := none

/-- Between two calls containers exit, the worker is told what runs, and a container is prepared
and started only if none of its name runs. -/
def liveContract : Contract Request Request.Answer Watched where
  drift w w' := Node.Drift w.node w'.node ∧ w'.stray = w.stray
  allowed w op :=
    match op with
    | .prepareContainer ctr => Down pod ctr.name w.node
    | .startContainer id => ∀ r, w.node.containers.lookup id = some r → r.podUid = pod.uid.val →
        Down pod r.name w.node
    | _ => True
  answers w op ans w' := ∃ o, Tells pod w.node w.stray op o ∧
    w.node.settle op o = some (ans,w'.node) ∧ w'.stray = strayAfter w.stray op o

variable {pod} {w : Watched} {n m id : String} {ids : HashMap String String} {st : PodRuntimeState}
  {ctr : ContainerSpec} {α ε : Type}

theorem live_drift {P : Node → Prop} (hP : Falling pod P) (w w' : Watched) (hw : P w.node)
    (hd : (liveContract pod).drift w w') : P w'.node :=
  hP.drift hw hd.1

theorem Request.Aside.startsNothing {op : Request} (h : op.Aside) : op.StartsNothing := by
  cases op with
  | startContainer => exact h
  | _ => trivial

theorem allowed_of_aside {op : Request} (hop : op.Aside) : (liveContract pod).allowed w op := by
  cases op with
  | prepareContainer | startContainer => exact hop.elim
  | _ => trivial

/-- A call on the side, made where `P` holds. -/
theorem live_aside {P : Node → Prop} (hP : Falling pod P) (w : Watched) (op : Request) (hw : P w.node)
    (hop : op.Aside) : (liveContract pod).allowed w op ∧
      ∀ ans w', (liveContract pod).answers w op ans w' → P w'.node := by
  refine ⟨allowed_of_aside hop,?_⟩
  rintro ans w' ⟨o,-,hsettle,-⟩
  exact hP w.node w'.node hw (falls_settle hsettle hop.startsNothing)

theorem live_of_uses {q : WorkerM α} {P : Node → Prop} (hP : Falling pod P) (hq : q.Uses Request.Aside)
    (hw : P w.node) : q.Meets (liveContract pod) (fun _ w => P w.node) w :=
  (Every.meets (P := fun w => P w.node) hq hw (live_drift hP) (live_aside hP)).mono fun _ _ h => h.2

/-- A routine that remembers the same containers. -/
theorem live_of_inert {m : PassM ε α} {P : Node → Prop} (hP : Falling pod P) (hm : Inert Request.Aside m)
    (hw : P w.node) : m.Meets (liveContract pod) (fun _ st' w' => SameIds st st' ∧ P w'.node) st w :=
  Keeps.meets hm hw (live_drift hP) (live_aside hP)

/-! ## Starting a container -/

/-- The record of a container that is down is dropped. -/
theorem live_dropRecord (h : Tracked pod st.containerIds w.node) (hdown : Down pod m w.node) :
    (dropRecord m).Meets (liveContract pod) (fun r st' w' => r = .ok () ∧
      Tracked pod st'.containerIds w'.node ∧ Down pod m w'.node) st w := by
  unfold dropRecord
  rw [Routine.meets_bind,Routine.meets_get]
  dsimp only
  split
  · exact ⟨rfl,h,hdown⟩
  · next old _ =>
    have hq : (removeContainer old >>= fun _ => forgetProbes old : WorkerM Unit).Uses Request.Aside :=
      Uses.bind (uses_ask trivial) fun _ => uses_ask trivial
    have hkept := live_of_uses (falling_tracked.and falling_down) hq ⟨h.erase hdown,hdown⟩
    rw [Program.meets_bind] at hkept
    rw [Routine.meets_bind,Routine.meets_lift]
    refine hkept.mono ?_
    intro _ w hw
    dsimp only
    rw [Routine.meets_bind,Routine.meets_lift]
    refine hw.mono ?_
    rintro _ w ⟨htracked,hdown⟩
    exact ⟨rfl,htracked,hdown⟩

/-- What is kept while a container of the name `m` is created. -/
def Creating (pod : PodSpec) (m : String) (ids : HashMap String String) (w : Watched) : Prop :=
  Tracked pod ids w.node ∧ Down pod m w.node

theorem live_createContainer {config : CreateContainerConfig} (huid : config.podUid = pod.uid.val)
    (hname : config.container.name = m) (h : Creating pod m ids w) :
    (createContainer config).Meets (liveContract pod) (fun a w => Creating pod m ids w ∧
      ∀ cid, a = .ok cid → NamedAt pod cid m w.node) w := by
  refine Program.meets_request h (live_drift (falling_tracked.and falling_down)) ?_
  intro w hw
  refine ⟨trivial,?_⟩
  rintro a w' ⟨o,-,hsettle,-⟩
  refine ⟨(falling_tracked.and falling_down) w.node w'.node hw (falls_settle hsettle trivial),?_⟩
  rintro cid rfl
  intro r hr
  rw [(Node.settle_createContainer hsettle).2,Node.lookup_put,if_pos rfl] at hr
  obtain rfl := Option.some.inj hr
  exact ⟨huid,hname⟩

theorem live_createOrReplace {config : CreateContainerConfig} (huid : config.podUid = pod.uid.val)
    (hname : config.container.name = m) (h : Creating pod m ids w) :
    (createOrReplace pod ctr config).Meets (liveContract pod) (fun a w => Creating pod m ids w ∧
      ∀ cid, a = .ok cid → NamedAt pod cid m w.node) w := by
  unfold createOrReplace
  rw [Program.meets_bind]
  refine (live_createContainer huid hname h).mono ?_
  rintro a w ⟨hw,ha⟩
  cases a with
  | ok cid => exact ⟨hw,ha⟩
  | error e =>
    dsimp only
    split
    · rw [Program.meets_bind]
      refine (live_of_uses (falling_tracked.and falling_down) (aside_cleanupReserved pod ctr _) hw).mono ?_
      intro _ w hw
      exact live_createContainer huid hname hw
    · exact ⟨hw,fun cid heq => nomatch heq⟩

/-- A container that has started and is not going to be recorded, until it is stopped or removed. -/
def Stray (pod : PodSpec) (m id : String) (ids : HashMap String String) (w : Watched) : Prop :=
  Tracked pod (ids.insert m id) w.node ∧ w.stray = some id

theorem stray_drift (w w' : Watched) (h : Stray pod m id ids w) (hd : (liveContract pod).drift w w') :
    Stray pod m id ids w' :=
  ⟨live_drift falling_tracked w w' h.1 hd,hd.2.trans h.2⟩

theorem live_stopStray (h : Tracked pod (ids.insert m id) w.node) (hstray : w.stray = some id) :
    (stopContainer id 0).Meets (liveContract pod) (fun _ w => Tracked pod ids w.node) w := by
  refine Program.meets_request ⟨h,hstray⟩ (stray_drift (m := m)) ?_
  rintro w ⟨hw,hstray⟩
  refine ⟨trivial,?_⟩
  rintro a w' ⟨o,htells,hsettle,-⟩
  have hfalls : Falls pod w.node w'.node := falls_settle hsettle trivial
  refine (falling_tracked w.node w'.node hw hfalls).of_insert ?_
  intro hrun
  have hrunning := (hfalls m id hrun).isRunning
  rcases Node.settle_stopContainer hsettle with hstopped | hfails
  · rw [hrunning] at hstopped
    cases hstopped
  · rw [htells hstray hrunning] at hfails
    cases hfails

theorem live_removeStray (h : Tracked pod (ids.insert m id) w.node) (hstray : w.stray = some id) :
    (removeContainer id).Meets (liveContract pod) (fun _ w => Tracked pod ids w.node) w := by
  refine Program.meets_request ⟨h,hstray⟩ (stray_drift (m := m)) ?_
  rintro w ⟨hw,hstray⟩
  refine ⟨trivial,?_⟩
  rintro a w' ⟨o,htells,hsettle,-⟩
  have hfalls : Falls pod w.node w'.node := falls_settle hsettle trivial
  refine (falling_tracked w.node w'.node hw hfalls).of_insert ?_
  intro hrun
  rcases Node.settle_removeContainer hsettle with hgone | ⟨-,hfails⟩
  · obtain ⟨r,hr,-⟩ := hrun
    rw [hgone,Node.lookup_drop,if_pos rfl] at hr
    cases hr
  · rw [htells hstray (hfalls m id hrun).isRunning] at hfails
    cases hfails

/-- The container runs and is to be recorded, unless its hook fails and it is stopped. -/
theorem live_postStart (h : Tracked pod (ids.insert ctr.name id) w.node) :
    (postStart ctr id).Meets (liveContract pod) (fun r st' w' => st' = st ∧ match r with
      | .ok _ => Tracked pod (ids.insert ctr.name id) w'.node
      | .error _ => Tracked pod ids w'.node) st w := by
  unfold postStart
  split
  · exact ⟨rfl,h⟩
  · next handler _ =>
    rw [Routine.meets_bind,Routine.meets_lift]
    refine Program.meets_request h (live_drift falling_tracked) ?_
    intro w hw
    refine ⟨trivial,?_⟩
    rintro a w' ⟨o,-,hsettle,hstray⟩
    have hw' := falling_tracked w.node w'.node hw (falls_settle hsettle trivial)
    cases a with
    | ok _ => exact ⟨rfl,hw'⟩
    | error e =>
      have hstopped : w'.stray = some id := by rw [hstray,strayAfter,if_pos (Node.settle_runPostStart hsettle)]
      dsimp only
      rw [Routine.meets_bind,Routine.meets_lift]
      refine (live_stopStray hw' hstopped).mono ?_
      intro _ w hw
      exact ⟨rfl,hw⟩

theorem live_startCreated (h : Creating pod ctr.name st.containerIds w)
    (hnamed : NamedAt pod id ctr.name w.node) : (startCreated ctr id).Meets (liveContract pod)
      (fun _ st' w' => Tracked pod st'.containerIds w'.node) st w := by
  unfold startCreated
  rw [Routine.meets_bind,Routine.meets_lift]
  refine Program.meets_request (P := fun w => Creating pod ctr.name st.containerIds w ∧
    NamedAt pod id ctr.name w.node) ⟨h,hnamed⟩ ?_ ?_
  · rintro w w' ⟨hw,hnamed⟩ hd
    exact ⟨live_drift (falling_tracked.and falling_down) w w' hw hd,steady_namedAt.drift w.node w'.node hnamed hd.1⟩
  · rintro w ⟨⟨htracked,hdown⟩,hnamed⟩
    refine ⟨?_,?_⟩
    · intro r hr _
      rw [(hnamed r hr).2]
      exact hdown
    · rintro a w' ⟨o,-,hsettle,hstray⟩
      rcases Node.settle_startContainer hsettle with ⟨r,hr,hw',hanswer⟩ | ⟨e,rfl,hw'⟩
      · have hname := (hnamed r hr).2
        have hstarted : Tracked pod (st.containerIds.insert ctr.name id) w'.node := by
          rw [hw',← hname]
          exact htracked.start (by rw [hname]; exact hdown)
        rcases hanswer with rfl | ⟨e,c,e',rfl,rfl⟩
        swap
        · dsimp only
          rw [Routine.meets_bind,Routine.meets_lift]
          exact live_removeStray hstarted hstray
        dsimp only
        rw [Routine.meets_bind]
        refine (live_postStart hstarted).mono ?_
        rintro r st' w ⟨rfl,hw⟩
        cases r with
        | error e => exact hw
        | ok _ =>
          have hq : (reportedStatus id >>= fun _ => instant : WorkerM Instant).Uses Request.Aside :=
            Uses.bind (uses_ask trivial) fun _ => uses_ask trivial
          have hkept := live_of_uses falling_tracked hq hw
          rw [Program.meets_bind] at hkept
          dsimp only
          rw [Routine.meets_bind,Routine.meets_lift]
          refine hkept.mono ?_
          intro _ w hw
          dsimp only
          rw [Routine.meets_bind,Routine.meets_lift]
          exact hw
      · have hq : (removeContainer id).Uses Request.Aside := uses_ask trivial
        dsimp only
        rw [Routine.meets_bind,Routine.meets_lift]
        exact (live_of_uses falling_tracked hq (by rw [hw']; exact htracked)).mono fun _ _ hw => hw

theorem live_createAndStart {sandboxId imageId : String} (h : Creating pod ctr.name st.containerIds w) :
    (createAndStart pod ctr sandboxId imageId).Meets (liveContract pod)
      (fun _ st' w' => Tracked pod st'.containerIds w'.node) st w := by
  unfold createAndStart
  rw [Routine.meets_bind,Routine.meets_get]
  dsimp only
  rw [Routine.meets_bind]
  refine (live_dropRecord h.1 h.2).mono ?_
  rintro r st' w ⟨rfl,hw⟩
  dsimp only
  rw [Routine.meets_bind,meets_orExit]
  refine (live_createOrReplace (m := ctr.name) rfl rfl hw).mono ?_
  rintro a w ⟨hw,hnamed⟩
  cases a with
  | error e => exact hw.1
  | ok cid => exact live_startCreated hw (hnamed cid rfl)

theorem live_startContainer {sandboxId : String} (h : Creating pod ctr.name st.containerIds w) :
    (startContainer pod ctr sandboxId).Meets (liveContract pod)
      (fun _ st' w' => Tracked pod st'.containerIds w'.node) st w := by
  have himage : (ensureImage ctr.image).Uses Request.Aside := uses_ask trivial
  unfold startContainer
  rw [Routine.meets_bind,meets_orExit]
  refine (live_of_uses (falling_tracked.and falling_down) himage h).mono ?_
  intro a w hw
  cases a with
  | error e => exact hw.1
  | ok imageId =>
    dsimp only
    rw [Routine.meets_bind,meets_orExit]
    refine Program.meets_request hw (live_drift (falling_tracked.and falling_down)) ?_
    intro w hw
    refine ⟨hw.2,?_⟩
    rintro a w' ⟨o,-,hsettle,-⟩
    have hw' := (falling_tracked.and falling_down) w.node w'.node hw (falls_settle hsettle trivial)
    cases a with
    | error e => exact hw'.1
    | ok msg =>
      cases msg with
      | some msg => exact hw'.1
      | none => exact live_createAndStart hw'

/-! ## The decisions -/

/-- What holds between two passes: nothing is recorded yet, or all that runs is. -/
def Resting (pod : PodSpec) (st : PodRuntimeState) (w : Node) : Prop :=
  (st.sandboxId = none ∧ st.containerIds = ∅) ∨ Tracked pod st.containerIds w

/-- What a step of the pass leaves. -/
def Tracks (pod : PodSpec) : Except PodSyncResult α → PodRuntimeState → Watched → Prop
  | .ok _, st, w => Tracked pod st.containerIds w.node
  | .error r, st, w => Resting pod (stateAfter (r,st)) w.node

/-- What the decision about a container leaves: it is started only if it is down. -/
def Judges (pod : PodSpec) (m : String) : Except PodSyncResult Bool → PodRuntimeState → Watched → Prop
  | .ok proceed, st, w => Tracked pod st.containerIds w.node ∧ (proceed = false → Down pod m w.node)
  | .error r, st, w => Resting pod (stateAfter (r,st)) w.node

theorem falling_resting : Falling pod (Resting pod st) := by
  rintro w w' (h | h) hw
  · exact .inl h
  · exact .inr (falling_tracked w w' h hw)

theorem resting_stateAfter (r : PodSyncResult) {w : Node} (h : Resting pod st w) :
    Resting pod (stateAfter (r,st)) w := by
  cases r with
  | terminated => exact .inl ⟨rfl,rfl⟩
  | _ => exact h

theorem Resting.of_sameIds {st' : PodRuntimeState} {w : Node} (h : Resting pod st w) (hs : SameIds st st') :
    Resting pod st' w := by
  rcases h with ⟨hsandbox,hids⟩ | h
  · exact .inl ⟨hs.1.trans hsandbox,hs.2.trans hids⟩
  · exact .inr (by rw [hs.2]; exact h)

/-- A step on the side, and what comes after it. -/
theorem live_bind {β : Type} {m : SyncM α} {f : α → SyncM β} {P : Node → Prop}
    {Q : Except PodSyncResult β → PodRuntimeState → Watched → Prop} (hP : Falling pod P)
    (hm : Inert Request.Aside m) (h : Tracked pod st.containerIds w.node) (hw : P w.node)
    (hf : ∀ a st w, Tracked pod st.containerIds w.node → P w.node → (f a).Meets (liveContract pod) Q st w)
    (hQ : ∀ r st w, Resting pod (stateAfter (r,st)) w.node → Q (.error r) st w) :
    (m >>= f).Meets (liveContract pod) Q st w := by
  rw [Routine.meets_bind]
  refine (live_of_inert (falling_tracked.and hP) hm ⟨h,hw⟩).mono ?_
  rintro r st' w ⟨hs,htracked,hw⟩
  have htracked' : Tracked pod st'.containerIds w.node := by
    rw [hs.2]
    exact htracked
  cases r with
  | ok a => exact hf a st' w htracked' hw
  | error r => exact hQ r st' w (resting_stateAfter r (.inr htracked'))

/-- Showing the status before the pass ends. -/
theorem live_report {β : Type} {f : Unit → SyncM β}
    {Q : Except PodSyncResult β → PodRuntimeState → Watched → Prop}
    (h : Tracked pod st.containerIds w.node)
    (hf : ∀ st w, Tracked pod st.containerIds w.node → (f ()).Meets (liveContract pod) Q st w)
    (hQ : ∀ r st w, Resting pod (stateAfter (r,st)) w.node → Q (.error r) st w) :
    (Routine.get >>= fun st => liftM (updatePodStatus pod st) >>= f : SyncM β).Meets (liveContract pod) Q st w := by
  rw [Routine.meets_bind,Routine.meets_get]
  exact live_bind (.const True) (aside_of_reporting (inert_lift (uses_updatePodStatus pod st))) h trivial
    (fun _ st w hw _ => hf st w hw) hQ

theorem live_terminateFailed {f : PodLifecycleState → WorkerM PodLifecycleState}
    (hf : ∀ ls, (f ls).Uses Request.Calm) {Q : Except PodSyncResult Unit → PodRuntimeState → Watched → Prop}
    (hQ : ∀ st w, Q (.error .terminated) st w) :
    (terminateFailed pod f).Meets (liveContract pod) Q st w := by
  unfold terminateFailed
  rw [Routine.meets_bind,Routine.meets_get]
  dsimp only
  rw [Routine.meets_bind,Routine.meets_lift]
  refine (live_of_uses (.const True) ((uses_terminatePod pod st _).mono (fun _ hop => hop.aside)
    fun _ _ => trivial) trivial).mono ?_
  intro _ w _
  dsimp only
  rw [Routine.meets_bind,Routine.meets_lift]
  refine (live_of_uses (.const True) ((uses_updateStored hf).mono (fun _ hop => hop.aside)
    fun _ _ => trivial) trivial).mono ?_
  intro _ w _
  exact hQ st w

/-- `P` holds, unless the answer shows that the container runs. -/
def UnlessRunning (P : Prop) : Except KubeletError (Option RuntimeContainer) → Prop
  | .ok (some s) => s.state ≠ .running → P
  | _ => P

/-- Looking at a recorded container before the decision about it. -/
theorem live_containerStatus {cid : String} (hn : Declared pod m) (h : Tracked pod st.containerIds w.node)
    (hcid : st.containerIds.lookup m = some cid)
    {Q : Except KubeletError (Option RuntimeContainer) → Watched → Prop}
    (hQ : ∀ a w, Tracked pod st.containerIds w.node → UnlessRunning (Down pod m w.node) a → Q a w) :
    (containerStatus cid).Meets (liveContract pod) Q w := by
  refine Program.meets_request h (live_drift falling_tracked) ?_
  intro w hw
  refine ⟨trivial,?_⟩
  rintro a w' ⟨o,htells,hsettle,-⟩
  obtain ⟨hsame,ha⟩ := Node.settle_containerStatus hsettle
  rw [← hsame] at hw htells ha
  refine hQ a w' hw ?_
  rcases ha with rfl | ⟨⟨e,rfl⟩,herrs⟩
  · cases hr : w'.node.containers.lookup cid with
    | none =>
      refine hw.down_of_recorded hn hcid ?_
      rintro ⟨r,hr',-⟩
      rw [hr] at hr'
      cases hr'
    | some r =>
      intro hstate
      refine hw.down_of_recorded hn hcid ?_
      rintro ⟨r',hr',-,-,hrun⟩
      obtain rfl : r = r' := Option.some.inj (hr.symm.trans hr')
      exact hstate hrun
  · refine hw.down_of_recorded hn hcid ?_
    intro hrun
    rw [htells hrun.isRunning] at herrs
    cases herrs

theorem live_sidecarRuns {cid : String} (hn : Declared pod ctr.name) (h : Tracked pod st.containerIds w.node)
    (hcid : st.containerIds.lookup ctr.name = some cid) :
    (sidecarRuns ctr cid).Meets (liveContract pod) (Judges pod ctr.name) st w := by
  unfold sidecarRuns
  rw [Routine.meets_bind,Routine.meets_lift]
  refine live_containerStatus hn h hcid ?_
  intro a w hw hdown
  rcases a with e | _ | s
  · exact ⟨hw,fun _ => hdown⟩
  · exact ⟨hw,fun _ => hdown⟩
  · dsimp only
    split
    · refine live_bind (.const True) (aside_of_calm (inert_armProbes ctr cid)) hw trivial ?_ fun _ _ _ hr => hr
      exact fun _ st w hw _ => ⟨hw,fun hfalse => nomatch hfalse⟩
    · next hstate => exact ⟨hw,fun _ => hdown hstate⟩

theorem live_initCompleted {cid : String} (hn : Declared pod ctr.name) (h : Tracked pod st.containerIds w.node)
    (hcid : st.containerIds.lookup ctr.name = some cid) :
    (initCompleted pod ctr cid).Meets (liveContract pod) (Judges pod ctr.name) st w := by
  unfold initCompleted
  rw [Routine.meets_bind,Routine.meets_lift]
  refine live_containerStatus hn h hcid ?_
  intro a w hw hdown
  rcases a with e | _ | s
  · exact ⟨hw,fun _ => hdown⟩
  · exact ⟨hw,fun _ => hdown⟩
  · dsimp only
    split
    · exact live_report hw (fun st w hw => .inr hw) fun _ _ _ hr => hr
    · next hexited =>
      have hs := hdown (by rw [hexited]; decide)
      split
      · exact ⟨hw,fun hfalse => nomatch hfalse⟩
      · split
        · refine live_report hw (fun st w _ => ?_) fun _ _ _ hr => hr
          rw [Routine.meets_bind]
          exact live_terminateFailed (fun _ => uses_pure _) fun _ _ => .inl ⟨rfl,rfl⟩
        · refine live_bind falling_down (aside_of_calm (inert_snapshot ctr.name "Error" _)) hw hs ?_ fun _ _ _ hr => hr
          exact fun _ st w hw hs => ⟨hw,fun _ => hs⟩
    · next hrunning _ => exact ⟨hw,fun _ => hdown hrunning⟩

theorem live_initProceeds (hn : Declared pod ctr.name) (h : Tracked pod st.containerIds w.node) :
    (initProceeds pod ctr).Meets (liveContract pod) (Judges pod ctr.name) st w := by
  unfold initProceeds
  rw [Routine.meets_bind,Routine.meets_get]
  dsimp only
  split
  · next hnone => exact ⟨h,fun _ => h.down hn hnone⟩
  · next cid hcid =>
    split
    · exact live_sidecarRuns hn h hcid
    · exact live_initCompleted hn h hcid

theorem live_appExited {s : RuntimeContainer} (h : Tracked pod st.containerIds w.node)
    (hdown : Down pod ctr.name w.node) :
    (appExited pod ctr s).Meets (liveContract pod) (Judges pod ctr.name) st w := by
  unfold appExited
  refine live_bind falling_down (aside_of_calm (inert_snapshot ctr.name _ s)) h hdown ?_ fun _ _ _ hr => hr
  intro _ st w hw hdown
  split
  · rw [Routine.meets_bind,Routine.meets_get]
    refine live_bind falling_down (aside_of_reporting (inert_crashLoopSleep pod ctr.name _)) hw hdown ?_
      fun _ _ _ hr => hr
    exact fun _ st w hw hdown => ⟨hw,fun _ => hdown⟩
  · exact ⟨hw,fun hfalse => nomatch hfalse⟩

theorem live_appProceeds (hn : Declared pod ctr.name) (h : Tracked pod st.containerIds w.node) :
    (appProceeds pod ctr).Meets (liveContract pod) (Judges pod ctr.name) st w := by
  unfold appProceeds
  rw [Routine.meets_bind,Routine.meets_get]
  dsimp only
  split
  · next hnone => exact ⟨h,fun _ => h.down hn hnone⟩
  · next cid hcid =>
    rw [Routine.meets_bind,Routine.meets_lift]
    refine live_containerStatus hn h hcid ?_
    intro a w hw hdown
    rcases a with e | _ | s
    · exact ⟨hw,fun _ => hdown⟩
    · exact ⟨hw,fun _ => hdown⟩
    · dsimp only
      split
      · refine live_bind (.const True) (aside_of_calm (inert_armProbes ctr cid)) hw trivial ?_ fun _ _ _ hr => hr
        intro armed st w hw _
        refine live_bind (.const True) (aside_of_reporting (inert_resizeWhenArmed ctr cid armed)) hw trivial ?_
          fun _ _ _ hr => hr
        exact fun _ st w hw _ => ⟨hw,fun hfalse => nomatch hfalse⟩
      · next hexited => exact live_appExited hw (hdown (by rw [hexited]; decide))
      · next hrunning _ => exact ⟨hw,fun _ => hdown hrunning⟩

/-! ## The containers of the pod -/

theorem live_startFailed {e : KubeletError} (h : Tracked pod st.containerIds w.node) :
    (startFailed n e).Meets (liveContract pod) (Tracks pod) st w := by
  unfold startFailed
  split
  · rw [Routine.meets_bind]
    exact .inl ⟨rfl,rfl⟩
  · exact h

theorem live_runInitContainer {sandboxId : String} (hn : Declared pod ctr.name)
    (h : Tracked pod st.containerIds w.node) :
    (runInitContainer pod sandboxId ctr).Meets (liveContract pod) (Tracks pod) st w := by
  unfold runInitContainer
  rw [Routine.meets_bind]
  refine (live_initProceeds hn h).mono ?_
  intro r st w hr
  cases r with
  | error r => exact hr
  | ok proceed =>
    obtain ⟨hw,hdown⟩ := hr
    cases proceed with
    | true => exact hw
    | false =>
      refine live_bind falling_down (aside_of_reporting (inert_initBackoff pod ctr.name)) hw (hdown rfl) ?_
        fun _ _ _ hr => hr
      intro _ st w hw hdown
      rw [Routine.meets_bind,Routine.meets_attempt]
      refine (live_startContainer ⟨hw,hdown⟩).mono ?_
      intro r st w hw
      cases r with
      | ok _ =>
        dsimp only
        rw [Routine.meets_bind,Routine.meets_modify]
        have hclear : Tracked pod (clearStartFailure ctr.name st).containerIds w.node := hw
        dsimp only
        split
        · exact hclear
        · exact live_report hclear (fun st w hw => .inr hw) fun _ _ _ hr => hr
      | error e =>
        dsimp only
        rw [Routine.meets_bind]
        refine (live_startFailed hw).mono ?_
        intro r st w hr
        cases r with
        | error r => exact hr
        | ok _ => exact live_report hr (fun st w hw => .inr hw) fun _ _ _ hr => hr

theorem live_runAppContainer {sandboxId : String} (hn : Declared pod ctr.name)
    (h : Tracked pod st.containerIds w.node) :
    (runAppContainer pod sandboxId ctr).Meets (liveContract pod) (Tracks pod) st w := by
  unfold runAppContainer
  rw [Routine.meets_bind]
  refine (live_appProceeds hn h).mono ?_
  intro r st w hr
  cases r with
  | error r => exact hr
  | ok proceed =>
    obtain ⟨hw,hdown⟩ := hr
    cases proceed with
    | true => exact hw
    | false =>
      change Routine.Meets _ (Routine.get >>= _) _ st w
      rw [Routine.meets_bind,Routine.meets_get]
      dsimp only
      split
      · exact hw
      · refine live_bind falling_down (inert_lift (uses_sleepAfter (fun _ => trivial) _)) hw (hdown rfl) ?_
          fun _ _ _ hr => hr
        intro _ st w hw hdown
        rw [Routine.meets_bind,Routine.meets_attempt]
        refine (live_startContainer ⟨hw,hdown⟩).mono ?_
        intro r st w hw
        cases r with
        | ok _ => exact hw
        | error e => exact live_startFailed hw

theorem live_runEphemeralContainer {sandboxId : String} (hn : Declared pod ctr.name)
    (h : Tracked pod st.containerIds w.node) :
    (runEphemeralContainer pod sandboxId ctr).Meets (liveContract pod) (Tracks pod) st w := by
  unfold runEphemeralContainer
  rw [Routine.meets_bind,Routine.meets_get]
  dsimp only
  split
  · exact h
  · next hnone =>
    have hlookup : st.containerIds.lookup ctr.name = none := by simpa using hnone
    rw [Routine.meets_bind,Routine.meets_attempt]
    refine (live_startContainer ⟨h,h.down hn hlookup⟩).mono ?_
    exact fun _ _ _ hw => hw

theorem live_forEach {body : ContainerSpec → SyncM Unit} {l : List ContainerSpec}
    (hbody : ∀ ctr ∈ l, ∀ st w, Tracked pod st.containerIds w.node →
      (body ctr).Meets (liveContract pod) (Tracks pod) st w)
    (h : Tracked pod st.containerIds w.node) :
    (Routine.forEach body l).Meets (liveContract pod) (Tracks pod) st w := by
  refine Routine.Meets.forEach (I := fun st w => Tracked pod st.containerIds w.node) ?_
    (fun st w (hw : Tracked pod st.containerIds w.node) => hw) h
  intro ctr hctr st w hw
  refine (hbody ctr hctr st w hw).mono ?_
  intro r st w hr
  cases r with
  | ok _ => exact hr
  | error r => exact hr

theorem live_syncContainers {sandboxId : String} (h : Tracked pod st.containerIds w.node) :
    (syncContainers pod sandboxId).Meets (liveContract pod) (Tracks pod) st w := by
  have hinit {ctr : ContainerSpec} (hctr : ctr ∈ pod.initContainers) : Declared pod ctr.name :=
    ⟨ctr,by simp [allContainers,hctr],rfl⟩
  have happ {ctr : ContainerSpec} (hctr : ctr ∈ pod.containers) : Declared pod ctr.name :=
    ⟨ctr,by simp [allContainers,hctr],rfl⟩
  have hephemeral {ctr : ContainerSpec} (hctr : ctr ∈ pod.ephemeralContainers) : Declared pod ctr.name :=
    ⟨ctr,by simp [allContainers,hctr],rfl⟩
  unfold syncContainers
  rw [Routine.meets_bind]
  refine (live_forEach (fun ctr hctr st w hw => live_runInitContainer (hinit hctr) hw) h).mono ?_
  intro r st w hr
  cases r with
  | error r => exact hr
  | ok _ =>
    refine live_bind (.const True) (aside_of_reporting (inert_markInitialized pod)) hr trivial ?_ fun _ _ _ hr => hr
    intro _ st w hw _
    rw [Routine.meets_bind]
    refine (live_forEach (fun ctr hctr st w hw => live_runAppContainer (happ hctr) hw) hw).mono ?_
    intro r st w hr
    cases r with
    | error r => exact hr
    | ok _ =>
      dsimp only
      rw [Routine.meets_bind,Routine.meets_get]
      refine live_bind (.const True) (aside_of_calm (inert_lift (uses_stopSidecarsWhenDone pod st))) hr trivial ?_
        fun _ _ _ hr => hr
      intro _ st w hw _
      rw [Routine.meets_bind]
      refine (live_forEach (fun ctr hctr st w hw => live_runEphemeralContainer (hephemeral hctr) hw) hw).mono ?_
      intro r st w hr
      cases r with
      | error r => exact hr
      | ok _ =>
        dsimp only
        rw [Routine.meets_bind,Routine.meets_get]
        dsimp only
        rw [Routine.meets_lift]
        exact live_of_uses falling_tracked ((uses_updatePodStatus pod st).mono (fun _ hop => hop.aside)
          fun _ _ => trivial) hr

/-! ## Recovery -/

theorem mem_runningDeclared {w : Node} (hn : Declared pod n) (h : RunsAs pod n id w) :
    ∃ r, (⟨id,r⟩ : Σ _ : String, ContainerRecord) ∈ runningDeclared pod w ∧ r.name = n := by
  obtain ⟨r,hr,huid,rfl,hrun⟩ := h
  refine ⟨r,List.mem_filter.mpr ⟨AList.mem_lookup_iff.mp hr,?_⟩,rfl⟩
  simp [huid,hrun,hn]

/-- What recovery starts from: nothing is recorded, or all that runs is. -/
def Adopting (pod : PodSpec) (ids : HashMap String String) (w : Node) : Prop := ids = ∅ ∨ Tracked pod ids w

theorem falling_adopting : Falling pod (Adopting pod ids) := by
  rintro w w' (h | h) hw
  · exact .inl h
  · exact .inr (falling_tracked w w' h hw)

/-- The first entry of a listing that recovery adopts under a name. -/
theorem find?_listing {w : Node} (ids : List String) :
    (ids.filterMap fun id => (w.containers.lookup id).map (ContainerRecord.listed id)).find?
        (fun c => c.podUid == pod.uid.val && c.name == n && shouldRecover pod c) =
      (ids.find? fun id => (adoptable pod w n).any (fun a => a.1 == id)).bind
        fun id => (w.containers.lookup id).map (ContainerRecord.listed id) := by
  rw [List.find?_filterMap]
  congr 2
  funext id
  rw [Bool.eq_iff_iff,List.any_eq_true,Option.any_eq_true]
  constructor
  · rintro ⟨c,hc,hmatch⟩
    obtain ⟨r,hr,rfl⟩ := Option.map_eq_some_iff.mp hc
    simp only [Bool.and_eq_true,beq_iff_eq] at hmatch
    exact ⟨⟨id,r⟩,mem_adoptable.mpr ⟨hr,hmatch.1.1,hmatch.1.2,hmatch.2⟩,beq_self_eq_true id⟩
  · rintro ⟨⟨id',r⟩,he,hid⟩
    obtain ⟨hr,huid,hname,hrec⟩ := mem_adoptable.mp he
    obtain rfl : id' = id := beq_iff_eq.mp hid
    refine ⟨r.listed id',by rw [hr]; rfl,?_⟩
    simp only [Bool.and_eq_true,beq_iff_eq]
    exact ⟨⟨huid,hname⟩,hrec⟩

/-- Recovery from a listing that shows what runs records it. -/
theorem tracked_recovered {w : Node} {l : List String} (hshows : ShowsRunning pod w l)
    (h : Adopting pod st.containerIds w) : Tracked pod (recoverContainers pod st (l.filterMap fun id =>
      (w.containers.lookup id).map (ContainerRecord.listed id))).containerIds w := by
  intro n id hn hrun
  obtain ⟨r,hr,rfl⟩ := mem_runningDeclared hn hrun
  rw [lookup_recoverContainers]
  rcases h with hempty | htracked
  · rw [hempty,AList.lookup_empty,Option.none_or,find?_listing,hshows _ hr,Option.bind_some]
    rw [AList.mem_lookup_iff.mpr (List.mem_filter.mp hr).1]
    rfl
  · rw [htracked r.name id hn hrun]
    rfl

/-- A listing that fails is told only where nothing of the pod runs. -/
theorem nothing_runs {w : Node} {stray : Option String} {sandboxId : String} {o : Outcome} (herrs : o.errs = true)
    (h : Tells pod w stray (.listContainers (.recovery sandboxId)) o) : runningDeclared pod w = [] := by
  cases o with
  | reply c =>
    cases c with
    | fault e => exact h
    | _ => cases herrs
  | lost c e => exact h

/-- Adopting what the runtime lists. -/
theorem live_adoptListed {sandboxId : String} (h : Adopting pod st.containerIds w.node) :
    (adoptListed pod sandboxId).Meets (liveContract pod)
      (fun r st' w' => r = .ok () ∧ Tracked pod st'.containerIds w'.node) st w := by
  unfold adoptListed
  rw [Routine.meets_bind,Routine.meets_lift]
  refine Program.meets_request h (live_drift falling_adopting) ?_
  intro w hw
  refine ⟨trivial,?_⟩
  rintro a w' ⟨o,htells,hsettle,-⟩
  obtain ⟨hsame,⟨l,rfl,rfl⟩ | ⟨⟨e,rfl⟩,herrs⟩⟩ := Node.settle_listContainers hsettle
  · refine ⟨rfl,?_⟩
    rw [hsame]
    exact tracked_recovered htells hw
  · refine ⟨rfl,?_⟩
    rw [hsame]
    intro n id hn hrun
    obtain ⟨r,hr,-⟩ := mem_runningDeclared hn hrun
    rw [nothing_runs herrs htells] at hr
    cases hr

theorem live_enterSandbox {worker : PodWorker} {sandboxId : String} {ip : Option String}
    (h : Adopting pod st.containerIds w.node) : (enterSandbox worker pod sandboxId ip).Meets (liveContract pod)
      (fun r st' w' => r = .ok () ∧ Tracked pod st'.containerIds w'.node) st w := by
  unfold enterSandbox
  rw [Routine.meets_bind,Routine.meets_modify]
  dsimp only
  rw [Routine.meets_bind]
  have hnoted : Adopting pod
    ({ st with sandboxId := some sandboxId, sandboxIp := ip } : PodRuntimeState).containerIds w.node := h
  refine (live_adoptListed hnoted).mono ?_
  rintro r st w ⟨rfl,hw⟩
  dsimp only
  rw [Routine.meets_lift]
  refine (live_of_uses falling_tracked ((uses_updateStored fun _ => uses_pure _).mono (fun _ hop => hop.aside)
    fun _ _ => trivial) hw).mono ?_
  intro _ w hw
  exact ⟨rfl,hw⟩

theorem live_ensureSandbox {worker : PodWorker} (h : Resting pod st w.node) :
    (ensureSandbox worker pod).Meets (liveContract pod) (Tracks pod) st w := by
  unfold ensureSandbox
  rw [Routine.meets_bind,Routine.meets_get]
  dsimp only
  split
  · next sandboxId hsandbox =>
    rcases h with ⟨hnone,-⟩ | h
    · rw [hsandbox] at hnone
      cases hnone
    · exact h
  · rw [Routine.meets_bind,Routine.meets_lift]
    refine (live_of_uses falling_resting ((uses_createSandbox worker pod).mono (fun _ hop => hop.aside)
      fun _ _ => trivial) h).mono ?_
    intro a w hw
    cases a with
    | ok found =>
      dsimp only
      rw [Routine.meets_bind]
      refine (live_enterSandbox (hw.imp And.right id)).mono ?_
      rintro r st w ⟨rfl,hw⟩
      exact hw
    | error e =>
      dsimp only
      rw [Routine.meets_bind,Routine.meets_lift]
      refine (live_of_uses falling_resting ((uses_markUnscheduled _ _ _).mono (fun _ hop => hop.aside)
        fun _ _ => trivial) hw).mono ?_
      intro _ w hw
      exact hw

/-! ## The whole pass -/

/-- A step on the side, before the sandbox is looked at. -/
theorem live_resting_bind {β : Type} {m : SyncM α} {f : α → SyncM β}
    {Q : Except PodSyncResult β → PodRuntimeState → Watched → Prop} (hm : Inert Request.Reporting m)
    (h : Resting pod st w.node)
    (hf : ∀ a st w, Resting pod st w.node → (f a).Meets (liveContract pod) Q st w)
    (hQ : ∀ r st w, Resting pod (stateAfter (r,st)) w.node → Q (.error r) st w) :
    (m >>= f).Meets (liveContract pod) Q st w := by
  rw [Routine.meets_bind]
  refine (live_of_inert falling_resting (aside_of_reporting hm) h).mono ?_
  rintro r st' w ⟨hs,hw⟩
  cases r with
  | ok a => exact hf a st' w (hw.of_sameIds hs)
  | error r => exact hQ r st' w (resting_stateAfter r (hw.of_sameIds hs))

/-- What a pass leaves. -/
def Rests (pod : PodSpec) : Except PodSyncResult Unit → PodRuntimeState → Watched → Prop
  | .ok _, st, w => Resting pod st w.node
  | .error r, st, w => Resting pod (stateAfter (r,st)) w.node

theorem live_checkDeadline (h : Resting pod st w.node) :
    (checkDeadline pod).Meets (liveContract pod) (Rests pod) st w := by
  unfold checkDeadline
  split
  · refine live_resting_bind (inert_lift (uses_ask trivial)) h ?_ fun _ _ _ hr => hr
    intro ls st w hw
    refine live_resting_bind (inert_lift (uses_ask trivial)) hw ?_ fun _ _ _ hr => hr
    intro t st w hw
    split
    · exact live_terminateFailed uses_deadlineExceededState fun _ _ => .inl ⟨rfl,rfl⟩
    · exact hw
  · exact h

theorem live_syncSteps {worker : PodWorker} (h : Resting pod st w.node) :
    (syncSteps worker pod).Meets (liveContract pod) (Rests pod) st w := by
  unfold syncSteps
  split
  · exact resting_stateAfter _ h
  · rw [Routine.meets_bind]
    refine (live_checkDeadline h).mono ?_
    intro r st w hr
    cases r with
    | error r => exact hr
    | ok _ =>
      refine live_resting_bind inert_ensureVolumes hr ?_ fun _ _ _ hr => hr
      intro _ st w hw
      refine live_resting_bind (Keeps.forEach sameIds_refl sameIds_trans
        fun ctr _ => inert_ensureContainerImage ctr) hw ?_ fun _ _ _ hr => hr
      intro _ st w hw
      rw [Routine.meets_bind]
      refine (live_ensureSandbox hw).mono ?_
      intro r st w hr
      cases r with
      | error r => exact hr
      | ok sandboxId =>
        refine (live_syncContainers hr).mono ?_
        intro r st w hr
        cases r with
        | error r => exact hr
        | ok _ => exact .inr hr

/-- A pass starts only what is down and leaves what runs recorded. -/
theorem live_syncPod {worker : PodWorker} (h : Resting pod st w.node) :
    (syncPod worker pod st).Meets (liveContract pod) (fun r w => Resting pod (stateAfter r) w.node) w := by
  unfold syncPod
  rw [Program.meets_bind]
  refine Program.Meets.mono (live_syncSteps h) ?_
  rintro ⟨r,st⟩ w hr
  cases r with
  | error r => exact hr
  | ok _ => exact hr

end KubeAir.Worker
