import KubeAir.Core.Phase
import KubeAir.Worker.StatusFrame

/-! # A pass that begins after the phase became terminal

Such a pass makes no sandbox, starts no container and writes terminal phases only if the
spec is invalid, the deadline has passed, or everything has run to completion and is
remembered, and if the calls it depends on do not fail.
-/
namespace KubeAir.Worker
open Core Transition Program Routine

/-- Calls that make a sandbox or start a container. -/
def Request.Starts : Request → Prop
  | .runPodSandbox _ => True
  | .startContainer _ => True
  | _ => False

/-- Calls that write no status and start nothing. -/
def Request.Clearing (op : Request) : Prop := op.Silent ∧ ¬ op.Starts

theorem Request.Teardown.clearing {op : Request} (h : op.Teardown) : op.Clearing := by
  refine ⟨h.silent,?_⟩
  cases op with
  | runPodSandbox | startContainer => exact h.elim
  | _ => exact id

theorem Request.Calm.clearing {op : Request} (h : op.Calm) : op.Clearing := by
  refine ⟨h.silent,?_⟩
  cases op with
  | runPodSandbox | startContainer => exact h.elim
  | _ => exact id

/-- The calls whose failure sends the pass back to an earlier phase do not fail. -/
def LateCopes (op : Request) (c : Choice) : Prop :=
  match op with
  | .ensurePodVolumes _ | .ensureImage _ | .containerStatus .. => ∀ e, c ≠ .fault e
  | _ => True

/-- The status is left alone, and so are the containers of the pod that have exited. -/
structure LateDrift (uid : String) (w w' : Node) : Prop where
  later : w.Later w'
  exited : ∀ id r, w.containers.lookup id = some r → r.podUid = uid → r.state = .exited →
    w'.containers.lookup id = some r

/-- The call takes away no container of the pod that has exited. -/
def SparesExited (uid : String) (w : Node) : Request → Prop
  | .removeContainer id => ∀ r ∈ w.containers.lookup id, r.podUid = uid → r.state ≠ .exited
  | .removePodSandbox sandboxId => ∀ e ∈ w.containers.entries,
      e.2.podUid = uid → e.2.sandboxId = sandboxId → e.2.state ≠ .exited
  | _ => True

def lateContract (uid : String) : Contract Request Request.Answer Node where
  drift := LateDrift uid
  allowed _ op := ¬ op.Starts ∧ ∀ st, op = .setStatus st → isTerminalState st = true
  answers w op ans w' := ∃ c, LateCopes op c ∧ w.respond op c = some (ans,w')

variable (pod : PodSpec)

/-- What the runtime has of a container that the worker remembers. -/
def recordOf (st : PodRuntimeState) (w : Node) (name : String) : Option ContainerRecord :=
  (st.containerIds.lookup name).bind w.containers.lookup

/-- The container has exited and is shown as such. -/
def HasExited (st : PodRuntimeState) (w : Node) (name : String) (code : Option ℤ → Prop) : Prop :=
  name ∉ st.crashLoopBackoff ∧ ∃ r ∈ recordOf st w name,
    r.podUid = pod.uid.val ∧ r.state = .exited ∧ code r.exitCode

/-- The exit of an app container after which neither it nor the pod goes on. -/
def EndsApp (ctr : ContainerSpec) (code : Option ℤ) : Prop :=
  restartsAfter ctr pod.restartPolicy (code.getD (-1)) = false ∧
    (pod.restartPolicy = .onFailure → code = some 0)

/-- Every container has been run for the last time, and the worker remembers all of them. -/
structure RanToCompletion (st : PodRuntimeState) (w : Node) : Prop where
  sandbox : st.sandboxId.isSome = true
  policy : pod.restartPolicy ≠ .always
  nonempty : pod.containers ≠ []
  inits : ∀ ctr ∈ pod.initContainers,
    isSidecarInitContainer ctr = false ∧ HasExited pod st w ctr.name (· = some 0)
  apps : ∀ ctr ∈ pod.containers, HasExited pod st w ctr.name (EndsApp pod ctr) ∧
    ∀ t ∈ st.recentlyStarted.lookup ctr.name, 800 * 10 ^ 6 ≤ w.uptime - t
  ephemeral : ∀ ctr ∈ pod.ephemeralContainers, (st.containerIds.lookup ctr.name).isSome = true

/-- A pass may begin although the stored phase is terminal. -/
def LateSafe (st : PodRuntimeState) (w : Node) : Prop :=
  (validatePod pod).isOk = false ∨ deadlineExceeded pod w.status w.clock = true ∨
    RanToCompletion pod st w

theorem ranToCompletion_iff {st : PodRuntimeState} {w : Node} : RanToCompletion pod st w ↔
    st.sandboxId.isSome = true ∧ pod.restartPolicy ≠ .always ∧ pod.containers ≠ [] ∧
      (∀ ctr ∈ pod.initContainers,
        isSidecarInitContainer ctr = false ∧ HasExited pod st w ctr.name (· = some 0)) ∧
      (∀ ctr ∈ pod.containers, HasExited pod st w ctr.name (EndsApp pod ctr) ∧
        ∀ t ∈ st.recentlyStarted.lookup ctr.name, 800 * 10 ^ 6 ≤ w.uptime - t) ∧
      ∀ ctr ∈ pod.ephemeralContainers, (st.containerIds.lookup ctr.name).isSome = true := by
  constructor
  · intro h
    exact ⟨h.sandbox,h.policy,h.nonempty,h.inits,h.apps,h.ephemeral⟩
  · rintro ⟨hsandbox,hpolicy,hnonempty,hinits,happs,hephemeral⟩
    exact ⟨hsandbox,hpolicy,hnonempty,hinits,happs,hephemeral⟩

/-! The condition can be evaluated. -/

instance (op : Request) (c : Choice) : Decidable (LateCopes op c) := by
  induction op using Request.casesOn with
  | ensurePodVolumes | ensureImage | containerStatus => exact inferInstanceAs (Decidable (∀ e, c ≠ .fault e))
  | _ => exact .isTrue trivial

instance (uid : String) (w : Node) (op : Request) : Decidable (SparesExited uid w op) := by
  induction op using Request.casesOn with
  | removeContainer id => exact inferInstanceAs (Decidable (∀ r ∈ w.containers.lookup id, _))
  | removePodSandbox sandboxId => exact inferInstanceAs (Decidable (∀ e ∈ w.containers.entries, _))
  | _ => exact .isTrue trivial

instance (st : PodRuntimeState) (w : Node) (name : String) (code : Option ℤ → Prop) [DecidablePred code] :
    Decidable (HasExited pod st w name code) :=
  inferInstanceAs (Decidable (_ ∧ _))

instance (ctr : ContainerSpec) : DecidablePred (EndsApp pod ctr) :=
  fun _ => inferInstanceAs (Decidable (_ ∧ _))

instance (st : PodRuntimeState) (w : Node) : Decidable (RanToCompletion pod st w) :=
  decidable_of_iff _ (ranToCompletion_iff pod).symm

instance (st : PodRuntimeState) (w : Node) : Decidable (LateSafe pod st w) :=
  inferInstanceAs (Decidable (_ ∨ _ ∨ _))

variable {pod} {worker : PodWorker} {st st' : PodRuntimeState} {w w' : Node} {uid : String}
  {ctr : ContainerSpec} {α β : Type}

/-! ## Frames -/

theorem LateDrift.of_quiet {op : Request} (hop : op.Quiet) {c : Choice} {a : op.Answer}
    (h : w.respond op c = some (a,w')) : LateDrift uid w w' := by
  refine ⟨Node.respond_silent hop.silent h,?_⟩
  intro id r hr _ _
  rw [(Node.respond_passive hop.passive h).1]
  exact hr

/-- Another task that spares what has exited leaves the world of the pod as a late pass expects. -/
theorem LateDrift.of_respond {op : Request} {c : Choice} {a : op.Answer} (hspare : SparesExited uid w op)
    (h : w.respond op c = some (a,w')) : LateDrift uid w { w' with status := w.status } := by
  refine ⟨?_,?_⟩
  · cases op with
    | setStatus st =>
      rw [Node.respond_setStatus h]
      exact .refl w
    | _ =>
      have hlater := Node.respond_silent (by trivial) h
      exact ⟨rfl,hlater.clock,hlater.uptime⟩
  · intro id r hr huid hexited
    change w'.containers.lookup id = some r
    by_cases hop : op.Passive
    · rw [(Node.respond_passive hop h).1]
      exact hr
    · cases op with
      | createContainer config =>
        rcases Node.respond_createContainer h with ⟨id',-,hfresh,rfl⟩ | ⟨e,-,rfl,-⟩
        · rw [Node.lookup_put,if_neg,hr]
          rintro rfl
          rw [hfresh] at hr
          cases hr
        · exact hr
      | startContainer id' =>
        rcases Node.respond_startContainer h with ⟨r',hr',hcreated,-,rfl⟩ | ⟨e,-,rfl⟩
        · change (w.put id' _).containers.lookup id = some r
          rw [Node.lookup_put,if_neg,hr]
          rintro rfl
          obtain rfl : r = r' := Option.some.inj (hr.symm.trans hr')
          rw [hexited] at hcreated
          cases hcreated
        · exact hr
      | removeContainer id' =>
        rcases Node.respond_removeContainer h with rfl | rfl
        · rw [Node.lookup_drop,if_neg,hr]
          rintro rfl
          exact hspare r hr huid hexited
        · exact hr
      | removePodSandbox sandboxId =>
        rcases Node.commit_cases h with ⟨-,-,rfl⟩ | ⟨-,rfl⟩
        · exact Node.lookup_dropSandbox.mpr ⟨hr,fun hbox =>
            hspare ⟨id,r⟩ (AList.mem_lookup_iff.mp hr) huid hbox hexited⟩
        · exact hr
      | _ => exact (hop trivial).elim

theorem LateDrift.of_exit {id : String} {code : ℤ} (h : w.exit id code = some w') : LateDrift uid w w' := by
  obtain ⟨r,hr,hrun,rfl⟩ := Node.exit_cases h
  refine ⟨⟨rfl,le_rfl,le_rfl⟩,?_⟩
  intro id' r' hr' _ hexited
  change (w.put id _).containers.lookup id' = some r'
  rw [Node.lookup_put,if_neg,hr']
  rintro rfl
  obtain rfl : r = r' := Option.some.inj (hr.symm.trans hr')
  rw [hrun] at hexited
  cases hexited

/-- The worker remembers the same about what has run. -/
structure SameStore (st st' : PodRuntimeState) : Prop where
  sandboxId : st'.sandboxId = st.sandboxId
  containerIds : st'.containerIds = st.containerIds
  recentlyStarted : st'.recentlyStarted = st.recentlyStarted
  crashLoopBackoff : st'.crashLoopBackoff = st.crashLoopBackoff

theorem recordOf_mono {name : String} {r : ContainerRecord} (hd : LateDrift uid w w')
    (hr : r ∈ recordOf st w name) (huid : r.podUid = uid) (hexited : r.state = .exited) :
    r ∈ recordOf st w' name := by
  obtain ⟨id,hid,hlook⟩ := Option.bind_eq_some_iff.mp hr
  exact Option.bind_eq_some_iff.mpr ⟨id,hid,hd.exited id r hlook huid hexited⟩

theorem HasExited.drift {name : String} {code : Option ℤ → Prop} (h : HasExited pod st w name code)
    (hd : LateDrift pod.uid.val w w') : HasExited pod st w' name code := by
  obtain ⟨hback,r,hr,huid,hexited,hcode⟩ := h
  exact ⟨hback,r,recordOf_mono hd hr huid hexited,huid,hexited,hcode⟩

theorem HasExited.of_sameStore {name : String} {code : Option ℤ → Prop} (h : HasExited pod st w name code)
    (hs : SameStore st st') : HasExited pod st' w name code := by
  unfold HasExited recordOf at h ⊢
  rw [hs.containerIds,hs.crashLoopBackoff]
  exact h

theorem RanToCompletion.drift (h : RanToCompletion pod st w) (hd : LateDrift pod.uid.val w w') :
    RanToCompletion pod st w' where
  sandbox := h.sandbox
  policy := h.policy
  nonempty := h.nonempty
  inits ctr hctr := ⟨(h.inits ctr hctr).1,(h.inits ctr hctr).2.drift hd⟩
  apps := by
    intro ctr hctr
    obtain ⟨hexited,hrecent⟩ := h.apps ctr hctr
    refine ⟨hexited.drift hd,?_⟩
    intro t ht
    exact (hrecent t ht).trans (Nat.sub_le_sub_right hd.later.uptime t)
  ephemeral := h.ephemeral

theorem RanToCompletion.of_sameStore (h : RanToCompletion pod st w) (hs : SameStore st st') :
    RanToCompletion pod st' w where
  sandbox := by rw [hs.sandboxId]; exact h.sandbox
  policy := h.policy
  nonempty := h.nonempty
  inits ctr hctr := ⟨(h.inits ctr hctr).1,(h.inits ctr hctr).2.of_sameStore hs⟩
  apps := by
    intro ctr hctr
    obtain ⟨hexited,hrecent⟩ := h.apps ctr hctr
    rw [hs.recentlyStarted]
    exact ⟨hexited.of_sameStore hs,hrecent⟩
  ephemeral := by rw [hs.containerIds]; exact h.ephemeral

/-- The phase is terminal and nothing is left to run. -/
def Complete (pod : PodSpec) (st : PodRuntimeState) (w : Node) : Prop :=
  w.terminal = true ∧ RanToCompletion pod st w

theorem Complete.drift (h : Complete pod st w) (hd : LateDrift pod.uid.val w w') : Complete pod st w' := by
  refine ⟨?_,h.2.drift hd⟩
  unfold Node.terminal
  rw [hd.later.status]
  exact h.1

/-! ## Rules -/

/-- A call that neither touches a container nor makes a sandbox nor writes the status. -/
theorem meets_lateAsk {op : Request} {P : Node → Prop} {Q : op.Answer → Node → Prop}
    (hP : ∀ w w', P w → LateDrift uid w w' → P w') (hop : op.Quiet) (hw : P w)
    (hQ : ∀ w w' c a, P w → P w' → LateCopes op c → w.respond op c = some (a,w') → Q a w') :
    (ask op).Meets (lateContract uid) Q w := by
  refine Program.meets_request hw hP ?_
  intro w hw
  refine ⟨⟨?_,?_⟩,?_⟩
  · intro hstarts
    cases op with
    | runPodSandbox | startContainer => exact hop
    | _ => exact hstarts
  · rintro st rfl
    exact hop.elim
  · rintro a w' ⟨c,hcopes,hrespond⟩
    exact hQ w w' c a hw (hP w w' hw (.of_quiet hop hrespond)) hcopes hrespond

theorem meets_lateQuiet {q : WorkerM α} {P : Node → Prop} (hP : ∀ w w', P w → LateDrift uid w w' → P w')
    (hq : q.Uses Request.Calm) (hw : P w) : q.Meets (lateContract uid) (fun _ => P) w := by
  refine (Every.meets hq hw hP ?_).mono fun _ _ h => h.2
  intro w op hw hop
  refine ⟨⟨?_,?_⟩,?_⟩
  · intro hstarts
    cases op with
    | runPodSandbox | startContainer => exact hop
    | _ => exact hstarts
  · rintro st rfl
    exact hop.elim
  · rintro a w' ⟨c,-,hrespond⟩
    exact hP w w' hw (.of_quiet hop.quiet hrespond)

/-- Taking the pod down is always allowed. -/
theorem meets_lateTeardown {q : WorkerM α} (hq : q.Uses Request.Teardown) :
    q.Meets (lateContract uid) (fun _ _ => True) w := by
  refine (Every.meets (P := fun _ => True) hq trivial (fun _ _ h _ => h) ?_).mono fun _ _ h => h.2
  intro w op _ hop
  refine ⟨⟨?_,?_⟩,fun _ _ _ => trivial⟩
  · intro hstarts
    cases op with
    | runPodSandbox | startContainer => exact hop
    | _ => exact hstarts
  · rintro st rfl
    exact hop.elim

theorem meets_lateSetStatus {ls : PodLifecycleState} {P : Node → Prop} {Q : Unit → Node → Prop}
    (hP : ∀ w w', P w → LateDrift uid w w' → P w') (hls : isTerminalState ls = true) (hw : P w)
    (hQ : ∀ w : Node, P w → Q () { w with status := some ls }) :
    (setStatus ls).Meets (lateContract uid) Q w := by
  refine Program.meets_request hw hP ?_
  intro w hw
  refine ⟨⟨id,?_⟩,?_⟩
  · rintro st heq
    obtain rfl : ls = st := by injection heq
    exact hls
  · rintro a w' ⟨c,-,hrespond⟩
    rw [Node.respond_setStatus hrespond]
    exact hQ w hw

/-! ## The status pass -/

theorem HasExited.recorded {name : String} {code : Option ℤ → Prop} (h : HasExited pod st w name code) :
    ∃ cid r, st.containerIds.lookup name = some cid ∧ w.containers.lookup cid = some r ∧
      r.podUid = pod.uid.val ∧ r.state = .exited ∧ code r.exitCode := by
  obtain ⟨-,r,hr,hrest⟩ := h
  obtain ⟨cid,hcid,hlook⟩ := Option.bind_eq_some_iff.mp hr
  exact ⟨cid,r,hcid,hlook,hrest⟩

theorem complete_drift (w w' : Node) (h : Complete pod st w) (hd : LateDrift pod.uid.val w w') :
    Complete pod st w' :=
  h.drift hd

/-- The status of a container that has exited. -/
theorem meets_lateStatus {site : StatusSite} {cid : String} {r : ContainerRecord} (h : Complete pod st w)
    (hr : w.containers.lookup cid = some r) (huid : r.podUid = pod.uid.val) (hexited : r.state = .exited)
    {Q : Except KubeletError (Option RuntimeContainer) → Node → Prop}
    (hQ : ∀ w, Complete pod st w → Q (.ok (some (r.observed cid))) w) :
    (ask (.containerStatus site cid)).Meets (lateContract pod.uid.val) Q w := by
  refine meets_lateAsk (P := fun w => Complete pod st w ∧ w.containers.lookup cid = some r) ?_ trivial ⟨h,hr⟩ ?_
  · exact fun w w' hw hd => ⟨hw.1.drift hd,hd.exited cid r hw.2 huid hexited⟩
  · intro w w' c a hw hw' hcopes hrespond
    obtain ⟨-,ha⟩ := Node.respond_containerStatus hrespond
    rcases ha with rfl | ⟨e,hfault,-⟩
    · rw [hw.2]
      exact hQ w' hw'.1
    · exact (hcopes e hfault).elim

theorem meets_lateGetStatus (h : Complete pod st w) {Q : Option PodLifecycleState → Node → Prop}
    (hQ : ∀ ls w, isTerminalState ls = true → Complete pod st w → Q (some ls) w) :
    getStatus.Meets (lateContract pod.uid.val) Q w := by
  refine meets_lateAsk complete_drift trivial h ?_
  intro w w' c a hw _ _ hrespond
  obtain ⟨rfl,rfl⟩ := Prod.mk.inj (Option.some.inj hrespond)
  have hterminal := hw.1
  unfold Node.terminal at hterminal
  cases hs : w.status with
  | none =>
    rw [hs] at hterminal
    cases hterminal
  | some ls =>
    rw [hs] at hterminal
    exact hQ ls w hterminal hw

theorem meets_lateInitStatus {previous before : List ContainerStatus} (hctr : ctr ∈ pod.initContainers)
    (h : Complete pod st w) : (initContainerStatus pod st previous before ctr).Meets
      (lateContract pod.uid.val) (fun s w => s.state.isSucceeded = true ∧ Complete pod st w) w := by
  obtain ⟨-,hexited⟩ := h.2.inits ctr hctr
  obtain ⟨cid,r,hcid,hr,huid,hstate,hcode⟩ := hexited.recorded
  have hobserved : (r.observed cid).state = .exited := hstate
  unfold initContainerStatus
  rw [Program.meets_bind]
  have hobserve : (observeInitContainer pod st before ctr).Meets (lateContract pod.uid.val)
      (fun s w => s.1.isSucceeded = true ∧ Complete pod st w) w := by
    unfold observeInitContainer
    rw [hcid]
    dsimp only
    rw [Program.meets_bind]
    refine meets_lateStatus h hr huid hstate ?_
    intro w hw
    dsimp only
    unfold initContainerState
    rw [hobserved]
    dsimp only
    rw [Program.meets_bind,Program.meets_bind]
    refine (meets_lateQuiet complete_drift (uses_ask (by trivial)) hw).mono ?_
    intro t w hw
    rw [if_neg hexited.1]
    refine ⟨?_,hw⟩
    have hcode' : (r.observed cid).exitCode = some 0 := hcode
    simp [terminatedState,hcode']
  refine hobserve.mono ?_
  rintro ⟨current,imageId⟩ w ⟨hcurrent,hw⟩
  dsimp only
  rw [Program.meets_bind]
  refine (meets_lateQuiet complete_drift (uses_initContainerReady st ctr current) hw).mono ?_
  intro ready w hw
  exact ⟨hcurrent,hw⟩

theorem meets_lateInitStatuses {previous before : List ContainerStatus} {ctrs : List ContainerSpec}
    (hctrs : ∀ ctr ∈ ctrs, ctr ∈ pod.initContainers) (hbefore : ∀ s ∈ before, s.state.isSucceeded = true)
    (h : Complete pod st w) : (initContainerStatuses pod st previous before ctrs).Meets
      (lateContract pod.uid.val) (fun l w => (∀ s ∈ l, s.state.isSucceeded = true) ∧ Complete pod st w) w := by
  induction ctrs generalizing before w with
  | nil => exact ⟨hbefore,h⟩
  | cons ctr rest ih =>
    unfold initContainerStatuses
    rw [Program.meets_bind]
    refine (meets_lateInitStatus (hctrs ctr List.mem_cons_self) h).mono ?_
    rintro s w ⟨hs,hw⟩
    refine ih (fun c hc => hctrs c (List.mem_cons_of_mem _ hc)) ?_ hw
    intro s' hs'
    rcases List.mem_append.mp hs' with hmem | hmem
    · exact hbefore s' hmem
    · rw [List.mem_singleton.mp hmem]
      exact hs

/-- A final state of an app container that makes the pod Succeeded or Failed. -/
def EndsPod (policy : RestartPolicy) (s : ContainerState) : Prop :=
  s.isSucceeded = true ∨ policy = .never ∧ s.isFailed = true

theorem endsPod_terminated {code : Option ℤ} (hpolicy : pod.restartPolicy ≠ .always)
    (hcode : EndsApp pod ctr code) {reason : String} {message : Option String} {startedAt finishedAt : DateTime} :
    EndsPod pod.restartPolicy (.terminated (code.getD (-1)) reason message startedAt finishedAt) := by
  obtain ⟨-,hfailure⟩ := hcode
  unfold EndsPod
  cases hp : pod.restartPolicy with
  | always => exact (hpolicy hp).elim
  | onFailure =>
    rw [hfailure hp]
    exact .inl rfl
  | never =>
    by_cases hzero : code.getD (-1) = 0
    · exact .inl (by simp [hzero])
    · exact .inr ⟨rfl,by simp [hzero]⟩

theorem meets_lateAppStatus {previous : List ContainerStatus} {allInitsDone : Bool}
    (hctr : ctr ∈ pod.containers) (h : Complete pod st w) :
    (appContainerStatus st previous allInitsDone ctr).Meets (lateContract pod.uid.val)
      (fun s w => EndsPod pod.restartPolicy s.state ∧ Complete pod st w) w := by
  obtain ⟨hexited,hrecent⟩ := h.2.apps ctr hctr
  obtain ⟨cid,r,hcid,hr,huid,hstate,hcode⟩ := hexited.recorded
  have hobserved : (r.observed cid).state = .exited := hstate
  have hstarted (w : Node) (hw : Complete pod st w) : (justStarted st ctr.name).Meets
      (lateContract pod.uid.val) (fun b w => b = false ∧ Complete pod st w) w := by
    have hrecent := (hw.2.apps ctr hctr).2
    unfold justStarted
    cases ht : st.recentlyStarted.lookup ctr.name with
    | none => exact ⟨rfl,hw⟩
    | some t =>
      dsimp only
      rw [Program.meets_bind]
      refine meets_lateAsk complete_drift trivial hw ?_
      intro w w' c a hw hw' _ hrespond
      refine ⟨?_,hw'⟩
      have hlate := (hw'.2.apps ctr hctr).2 t ht
      cases c with
      | time u =>
        obtain ⟨-,hnext⟩ := Option.ite_none_right_eq_some.mp hrespond
        obtain ⟨rfl,rfl⟩ := Prod.mk.inj (Option.some.inj hnext)
        exact decide_eq_false (not_lt.mpr hlate)
      | _ => cases hrespond
  unfold appContainerStatus
  rw [Program.meets_bind]
  have hobserve : (observeAppContainer st allInitsDone ctr).Meets (lateContract pod.uid.val)
      (fun s w => EndsPod pod.restartPolicy s.1 ∧ Complete pod st w) w := by
    unfold observeAppContainer
    rw [hcid]
    dsimp only
    rw [Program.meets_bind]
    refine meets_lateStatus h hr huid hstate ?_
    intro w hw
    dsimp only
    unfold appContainerState
    rw [hobserved]
    dsimp only
    rw [Program.meets_bind,Program.meets_bind]
    refine (meets_lateQuiet complete_drift (uses_ask (by trivial)) hw).mono ?_
    intro t w hw
    rw [Program.meets_bind]
    refine (hstarted w hw).mono ?_
    rintro _ w ⟨rfl,hw⟩
    rw [if_neg (by decide),if_neg hexited.1,Program.meets_bind]
    refine (meets_lateQuiet complete_drift (uses_ask (by trivial)) hw).mono ?_
    intro message w hw
    exact ⟨endsPod_terminated h.2.policy hcode,hw⟩
  refine hobserve.mono ?_
  rintro ⟨current,ready,imageId⟩ w ⟨hcurrent,hw⟩
  exact ⟨hcurrent,hw⟩

theorem computePodPhase_of_ended {initStatuses statuses : List ContainerStatus} {policy : RestartPolicy}
    (hpolicy : policy ≠ .always) (hne : statuses ≠ []) (hinits : ∀ s ∈ initStatuses, s.state.isSucceeded = true)
    (happs : ∀ s ∈ statuses, EndsPod policy s.state) :
    computePodPhase initStatuses statuses policy = .succeeded ∨
      computePodPhase initStatuses statuses policy = .failed := by
  have hactive : anyActive statuses = false := by
    unfold anyActive
    rw [Bool.or_eq_false_iff,List.any_eq_false,List.any_eq_false]
    refine ⟨?_,?_⟩
    all_goals
      intro s hs
      rcases happs s hs with hend | ⟨-,hend⟩
      all_goals
        cases hstate : s.state with
        | terminated => simp [ContainerState.isRunning,ContainerState.isCrashLoop]
        | _ => rw [hstate] at hend; cases hend
  rw [computePodPhase_of_not_active hactive,scanInitStatuses_eq_none.mpr hinits,Option.getD_none]
  by_cases hall : ∀ s ∈ statuses, s.state.isSucceeded = true
  · exact .inl (settledPhase_eq_succeeded.mpr ⟨hpolicy,hne,hall⟩)
  · push Not at hall
    obtain ⟨s,hs,hfailed⟩ := hall
    rcases happs s hs with hend | ⟨hnever,hend⟩
    · exact (hfailed hend).elim
    · exact .inr (settledPhase_eq_failed.mpr ⟨hnever,s,hs,hend⟩)

/-- The status pass finds every container at its end. -/
theorem meets_lateUpdatePodStatus (h : Complete pod st w) :
    (updatePodStatus pod st).Meets (lateContract pod.uid.val) (fun _ _ => True) w := by
  unfold updatePodStatus
  rw [Program.meets_bind]
  refine (meets_lateQuiet complete_drift (uses_ask (by trivial)) h).mono ?_
  intro ls w hw
  rw [Program.meets_bind]
  refine (meets_lateInitStatuses (fun _ hc => hc) (by simp) hw).mono ?_
  rintro initStatuses w ⟨hinits,hw⟩
  rw [Program.meets_bind]
  refine (Program.Meets.forList (fun ctr hctr w hw => meets_lateAppStatus hctr hw) hw).mono ?_
  rintro statuses w ⟨⟨hlen,happs⟩,hw⟩
  rw [Program.meets_bind]
  refine (meets_lateQuiet complete_drift
    (Uses.forList fun ctr _ => uses_ephemeralContainerStatus st ctr) hw).mono ?_
  intro ephemeralStatuses w hw
  rw [Program.meets_bind]
  refine (meets_lateQuiet complete_drift (uses_ask (by trivial)) hw).mono ?_
  intro t w hw
  refine meets_lateSetStatus (P := fun _ => True) (fun _ _ _ _ => trivial) ?_ trivial fun _ _ => trivial
  have hne : statuses ≠ [] := by
    rintro rfl
    exact hw.2.nonempty (List.length_eq_zero_iff.mp hlen.symm)
  unfold isTerminalState
  rcases computePodPhase_of_ended hw.2.policy hne hinits happs with hphase | hphase
  · rw [Bool.or_eq_true,beq_iff_eq,beq_iff_eq]
    exact .inr hphase
  · rw [Bool.or_eq_true,beq_iff_eq,beq_iff_eq]
    exact .inl hphase

/-! ## The steps of the pass -/

/-- Everything is still at its end, or the pass is over. -/
def LateLeaves (pod : PodSpec) : Except PodSyncResult α → PodRuntimeState → Node → Prop
  | .ok _, st, w => Complete pod st w
  | .error _, _, _ => True

/-- A step over a pod that has run to completion. -/
def Lates (pod : PodSpec) (m : SyncM α) : Prop :=
  ∀ st w, Complete pod st w → m.Meets (lateContract pod.uid.val) (LateLeaves pod) st w

theorem Lates.bind {m : SyncM α} {f : α → SyncM β} (hm : Lates pod m) (hf : ∀ a, Lates pod (f a)) :
    Lates pod (m >>= f) := by
  intro st w hw
  rw [Routine.meets_bind]
  refine (hm st w hw).mono ?_
  intro r st w hr
  cases r with
  | ok a => exact hf a st w hr
  | error e => trivial

theorem lates_pure (a : α) : Lates pod (pure a) := fun _ _ hw => hw

theorem lates_quiet {q : WorkerM α} (hq : q.Uses Request.Calm) : Lates pod (liftM q) := by
  intro st w hw
  rw [Routine.meets_lift]
  exact meets_lateQuiet complete_drift hq hw

theorem lates_get : Lates pod Routine.get := fun _ _ hw => hw

theorem lates_forEach {body : ContainerSpec → SyncM Unit} {l : List ContainerSpec}
    (h : ∀ ctr ∈ l, Lates pod (body ctr)) : Lates pod (Routine.forEach body l) := by
  induction l with
  | nil => exact lates_pure ()
  | cons ctr rest ih =>
    apply Lates.bind (h ctr List.mem_cons_self)
    intro _
    exact ih fun c hc => h c (List.mem_cons_of_mem _ hc)

/-- The pass takes the pod down and stores a terminal phase. -/
theorem meets_lateTerminate {f : PodLifecycleState → WorkerM PodLifecycleState}
    (hf : ∀ ls, (f ls).Every Request.Calm fun st => isTerminalState st = true) :
    (terminateFailed pod f).Meets (lateContract uid) (fun r _ _ => ∃ e, r = .error e) st w := by
  have hany (w w' : Node) (_ : True) (_ : LateDrift uid w w') : True := trivial
  unfold terminateFailed
  rw [Routine.meets_bind,Routine.meets_get]
  dsimp only
  rw [Routine.meets_bind,Routine.meets_lift]
  refine (meets_lateTeardown (uses_terminatePod pod st _)).mono ?_
  intro _ w _
  dsimp only
  rw [Routine.meets_bind,Routine.meets_lift]
  unfold updateStored
  rw [Program.meets_bind]
  refine (meets_lateQuiet hany (uses_ask (by trivial)) trivial).mono ?_
  intro ls w _
  cases ls with
  | none => exact ⟨_,rfl⟩
  | some ls =>
    dsimp only
    rw [Program.meets_bind]
    have hstate : (f ls).Meets (lateContract uid) (fun st _ => isTerminalState st = true) w := by
      refine (Every.meets (P := fun _ => True) (hf ls) trivial (fun _ _ h _ => h) ?_).mono fun _ _ h => h.1
      intro w op _ hop
      refine ⟨⟨?_,?_⟩,fun _ _ _ => trivial⟩
      · intro hstarts
        cases op with
        | runPodSandbox | startContainer => exact hop
        | _ => exact hstarts
      · rintro st rfl
        exact hop.elim
    refine hstate.mono ?_
    intro ls' w hls'
    exact meets_lateSetStatus (P := fun _ => True) hany hls' trivial fun _ _ => ⟨_,rfl⟩

theorem terminal_deadlineExceededState (ls : PodLifecycleState) :
    (deadlineExceededState ls).Every Request.Calm fun st => isTerminalState st = true :=
  Every.bind (uses_ask trivial) fun _ _ => Every.pure rfl

theorem lates_checkDeadline : Lates pod (checkDeadline pod) := by
  unfold checkDeadline
  split
  · apply Lates.bind (lates_quiet (uses_ask (by trivial)))
    intro ls
    apply Lates.bind (lates_quiet (uses_ask (by trivial)))
    intro t
    split
    · intro st w _
      refine (meets_lateTerminate terminal_deadlineExceededState).mono ?_
      rintro _ _ _ ⟨e,rfl⟩
      trivial
    · exact lates_pure ()
  · exact lates_pure ()

theorem lates_ensureVolumes : Lates pod ensureVolumes := by
  intro st w hw
  unfold ensureVolumes
  rw [Routine.meets_bind,Routine.meets_get]
  dsimp only
  rw [Routine.meets_bind,Routine.meets_lift]
  refine meets_lateAsk complete_drift trivial hw ?_
  intro w w' c a _ hw' hcopes hrespond
  rcases Node.commit_cases hrespond with ⟨-,rfl,-⟩ | ⟨⟨e,hfault,-⟩,-⟩
  · exact hw'
  · exact (hcopes e hfault).elim

theorem lates_ensureContainerImage (ctr : ContainerSpec) : Lates pod (ensureContainerImage ctr) := by
  unfold ensureContainerImage
  apply Lates.bind lates_get
  intro st
  apply Lates.bind (lates_quiet (uses_sleepAfter (fun _ => trivial) _))
  intro _ st w hw
  rw [Routine.meets_bind,Routine.meets_lift]
  refine meets_lateAsk complete_drift trivial hw ?_
  intro w w' c a _ hw' hcopes hrespond
  cases c with
  | named id =>
    obtain ⟨rfl,-⟩ := Prod.mk.inj (Option.some.inj hrespond)
    exact ⟨hw'.1,hw'.2.of_sameStore ⟨rfl,rfl,rfl,rfl⟩⟩
  | fault e => exact (hcopes e rfl).elim
  | _ => cases hrespond

theorem lates_ensureSandbox : Lates pod (ensureSandbox worker pod) := by
  intro st w hw
  unfold ensureSandbox
  rw [Routine.meets_bind,Routine.meets_get]
  obtain ⟨id,hid⟩ := Option.isSome_iff_exists.mp hw.2.sandbox
  dsimp only
  rw [hid]
  exact hw

theorem lates_runInitContainer (sandboxId : String) (hctr : ctr ∈ pod.initContainers) :
    Lates pod (runInitContainer pod sandboxId ctr) := by
  intro st w hw
  obtain ⟨hside,hexited⟩ := hw.2.inits ctr hctr
  obtain ⟨cid,r,hcid,hr,huid,hstate,hcode⟩ := hexited.recorded
  have hobserved : (r.observed cid).state = .exited := hstate
  have hexit : (r.observed cid).exitCode = some 0 := hcode
  have hproceeds : (initProceeds pod ctr).Meets (lateContract pod.uid.val)
      (fun r st w => r = .ok true ∧ Complete pod st w) st w := by
    unfold initProceeds
    rw [Routine.meets_bind,Routine.meets_get]
    dsimp only
    rw [hcid]
    dsimp only
    rw [hside,if_neg (by decide)]
    unfold initCompleted
    rw [Routine.meets_bind,Routine.meets_lift]
    refine meets_lateStatus hw hr huid hstate ?_
    intro w hw
    dsimp only
    rw [hobserved]
    dsimp only
    rw [if_pos hexit]
    exact ⟨rfl,hw⟩
  unfold runInitContainer
  rw [Routine.meets_bind]
  refine hproceeds.mono ?_
  rintro _ st w ⟨rfl,hw⟩
  exact hw

theorem lates_markInitialized : Lates pod (markInitialized pod) := by
  unfold markInitialized
  split
  · exact lates_pure ()
  · intro st w hw
    rw [Routine.meets_bind,Routine.meets_lift]
    refine meets_lateGetStatus hw ?_
    intro ls w hls hw
    dsimp only
    split
    · exact hw
    · rw [Routine.meets_bind,Routine.meets_lift]
      refine (meets_lateQuiet complete_drift (uses_ask (by trivial)) hw).mono ?_
      intro t w hw
      dsimp only
      rw [Routine.meets_lift]
      exact meets_lateSetStatus (P := fun w => RanToCompletion pod st w) (fun _ _ h hd => h.drift hd) hls hw.2
        fun w h => ⟨hls,{ h with }⟩

theorem lates_runAppContainer (sandboxId : String) (hctr : ctr ∈ pod.containers) :
    Lates pod (runAppContainer pod sandboxId ctr) := by
  intro st w hw
  obtain ⟨hexited,-⟩ := hw.2.apps ctr hctr
  obtain ⟨cid,r,hcid,hr,huid,hstate,hcode⟩ := hexited.recorded
  have hobserved : (r.observed cid).state = .exited := hstate
  have hproceeds : (appProceeds pod ctr).Meets (lateContract pod.uid.val)
      (fun r st w => r = .ok true ∧ Complete pod st w) st w := by
    unfold appProceeds
    rw [Routine.meets_bind,Routine.meets_get]
    dsimp only
    rw [hcid]
    dsimp only
    rw [Routine.meets_bind,Routine.meets_lift]
    refine meets_lateStatus hw hr huid hstate ?_
    intro w hw
    dsimp only
    rw [hobserved]
    dsimp only
    unfold appExited snapshot
    rw [Routine.meets_bind,Routine.meets_bind,Routine.meets_lift]
    refine (meets_lateQuiet complete_drift (uses_orNow _) hw).mono ?_
    intro startedAt w hw
    dsimp only
    rw [Routine.meets_bind,Routine.meets_lift]
    refine (meets_lateQuiet complete_drift (uses_orNow _) hw).mono ?_
    intro finishedAt w hw
    dsimp only
    rw [Routine.meets_modify]
    dsimp only
    have hends : restartsAfter ctr pod.restartPolicy ((r.observed cid).exitCode.getD (-1)) = false := hcode.1
    rw [hends,if_neg (by decide)]
    exact ⟨rfl,hw.1,hw.2.of_sameStore ⟨rfl,rfl,rfl,rfl⟩⟩
  unfold runAppContainer
  rw [Routine.meets_bind]
  refine hproceeds.mono ?_
  rintro _ st w ⟨rfl,hw⟩
  exact hw

theorem lates_runEphemeralContainer (sandboxId : String) (hctr : ctr ∈ pod.ephemeralContainers) :
    Lates pod (runEphemeralContainer pod sandboxId ctr) := by
  intro st w hw
  unfold runEphemeralContainer
  rw [Routine.meets_bind,Routine.meets_get]
  dsimp only
  rw [if_pos (hw.2.ephemeral ctr hctr)]
  exact hw

/-- After a step over a pod that has run to completion comes the last one. -/
theorem Lates.meets_bind {m : SyncM α} {f : α → SyncM β} (hm : Lates pod m) (hw : Complete pod st w)
    (hf : ∀ a st w, Complete pod st w → (f a).Meets (lateContract pod.uid.val) (fun _ _ _ => True) st w) :
    (m >>= f).Meets (lateContract pod.uid.val) (fun _ _ _ => True) st w := by
  rw [Routine.meets_bind]
  refine (hm st w hw).mono ?_
  intro r st w hr
  cases r with
  | ok a => exact hf a st w hr
  | error e => trivial

theorem meets_lateContainers (sandboxId : String) (hw : Complete pod st w) :
    (syncContainers pod sandboxId).Meets (lateContract pod.uid.val) (fun _ _ _ => True) st w := by
  unfold syncContainers
  refine Lates.meets_bind (lates_forEach fun ctr hctr => lates_runInitContainer sandboxId hctr) hw ?_
  intro _ st w hw
  refine Lates.meets_bind lates_markInitialized hw ?_
  intro _ st w hw
  refine Lates.meets_bind (lates_forEach fun ctr hctr => lates_runAppContainer sandboxId hctr) hw ?_
  intro _ st w hw
  refine Lates.meets_bind lates_get hw ?_
  intro st' st w hw
  refine Lates.meets_bind (lates_quiet (uses_stopSidecarsWhenDone pod st')) hw ?_
  intro _ st w hw
  refine Lates.meets_bind (lates_forEach fun ctr hctr => lates_runEphemeralContainer sandboxId hctr) hw ?_
  intro _ st w hw
  rw [Routine.meets_bind,Routine.meets_get]
  dsimp only
  rw [Routine.meets_lift]
  exact meets_lateUpdatePodStatus hw

/-! ## The deadline -/

theorem deadlineExceeded_mono {ls : Option PodLifecycleState} {t t' : DateTime} (ht : t ≤ t')
    (h : deadlineExceeded pod ls t = true) : deadlineExceeded pod ls t' = true := by
  unfold deadlineExceeded at h ⊢
  split at h
  · next deadline start hdeadline hstart =>
    rw [decide_eq_true_eq] at h ⊢
    exact h.trans_le (Int.tdiv_le_tdiv (by decide) (Int.sub_le_sub_right ht start))
  · cases h

/-- The deadline of the pod has passed. -/
def PastDeadline (pod : PodSpec) (w : Node) : Prop := deadlineExceeded pod w.status w.clock = true

theorem pastDeadline_drift (w w' : Node) (h : PastDeadline pod w) (hd : LateDrift uid w w') :
    PastDeadline pod w' := by
  unfold PastDeadline at h ⊢
  rw [hd.later.status]
  exact deadlineExceeded_mono hd.later.clock h

theorem meets_pastDeadline (hw : PastDeadline pod w) : (checkDeadline pod).Meets (lateContract uid)
    (fun r _ _ => ∃ e, r = .error e) st w := by
  have hsome : pod.activeDeadlineSeconds.isSome = true := by
    unfold PastDeadline deadlineExceeded at hw
    split at hw
    · next hdeadline _ =>
      rw [hdeadline]
      rfl
    · cases hw
  unfold checkDeadline
  rw [if_pos hsome,Routine.meets_bind,Routine.meets_lift]
  refine meets_lateAsk pastDeadline_drift trivial hw ?_
  intro w w' c a hw _ _ hrespond
  obtain ⟨rfl,rfl⟩ := Prod.mk.inj (Option.some.inj hrespond)
  dsimp only
  rw [Routine.meets_bind,Routine.meets_lift]
  have hsteady (v v' : Node) (h : v.status = w.status ∧ PastDeadline pod v) (hd : LateDrift uid v v') :
      v'.status = w.status ∧ PastDeadline pod v' :=
    ⟨hd.later.status.trans h.1,pastDeadline_drift v v' h.2 hd⟩
  refine meets_lateAsk hsteady trivial ⟨rfl,hw⟩ ?_
  rintro v v' c t ⟨hstatus,hv⟩ _ _ hrespond
  have hpassed : deadlineExceeded pod w.status t = true := by
    cases c with
    | time u =>
      obtain ⟨hclock,hnext⟩ := Option.ite_none_right_eq_some.mp hrespond
      obtain ⟨rfl,-⟩ := Prod.mk.inj (Option.some.inj hnext)
      unfold PastDeadline at hv
      rw [hstatus] at hv
      exact deadlineExceeded_mono hclock hv
    | _ => cases hrespond
  dsimp only
  rw [if_pos hpassed]
  exact meets_lateTerminate terminal_deadlineExceededState

/-- A pass over a pod with a terminal phase, begun where it is safe, starts nothing and
leaves the phase terminal. -/
theorem meets_latePass (hterminal : w.terminal = true) (hsafe : LateSafe pod st w) :
    (syncPod worker pod st).Meets (lateContract pod.uid.val) (fun _ _ => True) w := by
  have hsteps : (syncSteps worker pod).Meets (lateContract pod.uid.val) (fun _ _ _ => True) st w := by
    unfold syncSteps
    cases hvalid : validatePod pod with
    | error e => trivial
    | ok _ =>
      rcases hsafe with hinvalid | hdeadline | hcompleted
      · rw [hvalid] at hinvalid
        cases hinvalid
      · dsimp only
        rw [Routine.meets_bind]
        refine (meets_pastDeadline hdeadline).mono ?_
        rintro _ st w ⟨e,rfl⟩
        trivial
      · refine Lates.meets_bind lates_checkDeadline ⟨hterminal,hcompleted⟩ ?_
        intro _ st w hw
        refine Lates.meets_bind lates_ensureVolumes hw ?_
        intro _ st w hw
        refine Lates.meets_bind (lates_forEach fun ctr _ => lates_ensureContainerImage ctr) hw ?_
        intro _ st w hw
        refine Lates.meets_bind lates_ensureSandbox hw ?_
        intro sandboxId st w hw
        exact meets_lateContainers sandboxId hw
  unfold syncPod
  rw [Program.meets_bind]
  refine Program.Meets.mono hsteps ?_
  rintro ⟨r,st⟩ w _
  cases r with
  | error r => trivial
  | ok _ => trivial

end KubeAir.Worker
