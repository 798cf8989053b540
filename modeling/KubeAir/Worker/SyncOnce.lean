import KubeAir.Worker.StartOnce

/-! # The whole pass starts nothing twice

A pass that begins in a settled state ends in one: each step before the sandbox is up keeps
it, entering the sandbox makes the container known, and every round of the three container
loops keeps it known.
-/
namespace KubeAir.Worker
open Core Transition Program Routine

variable {worker : PodWorker} {pod : PodSpec} {n : String} {p : RestartPolicy} {sandboxId : String}
  {w : Node} {st : PodRuntimeState} {ctr : ContainerSpec} {α ε : Type}

/-- What a step of the pass leaves: the container is known, or the pass is over and the next
one starts from a settled state. -/
def Leaves (pod : PodSpec) (n : String) (p : RestartPolicy) (sandboxId : String) :
    Except PodSyncResult α → PodRuntimeState → Node → Prop
  | .ok _, st, w => KnownIn pod n p sandboxId st w
  | .error r, st, w => Settled pod n p (stateAfter (r,st)) w

/-- What the decision about a container leaves: it is started only if it may be. -/
def Decides (pod : PodSpec) (n : String) (p : RestartPolicy) (sandboxId m : String) :
    Except PodSyncResult Bool → PodRuntimeState → Node → Prop
  | .ok proceed, st, w => KnownIn pod n p sandboxId st w ∧
      (proceed = false → m = n → Startable pod n p sandboxId w)
  | .error r, st, w => Settled pod n p (stateAfter (r,st)) w

theorem settled_stateAfter (r : PodSyncResult) (h : Settled pod n p st w) :
    Settled pod n p (stateAfter (r,st)) w := by
  cases r with
  | terminated => exact .inl ⟨rfl,rfl⟩
  | _ => exact h

theorem KnownIn.settled (h : KnownIn pod n p sandboxId st w) : Settled pod n p st w := .inr ⟨sandboxId,h⟩

/-- A step that leaves the containers alone, and what comes after it. -/
theorem meets_inert_bind {m : SyncM α} {f : α → SyncM ε} {P : Node → Prop}
    {Q : Except PodSyncResult ε → PodRuntimeState → Node → Prop} (hP : Node.Steady P)
    (hm : Inert Request.Reporting m) (h : KnownIn pod n p sandboxId st w) (hw : P w)
    (hf : ∀ a st w, KnownIn pod n p sandboxId st w → P w → (f a).Meets (startContract pod n p) Q st w)
    (hQ : ∀ r st w, Settled pod n p (stateAfter (r,st)) w → Q (.error r) st w) :
    (m >>= f).Meets (startContract pod n p) Q st w := by
  rw [Routine.meets_bind]
  refine (meets_inert (steady_knownIn.and hP) (hm.mono fun _ hop => hop.passive) ⟨h,hw⟩).mono ?_
  rintro r st' w ⟨hs,hknown,hw⟩
  cases r with
  | ok a => exact hf a st' w (hknown.of_sameIds hs) hw
  | error r => exact hQ r st' w (settled_stateAfter r (hknown.of_sameIds hs).settled)

/-- A program that leaves the containers alone, and what comes after it. -/
theorem meets_passive_bind {q : WorkerM α} {f : α → SyncM ε}
    {Q : Except PodSyncResult ε → PodRuntimeState → Node → Prop} (hq : q.Uses Request.Reporting)
    (h : KnownIn pod n p sandboxId st w)
    (hf : ∀ a w, KnownIn pod n p sandboxId st w → (f a).Meets (startContract pod n p) Q st w) :
    (liftM q >>= f : SyncM ε).Meets (startContract pod n p) Q st w := by
  rw [Routine.meets_bind,Routine.meets_lift]
  refine (meets_passive steady_knownIn (hq.mono (fun _ hop => hop.passive) fun _ _ => trivial) h).mono ?_
  intro a w hw
  exact hf a w hw

/-- The pass terminates the pod. -/
theorem meets_terminateFailed {f : PodLifecycleState → WorkerM PodLifecycleState}
    (hf : ∀ ls, (f ls).Uses Request.Calm) {Q : Except PodSyncResult Unit → PodRuntimeState → Node → Prop}
    (hQ : ∀ st w, Q (.error .terminated) st w) :
    (terminateFailed pod f).Meets (startContract pod n p) Q st w := by
  unfold terminateFailed
  rw [Routine.meets_bind,Routine.meets_get]
  dsimp only
  rw [Routine.meets_bind,Routine.meets_lift]
  refine (meets_startsNothing ((uses_terminatePod pod st _).mono
    (fun _ hop => hop.startsNothing) (fun _ _ => trivial))).mono ?_
  intro _ w _
  dsimp only
  rw [Routine.meets_bind,Routine.meets_lift]
  refine (meets_startsNothing ((uses_updateStored hf).mono
    (fun _ hop => hop.passive.startsNothing) (fun _ _ => trivial))).mono ?_
  intro _ w _
  exact hQ st w

section Passes
variable (hpol : HasPolicy pod n p) (hp : p ≠ .always)

/-- Looking at a recorded container before the decision about it. -/
theorem meets_containerStatus {cid : String} (h : KnownIn pod n p sandboxId st w)
    (hcid : st.containerIds.lookup ctr.name = some cid)
    {Q : Except KubeletError (Option RuntimeContainer) → Node → Prop}
    (hQ : ∀ w r c, KnownIn pod n p sandboxId st w → w.containers.lookup cid = some r →
      r.podUid = pod.uid.val → r.name = ctr.name → (r.state = .running ∨ r.state = .exited) →
      StatusTold pod w cid c → (Q (.ok (some (r.observed cid))) w) ∧ ∀ e, c = .fault e → Q (.error e) w) :
    (containerStatus cid).Meets (startContract pod n p) Q w := by
  refine meets_ask steady_knownIn trivial h ?_
  intro w hw c a w' hcopes hrespond
  obtain ⟨rfl,ha⟩ := Node.respond_containerStatus hrespond
  obtain ⟨r,hr,huid,hname,hstate⟩ := hw.2.recorded ctr.name cid hcid
  obtain ⟨hok,hfault⟩ := hQ w' r c hw hr huid hname hstate hcopes
  rcases ha with rfl | ⟨e,hc,rfl⟩
  · rw [hr]
    exact hok
  · exact hfault e hc

include hpol hp

/-- A container under `Never` or `OnFailure` does not hide its state. -/
theorem not_fault {cid : String} {r : ContainerRecord} {c : Choice} (hctr : ctr ∈ allContainers pod)
    (hr : w.containers.lookup cid = some r) (huid : r.podUid = pod.uid.val) (hname : r.name = ctr.name)
    (htold : StatusTold pod w cid c) (hn : ctr.name = n) (e : KubeletError) : c ≠ .fault e :=
  (htold r hr huid).1 ctr hctr hname.symm (by rw [hpol.2 ctr hctr hn]; exact hp) e

theorem sidecar_ne (hctr : ctr ∈ allContainers pod) (hside : isSidecarInitContainer ctr = true) :
    ctr.name ≠ n := by
  intro hn
  have hpolicy := hpol.2 ctr hctr hn
  have halways : ctr.restartPolicy = some .always := by simpa [isSidecarInitContainer] using hside
  unfold containerRestartPolicy at hpolicy
  rw [halways] at hpolicy
  exact hp hpolicy.symm

theorem meets_sidecarRuns {cid : String} (hctr : ctr ∈ allContainers pod)
    (hside : isSidecarInitContainer ctr = true) (h : KnownIn pod n p sandboxId st w)
    (hcid : st.containerIds.lookup ctr.name = some cid) : (sidecarRuns ctr cid).Meets (startContract pod n p)
      (Decides pod n p sandboxId ctr.name) st w := by
  have hne := sidecar_ne hpol hp hctr hside
  unfold sidecarRuns
  rw [Routine.meets_bind,Routine.meets_lift]
  refine meets_containerStatus h hcid ?_
  intro w r c hw _ _ _ _ _
  refine ⟨?_,fun e _ => ⟨hw,fun _ hn => (hne hn).elim⟩⟩
  dsimp only
  split
  · refine meets_inert_bind (.const True) ((inert_armProbes ctr cid).mono fun _ hop => hop.reporting) hw
      trivial ?_ fun _ _ _ hr => hr
    exact fun _ st w hw _ => ⟨hw,fun hfalse => nomatch hfalse⟩
  · exact ⟨hw,fun _ hn => (hne hn).elim⟩

omit hp in
/-- An exited init container that is to be restarted may be. -/
theorem startable_of_initFailed {cid : String} {r : ContainerRecord} {c : Choice} (hctr : ctr ∈ pod.initContainers)
    (hw : KnownIn pod n p sandboxId st w) (hcid : st.containerIds.lookup ctr.name = some cid)
    (hr : w.containers.lookup cid = some r) (huid : r.podUid = pod.uid.val) (hname : r.name = ctr.name)
    (htold : StatusTold pod w cid c) (hexited : r.state = .exited) (hcode : r.exitCode ≠ some 0)
    (hrestart : pod.restartPolicy ≠ .never) (hn : ctr.name = n) : Startable pod n p sandboxId w := by
  have hall : ctr ∈ allContainers pod := by simp [allContainers,hctr]
  refine hw.2.startable_of_failed ?_ (by rw [← hn]; exact hcid) hr hexited hcode
  intro hnever
  have hpolicy := hpol.2 ctr hall hn
  rw [hnever] at hpolicy
  unfold containerRestartPolicy at hpolicy
  cases hown : ctr.restartPolicy with
  | none =>
    rw [hown] at hpolicy
    exact hrestart hpolicy
  | some own =>
    rw [hown,Option.getD_some] at hpolicy
    subst hpolicy
    exact hcode ((htold r hr huid).2 ctr hctr hname.symm hown hrestart hexited)

theorem meets_initCompleted {cid : String} (hctr : ctr ∈ pod.initContainers)
    (h : KnownIn pod n p sandboxId st w) (hcid : st.containerIds.lookup ctr.name = some cid) :
    (initCompleted pod ctr cid).Meets (startContract pod n p) (Decides pod n p sandboxId ctr.name) st w := by
  have hall : ctr ∈ allContainers pod := by simp [allContainers,hctr]
  unfold initCompleted
  rw [Routine.meets_bind,Routine.meets_lift]
  refine meets_containerStatus h hcid ?_
  intro w r c hw hr huid hname hstate htold
  refine ⟨?_,fun e hfault => ⟨hw,fun _ hn => (not_fault hpol hp hall hr huid hname htold hn e hfault).elim⟩⟩
  have hobserved : (r.observed cid).state = r.state := rfl
  dsimp only
  rw [hobserved]
  rcases hstate with hrunning | hexited
  · rw [hrunning]
    dsimp only
    rw [Routine.meets_bind,Routine.meets_get]
    exact meets_passive_bind (uses_updatePodStatus pod st) hw fun _ w hw => hw.settled
  · rw [hexited]
    dsimp only
    change Routine.Meets _ (if r.exitCode = some 0 then _ else _) _ st w
    split
    · exact ⟨hw,fun hfalse => nomatch hfalse⟩
    · next hcode =>
      split
      · rw [Routine.meets_bind,Routine.meets_get]
        refine meets_passive_bind (uses_updatePodStatus pod st) hw fun _ w _ => ?_
        rw [Routine.meets_bind]
        exact meets_terminateFailed (fun _ => uses_pure _) fun _ _ => .inl ⟨rfl,rfl⟩
      · next hrestart =>
        have hstart := startable_of_initFailed hpol hctr hw hcid hr huid hname htold hexited hcode hrestart
        refine meets_inert_bind steady_startable.imp
          ((inert_snapshot ctr.name "Error" _).mono fun _ hop => hop.reporting) hw hstart ?_ fun _ _ _ hr => hr
        exact fun _ st w hw hstart => ⟨hw,fun _ => hstart⟩

theorem meets_initProceeds (hctr : ctr ∈ pod.initContainers) (h : KnownIn pod n p sandboxId st w) :
    (initProceeds pod ctr).Meets (startContract pod n p) (Decides pod n p sandboxId ctr.name) st w := by
  have hall : ctr ∈ allContainers pod := by simp [allContainers,hctr]
  unfold initProceeds
  rw [Routine.meets_bind,Routine.meets_get]
  dsimp only
  split
  · next hnone => exact ⟨h,fun _ hn => h.2.startable (by rw [← hn]; exact hnone)⟩
  · next cid hcid =>
    split
    · next hside => exact meets_sidecarRuns hpol hp hall hside h hcid
    · exact meets_initCompleted hpol hp hctr h hcid

theorem meets_appExited {cid : String} {r : ContainerRecord} (hctr : ctr ∈ allContainers pod)
    (h : KnownIn pod n p sandboxId st w) (hcid : st.containerIds.lookup ctr.name = some cid)
    (hr : w.containers.lookup cid = some r) (hexited : r.state = .exited) :
    (appExited pod ctr (r.observed cid)).Meets (startContract pod n p)
      (Decides pod n p sandboxId ctr.name) st w := by
  have hstart : restartsAfter ctr pod.restartPolicy (r.exitCode.getD (-1)) = true → ctr.name = n →
      Startable pod n p sandboxId w := by
    intro hrestart hn
    have hpolicy := hpol.2 ctr hctr hn
    unfold restartsAfter at hrestart
    rw [hpolicy] at hrestart
    refine h.2.startable_of_failed ?_ (by rw [← hn]; exact hcid) hr hexited ?_
    · rintro rfl
      cases hrestart
    · intro hcode
      rw [hcode] at hrestart
      cases p with
      | always => exact hp rfl
      | onFailure => cases hrestart
      | never => cases hrestart
  unfold appExited
  refine meets_inert_bind steady_startable.imp.imp
    ((inert_snapshot ctr.name _ _).mono fun _ hop => hop.reporting) h hstart ?_ fun _ _ _ hr => hr
  intro _ st' w hw hstart
  change Routine.Meets _ (if restartsAfter ctr pod.restartPolicy (r.exitCode.getD (-1)) = true then _ else _) _ st' w
  split
  · next hrestart =>
    rw [Routine.meets_bind,Routine.meets_get]
    refine meets_inert_bind steady_startable.imp (inert_crashLoopSleep pod ctr.name _) hw (hstart hrestart)
      ?_ fun _ _ _ hr => hr
    exact fun _ st w hw hstart => ⟨hw,fun _ => hstart⟩
  · exact ⟨hw,fun hfalse => nomatch hfalse⟩

theorem meets_appProceeds (hctr : ctr ∈ allContainers pod) (h : KnownIn pod n p sandboxId st w) :
    (appProceeds pod ctr).Meets (startContract pod n p) (Decides pod n p sandboxId ctr.name) st w := by
  unfold appProceeds
  rw [Routine.meets_bind,Routine.meets_get]
  dsimp only
  split
  · next hnone => exact ⟨h,fun _ hn => h.2.startable (by rw [← hn]; exact hnone)⟩
  · next cid hcid =>
    rw [Routine.meets_bind,Routine.meets_lift]
    refine meets_containerStatus h hcid ?_
    intro w r c hw hr huid hname hstate htold
    refine ⟨?_,fun e hfault => ⟨hw,fun _ hn => (not_fault hpol hp hctr hr huid hname htold hn e hfault).elim⟩⟩
    have hobserved : (r.observed cid).state = r.state := rfl
    dsimp only
    rw [hobserved]
    rcases hstate with hrunning | hexited
    · rw [hrunning]
      refine meets_inert_bind (.const True) ((inert_armProbes ctr cid).mono fun _ hop => hop.reporting) hw
        trivial ?_ fun _ _ _ hr => hr
      intro armed st w hw _
      refine meets_inert_bind (.const True) (inert_resizeWhenArmed ctr cid armed) hw trivial ?_ fun _ _ _ hr => hr
      exact fun _ st w hw _ => ⟨hw,fun hfalse => nomatch hfalse⟩
    · rw [hexited]
      exact meets_appExited hpol hp hctr hw hcid hr hexited

omit hp hpol in
theorem meets_startFailed {name : String} {e : KubeletError} (h : KnownIn pod n p sandboxId st w) :
    (startFailed name e).Meets (startContract pod n p) (Leaves pod n p sandboxId) st w := by
  unfold startFailed
  split
  · rw [Routine.meets_bind]
    exact .inl ⟨rfl,rfl⟩
  · exact h

theorem meets_runInitContainer (hctr : ctr ∈ pod.initContainers) (h : KnownIn pod n p sandboxId st w) :
    (runInitContainer pod sandboxId ctr).Meets (startContract pod n p) (Leaves pod n p sandboxId) st w := by
  have hall : ctr ∈ allContainers pod := by simp [allContainers,hctr]
  unfold runInitContainer
  rw [Routine.meets_bind]
  refine (meets_initProceeds hpol hp hctr h).mono ?_
  intro r st w hr
  cases r with
  | error r => exact hr
  | ok proceed =>
    obtain ⟨hw,hstart⟩ := hr
    cases proceed with
    | true => exact hw
    | false =>
      refine meets_inert_bind steady_startable.imp (inert_initBackoff pod ctr.name) hw (hstart rfl)
        ?_ fun _ _ _ hr => hr
      intro _ st w hw hstart
      rw [Routine.meets_bind,Routine.meets_attempt]
      refine (meets_startContainer hpol hp hall hw hstart).mono ?_
      intro r st w hw
      cases r with
      | ok _ =>
        dsimp only
        rw [Routine.meets_bind,Routine.meets_modify]
        have hclear : KnownIn pod n p sandboxId (clearStartFailure ctr.name st) w := hw
        dsimp only
        split
        · exact hclear
        · rw [Routine.meets_bind,Routine.meets_get]
          exact meets_passive_bind (uses_updatePodStatus pod _) hclear fun _ w hw => hw.settled
      | error e =>
        dsimp only
        rw [Routine.meets_bind]
        refine (meets_startFailed hw).mono ?_
        intro r st w hr
        cases r with
        | error r => exact hr
        | ok _ =>
          dsimp only
          rw [Routine.meets_bind,Routine.meets_get]
          exact meets_passive_bind (uses_updatePodStatus pod _) hr fun _ w hw => hw.settled

theorem meets_runAppContainer (hctr : ctr ∈ pod.containers) (h : KnownIn pod n p sandboxId st w) :
    (runAppContainer pod sandboxId ctr).Meets (startContract pod n p) (Leaves pod n p sandboxId) st w := by
  have hall : ctr ∈ allContainers pod := by simp [allContainers,hctr]
  unfold runAppContainer
  rw [Routine.meets_bind]
  refine (meets_appProceeds hpol hp hall h).mono ?_
  intro r st w hr
  cases r with
  | error r => exact hr
  | ok proceed =>
    obtain ⟨hw,hstart⟩ := hr
    cases proceed with
    | true => exact hw
    | false =>
      change Routine.Meets _ (Routine.get >>= _) _ st w
      rw [Routine.meets_bind,Routine.meets_get]
      dsimp only
      split
      · exact hw
      · refine meets_inert_bind steady_startable.imp (inert_lift (uses_sleepAfter (fun _ => trivial) _)) hw (hstart rfl)
          ?_ fun _ _ _ hr => hr
        intro _ st w hw hstart
        rw [Routine.meets_bind,Routine.meets_attempt]
        refine (meets_startContainer hpol hp hall hw hstart).mono ?_
        intro r st w hw
        cases r with
        | ok _ => exact hw
        | error e => exact meets_startFailed hw

theorem meets_runEphemeralContainer (hctr : ctr ∈ pod.ephemeralContainers)
    (h : KnownIn pod n p sandboxId st w) : (runEphemeralContainer pod sandboxId ctr).Meets
      (startContract pod n p) (Leaves pod n p sandboxId) st w := by
  have hall : ctr ∈ allContainers pod := by simp [allContainers,hctr]
  unfold runEphemeralContainer
  rw [Routine.meets_bind,Routine.meets_get]
  dsimp only
  split
  · exact h
  · next hnone =>
    have hlookup : st.containerIds.lookup ctr.name = none := by simpa using hnone
    rw [Routine.meets_bind,Routine.meets_attempt]
    refine (meets_startContainer hpol hp hall h fun hn => h.2.startable (by rw [← hn]; exact hlookup)).mono ?_
    exact fun _ _ _ hw => hw

omit hpol hp in
/-- Running a container after another keeps it known. -/
theorem meets_forEach {body : ContainerSpec → SyncM Unit} {l : List ContainerSpec}
    (hbody : ∀ ctr ∈ l, ∀ st w, KnownIn pod n p sandboxId st w →
      (body ctr).Meets (startContract pod n p) (Leaves pod n p sandboxId) st w)
    (h : KnownIn pod n p sandboxId st w) :
    (Routine.forEach body l).Meets (startContract pod n p) (Leaves pod n p sandboxId) st w := by
  refine Routine.Meets.forEach (I := KnownIn pod n p sandboxId) ?_ (fun _ _ hw => hw) h
  intro ctr hctr st w hw
  refine (hbody ctr hctr st w hw).mono ?_
  intro r st w hr
  cases r with
  | ok _ => exact hr
  | error r => exact hr

theorem meets_syncContainers (h : KnownIn pod n p sandboxId st w) :
    (syncContainers pod sandboxId).Meets (startContract pod n p) (Leaves pod n p sandboxId) st w := by
  unfold syncContainers
  rw [Routine.meets_bind]
  refine (meets_forEach (fun ctr hctr st w hw => meets_runInitContainer hpol hp hctr hw) h).mono ?_
  intro r st w hr
  cases r with
  | error r => exact hr
  | ok _ =>
    refine meets_inert_bind (.const True) (inert_markInitialized pod) hr trivial ?_ fun _ _ _ hr => hr
    intro _ st w hw _
    rw [Routine.meets_bind]
    refine (meets_forEach (fun ctr hctr st w hw => meets_runAppContainer hpol hp hctr hw) hw).mono ?_
    intro r st w hr
    cases r with
    | error r => exact hr
    | ok _ =>
      dsimp only
      rw [Routine.meets_bind,Routine.meets_get]
      refine meets_passive_bind ((uses_stopSidecarsWhenDone pod st).mono (fun _ hop => hop.reporting)
        fun _ _ => trivial) hr ?_
      intro _ w hw
      rw [Routine.meets_bind]
      refine (meets_forEach (fun ctr hctr st w hw => meets_runEphemeralContainer hpol hp hctr hw) hw).mono ?_
      intro r st w hr
      cases r with
      | error r => exact hr
      | ok _ =>
        dsimp only
        rw [Routine.meets_bind,Routine.meets_get]
        dsimp only
        rw [Routine.meets_lift]
        exact meets_passive steady_knownIn ((uses_updatePodStatus pod st).mono (fun _ hop => hop.passive)
          fun _ _ => trivial) hr

/-- Adopting what the runtime lists. -/
theorem meets_adoptListed (hst : st.sandboxId = some sandboxId) (hids : st.containerIds = ∅) :
    (adoptListed pod sandboxId).Meets (startContract pod n p) (Leaves pod n p sandboxId) st w := by
  unfold adoptListed
  rw [Routine.meets_bind,Routine.meets_lift]
  refine meets_ask (Node.Steady.const True) trivial trivial ?_
  intro w _ c a w' hcopes hrespond
  obtain ⟨rfl,⟨l,-,hl,rfl⟩ | ⟨e,hfault,-⟩⟩ := Node.respond_listContainers hrespond
  · refine ⟨?_,known_recovered hcopes.2 hpol hp hl hids⟩
    exact (sandboxId_recoverContainers st _).trans hst
  · exact (hcopes.1 e hfault).elim

theorem meets_enterSandbox {ip : Option String} (hids : st.containerIds = ∅) :
    (enterSandbox worker pod sandboxId ip).Meets (startContract pod n p) (Leaves pod n p sandboxId) st w := by
  unfold enterSandbox
  rw [Routine.meets_bind,Routine.meets_modify]
  dsimp only
  rw [Routine.meets_bind]
  have hnoted : ({ st with sandboxId := some sandboxId, sandboxIp := ip } : PodRuntimeState).sandboxId =
    some sandboxId := rfl
  refine (meets_adoptListed hpol hp hnoted hids).mono ?_
  intro r st w hr
  cases r with
  | error r => exact hr
  | ok _ =>
    dsimp only
    rw [Routine.meets_lift]
    exact meets_passive steady_knownIn ((uses_updateStored fun _ => uses_pure _).mono
      (fun _ hop => hop.passive) fun _ _ => trivial) hr

/-- After the sandbox of the pod is up the container is known. -/
theorem meets_ensureSandbox (h : Settled pod n p st w) :
    (ensureSandbox worker pod).Meets (startContract pod n p) (fun r st w => match r with
      | .ok sandboxId => KnownIn pod n p sandboxId st w
      | .error r => Settled pod n p (stateAfter (r,st)) w) st w := by
  unfold ensureSandbox
  rw [Routine.meets_bind,Routine.meets_get]
  dsimp only
  rcases h with ⟨hsandbox,hids⟩ | ⟨sandboxId,h⟩
  · rw [hsandbox]
    dsimp only
    rw [Routine.meets_bind,Routine.meets_lift]
    refine (meets_startsNothing ((uses_createSandbox worker pod).mono (fun _ hop => hop.sandboxing.1)
      fun _ _ => trivial)).mono ?_
    intro a w _
    cases a with
    | ok found =>
      dsimp only
      rw [Routine.meets_bind]
      refine (meets_enterSandbox hpol hp hids).mono ?_
      intro r st w hr
      cases r with
      | error r => exact hr
      | ok _ => exact hr
    | error e =>
      dsimp only
      rw [Routine.meets_bind,Routine.meets_lift]
      refine (meets_startsNothing ((uses_markUnscheduled _ _ _).mono (fun _ hop => hop.passive.startsNothing)
        fun _ _ => trivial)).mono ?_
      intro _ w _
      exact .inl ⟨hsandbox,hids⟩
  · rw [h.1]
    exact h

omit hpol hp in
/-- A step that leaves the containers alone, before the sandbox is looked at. -/
theorem meets_settled_bind {m : SyncM α} {f : α → SyncM ε}
    {Q : Except PodSyncResult ε → PodRuntimeState → Node → Prop} (hm : Inert Request.Reporting m)
    (h : Settled pod n p st w)
    (hf : ∀ a st w, Settled pod n p st w → (f a).Meets (startContract pod n p) Q st w)
    (hQ : ∀ r st w, Settled pod n p (stateAfter (r,st)) w → Q (.error r) st w) :
    (m >>= f).Meets (startContract pod n p) Q st w := by
  rw [Routine.meets_bind]
  refine (meets_inert steady_settled (hm.mono fun _ hop => hop.passive) h).mono ?_
  rintro r st' w ⟨hs,hw⟩
  cases r with
  | ok a => exact hf a st' w (hw.of_sameIds hs)
  | error r => exact hQ r st' w (settled_stateAfter r (hw.of_sameIds hs))

/-- What a pass leaves. -/
def Ends (pod : PodSpec) (n : String) (p : RestartPolicy) :
    Except PodSyncResult Unit → PodRuntimeState → Node → Prop
  | .ok _, st, w => Settled pod n p st w
  | .error r, st, w => Settled pod n p (stateAfter (r,st)) w

omit hpol hp in
theorem meets_checkDeadline (h : Settled pod n p st w) :
    (checkDeadline pod).Meets (startContract pod n p) (Ends pod n p) st w := by
  unfold checkDeadline
  split
  · refine meets_settled_bind (inert_lift (uses_ask trivial)) h ?_ fun _ _ _ hr => hr
    intro ls st w hw
    refine meets_settled_bind (inert_lift (uses_ask trivial)) hw ?_ fun _ _ _ hr => hr
    intro t st w hw
    split
    · exact meets_terminateFailed uses_deadlineExceededState fun _ _ => .inl ⟨rfl,rfl⟩
    · exact hw
  · exact h

theorem meets_syncSteps (h : Settled pod n p st w) :
    (syncSteps worker pod).Meets (startContract pod n p) (Ends pod n p) st w := by
  unfold syncSteps
  split
  · exact settled_stateAfter _ h
  · rw [Routine.meets_bind]
    refine (meets_checkDeadline h).mono ?_
    intro r st w hr
    cases r with
    | error r => exact hr
    | ok _ =>
      refine meets_settled_bind inert_ensureVolumes hr ?_ fun _ _ _ hr => hr
      intro _ st w hw
      refine meets_settled_bind (Keeps.forEach sameIds_refl sameIds_trans
        fun ctr _ => inert_ensureContainerImage ctr) hw ?_ fun _ _ _ hr => hr
      intro _ st w hw
      rw [Routine.meets_bind]
      refine (meets_ensureSandbox hpol hp hw).mono ?_
      intro r st w hr
      cases r with
      | error r => exact hr
      | ok sandboxId =>
        refine (meets_syncContainers hpol hp hr).mono ?_
        intro r st w hr
        cases r with
        | error r => exact hr
        | ok _ => exact hr.settled

/-- A pass starts the container only where it may and leaves a settled state. -/
theorem meets_syncPod (h : Settled pod n p st w) :
    (syncPod worker pod st).Meets (startContract pod n p) (fun r w => Settled pod n p (stateAfter r) w) w := by
  unfold syncPod
  rw [Program.meets_bind]
  refine Program.Meets.mono (meets_syncSteps hpol hp h) ?_
  rintro ⟨r,st⟩ w hr
  cases r with
  | error r => exact hr
  | ok _ => exact hr

end Passes
end KubeAir.Worker
