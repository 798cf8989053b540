import KubeAir.Manager.TerminalPhase

/-! # Runs with a terminal phase

Each action of the pipeline keeps the invariant of the passes over one pod and keeps a
terminal phase terminal, so a run does.
-/
namespace KubeAir.Manager
open Core Worker Transition Program

variable {worker : PodWorker} {s t : Pipeline} {u v : PodUID} {i : ℕ}

/-- What every allowed step keeps. -/
structure KeepsSettled (u : PodUID) (s t : Pipeline) : Prop where
  invariant : SettledInvariant u t
  terminal : s.Terminal u → t.Terminal u

/-! ## The store -/

/-- A change of the store that leaves the phase of the pod alone, or moves it between open
phases, or makes it terminal while no pass over the pod is under way. -/
theorem keepsSettled_store (h : SettledInvariant u s) {m : ManagerState}
    (hstatus : m.podManager.status.get u = s.manager.podManager.status.get u ∨
      (¬ s.Terminal u ∧ isTerminalStatus m.podManager u = false) ∨
      (s.NoPass u ∧ isTerminalStatus m.podManager u = true)) :
    KeepsSettled u s { s with manager := m } := by
  have hwork : KeepsPasses u s { s with manager := m } := .of_work rfl
  rcases hstatus with hsame | ⟨hopen,hstays⟩ | ⟨hnone,hterminal⟩
  · have hworld : ({ s with manager := m } : Pipeline).world u = s.world u := by
      unfold Pipeline.world
      rw [hsame]
    refine ⟨h.of_world hwork hworld,?_⟩
    rw [terminal_world,terminal_world,hworld]
    exact id
  · refine ⟨h.of_drift hwork (fun _ => hstays) ?_,fun hterminal => (hopen hterminal).elim⟩
    rintro ⟨⟨i,w⟩,he,hlate⟩
    cases w with
    | teardown v q => cases hlate
    | pass v late q =>
      have hpass : v = u ∧ late = true := by simpa [Work.isLatePassOf] using hlate
      obtain ⟨rfl,rfl⟩ := hpass
      exact (hopen (h.late i q (mem_work.mp he)).2.1).elim
  · refine ⟨⟨?_,?_,h.teardown⟩,fun _ => hterminal⟩
    · intro i q hi
      exact (noPass_lookup hnone hi).elim
    · intro i q hi
      exact (noPass_lookup hnone hi).elim

theorem keepsSettled_upsert (h : SettledInvariant u s) {pod : PodSpec} {now : DateTime}
    (hok : Settles u s (.upsert pod now)) (hs : s.step worker (.upsert pod now) = some t) : KeepsSettled u s t := by
  obtain rfl := Option.some.inj hs
  refine keepsSettled_store h ?_
  change ((s.manager.podManager.upsert pod now).2.status.get u = _) ∨ _
  rcases PodManager.status_upsert_cases s.manager.podManager pod u now with hsame | ⟨hpod,hnone,hmerges,st,hst,hphase⟩
  · exact .inl hsame
  · refine .inr (.inl ⟨?_,?_⟩)
    · intro hterminal
      rcases hok hpod.symm hterminal with hsome | hdoes
      · rw [hnone] at hsome
        cases hsome
      · exact hmerges hdoes
    · change isTerminalStatus (s.manager.podManager.upsert pod now).2 u = false
      unfold isTerminalStatus
      rw [hst,Option.any_some,hphase]
      rfl

theorem keepsSettled_remove (h : SettledInvariant u s) {uid : PodUID} {fallback : Option PodSpec} {now : Instant}
    (hs : s.step worker (.remove uid fallback now) = some t) : KeepsSettled u s t := by
  obtain rfl := Option.some.inj hs
  refine keepsSettled_store h (.inl ?_)
  change (s.manager.podManager.remove uid fallback now).2.status.get u = _
  rw [PodManager.status_remove]

theorem isTerminalStatus_set_self (m : PodManager) (st : PodLifecycleState) :
    isTerminalStatus { m with status := m.status.set u st } u = isTerminalState st := by
  unfold isTerminalStatus
  rw [PodStatusManager.get_set]
  rfl

theorem keepsSettled_handleUpdate (h : SettledInvariant u s) {update : PodUpdate} {now : DateTime}
    (hok : Settles u s (.handleUpdate update now)) (hs : s.step worker (.handleUpdate update now) = some t) :
    KeepsSettled u s t := by
  obtain rfl := Option.some.inj hs
  refine keepsSettled_store h ?_
  unfold ManagerState.handleUpdate
  split
  · exact .inl rfl
  · next hop =>
    split
    · next message hconflict =>
      by_cases huid : update.pod.uid = u
      · subst huid
        refine .inr (.inr ⟨hok rfl hop ?_,isTerminalStatus_set_self _ _⟩)
        rw [hconflict]
        rfl
      · exact .inl (PodStatusManager.get_set_ne _ (Ne.symm huid) _)
    · refine .inl ?_
      rw [ManagerState.podManager_syncPod]

theorem keepsSettled_plegEvent (h : SettledInvariant u s) {uid : PodUID}
    (hs : s.step worker (.plegEvent uid) = some t) : KeepsSettled u s t := by
  obtain rfl := Option.some.inj hs
  refine keepsSettled_store h (.inl ?_)
  rw [ManagerState.podManager_plegEvent]

theorem keepsSettled_evictPod (h : SettledInvariant u s) {uid : PodUID} {message : String} {gracePeriod : ℕ}
    {now : DateTime} (hok : Settles u s (.evictPod uid message gracePeriod now))
    (hs : s.step worker (.evictPod uid message gracePeriod now) = some t) : KeepsSettled u s t := by
  obtain rfl := Option.some.inj hs
  refine keepsSettled_store h ?_
  unfold ManagerState.evictPod
  split
  · next pod hpod =>
    by_cases huid : uid = u
    · subst huid
      refine .inr (.inr ⟨hok rfl ?_,isTerminalStatus_set_self _ _⟩)
      rw [hpod]
      rfl
    · exact .inl (PodStatusManager.get_set_ne _ (Ne.symm huid) _)
  · exact .inl rfl

/-! ## The tasks -/

theorem clearing_cleanupPodContainerdByUid (podUid : String) :
    (cleanupPodContainerdByUid podUid).Uses Request.Clearing := by
  unfold cleanupPodContainerdByUid
  apply Uses.bind (uses_ask ⟨trivial,id⟩)
  intro r
  split
  · exact uses_pure ()
  · refine uses_ite (uses_pure ()) (Uses.bind (uses_ask ⟨trivial,id⟩) fun containers => Uses.forEach ?_)
    intro sandbox _
    refine Uses.bind (Uses.forEach ?_) fun _ => ?_
    · intro ctr _
      exact Uses.bind (uses_ask ⟨trivial,id⟩) fun _ => Uses.bind (uses_ask ⟨trivial,id⟩) fun _ => uses_pure ()
    · exact Uses.bind (uses_ask ⟨trivial,id⟩) fun _ => Uses.bind (uses_ask ⟨trivial,id⟩) fun _ => uses_pure ()

theorem clearing_silent {α : Type} {q : WorkerM α} (h : q.Uses Request.Clearing) : q.Uses Request.Silent :=
  h.mono (fun _ hop => hop.1) fun _ h => h

/-- What a task that has come into the worker begins to execute. -/
theorem work_enter {j : ℕ} {w : Work} (h : (s.enter worker i).work.lookup j = some w) :
    s.work.lookup j = some w ∨
    (j = i ∧ ∃ v pod state, s.manager.tasks[i]? = some (.sync v pod (.syncing state)) ∧
      w = .pass pod.uid (isTerminalStatus s.manager.podManager pod.uid) (syncPod worker pod state)) ∨
    ∃ v q, w = .teardown v q ∧ q.Uses Request.Clearing := by
  unfold Pipeline.enter at h
  split at h
  · next v pod state htask =>
    rcases HashMap.lookup_insert_eq_some.mp h with ⟨rfl,rfl⟩ | ⟨-,hold⟩
    · exact .inr (.inl ⟨rfl,v,pod,state,htask,rfl⟩)
    · exact .inl hold
  · next kind pod state htask =>
    rcases HashMap.lookup_insert_eq_some.mp h with ⟨-,rfl⟩ | ⟨-,hold⟩
    · exact .inr (.inr ⟨_,_,rfl,(uses_terminatePod pod state _).mono (fun _ hop => hop.clearing) fun _ h => h⟩)
    · exact .inl hold
  · next kind pod htask =>
    rcases HashMap.lookup_insert_eq_some.mp h with ⟨-,rfl⟩ | ⟨-,hold⟩
    · exact .inr (.inr ⟨_,_,rfl,clearing_cleanupPodContainerdByUid _⟩)
    · exact .inl hold
  · exact .inl h

/-- A step of the manager that writes no status, and the work that its task begins. -/
theorem world_begun {m : ManagerState} (hstatus : m.podManager = s.manager.podManager) :
    (({ s with manager := m } : Pipeline).enter worker i).world u = s.world u := by
  rw [Pipeline.world_enter]
  unfold Pipeline.world
  dsimp only
  rw [hstatus]

/-- The task begins the pass over the pod, with the runtime state that it takes. -/
def Begins (worker : PodWorker) (s : Pipeline) (u : PodUID) (i : ℕ) (late : Bool)
    (q : WorkerM (PodSyncResult × PodRuntimeState)) : Prop :=
  ∃ v pod, pod.uid = u ∧ s.manager.tasks[i]? = some (.sync v pod .takeState) ∧
    late = isTerminalStatus s.manager.podManager u ∧ q = syncPod worker pod (s.manager.cell v).takenState

/-- A pass over the pod that is under way after a task has run was so before, or begins. -/
theorem pass_begun {m : ManagerState} (hm : s.manager.step (.run i) = some m) {j : ℕ} {late : Bool}
    {q : WorkerM (PodSyncResult × PodRuntimeState)}
    (h : (({ s with manager := m } : Pipeline).enter worker i).work.lookup j = some (.pass u late q)) :
    s.work.lookup j = some (.pass u late q) ∨ (j = i ∧ Begins worker s u i late q) := by
  rcases work_enter h with hold | ⟨rfl,v,pod,state,htask,heq⟩ | ⟨v,q',heq,-⟩
  · exact .inl hold
  · obtain ⟨huid,hlate,hq⟩ := Work.pass.inj heq
    obtain ⟨htaken,rfl⟩ := ManagerState.run_syncing hm htask
    rw [ManagerState.podManager_run hm] at hlate
    exact .inr ⟨rfl,v,pod,huid.symm,htaken,by rw [hlate,huid],hq⟩
  · cases heq

theorem keepsSettled_run (h : SettledInvariant u s) (hok : Settles u s (.run i))
    (hs : s.step worker (.run i) = some t) : KeepsSettled u s t := by
  obtain ⟨-,m,hm,rfl⟩ := Pipeline.step_run hs
  have hstatus := ManagerState.podManager_run hm
  have hworld : (({ s with manager := m } : Pipeline).enter worker i).world u = s.world u := world_begun hstatus
  have hguard {v : PodUID} {pod : PodSpec} (htask : s.manager.tasks[i]? = some (.sync v pod .takeState))
      (huid : pod.uid = u) (hterminal : s.Terminal u) :
      s.NoPass u ∧ LateSafe pod (s.manager.cell v).takenState (s.world u) := by
    unfold Settles at hok
    dsimp only at hok
    rw [htask] at hok
    exact hok huid hterminal
  refine ⟨⟨?_,?_,?_⟩,?_⟩
  · intro j q hj
    rw [hworld]
    rcases pass_begun hm hj with hold | ⟨rfl,v,pod,huid,htask,hlate,rfl⟩
    · exact h.open_ j q hold
    · exact meets_openPass _ hlate.symm
  · intro j q hj
    have hterminal : s.Terminal u := by
      rcases pass_begun hm hj with hold | ⟨rfl,v,pod,huid,htask,hlate,rfl⟩
      · exact (h.late j q hold).2.1
      · exact hlate.symm
    have hmeets : q.Meets (lateContract u.val) (fun _ _ => True) (s.world u) := by
      rcases pass_begun hm hj with hold | ⟨rfl,v,pod,rfl,htask,hlate,rfl⟩
      · exact (h.late j q hold).1
      · exact meets_latePass hterminal (hguard htask rfl hterminal).2
    rw [hworld]
    refine ⟨hmeets,?_,?_⟩
    · rw [terminal_world,hworld]
      exact hterminal
    · rintro ⟨k,w⟩ he hpassOf
      have hk := mem_work.mp he
      cases w with
      | teardown v q => cases hpassOf
      | pass v late q' =>
        obtain rfl : v = u := by simpa [Work.isPassOf] using hpassOf
        rcases pass_begun hm hj with hold | ⟨rfl,_,_,huid,htask,-,-⟩
        · rcases pass_begun hm hk with hold' | ⟨rfl,_,_,huid,htask,-,-⟩
          · exact noPassBut_lookup (h.late j q hold).2.2 hold'
          · exact (noPass_lookup (hguard htask huid hterminal).1 hold).elim
        · rcases pass_begun hm hk with hold' | ⟨rfl,-⟩
          · exact (noPass_lookup (hguard htask huid hterminal).1 hold').elim
          · rfl
  · intro j v q hj
    rcases work_enter hj with hold | ⟨-,_,_,_,-,heq⟩ | ⟨v',q',heq,hq⟩
    · exact h.teardown j v q hold
    · cases heq
    · obtain ⟨rfl,rfl⟩ := Work.teardown.inj heq
      exact clearing_silent hq
  · intro hterminal
    rw [terminal_world,hworld]
    exact hterminal

theorem keepsSettled_pollDrain (h : SettledInvariant u s) {expired : Bool}
    (hs : s.step worker (.pollDrain i expired) = some t) : KeepsSettled u s t := by
  obtain ⟨m,hm,rfl⟩ := Option.map_eq_some_iff.mp hs
  have hworld : (({ s with manager := m } : Pipeline).enter worker i).world u = s.world u :=
    world_begun (ManagerState.podManager_pollDrain hm)
  refine ⟨h.of_world ⟨?_,?_⟩ hworld,?_⟩
  · intro j late q hj
    rcases work_enter hj with hold | ⟨rfl,v,pod,state,htask,-⟩ | ⟨v,q',heq,-⟩
    · exact hold
    · obtain ⟨kind,pod',pc,htask'⟩ := ManagerState.pollDrain_task hm
      rw [htask'] at htask
      cases htask
    · cases heq
  · intro j v q hj
    rcases work_enter hj with hold | ⟨-,_,_,_,-,heq⟩ | ⟨v',q',heq,hq⟩
    · exact .inl hold
    · cases heq
    · obtain ⟨rfl,rfl⟩ := Work.teardown.inj heq
      exact .inr (clearing_silent hq)
  · intro hterminal
    rw [terminal_world,hworld]
    exact hterminal

theorem keepsSettled_finish (h : SettledInvariant u s) (hs : s.step worker (.finish i) = some t) :
    KeepsSettled u s t := by
  have hleave {m : ManagerState} (hstatus : m.podManager = s.manager.podManager) :
      KeepsSettled u s { s with manager := m, work := s.work.erase i } := by
    have hworld : ({ s with manager := m, work := s.work.erase i } : Pipeline).world u = s.world u := by
      unfold Pipeline.world
      rw [hstatus]
    refine ⟨h.of_world ⟨?_,?_⟩ hworld,?_⟩
    · intro j late q hj
      exact (HashMap.lookup_erase_eq_some.mp hj).2
    · intro j v q hj
      exact .inl (HashMap.lookup_erase_eq_some.mp hj).2
    · intro hterminal
      rw [terminal_world,hworld]
      exact hterminal
  obtain ⟨m,rfl,⟨_,_,_,_,-,hm⟩ | ⟨_,-,hm⟩⟩ := Pipeline.step_finish hs
  · exact hleave (ManagerState.podManager_passReturns hm)
  · exact hleave (ManagerState.podManager_run hm)

theorem keepsSettled_exit (h : SettledInvariant u s) {id : String} {code : ℤ}
    (hs : s.step worker (.exit id code) = some t) : KeepsSettled u s t := by
  obtain ⟨w,hw,rfl⟩ := Option.map_eq_some_iff.mp hs
  have hdrift : LateDrift u.val s.node w := .of_exit hw
  have hlate : LateDrift u.val (s.world u) (({ s with node := w } : Pipeline).world u) :=
    ⟨⟨rfl,hdrift.later.clock,hdrift.later.uptime⟩,hdrift.exited⟩
  exact ⟨h.of_drift (.of_work rfl) (fun hw => hw) fun _ => hlate,fun hterminal => hterminal⟩

/-! ## The answers -/

/-- A call writes a status or leaves it alone. -/
theorem respond_writes {w w' : Node} {op : Request} {c : Choice} {a : op.Answer} (h : w.respond op c = some (a,w')) :
    (∃ st, op = .setStatus st ∧ w' = { w with status := some st }) ∨ op.Silent ∧ w.Later w' := by
  by_cases hop : op.Silent
  · exact .inr ⟨hop,Node.respond_silent hop h⟩
  · cases op with
    | setStatus st => exact .inl ⟨st,rfl,Node.respond_setStatus h⟩
    | _ => exact (hop trivial).elim

theorem work_setWorld (w : Node) : (s.setWorld v w).work = s.work := by
  unfold Pipeline.setWorld Pipeline.putStatus
  cases w.status <;> rfl

/-- After an answer only the work of its task is another one. -/
theorem lookup_replied {w : Node} {j : ℕ} {new work : Work}
    (h : ((s.setWorld v w).setWork i new).work.lookup j = some work) :
    (j = i ∧ work = new) ∨ (j ≠ i ∧ s.work.lookup j = some work) := by
  have hinsert : ((s.setWorld v w).work.insert i new).lookup j = some work := h
  rw [work_setWorld] at hinsert
  rcases HashMap.lookup_insert_eq_some.mp hinsert with ⟨rfl,rfl⟩ | ⟨hne,hold⟩
  · exact .inl ⟨rfl,rfl⟩
  · exact .inr ⟨hne,hold⟩

theorem lookup_replied_teardown {w : Node} {j : ℕ} {late : Bool} {uid v' : PodUID} {q' : WorkerM Unit}
    {q : WorkerM (PodSyncResult × PodRuntimeState)}
    (h : ((s.setWorld v w).setWork i (.pass uid late q)).work.lookup j = some (.teardown v' q')) :
    s.work.lookup j = some (.teardown v' q') := by
  rcases lookup_replied h with ⟨-,heq⟩ | ⟨-,hold⟩
  · cases heq
  · exact hold

section Reply
variable {op : Request} {c : Choice} {a : op.Answer} {w : Node} {new : Work}

/-- The answer to a call of the pod itself. -/
theorem world_replied_self (hrespond : (s.world u).respond op c = some (a,w)) :
    ((s.setWorld u w).setWork i new).world u = w := by
  rw [Pipeline.world_setWork]
  refine Pipeline.world_setWorld_self ?_
  intro hnone
  rcases respond_writes hrespond with ⟨st,-,rfl⟩ | ⟨-,hlater⟩
  · cases hnone
  · rw [hlater.status] at hnone
    exact hnone

/-- The answer to a call that writes no status of the pod. -/
theorem world_replied (hrespond : (s.world v).respond op c = some (a,w)) (hsilent : v ≠ u ∨ op.Silent) :
    ((s.setWorld v w).setWork i new).world u = { w with status := (s.world u).status } := by
  by_cases huid : v = u
  · subst huid
    rw [world_replied_self hrespond]
    have hop : op.Silent := hsilent.resolve_left fun hne => hne rfl
    rw [← (Node.respond_silent hop hrespond).status]
  · rw [Pipeline.world_setWork,Pipeline.world_setWorld_ne (Ne.symm huid)]
    rfl

/-- Such an answer disturbs the passes over the pod as little as they expect. -/
theorem keepsSettled_silent (h : SettledInvariant u s) (hrespond : (s.world v).respond op c = some (a,w))
    (hsilent : v ≠ u ∨ op.Silent) (hspare : s.LatePassUnderWay u → SparesExited u.val s.node op)
    (hwork : KeepsPasses u s ((s.setWorld v w).setWork i new)) :
    KeepsSettled u s ((s.setWorld v w).setWork i new) := by
  have hworld : ((s.setWorld v w).setWork i new).world u = { w with status := (s.world u).status } :=
    world_replied hrespond hsilent
  refine ⟨h.of_drift hwork ?_ ?_,?_⟩
  · intro hopen
    rw [hworld]
    exact hopen
  · intro hunder
    have hdrift : LateDrift u.val (s.world v) { w with status := (s.world v).status } :=
      .of_respond (hspare hunder) hrespond
    rw [hworld]
    exact ⟨⟨rfl,hdrift.later.clock,hdrift.later.uptime⟩,hdrift.exited⟩
  · intro hterminal
    rw [terminal_world,hworld]
    exact hterminal

end Reply

/-- An answer to a pass over the pod that began with an open phase. -/
theorem keepsSettled_open (h : SettledInvariant u s) {op : Request} {c : Choice} {a : op.Answer} {w : Node}
    {next : op.Answer → WorkerM (PodSyncResult × PodRuntimeState)}
    (hi : s.work.lookup i = some (.pass u false (.call op next))) (hok : PassReplySettles u s i false op c)
    (hrespond : (s.world u).respond op c = some (a,w)) :
    KeepsSettled u s ((s.setWorld u w).setWork i (.pass u false (next a))) := by
  have hworld : ((s.setWorld u w).setWork i (.pass u false (next a))).world u = w := world_replied_self hrespond
  obtain ⟨hallowed,hnext⟩ := h.open_ i _ hi (s.world u) (fun hw => hw)
  have hsleep (seconds : ℕ) (hop : op = .sleep seconds) : (s.world u).terminal = false := by
    subst hop
    exact Bool.not_eq_true _ ▸ hok rfl
  have hdrift (hothers : ¬ s.NoPassBut u i) : openContract.drift (s.world u) w := by
    intro hopen
    rcases respond_writes hrespond with ⟨st,rfl,rfl⟩ | ⟨-,hlater⟩
    · change isTerminalState st = false
      by_contra hst
      exact hothers (hok (Bool.not_eq_false _ ▸ hst))
    · unfold Node.terminal
      rw [hlater.status]
      exact hopen
  have hnoLate {j : ℕ} {q : WorkerM (PodSyncResult × PodRuntimeState)}
      (hj : s.work.lookup j = some (.pass u true q)) : False := by
    have hsame := noPassBut_lookup (h.late j q hj).2.2 hi
    rw [hsame,hj] at hi
    cases hi
  refine ⟨⟨?_,?_,?_⟩,?_⟩
  · intro j q hj
    rw [hworld]
    rcases lookup_replied hj with ⟨rfl,heq⟩ | ⟨hne,hold⟩
    · obtain ⟨-,-,rfl⟩ := Work.pass.inj heq
      exact hnext a w ⟨hsleep,c,hrespond⟩
    · refine (h.open_ j q hold).drift (hdrift ?_) openDrift_trans fun _ _ _ _ _ => trivial
      intro halone
      exact hne (noPassBut_lookup halone hold)
  · intro j q hj
    rcases lookup_replied hj with ⟨-,heq⟩ | ⟨-,hold⟩
    · cases heq
    · exact (hnoLate hold).elim
  · intro j v q hj
    exact h.teardown j v q (lookup_replied_teardown hj)
  · intro hterminal
    rw [terminal_world,hworld]
    rcases respond_writes hrespond with ⟨st,rfl,rfl⟩ | ⟨-,hlater⟩
    · exact hallowed st rfl hterminal
    · unfold Node.terminal
      rw [hlater.status]
      exact hterminal

/-- An answer to a pass over the pod that began with a terminal phase. -/
theorem keepsSettled_late (h : SettledInvariant u s) {op : Request} {c : Choice} {a : op.Answer} {w : Node}
    {next : op.Answer → WorkerM (PodSyncResult × PodRuntimeState)}
    (hi : s.work.lookup i = some (.pass u true (.call op next))) (hok : PassReplySettles u s i true op c)
    (hrespond : (s.world u).respond op c = some (a,w)) :
    KeepsSettled u s ((s.setWorld u w).setWork i (.pass u true (next a))) := by
  have hworld : ((s.setWorld u w).setWork i (.pass u true (next a))).world u = w := world_replied_self hrespond
  obtain ⟨hmeets,hterminal,halone⟩ := h.late i _ hi
  obtain ⟨⟨-,hallowed⟩,hnext⟩ := hmeets (s.world u) ⟨.refl _,fun _ _ hr _ _ => hr⟩
  have hcopes : LateCopes op c := by
    cases op with
    | setStatus | sleep => trivial
    | _ => exact hok rfl
  have hstays : w.terminal = true := by
    rcases respond_writes hrespond with ⟨st,rfl,rfl⟩ | ⟨-,hlater⟩
    · exact hallowed st rfl
    · unfold Node.terminal
      rw [hlater.status]
      exact hterminal
  have hpass {j : ℕ} {late : Bool} {q : WorkerM (PodSyncResult × PodRuntimeState)}
      (hj : ((s.setWorld u w).setWork i (.pass u true (next a))).work.lookup j = some (.pass u late q)) :
      j = i ∧ late = true ∧ q = next a := by
    rcases lookup_replied hj with ⟨rfl,heq⟩ | ⟨hne,hold⟩
    · obtain ⟨-,rfl,rfl⟩ := Work.pass.inj heq
      exact ⟨rfl,rfl,rfl⟩
    · exact (hne (noPassBut_lookup halone hold)).elim
  refine ⟨⟨?_,?_,?_⟩,?_⟩
  · intro j q hj
    cases (hpass hj).2.1
  · intro j q hj
    obtain ⟨rfl,-,rfl⟩ := hpass hj
    refine ⟨?_,?_,?_⟩
    · rw [hworld]
      exact hnext a w ⟨c,hcopes,hrespond⟩
    · rw [terminal_world,hworld]
      exact hstays
    · rintro ⟨k,work⟩ he hpassOf
      have hk := mem_work.mp he
      cases work with
      | teardown v q => cases hpassOf
      | pass v late q' =>
        obtain rfl : v = u := by simpa [Work.isPassOf] using hpassOf
        exact (hpass hk).1
  · intro j v q hj
    exact h.teardown j v q (lookup_replied_teardown hj)
  · intro _
    rw [terminal_world,hworld]
    exact hstays

theorem keepsSettled_reply (h : SettledInvariant u s) {c : Choice} (hok : Settles u s (.reply i c))
    (hs : s.step worker (.reply i c) = some t) : KeepsSettled u s t := by
  unfold Settles at hok
  dsimp only at hok
  rcases Pipeline.step_reply hs with ⟨uid,late,op,next,a,w,hi,hrespond,rfl⟩ | ⟨uid,op,next,a,w,hi,hrespond,rfl⟩
  · rw [hi] at hok
    dsimp only at hok
    by_cases huid : uid = u
    · subst huid
      rw [if_pos rfl] at hok
      cases late with
      | false => exact keepsSettled_open h hi hok hrespond
      | true => exact keepsSettled_late h hi hok hrespond
    · rw [if_neg huid] at hok
      refine keepsSettled_silent h hrespond (.inl huid) hok ⟨?_,?_⟩
      · intro j late' q hj
        rcases lookup_replied hj with ⟨-,heq⟩ | ⟨-,hold⟩
        · exact (huid (Work.pass.inj heq).1.symm).elim
        · exact hold
      · intro j v q hj
        exact .inl (lookup_replied_teardown hj)
  · rw [hi] at hok
    have hsilent : op.Silent ∧ ∀ ans, (next ans).Uses Request.Silent := h.teardown i uid _ hi
    refine keepsSettled_silent h hrespond (.inr hsilent.1) hok ⟨?_,?_⟩
    · intro j late' q hj
      rcases lookup_replied hj with ⟨-,heq⟩ | ⟨-,hold⟩
      · cases heq
      · exact hold
    · intro j v q hj
      rcases lookup_replied hj with ⟨-,heq⟩ | ⟨-,hold⟩
      · obtain ⟨-,rfl⟩ := Work.teardown.inj heq
        exact .inr (hsilent.2 a)
      · exact .inl hold

/-! ## Runs -/

theorem keepsSettled_step {action : PipelineAction} (h : SettledInvariant u s) (hok : Settles u s action)
    (hs : s.step worker action = some t) : KeepsSettled u s t := by
  cases action with
  | upsert pod now => exact keepsSettled_upsert h hok hs
  | remove uid fallback now => exact keepsSettled_remove h hs
  | handleUpdate update now => exact keepsSettled_handleUpdate h hok hs
  | plegEvent uid => exact keepsSettled_plegEvent h hs
  | evictPod uid message gracePeriod now => exact keepsSettled_evictPod h hok hs
  | run i => exact keepsSettled_run h hok hs
  | pollDrain i expired => exact keepsSettled_pollDrain h hs
  | reply i c => exact keepsSettled_reply h hok hs
  | finish i => exact keepsSettled_finish h hs
  | exit id code => exact keepsSettled_exit h hs

theorem settledInvariant_start : SettledInvariant u {} := by
  refine ⟨?_,?_,?_⟩
  · intro i q hi
    cases hi
  · intro i q hi
    cases hi
  · intro i v q hi
    cases hi

/-- In a run whose steps all settle, a terminal phase stays terminal and no pass that began
after it is about to make a sandbox or to start a container. -/
theorem terminal_absorbing {before after : List PipelineAction}
    (hs : Runs (Guarded (Settles u) (ofStep (Pipeline.step worker))) {} before s) (hterminal : s.Terminal u)
    (ht : Runs (Guarded (Settles u) (ofStep (Pipeline.step worker))) s after t) :
    t.Terminal u ∧ ∀ i q, t.work.lookup i = some (.pass u true q) → ¬ aboutToStart q := by
  have hstep (s t : Pipeline) (action : PipelineAction) (h : SettledInvariant u s)
      (hst : Guarded (Settles u) (ofStep (Pipeline.step worker)) s action t) : KeepsSettled u s t :=
    keepsSettled_step h hst.1 hst.2
  have hstart : SettledInvariant u s :=
    hs.invariant (fun s a t h hst => (hstep s t a h hst).invariant) settledInvariant_start
  have hboth : SettledInvariant u t ∧ t.Terminal u := by
    refine ht.invariant (I := fun s => SettledInvariant u s ∧ s.Terminal u) ?_ ⟨hstart,hterminal⟩
    rintro s a t ⟨h,hterminal⟩ hst
    have hkeeps := hstep s t a h hst
    exact ⟨hkeeps.invariant,hkeeps.terminal hterminal⟩
  refine ⟨hboth.2,?_⟩
  intro i q hi
  have hmeets := (hboth.1.late i q hi).1
  cases q with
  | ret r => exact id
  | call op next =>
    obtain ⟨⟨hnot,-⟩,-⟩ := hmeets (t.world u) ⟨.refl _,fun _ _ hr _ _ => hr⟩
    exact hnot

def nodeA : PodWorker := { nodeName := "node-a", podInfraContainerImage := "pause", nodeInternalIp := "10.0.0.1" }

def batchPod : PodSpec where
  uid := ⟨"uid-a"⟩
  podRef := ⟨"default","batch"⟩
  containers := [{ name := "app", image := "busybox" }]
  activeDeadlineSeconds := some 1

/-- The first pass finds that the pod has run past its deadline. -/
def runsOver : List PipelineAction :=
  [.upsert batchPod 0,.plegEvent batchPod.uid,.run 0,.reply 0 .accept,.reply 0 (.time (2 * 10 ^ 9)),
    .reply 0 .accept,.reply 0 .accept,.reply 0 .accept,.reply 0 (.time (2 * 10 ^ 9)),.reply 0 .accept]

/-- A trailing pass begins after it. -/
def syncedAfterwards : List PipelineAction :=
  [.plegEvent batchPod.uid,.finish 0,.run 0,.run 0,.run 0,.run 0]

/-- A pod that has failed at its deadline stays failed when it is synced again. -/
theorem terminal_absorbing_deadline : ∃ s t,
    exec (Pipeline.step nodeA) {} runsOver = some s ∧ exec (Pipeline.step nodeA) s syncedAfterwards = some t ∧
      t.Terminal batchPod.uid ∧ ∀ i q, t.work.lookup i = some (.pass batchPod.uid true q) → ¬ aboutToStart q := by
  have hrun : (((exec (guardedStep (Settles batchPod.uid) (Pipeline.step nodeA)) {} runsOver).filter
      fun s => s.Terminal batchPod.uid).bind
        fun s => exec (guardedStep (Settles batchPod.uid) (Pipeline.step nodeA)) s syncedAfterwards).isSome = true := by
    decide +kernel
  obtain ⟨t,ht⟩ := Option.isSome_iff_exists.mp hrun
  obtain ⟨s,hs,ht⟩ := Option.bind_eq_some_iff.mp ht
  obtain ⟨hs,hterminal⟩ := Option.filter_eq_some_iff.mp hs
  have hbefore := guarded_of_exec hs
  have hafter := guarded_of_exec ht
  exact ⟨s,t,exec_of_runs hbefore.of_guarded,exec_of_runs hafter.of_guarded,
    terminal_absorbing hbefore (of_decide_eq_true hterminal) hafter⟩

def evictedPod : PodSpec where
  uid := ⟨"uid-b"⟩
  podRef := ⟨"default","web-0"⟩
  containers := [{ name := "app", image := "nginx" }]

def evicted : List PipelineAction :=
  [.upsert evictedPod 0,.evictPod evictedPod.uid "The node was low on resource: memory" 30 (10 ^ 9)]

/-- The pass of a reconcile goes on to the call that makes a sandbox. -/
def reconciledAfterwards : List PipelineAction :=
  [.handleUpdate { pod := evictedPod, op := .reconcile } (2 * 10 ^ 9),.run 1,.reply 1 .accept,
    .reply 1 (.named "nginx-id"),.reply 1 (.named "pause-id"),.reply 1 (.listed [])]

/-- The work is a late pass over the pod that is about to make a sandbox. -/
def makesSandbox (u : PodUID) : Work → Bool
  | .pass uid late (.call (.runPodSandbox _) _) => uid == u && late
  | _ => false

theorem starts_of_makesSandbox {w : Work} (h : makesSandbox u w = true) :
    ∃ q, w = .pass u true q ∧ aboutToStart q := by
  unfold makesSandbox at h
  split at h
  · next uid late config next =>
    have hlate : uid = u ∧ late = true := by simpa using h
    obtain ⟨rfl,rfl⟩ := hlate
    exact ⟨_,rfl,trivial⟩
  · cases h

/-- A pod that was evicted is started again by the next reconcile. -/
theorem not_terminal_absorbing : ¬ ∀ (worker : PodWorker) (u : PodUID) (before after : List PipelineAction)
    (s t : Pipeline), Runs (ofStep (Pipeline.step worker)) {} before s → s.Terminal u →
    Runs (ofStep (Pipeline.step worker)) s after t →
    t.Terminal u ∧ ∀ i q, t.work.lookup i = some (.pass u true q) → ¬ aboutToStart q := by
  intro h
  have hrun : (((exec (Pipeline.step nodeA) {} evicted).filter fun s => s.Terminal evictedPod.uid).bind
      fun s => (exec (Pipeline.step nodeA) s reconciledAfterwards).filter
        fun t => (t.work.lookup 1).any (makesSandbox evictedPod.uid)).isSome = true := by
    decide +kernel
  obtain ⟨t,ht⟩ := Option.isSome_iff_exists.mp hrun
  obtain ⟨s,hs,ht⟩ := Option.bind_eq_some_iff.mp ht
  obtain ⟨hs,hterminal⟩ := Option.filter_eq_some_iff.mp hs
  obtain ⟨ht,hstarts⟩ := Option.filter_eq_some_iff.mp ht
  obtain ⟨w,hw,hmakes⟩ := (Option.any_eq_true _ _).mp hstarts
  obtain ⟨q,rfl,hq⟩ := starts_of_makesSandbox hmakes
  exact (h nodeA evictedPod.uid evicted reconciledAfterwards s t (runs_of_exec hs) (of_decide_eq_true hterminal)
    (runs_of_exec ht)).2 1 q hw hq

end KubeAir.Manager
