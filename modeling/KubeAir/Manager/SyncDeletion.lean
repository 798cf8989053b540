import KubeAir.Manager.SyncTrigger

/-! # Deletion against sync

A deletion takes the runtime state, terminates the pod and waits until the slot is
free or its deadline has passed. A pass that was under way meanwhile stores its state
when it returns, and only a pass that returns `Terminated` removes it again. The
deletions of a UID are counted from the state in which the pod left the desired set,
so `n` is the number of tasks spawned before.
-/
namespace KubeAir.Manager
open Core Worker Transition
variable {u : PodUID} {n : ℕ} {s t : ManagerState} {a : ManagerAction}

/-- The drain wait of the deletion is over. -/
def CleanupPc.Past : CleanupPc → Prop
  | .cleaning => True
  | .reporting => True
  | .forceDeleting => True
  | .unmarking => True
  | .exited => True
  | _ => False

/-- A deletion has taken the runtime state of the pod. -/
def Taken (u : PodUID) (n : ℕ) (s : ManagerState) : Prop :=
  ∃ i pc, n ≤ i ∧ HasDeletion s u i pc ∧ pc ≠ .takeState

/-- A deletion has finished its drain wait. -/
def Drained (u : PodUID) (n : ℕ) (s : ManagerState) : Prop :=
  ∃ i pc, n ≤ i ∧ HasDeletion s u i pc ∧ pc.Past

/-- The pod is out of the desired set when the step is taken. -/
def Absent (u : PodUID) (s : ManagerState) (_ : ManagerAction) : Prop := s.podManager.get u = none

/-- The steps after which a deletion still has the last word. -/
structure DeletionSettles (u : PodUID) (n : ℕ) (s : ManagerState) (a : ManagerAction) : Prop where
  /-- no task is spawned for the pod once a deletion has drained -/
  spawns : ∀ pod, a = .syncPod pod → pod.uid = u → (s.cell u).stillRunning = false → ¬ Drained u n s
  /-- a deletion stops draining only when no task is on its way to another pass -/
  drains : ∀ i expired, a = .pollDrain i expired → HasDeletion s u i .draining →
    ((s.cell u).stillRunning && !expired) = false → ∀ j pc, HasSync s u j pc → ¬ pc.WillPass
  /-- no pass asks for a retry once a deletion has drained -/
  retries : ∀ i reason st held, a = .passReturns i (.needsRetry reason) st →
    HasSync s u i (.syncing held) → ¬ Drained u n s
  /-- no pass stores a final state once a deletion has taken it -/
  stores : ∀ i result st, a = .run i → HasSync s u i (.storeResult result st) →
    (result = .synced ∨ ∃ reason, result = .failed reason) → ¬ Taken u n s

theorem CleanupPc.Past.ne_takeState {pc : CleanupPc} (h : pc.Past) : pc ≠ .takeState := by
  rintro rfl
  exact h

theorem Drained.taken (h : Drained u n s) : Taken u n s := by
  obtain ⟨i,pc,hn,hi,hpc⟩ := h
  exact ⟨i,pc,hn,hi,hpc.ne_takeState⟩

theorem HasDeletion.lt_length {i : ℕ} {pc : CleanupPc} (h : HasDeletion s u i pc) :
    i < s.tasks.length := by
  obtain ⟨pod,-,h⟩ := h
  exact (List.getElem?_eq_some_iff.mp h).1

theorem not_taken_length : ¬ Taken u s.tasks.length s := by
  rintro ⟨i,pc,hn,hi,-⟩
  have := hi.lt_length
  omega

/-- What a step does to the deletions of one UID. -/
inductive DeletionView (u : PodUID) (s : ManagerState) (a : ManagerAction) (t : ManagerState) : Prop
  | frame (h : ∀ i pc, HasDeletion t u i pc ↔ HasDeletion s u i pc)
  | spawned (m : ℕ) (h : ∀ i pc, HasDeletion t u i pc ↔ (i = m ∧ pc = .takeState) ∨ HasDeletion s u i pc)
  | advanced (i : ℕ) (pc : CleanupPc) (c : PodCell) (pc' : CleanupPc) (hi : HasDeletion s u i pc)
      (hrun : runCleanup .deletion (s.cell u) pc = some (c,pc')) (hcell : t.cell u = c)
      (h : ∀ j q, HasDeletion t u j q ↔ (j = i ∧ q = pc') ∨ (j ≠ i ∧ HasDeletion s u j q))
  | drained (i : ℕ) (expired : Bool) (ha : a = .pollDrain i expired) (hi : HasDeletion s u i .draining)
      (hpoll : ((s.cell u).stillRunning && !expired) = false)
      (h : ∀ j q, HasDeletion t u j q ↔ (j = i ∧ q = .cleaning) ∨ (j ≠ i ∧ HasDeletion s u j q))

theorem hasDeletion_of_tasks (h : t.tasks = s.tasks) (i : ℕ) (pc : CleanupPc) :
    HasDeletion t u i pc ↔ HasDeletion s u i pc := by
  simp only [HasDeletion,h]

theorem hasDeletion_append {task : ManagerTask} (h : t.tasks = s.tasks ++ [task])
    (hne : ∀ (pod : PodSpec) pc, pod.uid = u → task ≠ .cleanup .deletion pod pc) (i : ℕ) (pc : CleanupPc) :
    HasDeletion t u i pc ↔ HasDeletion s u i pc := by
  simp only [HasDeletion,h,tasks_concat_iff]
  refine exists_congr ?_
  intro pod
  refine and_congr_right ?_
  intro hu
  simp only [(hne pod pc hu).symm,and_false,false_or]

theorem hasDeletion_spawn {pod : PodSpec} {pc : CleanupPc} (hu : pod.uid = u)
    (h : t.tasks = s.tasks ++ [.cleanup .deletion pod pc]) (i : ℕ) (q : CleanupPc) :
    HasDeletion t u i q ↔ (i = s.tasks.length ∧ q = pc) ∨ HasDeletion s u i q := by
  simp only [HasDeletion,h,tasks_concat_iff,ManagerTask.cleanup.injEq,true_and]
  constructor
  · rintro ⟨p,hp,⟨hi,rfl,hq⟩ | hold⟩
    · exact .inl ⟨hi,hq⟩
    · exact .inr ⟨p,hp,hold⟩
  · rintro (⟨hi,hq⟩ | ⟨p,hp,hold⟩)
    · exact ⟨pod,hu,.inl ⟨hi,rfl,hq⟩⟩
    · exact ⟨p,hp,.inr hold⟩

theorem hasDeletion_set {i : ℕ} {task old : ManagerTask} (h : t.tasks = s.tasks.set i task)
    (hi : s.tasks[i]? = some old)
    (hold : ∀ (pod : PodSpec) pc, pod.uid = u → old ≠ .cleanup .deletion pod pc)
    (hnew : ∀ (pod : PodSpec) pc, pod.uid = u → task ≠ .cleanup .deletion pod pc) (j : ℕ) (pc : CleanupPc) :
    HasDeletion t u j pc ↔ HasDeletion s u j pc := by
  simp only [HasDeletion,h,tasks_set_iff hi]
  refine exists_congr ?_
  intro pod
  refine and_congr_right ?_
  intro hu
  simp only [(hnew pod pc hu).symm,and_false,false_or,and_iff_right_iff_imp]
  rintro hj rfl
  rw [hi] at hj
  exact hold pod pc hu (Option.some.inj hj)

theorem hasDeletion_set_deletion {i : ℕ} {pod : PodSpec} {pc : CleanupPc} {old : ManagerTask}
    (hu : pod.uid = u) (h : t.tasks = s.tasks.set i (.cleanup .deletion pod pc))
    (hi : s.tasks[i]? = some old) (j : ℕ) (q : CleanupPc) :
    HasDeletion t u j q ↔ (j = i ∧ q = pc) ∨ (j ≠ i ∧ HasDeletion s u j q) := by
  simp only [HasDeletion,h,tasks_set_iff hi,ManagerTask.cleanup.injEq,true_and]
  constructor
  · rintro ⟨p,hp,⟨hj,rfl,hq⟩ | ⟨hne,hold⟩⟩
    · exact .inl ⟨hj,hq⟩
    · exact .inr ⟨hne,p,hp,hold⟩
  · rintro (⟨hj,hq⟩ | ⟨hne,p,hp,hold⟩)
    · exact ⟨pod,hu,.inl ⟨hj,rfl,hq⟩⟩
    · exact ⟨p,hp,.inr ⟨hne,hold⟩⟩

theorem deletePod_view (s : ManagerState) (pod : PodSpec) (u : PodUID) :
    DeletionView u s (.deletePod pod) (s.deletePod pod) := by
  by_cases hu : pod.uid = u
  · exact .spawned s.tasks.length (hasDeletion_spawn hu rfl)
  · refine .frame (hasDeletion_append rfl ?_)
    rintro p pc hp heq
    cases heq
    exact hu hp

theorem runCleanup_deletionView {i : ℕ} {kind : CleanupKind} {pod : PodSpec} {pc : CleanupPc}
    (hi : s.tasks[i]? = some (.cleanup kind pod pc)) {c : PodCell} {pc' : CleanupPc}
    (hrun : runCleanup kind (s.cell pod.uid) pc = some (c,pc')) (u : PodUID) :
    DeletionView u s (.run i) (((s.unmark pod pc).setCell pod.uid c).setTask i (.cleanup kind pod pc')) := by
  have htasks : (((s.unmark pod pc).setCell pod.uid c).setTask i (.cleanup kind pod pc')).tasks =
      s.tasks.set i (.cleanup kind pod pc') := by simp
  by_cases hown : kind = .deletion ∧ pod.uid = u
  · obtain ⟨rfl,rfl⟩ := hown
    exact .advanced i pc c pc' ⟨pod,rfl,hi⟩ hrun (by simp) (hasDeletion_set_deletion rfl htasks hi)
  · refine .frame (hasDeletion_set htasks hi ?_ ?_)
    all_goals
      rintro p q hp heq
      cases heq
      exact hown ⟨rfl,hp⟩

/-- Every step treats the deletions of every UID in one of the four ways. -/
theorem deletion_view (hst : s.step a = some t) (u : PodUID) : DeletionView u s a t := by
  cases a with
  | upsert pod now => cases hst; exact .frame (hasDeletion_of_tasks rfl)
  | remove uid fallback now => cases hst; exact .frame (hasDeletion_of_tasks rfl)
  | syncPod pod =>
    cases hst
    unfold ManagerState.syncPod
    rcases (s.cell pod.uid).acquire with ⟨c,spawns⟩
    cases spawns with
    | true => exact .frame (hasDeletion_append rfl (by simp))
    | false => exact .frame (hasDeletion_of_tasks rfl)
  | deletePod pod => cases hst; exact deletePod_view s pod u
  | report uid state => cases hst; exact .frame (hasDeletion_of_tasks rfl)
  | evictPod uid message gracePeriod now =>
    cases hst
    unfold ManagerState.evictPod
    cases s.podManager.get uid with
    | none => exact .frame (hasDeletion_of_tasks rfl)
    | some pod => exact .frame (hasDeletion_append rfl (by simp))
  | run j =>
    simp only [ManagerState.step] at hst
    rcases hj : s.tasks[j]? with _ | ⟨v,pod,pc⟩ | ⟨kind,pod,pc⟩
    · simp [hj] at hst
    · simp only [hj,Option.map_eq_some_iff] at hst
      obtain ⟨⟨c,pod',q⟩,-,rfl⟩ := hst
      exact .frame (hasDeletion_set rfl hj (by simp) (by simp))
    · simp only [hj,Option.map_eq_some_iff] at hst
      obtain ⟨⟨c,q⟩,hrun,rfl⟩ := hst
      exact runCleanup_deletionView hj hrun u
  | passReturns j result st =>
    simp only [ManagerState.step] at hst
    split at hst
    · next v pod held hj =>
      cases hst
      exact .frame (hasDeletion_set rfl hj (by simp) (by simp))
    · cases hst
  | pollDrain j expired =>
    simp only [ManagerState.step] at hst
    split at hst
    · next kind pod hj =>
      split at hst
      · cases hst; exact .frame (fun _ _ => Iff.rfl)
      · next hpoll =>
        cases hst
        by_cases hown : kind = .deletion ∧ pod.uid = u
        · obtain ⟨rfl,rfl⟩ := hown
          exact .drained j expired rfl ⟨pod,rfl,hj⟩ (by simpa using hpoll)
            (hasDeletion_set_deletion rfl rfl hj)
        · refine .frame (hasDeletion_set rfl hj ?_ ?_)
          all_goals
            rintro p q hp heq
            cases heq
            exact hown ⟨rfl,hp⟩
    · cases hst

theorem runCleanup_past {kind : CleanupKind} {c c' : PodCell} {pc pc' : CleanupPc}
    (h : runCleanup kind c pc = some (c',pc')) : pc'.Past ↔ pc.Past := by
  cases pc with
  | forceDeleting => cases kind <;> cases h <;> exact Iff.rfl
  | draining => cases h
  | exited => cases h
  | _ => cases h; exact Iff.rfl

theorem HasDeletion.pc_eq {i : ℕ} {pc q : CleanupPc} (h : HasDeletion s u i pc) (h' : HasDeletion s u i q) :
    pc = q := by
  obtain ⟨_,-,h⟩ := h
  obtain ⟨_,-,h'⟩ := h'
  rw [h] at h'
  cases h'
  rfl

/-- A drain wait that is over stays over. -/
theorem Drained.step (h : Drained u n s) (hst : s.step a = some t) : Drained u n t := by
  obtain ⟨k,q,hn,hk,hq⟩ := h
  rcases deletion_view hst u with ht | ⟨m,ht⟩ | ⟨i,pc,c,pc',hi,hrun,-,ht⟩ | ⟨i,expired,-,hi,-,ht⟩
  · exact ⟨k,q,hn,(ht k q).mpr hk,hq⟩
  · exact ⟨k,q,hn,(ht k q).mpr (.inr hk),hq⟩
  · by_cases hki : k = i
    · subst hki
      obtain rfl := hk.pc_eq hi
      exact ⟨k,pc',hn,(ht k pc').mpr (.inl ⟨rfl,rfl⟩),(runCleanup_past hrun).mpr hq⟩
    · exact ⟨k,q,hn,(ht k q).mpr (.inr ⟨hki,hk⟩),hq⟩
  · have hki : k ≠ i := by
      rintro rfl
      obtain rfl := hk.pc_eq hi
      exact hq
    exact ⟨k,q,hn,(ht k q).mpr (.inr ⟨hki,hk⟩),hq⟩

/-- A drain wait ends in the step that polls. -/
theorem Drained.of_step (h : Drained u n t) (hst : s.step a = some t) :
    Drained u n s ∨ ∃ i expired, a = .pollDrain i expired ∧ HasDeletion s u i .draining ∧
      ((s.cell u).stillRunning && !expired) = false := by
  obtain ⟨k,q,hn,hk,hq⟩ := h
  rcases deletion_view hst u with ht | ⟨m,ht⟩ | ⟨i,pc,c,pc',hi,hrun,-,ht⟩ | ⟨i,expired,ha,hi,hpoll,-⟩
  · exact .inl ⟨k,q,hn,(ht k q).mp hk,hq⟩
  · rcases (ht k q).mp hk with ⟨-,rfl⟩ | hold
    · exact hq.elim
    · exact .inl ⟨k,q,hn,hold,hq⟩
  · rcases (ht k q).mp hk with ⟨rfl,rfl⟩ | ⟨-,hold⟩
    · exact .inl ⟨k,pc,hn,hi,(runCleanup_past hrun).mp hq⟩
    · exact .inl ⟨k,q,hn,hold,hq⟩
  · exact .inr ⟨i,expired,ha,hi,hpoll⟩

/-- The step in which a deletion takes the state leaves none behind. -/
theorem Taken.of_step (h : Taken u n t) (hst : s.step a = some t) :
    Taken u n s ∨ (t.cell u).state = none := by
  obtain ⟨k,q,hn,hk,hq⟩ := h
  rcases deletion_view hst u with ht | ⟨m,ht⟩ | ⟨i,pc,c,pc',hi,hrun,hcell,ht⟩ | ⟨i,expired,-,hi,-,ht⟩
  · exact .inl ⟨k,q,hn,(ht k q).mp hk,hq⟩
  · rcases (ht k q).mp hk with ⟨-,rfl⟩ | hold
    · exact (hq rfl).elim
    · exact .inl ⟨k,q,hn,hold,hq⟩
  · rcases (ht k q).mp hk with ⟨rfl,rfl⟩ | ⟨-,hold⟩
    · by_cases hpc : pc = .takeState
      · subst hpc
        cases hrun
        exact .inr (by rw [hcell])
      · exact .inl ⟨k,pc,hn,hi,hpc⟩
    · exact .inl ⟨k,q,hn,hold,hq⟩
  · rcases (ht k q).mp hk with ⟨rfl,-⟩ | ⟨-,hold⟩
    · exact .inl ⟨k,.draining,hn,hi,nofun⟩
    · exact .inl ⟨k,q,hn,hold,hq⟩

/-- A task can only be sent to another pass by a retry or by a pod that is desired. -/
theorem runSync_to_willPass {d : Option PodSpec} {pod pod' : PodSpec} {c c' : PodCell} {pc pc' : SyncPc}
    (h : runSync d pod c pc = some (c',pod',pc')) (hpc : pc'.WillPass) : pc.WillPass ∨ d.isSome = true := by
  cases pc with
  | storeResult result st =>
    cases h
    cases result with
    | needsRetry reason => exact .inl trivial
    | _ => exact hpc.elim
  | checkPending =>
    simp only [runSync] at h
    split at h
    · next hc =>
      obtain ⟨hd,-⟩ := checkPending_some hc
      exact .inr (by rw [hd]; rfl)
    · cases h; exact hpc.elim
  | reportRetry => exact .inl trivial
  | countRetry => exact .inl trivial
  | sleeping millis => exact .inl trivial
  | syncing st => cases h
  | exited => cases h
  | _ => cases h; exact hpc.elim

/-- Only the result of a pass puts a runtime state back. -/
theorem runSync_state {d : Option PodSpec} {pod pod' : PodSpec} {c c' : PodCell} {pc pc' : SyncPc}
    (h : runSync d pod c pc = some (c',pod',pc')) :
    (pc ≠ .takeState ∧ c'.state = c.state) ∨ c'.state = none ∨
      ∃ result st, pc = .storeResult result st ∧ result ≠ .terminated := by
  cases pc with
  | takeState => cases h; exact .inr (.inl rfl)
  | storeResult result st =>
    cases result with
    | terminated => cases h; exact .inr (.inl rfl)
    | _ => exact .inr (.inr ⟨_,st,rfl,by rintro ⟨⟩⟩)
  | sleeping millis => cases h; exact .inl ⟨by rintro ⟨⟩,(pollPending_slot c d).2⟩
  | checkPending =>
    simp only [runSync] at h
    split at h
    · next hc => cases h; exact .inl ⟨by rintro ⟨⟩,(checkPending_some hc).2.2.2⟩
    · next hc => cases h; exact .inl ⟨by rintro ⟨⟩,(checkPending_none hc).1⟩
  | syncing st => cases h
  | exited => cases h
  | _ => cases h; exact .inl ⟨by rintro ⟨⟩,rfl⟩

/-- Once a deletion has drained, no task is on its way to a pass. -/
def NoPassDue (u : PodUID) (n : ℕ) (s : ManagerState) : Prop :=
  Drained u n s → ∀ j pc, HasSync s u j pc → ¬ pc.WillPass

/-- Once a deletion has taken the state, another is stored only for a task that takes it back. -/
def StateClaimed (u : PodUID) (n : ℕ) (s : ManagerState) : Prop :=
  Taken u n s → (s.cell u).state ≠ none → ∃ j pc, HasSync s u j pc ∧ pc.WillPass

theorem noPassDue_step (h : NoPassDue u n s) (habs : Absent u s a) (hok : DeletionSettles u n s a)
    (hst : s.step a = some t) : NoPassDue u n t := by
  intro hd
  have hcase := hd.of_step hst
  have hs : ∀ j pc, HasSync s u j pc → ¬ pc.WillPass := by
    rcases hcase with hold | ⟨i,expired,ha,hi,hpoll⟩
    · exact h hold
    · exact hok.drains i expired ha hi hpoll
  intro j q hj hq
  rcases step_view hst u with ⟨-,-,hsync⟩ | ⟨pod,m,ha,hu,hidle,-,-,hsync⟩ |
    ⟨_,-,-,-,-,hsync⟩ | ⟨i,pod,pc,c,pod',pc',-,hi,hrun,-,hsync⟩ |
    ⟨i,held,result,st,ha,hi,-,hsync⟩ | ⟨-,-,hsync⟩
  · exact hs j q ((hsync j q).mp hj) hq
  · rcases hcase with hold | ⟨i,expired,hpoll,-⟩
    · exact hok.spawns pod ha hu hidle hold
    · rw [ha] at hpoll
      cases hpoll
  · exact hs j q ((hsync j q).mp hj) hq
  · rcases (hsync j q).mp hj with ⟨rfl,rfl⟩ | ⟨-,hold⟩
    · rcases runSync_to_willPass hrun hq with hpc | hdes
      · exact hs j pc hi hpc
      · rw [habs] at hdes
        cases hdes
    · exact hs j q hold hq
  · rcases (hsync j q).mp hj with ⟨rfl,rfl⟩ | ⟨-,hold⟩
    · cases result with
      | needsRetry reason =>
        rcases hcase with hold | ⟨i,expired,hpoll,-⟩
        · exact hok.retries j reason st held ha hi hold
        · rw [ha] at hpoll
          cases hpoll
      | _ => exact hq
    · exact hs j q hold hq
  · exact hs j q ((hsync j q).mp hj) hq

theorem stateClaimed_step (h : StateClaimed u n s) (hok : DeletionSettles u n s a)
    (hst : s.step a = some t) : StateClaimed u n t := by
  intro htaken hstate
  have hold : Taken u n s := by
    rcases htaken.of_step hst with hold | hnone
    · exact hold
    · exact (hstate hnone).elim
  rcases step_view hst u with ⟨-,hcell,hsync⟩ | ⟨pod,m,-,-,-,-,-,hsync⟩ |
    ⟨_,-,-,-,hcell,hsync⟩ | ⟨i,pod,pc,c,pod',pc',ha,hi,hrun,hcell,hsync⟩ |
    ⟨i,held,result,st,-,hi,hcell,hsync⟩ | ⟨-,hcell,-⟩
  · obtain ⟨j,q,hj,hq⟩ := h hold (by rwa [hcell] at hstate)
    exact ⟨j,q,(hsync j q).mpr hj,hq⟩
  · exact ⟨m,.takeState,(hsync m _).mpr (.inl ⟨rfl,rfl⟩),trivial⟩
  · obtain ⟨j,q,hj,hq⟩ := h hold (by rwa [hcell] at hstate)
    exact ⟨j,q,(hsync j q).mpr hj,hq⟩
  · rw [hcell] at hstate
    rcases runSync_state hrun with ⟨hpc,hsame⟩ | hnone | ⟨result,st,rfl,hresult⟩
    · obtain ⟨j,q,hj,hq⟩ := h hold (by rwa [hsame] at hstate)
      by_cases hji : j = i
      · subst hji
        obtain rfl := hj.pc_eq hi
        rcases runSync_willPass hrun hq with rfl | hq'
        · exact (hpc rfl).elim
        · exact ⟨j,pc',(hsync j pc').mpr (.inl ⟨rfl,rfl⟩),hq'⟩
      · exact ⟨j,q,(hsync j q).mpr (.inr ⟨hji,hj⟩),hq⟩
    · exact (hstate hnone).elim
    · cases result with
      | needsRetry reason =>
        cases hrun
        exact ⟨i,_,(hsync i _).mpr (.inl ⟨rfl,rfl⟩),trivial⟩
      | terminated => exact (hresult rfl).elim
      | synced => exact (hok.stores i _ st ha hi (.inl rfl) hold).elim
      | failed reason => exact (hok.stores i _ st ha hi (.inr ⟨reason,rfl⟩) hold).elim
  · obtain ⟨j,q,hj,hq⟩ := h hold (by rwa [hcell] at hstate)
    have hji : j ≠ i := by
      rintro rfl
      obtain rfl := hj.pc_eq hi
      exact hq
    exact ⟨j,q,(hsync j q).mpr (.inr ⟨hji,hj⟩),hq⟩
  · rw [hcell] at hstate
    exact (hstate rfl).elim

/-- The steps of a run in which the pod stays out of the desired set and a deletion
keeps the last word. -/
abbrev DeletingStep (u : PodUID) (n : ℕ) : ManagerState → ManagerAction → ManagerState → Prop :=
  Guarded (fun s a => Absent u s a ∧ DeletionSettles u n s a) (ofStep ManagerState.step)

theorem noPassDue_runs {w : List ManagerAction} (hr : Runs (DeletingStep u s.tasks.length) s w t) :
    NoPassDue u s.tasks.length t := by
  refine hr.invariant (fun _ _ _ h hst => noPassDue_step h hst.1.1 hst.1.2 hst.2) ?_
  intro hd
  exact (not_taken_length hd.taken).elim

theorem stateClaimed_runs {w : List ManagerAction} (hr : Runs (DeletingStep u s.tasks.length) s w t) :
    StateClaimed u s.tasks.length t := by
  refine hr.invariant (fun _ _ _ h hst => stateClaimed_step h hst.1.2 hst.2) ?_
  intro htaken
  exact (not_taken_length htaken).elim

/-- No pass begins behind a drain wait. -/
theorem not_happens_of_drained {w : List ManagerAction} (hdue : NoPassDue u n s) (hd : Drained u n s) :
    ¬ Happens (DeletingStep u n) (PassBegins u) s w t := by
  intro h
  induction h with
  | now _ hpass _ =>
    obtain ⟨i,-,hi⟩ := hpass
    exact hdue hd i _ hi trivial
  | later hst _ ih => exact ih (noPassDue_step hdue hst.1.1 hst.1.2 hst.2) (hd.step hst.2)

/-- From any state in which the pod has left the desired set: no pass begins once a
deletion has drained, and once all syncs of the pod have ended no runtime state is left. -/
theorem deletion_wins (s t t' : ManagerState) (u : PodUID) (v w : List ManagerAction)
    (hv : Runs (DeletingStep u s.tasks.length) s v t) :
    (Drained u s.tasks.length t → ¬ Happens (DeletingStep u s.tasks.length) (PassBegins u) t w t') ∧
      (Taken u s.tasks.length t → (∀ i pc, HasSync t u i pc → ¬ pc.Live) →
        t.podStates.lookup u = none) := by
  constructor
  · intro hd
    exact not_happens_of_drained (noPassDue_runs hv) hd
  · intro htaken hquiet
    by_contra hstate
    obtain ⟨j,pc,hj,hpc⟩ := stateClaimed_runs hv htaken hstate
    exact hquiet j pc hj hpc.inLoop.live

/-- The pod leaves the desired set while its pass is under way. -/
def leakPrefix : List ManagerAction :=
  [.upsert webPod 0,.syncPod webPod,.run 0,.remove webPod.uid none 0]

/-- The deletion takes the state while the pass is under way and waits for it; a trigger comes in
meanwhile, and the pass finds the pod terminated. -/
def settledDrain : List ManagerAction :=
  [.deletePod webPod,.run 1,.syncPod webPod,.run 1,.pollDrain 1 false,.passReturns 0 .terminated {},.run 0,.run 0,
    .run 0,.run 0,.pollDrain 1 false]

theorem deletionSettles_deletePod {pod : PodSpec} : DeletionSettles u n s (.deletePod pod) where
  spawns _ h := nomatch h
  drains _ _ h := nomatch h
  retries _ _ _ _ h := nomatch h
  stores _ _ _ h := nomatch h

/-- A trigger that finds the pod running. -/
theorem deletionSettles_trigger {pod : PodSpec} (h : (s.cell u).stillRunning = true) : DeletionSettles u n s (.syncPod pod) where
  spawns _ _ _ hstill := by
    rw [h] at hstill
    cases hstill
  drains _ _ hdrain := nomatch hdrain
  retries _ _ _ _ hreturn := nomatch hreturn
  stores _ _ _ hrun := nomatch hrun

theorem deletionSettles_terminated {i : ℕ} {st : PodRuntimeState} : DeletionSettles u n s (.passReturns i .terminated st) where
  spawns _ h := nomatch h
  drains _ _ h := nomatch h
  retries _ _ _ _ h := nomatch h
  stores _ _ _ h := nomatch h

/-- A call of a task that is no sync task about to store a result. -/
theorem deletionSettles_run {i : ℕ} (h : ∀ result st, HasSync s u i (.storeResult result st) →
    result ≠ .synced ∧ ∀ reason, result ≠ .failed reason) : DeletionSettles u n s (.run i) where
  spawns _ hpod := nomatch hpod
  drains _ _ hdrain := nomatch hdrain
  retries _ _ _ _ hreturn := nomatch hreturn
  stores j result st hrun hj hresult := by
    cases hrun
    rcases hresult with rfl | ⟨reason,rfl⟩
    · exact absurd rfl (h _ st hj).1
    · exact absurd rfl ((h _ st hj).2 reason)

theorem deletionSettles_poll {i : ℕ} {expired : Bool} (h : ((s.cell u).stillRunning && !expired) = false →
    ∀ j pc, HasSync s u j pc → ¬ pc.WillPass) : DeletionSettles u n s (.pollDrain i expired) where
  spawns _ hpod := nomatch hpod
  drains _ _ hdrain _ hpoll := by
    cases hdrain
    exact h hpoll
  retries _ _ _ _ hreturn := nomatch hreturn
  stores _ _ _ hrun := nomatch hrun

/-- The steps of the deletion while the only sync task of the pod stands at `pc`. -/
theorem deletionSettles_run_of_pc {i : ℕ} {pc : SyncPc} (h : syncPcs s u = [pc])
    (hpc : ∀ result st, pc = .storeResult result st → result = .terminated) : DeletionSettles u n s (.run i) := by
  refine deletionSettles_run fun result st hi => ?_
  obtain rfl := hpc result st (hi.eq_of_syncPcs h).symm
  exact ⟨nofun,fun _ => nofun⟩

theorem deletion_wins_of_running :
    ∃ s t, exec ManagerState.step {} leakPrefix = some s ∧ HasSync s webPod.uid 0 (.syncing {}) ∧
      exec ManagerState.step s settledDrain = some t ∧ (Drained webPod.uid 1 t ∧
        ¬ Happens (DeletingStep webPod.uid 1) (PassBegins webPod.uid) t [.run 1,.run 1] t) ∧
      t.podStates.lookup webPod.uid = none := by
  obtain ⟨s,hs⟩ : ∃ s, exec ManagerState.step {} leakPrefix = some s := ⟨_,rfl⟩
  obtain ⟨t,ht⟩ : ∃ t, exec ManagerState.step s settledDrain = some t := by
    cases hs
    exact ⟨_,rfl⟩
  have hrun : Runs (DeletingStep webPod.uid s.tasks.length) s settledDrain t := by
    cases hs
    cases ht
    refine .cons ⟨⟨rfl,deletionSettles_deletePod⟩,rfl⟩ ?_
    refine .cons ⟨⟨rfl,deletionSettles_run_of_pc rfl nofun⟩,rfl⟩ ?_
    refine .cons ⟨⟨rfl,deletionSettles_trigger rfl⟩,rfl⟩ ?_
    refine .cons ⟨⟨rfl,deletionSettles_run_of_pc rfl nofun⟩,rfl⟩ ?_
    refine .cons ⟨⟨rfl,deletionSettles_poll fun hpoll => nomatch hpoll⟩,rfl⟩ ?_
    refine .cons ⟨⟨rfl,deletionSettles_terminated⟩,rfl⟩ ?_
    refine .cons ⟨⟨rfl,deletionSettles_run_of_pc rfl (by rintro _ _ ⟨⟩; rfl)⟩,rfl⟩ ?_
    refine .cons ⟨⟨rfl,deletionSettles_run_of_pc rfl nofun⟩,rfl⟩ ?_
    refine .cons ⟨⟨rfl,deletionSettles_run_of_pc rfl nofun⟩,rfl⟩ ?_
    refine .cons ⟨⟨rfl,deletionSettles_run_of_pc rfl nofun⟩,rfl⟩ ?_
    exact .cons ⟨⟨rfl,deletionSettles_poll fun _ j pc hj => (hj.eq_of_syncPcs rfl) ▸ id⟩,rfl⟩ (.nil _)
  have hwins := deletion_wins s t t webPod.uid _ [.run 1,.run 1] hrun
  cases hs
  have hd : Drained webPod.uid 1 t := by
    cases ht
    exact ⟨1,.cleaning,le_rfl,⟨webPod,rfl,rfl⟩,trivial⟩
  refine ⟨_,t,rfl,⟨webPod,rfl⟩,ht,⟨hd,hwins.1 hd⟩,hwins.2 hd.taken ?_⟩
  cases ht
  intro i pc hi
  exact (hi.eq_of_syncPcs rfl) ▸ id

/-- The pass returns while the deletion waits for it. -/
def leakSuffix : List ManagerAction :=
  [.deletePod webPod,.run 1,.run 1,.passReturns 0 .synced {},.run 0,.run 0,.run 0,.run 0,.run 0,
    .pollDrain 1 false,.run 1,.run 1,.run 1,.run 1]

theorem deletion_leaks : ¬ ∀ (pm : PodManager) (v w : List ManagerAction) (s t : ManagerState)
    (u : PodUID), Runs (ofStep ManagerState.step) { podManager := pm } v s →
    Runs (Guarded (Absent u) (ofStep ManagerState.step)) s w t →
    (∃ i, s.tasks.length ≤ i ∧ HasDeletion t u i .exited) →
    (∀ i pc, HasSync t u i pc → ¬ pc.Live) → t.podStates.lookup u = none := by
  intro h
  obtain ⟨s,hs⟩ : ∃ s, exec ManagerState.step {} leakPrefix = some s := ⟨_,rfl⟩
  obtain ⟨t,ht⟩ : ∃ t, exec ManagerState.step s leakSuffix = some t := by
    cases hs
    exact ⟨_,rfl⟩
  have hw : Runs (Guarded (Absent webPod.uid) (ofStep ManagerState.step)) s leakSuffix t := by
    cases hs
    cases ht
    unfold leakSuffix
    repeat' first
      | exact .nil _
      | refine .cons ⟨rfl,rfl⟩ ?_
  have hnone := h {} _ _ s t webPod.uid (runs_of_exec hs) hw
  cases hs
  cases ht
  have hleft := hnone ⟨1,by decide,webPod,rfl,rfl⟩ (by
    intro i pc hi
    rcases hi.mem_syncPcs with - | ⟨-,hmem⟩
    · exact id
    · cases hmem)
  cases hleft

end KubeAir.Manager
