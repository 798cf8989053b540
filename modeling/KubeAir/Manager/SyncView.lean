import KubeAir.Manager.SyncModel

/-! # The manager as one pod sees it

Every step of the manager touches the slot, the runtime state and the sync tasks of
one UID in one of six ways. The laws about a single pod are proved from this list,
never from the step function itself.
-/
namespace KubeAir.Manager
open Core Worker Transition

/-- The task has not left the body of its spawn. -/
def SyncPc.Live : SyncPc → Prop
  | .exited => False
  | _ => True

/-- The task is still inside its loop. -/
def SyncPc.InLoop : SyncPc → Prop
  | .exited => False
  | .trailing => False
  | _ => True

/-- The task comes back to the head of its loop whatever happens to its slot. -/
def SyncPc.WillPass : SyncPc → Prop
  | .takeState => True
  | .storeResult (.needsRetry _) _ => True
  | .reportRetry => True
  | .countRetry => True
  | .sleeping _ => True
  | _ => False

theorem SyncPc.InLoop.live {pc : SyncPc} (h : pc.InLoop) : pc.Live := by
  cases pc <;> trivial

/-- A live task outside its loop stands before the final slot removal. -/
theorem SyncPc.Live.inLoop_or {pc : SyncPc} (h : pc.Live) : pc.InLoop ∨ pc = .trailing := by
  cases pc with
  | exited => exact h.elim
  | trailing => exact .inr rfl
  | _ => exact .inl trivial

/-- Task `i` is a sync task of the UID and stands at `pc`. -/
def HasSync (s : ManagerState) (uid : PodUID) (i : ℕ) (pc : SyncPc) : Prop :=
  ∃ pod, s.tasks[i]? = some (.sync uid pod pc)

/-- Task `i` deletes a pod with this UID and stands at `pc`. -/
def HasDeletion (s : ManagerState) (uid : PodUID) (i : ℕ) (pc : CleanupPc) : Prop :=
  ∃ pod : PodSpec, pod.uid = uid ∧ s.tasks[i]? = some (.cleanup .deletion pod pc)

namespace ManagerState
variable (s : ManagerState) (u : PodUID)

@[simp] theorem cell_setCell (c : PodCell) : (s.setCell u c).cell u = c := by
  simp [cell,setCell]

theorem cell_setCell_ne {v : PodUID} (h : u ≠ v) (c : PodCell) : (s.setCell v c).cell u = s.cell u := by
  simp only [cell,setCell,HashMap.lookup_setEntry_ne _ h]

@[simp] theorem cell_setTask (i : ℕ) (t : ManagerTask) : (s.setTask i t).cell u = s.cell u := rfl
@[simp] theorem cell_spawn (t : ManagerTask) : (s.spawn t).cell u = s.cell u := rfl
@[simp] theorem cell_unmark (pod : PodSpec) (pc : CleanupPc) : (s.unmark pod pc).cell u = s.cell u := by
  cases pc <;> rfl
@[simp] theorem tasks_setCell (c : PodCell) : (s.setCell u c).tasks = s.tasks := rfl
@[simp] theorem tasks_unmark (pod : PodSpec) (pc : CleanupPc) : (s.unmark pod pc).tasks = s.tasks := by
  cases pc <;> rfl
@[simp] theorem tasks_setTask (i : ℕ) (t : ManagerTask) : (s.setTask i t).tasks = s.tasks.set i t := rfl
@[simp] theorem tasks_spawn (t : ManagerTask) : (s.spawn t).tasks = s.tasks ++ [t] := rfl
@[simp] theorem podManager_setCell (c : PodCell) : (s.setCell u c).podManager = s.podManager := rfl
@[simp] theorem podManager_setTask (i : ℕ) (t : ManagerTask) :
    (s.setTask i t).podManager = s.podManager := rfl

end ManagerState

section TaskTable
variable {s t : ManagerState} {u : PodUID}

theorem HasSync.pc_eq {i : ℕ} {pc q : SyncPc} (h : HasSync s u i pc) (h' : HasSync s u i q) :
    pc = q := by
  obtain ⟨_,h⟩ := h
  obtain ⟨_,h'⟩ := h'
  rw [h] at h'
  cases h'
  rfl

theorem hasSync_of_tasks (h : t.tasks = s.tasks) (i : ℕ) (pc : SyncPc) :
    HasSync t u i pc ↔ HasSync s u i pc := by
  simp only [HasSync,h]

theorem tasks_concat_iff {l : List ManagerTask} {task x : ManagerTask} {i : ℕ} :
    (l ++ [task])[i]? = some x ↔ (i = l.length ∧ x = task) ∨ l[i]? = some x := by
  rcases Nat.lt_trichotomy i l.length with hlt | rfl | hgt
  · rw [List.getElem?_append_left hlt]
    simp only [hlt.ne,false_and,false_or]
  · simp only [List.getElem?_concat_length,Option.some.injEq,true_and,List.getElem?_eq_none le_rfl,
      reduceCtorEq,or_false,eq_comm]
  · rw [List.getElem?_eq_none (by simp; omega),List.getElem?_eq_none (by omega)]
    simp only [hgt.ne',false_and,false_or]

theorem tasks_set_iff {l : List ManagerTask} {task old x : ManagerTask} {i j : ℕ}
    (h : l[i]? = some old) :
    (l.set i task)[j]? = some x ↔ (j = i ∧ x = task) ∨ (j ≠ i ∧ l[j]? = some x) := by
  by_cases hij : i = j
  · subst hij
    rw [List.getElem?_set_self (List.getElem?_eq_some_iff.mp h).1]
    simp only [Option.some.injEq,true_and,ne_eq,not_true_eq_false,false_and,or_false,eq_comm]
  · rw [List.getElem?_set_ne hij]
    simp only [Ne.symm hij,false_and,ne_eq,not_false_eq_true,true_and,false_or]

/-- Appending a task that is no sync of the pod changes none of its syncs. -/
theorem hasSync_append {task : ManagerTask} (h : t.tasks = s.tasks ++ [task])
    (hne : ∀ pod pc, task ≠ .sync u pod pc) (i : ℕ) (pc : SyncPc) :
    HasSync t u i pc ↔ HasSync s u i pc := by
  simp only [HasSync,h,tasks_concat_iff]
  refine exists_congr ?_
  intro pod
  simp only [(hne pod pc).symm,and_false,false_or]

theorem hasSync_spawn {pod : PodSpec} {pc : SyncPc} (h : t.tasks = s.tasks ++ [.sync u pod pc])
    (i : ℕ) (q : SyncPc) :
    HasSync t u i q ↔ (i = s.tasks.length ∧ q = pc) ∨ HasSync s u i q := by
  simp only [HasSync,h,tasks_concat_iff,ManagerTask.sync.injEq,true_and,exists_or]
  simp only [exists_and_left,exists_eq_left]

theorem not_hasSync_length (pc : SyncPc) : ¬ HasSync s u s.tasks.length pc := by
  rintro ⟨pod,h⟩
  rw [List.getElem?_eq_none le_rfl] at h
  cases h

/-- The program counters of the sync tasks of a UID. -/
def syncPcs (s : ManagerState) (u : PodUID) : List SyncPc :=
  s.tasks.filterMap (fun
    | .sync v _ pc => if v = u then some pc else none
    | .cleanup _ _ _ => none)

theorem HasSync.mem_syncPcs {i : ℕ} {pc : SyncPc} (h : HasSync s u i pc) : pc ∈ syncPcs s u := by
  obtain ⟨pod,h⟩ := h
  refine List.mem_filterMap.mpr ⟨_,List.mem_of_getElem? h,?_⟩
  simp

theorem HasSync.eq_of_syncPcs {i : ℕ} {pc q : SyncPc} (h : syncPcs s u = [pc]) (hi : HasSync s u i q) : q = pc := by
  have hmem := hi.mem_syncPcs
  rwa [h,List.mem_singleton] at hmem

/-- Replacing a task that is no sync of the pod by another such task. -/
theorem hasSync_set {i : ℕ} {task old : ManagerTask} (h : t.tasks = s.tasks.set i task)
    (hi : s.tasks[i]? = some old) (hold : ∀ pod pc, old ≠ .sync u pod pc)
    (hnew : ∀ pod pc, task ≠ .sync u pod pc) (j : ℕ) (pc : SyncPc) :
    HasSync t u j pc ↔ HasSync s u j pc := by
  simp only [HasSync,h,tasks_set_iff hi]
  refine exists_congr ?_
  intro pod
  simp only [(hnew pod pc).symm,and_false,false_or,and_iff_right_iff_imp]
  rintro hj rfl
  rw [hi] at hj
  exact hold pod pc (Option.some.inj hj)

theorem hasSync_set_sync {i : ℕ} {pod : PodSpec} {pc : SyncPc} {old : ManagerTask}
    (h : t.tasks = s.tasks.set i (.sync u pod pc)) (hi : s.tasks[i]? = some old) (j : ℕ) (q : SyncPc) :
    HasSync t u j q ↔ (j = i ∧ q = pc) ∨ (j ≠ i ∧ HasSync s u j q) := by
  simp only [HasSync,h,tasks_set_iff hi,ManagerTask.sync.injEq,true_and,exists_or]
  simp only [exists_and_left,exists_eq_left]

end TaskTable

/-- What a step does to the slot, the runtime state and the sync tasks of one UID. -/
inductive StepView (u : PodUID) (s : ManagerState) (a : ManagerAction) (t : ManagerState) : Prop
  | frame (hother : ∀ pod, a = .syncPod pod → pod.uid ≠ u) (hcell : t.cell u = s.cell u)
      (hsync : ∀ i pc, HasSync t u i pc ↔ HasSync s u i pc)
  | spawn (pod : PodSpec) (n : ℕ) (ha : a = .syncPod pod) (hu : pod.uid = u)
      (hidle : (s.cell u).stillRunning = false)
      (hcell : t.cell u = { s.cell u with slot := some { (s.cell u).slot.getD {} with running := true } })
      (hnew : ∀ pc, ¬ HasSync s u n pc)
      (hsync : ∀ i pc, HasSync t u i pc ↔ (i = n ∧ pc = .takeState) ∨ HasSync s u i pc)
  | coalesce (pod : PodSpec) (ha : a = .syncPod pod) (hu : pod.uid = u)
      (hrun : (s.cell u).stillRunning = true)
      (hcell : t.cell u = { s.cell u with slot := some { (s.cell u).slot.getD {} with pending := true } })
      (hsync : ∀ i pc, HasSync t u i pc ↔ HasSync s u i pc)
  | advance (i : ℕ) (pod : PodSpec) (pc : SyncPc) (c : PodCell) (pod' : PodSpec) (pc' : SyncPc)
      (ha : a = .run i) (hi : HasSync s u i pc)
      (hrun : runSync (s.podManager.get u) pod (s.cell u) pc = some (c,pod',pc'))
      (hcell : t.cell u = c)
      (hsync : ∀ j q, HasSync t u j q ↔ (j = i ∧ q = pc') ∨ (j ≠ i ∧ HasSync s u j q))
  | passReturns (i : ℕ) (held : PodRuntimeState) (result : PodSyncResult) (st : PodRuntimeState)
      (ha : a = .passReturns i result st) (hi : HasSync s u i (.syncing held))
      (hcell : t.cell u = s.cell u)
      (hsync : ∀ j q, HasSync t u j q ↔ (j = i ∧ q = .storeResult result st) ∨ (j ≠ i ∧ HasSync s u j q))
  | drop (hother : ∀ pod, a = .syncPod pod → pod.uid ≠ u)
      (hcell : t.cell u = { s.cell u with state := none })
      (hsync : ∀ i pc, HasSync t u i pc ↔ HasSync s u i pc)

theorem acquire_eq_true {c c' : PodCell} (h : c.acquire = (c',true)) :
    c.stillRunning = false ∧ c' = { c with slot := some { c.slot.getD {} with running := true } } := by
  unfold PodCell.acquire at h
  cases hs : c.slot with
  | none =>
    simp only [hs,Option.getD_none,Bool.false_eq_true,↓reduceIte,Prod.mk.injEq,and_true] at h
    exact ⟨by simp [PodCell.stillRunning,hs],h.symm⟩
  | some sl =>
    cases hr : sl.running with
    | true => simp [hs,hr] at h
    | false =>
      simp only [hs,Option.getD_some,hr,Bool.false_eq_true,↓reduceIte,Prod.mk.injEq,and_true] at h
      exact ⟨by simp [PodCell.stillRunning,hs,hr],h.symm⟩

theorem acquire_eq_false {c c' : PodCell} (h : c.acquire = (c',false)) :
    c.stillRunning = true ∧ c' = { c with slot := some { c.slot.getD {} with pending := true } } := by
  unfold PodCell.acquire at h
  cases hs : c.slot with
  | none => simp [hs] at h
  | some sl =>
    cases hr : sl.running with
    | false => simp [hs,hr] at h
    | true =>
      simp only [hs,Option.getD_some,hr,↓reduceIte,Prod.mk.injEq,and_true] at h
      exact ⟨by simp [PodCell.stillRunning,hs,hr],by simp [← h,hr]⟩

/-- A cleanup step either leaves the entries of its pod alone or takes its state. -/
theorem runCleanup_cell {kind : CleanupKind} {c c' : PodCell} {pc pc' : CleanupPc}
    (h : runCleanup kind c pc = some (c',pc')) : c' = c ∨ c' = { c with state := none } := by
  cases pc with
  | takeState => cases h; exact .inr rfl
  | forceDeleting => cases kind <;> cases h <;> exact .inl rfl
  | draining => cases h
  | exited => cases h
  | _ => cases h; exact .inl rfl

/-- How a step inside the loop may change the slot: the running flag stays, a set
pending flag is lost only by the step that goes back to the head of the loop, and a
slot that had been lost comes back idle. -/
def SlotKept (c c' : PodCell) (pc' : SyncPc) : Prop :=
  (c'.stillRunning = c.stillRunning) ∧
    (c'.isPending = c.isPending ∨ (c'.isPending = false ∧ pc' = .takeState))

theorem checkPending_some {d : Option PodSpec} {c c' : PodCell} {next : PodSpec}
    (h : c.checkPending d = (c',some next)) :
    d = some next ∧ c'.stillRunning = c.stillRunning ∧ c'.isPending = false ∧ c'.state = c.state := by
  unfold PodCell.checkPending at h
  split at h
  · next sl hs =>
    split at h
    · simp only [Prod.mk.injEq] at h
      obtain ⟨rfl,rfl⟩ := h
      simp [PodCell.stillRunning,PodCell.isPending,hs]
    · cases h
  · cases h

theorem checkPending_none {d : Option PodSpec} {c c' : PodCell} (h : c.checkPending d = (c',none)) :
    c'.state = c.state ∧ c'.isPending = false ∧
      (c'.stillRunning = false ∨ (d = none ∧ c'.stillRunning = c.stillRunning)) ∧
      (c.isPending = true → d = none) := by
  unfold PodCell.checkPending at h
  split at h
  · next sl hs =>
    split at h
    · next hp =>
      simp only [Prod.mk.injEq] at h
      obtain ⟨rfl,rfl⟩ := h
      simp [PodCell.stillRunning,PodCell.isPending,hs]
    · next hp =>
      simp only [Prod.mk.injEq,and_true] at h
      subst h
      simp [PodCell.stillRunning,PodCell.isPending,hs,hp]
  · next hs =>
    simp only [Prod.mk.injEq,and_true] at h
    subst h
    simp [PodCell.stillRunning,PodCell.isPending,hs]

theorem pollPending_slot (c : PodCell) (d : Option PodSpec) :
    SlotKept c (c.pollPending d).1 .takeState ∧ (c.pollPending d).1.state = c.state := by
  unfold PodCell.pollPending
  cases hs : c.slot with
  | none => simp [SlotKept]
  | some sl =>
    dsimp only
    split <;> simp [SlotKept,PodCell.stillRunning,PodCell.isPending,hs]

/-- A task reaches its exit only through the final slot removal. -/
theorem runSync_exited {d : Option PodSpec} {pod pod' : PodSpec} {c c' : PodCell} {pc pc' : SyncPc}
    (h : runSync d pod c pc = some (c',pod',pc')) (hpc : ¬ pc'.Live) :
    pc = .trailing ∧ c' = { c with slot := none } := by
  cases pc with
  | trailing => cases h; exact ⟨rfl,rfl⟩
  | storeResult result st => cases h; cases result <;> exact (hpc trivial).elim
  | checkPending =>
    simp only [runSync] at h
    split at h <;> (cases h; exact (hpc trivial).elim)
  | syncing st => cases h
  | exited => cases h
  | _ => cases h; exact (hpc trivial).elim

/-- A task leaves its loop only by finding no trailing sync to run. -/
theorem runSync_trailing {d : Option PodSpec} {pod pod' : PodSpec} {c c' : PodCell} {pc : SyncPc}
    (h : runSync d pod c pc = some (c',pod',.trailing)) :
    pc = .checkPending ∧ c.checkPending d = (c',none) := by
  cases pc with
  | storeResult result st => cases result <;> cases h
  | checkPending =>
    simp only [runSync] at h
    split at h
    · cases h
    · next hc => cases h; exact ⟨rfl,hc⟩
  | syncing st => cases h
  | exited => cases h
  | _ => cases h

/-- A step that ends inside the loop started there and kept the slot. -/
theorem runSync_inLoop {d : Option PodSpec} {pod pod' : PodSpec} {c c' : PodCell} {pc pc' : SyncPc}
    (h : runSync d pod c pc = some (c',pod',pc')) (hpc : pc'.InLoop) :
    pc.InLoop ∧ SlotKept c c' pc' := by
  cases pc with
  | storeResult result st =>
    cases h
    cases result <;> exact ⟨trivial,rfl,.inl rfl⟩
  | clearRetry =>
    cases h
    cases hs : c.slot <;> exact ⟨trivial,by simp [SlotKept,PodCell.clearRetry,PodCell.stillRunning,
      PodCell.isPending,hs]⟩
  | countRetry =>
    cases h
    cases hs : c.slot <;> exact ⟨trivial,by simp [SlotKept,PodCell.countRetry,PodCell.stillRunning,
      PodCell.isPending,hs]⟩
  | sleeping millis =>
    cases h
    exact ⟨trivial,(pollPending_slot c d).1⟩
  | checkPending =>
    simp only [runSync] at h
    split at h
    · next hc =>
      cases h
      obtain ⟨-,hrun,hpend,-⟩ := checkPending_some hc
      exact ⟨trivial,hrun,.inr ⟨hpend,rfl⟩⟩
    · cases h; exact hpc.elim
  | trailing => cases h; exact hpc.elim
  | syncing st => cases h
  | exited => cases h
  | _ => cases h; exact ⟨trivial,rfl,.inl rfl⟩

/-- On its way back to the head of the loop a task neither leaves nor starts a pass elsewhere. -/
theorem runSync_willPass {d : Option PodSpec} {pod pod' : PodSpec} {c c' : PodCell} {pc pc' : SyncPc}
    (h : runSync d pod c pc = some (c',pod',pc')) (hpc : pc.WillPass) :
    pc = .takeState ∨ pc'.WillPass := by
  cases pc with
  | takeState => exact .inl rfl
  | storeResult result st =>
    cases result with
    | needsRetry reason => cases h; exact .inr trivial
    | _ => exact hpc.elim
  | reportRetry => cases h; exact .inr trivial
  | countRetry => cases h; exact .inr trivial
  | sleeping millis => cases h; exact .inr trivial
  | _ => exact hpc.elim

theorem runSync_live {d : Option PodSpec} {pod : PodSpec} {c : PodCell} {pc : SyncPc}
    {r : PodCell × PodSpec × SyncPc} (h : runSync d pod c pc = some r) : pc.Live := by
  cases pc with
  | exited => cases h
  | _ => trivial

theorem syncPod_view (s : ManagerState) (pod : PodSpec) (u : PodUID) :
    StepView u s (.syncPod pod) (s.syncPod pod) := by
  unfold ManagerState.syncPod
  by_cases hu : pod.uid = u
  · subst hu
    rcases ha : (s.cell pod.uid).acquire with ⟨c,spawns⟩
    cases spawns with
    | true =>
      obtain ⟨hidle,rfl⟩ := acquire_eq_true ha
      exact .spawn pod s.tasks.length rfl rfl hidle (by simp) not_hasSync_length
        (hasSync_spawn rfl)
    | false =>
      obtain ⟨hrun,rfl⟩ := acquire_eq_false ha
      exact .coalesce pod rfl rfl hrun (by simp) (hasSync_of_tasks (by simp))
  · rcases (s.cell pod.uid).acquire with ⟨c,spawns⟩
    have hc := s.cell_setCell_ne u (Ne.symm hu) c
    have hother : ∀ p, ManagerAction.syncPod pod = .syncPod p → p.uid ≠ u := by
      intro p hp
      cases hp
      exact hu
    cases spawns with
    | true =>
      refine .frame hother (by simpa using hc) (hasSync_append rfl ?_)
      intro p pc h
      cases h
      exact hu rfl
    | false => exact .frame hother hc (hasSync_of_tasks (by simp))

theorem runSync_view {s : ManagerState} {i : ℕ} {v : PodUID} {pod : PodSpec} {pc : SyncPc}
    (hi : s.tasks[i]? = some (.sync v pod pc)) {c : PodCell} {pod' : PodSpec} {pc' : SyncPc}
    (hrun : runSync (s.podManager.get v) pod (s.cell v) pc = some (c,pod',pc')) (u : PodUID) :
    StepView u s (.run i) ((s.setCell v c).setTask i (.sync v pod' pc')) := by
  by_cases hv : v = u
  · subst hv
    exact .advance i pod pc c pod' pc' rfl ⟨pod,hi⟩ hrun (by simp) (hasSync_set_sync rfl hi)
  · refine .frame (fun _ h => nomatch h) (by simpa using s.cell_setCell_ne u (Ne.symm hv) c) (hasSync_set rfl hi ?_ ?_)
    all_goals
      intro p q h
      cases h
      exact hv rfl

theorem runCleanup_view {s : ManagerState} {i : ℕ} {kind : CleanupKind} {pod : PodSpec} {pc : CleanupPc}
    (hi : s.tasks[i]? = some (.cleanup kind pod pc)) {c : PodCell} {pc' : CleanupPc}
    (hrun : runCleanup kind (s.cell pod.uid) pc = some (c,pc')) (u : PodUID) :
    StepView u s (.run i) (((s.unmark pod pc).setCell pod.uid c).setTask i (.cleanup kind pod pc')) := by
  have htasks : (((s.unmark pod pc).setCell pod.uid c).setTask i (.cleanup kind pod pc')).tasks =
      s.tasks.set i (.cleanup kind pod pc') := by simp
  have hsync := @hasSync_set s _ u i _ _ htasks hi (by simp) (by simp)
  by_cases hv : pod.uid = u
  · subst hv
    rcases runCleanup_cell hrun with rfl | rfl
    · exact .frame (fun _ h => nomatch h) (by simp) hsync
    · exact .drop (fun _ h => nomatch h) (by simp) hsync
  · refine .frame (fun _ h => nomatch h) ?_ hsync
    simpa using (s.unmark pod pc).cell_setCell_ne u (Ne.symm hv) c

/-- Every step of the manager is one of the six moves for every UID. -/
theorem step_view {s t : ManagerState} {a : ManagerAction} (h : s.step a = some t) (u : PodUID) :
    StepView u s a t := by
  cases a with
  | upsert pod now => cases h; exact .frame (fun _ h => nomatch h) rfl (hasSync_of_tasks rfl)
  | remove uid fallback now => cases h; exact .frame (fun _ h => nomatch h) rfl (hasSync_of_tasks rfl)
  | syncPod pod => cases h; exact syncPod_view s pod u
  | deletePod pod => cases h; exact .frame (fun _ h => nomatch h) rfl (hasSync_append rfl (by simp))
  | report uid state => cases h; exact .frame (fun _ h => nomatch h) rfl (hasSync_of_tasks rfl)
  | evictPod uid message gracePeriod now =>
    cases h
    unfold ManagerState.evictPod
    cases s.podManager.get uid with
    | some pod => exact .frame (fun _ h => nomatch h) rfl (hasSync_append rfl (by simp))
    | none => exact .frame (fun _ h => nomatch h) rfl (hasSync_of_tasks rfl)
  | run i =>
    simp only [ManagerState.step] at h
    rcases hi : s.tasks[i]? with _ | ⟨v,pod,pc⟩ | ⟨kind,pod,pc⟩
    · simp [hi] at h
    · simp only [hi,Option.map_eq_some_iff] at h
      obtain ⟨⟨c,pod',pc'⟩,hrun,rfl⟩ := h
      exact runSync_view hi hrun u
    · simp only [hi,Option.map_eq_some_iff] at h
      obtain ⟨⟨c,pc'⟩,hrun,rfl⟩ := h
      exact runCleanup_view hi hrun u
  | passReturns i result st =>
    simp only [ManagerState.step] at h
    split at h
    · next v pod held hi =>
      cases h
      by_cases hv : v = u
      · subst hv
        exact .passReturns i held result st rfl ⟨pod,hi⟩ rfl (hasSync_set_sync rfl hi)
      · refine .frame (fun _ h => nomatch h) rfl (hasSync_set rfl hi ?_ ?_)
        all_goals
          intro p q h
          cases h
          exact hv rfl
    · cases h
  | pollDrain i expired =>
    simp only [ManagerState.step] at h
    split at h
    · next kind pod hi =>
      split at h
      · cases h; exact .frame (fun _ h => nomatch h) rfl (fun _ _ => Iff.rfl)
      · cases h
        exact .frame (fun _ h => nomatch h) rfl (hasSync_set rfl hi (by simp) (by simp))
    · cases h

end KubeAir.Manager
