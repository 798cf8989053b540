import KubeAir.Manager.PipelineFrame

/-! # The specs that the pipeline works with

A spec is desired, on its way as an update, or the subject of a sync task. It came in by an
upsert, and only its host aliases may have changed since.
-/
namespace KubeAir.Manager
open Core Worker Transition

/-- The manager has the spec at hand. -/
inductive ManagerState.Held (s : ManagerState) (pod : PodSpec) : Prop
  | desired (h : s.podManager.get pod.uid = some pod)
  | sent (update : PodUpdate) (h : update ∈ s.podManager.updateTx.queue) (hop : update.op ≠ .remove)
      (hpod : update.pod = pod)
  | task (v : PodUID) (pc : SyncPc) (h : .sync v pod pc ∈ s.tasks)

/-- What is said about a spec does not depend on its host aliases. -/
def AliasFree (P : PodSpec → Prop) : Prop := ∀ pod aliases, P pod → P { pod with hostAliases := aliases }

variable {P : PodSpec → Prop} {s t : ManagerState} {m : PodManager} {pod : PodSpec}

theorem mem_send {update other : PodUpdate} (h : update ∈ (m.send other).2.updateTx.queue) :
    update ∈ m.updateTx.queue ∨ update = other := by
  change update ∈ (m.updateTx.send other).2.queue at h
  unfold UpdateChannel.send at h
  split at h
  · exact .inl h
  · exact (List.mem_append.mp h).imp_right List.mem_singleton.mp

theorem aliasFree_inherit (hfree : AliasFree P) (h : P pod) : P (m.inheritAliases pod) := by
  unfold PodManager.inheritAliases
  dsimp only
  split
  · split
    · exact hfree pod _ h
    · exact h
  · exact h

/-- A spec that is stored and sent comes to those that were at hand. -/
theorem held_of_stored {q : PodSpec} {op : PodOperation} (hdesired : ∀ v p, s.podManager.get v = some p → P p)
    (hsent : ∀ update ∈ s.podManager.updateTx.queue, update.op ≠ .remove → P update.pod)
    (htask : ∀ v p pc, .sync v p pc ∈ s.tasks → P p) (hq : P q) {n : PodManager}
    (hget : ∀ v, n.get v = (s.podManager.store q).get v)
    (hqueue : ∀ update ∈ n.updateTx.queue, update ∈ s.podManager.updateTx.queue ∨ update = { pod := q, op := op }) :
    ∀ pod, ({ s with podManager := n } : ManagerState).Held pod → P pod := by
  rintro pod (hpod | ⟨update,hmem,hop,rfl⟩ | ⟨v,pc,hmem⟩)
  · rw [hget] at hpod
    by_cases hu : pod.uid = q.uid
    · rw [hu,PodManager.get_store_self] at hpod
      obtain rfl := Option.some.inj hpod
      exact hq
    · rw [PodManager.get_store_ne _ _ _ hu] at hpod
      exact hdesired _ _ hpod
  · rcases hqueue update hmem with hold | rfl
    · exact hsent update hold hop
    · exact hq
  · exact htask v pod pc hmem

theorem held_get (h : ∀ pod, s.Held pod → P pod) {v : PodUID} (hget : s.podManager.get v = some pod) : P pod := by
  obtain rfl := s.podManager.keyed v pod hget
  exact h pod (.desired hget)

theorem held_upsert (hfree : AliasFree P) (h : ∀ pod, s.Held pod → P pod) {new : PodSpec} {now : DateTime}
    (hnew : ¬ s.podManager.Merges new → P new) :
    ∀ pod, ({ s with podManager := (s.podManager.upsert new now).2 } : ManagerState).Held pod → P pod := by
  have hdesired (v : PodUID) (p : PodSpec) (hget : s.podManager.get v = some p) : P p := held_get h hget
  have hsent (update : PodUpdate) (hmem : update ∈ s.podManager.updateTx.queue) (hop : update.op ≠ .remove) :
      P update.pod := h _ (.sent update hmem hop rfl)
  have htask (v : PodUID) (p : PodSpec) (pc : SyncPc) (hmem : .sync v p pc ∈ s.tasks) : P p := h p (.task v pc hmem)
  by_cases hmerges : s.podManager.Merges new
  · obtain ⟨existing,hentry⟩ := Option.isSome_iff_exists.mp hmerges.2.2
    rw [PodManager.upsert_of_merges _ _ hmerges hentry]
    unfold PodManager.mergeAliases
    split
    · refine held_of_stored hdesired hsent htask ?_ (fun _ => rfl) (fun update hmem => mem_send hmem)
      exact hfree existing _ (hdesired _ _ (PodManager.equivalentEntry_get _ _ hentry))
    · exact h
  · rw [PodManager.upsert_of_not_merges _ _ hmerges]
    have hstored : P (s.podManager.inheritAliases new) := aliasFree_inherit hfree (hnew hmerges)
    have hqueue (update : PodUpdate)
        (hmem : update ∈ (s.podManager.insertPod (s.podManager.inheritAliases new) now).2.updateTx.queue) :
        update ∈ s.podManager.updateTx.queue ∨ update =
          { pod := s.podManager.inheritAliases new
            op := if (s.podManager.get (s.podManager.inheritAliases new).uid).isNone then .add else .update } := by
      unfold PodManager.insertPod at hmem
      dsimp only at hmem
      refine (mem_send hmem).imp_left ?_
      split
      · exact id
      · exact id
    exact held_of_stored hdesired hsent htask hstored (fun v => PodManager.get_insertPod _ _ v now) hqueue

theorem held_remove (h : ∀ pod, s.Held pod → P pod) {uid : PodUID} {fallback : Option PodSpec} {now : Instant} :
    ∀ pod, ({ s with podManager := (s.podManager.remove uid fallback now).2 } : ManagerState).Held pod → P pod := by
  have hsent {n : PodManager} {p : PodSpec} (hqueue : n.updateTx = s.podManager.updateTx) {update : PodUpdate}
      (hmem : update ∈ (n.send { pod := p, op := .remove }).2.updateTx.queue) (hop : update.op ≠ .remove) :
      P update.pod := by
    rcases mem_send hmem with hold | rfl
    · rw [hqueue] at hold
      exact h _ (.sent update hold hop rfl)
    · exact absurd rfl hop
  rintro pod (hpod | ⟨update,hmem,hop,rfl⟩ | ⟨v,pc,hmem⟩)
  · have hget : (s.podManager.remove uid fallback now).2.get pod.uid = some pod := hpod
    rw [PodManager.get_remove] at hget
    split at hget
    · cases hget
    · exact held_get h hget
  · have hqueue : update ∈ (s.podManager.remove uid fallback now).2.updateTx.queue := hmem
    unfold PodManager.remove at hqueue
    split at hqueue
    · exact hsent rfl hqueue hop
    · split at hqueue
      · exact hsent rfl hqueue hop
      · exact h _ (.sent update hqueue hop rfl)
  · exact h pod (.task v pc hmem)

/-- A step that leaves the desired specs and the updates alone. -/
theorem held_of_tasks (h : ∀ pod, s.Held pod → P pod) (hdesired : ∀ v, t.podManager.get v = s.podManager.get v)
    (hqueue : t.podManager.updateTx = s.podManager.updateTx)
    (htask : ∀ v p pc, .sync v p pc ∈ t.tasks → P p) : ∀ pod, t.Held pod → P pod := by
  rintro pod (hpod | ⟨update,hmem,hop,rfl⟩ | ⟨v,pc,hmem⟩)
  · rw [hdesired] at hpod
    exact held_get h hpod
  · rw [hqueue] at hmem
    exact h _ (.sent update hmem hop rfl)
  · exact htask v pod pc hmem

theorem held_syncPod (h : ∀ pod, s.Held pod → P pod) {new : PodSpec} (hnew : P new) :
    ∀ pod, (s.syncPod new).Held pod → P pod := by
  refine held_of_tasks h (fun v => by rw [ManagerState.podManager_syncPod]) (by rw [ManagerState.podManager_syncPod]) ?_
  intro v p pc hmem
  unfold ManagerState.syncPod at hmem
  split at hmem
  · rcases List.mem_append.mp hmem with hold | hone
    · exact h p (.task v pc hold)
    · obtain ⟨-,rfl,-⟩ := ManagerTask.sync.inj (List.mem_singleton.mp hone)
      exact hnew
  · exact h p (.task v pc hmem)

theorem held_spawn_cleanup (h : ∀ pod, s.Held pod → P pod) {kind : CleanupKind} {q : PodSpec} {pc' : CleanupPc} {v : PodUID}
    {p : PodSpec} {pc : SyncPc} (hmem : .sync v p pc ∈ s.tasks ++ [.cleanup kind q pc']) : P p := by
  rcases List.mem_append.mp hmem with hold | hone
  · exact h p (.task v pc hold)
  · cases List.mem_singleton.mp hone

theorem held_handleUpdate (h : ∀ pod, s.Held pod → P pod) {update : PodUpdate} {now : DateTime}
    (hupdate : update.op ≠ .remove → P update.pod) : ∀ pod, (s.handleUpdate update now).Held pod → P pod := by
  unfold ManagerState.handleUpdate
  split
  · exact held_of_tasks h (fun _ => rfl) rfl fun v p pc hmem => held_spawn_cleanup h hmem
  · next hop =>
    split
    · exact held_of_tasks h (fun _ => rfl) rfl fun v p pc hmem => h p (.task v pc hmem)
    · exact held_syncPod h (hupdate fun hremove => hop hremove)

theorem held_evictPod (h : ∀ pod, s.Held pod → P pod) {uid : PodUID} {message : String} {gracePeriod : ℕ} {now : DateTime} :
    ∀ pod, (s.evictPod uid message gracePeriod now).Held pod → P pod := by
  unfold ManagerState.evictPod
  split
  · exact held_of_tasks h (fun _ => rfl) rfl fun v p pc hmem => held_spawn_cleanup h hmem
  · exact h

/-- The spec that a task goes on with is its own or the desired one. -/
theorem runSync_pod {desired : Option PodSpec} {p q : PodSpec} {c c' : PodCell} {pc pc' : SyncPc}
    (h : runSync desired p c pc = some (c',q,pc')) : q = p ∨ desired = some q := by
  cases pc with
  | sleeping millis =>
    obtain ⟨-,rfl,-⟩ := by simpa [runSync] using h
    unfold PodCell.pollPending
    split
    · split
      · cases desired with
        | none => exact .inl rfl
        | some d => exact .inr rfl
      · exact .inl rfl
    · exact .inl rfl
  | checkPending =>
    unfold runSync at h
    dsimp only at h
    split at h
    · next c next hcheck =>
      obtain ⟨-,rfl,-⟩ := by simpa using h
      right
      unfold PodCell.checkPending at hcheck
      split at hcheck
      · split at hcheck
        · exact (Prod.mk.inj hcheck).2
        · cases (Prod.mk.inj hcheck).2
      · cases (Prod.mk.inj hcheck).2
    · obtain ⟨-,rfl,-⟩ := by simpa using h
      exact .inl rfl
  | syncing state => cases h
  | exited => cases h
  | _ =>
    obtain ⟨-,rfl,-⟩ := by simpa [runSync] using h
    exact .inl rfl

theorem held_run (h : ∀ pod, s.Held pod → P pod) {i : ℕ} (hs : s.step (.run i) = some t) :
    ∀ pod, t.Held pod → P pod := by
  have hsame := ManagerState.podManager_run hs
  refine held_of_tasks h (fun v => by rw [hsame]) (by rw [hsame]) ?_
  intro v p pc hmem
  unfold ManagerState.step at hs
  dsimp only at hs
  split at hs
  · next uid q pc' hi =>
    obtain ⟨⟨c,q',pc''⟩,hrun,rfl⟩ := Option.map_eq_some_iff.mp hs
    rcases List.mem_or_eq_of_mem_set hmem with hold | heq
    · exact h p (.task v pc hold)
    · obtain ⟨-,rfl,-⟩ := ManagerTask.sync.inj heq
      rcases runSync_pod hrun with rfl | hdesired
      · exact h p (.task uid pc' (List.mem_of_getElem? hi))
      · exact held_get h hdesired
  · next kind q pc' hi =>
    obtain ⟨⟨c,pc''⟩,-,rfl⟩ := Option.map_eq_some_iff.mp hs
    have htasks : (s.unmark q pc').tasks = s.tasks := by
      unfold ManagerState.unmark
      split <;> rfl
    change .sync v p pc ∈ (s.unmark q pc').tasks.set i _ at hmem
    rw [htasks] at hmem
    rcases List.mem_or_eq_of_mem_set hmem with hold | heq
    · exact h p (.task v pc hold)
    · cases heq
  · cases hs

theorem held_passReturns (h : ∀ pod, s.Held pod → P pod) {i : ℕ} {result : PodSyncResult} {state : PodRuntimeState}
    (hs : s.step (.passReturns i result state) = some t) : ∀ pod, t.Held pod → P pod := by
  have hsame := ManagerState.podManager_passReturns hs
  refine held_of_tasks h (fun v => by rw [hsame]) (by rw [hsame]) ?_
  intro v p pc hmem
  unfold ManagerState.step at hs
  dsimp only at hs
  split at hs
  · next uid q st hi =>
    obtain rfl := Option.some.inj hs
    rcases List.mem_or_eq_of_mem_set hmem with hold | heq
    · exact h p (.task v pc hold)
    · obtain ⟨-,rfl,-⟩ := ManagerTask.sync.inj heq
      exact h p (.task uid _ (List.mem_of_getElem? hi))
  · cases hs

theorem held_pollDrain (h : ∀ pod, s.Held pod → P pod) {i : ℕ} {expired : Bool}
    (hs : s.step (.pollDrain i expired) = some t) : ∀ pod, t.Held pod → P pod := by
  have hsame := ManagerState.podManager_pollDrain hs
  refine held_of_tasks h (fun v => by rw [hsame]) (by rw [hsame]) ?_
  intro v p pc hmem
  unfold ManagerState.step at hs
  dsimp only at hs
  split at hs
  · split at hs
    · obtain rfl := Option.some.inj hs
      exact h p (.task v pc hmem)
    · obtain rfl := Option.some.inj hs
      rcases List.mem_or_eq_of_mem_set hmem with hold | heq
      · exact h p (.task v pc hold)
      · cases heq
  · cases hs

/-- What is said about every spec at hand goes on to hold if it holds of what is upserted and of the updates
that are handled. -/
theorem held_step {worker : PodWorker} {s t : Pipeline} {a : PipelineAction} (hfree : AliasFree P)
    (h : ∀ pod, s.manager.Held pod → P pod) (hs : s.step worker a = some t)
    (hupsert : ∀ pod now, a = .upsert pod now → ¬ s.manager.podManager.Merges pod → P pod)
    (hhandle : ∀ update now, a = .handleUpdate update now → update.op ≠ .remove → P update.pod) :
    ∀ pod, t.manager.Held pod → P pod := by
  have hworld (v : PodUID) (w : Node) : ∀ pod, (s.setWorld v w).manager.Held pod → P pod := by
    unfold Pipeline.setWorld Pipeline.putStatus
    cases w.status with
    | none => exact h
    | some st => exact held_of_tasks h (fun _ => rfl) rfl fun v p pc hmem => h p (.task v pc hmem)
  cases a with
  | upsert pod now =>
    obtain rfl := Option.some.inj hs
    exact held_upsert hfree h (hupsert pod now rfl)
  | remove uid fallback now =>
    obtain rfl := Option.some.inj hs
    exact held_remove h
  | handleUpdate update now =>
    obtain rfl := Option.some.inj hs
    exact held_handleUpdate h (hhandle update now rfl)
  | plegEvent uid =>
    obtain rfl := Option.some.inj hs
    show ∀ pod, (s.manager.plegEvent uid).Held pod → P pod
    unfold ManagerState.plegEvent
    split
    · next pod hget => exact held_syncPod h (held_get h hget)
    · exact h
  | evictPod uid message gracePeriod now =>
    obtain rfl := Option.some.inj hs
    exact held_evictPod h
  | run i =>
    obtain ⟨-,n,hn,rfl⟩ := Pipeline.step_run hs
    rw [Pipeline.manager_enter]
    exact held_run h hn
  | pollDrain i expired =>
    obtain ⟨n,hn,rfl⟩ := Option.map_eq_some_iff.mp hs
    rw [Pipeline.manager_enter]
    exact held_pollDrain h hn
  | reply i c =>
    rcases Pipeline.step_reply hs with ⟨uid,_,_,_,_,w,-,-,rfl⟩ | ⟨uid,_,_,_,w,-,-,rfl⟩
    · exact hworld uid w
    · exact hworld uid w
  | finish i =>
    obtain ⟨n,rfl,⟨_,_,_,_,-,hn⟩ | ⟨_,-,hn⟩⟩ := Pipeline.step_finish hs
    · exact held_passReturns h hn
    · exact held_run h hn
  | exit id code =>
    obtain ⟨w,-,rfl⟩ := Option.map_eq_some_iff.mp hs
    exact h

end KubeAir.Manager
