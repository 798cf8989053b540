import KubeAir.Manager.SyncView

/-! # Mutual exclusion of the sync tasks of a pod

A task clears its slot once inside the loop, when no trailing sync is due, and once
more behind the loop. A call that spawns a task between the two loses its slot to the
second removal, and the call after it spawns another. Runs in which no call spawns
there keep at most one live task for each UID.
-/
namespace KubeAir.Manager
open Core Worker Transition

/-- At most one sync task of each UID is live. -/
def SyncExclusive (s : ManagerState) : Prop :=
  ∀ u i j pc pc', HasSync s u i pc → HasSync s u j pc' → pc.Live → pc'.Live → i = j

/-- `worker.sync_pod` is not running twice for one UID. -/
def PassesExclusive (s : ManagerState) : Prop :=
  ∀ u i j st st', HasSync s u i (.syncing st) → HasSync s u j (.syncing st') → i = j

/-- A call spawns a task only while no task of the pod stands between its two slot removals. -/
def SpawnsApart (s : ManagerState) (a : ManagerAction) : Prop :=
  ∀ pod, a = .syncPod pod → (s.cell pod.uid).stillRunning = false →
    ∀ i, ¬ HasSync s pod.uid i .trailing

theorem SyncExclusive.passes {s : ManagerState} (h : SyncExclusive s) : PassesExclusive s :=
  fun u i j _ _ hi hj => h u i j _ _ hi hj trivial trivial

/-- The slot of the UID is held for exactly one task. -/
structure SlotHeld (u : PodUID) (s : ManagerState) : Prop where
  unique : ∀ i j pc pc', HasSync s u i pc → HasSync s u j pc' → pc.Live → pc'.Live → i = j
  held : ∀ i pc, HasSync s u i pc → pc.InLoop → (s.cell u).stillRunning = true

theorem not_hasSync_fresh (pm : PodManager) (u : PodUID) (i : ℕ) (pc : SyncPc) :
    ¬ HasSync { podManager := pm } u i pc := by
  rintro ⟨pod,h⟩
  cases h

theorem slotHeld_fresh (pm : PodManager) (u : PodUID) : SlotHeld u { podManager := pm } where
  unique i _ pc _ h _ _ _ := (not_hasSync_fresh pm u i pc h).elim
  held i pc h _ := (not_hasSync_fresh pm u i pc h).elim

/-- With the slot free and nobody before the second removal, no task is live. -/
theorem SlotHeld.idle {u : PodUID} {s : ManagerState} (h : SlotHeld u s)
    (hidle : (s.cell u).stillRunning = false) (hapart : ∀ i, ¬ HasSync s u i .trailing)
    {i : ℕ} {pc : SyncPc} (hi : HasSync s u i pc) : ¬ pc.Live := by
  intro hlive
  rcases hlive.inLoop_or with hin | rfl
  · have := h.held i pc hi hin
    rw [hidle] at this
    cases this
  · exact hapart i hi

theorem SlotHeld.of_frame {u : PodUID} {s t : ManagerState} (h : SlotHeld u s)
    (hslot : (t.cell u).stillRunning = (s.cell u).stillRunning)
    (hsync : ∀ i pc, HasSync t u i pc ↔ HasSync s u i pc) : SlotHeld u t := by
  constructor
  · intro i j pc pc' hi hj
    exact h.unique i j pc pc' ((hsync i pc).mp hi) ((hsync j pc').mp hj)
  · intro i pc hi hin
    rw [hslot]
    exact h.held i pc ((hsync i pc).mp hi) hin

/-- Moving a live task keeps the others dead. -/
theorem SlotHeld.of_move {u : PodUID} {s t : ManagerState} {i : ℕ} {pc pc' : SyncPc}
    (h : SlotHeld u s) (hi : HasSync s u i pc) (hlive : pc.Live)
    (hslot : pc'.InLoop → pc.InLoop ∧ (t.cell u).stillRunning = (s.cell u).stillRunning)
    (hsync : ∀ j q, HasSync t u j q ↔ (j = i ∧ q = pc') ∨ (j ≠ i ∧ HasSync s u j q)) :
    SlotHeld u t := by
  have honly : ∀ j q, HasSync t u j q → q.Live → j = i := by
    intro j q hj hq
    rcases (hsync j q).mp hj with ⟨rfl,-⟩ | ⟨-,hold⟩
    · rfl
    · exact h.unique j i q pc hold hi hq hlive
  constructor
  · intro j k q q' hj hk hq hq'
    rw [honly j q hj hq,honly k q' hk hq']
  · intro j q hj hin
    obtain rfl : j = i := honly j q hj hin.live
    rcases (hsync j q).mp hj with ⟨-,rfl⟩ | ⟨hne,-⟩
    · obtain ⟨hpc,hrun⟩ := hslot hin
      rw [hrun]
      exact h.held j pc hi hpc
    · exact (hne rfl).elim

theorem slotHeld_step {u : PodUID} {s t : ManagerState} {a : ManagerAction}
    (h : SlotHeld u s) (hst : Guarded SpawnsApart (ofStep ManagerState.step) s a t) :
    SlotHeld u t := by
  obtain ⟨hok,hst⟩ := hst
  rcases step_view hst u with ⟨-,hcell,hsync⟩ | ⟨pod,n,ha,hu,hidle,hcell,-,hsync⟩ |
    ⟨pod,-,-,hrun,hcell,hsync⟩ | ⟨i,pod,pc,c,pod',pc',-,hi,hrun,hcell,hsync⟩ |
    ⟨i,held,result,st,-,hi,hcell,hsync⟩ | ⟨-,hcell,hsync⟩
  · exact h.of_frame (by rw [hcell]) hsync
  · subst hu
    have hdead : ∀ i pc, HasSync s pod.uid i pc → ¬ pc.Live :=
      fun i pc hi => h.idle hidle (hok pod ha hidle) hi
    have honly : ∀ i pc, HasSync t pod.uid i pc → pc.Live → i = n := by
      intro i pc hi hlive
      rcases (hsync i pc).mp hi with ⟨rfl,-⟩ | hold
      · rfl
      · exact (hdead i pc hold hlive).elim
    constructor
    · intro i j pc pc' hi hj hpc hpc'
      rw [honly i pc hi hpc,honly j pc' hj hpc']
    · intro i pc _ _
      rw [hcell]
      rfl
  · refine h.of_frame ?_ hsync
    rw [hcell,hrun]
    cases hs : (s.cell u).slot with
    | none => simp [PodCell.stillRunning,hs] at hrun
    | some sl => simpa [PodCell.stillRunning,hs] using hrun
  · refine h.of_move hi (runSync_live hrun) ?_ hsync
    intro hin
    obtain ⟨hpc,hkept,-⟩ := runSync_inLoop hrun hin
    exact ⟨hpc,by rw [hcell,hkept]⟩
  · exact h.of_move hi trivial (fun _ => ⟨trivial,by rw [hcell]⟩) hsync
  · exact h.of_frame (by rw [hcell]; rfl) hsync

theorem slotHeld_runs {pm : PodManager} {w : List ManagerAction} {t : ManagerState}
    (hr : Runs (Guarded SpawnsApart (ofStep ManagerState.step)) { podManager := pm } w t)
    (u : PodUID) : SlotHeld u t :=
  hr.invariant (fun _ _ _ => slotHeld_step) (slotHeld_fresh pm u)

/-- Runs in which no call spawns between the two removals sync every pod exclusively. -/
theorem syncExclusive_of_spawnsApart (pm : PodManager) (w : List ManagerAction) (t : ManagerState)
    (hr : Runs (Guarded SpawnsApart (ofStep ManagerState.step)) { podManager := pm } w t) :
    SyncExclusive t ∧ PassesExclusive t := by
  have hexcl : SyncExclusive t := fun u => (slotHeld_runs hr u).unique
  exact ⟨hexcl,hexcl.passes⟩

/-- A pod used in sample runs. -/
def webPod : PodSpec := { uid := ⟨"uid-a"⟩, podRef := ⟨"default","web"⟩ }

/-- Two calls one after the other: the second finds the slot held and coalesces. -/
theorem syncExclusive_of_burst :
    ∃ t, exec ManagerState.step {} [.syncPod webPod,.run 0,.syncPod webPod] = some t ∧
      SyncExclusive t ∧ PassesExclusive t := by
  refine ⟨_,rfl,syncExclusive_of_spawnsApart {} [.syncPod webPod,.run 0,.syncPod webPod] _ ?_⟩
  refine .cons ⟨?_,rfl⟩ (.cons ⟨?_,rfl⟩ (.cons ⟨?_,rfl⟩ (.nil _)))
  · intro pod _ _ i
    exact not_hasSync_fresh {} _ i _
  · intro pod ha
    cases ha
  · intro pod ha hidle
    obtain rfl := ManagerAction.syncPod.inj ha
    cases hidle

/-- The first task stands between its two removals while the second call spawns. -/
def overlapRun : List ManagerAction :=
  [.syncPod webPod,.run 0,.passReturns 0 (.failed "image pull") {},.run 0,.run 0,
    .syncPod webPod,.run 1,.run 0,.syncPod webPod,.run 2]

theorem not_passesExclusive : ¬ ∀ (pm : PodManager) (w : List ManagerAction) (t : ManagerState),
    Runs (ofStep ManagerState.step) { podManager := pm } w t → PassesExclusive t := by
  intro h
  obtain ⟨t,ht⟩ : ∃ t, exec ManagerState.step {} overlapRun = some t := ⟨_,rfl⟩
  have hone : HasSync t webPod.uid 1 (.syncing {}) := by
    cases ht
    exact ⟨webPod,rfl⟩
  have htwo : HasSync t webPod.uid 2 (.syncing {}) := by
    cases ht
    exact ⟨webPod,rfl⟩
  have := h {} overlapRun t (runs_of_exec ht) webPod.uid 1 2 _ _ hone htwo
  omega

/-- A call that spawns between the two removals at once leaves two live tasks. -/
theorem not_syncExclusive_of_spawn {s t : ManagerState} {a : ManagerAction}
    (hst : s.step a = some t) (hbad : ¬ SpawnsApart s a) : ¬ SyncExclusive t := by
  unfold SpawnsApart at hbad
  push Not at hbad
  obtain ⟨pod,rfl,hidle,i,htrail⟩ := hbad
  intro hexcl
  rcases step_view hst pod.uid with ⟨hother,-,-⟩ | ⟨pod',n,-,hu,-,-,hnew,hsync⟩ |
    ⟨pod',-,-,hrun,-,-⟩ | ⟨_,_,_,_,_,_,ha,-⟩ | ⟨_,_,_,_,ha,-⟩ | ⟨hother,-,-⟩
  · exact hother pod rfl rfl
  · have hi := (hsync i .trailing).mpr (.inr htrail)
    have hn := (hsync n .takeState).mpr (.inl ⟨rfl,rfl⟩)
    obtain rfl := hexcl pod.uid i n _ _ hi hn trivial trivial
    exact hnew _ htrail
  · rw [hidle] at hrun
    cases hrun
  · cases ha
  · cases ha
  · exact hother pod rfl rfl

end KubeAir.Manager
