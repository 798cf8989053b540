import KubeAir.Manager.SyncExclusion

/-! # Sync triggers

A call either spawns a task or leaves its trigger in the pending flag. The flag is
lost when it is set for a task that stands behind its loop, because that task clears
the slot without reading it. Every other call of a pod that stays desired is
followed by a pass.
-/
namespace KubeAir.Manager
open Core Worker Transition

/-- The step in which a task takes the runtime state and enters `worker.sync_pod`. -/
def PassBegins (u : PodUID) (s : ManagerState) (a : ManagerAction) : Prop :=
  ∃ i, a = .run i ∧ HasSync s u i .takeState

def passBegins (u : PodUID) (s : ManagerState) : ManagerAction → Bool
  | .run i => s.tasks[i]?.any (fun
    | .sync v _ .takeState => v = u
    | _ => false)
  | _ => false

theorem passBegins_iff {u : PodUID} {s : ManagerState} {a : ManagerAction} :
    passBegins u s a = true ↔ PassBegins u s a := by
  constructor
  · intro h
    cases a with
    | run i =>
      simp only [passBegins,Option.any_eq_true] at h
      obtain ⟨task,hi,htask⟩ := h
      split at htask
      · next v pod =>
        obtain rfl : v = u := of_decide_eq_true htask
        exact ⟨i,rfl,pod,hi⟩
      · cases htask
    | _ => cases h
  · rintro ⟨i,rfl,pod,hi⟩
    simp [passBegins,hi]

instance (u : PodUID) (s : ManagerState) (a : ManagerAction) : Decidable (PassBegins u s a) :=
  decidable_of_iff _ passBegins_iff

/-- A pass is still due: a task is on its way to the head of the loop, or the pending
flag is set and read before any task clears the slot. -/
def TriggerOwed (u : PodUID) (s : ManagerState) : Prop :=
  (∃ i pc, HasSync s u i pc ∧ pc.WillPass) ∨
    ((s.cell u).isPending = true ∧ (∃ i pc, HasSync s u i pc ∧ pc.InLoop) ∧
      ∀ i, ¬ HasSync s u i .trailing)

/-- The call does not leave its trigger with a task that has left its loop. -/
def CoalescesInLoop (s : ManagerState) (a : ManagerAction) : Prop :=
  ∀ pod, a = .syncPod pod → (s.cell pod.uid).stillRunning = true →
    (∀ i, ¬ HasSync s pod.uid i .trailing) ∨ ∃ i pc, HasSync s pod.uid i pc ∧ pc.WillPass

/-- The UID is in the desired set when the step is taken. -/
def Desired (u : PodUID) (s : ManagerState) (_ : ManagerAction) : Prop :=
  (s.podManager.get u).isSome = true

theorem SyncPc.WillPass.inLoop {pc : SyncPc} (h : pc.WillPass) : pc.InLoop := by
  cases pc with
  | trailing => exact h
  | exited => exact h
  | _ => trivial

/-- An obligation is only ever held by a live task. -/
theorem TriggerOwed.live {u : PodUID} {s : ManagerState} (h : TriggerOwed u s) :
    ∃ i pc, HasSync s u i pc ∧ pc.Live := by
  rcases h with ⟨i,pc,hi,hpc⟩ | ⟨-,⟨i,pc,hi,hpc⟩,-⟩
  · exact ⟨i,pc,hi,hpc.inLoop.live⟩
  · exact ⟨i,pc,hi,hpc.live⟩

/-- A held slot belongs to somebody. -/
def SlotOwned (u : PodUID) (s : ManagerState) : Prop :=
  (s.cell u).stillRunning = true → ∃ i pc, HasSync s u i pc ∧ pc.Live

theorem SlotOwned.step {u : PodUID} {s t : ManagerState} {a : ManagerAction}
    (h : SlotOwned u s) (hst : ofStep ManagerState.step s a t) : SlotOwned u t := by
  intro hrun
  rcases step_view hst u with ⟨-,hcell,hsync⟩ | ⟨pod,n,-,-,-,-,-,hsync⟩ |
    ⟨pod,-,-,hold,hcell,hsync⟩ | ⟨i,pod,pc,c,pod',pc',-,hi,hstep,hcell,hsync⟩ |
    ⟨i,held,result,st,-,hi,hcell,hsync⟩ | ⟨-,hcell,hsync⟩
  · obtain ⟨i,pc,hi,hpc⟩ := h (by rwa [hcell] at hrun)
    exact ⟨i,pc,(hsync i pc).mpr hi,hpc⟩
  · exact ⟨n,.takeState,(hsync n .takeState).mpr (.inl ⟨rfl,rfl⟩),trivial⟩
  · obtain ⟨i,pc,hi,hpc⟩ := h hold
    exact ⟨i,pc,(hsync i pc).mpr hi,hpc⟩
  · by_cases hlive : pc'.Live
    · exact ⟨i,pc',(hsync i pc').mpr (.inl ⟨rfl,rfl⟩),hlive⟩
    · obtain ⟨-,rfl⟩ := runSync_exited hstep hlive
      rw [hcell] at hrun
      cases hrun
  · exact ⟨i,_,(hsync i _).mpr (.inl ⟨rfl,rfl⟩),trivial⟩
  · obtain ⟨i,pc,hi,hpc⟩ := h (by rwa [hcell] at hrun)
    exact ⟨i,pc,(hsync i pc).mpr hi,hpc⟩

theorem slotOwned_runs {pm : PodManager} {w : List ManagerAction} {t : ManagerState}
    (hr : Runs (ofStep ManagerState.step) { podManager := pm } w t) (u : PodUID) : SlotOwned u t := by
  refine hr.invariant (fun _ _ _ h => h.step) ?_
  intro hrun
  cases hrun

/-- A call that meets the condition leaves a pass due. -/
theorem triggerOwed_of_call {s t : ManagerState} {pod : PodSpec} (howned : SlotOwned pod.uid s)
    (hok : CoalescesInLoop s (.syncPod pod)) (hst : s.step (.syncPod pod) = some t) :
    TriggerOwed pod.uid t := by
  rcases step_view hst pod.uid with ⟨hother,-,-⟩ | ⟨_,n,-,-,-,-,-,hsync⟩ |
    ⟨_,-,-,hrun,hcell,hsync⟩ | ⟨_,_,_,_,_,_,ha,-⟩ | ⟨_,_,_,_,ha,-⟩ | ⟨hother,-,-⟩
  · exact (hother pod rfl rfl).elim
  · exact .inl ⟨n,.takeState,(hsync n .takeState).mpr (.inl ⟨rfl,rfl⟩),trivial⟩
  · rcases hok pod rfl hrun with hapart | ⟨i,pc,hi,hpc⟩
    · obtain ⟨i,pc,hi,hlive⟩ := howned hrun
      have hin : pc.InLoop := by
        rcases hlive.inLoop_or with hin | rfl
        · exact hin
        · exact (hapart i hi).elim
      refine .inr ⟨by rw [hcell]; rfl,⟨i,pc,(hsync i pc).mpr hi,hin⟩,?_⟩
      intro j hj
      exact hapart j ((hsync j .trailing).mp hj)
    · exact .inl ⟨i,pc,(hsync i pc).mpr hi,hpc⟩
  · cases ha
  · cases ha
  · exact (hother pod rfl rfl).elim

/-- A task on its way to the head of the loop gets there. -/
theorem willPass_step {u : PodUID} {s t : ManagerState} {a : ManagerAction}
    (h : ∃ i pc, HasSync s u i pc ∧ pc.WillPass) (hst : s.step a = some t) :
    PassBegins u s a ∨ ∃ i pc, HasSync t u i pc ∧ pc.WillPass := by
  obtain ⟨k,q,hk,hq⟩ := h
  rcases step_view hst u with ⟨-,-,hsync⟩ | ⟨_,_,-,-,-,-,-,hsync⟩ |
    ⟨_,-,-,-,-,hsync⟩ | ⟨i,pod,pc,c,pod',pc',ha,hi,hstep,-,hsync⟩ |
    ⟨i,held,result,st,-,hi,-,hsync⟩ | ⟨-,-,hsync⟩
  · exact .inr ⟨k,q,(hsync k q).mpr hk,hq⟩
  · exact .inr ⟨k,q,(hsync k q).mpr (.inr hk),hq⟩
  · exact .inr ⟨k,q,(hsync k q).mpr hk,hq⟩
  · by_cases hki : k = i
    · subst hki
      obtain rfl := hk.pc_eq hi
      rcases runSync_willPass hstep hq with rfl | hq'
      · exact .inl ⟨k,ha,hi⟩
      · exact .inr ⟨k,pc',(hsync k pc').mpr (.inl ⟨rfl,rfl⟩),hq'⟩
    · exact .inr ⟨k,q,(hsync k q).mpr (.inr ⟨hki,hk⟩),hq⟩
  · have hki : k ≠ i := by
      rintro rfl
      obtain rfl := hk.pc_eq hi
      exact hq
    exact .inr ⟨k,q,(hsync k q).mpr (.inr ⟨hki,hk⟩),hq⟩
  · exact .inr ⟨k,q,(hsync k q).mpr hk,hq⟩

/-- The due pass of a desired pod begins, or stays due. -/
theorem triggerOwed_step {u : PodUID} {s t : ManagerState} {a : ManagerAction}
    (h : TriggerOwed u s) (hst : Guarded (Desired u) (ofStep ManagerState.step) s a t) :
    PassBegins u s a ∨ TriggerOwed u t := by
  obtain ⟨hdes,hst⟩ := hst
  rcases h with hwill | ⟨hpend,⟨k,q,hk,hq⟩,hapart⟩
  · exact (willPass_step hwill hst).imp id .inl
  rcases step_view hst u with ⟨-,hcell,hsync⟩ | ⟨pod,n,-,-,-,-,-,hsync⟩ |
    ⟨pod,-,-,-,hcell,hsync⟩ | ⟨i,pod,pc,c,pod',pc',-,hi,hstep,hcell,hsync⟩ |
    ⟨i,held,result,st,-,hi,hcell,hsync⟩ | ⟨-,hcell,hsync⟩
  · refine .inr (.inr ⟨by rwa [hcell],⟨k,q,(hsync k q).mpr hk,hq⟩,?_⟩)
    intro j hj
    exact hapart j ((hsync j _).mp hj)
  · exact .inr (.inl ⟨n,.takeState,(hsync n .takeState).mpr (.inl ⟨rfl,rfl⟩),trivial⟩)
  · refine .inr (.inr ⟨by rw [hcell]; rfl,⟨k,q,(hsync k q).mpr hk,hq⟩,?_⟩)
    intro j hj
    exact hapart j ((hsync j _).mp hj)
  · have hlive : pc'.Live := by
      by_contra hdead
      obtain ⟨rfl,-⟩ := runSync_exited hstep hdead
      exact hapart i hi
    rcases hlive.inLoop_or with hin | rfl
    · obtain ⟨-,-,hkept | ⟨-,rfl⟩⟩ := runSync_inLoop hstep hin
      · refine .inr (.inr ⟨by rw [hcell,hkept,hpend],⟨i,pc',(hsync i pc').mpr (.inl ⟨rfl,rfl⟩),hin⟩,?_⟩)
        intro j hj
        rcases (hsync j _).mp hj with ⟨-,rfl⟩ | ⟨-,hold⟩
        · exact hin
        · exact hapart j hold
      · exact .inr (.inl ⟨i,.takeState,(hsync i _).mpr (.inl ⟨rfl,rfl⟩),trivial⟩)
    · -- leaving the loop over a set flag would need the pod to be gone
      obtain ⟨-,hcheck⟩ := runSync_trailing hstep
      have hgone := (checkPending_none hcheck).2.2.2 hpend
      simp only [Desired,hgone] at hdes
      cases hdes
  · refine .inr (.inr ⟨by rwa [hcell],⟨i,_,(hsync i _).mpr (.inl ⟨rfl,rfl⟩),trivial⟩,?_⟩)
    intro j hj
    rcases (hsync j _).mp hj with ⟨-,heq⟩ | ⟨-,hold⟩
    · cases heq
    · exact hapart j hold
  · refine .inr (.inr ⟨by rw [hcell]; exact hpend,⟨k,q,(hsync k q).mpr hk,hq⟩,?_⟩)
    intro j hj
    exact hapart j ((hsync j _).mp hj)

/-- After a call that meets the condition, and while the pod stays desired, a pass has
begun or is still due; in particular no quiescent state is reached without a pass. -/
theorem trigger_not_lost (pm : PodManager) (v w : List ManagerAction) (s s' t : ManagerState)
    (pod : PodSpec) (hv : Runs (ofStep ManagerState.step) { podManager := pm } v s)
    (hcall : Guarded CoalescesInLoop (ofStep ManagerState.step) s (.syncPod pod) s')
    (hw : Runs (Guarded (Desired pod.uid) (ofStep ManagerState.step)) s' w t) :
    (Happens (ofStep ManagerState.step) (PassBegins pod.uid) s' w t ∨ TriggerOwed pod.uid t) ∧
      ((∀ i pc, HasSync t pod.uid i pc → ¬ pc.Live) →
        Happens (ofStep ManagerState.step) (PassBegins pod.uid) s' w t) := by
  have howed := triggerOwed_of_call (slotOwned_runs hv pod.uid) hcall.1 hcall.2
  have hmet : Happens (ofStep ManagerState.step) (PassBegins pod.uid) s' w t ∨ TriggerOwed pod.uid t := by
    refine (hw.happens_or (P := fun _ => True) (fun _ _ => trivial) ?_ howed).imp
      (Happens.mono (fun _ _ _ h => h.2)) id
    intro s a t _ hs hst
    exact triggerOwed_step hs hst
  refine ⟨hmet,?_⟩
  intro hquiet
  rcases hmet with hpass | howed
  · exact hpass
  · obtain ⟨i,pc,hi,hpc⟩ := howed.live
    exact (hquiet i pc hi hpc).elim

/-- A call that coalesces with a running pass is answered by a trailing sync. -/
theorem trigger_not_lost_of_burst :
    ∃ s s' t, exec ManagerState.step {} [.upsert webPod 0,.syncPod webPod,.run 0] = some s ∧
      s.step (.syncPod webPod) = some s' ∧
      exec ManagerState.step s' [.passReturns 0 .synced {},.run 0,.run 0,.run 0,.run 0] = some t ∧
      (Happens (ofStep ManagerState.step) (PassBegins webPod.uid) s'
          [.passReturns 0 .synced {},.run 0,.run 0,.run 0,.run 0] t ∨
        TriggerOwed webPod.uid t) := by
  refine ⟨_,_,_,rfl,rfl,rfl,(trigger_not_lost {} [.upsert webPod 0,.syncPod webPod,.run 0] _ _ _ _
    webPod (runs_of_exec rfl) ⟨?_,rfl⟩ ?_).1⟩
  · intro pod ha _
    obtain rfl := ManagerAction.syncPod.inj ha
    refine .inl ?_
    intro i hi
    have hmem := hi.mem_syncPcs
    cases hmem with
    | tail _ hmem => cases hmem
  · refine .cons ⟨rfl,rfl⟩ (.cons ⟨rfl,rfl⟩ (.cons ⟨rfl,rfl⟩ (.cons ⟨rfl,rfl⟩ (.cons ⟨rfl,rfl⟩ (.nil _)))))

/-- The first task stands behind its loop when the last call sets the flag. -/
def lostTriggerPrefix : List ManagerAction :=
  [.upsert webPod 0,.syncPod webPod,.run 0,.passReturns 0 (.failed "image pull") {},.run 0,.run 0,
    .syncPod webPod,.run 1]

def lostTriggerSuffix : List ManagerAction :=
  [.run 0,.passReturns 1 (.failed "image pull") {},.run 1,.run 1,.run 1]

theorem trigger_lost : ¬ ∀ (pm : PodManager) (v w : List ManagerAction) (s s' t : ManagerState)
    (pod : PodSpec), Runs (ofStep ManagerState.step) { podManager := pm } v s →
    ofStep ManagerState.step s (.syncPod pod) s' →
    Runs (Guarded (Desired pod.uid) (ofStep ManagerState.step)) s' w t →
    Happens (ofStep ManagerState.step) (PassBegins pod.uid) s' w t ∨
      ∃ i pc, HasSync t pod.uid i pc ∧ pc.Live := by
  intro h
  obtain ⟨s,hs⟩ : ∃ s, exec ManagerState.step {} lostTriggerPrefix = some s := ⟨_,rfl⟩
  obtain ⟨s',hs'⟩ : ∃ s', s.step (.syncPod webPod) = some s' := ⟨_,rfl⟩
  obtain ⟨t,ht⟩ : ∃ t, exec ManagerState.step s' lostTriggerSuffix = some t := by
    cases hs
    cases hs'
    exact ⟨_,rfl⟩
  have hw : Runs (Guarded (Desired webPod.uid) (ofStep ManagerState.step)) s' lostTriggerSuffix t := by
    cases hs
    cases hs'
    cases ht
    exact .cons ⟨rfl,rfl⟩ (.cons ⟨rfl,rfl⟩ (.cons ⟨rfl,rfl⟩ (.cons ⟨rfl,rfl⟩ (.cons ⟨rfl,rfl⟩ (.nil _)))))
  rcases h {} _ _ s s' t webPod (runs_of_exec hs) hs' hw with hpass | ⟨i,pc,hi,hpc⟩
  · have hmarked := hpass.marked
    cases hs
    cases hs'
    cases hmarked
  · have hmem := hi.mem_syncPcs
    cases hs
    cases hs'
    cases ht
    rcases hmem with - | ⟨-,- | ⟨-,hmem⟩⟩
    · exact hpc
    · exact hpc
    · cases hmem

end KubeAir.Manager
