import KubeAir.Manager.HostPort
import KubeAir.Transition.Runs

/-! # Host-port admission over whole runs

The pod manager, the queue of its events, and the runtime loop that handles them, in
any order. Two fields record the history: the spec with which a pod was last passed to
`sync_pod`, until it is removed, and the order in which the pods arrived.
-/
namespace KubeAir.Manager
open Core Transition

structure AdmissionState where
  podManager : PodManager := {}
  admitted : HashMap PodUID PodSpec := ∅
  arrivals : HashMap PodUID ℕ := ∅
  clock : ℕ := 0

inductive AdmissionAction
  | upsert (pod : PodSpec) (now : DateTime)
  | remove (uid : PodUID) (fallback : Option PodSpec) (now : Instant)
  /-- `PodManager::reconcile_all` -/
  | reconcileAll
  /-- a worker stores the status of a pod -/
  | report (uid : PodUID) (state : PodLifecycleState)
  /-- `handle_update` takes event `i` of the queue -/
  | handle (i : ℕ) (now : DateTime)

namespace AdmissionState

def queue (s : AdmissionState) : List PodUpdate := s.podManager.updateTx.queue

def withQueue (m : PodManager) (queue : List PodUpdate) : PodManager :=
  { m with updateTx := { m.updateTx with queue := queue } }

def isTerminal (s : AdmissionState) (u : PodUID) : Bool := isTerminalStatus s.podManager u

def arrival (s : AdmissionState) (u : PodUID) : ℕ := (s.arrivals.lookup u).getD 0

def upsert (s : AdmissionState) (pod : PodSpec) (now : DateTime) : AdmissionState :=
  let pm := (s.podManager.upsert pod now).2
  if (s.podManager.get pod.uid).isNone && (pm.get pod.uid).isSome then
    { s with podManager := pm, arrivals := s.arrivals.insert pod.uid s.clock, clock := s.clock + 1 }
  else { s with podManager := pm }

/-- `RuntimeManager::handle_update`, up to the call of `sync_pod` or `delete_pod`. -/
def handleUpdate (s : AdmissionState) (update : PodUpdate) (now : DateTime) : AdmissionState :=
  match update.op with
  | .remove => s
  | _ =>
    match checkHostPortConflict s.podManager update.pod with
    | some message => { s with podManager := rejectPodAdmission s.podManager update.pod message now }
    | none =>
      if (s.podManager.get update.pod.uid).isSome then
        { s with admitted := s.admitted.insert update.pod.uid update.pod }
      else s

def step (s : AdmissionState) : AdmissionAction → Option AdmissionState
  | .upsert pod now => some (s.upsert pod now)
  | .remove uid fallback now =>
    some { s with
      podManager := (s.podManager.remove uid fallback now).2
      admitted := s.admitted.erase uid }
  | .reconcileAll =>
    some { s with podManager := withQueue s.podManager (s.queue ++ s.podManager.reconcileEvents) }
  | .report uid state =>
    some { s with podManager := { s.podManager with status := s.podManager.status.set uid state } }
  | .handle i now =>
    s.queue[i]?.map (fun update =>
      { s with podManager := withQueue s.podManager (s.queue.eraseIdx i) }.handleUpdate update now)

end AdmissionState

/-- No two admitted pods that are neither removed nor terminal share a host port. -/
def HostPortsDisjoint (s : AdmissionState) : Prop :=
  ∀ u v p q, u ≠ v → s.admitted.lookup u = some p → s.admitted.lookup v = some q →
    s.isTerminal u = false → s.isTerminal v = false → hostPortClash p q = false

/-- The step rejects an admitted pod over a pod that arrived after it. -/
def RejectsForLater (s : AdmissionState) (a : AdmissionAction) : Prop :=
  ∃ i now update existing port, a = .handle i now ∧ s.queue[i]? = some update ∧ update.op ≠ .remove ∧
    (s.admitted.lookup update.pod.uid).isSome = true ∧
    firstHostPortConflict s.podManager update.pod = some (existing,port) ∧
    s.arrival update.pod.uid < s.arrival existing.uid

/-- The steps that keep admission sound. -/
structure AdmissionOrdered (s : AdmissionState) (a : AdmissionAction) : Prop where
  /-- a pod that was terminal comes back only if its ports are still its own -/
  revives : ∀ u state p v q, a = .report u state → s.isTerminal u = true → s.admitted.lookup u = some p →
    s.admitted.lookup v = some q → u ≠ v → s.isTerminal v = false → hostPortClash p q = false
  /-- no later pod that is not terminal clashes with an admitted pod whose event is handled -/
  rechecks : ∀ i now update existing, a = .handle i now → s.queue[i]? = some update → update.op ≠ .remove →
    (s.admitted.lookup update.pod.uid).isSome = true → s.podManager.get existing.uid = some existing →
    s.isTerminal existing.uid = false → hostPortClash update.pod existing = true →
    s.arrival existing.uid ≤ s.arrival update.pod.uid
  /-- an admitted pod that clashes with the handled spec still does so with its stored spec -/
  restates : ∀ i now update v q, a = .handle i now → s.queue[i]? = some update → update.op ≠ .remove →
    s.isTerminal update.pod.uid = false → s.admitted.lookup v = some q → update.pod.uid ≠ v →
    s.isTerminal v = false → hostPortClash update.pod q = true →
    ∃ existing, s.podManager.get v = some existing ∧ hostPortClash update.pod existing = true

/-- Admitted pods are desired, and those that are not terminal share no host port. -/
structure AdmissionInv (s : AdmissionState) : Prop where
  desired : ∀ u p, s.admitted.lookup u = some p → (s.podManager.get u).isSome = true
  disjoint : HostPortsDisjoint s

theorem admissionInv_initial : AdmissionInv {} := by
  constructor
  · intro u p h
    cases h
  · intro u v p q _ h
    cases h

theorem isTerminalStatus_congr {m m' : PodManager} {u : PodUID} (h : m'.status.get u = m.status.get u) :
    isTerminalStatus m' u = isTerminalStatus m u := by
  unfold isTerminalStatus
  rw [h]

section Steps
variable {s t : AdmissionState}

/-- A change that keeps the desired set over the admitted pods, admits none and wakes none. -/
theorem AdmissionInv.of_frame (h : AdmissionInv s)
    (hget : ∀ u p, t.admitted.lookup u = some p → (s.podManager.get u).isSome = true →
      (t.podManager.get u).isSome = true)
    (hadm : ∀ u p, t.admitted.lookup u = some p → s.admitted.lookup u = some p)
    (hterm : ∀ u p, t.admitted.lookup u = some p → t.isTerminal u = false → s.isTerminal u = false) :
    AdmissionInv t := by
  constructor
  · intro u p hp
    exact hget u p hp (h.desired u p (hadm u p hp))
  · intro u v p q huv hp hq hu hv
    exact h.disjoint u v p q huv (hadm u p hp) (hadm v q hq) (hterm u p hp hu) (hterm v q hq hv)

theorem admissionInv_upsert (h : AdmissionInv s) (pod : PodSpec) (now : DateTime) :
    AdmissionInv (s.upsert pod now) := by
  have hadm : (s.upsert pod now).admitted = s.admitted := by
    unfold AdmissionState.upsert
    dsimp only
    split <;> rfl
  have hpm : (s.upsert pod now).podManager = (s.podManager.upsert pod now).2 := by
    unfold AdmissionState.upsert
    dsimp only
    split <;> rfl
  refine h.of_frame ?_ (by simp [hadm]) ?_
  · intro u p _ hu
    rw [hpm,PodManager.isSome_get_upsert]
    exact .inr hu
  · intro u p hp hterm
    rw [hadm] at hp
    unfold AdmissionState.isTerminal at hterm ⊢
    rw [hpm] at hterm
    rwa [isTerminalStatus_congr (s.podManager.status_upsert pod u now (h.desired u p hp))] at hterm

theorem admissionInv_remove (h : AdmissionInv s) (uid : PodUID) (fallback : Option PodSpec) (now : Instant) :
    AdmissionInv { s with
      podManager := (s.podManager.remove uid fallback now).2
      admitted := s.admitted.erase uid } := by
  have hne : ∀ u p, (s.admitted.erase uid).lookup u = some p → u ≠ uid := by
    rintro u p hp rfl
    rw [AList.lookup_erase] at hp
    cases hp
  refine h.of_frame ?_ ?_ ?_
  · intro u p hp hu
    rw [PodManager.get_remove,if_neg (hne u p hp)]
    exact hu
  · intro u p hp
    rwa [AList.lookup_erase_ne (hne u p hp)] at hp
  · intro u p _ hterm
    have hstatus := s.podManager.status_remove fallback uid now
    exact (isTerminalStatus_congr (by rw [hstatus])).symm.trans hterm

theorem isTerminalStatus_set (m : PodManager) (u uid : PodUID) (state : PodLifecycleState) :
    isTerminalStatus { m with status := m.status.set uid state } u =
      if u = uid then state.phase == .failed || state.phase == .succeeded else isTerminalStatus m u := by
  unfold isTerminalStatus
  by_cases hu : u = uid
  · subst hu
    simp
  · rw [if_neg hu]
    dsimp only
    rw [PodStatusManager.get_set_ne _ hu]

theorem admissionInv_report (h : AdmissionInv s) {uid : PodUID} {state : PodLifecycleState}
    (hok : AdmissionOrdered s (.report uid state)) :
    AdmissionInv { s with
      podManager := { s.podManager with status := s.podManager.status.set uid state } } := by
  constructor
  · intro u p hp
    exact h.desired u p hp
  · intro u v p q huv hp hq hu hv
    unfold AdmissionState.isTerminal at hu hv
    rw [isTerminalStatus_set] at hu hv
    by_cases hui : u = uid
    · subst hui
      rw [if_neg huv.symm] at hv
      cases hold : s.isTerminal u with
      | true => exact hok.revives u state p v q rfl hold hp hq huv hv
      | false => exact h.disjoint u v p q huv hp hq hold hv
    · rw [if_neg hui] at hu
      by_cases hvi : v = uid
      · subst hvi
        cases hold : s.isTerminal v with
        | true =>
          rw [hostPortClash_comm]
          exact hok.revives v state q u p rfl hold hq hp huv.symm hu
        | false => exact h.disjoint u v p q huv hp hq hu hold
      · rw [if_neg hvi] at hv
        exact h.disjoint u v p q huv hp hq hu hv

/-- Rejecting a pod puts it into a terminal phase. -/
theorem isTerminalStatus_reject (m : PodManager) (u : PodUID) (pod : PodSpec) (message : String)
    (now : DateTime) : isTerminalStatus (rejectPodAdmission m pod message now) u =
      if u = pod.uid then true else isTerminalStatus m u := by
  unfold rejectPodAdmission
  rw [isTerminalStatus_set]
  rfl

theorem admissionInv_reject (h : AdmissionInv s) (pod : PodSpec) (message : String) (now : DateTime) :
    AdmissionInv { s with podManager := rejectPodAdmission s.podManager pod message now } := by
  refine h.of_frame (fun _ _ _ hu => hu) (fun _ _ hp => hp) ?_
  intro u p _ hterm
  unfold AdmissionState.isTerminal at hterm ⊢
  rw [isTerminalStatus_reject] at hterm
  split at hterm
  · cases hterm
  · exact hterm

/-- Passing a pod to `sync_pod`: it clashes with no other admitted pod that is not terminal. -/
theorem admissionInv_admit (h : AdmissionInv s) {pod : PodSpec}
    (hdes : (s.podManager.get pod.uid).isSome = true)
    (hclear : s.isTerminal pod.uid = false → ∀ v q, s.admitted.lookup v = some q → pod.uid ≠ v →
      s.isTerminal v = false → hostPortClash pod q = false) :
    AdmissionInv { s with admitted := s.admitted.insert pod.uid pod } := by
  constructor
  · intro u p hp
    by_cases hu : u = pod.uid
    · subst hu
      exact hdes
    · rw [AList.lookup_insert_ne hu] at hp
      exact h.desired u p hp
  · intro u v p q huv hp hq hu hv
    by_cases hup : u = pod.uid
    · subst hup
      rw [AList.lookup_insert] at hp
      rw [AList.lookup_insert_ne huv.symm] at hq
      cases hp
      exact hclear hu v q hq huv hv
    · rw [AList.lookup_insert_ne hup] at hp
      by_cases hvp : v = pod.uid
      · subst hvp
        rw [AList.lookup_insert] at hq
        cases hq
        rw [hostPortClash_comm]
        exact hclear hv u p hp huv.symm hu
      · rw [AList.lookup_insert_ne hvp] at hq
        exact h.disjoint u v p q huv hp hq hu hv

theorem admissionInv_handle (h : AdmissionInv s) {i : ℕ} {now : DateTime} {update : PodUpdate}
    (hi : s.queue[i]? = some update) (hok : AdmissionOrdered s (.handle i now)) :
    AdmissionInv ({ s with
      podManager := AdmissionState.withQueue s.podManager (s.queue.eraseIdx i) }.handleUpdate update now) := by
  have hframe : AdmissionInv { s with
      podManager := AdmissionState.withQueue s.podManager (s.queue.eraseIdx i) } :=
    h.of_frame (fun _ _ _ hu => hu) (fun _ _ hp => hp) (fun _ _ _ hterm => hterm)
  unfold AdmissionState.handleUpdate
  by_cases hop : update.op = .remove
  · rw [hop]
    exact hframe
  cases hcheck : firstHostPortConflict
      (AdmissionState.withQueue s.podManager (s.queue.eraseIdx i)) update.pod with
  | some conflict =>
    have hmsg : checkHostPortConflict (AdmissionState.withQueue s.podManager (s.queue.eraseIdx i)) update.pod =
        some (conflictMessage conflict.1 conflict.2) := by
      unfold checkHostPortConflict
      rw [hcheck]
      rfl
    simp only [hmsg]
    cases hop' : update.op with
    | remove => exact (hop hop').elim
    | _ => exact admissionInv_reject hframe update.pod _ now
  | none =>
    have hmsg : checkHostPortConflict (AdmissionState.withQueue s.podManager (s.queue.eraseIdx i)) update.pod =
        none := by
      unfold checkHostPortConflict
      rw [hcheck]
      rfl
    have hadmit : AdmissionInv (if ((AdmissionState.withQueue s.podManager (s.queue.eraseIdx i)).get
          update.pod.uid).isSome = true then
        { s with
          podManager := AdmissionState.withQueue s.podManager (s.queue.eraseIdx i)
          admitted := s.admitted.insert update.pod.uid update.pod }
        else { s with podManager := AdmissionState.withQueue s.podManager (s.queue.eraseIdx i) }) := by
      split
      · next hdes =>
        refine admissionInv_admit hframe hdes ?_
        intro hterm v q hq hv hvterm
        by_contra hclash
        obtain ⟨existing,hget,hstill⟩ := hok.restates i now update v q rfl hi hop hterm hq hv hvterm
          (by simpa using hclash)
        obtain rfl := s.podManager.keyed v existing hget
        rw [firstHostPortConflict_none hcheck hget hv.symm hvterm] at hstill
        cases hstill
      · exact hframe
    simp only [hmsg]
    cases hop' : update.op with
    | remove => exact (hop hop').elim
    | _ => exact hadmit

theorem admissionInv_step {a : AdmissionAction} (h : AdmissionInv s)
    (hst : Guarded AdmissionOrdered (ofStep AdmissionState.step) s a t) : AdmissionInv t := by
  obtain ⟨hok,hst⟩ := hst
  cases a with
  | upsert pod now => cases hst; exact admissionInv_upsert h pod now
  | remove uid fallback now => cases hst; exact admissionInv_remove h uid fallback now
  | reconcileAll => cases hst; exact h.of_frame (fun _ _ _ hu => hu) (fun _ _ hp => hp) (fun _ _ _ ht => ht)
  | report uid state => cases hst; exact admissionInv_report h hok
  | handle i now =>
    obtain ⟨update,hi,rfl⟩ := Option.map_eq_some_iff.mp hst
    exact admissionInv_handle h hi hok

theorem not_rejectsForLater {a : AdmissionAction} (hok : AdmissionOrdered s a) : ¬ RejectsForLater s a := by
  rintro ⟨i,now,update,existing,port,rfl,hi,hop,hadm,hfirst,hlater⟩
  obtain ⟨hget,-,hterm,hclash⟩ := firstHostPortConflict_some hfirst
  have := hok.rechecks i now update existing rfl hi hop hadm hget hterm hclash
  omega

end Steps

/-- Ordered runs keep the host ports of admitted pods apart and reject no admitted pod
over a later one. -/
theorem hostPorts_admitted_apart (w : List AdmissionAction) (t : AdmissionState)
    (hr : Runs (Guarded AdmissionOrdered (ofStep AdmissionState.step)) {} w t) :
    HostPortsDisjoint t ∧
      Runs (Guarded (fun s a => ¬ RejectsForLater s a) (ofStep AdmissionState.step)) {} w t := by
  constructor
  · exact (hr.invariant (fun _ _ _ => admissionInv_step) admissionInv_initial).disjoint
  · exact hr.mono (fun _ _ _ h => ⟨not_rejectsForLater h.1,h.2⟩)

/-- A pod with one container that binds a host port. -/
def portPod (uid name : String) (port : ℕ) : PodSpec :=
  { uid := ⟨uid⟩
    podRef := ⟨"default",name⟩
    containers := [{ name := "main", ports := [{ containerPort := port, hostPort := some port }] }] }

theorem admissionOrdered_upsert (s : AdmissionState) (pod : PodSpec) (now : DateTime) :
    AdmissionOrdered s (.upsert pod now) := by
  constructor
  · intro u state p v q ha
    cases ha
  · intro i now update existing ha
    cases ha
  · intro i now update v q ha
    cases ha

theorem admissionOrdered_reconcileAll (s : AdmissionState) : AdmissionOrdered s .reconcileAll where
  revives _ _ _ _ _ h := nomatch h
  rechecks _ _ _ _ h := nomatch h
  restates _ _ _ _ _ h := nomatch h

/-- The condition on handling event `i`, by going through the desired and the admitted pods. -/
def handledInOrder (s : AdmissionState) (i : ℕ) : Bool :=
  s.queue[i]?.all fun update => update.op == .remove ||
    ((s.admitted.lookup update.pod.uid).isNone || s.podManager.list.all fun existing =>
      s.isTerminal existing.uid || !hostPortClash update.pod existing ||
        decide (s.arrival existing.uid ≤ s.arrival update.pod.uid)) &&
    (s.isTerminal update.pod.uid || s.admitted.entries.all fun e =>
      decide (update.pod.uid = e.1) || s.isTerminal e.1 || !hostPortClash update.pod e.2 ||
        (s.podManager.get e.1).any (hostPortClash update.pod))

theorem admissionOrdered_handle {s : AdmissionState} {i : ℕ} (h : handledInOrder s i = true) (now : DateTime) :
    AdmissionOrdered s (.handle i now) := by
  have hupdate : ∀ update, s.queue[i]? = some update → update.op ≠ .remove →
      ((s.admitted.lookup update.pod.uid).isNone = true ∨ ∀ existing ∈ s.podManager.list,
        s.isTerminal existing.uid = false → hostPortClash update.pod existing = true →
          s.arrival existing.uid ≤ s.arrival update.pod.uid) ∧
      (s.isTerminal update.pod.uid = false → ∀ e ∈ s.admitted.entries, update.pod.uid ≠ e.1 → s.isTerminal e.1 = false →
        hostPortClash update.pod e.2 = true → (s.podManager.get e.1).any (hostPortClash update.pod) = true) := by
    intro update hi hop
    unfold handledInOrder at h
    simp only [hi,Option.all_some,Bool.or_eq_true,Bool.and_eq_true,beq_iff_eq,List.all_eq_true,Bool.not_eq_true',
      decide_eq_true_eq] at h
    obtain ⟨hchecks,hstates⟩ := h.resolve_left hop
    refine ⟨hchecks.imp_right fun hall existing hex hterm hclash => ?_,fun hterm e he hne hlive hclash => ?_⟩
    · rcases hall existing hex with (hterm' | hapart) | hle
      · simp [hterm] at hterm'
      · simp [hclash] at hapart
      · exact hle
    · rcases hstates with hterm' | hall
      · simp [hterm] at hterm'
      · rcases hall e he with ((heq | hterm') | hapart) | hany
        · exact absurd heq hne
        · simp [hlive] at hterm'
        · simp [hclash] at hapart
        · exact hany
  constructor
  · intro u state p v q ha
    cases ha
  · intro j now' update existing ha hi hop hadm hget hterm hclash
    cases ha
    rcases (hupdate update hi hop).1 with hnone | hall
    · rw [Option.isNone_iff_eq_none.mp hnone] at hadm
      cases hadm
    · exact hall existing ((s.podManager.mem_list existing).mpr hget) hterm hclash
  · intro j now' update v q ha hi hop hterm hv hne hlive hclash
    cases ha
    have hany := (hupdate update hi hop).2 hterm ⟨v,q⟩ (AList.mem_lookup_iff.mp hv) hne hlive hclash
    exact (Option.any_eq_true _ _).mp hany

/-- Two pods that want one port and a third one with its own: the second is rejected as it arrives, and
again when everything is reconciled. -/
def sharedPort : List AdmissionAction :=
  [.upsert (portPod "uid-a" "web" 80) 0,.handle 0 0,.upsert (portPod "uid-b" "proxy" 80) 0,.handle 0 0,
    .upsert (portPod "uid-c" "tls" 443) 0,.handle 0 0,.reconcileAll,.handle 0 0,.handle 0 0,.handle 0 0]

theorem hostPorts_admitted_apart_of_shared :
    ∃ t, exec AdmissionState.step {} sharedPort = some t ∧
      (t.admitted.lookup ⟨"uid-a"⟩).isSome = true ∧ (t.admitted.lookup ⟨"uid-c"⟩).isSome = true ∧
      t.admitted.lookup ⟨"uid-b"⟩ = none ∧ HostPortsDisjoint t ∧
      Runs (Guarded (fun s a => ¬ RejectsForLater s a) (ofStep AdmissionState.step)) {} sharedPort t := by
  obtain ⟨t,ht⟩ : ∃ t, exec AdmissionState.step {} sharedPort = some t := ⟨_,rfl⟩
  have hrun : Runs (Guarded AdmissionOrdered (ofStep AdmissionState.step)) {} sharedPort t := by
    cases ht
    refine .cons ⟨admissionOrdered_upsert _ _ _,rfl⟩ ?_
    refine .cons ⟨admissionOrdered_handle rfl _,rfl⟩ ?_
    refine .cons ⟨admissionOrdered_upsert _ _ _,rfl⟩ ?_
    refine .cons ⟨admissionOrdered_handle rfl _,rfl⟩ ?_
    refine .cons ⟨admissionOrdered_upsert _ _ _,rfl⟩ ?_
    refine .cons ⟨admissionOrdered_handle rfl _,rfl⟩ ?_
    refine .cons ⟨admissionOrdered_reconcileAll _,rfl⟩ ?_
    refine .cons ⟨admissionOrdered_handle rfl _,rfl⟩ ?_
    refine .cons ⟨admissionOrdered_handle rfl _,rfl⟩ ?_
    exact .cons ⟨admissionOrdered_handle rfl _,rfl⟩ (.nil _)
  have hapart := hostPorts_admitted_apart sharedPort t hrun
  cases ht
  exact ⟨_,rfl,rfl,rfl,rfl,hapart⟩

/-- The first pod runs, its reconcile event is queued, and a second pod arrives. -/
def lateArrival : List AdmissionAction :=
  [.upsert (portPod "uid-a" "web" 80) 0,.handle 0 0,.reconcileAll,.upsert (portPod "uid-b" "proxy" 80) 0]

theorem rejected_for_later : ¬ ∀ (w : List AdmissionAction) (t : AdmissionState),
    Runs (ofStep AdmissionState.step) {} w t →
    HostPortsDisjoint t ∧
      Runs (Guarded (fun s a => ¬ RejectsForLater s a) (ofStep AdmissionState.step)) {} w t := by
  intro h
  obtain ⟨t,ht⟩ : ∃ t, exec AdmissionState.step {} (lateArrival ++ [.handle 0 0]) = some t := ⟨_,rfl⟩
  obtain ⟨s,_,hpre,⟨hok,-⟩,-⟩ := (h _ t (runs_of_exec ht)).2.split_step
  have hs := exec_of_runs hpre.of_guarded
  have hqueue : (exec AdmissionState.step {} lateArrival).map (fun s => s.queue[0]?) =
      some (some { pod := portPod "uid-a" "web" 80, op := .reconcile }) := rfl
  have hadmitted : (exec AdmissionState.step {} lateArrival).map
      (fun s => (s.admitted.lookup ⟨"uid-a"⟩).isSome) = some true := rfl
  have hconflict : (exec AdmissionState.step {} lateArrival).map
      (fun s => (firstHostPortConflict s.podManager (portPod "uid-a" "web" 80)).map (fun c => c.1.uid)) =
      some (some ⟨"uid-b"⟩) := rfl
  have harrival : (exec AdmissionState.step {} lateArrival).map
      (fun s => decide (s.arrival ⟨"uid-a"⟩ < s.arrival ⟨"uid-b"⟩)) = some true := rfl
  rw [hs] at hqueue hadmitted hconflict harrival
  obtain ⟨⟨existing,port⟩,hfirst,huid⟩ := Option.map_eq_some_iff.mp (Option.some.inj hconflict)
  refine hok ⟨0,0,_,existing,port,rfl,Option.some.inj hqueue,nofun,Option.some.inj hadmitted,hfirst,?_⟩
  rw [huid]
  exact of_decide_eq_true (Option.some.inj harrival)

end KubeAir.Manager
