import KubeAir.Adapters.PodWatch
import KubeAir.Manager.HeldPods
import KubeAir.Manager.Residue
import KubeAir.Manager.TerminalRuns
import KubeAir.Worker.RefusedPass

/-! # Finished pods after a restart of the kubelet

The phase of a pod object is not part of its spec, so a kubelet that starts anew runs a
finished pod again, unless the sync refuses the spec at the time of the start.
-/
namespace KubeAir.Manager
open Core Worker Transition Adapters Program
variable {C E : Type}

/-- A pod object with the phase of its status. -/
structure ObservedPod (C E : Type) extends K8sPod C E where
  phase : Option String := none

namespace ObservedPod

def Finished (obj : ObservedPod C E) : Prop := obj.phase = some "Succeeded" ∨ obj.phase = some "Failed"

def uid (obj : ObservedPod C E) : PodUID := ⟨obj.metadata.uid.getD ""⟩

end ObservedPod

/-- The work is about to make a sandbox for the pod or to start one of its containers. -/
def Work.AboutToStart (u : PodUID) : Work → Prop
  | .pass uid _ (.call op _) => uid = u ∧ op.Starts
  | .teardown uid (.call op _) => uid = u ∧ op.Starts
  | _ => False

instance (op : Request) : Decidable op.Starts := by
  induction op using Request.casesOn with
  | runPodSandbox | startContainer => exact .isTrue trivial
  | _ => exact .isFalse id

instance (u : PodUID) (work : Work) : Decidable (work.AboutToStart u) := by
  unfold Work.AboutToStart
  split <;> infer_instance

section Object
variable (k8sContainerToSpec : C → ContainerSpec) (k8sEphemeralContainerToSpec : E → ContainerSpec)
  (worker : PodWorker) (obj : ObservedPod C E)

/-- The updates that the watch events and relists make which carry the object. -/
def carried : List PodUpdate :=
  podEventToUpdates k8sContainerToSpec k8sEphemeralContainerToSpec worker.nodeName (.applied obj.toK8sPod) ++
  podEventToUpdates k8sContainerToSpec k8sEphemeralContainerToSpec worker.nodeName (.deleted obj.toK8sPod) ++
  podEventToUpdates k8sContainerToSpec k8sEphemeralContainerToSpec worker.nodeName (.restarted [obj.toK8sPod]) ++
  relistUpdates k8sContainerToSpec k8sEphemeralContainerToSpec worker.nodeName [obj.toK8sPod]

/-- A spec with the UID of the object is upserted only when an event carries it, at the time of the node, and an
update for the UID is handled only when it was sent or is a reconcile of the desired spec. -/
def Delivers (s : Pipeline) : PipelineAction → Prop
  | .upsert pod now => now = s.node.clock ∧ (pod.uid = obj.uid →
      ∃ update ∈ carried k8sContainerToSpec k8sEphemeralContainerToSpec worker obj,
        update.op ≠ .remove ∧ update.pod = pod)
  | .handleUpdate update _ => update.pod.uid = obj.uid → update.op ≠ .remove →
      update ∈ s.manager.podManager.updateTx.queue ∨ s.manager.podManager.get obj.uid = some update.pod
  | _ => True

/-- A kubelet that starts at the time `T`, with nothing in memory and whatever is on its node, never makes a sandbox
for the object and never starts one of its containers. -/
def NeverRuns (T : DateTime) : Prop :=
  ∀ (node : Node) w s, node.clock = T → Runs
      (Guarded (Delivers k8sContainerToSpec k8sEphemeralContainerToSpec worker obj) (ofStep (Pipeline.step worker)))
      { node := node } w s →
    ∀ i work, s.work.lookup i = some work → ¬ work.AboutToStart obj.uid

/-- The spec that the source takes from the object. -/
def TakenFrom (spec : PodSpec) : Prop :=
  obj.metadata.deletionTimestamp = none ∧
    podToSpec k8sContainerToSpec k8sEphemeralContainerToSpec obj.toK8sPod worker.nodeName = some spec

/-- The object yields no spec, or one that is invalid or past its deadline at the time `T`. -/
def RefusedAt (T : DateTime) : Prop :=
  ∀ spec, TakenFrom k8sContainerToSpec k8sEphemeralContainerToSpec worker obj spec →
    Refuses spec (spec.observedStartTime.getD T) T

end Object

section Facts
variable {k8sContainerToSpec : C → ContainerSpec} {k8sEphemeralContainerToSpec : E → ContainerSpec}
  {worker : PodWorker} {obj : ObservedPod C E} {spec : PodSpec}

theorem TakenFrom.uid (h : TakenFrom k8sContainerToSpec k8sEphemeralContainerToSpec worker obj spec) : spec.uid = obj.uid := by
  have huid := podToSpec_uid h.2
  unfold ObservedPod.uid
  rw [huid]
  rfl

theorem takenFrom_of_carried {update : PodUpdate}
    (h : update ∈ carried k8sContainerToSpec k8sEphemeralContainerToSpec worker obj) (hop : update.op ≠ .remove) :
    TakenFrom k8sContainerToSpec k8sEphemeralContainerToSpec worker obj update.pod := by
  have hpresent (hp : presentUpdate k8sContainerToSpec k8sEphemeralContainerToSpec worker.nodeName obj.toK8sPod = some update) :
      TakenFrom k8sContainerToSpec k8sEphemeralContainerToSpec worker obj update.pod := by
    rcases presentUpdate_eq.mp hp with ⟨-,hremove⟩ | ⟨hdel,-,hspec⟩
    · exact absurd (removeUpdate_op hremove) hop
    · exact ⟨hdel,hspec⟩
  unfold carried at h
  rw [List.mem_append,List.mem_append,List.mem_append] at h
  rcases h with ((happlied | hdeleted) | hrestarted) | hrelist
  · exact hpresent (Option.mem_toList.mp happlied)
  · exact absurd (removeUpdate_op (Option.mem_toList.mp hdeleted)) hop
  · obtain ⟨o,ho,hp⟩ := List.mem_filterMap.mp hrestarted
    obtain rfl := List.mem_singleton.mp ho
    exact hpresent hp
  · obtain ⟨o,ho,hp⟩ := List.mem_filterMap.mp hrelist
    obtain rfl := List.mem_singleton.mp ho
    split at hp
    · cases hp
    · next hdel =>
      obtain ⟨spec,hspec,rfl⟩ := Option.map_eq_some_iff.mp hp
      exact ⟨Option.not_isSome_iff_eq_none.mp hdel,hspec⟩

theorem carried_of_takenFrom (h : TakenFrom k8sContainerToSpec k8sEphemeralContainerToSpec worker obj spec) :
    { pod := spec, op := .add } ∈ carried k8sContainerToSpec k8sEphemeralContainerToSpec worker obj := by
  have hpresent : presentUpdate k8sContainerToSpec k8sEphemeralContainerToSpec worker.nodeName obj.toK8sPod =
      some { pod := spec, op := .add } := presentUpdate_eq.mpr (.inr ⟨h.1,rfl,h.2⟩)
  unfold carried
  rw [List.mem_append,List.mem_append,List.mem_append]
  exact .inl (.inl (.inl (Option.mem_toList.mpr hpresent)))

end Facts

/-! ## The start time -/

section Start
variable {worker : PodWorker} {s t : Pipeline} {a : PipelineAction} {u : PodUID}

/-- A status write that keeps the start time of the entry it replaces. -/
theorem startTime_set (m : PodManager) (v : PodUID) {f : PodLifecycleState → PodLifecycleState}
    (hf : ∀ ls, (f ls).startTime = ls.startTime) :
    ({ m with status := m.status.set v (f ((m.status.get v).getD {})) } : PodManager).startTime u = m.startTime u := by
  unfold PodManager.startTime
  dsimp only
  by_cases hu : u = v
  · subst hu
    rw [PodStatusManager.get_set,Option.bind_some,hf]
    cases m.status.get u <;> rfl
  · rw [PodStatusManager.get_set_ne _ hu]

/-- Only an upsert and the passes over the pod touch its start time. -/
theorem startTime_of_other (hs : s.step worker a = some t) (hupsert : ∀ pod now, a ≠ .upsert pod now)
    (hteardown : ∀ i v q, s.work.lookup i = some (.teardown v q) → q.Uses Request.Clearing)
    (hreply : ∀ i c, a = .reply i c → ∀ late q, s.work.lookup i ≠ some (.pass u late q)) :
    (t.world u).startTime = (s.world u).startTime ∧ s.node.clock ≤ t.node.clock := by
  have hstatus {m : ManagerState} (h : m.podManager.startTime u = s.manager.podManager.startTime u) (node : Node)
      (hclock : s.node.clock ≤ node.clock) (work : HashMap ℕ Work) :
      (({ manager := m, node := node, work := work } : Pipeline).world u).startTime = (s.world u).startTime ∧
        s.node.clock ≤ ({ manager := m, node := node, work := work } : Pipeline).node.clock := ⟨h,hclock⟩
  have hsame {m : ManagerState} (h : m.podManager = s.manager.podManager) :
      m.podManager.startTime u = s.manager.podManager.startTime u := by rw [h]
  have henter {m : ManagerState} {i : ℕ} (h : m.podManager = s.manager.podManager) :
      ((({ s with manager := m } : Pipeline).enter worker i).world u).startTime = (s.world u).startTime ∧
        s.node.clock ≤ (({ s with manager := m } : Pipeline).enter worker i).node.clock := by
    rw [world_begun h]
    refine ⟨rfl,?_⟩
    unfold Pipeline.enter
    split <;> exact le_rfl
  have hanswer {v : PodUID} {i : ℕ} {new : Work} {op : Request} {c : Choice} {b : op.Answer} {w : Node}
      (hrespond : (s.world v).respond op c = some (b,w)) (hsilent : v ≠ u ∨ op.Silent) :
      (((s.setWorld v w).setWork i new).world u).startTime = (s.world u).startTime ∧
        s.node.clock ≤ ((s.setWorld v w).setWork i new).node.clock := by
    rw [world_replied hrespond hsilent]
    refine ⟨rfl,?_⟩
    show s.node.clock ≤ w.clock
    rcases respond_writes hrespond with ⟨st,-,rfl⟩ | ⟨-,hlater⟩
    · exact le_rfl
    · exact hlater.clock
  cases a with
  | upsert pod now => exact absurd rfl (hupsert pod now)
  | remove uid fallback now =>
    obtain rfl := Option.some.inj hs
    refine hstatus ?_ _ le_rfl _
    show ((s.manager.podManager.remove uid fallback now).2.status.get u).bind _ = _
    rw [PodManager.status_remove]
    rfl
  | handleUpdate update now =>
    obtain rfl := Option.some.inj hs
    refine hstatus ?_ _ le_rfl _
    unfold ManagerState.handleUpdate
    split
    · rfl
    · split
      · exact startTime_set _ update.pod.uid (f := fun ls => rejectedState ls _ now) fun _ => rfl
      · exact hsame (ManagerState.podManager_syncPod _)
  | plegEvent uid =>
    obtain rfl := Option.some.inj hs
    exact hstatus (hsame (ManagerState.podManager_plegEvent uid)) _ le_rfl _
  | evictPod uid message gracePeriod now =>
    obtain rfl := Option.some.inj hs
    refine hstatus ?_ _ le_rfl _
    unfold ManagerState.evictPod
    split
    · exact startTime_set _ uid (f := fun ls => evictedState ls message now) fun _ => rfl
    · rfl
  | run i =>
    obtain ⟨-,m,hm,rfl⟩ := Pipeline.step_run hs
    exact henter (ManagerState.podManager_run hm)
  | pollDrain i expired =>
    obtain ⟨m,hm,rfl⟩ := Option.map_eq_some_iff.mp hs
    exact henter (ManagerState.podManager_pollDrain hm)
  | reply i c =>
    rcases Pipeline.step_reply hs with ⟨v,late,op,next,b,w,hi,hrespond,rfl⟩ | ⟨v,op,next,b,w,hi,hrespond,rfl⟩
    · refine hanswer hrespond (.inl ?_)
      rintro rfl
      exact hreply i c rfl late _ hi
    · have hclearing : op.Clearing ∧ ∀ ans, (next ans).Uses Request.Clearing := hteardown i v _ hi
      exact hanswer hrespond (.inr hclearing.1.1)
  | finish i =>
    obtain ⟨m,rfl,⟨_,_,_,_,-,hm⟩ | ⟨_,-,hm⟩⟩ := Pipeline.step_finish hs
    · exact hstatus (hsame (ManagerState.podManager_passReturns hm)) _ le_rfl _
    · exact hstatus (hsame (ManagerState.podManager_run hm)) _ le_rfl _
  | exit id code =>
    obtain ⟨w,hw,rfl⟩ := Option.map_eq_some_iff.mp hs
    have hdrift : LateDrift u.val s.node w := .of_exit hw
    exact hstatus rfl _ hdrift.later.clock _

end Start

/-! ## Refused -/

section Refused
variable (k8sContainerToSpec : C → ContainerSpec) (k8sEphemeralContainerToSpec : E → ContainerSpec)
  (worker : PodWorker) (obj : ObservedPod C E) (T : DateTime)

/-- The spec is that of the object, up to its host aliases, and the start time of its pod is stored. -/
def Traced (s : Pipeline) (pod : PodSpec) : Prop :=
  pod.uid = obj.uid →
    (∃ spec aliases, TakenFrom k8sContainerToSpec k8sEphemeralContainerToSpec worker obj spec ∧
      pod = { spec with hostAliases := aliases }) ∧ (s.world obj.uid).startTime ≠ none

/-- Every spec of the object is refused at the start time that is stored, and its passes start nothing. -/
structure RefusedInvariant (s : Pipeline) : Prop where
  clock : T ≤ s.node.clock
  held : ∀ pod, s.manager.Held pod → Traced k8sContainerToSpec k8sEphemeralContainerToSpec worker obj s pod
  start : ∀ spec, TakenFrom k8sContainerToSpec k8sEphemeralContainerToSpec worker obj spec →
    ∀ start, (s.world obj.uid).startTime = some start → Refuses spec start s.node.clock
  pass : ∀ i late q, s.work.lookup i = some (.pass obj.uid late q) →
    q.Meets refusedContract (fun _ _ => True) (s.world obj.uid) ∧ (s.world obj.uid).startTime ≠ none
  teardown : ∀ i v q, s.work.lookup i = some (.teardown v q) → q.Uses Request.Clearing

end Refused

section RefusedRuns
variable {k8sContainerToSpec : C → ContainerSpec} {k8sEphemeralContainerToSpec : E → ContainerSpec}
  {worker : PodWorker} {obj : ObservedPod C E} {T : DateTime} {s t : Pipeline} {a : PipelineAction}

theorem traced_aliasFree : AliasFree (Traced k8sContainerToSpec k8sEphemeralContainerToSpec worker obj s) := by
  intro pod aliases h huid
  obtain ⟨⟨spec,_,htaken,rfl⟩,hstart⟩ := h huid
  exact ⟨⟨spec,aliases,htaken,rfl⟩,hstart⟩

theorem Traced.ages {pod : PodSpec} (h : Traced k8sContainerToSpec k8sEphemeralContainerToSpec worker obj s pod)
    (hages : Ages (s.world obj.uid) (t.world obj.uid)) :
    Traced k8sContainerToSpec k8sEphemeralContainerToSpec worker obj t pod := by
  intro huid
  obtain ⟨hspec,hstart⟩ := h huid
  obtain ⟨start,hsome⟩ := Option.ne_none_iff_exists'.mp hstart
  refine ⟨hspec,?_⟩
  rw [hages.start start hsome]
  exact nofun

/-- The start time that an upsert of the object stores for a pod that is not desired. -/
theorem startTime_fresh {m : PodManager} {pod : PodSpec} {now : DateTime} (hnew : m.get pod.uid = none)
    (hstored : ¬ m.Merges pod) : (m.upsert pod now).2.startTime pod.uid =
      (m.startTime pod.uid).or (some (pod.observedStartTime.getD now)) := by
  unfold PodManager.startTime
  rw [PodManager.status_upsert_new hnew hstored]
  unfold PodStatusManager.initialState
  cases (m.status.get pod.uid).bind (·.startTime) with
  | none => cases pod.observedStartTime <;> rfl
  | some start => rfl

/-- After an upsert a start time is the one from before, or the one that the object has, or the time of the upsert. -/
theorem startTime_of_upsert {m : PodManager} {pod : PodSpec} {uid : PodUID} {now start : DateTime}
    (h : (m.upsert pod now).2.startTime uid = some start) :
    m.startTime uid = some start ∨ uid = pod.uid ∧ start = pod.observedStartTime.getD now := by
  rcases PodManager.status_upsert_cases m pod uid now with hsame | ⟨rfl,hnew,hstored,-⟩
  · left
    unfold PodManager.startTime at h ⊢
    rwa [hsame] at h
  · rw [startTime_fresh hnew hstored] at h
    cases hold : m.startTime pod.uid with
    | some old =>
      rw [hold] at h
      exact .inl h
    | none =>
      rw [hold] at h
      exact .inr ⟨rfl,(Option.some.inj h).symm⟩

/-- What a step other than an answer to a pass over the object leaves of the invariant. -/
theorem RefusedInvariant.of_ages (h : RefusedInvariant k8sContainerToSpec k8sEphemeralContainerToSpec worker obj T s)
    (hages : Ages (s.world obj.uid) (t.world obj.uid))
    (hheld : ∀ pod, t.manager.Held pod → Traced k8sContainerToSpec k8sEphemeralContainerToSpec worker obj t pod)
    (hstart : ∀ start, (t.world obj.uid).startTime = some start → (s.world obj.uid).startTime = some start ∨
      ∀ spec, TakenFrom k8sContainerToSpec k8sEphemeralContainerToSpec worker obj spec → Refuses spec start t.node.clock)
    (hpass : ∀ i late q, t.work.lookup i = some (.pass obj.uid late q) →
      s.work.lookup i = some (.pass obj.uid late q) ∨
        q.Meets refusedContract (fun _ _ => True) (t.world obj.uid) ∧ (s.world obj.uid).startTime ≠ none)
    (hteardown : ∀ i v q, t.work.lookup i = some (.teardown v q) →
      s.work.lookup i = some (.teardown v q) ∨ q.Uses Request.Clearing) :
    RefusedInvariant k8sContainerToSpec k8sEphemeralContainerToSpec worker obj T t := by
  have hsome (hne : (s.world obj.uid).startTime ≠ none) : (t.world obj.uid).startTime ≠ none := by
    obtain ⟨start,hsome⟩ := Option.ne_none_iff_exists'.mp hne
    rw [hages.start start hsome]
    exact nofun
  refine ⟨h.clock.trans hages.clock,hheld,?_,?_,?_⟩
  · intro spec htaken start ht
    rcases hstart start ht with hold | hfresh
    · exact (h.start spec htaken start hold).mono (Int.sub_le_sub_right hages.clock start)
    · exact hfresh spec htaken
  · intro i late q hi
    rcases hpass i late q hi with hold | ⟨hmeets,hne⟩
    · obtain ⟨hmeets,hne⟩ := h.pass i late q hold
      exact ⟨hmeets.drift hages (fun _ _ _ => Ages.trans) fun _ _ _ _ _ => trivial,hsome hne⟩
    · exact ⟨hmeets,hsome hne⟩
  · intro i v q hi
    rcases hteardown i v q hi with hold | hq
    · exact h.teardown i v q hold
    · exact hq

/-- The passes that are under way after a step other than an upsert or an answer to a pass over the object. -/
theorem pass_of_other (hs : s.step worker a = some t)
    (hreply : ∀ i c, a = .reply i c → ∀ late q, s.work.lookup i ≠ some (.pass obj.uid late q))
    {i : ℕ} {late : Bool} {q : WorkerM (PodSyncResult × PodRuntimeState)}
    (hi : t.work.lookup i = some (.pass obj.uid late q)) :
    s.work.lookup i = some (.pass obj.uid late q) ∨
      ∃ v pod st, .sync v pod .takeState ∈ s.manager.tasks ∧ pod.uid = obj.uid ∧ q = syncPod worker pod st := by
  cases a with
  | upsert pod now | handleUpdate update now | plegEvent uid | remove uid fallback now | evictPod uid message g now =>
    obtain rfl := Option.some.inj hs
    exact .inl hi
  | exit id code =>
    obtain ⟨w,-,rfl⟩ := Option.map_eq_some_iff.mp hs
    exact .inl hi
  | run j =>
    obtain ⟨-,m,hm,rfl⟩ := Pipeline.step_run hs
    rcases pass_begun hm hi with hold | ⟨rfl,v,pod,huid,htask,-,hq⟩
    · exact .inl hold
    · exact .inr ⟨v,pod,_,List.mem_of_getElem? htask,huid,hq⟩
  | pollDrain j expired =>
    obtain ⟨m,hm,rfl⟩ := Option.map_eq_some_iff.mp hs
    rcases work_enter hi with hold | ⟨rfl,v,pod,state,htask,-⟩ | ⟨v,q',heq,-⟩
    · exact .inl hold
    · obtain ⟨kind,pod',pc,htask'⟩ := ManagerState.pollDrain_task hm
      rw [htask'] at htask
      cases htask
    · cases heq
  | reply j c =>
    rcases Pipeline.step_reply hs with ⟨v,late',op,next,b,w,hj,-,rfl⟩ | ⟨v,op,next,b,w,hj,-,rfl⟩
    · rcases lookup_replied hi with ⟨rfl,heq⟩ | ⟨-,hold⟩
      · obtain ⟨rfl,-,-⟩ := Work.pass.inj heq
        exact absurd hj (hreply i c rfl late' _)
      · exact .inl hold
    · rcases lookup_replied hi with ⟨-,heq⟩ | ⟨-,hold⟩
      · cases heq
      · exact .inl hold
  | finish j =>
    obtain ⟨m,rfl,-⟩ := Pipeline.step_finish hs
    exact .inl (HashMap.lookup_erase_eq_some.mp hi).2

/-- The teardowns that are under way after a step. -/
theorem teardown_of_step (h : ∀ i v q, s.work.lookup i = some (.teardown v q) → q.Uses Request.Clearing)
    (hs : s.step worker a = some t) {i : ℕ} {v : PodUID} {q : WorkerM Unit} (hi : t.work.lookup i = some (.teardown v q)) :
    q.Uses Request.Clearing := by
  have henter {m : ManagerState} {j : ℕ}
      (hi : (({ s with manager := m } : Pipeline).enter worker j).work.lookup i = some (.teardown v q)) :
      q.Uses Request.Clearing := by
    rcases work_enter hi with hold | ⟨-,_,_,_,-,heq⟩ | ⟨v',q',heq,hq⟩
    · exact h i v q hold
    · cases heq
    · obtain ⟨rfl,rfl⟩ := Work.teardown.inj heq
      exact hq
  cases a with
  | upsert pod now | handleUpdate update now | plegEvent uid | remove uid fallback now | evictPod uid message g now =>
    obtain rfl := Option.some.inj hs
    exact h i v q hi
  | exit id code =>
    obtain ⟨w,-,rfl⟩ := Option.map_eq_some_iff.mp hs
    exact h i v q hi
  | run j =>
    obtain ⟨-,m,-,rfl⟩ := Pipeline.step_run hs
    exact henter hi
  | pollDrain j expired =>
    obtain ⟨m,hm,rfl⟩ := Option.map_eq_some_iff.mp hs
    exact henter hi
  | reply j c =>
    rcases Pipeline.step_reply hs with ⟨_,_,_,_,_,_,-,-,rfl⟩ | ⟨v',op,next,b,w,hj,-,rfl⟩
    · exact h i v q (lookup_replied_teardown hi)
    · rcases lookup_replied hi with ⟨rfl,heq⟩ | ⟨-,hold⟩
      · obtain ⟨rfl,rfl⟩ := Work.teardown.inj heq
        exact (h i _ _ hj).2 b
      · exact h i v q hold
  | finish j =>
    obtain ⟨m,rfl,-⟩ := Pipeline.step_finish hs
    exact h i v q (HashMap.lookup_erase_eq_some.mp hi).2

variable (h : RefusedInvariant k8sContainerToSpec k8sEphemeralContainerToSpec worker obj T s)
include h

theorem refused_upsert (hrefused : RefusedAt k8sContainerToSpec k8sEphemeralContainerToSpec worker obj T) {pod : PodSpec}
    {now : DateTime} (hok : Delivers k8sContainerToSpec k8sEphemeralContainerToSpec worker obj s (.upsert pod now))
    (hs : s.step worker (.upsert pod now) = some t) :
    RefusedInvariant k8sContainerToSpec k8sEphemeralContainerToSpec worker obj T t := by
  obtain ⟨rfl,hcarried⟩ := hok
  have ht : t = { s with manager.podManager := (s.manager.podManager.upsert pod s.node.clock).2 } :=
    (Option.some.inj hs).symm
  have hages : Ages (s.world obj.uid) (t.world obj.uid) := by
    subst ht
    exact ⟨le_rfl,fun start hstart => PodManager.startTime_upsert hstart pod s.node.clock⟩
  have hspec (hu : pod.uid = obj.uid) : TakenFrom k8sContainerToSpec k8sEphemeralContainerToSpec worker obj pod := by
    obtain ⟨update,hmem,hop,rfl⟩ := hcarried hu
    exact takenFrom_of_carried hmem hop
  refine h.of_ages hages ?_ ?_ ?_ ?_
  · refine held_step traced_aliasFree (fun p hp => (h.held p hp).ages hages) hs ?_ (fun _ _ heq => by cases heq)
    intro p now heq hstored
    obtain ⟨rfl,-⟩ := PipelineAction.upsert.inj heq
    intro hu
    refine ⟨⟨pod,pod.hostAliases,hspec hu,rfl⟩,?_⟩
    cases hget : s.manager.podManager.get pod.uid with
    | some old =>
      have hkey := s.manager.podManager.keyed _ _ hget
      have hold := h.held old (.desired (by rw [hkey]; exact hget))
      exact (hold.ages hages (hkey.trans hu)).2
    | none =>
      subst ht
      show (s.manager.podManager.upsert pod s.node.clock).2.startTime obj.uid ≠ none
      rw [← hu,startTime_fresh hget hstored]
      cases s.manager.podManager.startTime pod.uid <;> exact nofun
  · intro start hstart
    subst ht
    have hupsert : (s.manager.podManager.upsert pod s.node.clock).2.startTime obj.uid = some start := hstart
    rcases startTime_of_upsert hupsert with hold | ⟨hu,rfl⟩
    · exact .inl hold
    · right
      intro spec htaken
      obtain rfl : pod = spec := Option.some.inj ((hspec hu.symm).2.symm.trans htaken.2)
      refine (hrefused pod htaken).mono ?_
      show T - pod.observedStartTime.getD T ≤ s.node.clock - pod.observedStartTime.getD s.node.clock
      cases pod.observedStartTime with
      | none =>
        rw [Option.getD_none,Option.getD_none,Int.sub_self,Int.sub_self]
      | some o => exact Int.sub_le_sub_right h.clock o
  · subst ht
    exact fun i late q hi => .inl hi
  · subst ht
    exact fun i v q hi => .inl hi

theorem refused_other (hok : Delivers k8sContainerToSpec k8sEphemeralContainerToSpec worker obj s a)
    (hs : s.step worker a = some t) (hupsert : ∀ pod now, a ≠ .upsert pod now)
    (hreply : ∀ i c, a = .reply i c → ∀ late q, s.work.lookup i ≠ some (.pass obj.uid late q)) :
    RefusedInvariant k8sContainerToSpec k8sEphemeralContainerToSpec worker obj T t := by
  obtain ⟨hstart,hclock⟩ := startTime_of_other hs hupsert h.teardown hreply
  have hages : Ages (s.world obj.uid) (t.world obj.uid) := ⟨hclock,fun start hsome => hstart.trans hsome⟩
  refine h.of_ages hages ?_ ?_ ?_ ?_
  · refine held_step traced_aliasFree (fun p hp => (h.held p hp).ages hages) hs ?_ ?_
    · intro pod now heq
      exact absurd heq (hupsert pod now)
    · rintro update now rfl hop hu
      rcases hok hu hop with hsent | hdesired
      · exact (h.held _ (.sent update hsent hop rfl)).ages hages hu
      · refine (h.held _ (.desired ?_)).ages hages hu
        rw [hu]
        exact hdesired
  · intro start hsome
    exact .inl (hstart.symm.trans hsome)
  · intro i late q hi
    rcases pass_of_other hs hreply hi with hold | ⟨v,pod,st,htask,hu,rfl⟩
    · exact .inl hold
    · right
      obtain ⟨⟨spec,aliases,htaken,rfl⟩,hne⟩ := h.held pod (.task v _ htask) hu
      obtain ⟨start,hsome⟩ := Option.ne_none_iff_exists'.mp hne
      have hrefuses : Refuses spec start s.node.clock := h.start spec htaken start hsome
      have hmeets : (syncPod worker { spec with hostAliases := aliases } st).Meets refusedContract (fun _ _ => True)
          (s.world obj.uid) := meets_refused hsome hrefuses
      exact ⟨hmeets.drift hages (fun _ _ _ => Ages.trans) fun _ _ _ _ _ => trivial,hne⟩
  · intro i v q hi
    exact .inr (teardown_of_step h.teardown hs hi)

/-- An answer to a pass over the object. -/
theorem refused_reply {i : ℕ} {c : Choice} {late : Bool} {q : WorkerM (PodSyncResult × PodRuntimeState)}
    (hi : s.work.lookup i = some (.pass obj.uid late q)) (hs : s.step worker (.reply i c) = some t) :
    RefusedInvariant k8sContainerToSpec k8sEphemeralContainerToSpec worker obj T t := by
  have hs' : s.reply i c = some t := hs
  unfold Pipeline.reply at hs'
  rw [hi] at hs'
  cases q with
  | ret r => cases hs'
  | call op next =>
    obtain ⟨⟨b,w⟩,hrespond,rfl⟩ := Option.map_eq_some_iff.mp hs'
    obtain ⟨hmeets,hne⟩ := h.pass i late _ hi
    obtain ⟨⟨-,hkeeps⟩,hnext⟩ := hmeets (s.world obj.uid) (.refl _)
    have hworld : ((s.setWorld obj.uid w).setWork i (.pass obj.uid late (next b))).world obj.uid = w :=
      world_replied_self hrespond
    obtain ⟨start,hsome⟩ := Option.ne_none_iff_exists'.mp hne
    have hafter : w.startTime = some start ∧ s.node.clock ≤ w.clock := by
      rcases respond_writes hrespond with ⟨st,rfl,rfl⟩ | ⟨-,hlater⟩
      · exact ⟨hkeeps st rfl start hsome,le_rfl⟩
      · refine ⟨?_,hlater.clock⟩
        unfold Node.startTime
        rw [hlater.status]
        exact hsome
    have hages : Ages (s.world obj.uid) (((s.setWorld obj.uid w).setWork i (.pass obj.uid late (next b))).world obj.uid) := by
      rw [hworld]
      refine ⟨hafter.2,fun start' hstart' => ?_⟩
      rw [hafter.1,← hsome]
      exact hstart'
    refine h.of_ages hages ?_ ?_ ?_ ?_
    · exact held_step traced_aliasFree (fun p hp => (h.held p hp).ages hages) hs (fun _ _ heq => by cases heq)
        (fun _ _ heq => by cases heq)
    · intro start' hstart'
      rw [hworld,hafter.1] at hstart'
      exact .inl (hsome.trans hstart')
    · intro j late' q hj
      rcases lookup_replied hj with ⟨rfl,heq⟩ | ⟨-,hold⟩
      · obtain ⟨-,-,rfl⟩ := Work.pass.inj heq
        rw [hworld]
        exact .inr ⟨hnext b w ⟨c,hrespond⟩,hne⟩
      · exact .inl hold
    · intro j v q hj
      exact .inl (lookup_replied_teardown hj)

theorem refused_step (hrefused : RefusedAt k8sContainerToSpec k8sEphemeralContainerToSpec worker obj T)
    (hok : Delivers k8sContainerToSpec k8sEphemeralContainerToSpec worker obj s a) (hs : s.step worker a = some t) :
    RefusedInvariant k8sContainerToSpec k8sEphemeralContainerToSpec worker obj T t := by
  cases a with
  | upsert pod now => exact refused_upsert h hrefused hok hs
  | reply i c =>
    by_cases hpass : ∃ late q, s.work.lookup i = some (.pass obj.uid late q)
    · obtain ⟨late,q,hi⟩ := hpass
      exact refused_reply h hi hs
    · refine refused_other h hok hs (fun _ _ heq => by cases heq) ?_
      rintro j c' heq late q hi
      obtain ⟨rfl,-⟩ := PipelineAction.reply.inj heq
      exact hpass ⟨late,q,hi⟩
  | _ => exact refused_other h hok hs (fun _ _ heq => by cases heq) (fun _ _ heq => by cases heq)

/-- No work is about to start anything for the object. -/
theorem not_aboutToStart {i : ℕ} {work : Work} (hi : s.work.lookup i = some work) : ¬ work.AboutToStart obj.uid := by
  cases work with
  | pass uid late q =>
    cases q with
    | ret r => exact id
    | call op next =>
      rintro ⟨rfl,hstarts⟩
      exact ((h.pass i late _ hi).1 (s.world obj.uid) (.refl _)).1.1 hstarts
  | teardown uid q =>
    cases q with
    | ret r => exact id
    | call op next =>
      rintro ⟨-,hstarts⟩
      exact (h.teardown i uid _ hi).1.2 hstarts

end RefusedRuns

/-! ## Accepted -/

section Accepted
variable {k8sContainerToSpec : C → ContainerSpec} {k8sEphemeralContainerToSpec : E → ContainerSpec}
  {worker : PodWorker} {obj : ObservedPod C E} {s : Pipeline} {u : PodUID}

/-- Where some execution of a pass comes to a start, the calls of the pass can be answered that way. -/
theorem exists_run_of_reaches {i : ℕ} {late : Bool} {q : WorkerM (PodSyncResult × PodRuntimeState)}
    (hi : s.work.lookup i = some (.pass u late q)) (h : q.Reaches nodeAnswers Request.Starts (s.world u)) :
    ∃ w t work, Runs
        (Guarded (Delivers k8sContainerToSpec k8sEphemeralContainerToSpec worker obj) (ofStep (Pipeline.step worker)))
        s w t ∧ t.work.lookup i = some work ∧ work.AboutToStart u := by
  induction q generalizing s with
  | ret r => exact h.elim
  | call op next ih =>
    rcases h with hstarts | ⟨b,w,⟨c,hrespond⟩,hnext⟩
    · exact ⟨[],s,_,.nil s,hi,rfl,hstarts⟩
    · have hstep : s.step worker (.reply i c) = some ((s.setWorld u w).setWork i (.pass u late (next b))) := by
        show s.reply i c = _
        unfold Pipeline.reply
        rw [hi]
        dsimp only
        rw [hrespond]
        rfl
      have hworld : ((s.setWorld u w).setWork i (.pass u late (next b))).world u = w := world_replied_self hrespond
      rw [← hworld] at hnext
      obtain ⟨v,t,work,hr,hwork⟩ := ih b (AList.lookup_insert _) hnext
      exact ⟨.reply i c :: v,t,work,.cons ⟨trivial,hstep⟩ hr,hwork⟩

/-- An update of a desired pod that conflicts with none starts a task, and the task a pass, where nothing is under
way yet. -/
theorem exists_first_pass {pod : PodSpec} (now : DateTime)
    (htaken : TakenFrom k8sContainerToSpec k8sEphemeralContainerToSpec worker obj pod)
    (hget : s.manager.podManager.get pod.uid = some pod) (hconflict : checkHostPortConflict s.manager.podManager pod = none)
    (hslots : s.manager.syncSlots = ∅) (hstates : s.manager.podStates = ∅) (htasks : s.manager.tasks = [])
    (hwork : s.work = ∅) :
    ∃ t, Runs
        (Guarded (Delivers k8sContainerToSpec k8sEphemeralContainerToSpec worker obj) (ofStep (Pipeline.step worker)))
        s [.handleUpdate { pod := pod, op := .add } now,.run 0] t ∧ t.world pod.uid = s.world pod.uid ∧
      ∃ late, t.work.lookup 0 = some (.pass pod.uid late (syncPod worker pod {})) := by
  have hcell : s.manager.cell pod.uid = { slot := none, state := none } := by
    unfold ManagerState.cell
    rw [hslots,hstates]
    rfl
  obtain ⟨m,hm,htask,hstate,hsame⟩ : ∃ m, s.manager.syncPod pod = m ∧ m.tasks = [.sync pod.uid pod .takeState] ∧
      (m.cell pod.uid).takenState = {} ∧ m.podManager = s.manager.podManager := by
    refine ⟨_,rfl,?_,?_,ManagerState.podManager_syncPod pod⟩
    · unfold ManagerState.syncPod
      rw [hcell]
      show s.manager.tasks ++ [_] = _
      rw [htasks]
      rfl
    · unfold ManagerState.syncPod
      rw [hcell]
      show ((s.manager.podStates.setEntry pod.uid none).lookup pod.uid).getD {} = {}
      rw [HashMap.lookup_setEntry]
      rfl
  have hhandle : s.step worker (.handleUpdate { pod := pod, op := .add } now) = some { s with manager := m } := by
    show some { s with manager := s.manager.handleUpdate { pod := pod, op := .add } now } = _
    unfold ManagerState.handleUpdate
    dsimp only
    rw [hconflict,hm]
  obtain ⟨n,hn,hzero⟩ : ∃ n, m.step (.run 0) = some n ∧ n.tasks[0]? = some (.sync pod.uid pod (.syncing {})) := by
    refine ⟨(m.setCell pod.uid { m.cell pod.uid with state := none }).setTask 0 (.sync pod.uid pod (.syncing {})),?_,?_⟩
    · unfold ManagerState.step
      dsimp only
      rw [htask]
      show some ((m.setCell pod.uid _).setTask 0 (.sync pod.uid pod (.syncing (m.cell pod.uid).takenState))) = _
      rw [hstate]
    · show (m.tasks.set 0 _)[0]? = _
      rw [htask]
      rfl
  have hrun : ({ s with manager := m } : Pipeline).step worker (.run 0) =
      some (({ s with manager := n } : Pipeline).enter worker 0) := by
    unfold Pipeline.step
    dsimp only
    rw [hwork,hn]
    rfl
  refine ⟨_,.cons ⟨?_,hhandle⟩ (.cons ⟨trivial,hrun⟩ (.nil _)),world_begun ((ManagerState.podManager_run hn).trans hsame),?_⟩
  · intro _ _
    right
    rw [← htaken.uid]
    exact hget
  · unfold Pipeline.enter
    dsimp only
    rw [hzero]
    exact ⟨_,AList.lookup_insert _⟩

theorem not_merges_empty (pod : PodSpec) : ¬ ({} : PodManager).Merges pod := by
  rintro ⟨-,-,hsome⟩
  cases hsome

theorem get_upsert_empty (pod : PodSpec) (now : DateTime) (v : PodUID) :
    (({} : PodManager).upsert pod now).2.get v = (({} : PodManager).store pod).get v := by
  rw [PodManager.upsert_of_not_merges _ _ (not_merges_empty pod),PodManager.get_insertPod]
  rfl

theorem checkHostPortConflict_alone (pod : PodSpec) (now : DateTime) :
    checkHostPortConflict (({} : PodManager).upsert pod now).2 pod = none := by
  unfold checkHostPortConflict
  cases hconflict : firstHostPortConflict (({} : PodManager).upsert pod now).2 pod with
  | none => rfl
  | some found =>
    obtain ⟨existing,port⟩ := found
    obtain ⟨hget,hne,-,-⟩ := firstHostPortConflict_some hconflict
    rw [get_upsert_empty,PodManager.get_store_ne _ _ _ hne] at hget
    cases hget

/-- An object whose spec is not refused is run by a kubelet that starts on an empty node. -/
theorem runs_accepted {spec : PodSpec} {T : DateTime}
    (htaken : TakenFrom k8sContainerToSpec k8sEphemeralContainerToSpec worker obj spec)
    (haccepted : ¬ Refuses spec (spec.observedStartTime.getD T) T) :
    ∃ w t i work, Runs
        (Guarded (Delivers k8sContainerToSpec k8sEphemeralContainerToSpec worker obj) (ofStep (Pipeline.step worker)))
        { node := { clock := T } } w t ∧ t.work.lookup i = some work ∧ work.AboutToStart obj.uid := by
  let s : Pipeline :=
    { node := { clock := T }, manager := { podManager := (({} : PodManager).upsert spec T).2 } }
  have hget : s.manager.podManager.get spec.uid = some spec := by
    rw [get_upsert_empty]
    exact PodManager.get_store_self _ _
  have hstart : (s.world spec.uid).startTime = some (spec.observedStartTime.getD T) := startTime_fresh rfl (not_merges_empty spec)
  obtain ⟨t,hr,hworld,late,hi⟩ := exists_first_pass T htaken hget (checkHostPortConflict_alone spec T) rfl rfl rfl rfl
  obtain ⟨hvalid,hover⟩ := not_or.mp haccepted
  have hreaches : (syncPod worker spec {}).Reaches nodeAnswers Request.Starts (t.world spec.uid) := by
    rw [hworld]
    exact reaches_sandbox (Bool.not_eq_false _ ▸ hvalid) hstart hover ⟨rfl,rfl⟩
  obtain ⟨w,t',work,hr',hwork,hstarts⟩ := exists_run_of_reaches hi hreaches
  have hupsert : Delivers k8sContainerToSpec k8sEphemeralContainerToSpec worker obj { node := { clock := T } }
      (.upsert spec T) := ⟨rfl,fun _ => ⟨_,carried_of_takenFrom htaken,nofun,rfl⟩⟩
  rw [htaken.uid] at hstarts
  exact ⟨_,t',0,work,.cons ⟨hupsert,rfl⟩ (hr.append hr'),hwork,hstarts⟩

end Accepted

/-- A kubelet that starts at the time `T` never runs the object again exactly when the object yields no spec, or one
that the sync refuses at that time. -/
theorem neverRuns_iff (k8sContainerToSpec : C → ContainerSpec) (k8sEphemeralContainerToSpec : E → ContainerSpec)
    (worker : PodWorker) (obj : ObservedPod C E) (T : DateTime) :
    NeverRuns k8sContainerToSpec k8sEphemeralContainerToSpec worker obj T ↔
      RefusedAt k8sContainerToSpec k8sEphemeralContainerToSpec worker obj T := by
  constructor
  · intro hnever spec htaken
    by_contra haccepted
    obtain ⟨w,t,i,work,hr,hi,hstarts⟩ := runs_accepted htaken haccepted
    exact hnever _ w t rfl hr i work hi hstarts
  · intro hrefused node w s hclock hr i work hi
    have hinitial : RefusedInvariant k8sContainerToSpec k8sEphemeralContainerToSpec worker obj T { node := node } := by
      refine ⟨hclock.ge,?_,fun _ _ _ hsome => (Option.some_ne_none _ hsome.symm).elim,nofun,nofun⟩
      rintro pod (hpod | ⟨update,hmem,-,-⟩ | ⟨v,pc,hmem⟩)
      · cases hpod
      · cases hmem
      · cases hmem
    have hinv : RefusedInvariant k8sContainerToSpec k8sEphemeralContainerToSpec worker obj T s :=
      hr.invariant (fun _ _ _ h hstep => refused_step h hrefused hstep.1 hstep.2) hinitial
    exact not_aboutToStart hinv hi

/-- A job that has succeeded an hour before the kubelet starts. -/
def finishedJob : ObservedPod ContainerSpec ContainerSpec where
  metadata := { uid := some "uid-j", name := some "job" }
  spec := some
    { containers := [{ name := "app", image := "busybox" }]
      restartPolicy := some "Never"
      serviceAccountName := some "default" }
  startTime := some 0
  phase := some "Succeeded"

def jobSpec : PodSpec where
  uid := ⟨"uid-j"⟩
  podRef := ⟨"default","job"⟩
  nodeName := "node-a"
  containers := [{ name := "app", image := "busybox" }]
  restartPolicy := .never
  observedStartTime := some 0

/-- Its sandbox and its exited container are still there. -/
def finishedNode : Node where
  containers := AList.insert "c1"
    { podUid := "uid-j", sandboxId := "sb", name := "app", state := .exited, exitCode := some 0 } ∅
  sandboxes := AList.insert "sb"
    { id := "sb", podUid := "uid-j", podName := "job", podNamespace := "default", state := .ready } ∅
  clock := 3600 * 10 ^ 9

/-- The first pass adopts the sandbox and creates the container again. -/
def jobPass : List PipelineAction :=
  [.run 0,.reply 0 .accept,.reply 0 (.named "busybox-id"),.reply 0 (.named "pause-id"),.reply 0 (.listed ["sb"]),
    .reply 0 .accept,.reply 0 (.listed ["c1"]),.reply 0 .accept,.reply 0 .accept,.reply 0 (.named "busybox-id"),
    .reply 0 (.message none),.reply 0 (.named "c2")]

def jobRun : List PipelineAction :=
  .upsert jobSpec (3600 * 10 ^ 9) :: .handleUpdate { pod := jobSpec, op := .add } (3600 * 10 ^ 9) :: jobPass

/-- A job that has succeeded is run again, although its sandbox and its container are still listed. -/
theorem not_neverRuns : ¬ ∀ (worker : PodWorker) (obj : ObservedPod ContainerSpec ContainerSpec) (T : DateTime),
    obj.Finished → NeverRuns id id worker obj T := by
  intro h
  have hrun : ((exec (Pipeline.step nodeA) { node := finishedNode } jobRun).bind
      fun t => (t.work.lookup 0).filter fun work => work.AboutToStart finishedJob.uid).isSome = true := by
    decide +kernel
  obtain ⟨work,hwork⟩ := Option.isSome_iff_exists.mp hrun
  obtain ⟨t,ht,hwork⟩ := Option.bind_eq_some_iff.mp hwork
  obtain ⟨hi,hstarts⟩ := Option.filter_eq_some_iff.mp hwork
  have hpass (a : PipelineAction) (ha : a ∈ jobPass) (s : Pipeline) : Delivers id id nodeA finishedJob s a := by
    unfold jobPass at ha
    simp only [List.mem_cons,List.not_mem_nil,or_false] at ha
    rcases ha with rfl | rfl | rfl | rfl | rfl | rfl | rfl | rfl | rfl | rfl | rfl | rfl <;> trivial
  have hguarded : Runs (Guarded (Delivers id id nodeA finishedJob) (ofStep (Pipeline.step nodeA)))
      { node := finishedNode } jobRun t := by
    cases runs_of_exec ht with
    | cons hupsert hr =>
      cases hr with
      | cons hhandle hr =>
        refine .cons ⟨⟨rfl,?_⟩,hupsert⟩ (.cons ⟨?_,hhandle⟩ (hr.guarded hpass))
        · intro _
          exact ⟨_,carried_of_takenFrom ⟨rfl,rfl⟩,nofun,rfl⟩
        · intro _ _
          obtain rfl := Option.some.inj hupsert
          exact .inr ((get_upsert_empty jobSpec _ _).trans (PodManager.get_store_self _ _))
  exact h nodeA finishedJob (3600 * 10 ^ 9) (.inl rfl) finishedNode jobRun t rfl hguarded 0 work hi (of_decide_eq_true hstarts)

end KubeAir.Manager
