import KubeAir.Adapters.EvictionManager
import KubeAir.Manager.HostPort
import KubeAir.Manager.SyncModel
import KubeAir.Transition.Ranking
import KubeAir.Transition.Stamps

/-! # Progress of evictions

The rounds of the eviction loop over the running manager. A round makes progress when its
decisions name distinct pods, none of which has finished.
-/
namespace KubeAir.Manager
open Core Transition Adapters.Eviction Adapters.Eviction.EvictionManager

/-- What a round of the loop meets: the readings of its call, the order in which the map of the
desired pods is walked, and the time at which the decisions are carried out. -/
structure EvictionRound extends Evaluation where
  walk : List PodSpec → List PodSpec := id
  walk_perm : ∀ pods, (walk pods).Perm pods := by exact fun _ => List.Perm.refl _
  now : DateTime

structure EvictionLoop where
  manager : EvictionManager
  runtime : ManagerState := {}

inductive EvictionStep
  | round (r : EvictionRound)
  /-- anything else that happens to the pods of the node -/
  | runtime (a : ManagerAction)

namespace EvictionLoop

/-- `RuntimeManager::evict_pod` for one decision. -/
def carryOut (now : DateTime) (s : ManagerState) (d : EvictionDecision) : ManagerState :=
  s.evictPod d.podUid d.message d.gracePeriod now

def pods (s : EvictionLoop) (r : EvictionRound) : List PodSpec := r.walk s.runtime.podManager.list

def decisions (s : EvictionLoop) (r : EvictionRound) : List EvictionDecision :=
  (s.manager.evaluate (s.pods r) r.toEvaluation).2

def step (s : EvictionLoop) : EvictionStep → EvictionLoop
  | .round r =>
    { manager := (s.manager.evaluate (s.pods r) r.toEvaluation).1
      runtime := (s.decisions r).foldl (carryOut r.now) s.runtime }
  | .runtime a => { s with runtime := (s.runtime.step a).getD s.runtime }

/-- The stored phase of the pod is `Failed` or `Succeeded`. -/
def Finished (s : EvictionLoop) (uid : PodUID) : Prop := isTerminalStatus s.runtime.podManager uid = true

/-- The decisions of a round name distinct pods that still run. -/
structure Reclaims (s : EvictionLoop) (r : EvictionRound) : Prop where
  distinct : ((s.decisions r).map (·.podUid)).Nodup
  running : ∀ d ∈ s.decisions r, ¬s.Finished d.podUid

/-! ## What a round picks -/

/-- The pods in the order in which memory pressure takes them. -/
def memoryOrder (s : EvictionLoop) (r : EvictionRound) : List PodUID :=
  (rankForMemory (s.pods r) r.usage).map (·.1)

def diskOrder (s : EvictionLoop) (r : EvictionRound) : List PodUID :=
  (rankForDisk (s.pods r) r.usage).map (·.1)

def pressure (s : EvictionLoop) (r : EvictionRound) : ResourcePressure := s.manager.evaluator.evaluate r.resources

/-- The reclaim period of the pod is over, or it was never evicted. -/
def Fresh (s : EvictionLoop) (clock : PickClock) (uid : PodUID) : Prop := s.manager.recent clock uid = false

/-- There is memory pressure, and the pod is next in its order. -/
def NextForMemory (s : EvictionLoop) (r : EvictionRound) (uid : PodUID) : Prop :=
  (s.pressure r).memoryPressure = true ∧ Foremost (s.Fresh r.memoryClock) (s.memoryOrder r) uid

/-- The pod is fresh for the second pick, where the pod that is next for memory has just been
evicted. -/
def FreshForDisk (s : EvictionLoop) (r : EvictionRound) (uid : PodUID) : Prop :=
  (s.NextForMemory r uid →
    s.manager.minEvictionReclaimPeriod ≤ r.diskClock.checkedAt uid - r.memoryClock.recordedAt) ∧
  (¬s.NextForMemory r uid → s.Fresh r.diskClock uid)

/-- Every finished pod that is fresh stands behind another fresh pod, in both orders. The pod
that is next for memory counts as finished in the order for disk. -/
structure Spared (s : EvictionLoop) (r : EvictionRound) : Prop where
  memory : (s.pressure r).memoryPressure = true → Spares s.Finished (s.Fresh r.memoryClock) (s.memoryOrder r)
  disk : (s.pressure r).diskPressure = true →
    Spares (fun uid => s.Finished uid ∨ s.NextForMemory r uid) (s.FreshForDisk r) (s.diskOrder r)

variable {s : EvictionLoop} {r : EvictionRound} {uid : PodUID}

/-- The pick for memory, and the manager after it. -/
def memoryPick (s : EvictionLoop) (r : EvictionRound) : EvictionManager × Option EvictionDecision :=
  s.manager.pickMemory (s.pods r) r.toEvaluation

def diskPick (s : EvictionLoop) (r : EvictionRound) : Option EvictionDecision :=
  ((s.memoryPick r).1.pickDisk (s.pods r) r.toEvaluation (s.pressure r)).2

theorem decisions_eq : s.decisions r = (s.memoryPick r).2.toList ++ (s.diskPick r).toList := rfl

theorem memoryPick_iff : (s.memoryPick r).2.map (·.podUid) = some uid ↔ s.NextForMemory r uid := by
  unfold memoryPick pickMemory NextForMemory pressure
  split
  · next h =>
    rw [pickCandidate_uid,find?_eq_some_iff_foremost]
    simp only [h,true_and]
    exact foremost_congr (fun v => by rw [Bool.not_eq_true'];exact Iff.rfl)
  · next h => exact iff_of_false (fun h' => Option.some_ne_none uid h'.symm) (fun h' => h h'.1)

/-- Whom the second pick passes over. -/
theorem recent_memoryPick : (s.memoryPick r).1.recent r.diskClock uid = false ↔ s.FreshForDisk r uid := by
  have hnext : (s.memoryPick r).2.map (·.podUid) = some uid ↔ s.NextForMemory r uid := memoryPick_iff
  unfold FreshForDisk
  by_cases hpressure : (s.pressure r).memoryPressure = true
  · have hpick : s.memoryPick r =
        s.manager.pickCandidate r.memoryClock .memoryPressure (rankForMemory (s.pods r) r.usage) := if_pos hpressure
    rw [hpick] at hnext ⊢
    rw [recent_pickCandidate]
    by_cases huid : s.NextForMemory r uid
    · rw [if_pos (hnext.mpr huid),decide_eq_false_iff_not,Nat.not_lt]
      exact ⟨fun h => ⟨fun _ => h,fun hnot => (hnot huid).elim⟩,fun h => h.1 huid⟩
    · rw [if_neg (fun h => huid (hnext.mp h))]
      exact ⟨fun h => ⟨fun h' => (huid h').elim,fun _ => h⟩,fun h => h.2 huid⟩
  · have hpick : s.memoryPick r = (s.manager,none) := if_neg hpressure
    have huid : ¬s.NextForMemory r uid := fun h => hpressure h.1
    rw [hpick]
    exact ⟨fun h => ⟨fun h' => (huid h').elim,fun _ => h⟩,fun h => h.2 huid⟩

theorem diskPick_iff : (s.diskPick r).map (·.podUid) = some uid ↔
    (s.pressure r).diskPressure = true ∧ Foremost (s.FreshForDisk r) (s.diskOrder r) uid := by
  unfold diskPick pickDisk
  split
  · next h =>
    rw [pickCandidate_uid,find?_eq_some_iff_foremost]
    simp only [h,true_and]
    exact foremost_congr (fun v => by rw [Bool.not_eq_true'];exact recent_memoryPick)
  · next h => exact iff_of_false (fun h' => Option.some_ne_none uid h'.symm) (fun h' => h h'.1)

theorem nodup_decisions_iff : ((s.decisions r).map (·.podUid)).Nodup ↔
    ∀ uid, (s.memoryPick r).2.map (·.podUid) = some uid → (s.diskPick r).map (·.podUid) ≠ some uid := by
  rw [decisions_eq]
  cases (s.memoryPick r).2 with
  | none => cases s.diskPick r <;> simp
  | some d => cases s.diskPick r <;> simp [eq_comm]

theorem forall_decisions_iff {P : PodUID → Prop} : (∀ d ∈ s.decisions r, P d.podUid) ↔
    (∀ uid, (s.memoryPick r).2.map (·.podUid) = some uid → P uid) ∧
      ∀ uid, (s.diskPick r).map (·.podUid) = some uid → P uid := by
  rw [decisions_eq]
  cases (s.memoryPick r).2 with
  | none => cases s.diskPick r <;> simp
  | some d => cases s.diskPick r <;> simp

/-- A round makes progress exactly when the finished pods are spared. -/
theorem reclaims_iff : s.Reclaims r ↔ s.Spared r := by
  have hreclaims : s.Reclaims r ↔
      (∀ uid, s.NextForMemory r uid → ¬s.Finished uid) ∧
        ∀ uid, (s.pressure r).diskPressure = true → Foremost (s.FreshForDisk r) (s.diskOrder r) uid →
          ¬(s.Finished uid ∨ s.NextForMemory r uid) := by
    constructor
    · intro h
      obtain ⟨hmemory,hdisk⟩ := forall_decisions_iff (P := fun uid => ¬s.Finished uid).mp h.running
      refine ⟨fun uid huid => hmemory uid (memoryPick_iff.mpr huid),fun uid hp huid => ?_⟩
      have hpick := diskPick_iff.mpr ⟨hp,huid⟩
      rintro (hfinished | hnext)
      · exact hdisk uid hpick hfinished
      · exact nodup_decisions_iff.mp h.distinct uid (memoryPick_iff.mpr hnext) hpick
    · rintro ⟨hmemory,hdisk⟩
      refine ⟨nodup_decisions_iff.mpr (fun uid hfirst hsecond => ?_),forall_decisions_iff (P := fun uid => ¬s.Finished uid).mpr ⟨?_,?_⟩⟩
      · obtain ⟨hp,huid⟩ := diskPick_iff.mp hsecond
        exact hdisk uid hp huid (.inr (memoryPick_iff.mp hfirst))
      · exact fun uid huid => hmemory uid (memoryPick_iff.mp huid)
      · intro uid hsecond hfinished
        obtain ⟨hp,huid⟩ := diskPick_iff.mp hsecond
        exact hdisk uid hp huid (.inl hfinished)
  rw [hreclaims]
  constructor
  · rintro ⟨hmemory,hdisk⟩
    exact ⟨fun hp => spares_iff.mpr (fun uid huid => hmemory uid ⟨hp,huid⟩),
      fun hp => spares_iff.mpr (fun uid huid => hdisk uid hp huid)⟩
  · intro h
    exact ⟨fun uid huid => spares_iff.mp (h.memory huid.1) uid huid.2,
      fun uid hp huid => spares_iff.mp (h.disk hp) uid huid⟩

/-! ## What becomes of the pods -/

theorem get_evictPod {s : ManagerState} {message : String} {gracePeriod : ℕ} {now : DateTime} {u : PodUID} :
    (s.evictPod u message gracePeriod now).podManager.get uid = s.podManager.get uid := by
  unfold ManagerState.evictPod
  cases s.podManager.get u <;> rfl

theorem finished_evictPod {s : ManagerState} {message : String} {gracePeriod : ℕ} {now : DateTime} {u : PodUID}
    (h : (u = uid ∧ (s.podManager.get uid).isSome = true) ∨ isTerminalStatus s.podManager uid = true) :
    isTerminalStatus (s.evictPod u message gracePeriod now).podManager uid = true := by
  unfold ManagerState.evictPod
  cases hget : s.podManager.get u with
  | none =>
    rcases h with ⟨rfl,h⟩ | h
    · rw [hget] at h
      cases h
    · exact h
  | some pod =>
    unfold isTerminalStatus
    by_cases hu : uid = u
    · subst hu
      have hset : (s.podManager.status.set uid
          (evictedState ((s.podManager.status.get uid).getD {}) message now)).get uid =
            some (evictedState ((s.podManager.status.get uid).getD {}) message now) := PodStatusManager.get_set _ _
      exact congrArg (Option.any _) hset
    · have hset : (s.podManager.status.set u
          (evictedState ((s.podManager.status.get u).getD {}) message now)).get uid = s.podManager.status.get uid :=
        PodStatusManager.get_set_ne _ hu _
      rcases h with ⟨h,-⟩ | h
      · exact (hu h.symm).elim
      · exact (congrArg (Option.any _) hset).trans h

theorem finished_carryOut (now : DateTime) (ds : List EvictionDecision) (s : ManagerState)
    (h : (uid ∈ ds.map (·.podUid) ∧ (s.podManager.get uid).isSome = true) ∨
      isTerminalStatus s.podManager uid = true) :
    isTerminalStatus (ds.foldl (carryOut now) s).podManager uid = true := by
  induction ds generalizing s with
  | nil =>
    rcases h with ⟨h,-⟩ | h
    · cases h
    · exact h
  | cons d ds ih =>
    apply ih (carryOut now s d)
    rcases h with ⟨h,hget⟩ | h
    · rcases List.mem_cons.mp h with rfl | h
      · exact .inr (finished_evictPod (.inl ⟨rfl,hget⟩))
      · exact .inl ⟨h,(congrArg Option.isSome get_evictPod).trans hget⟩
    · exact .inr (finished_evictPod (.inr h))

theorem mem_order {read : PodResourceUsage → UInt64} {pods : List PodSpec} {usage : HashMap PodUID PodResourceUsage}
    (h : uid ∈ (rank read pods usage).map (·.1)) : ∃ pod ∈ pods, pod.uid = uid := by
  obtain ⟨x,hx,rfl⟩ := List.mem_map.mp h
  obtain ⟨pod,hpod,rfl⟩ := List.mem_map.mp ((List.perm_insertionSort _ _).mem_iff.mp hx)
  exact ⟨pod,hpod,rfl⟩

theorem get_of_mem_pods {pod : PodSpec} (h : pod ∈ s.pods r) : s.runtime.podManager.get pod.uid = some pod :=
  (PodManager.mem_list _ pod).mp ((r.walk_perm _).mem_iff.mp h)

/-- A round evicts every pod that it decides on. -/
theorem finished_decisions : ∀ d ∈ s.decisions r, (s.step (.round r)).Finished d.podUid := by
  have hget : ∀ d ∈ s.decisions r, (s.runtime.podManager.get d.podUid).isSome = true := by
    refine forall_decisions_iff (P := fun uid => (s.runtime.podManager.get uid).isSome = true).mpr ⟨?_,?_⟩
    · intro uid huid
      obtain ⟨pod,hpod,rfl⟩ := mem_order (mem_of_foremost (memoryPick_iff.mp huid).2)
      exact Option.isSome_of_eq_some (get_of_mem_pods (List.mem_filter.mp hpod).1)
    · intro uid huid
      obtain ⟨pod,hpod,rfl⟩ := mem_order (mem_of_foremost (diskPick_iff.mp huid).2)
      exact Option.isSome_of_eq_some (get_of_mem_pods hpod)
  intro d hd
  exact finished_carryOut r.now (s.decisions r) s.runtime (.inl ⟨List.mem_map_of_mem hd,hget d hd⟩)

/-! ## Runs -/

/-- A law about the rounds among the steps. -/
def OnRounds (P : EvictionLoop → EvictionRound → Prop) (s : EvictionLoop) : EvictionStep → Prop
  | .round r => P s r
  | .runtime _ => True

/-- Every round of a run evicts distinct pods that still run exactly when, in each of them, the
finished pods are spared. -/
theorem evictions_reclaim_iff (s : EvictionLoop) (w : List EvictionStep) :
    EachStep step (OnRounds Reclaims) s w ↔ EachStep step (OnRounds Spared) s w := by
  refine eachStep_congr (fun s a => ?_)
  cases a with
  | round r => exact reclaims_iff
  | runtime a => exact Iff.rfl

def webPod (n : String) : PodSpec where
  uid := ⟨n⟩
  podRef := ⟨"default",n⟩
  containers := [{ name := "app", image := "nginx" }]

/-- Two pods on a node whose memory runs out below 100 bytes. -/
def crowdedNode : EvictionLoop where
  manager := { evaluator := ⟨[⟨"memory.available",.absolute 100⟩],[]⟩ }
  runtime := { podManager := ((({} : PodManager).upsert (webPod "web-1") 0).2.upsert (webPod "web-2") 0).2 }

/-- A round with 50 bytes left. -/
def roundAt (now : Instant) : EvictionRound where
  resources := ⟨50,1000,1000,1000,100,100⟩
  memoryClock := ⟨fun _ => now,now⟩
  diskClock := ⟨fun _ => now,now⟩
  now := (now : ℕ)

/-- The pod that was evicted first is evicted again half a minute later, while the other runs. -/
theorem finished_pod_evicted_again : ¬∀ (s : EvictionLoop) (rounds : List EvictionRound),
    EachStep step (OnRounds Reclaims) s (rounds.map .round) := by
  intro h
  have hagain := (h crowdedNode [roundAt 0,roundAt (30 * 10 ^ 9)]).2.1.running
  have hdecided : ((crowdedNode.step (.round (roundAt 0))).decisions (roundAt (30 * 10 ^ 9))).any
      (fun d => isTerminalStatus (crowdedNode.step (.round (roundAt 0))).runtime.podManager d.podUid) = true := by
    decide +kernel
  obtain ⟨d,hd,hfinished⟩ := List.any_eq_true.mp hdecided
  exact hagain d hd hfinished

end EvictionLoop

end KubeAir.Manager
