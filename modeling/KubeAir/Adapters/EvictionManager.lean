import KubeAir.Adapters.Eviction
import KubeAir.Core.Qos
import Mathlib.Data.List.Sort

/-! # The eviction manager

It ranks the desired pods under pressure and picks one for each kind, which it then leaves alone
for a while.
-/
namespace KubeAir.Adapters.Eviction
open Core

inductive EvictionReason
  | memoryPressure
  | diskPressure
  | pidPressure
  | nodeConditionPressure (reason : String)
deriving DecidableEq, Repr

structure EvictionDecision where
  podUid : PodUID
  podRef : PodRef
  reason : EvictionReason
  message : String
  /-- in seconds -/
  gracePeriod : ℕ
deriving DecidableEq, Repr

structure PodResourceUsage where
  memoryBytes : UInt64 := 0
  cpuMillicores : UInt64 := 0
  diskBytes : UInt64 := 0

/-- A pod in a ranking: its UID, its class and its usage. -/
abbrev Ranked := PodUID × QosClass × UInt64

/-- Lower value is evicted first. -/
def qosEvictionPriority : QosClass → ℕ
  | .bestEffort => 0
  | .burstable => 1
  | .guaranteed => 2

/-- The order of a ranking: the class, then the higher usage. -/
def rankedBefore (a b : Ranked) : Prop :=
  qosEvictionPriority a.2.1 < qosEvictionPriority b.2.1 ∨
    qosEvictionPriority a.2.1 = qosEvictionPriority b.2.1 ∧ b.2.2 ≤ a.2.2

instance : DecidableRel rankedBefore := fun _ _ => inferInstanceAs (Decidable (_ ∨ _))

/-- A ranking by the usage that is read; `sort_by` is stable. -/
def rank (read : PodResourceUsage → UInt64) (pods : List PodSpec) (usage : HashMap PodUID PodResourceUsage) :
    List Ranked :=
  (pods.map (fun p => (p.uid,computeQosClass p,((usage.lookup p.uid).map read).getD 0))).insertionSort rankedBefore

/-- Pods that are never restarted are left out. -/
def rankForMemory (pods : List PodSpec) (usage : HashMap PodUID PodResourceUsage) : List Ranked :=
  rank (·.memoryBytes) (pods.filter (fun p => p.restartPolicy ≠ .never)) usage

def rankForDisk (pods : List PodSpec) (usage : HashMap PodUID PodResourceUsage) : List Ranked :=
  rank (·.diskBytes) pods usage

structure EvictionManager where
  evaluator : EvictionEvaluator
  gracePeriodOverride : Option ℕ := none
  lastEvictions : HashMap PodUID Instant := ∅
  minEvictionReclaimPeriod : Instant := 30 * 10 ^ 9

/-- The clock readings of a pick: one at the check of each candidate, and one when the pick is
recorded. -/
structure PickClock where
  checkedAt : PodUID → Instant
  recordedAt : Instant

namespace EvictionManager

/-- The last eviction of a pod is not over for long enough. -/
def recent (m : EvictionManager) (clock : PickClock) (uid : PodUID) : Bool :=
  match m.lastEvictions.lookup uid with
  | some last => clock.checkedAt uid - last < m.minEvictionReclaimPeriod
  | none => false

def gracePeriodForQos (m : EvictionManager) (qos : QosClass) : ℕ :=
  m.gracePeriodOverride.getD (match qos with
    | .guaranteed => 30
    | .burstable => 10
    | .bestEffort => 0)

/-- The pick is the first pod of the ranking that was not evicted lately. -/
def pickCandidate (m : EvictionManager) (clock : PickClock) (reason : EvictionReason) :
    List Ranked → EvictionManager × Option EvictionDecision
  | [] => (m,none)
  | (uid,qos,_) :: rest =>
    if m.recent clock uid then m.pickCandidate clock reason rest
    else
      ({ m with lastEvictions := m.lastEvictions.insert uid clock.recordedAt },
        some
          { podUid := uid
            podRef := ⟨"unknown",uid.val⟩
            reason := reason
            message := "The node was low on resource. Threshold capacity was exceeded."
            gracePeriod := m.gracePeriodForQos qos })

/-- What a call is given: the resources of the node, the usage of the pods, and its clock
readings. -/
structure Evaluation where
  resources : NodeResources
  usage : HashMap PodUID PodResourceUsage := ∅
  memoryClock : PickClock
  diskClock : PickClock

def pickMemory (m : EvictionManager) (pods : List PodSpec) (e : Evaluation) :
    EvictionManager × Option EvictionDecision :=
  if (m.evaluator.evaluate e.resources).memoryPressure then
    m.pickCandidate e.memoryClock .memoryPressure (rankForMemory pods e.usage)
  else (m,none)

/-- The second pick, with the pressure that was found at the start of the call. -/
def pickDisk (m : EvictionManager) (pods : List PodSpec) (e : Evaluation) (pressure : ResourcePressure) :
    EvictionManager × Option EvictionDecision :=
  if pressure.diskPressure then m.pickCandidate e.diskClock .diskPressure (rankForDisk pods e.usage) else (m,none)

def evaluate (m : EvictionManager) (pods : List PodSpec) (e : Evaluation) :
    EvictionManager × List EvictionDecision :=
  let (m₁,memory) := m.pickMemory pods e
  let (m₂,disk) := m₁.pickDisk pods e (m.evaluator.evaluate e.resources)
  (m₂,memory.toList ++ disk.toList)

/-! ## What is picked -/

variable {m : EvictionManager} {clock : PickClock} {reason : EvictionReason}

/-- The pod that is picked is the first that was not evicted lately. -/
theorem pickCandidate_uid (ranked : List Ranked) :
    (m.pickCandidate clock reason ranked).2.map (·.podUid) =
      (ranked.map (·.1)).find? (fun uid => !m.recent clock uid) := by
  induction ranked with
  | nil => rfl
  | cons x ranked ih =>
    unfold pickCandidate
    rw [List.map_cons,List.find?_cons]
    cases m.recent clock x.1 with
    | true => exact ih
    | false => rfl

/-- A pick is remembered with its time, and nothing else is. -/
theorem recent_pickCandidate (later : PickClock) (uid : PodUID) (ranked : List Ranked) :
    (m.pickCandidate clock reason ranked).1.recent later uid =
      if (m.pickCandidate clock reason ranked).2.map (·.podUid) = some uid then
        decide (later.checkedAt uid - clock.recordedAt < m.minEvictionReclaimPeriod)
      else m.recent later uid := by
  induction ranked with
  | nil => rfl
  | cons x ranked ih =>
    unfold pickCandidate
    cases m.recent clock x.1 with
    | true => exact ih
    | false =>
      by_cases hx : x.1 = uid
      · subst hx
        have hlookup : (m.lastEvictions.insert x.1 clock.recordedAt).lookup x.1 = some clock.recordedAt :=
          AList.lookup_insert _
        simp only [recent,Bool.false_eq_true,if_false,Option.map_some,if_true,hlookup]
      · have hlookup : (m.lastEvictions.insert x.1 clock.recordedAt).lookup uid = m.lastEvictions.lookup uid :=
          AList.lookup_insert_ne (Ne.symm hx)
        simp only [recent,Bool.false_eq_true,if_false,Option.map_some,Option.some.injEq,hx,hlookup]

end EvictionManager

end KubeAir.Adapters.Eviction
