import KubeAir.Core.Status

/-! # Pod manager

The registry of desired pods. The record carries the invariant that every entry is
stored under the UID of its own spec. Updates are appended to the channel that the
runtime loop drains; a closed channel makes a call fail after its writes.
-/
namespace KubeAir.Core

/-- The sending half of the bounded update channel. Waiting for capacity is not an
observable effect, so the queue is unbounded here. -/
structure UpdateChannel where
  closed : Bool := false
  queue : List PodUpdate := []

def UpdateChannel.send (c : UpdateChannel) (u : PodUpdate) : Except KubeletError Unit × UpdateChannel :=
  if c.closed then (.error (.internal "pod update channel closed: channel closed"), c)
  else (.ok (), { c with queue := c.queue ++ [u] })

/-- `REMOVED_POD_TTL`, 300 seconds. -/
def removedPodTtl : Instant := 300 * 10 ^ 9

/-- The invariant of a fresh manager. -/
theorem keyed_empty (uid : PodUID) (pod : PodSpec)
    (h : (∅ : HashMap PodUID PodSpec).lookup uid = some pod) : pod.uid = uid := by
  rw [AList.lookup_empty] at h
  cases h

structure PodManager where
  desired : HashMap PodUID PodSpec := ∅
  recentlyRemoved : HashMap PodUID (PodSpec × Instant) := ∅
  status : PodStatusManager := ∅
  updateTx : UpdateChannel := {}
  keyed : ∀ uid pod, desired.lookup uid = some pod → pod.uid = uid := by exact keyed_empty

def stripNodeSuffix (name nodeName : String) : String :=
  if nodeName = "" then name else (stripSuffix name ("-" ++ nodeName)).getD name

def podNamesEquivalent (existing incoming : PodSpec) : Bool :=
  existing.podRef.name == incoming.podRef.name ||
    stripNodeSuffix existing.podRef.name existing.nodeName ==
      stripNodeSuffix incoming.podRef.name incoming.nodeName

namespace PodManager

def get (m : PodManager) (uid : PodUID) : Option PodSpec := m.desired.lookup uid

/-- All desired pods, in the iteration order of the map. -/
def list (m : PodManager) : List PodSpec := m.desired.entries.map (·.2)

/-- The entry of another UID that stands for the same static or mirror pod. -/
def equivalentEntry (m : PodManager) (pod : PodSpec) : Option PodSpec :=
  m.list.find? (fun r =>
    r.podRef.ns == pod.podRef.ns && podNamesEquivalent r pod && r.uid != pod.uid)

/-- Storing a spec under its own UID. -/
def store (m : PodManager) (pod : PodSpec) : PodManager :=
  { m with
    desired := m.desired.insert pod.uid pod
    keyed := by
      intro uid p h
      by_cases hu : uid = pod.uid
      · subst hu
        rw [AList.lookup_insert] at h
        exact (Option.some.inj h) ▸ rfl
      · rw [AList.lookup_insert_ne hu] at h
        exact m.keyed uid p h }

def send (m : PodManager) (u : PodUpdate) : Except KubeletError Unit × PodManager :=
  let (r,c) := m.updateTx.send u
  (r,{ m with updateTx := c })

/-- A pod with aliases of its own that is equivalent to a stored entry is merged
into that entry and gets no entry itself. -/
def mergeAliases (m : PodManager) (existing pod : PodSpec) : Except KubeletError Unit × PodManager :=
  if existing.hostAliases ≠ pod.hostAliases then
    let updated := { existing with hostAliases := pod.hostAliases }
    (m.store updated).send { pod := updated, op := .update }
  else (.ok (),m)

/-- The aliases a pod is stored with when it brings none itself. -/
def inheritAliases (m : PodManager) (pod : PodSpec) : PodSpec :=
  let source := if (m.get pod.uid).isSome then m.get pod.uid else m.equivalentEntry pod
  match source with
  | some existing =>
    if pod.hostAliases.isEmpty && !existing.hostAliases.isEmpty then
      { pod with hostAliases := existing.hostAliases }
    else pod
  | none => pod

/-- Writing the desired entry, the initial status of a new pod, and the event. -/
def insertPod (m : PodManager) (pod : PodSpec) (now : DateTime) :
    Except KubeletError Unit × PodManager :=
  let isNew := (m.get pod.uid).isNone
  let stored := m.store pod
  let stored := if isNew then { stored with status := stored.status.initializePod pod now } else stored
  stored.send { pod := pod, op := if isNew then .add else .update }

/-- Add or update a desired pod. -/
def upsert (m : PodManager) (pod : PodSpec) (now : DateTime) :
    Except KubeletError Unit × PodManager :=
  match if (m.get pod.uid).isNone && !pod.hostAliases.isEmpty then m.equivalentEntry pod else none with
  | some existing => m.mergeAliases existing pod
  | none => m.insertPod (m.inheritAliases pod) now

/-- Dropping the desired entry of a UID, remembering it for log requests. -/
def takeOut (m : PodManager) (uid : PodUID) (pod : PodSpec) (at_ : Instant) : PodManager :=
  let kept := (m.recentlyRemoved.insert uid (pod,at_)).entries.filter
    (fun e => decide (at_ - e.2.2 < removedPodTtl))
  { m with
    desired := m.desired.erase uid
    recentlyRemoved := kept.toAList
    keyed := by
      intro u p h
      by_cases hu : u = uid
      · subst hu
        rw [AList.lookup_erase] at h
        cases h
      · rw [AList.lookup_erase_ne hu] at h
        exact m.keyed u p h }

/-- Remove a pod. `fallbackSpec` is forwarded when the UID was never tracked. -/
def remove (m : PodManager) (uid : PodUID) (fallbackSpec : Option PodSpec) (at_ : Instant) :
    Except KubeletError Unit × PodManager :=
  match m.get uid with
  | some pod => (m.takeOut uid pod at_).send { pod := pod, op := .remove }
  | none =>
    match fallbackSpec with
    | some spec => m.send { pod := spec, op := .remove }
    | none => (.ok (),m)

/-- The events of a full reconciliation pass. -/
def reconcileEvents (m : PodManager) : List PodUpdate :=
  m.list.map (fun pod => { pod := pod, op := .reconcile })

/-- The upsert hands its aliases to an equivalent entry instead of storing the pod. -/
def Merges (m : PodManager) (pod : PodSpec) : Prop :=
  m.get pod.uid = none ∧ pod.hostAliases ≠ [] ∧ (m.equivalentEntry pod).isSome = true

instance (m : PodManager) (pod : PodSpec) : Decidable (m.Merges pod) := inferInstanceAs (Decidable (_ ∧ _ ∧ _))

section Lemmas
variable (m : PodManager) (pod : PodSpec) (u : PodUID)

theorem mem_list : pod ∈ m.list ↔ m.get pod.uid = some pod := by
  unfold list
  rw [List.mem_map]
  constructor
  · rintro ⟨⟨uid,p⟩,hmem,rfl⟩
    have hlookup := AList.mem_lookup_iff.mpr hmem
    have huid := m.keyed uid p hlookup
    dsimp only
    rw [huid]
    exact hlookup
  · intro h
    exact ⟨⟨pod.uid,pod⟩,AList.mem_lookup_iff.mp h,rfl⟩

@[simp] theorem get_store_self : (m.store pod).get pod.uid = some pod := AList.lookup_insert _

theorem get_store_ne (h : u ≠ pod.uid) : (m.store pod).get u = m.get u := AList.lookup_insert_ne h

@[simp] theorem get_send (update : PodUpdate) : (m.send update).2.get u = m.get u := rfl

theorem isSome_get_store : ((m.store pod).get u).isSome = true ↔ u = pod.uid ∨ (m.get u).isSome = true := by
  by_cases hu : u = pod.uid
  · subst hu
    simp
  · rw [get_store_ne m pod u hu]
    simp only [hu,false_or]

theorem equivalentEntry_get {existing : PodSpec} (h : m.equivalentEntry pod = some existing) :
    m.get existing.uid = some existing :=
  (m.mem_list existing).mp (List.mem_of_find?_eq_some h)

/-- Handing over aliases neither adds nor drops an entry. -/
theorem isSome_get_mergeAliases {existing : PodSpec} (h : m.get existing.uid = some existing) :
    ((m.mergeAliases existing pod).2.get u).isSome = true ↔ (m.get u).isSome = true := by
  unfold mergeAliases
  split
  · dsimp only
    rw [get_send,isSome_get_store]
    constructor
    · rintro (rfl | hu)
      · rw [h]
        rfl
      · exact hu
    · exact .inr
  · rfl

theorem inheritAliases_uid : (m.inheritAliases pod).uid = pod.uid := by
  unfold inheritAliases
  dsimp only
  split
  · split <;> rfl
  · rfl

theorem get_insertPod (now : DateTime) : (m.insertPod pod now).2.get u = (m.store pod).get u := by
  unfold insertPod
  dsimp only
  rw [get_send]
  split <;> rfl

theorem upsert_of_merges {existing : PodSpec} (h : m.Merges pod)
    (hentry : m.equivalentEntry pod = some existing) (now : DateTime) :
    m.upsert pod now = m.mergeAliases existing pod := by
  obtain ⟨hnone,hne,-⟩ := h
  unfold upsert
  rw [hnone,hentry,if_pos (by simpa using hne)]

theorem upsert_of_not_merges (h : ¬ m.Merges pod) (now : DateTime) :
    m.upsert pod now = m.insertPod (m.inheritAliases pod) now := by
  unfold upsert
  split
  · next existing heq =>
    split at heq
    · next hcond =>
      simp only [Bool.and_eq_true,Option.isNone_iff_eq_none,Bool.not_eq_true',List.isEmpty_eq_false_iff] at hcond
      exact (h ⟨hcond.1,hcond.2,by rw [heq]; rfl⟩).elim
    · cases heq
  · rfl

/-- An upsert that does not merge stores the pod; one that merges changes no key. -/
theorem isSome_get_upsert (now : DateTime) :
    ((m.upsert pod now).2.get u).isSome = true ↔
      (u = pod.uid ∧ ¬ m.Merges pod) ∨ (m.get u).isSome = true := by
  by_cases hmerges : m.Merges pod
  · obtain ⟨existing,hentry⟩ := Option.isSome_iff_exists.mp hmerges.2.2
    rw [upsert_of_merges m pod hmerges hentry,
      isSome_get_mergeAliases m pod u (equivalentEntry_get m pod hentry)]
    simp only [hmerges,not_true_eq_false,and_false,false_or]
  · rw [upsert_of_not_merges m pod hmerges,get_insertPod,isSome_get_store,inheritAliases_uid]
    simp only [hmerges,not_false_eq_true,and_true]

theorem get_remove (fallbackSpec : Option PodSpec) (uid : PodUID) (at_ : Instant) :
    (m.remove uid fallbackSpec at_).2.get u = if u = uid then none else m.get u := by
  unfold remove
  by_cases hu : u = uid
  · subst hu
    rw [if_pos rfl]
    cases hget : m.get u with
    | some pod => exact AList.lookup_erase _ _
    | none =>
      cases fallbackSpec with
      | some spec => exact hget
      | none => exact hget
  · rw [if_neg hu]
    cases hget : m.get uid with
    | some pod => exact AList.lookup_erase_ne hu
    | none => cases fallbackSpec <;> rfl

/-- An upsert changes the status only of a pod that it makes desired. -/
theorem status_upsert_cases (now : DateTime) : (m.upsert pod now).2.status.get u = m.status.get u ∨
    u = pod.uid ∧ m.get u = none ∧ ¬ m.Merges pod ∧
      ∃ st, (m.upsert pod now).2.status.get u = some st ∧ st.phase = .pending := by
  by_cases hmerges : m.Merges pod
  · obtain ⟨existing,hentry⟩ := Option.isSome_iff_exists.mp hmerges.2.2
    rw [upsert_of_merges m pod hmerges hentry]
    unfold mergeAliases
    split <;> exact .inl rfl
  · rw [upsert_of_not_merges m pod hmerges]
    unfold insertPod
    cases hget : m.get (m.inheritAliases pod).uid with
    | some old => exact .inl rfl
    | none =>
      by_cases hu : u = (m.inheritAliases pod).uid
      · subst hu
        exact .inr ⟨inheritAliases_uid m pod,hget,hmerges,m.status.initialState (m.inheritAliases pod) now,
          PodStatusManager.get_initializePod _ _ now,rfl⟩
      · refine .inl ?_
        exact PodStatusManager.get_initializePod_ne _ hu now

/-- An upsert leaves the status of the pods that are desired already. -/
theorem status_upsert (now : DateTime) (h : (m.get u).isSome = true) :
    (m.upsert pod now).2.status.get u = m.status.get u := by
  rcases status_upsert_cases m pod u now with hsame | ⟨-,hnone,-⟩
  · exact hsame
  · rw [hnone] at h
    cases h

@[simp] theorem status_remove (fallbackSpec : Option PodSpec) (uid : PodUID) (at_ : Instant) :
    (m.remove uid fallbackSpec at_).2.status = m.status := by
  unfold remove
  cases m.get uid with
  | some pod => rfl
  | none => cases fallbackSpec <;> rfl

end Lemmas
end PodManager
end KubeAir.Core
