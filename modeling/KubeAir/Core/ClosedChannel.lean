import KubeAir.Core.PodManager

/-! # Calls on a closed update channel

Every call writes its maps first and sends its event last. On a closed channel it fails
with the maps already written, exactly as the same call leaves them when the channel is open.
-/
namespace KubeAir.Core

inductive ManagerCall
  | upsert (pod : PodSpec) (now : DateTime)
  | remove (uid : PodUID) (fallbackSpec : Option PodSpec) (at_ : Instant)

namespace PodManager

def perform (m : PodManager) : ManagerCall → Except KubeletError Unit × PodManager
  | .upsert pod now => m.upsert pod now
  | .remove uid fallbackSpec at_ => m.remove uid fallbackSpec at_

/-- The same manager while the receiver still takes events. -/
def opened (m : PodManager) : PodManager := { m with updateTx := { m.updateTx with closed := false } }

/-- The maps agree; the channels may differ. -/
structure SameMaps (m n : PodManager) : Prop where
  desired : m.desired = n.desired
  recentlyRemoved : m.recentlyRemoved = n.recentlyRemoved
  status : m.status = n.status

/-- No desired pod and no status has changed. -/
structure Unchanged (m t : PodManager) : Prop where
  desired : ∀ uid, t.get uid = m.get uid
  status : ∀ uid, t.status.get uid = m.status.get uid

/-- The call has nothing to write: the pod is stored as it comes, or there is none to take out. -/
def Idle (m : PodManager) : ManagerCall → Prop
  | .upsert pod _ => m.get pod.uid = some (m.inheritAliases pod)
  | .remove uid _ _ => m.get uid = none

section Lemmas
variable {m n : PodManager} {pod : PodSpec} {e : KubeletError}

theorem sameMaps_mergeAliases (existing pod : PodSpec) :
    SameMaps (m.mergeAliases existing pod).2 (m.opened.mergeAliases existing pod).2 := by
  unfold mergeAliases
  by_cases hne : existing.hostAliases ≠ pod.hostAliases
  · rw [if_pos hne,if_pos hne]
    exact ⟨rfl,rfl,rfl⟩
  · rw [if_neg hne,if_neg hne]
    exact ⟨rfl,rfl,rfl⟩

theorem sameMaps_insertPod (pod : PodSpec) (now : DateTime) :
    SameMaps (m.insertPod pod now).2 (m.opened.insertPod pod now).2 := by
  have hget : m.opened.get pod.uid = m.get pod.uid := rfl
  unfold insertPod
  rw [hget]
  cases m.get pod.uid with
  | none => exact ⟨rfl,rfl,rfl⟩
  | some old => exact ⟨rfl,rfl,rfl⟩

/-- A call writes the same maps whether the channel is closed or not. -/
theorem sameMaps_perform (m : PodManager) (c : ManagerCall) : SameMaps (m.perform c).2 (m.opened.perform c).2 := by
  cases c with
  | upsert pod now =>
    show SameMaps (m.upsert pod now).2 (m.opened.upsert pod now).2
    by_cases hmerges : m.Merges pod
    · obtain ⟨existing,hentry⟩ := Option.isSome_iff_exists.mp hmerges.2.2
      rw [upsert_of_merges m pod hmerges hentry,upsert_of_merges m.opened pod hmerges hentry]
      exact sameMaps_mergeAliases existing pod
    · rw [upsert_of_not_merges m pod hmerges,upsert_of_not_merges m.opened pod hmerges]
      exact sameMaps_insertPod _ now
  | remove uid fallbackSpec at_ =>
    have hget : m.opened.get uid = m.get uid := rfl
    show SameMaps (m.remove uid fallbackSpec at_).2 (m.opened.remove uid fallbackSpec at_).2
    unfold remove
    rw [hget]
    cases m.get uid with
    | some pod => exact ⟨rfl,rfl,rfl⟩
    | none =>
      cases fallbackSpec with
      | some spec => exact ⟨rfl,rfl,rfl⟩
      | none => exact ⟨rfl,rfl,rfl⟩

theorem mergeAliases_error {existing : PodSpec} (h : (m.mergeAliases existing pod).1 = .error e) :
    existing.hostAliases ≠ pod.hostAliases := by
  intro hsame
  unfold mergeAliases at h
  rw [if_neg (not_not_intro hsame)] at h
  cases h

/-- A failed upsert has left the maps alone exactly when the pod was stored as it came. -/
theorem unchanged_upsert_iff {now : DateTime} (h : (m.upsert pod now).1 = .error e) :
    Unchanged m (m.upsert pod now).2 ↔ m.get pod.uid = some (m.inheritAliases pod) := by
  by_cases hmerges : m.Merges pod
  · obtain ⟨existing,hentry⟩ := Option.isSome_iff_exists.mp hmerges.2.2
    rw [upsert_of_merges m pod hmerges hentry] at h ⊢
    have hne := mergeAliases_error h
    constructor
    · intro hsame
      have hget := hsame.desired existing.uid
      rw [equivalentEntry_get m pod hentry] at hget
      unfold mergeAliases at hget
      rw [if_pos hne] at hget
      dsimp only at hget
      rw [get_send] at hget
      have hstored : ((m.store { existing with hostAliases := pod.hostAliases }).get existing.uid) =
          some { existing with hostAliases := pod.hostAliases } := get_store_self m _
      rw [hstored] at hget
      exact absurd (congrArg PodSpec.hostAliases (Option.some.inj hget)).symm hne
    · intro hget
      rw [hmerges.1] at hget
      cases hget
  · rw [upsert_of_not_merges m pod hmerges] at h ⊢
    have huid := inheritAliases_uid m pod
    constructor
    · intro hsame
      have hget := hsame.desired pod.uid
      rw [get_insertPod,← huid,get_store_self] at hget
      rw [← huid]
      exact hget.symm
    · intro hget
      refine ⟨?_,?_⟩
      · intro uid
        rw [get_insertPod]
        by_cases hu : uid = (m.inheritAliases pod).uid
        · rw [hu,get_store_self,huid,hget]
        · exact get_store_ne m _ uid hu
      · intro uid
        have hsome : (m.get (m.inheritAliases pod).uid).isNone = false := by
          rw [huid,hget]
          rfl
        unfold insertPod
        rw [hsome]
        rfl

theorem unchanged_remove_iff (uid : PodUID) (fallbackSpec : Option PodSpec) (at_ : Instant) :
    Unchanged m (m.remove uid fallbackSpec at_).2 ↔ m.get uid = none := by
  constructor
  · intro hsame
    have hget := hsame.desired uid
    rw [get_remove,if_pos rfl] at hget
    exact hget.symm
  · intro hnone
    refine ⟨?_,?_⟩
    · intro u
      rw [get_remove]
      by_cases hu : u = uid
      · rw [if_pos hu,hu,hnone]
      · rw [if_neg hu]
    · intro u
      rw [status_remove]

theorem ok_of_opened (m : PodManager) (c : ManagerCall) : (m.opened.perform c).1 = .ok () := by
  have hsend (n : PodManager) (u : PodUpdate) (hopen : n.updateTx.closed = false) : (n.send u).1 = .ok () := by
    unfold send UpdateChannel.send
    rw [hopen]
    rfl
  cases c with
  | upsert pod now =>
    show (m.opened.upsert pod now).1 = .ok ()
    by_cases hmerges : m.opened.Merges pod
    · obtain ⟨existing,hentry⟩ := Option.isSome_iff_exists.mp hmerges.2.2
      rw [upsert_of_merges m.opened pod hmerges hentry]
      unfold mergeAliases
      by_cases hne : existing.hostAliases ≠ pod.hostAliases
      · rw [if_pos hne]
        exact hsend _ _ rfl
      · rw [if_neg hne]
    · rw [upsert_of_not_merges m.opened pod hmerges]
      unfold insertPod
      cases m.opened.get (m.opened.inheritAliases pod).uid with
      | none => exact hsend _ _ rfl
      | some old => exact hsend _ _ rfl
  | remove uid fallbackSpec at_ =>
    show (m.opened.remove uid fallbackSpec at_).1 = .ok ()
    unfold remove
    cases m.opened.get uid with
    | some pod => exact hsend _ _ rfl
    | none =>
      cases fallbackSpec with
      | some spec => exact hsend _ _ rfl
      | none => rfl

end Lemmas

/-- A call that fails on the closed channel has written what the same call writes when its event is sent:
only the event is lost. It has changed nothing exactly when it had nothing to write. -/
theorem error_applied {m : PodManager} {c : ManagerCall} {e : KubeletError} (h : (m.perform c).1 = .error e) :
    (m.opened.perform c).1 = .ok () ∧ SameMaps (m.perform c).2 (m.opened.perform c).2 ∧
      (Unchanged m (m.perform c).2 ↔ m.Idle c) := by
  refine ⟨ok_of_opened m c,sameMaps_perform m c,?_⟩
  cases c with
  | upsert pod now => exact unchanged_upsert_iff h
  | remove uid fallbackSpec at_ => exact unchanged_remove_iff uid fallbackSpec at_

/-- A manager whose receiver is gone. -/
def deserted : PodManager := { updateTx := { closed := true } }

def lonePod : PodSpec := { uid := ⟨"pod"⟩, podRef := { ns := "default", name := "web" } }

theorem error_applied_deserted :
    (deserted.opened.perform (.upsert lonePod 0)).1 = .ok () ∧
      SameMaps (deserted.perform (.upsert lonePod 0)).2 (deserted.opened.perform (.upsert lonePod 0)).2 ∧
      (Unchanged deserted (deserted.perform (.upsert lonePod 0)).2 ↔ deserted.Idle (.upsert lonePod 0)) :=
  error_applied (e := .internal "pod update channel closed: channel closed") rfl

/-- The failed upsert leaves the new pod among the desired ones, and the failed removal leaves it out. -/
theorem not_unchanged_on_error :
    (deserted.upsert lonePod 0).1 = .error (.internal "pod update channel closed: channel closed") ∧
      ¬ Unchanged deserted (deserted.upsert lonePod 0).2 ∧
    ((deserted.store lonePod).remove lonePod.uid none 0).1 =
        .error (.internal "pod update channel closed: channel closed") ∧
      ¬ Unchanged (deserted.store lonePod) ((deserted.store lonePod).remove lonePod.uid none 0).2 := by
  have herror : (deserted.upsert lonePod 0).1 = .error (.internal "pod update channel closed: channel closed") := rfl
  refine ⟨herror,?_,rfl,?_⟩
  · intro hsame
    have hget : deserted.get lonePod.uid = some (deserted.inheritAliases lonePod) :=
      (unchanged_upsert_iff herror).mp hsame
    cases hget
  · intro hsame
    have hget := (unchanged_remove_iff lonePod.uid none 0).mp hsame
    rw [get_store_self] at hget
    cases hget

end PodManager
end KubeAir.Core
