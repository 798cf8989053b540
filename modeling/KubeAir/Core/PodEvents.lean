import KubeAir.Core.PodManager
import KubeAir.Transition.Runs

/-! # Replay of the pod events

A consumer that only sees the events of the pod manager rebuilds the desired pods from
them. The map is iterated in an order that can change between two calls.
-/
namespace KubeAir.Core
open Transition

/-- What one event does to a consumer's map. -/
def applyUpdate (view : HashMap PodUID PodSpec) (u : PodUpdate) : HashMap PodUID PodSpec :=
  match u.op with
  | .add => view.insert u.pod.uid u.pod
  | .update => view.insert u.pod.uid u.pod
  | .remove => view.erase u.pod.uid
  | .reconcile => view

def replay (events : List PodUpdate) : HashMap PodUID PodSpec := events.foldl applyUpdate ∅

theorem replay_concat (events : List PodUpdate) (u : PodUpdate) :
    replay (events ++ [u]) = applyUpdate (replay events) u := by
  unfold replay
  rw [List.foldl_append]
  rfl

/-- The calls that the sources make. A removal is forwarded with the spec that it came with. -/
inductive PodCall
  | upsert (pod : PodSpec) (now : DateTime)
  | remove (uid : PodUID) (fallbackSpec : Option {spec : PodSpec // spec.uid = uid}) (at_ : Instant)

namespace PodManager

def call (m : PodManager) : PodCall → Except KubeletError Unit × PodManager
  | .upsert pod now => m.upsert pod now
  | .remove uid fallbackSpec at_ => m.remove uid (fallbackSpec.map (·.val)) at_

/-- The same manager, with the desired pods iterated in another order. -/
structure Reordered (m n : PodManager) : Prop where
  desired : m.desired.entries.Perm n.desired.entries
  status : n.status = m.status
  updateTx : n.updateTx = m.updateTx

/-- A call in which every send succeeds. -/
def Called (m : PodManager) (c : PodCall) (t : PodManager) : Prop :=
  ∃ n, Reordered m n ∧ n.call c = (.ok (),t)

/-- The events rebuild the desired pods, and each of them has a status. -/
structure InStep (m : PodManager) : Prop where
  replayed : ∀ uid, (replay m.updateTx.queue).lookup uid = m.get uid
  status : ∀ uid, (m.get uid).isSome = true → (m.status.get uid).isSome = true

/-- What a successful call does to the desired pods, to the statuses and to the events. -/
inductive Emits (m t : PodManager) : Prop
  | nothing (h : t = m)
  | stored (pod : PodSpec) (op : PodOperation) (hop : op = .add ∨ op = .update)
      (hget : ∀ u, t.get u = (m.store pod).get u)
      (hqueue : t.updateTx.queue = m.updateTx.queue ++ [⟨pod,op⟩])
      (hkept : ∀ u, (m.status.get u).isSome = true → (t.status.get u).isSome = true)
      (hnew : m.get pod.uid = none → (t.status.get pod.uid).isSome = true)
  | dropped (pod : PodSpec) (hget : ∀ u, t.get u = if u = pod.uid then none else m.get u)
      (hqueue : t.updateTx.queue = m.updateTx.queue ++ [⟨pod,.remove⟩])
      (hkept : t.status = m.status)

section Steps
variable {m n t : PodManager}

theorem send_queue {u : PodUpdate} (h : m.send u = (.ok (),t)) :
    t.updateTx.queue = m.updateTx.queue ++ [u] := by
  unfold send UpdateChannel.send at h
  split at h
  next r c hsend =>
    obtain ⟨rfl,rfl⟩ := Prod.mk.inj h
    split at hsend
    · cases hsend
    · obtain ⟨-,rfl⟩ := Prod.mk.inj hsend
      rfl

theorem send_snd {r : Except KubeletError Unit} {u : PodUpdate} (h : m.send u = (r,t)) :
    t.status = m.status ∧ ∀ uid, t.get uid = m.get uid := by
  obtain rfl : (m.send u).2 = t := by rw [h]
  exact ⟨rfl,fun _ => rfl⟩

theorem emits_mergeAliases {pod existing : PodSpec} (hentry : m.get existing.uid = some existing)
    (h : m.mergeAliases existing pod = (.ok (),t)) : Emits m t := by
  unfold mergeAliases at h
  split at h
  · obtain ⟨hstatus,hget⟩ := send_snd h
    have hqueue := send_queue h
    refine .stored { existing with hostAliases := pod.hostAliases } .update (.inr rfl) hget hqueue ?_ ?_
    · intro u hu
      rw [hstatus]
      exact hu
    · intro hnone
      change m.get existing.uid = none at hnone
      rw [hentry] at hnone
      cases hnone
  · obtain ⟨-,rfl⟩ := Prod.mk.inj h
    exact .nothing rfl

theorem emits_insertPod {pod : PodSpec} {now : DateTime} (h : m.insertPod pod now = (.ok (),t)) : Emits m t := by
  unfold insertPod at h
  dsimp only at h
  obtain ⟨hstatus,hget⟩ := send_snd h
  have hqueue := send_queue h
  cases hold : m.get pod.uid with
  | none =>
    rw [hold] at hstatus hget hqueue
    refine .stored pod .add (.inl rfl) hget hqueue ?_ ?_
    · intro u hu
      rw [hstatus]
      by_cases huid : u = pod.uid
      · subst huid
        exact Option.isSome_of_eq_some (PodStatusManager.get_initializePod _ pod now)
      · exact (congrArg Option.isSome (PodStatusManager.get_initializePod_ne m.status huid now)).trans hu
    · intro _
      rw [hstatus]
      exact Option.isSome_of_eq_some (PodStatusManager.get_initializePod _ pod now)
  | some old =>
    rw [hold] at hstatus hget hqueue
    refine .stored pod .update (.inr rfl) hget hqueue ?_ ?_
    · intro u hu
      rw [hstatus]
      exact hu
    · intro hnone
      rw [hold] at hnone
      cases hnone

theorem emits_upsert {pod : PodSpec} {now : DateTime} (h : m.upsert pod now = (.ok (),t)) : Emits m t := by
  by_cases hmerges : m.Merges pod
  · obtain ⟨existing,hentry⟩ := Option.isSome_iff_exists.mp hmerges.2.2
    rw [upsert_of_merges m pod hmerges hentry] at h
    exact emits_mergeAliases (equivalentEntry_get m pod hentry) h
  · rw [upsert_of_not_merges m pod hmerges] at h
    exact emits_insertPod h

theorem emits_remove {uid : PodUID} {fallbackSpec : Option {spec : PodSpec // spec.uid = uid}} {at_ : Instant}
    (h : m.remove uid (fallbackSpec.map (·.val)) at_ = (.ok (),t)) : Emits m t := by
  have hget (u : PodUID) : t.get u = if u = uid then none else m.get u := by
    rw [← get_remove m u (fallbackSpec.map (·.val)) uid at_,h]
  have hstatus : t.status = m.status := by
    rw [← status_remove m (fallbackSpec.map (·.val)) uid at_,h]
  unfold remove at h
  split at h
  · next pod hpod =>
    have hkey : pod.uid = uid := m.keyed uid pod hpod
    subst hkey
    have hqueue := send_queue h
    exact .dropped pod hget hqueue hstatus
  · cases fallbackSpec with
    | none =>
      obtain ⟨-,rfl⟩ := Prod.mk.inj h
      exact .nothing rfl
    | some spec =>
      obtain ⟨spec,rfl⟩ := spec
      exact .dropped spec hget (send_queue h) hstatus

theorem emits_call {c : PodCall} (h : m.call c = (.ok (),t)) : Emits m t := by
  cases c with
  | upsert pod now => exact emits_upsert h
  | remove uid fallbackSpec at_ => exact emits_remove h

theorem Reordered.get (h : Reordered m n) (uid : PodUID) : n.get uid = m.get uid :=
  (AList.perm_lookup h.desired).symm

theorem Reordered.inStep (h : Reordered m n) (hm : InStep m) : InStep n := by
  constructor
  · intro uid
    rw [h.updateTx,h.get]
    exact hm.replayed uid
  · intro uid huid
    rw [h.get] at huid
    rw [h.status]
    exact hm.status uid huid

theorem Emits.inStep (h : Emits m t) (hm : InStep m) : InStep t := by
  cases h with
  | nothing h =>
    subst h
    exact hm
  | stored pod op hop hget hqueue hkept hnew =>
    constructor
    · intro uid
      have happly : applyUpdate (replay m.updateTx.queue) ⟨pod,op⟩ = (replay m.updateTx.queue).insert pod.uid pod := by
        rcases hop with rfl | rfl <;> rfl
      rw [hqueue,replay_concat,happly,hget]
      by_cases huid : uid = pod.uid
      · subst huid
        rw [AList.lookup_insert,get_store_self]
      · rw [AList.lookup_insert_ne huid,get_store_ne m pod uid huid]
        exact hm.replayed uid
    · intro uid huid
      rw [hget] at huid
      by_cases hsame : uid = pod.uid
      · subst hsame
        cases hold : m.get pod.uid with
        | none => exact hnew hold
        | some old => exact hkept pod.uid (hm.status pod.uid (Option.isSome_of_eq_some hold))
      · rw [get_store_ne m pod uid hsame] at huid
        exact hkept uid (hm.status uid huid)
  | dropped pod hget hqueue hkept =>
    constructor
    · intro uid
      rw [hqueue,replay_concat,hget]
      change ((replay m.updateTx.queue).erase pod.uid).lookup uid = _
      by_cases huid : uid = pod.uid
      · subst huid
        rw [AList.lookup_erase,if_pos rfl]
      · rw [AList.lookup_erase_ne huid,if_neg huid]
        exact hm.replayed uid
    · intro uid huid
      rw [hget] at huid
      rw [hkept]
      by_cases hsame : uid = pod.uid
      · rw [if_pos hsame] at huid
        cases huid
      · rw [if_neg hsame] at huid
        exact hm.status uid huid

theorem inStep_called {c : PodCall} (hm : InStep m) (h : Called m c t) : InStep t := by
  obtain ⟨n,hreordered,hcall⟩ := h
  exact (emits_call hcall).inStep (hreordered.inStep hm)

theorem inStep_empty : InStep {} := by
  constructor
  · intro uid
    rfl
  · intro uid huid
    cases huid

end Steps

/-- After any calls whose sends succeed, the events rebuild the desired pods, and each of
them has a status. -/
theorem events_replay_desired {calls : List PodCall} {m : PodManager} (hr : Runs Called {} calls m) : InStep m :=
  hr.invariant (fun _ _ _ h hs => inStep_called h hs) inStep_empty

/-- A call as a step, when the map is iterated as it is stored. -/
def succeed (m : PodManager) (c : PodCall) : Option PodManager :=
  match m.call c with
  | (.ok (),t) => some t
  | (.error _,_) => none

theorem called_of_succeed {m t : PodManager} {c : PodCall} (h : m.succeed c = some t) : Called m c t := by
  refine ⟨m,⟨.refl _,rfl,rfl⟩,?_⟩
  unfold succeed at h
  split at h
  · next t' hcall =>
    obtain rfl := Option.some.inj h
    exact hcall
  · cases h

/-- A mirror pod, the file entry that stands for it and brings aliases, and a removal of each. -/
def mirrorCalls : List PodCall :=
  let mirror : PodSpec := { uid := ⟨"mirror"⟩, podRef := { ns := "kube-system", name := "kube-vip-node" }, nodeName := "node" }
  let file : PodSpec :=
    { uid := ⟨"file"⟩, podRef := { ns := "kube-system", name := "kube-vip" }, nodeName := "node"
      hostAliases := [{ ip := "127.0.0.1", hostnames := ["kubernetes"] }] }
  [.upsert mirror 0,.upsert file 1,.upsert mirror 2,.remove ⟨"file"⟩ (some ⟨file,rfl⟩) 3]

theorem events_replay_desired_mirror : ∃ m : PodManager,
    m.updateTx.queue.map (·.op) = [.add,.update,.update,.remove] ∧ InStep m := by
  have hexec : (exec succeed {} mirrorCalls).map (fun m => m.updateTx.queue.map (·.op)) =
      some [.add,.update,.update,.remove] := by
    decide +kernel
  obtain ⟨m,hm,hqueue⟩ := Option.map_eq_some_iff.mp hexec
  exact ⟨m,hqueue,events_replay_desired ((runs_of_exec hm).mono (fun _ _ _ h => called_of_succeed h))⟩

end PodManager
end KubeAir.Core
