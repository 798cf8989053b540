import KubeAir.Adapters.StatusPatch
import KubeAir.Transition.Runs
import Mathlib.Data.Finset.Basic

/-! # Status writes and force deletes by name

A call is issued for a UID and lands later. The request it sends names the pod and
nothing else, so it acts on the object that holds the name when it arrives. What the
server makes of a status patch is a parameter.
-/
namespace KubeAir.Adapters
open Core Transition

inductive ApiRequest
  | patchStatus (podRef : PodRef) (status : PodStatusDoc)
  | delete (podRef : PodRef) (gracePeriodSeconds : ℕ)

def ApiRequest.podRef : ApiRequest → PodRef
  | .patchStatus podRef _ => podRef
  | .delete podRef _ => podRef

/-- `report_pod_status`: the request sent, none in standalone mode. -/
def reportPodStatus (connected : Bool) (podRef : PodRef) (_uid : PodUID) (state : PodLifecycleState) :
    Option ApiRequest :=
  if connected then some (.patchStatus podRef (buildPodStatus state)) else none

/-- `delete_pod`: the request sent, none in standalone mode. -/
def deletePod (connected : Bool) (podRef : PodRef) (_uid : PodUID) : Option ApiRequest :=
  if connected then some (.delete podRef 0) else none

variable {Status : Type} (merge : Status → PodStatusDoc → Status)

/-- A pod object of the API server. -/
structure ApiPod (Status : Type) where
  uid : PodUID
  status : Status

structure ApiServer (Status : Type) where
  pods : HashMap PodRef (ApiPod Status) := ∅
  usedUids : Finset PodUID := ∅

/-- Requests by name act on whatever object has the name; a missing object is left missing. -/
def ApiServer.handle (s : ApiServer Status) : ApiRequest → ApiServer Status
  | .patchStatus podRef doc =>
    match s.pods.lookup podRef with
    | some pod => { s with pods := s.pods.insert podRef { pod with status := merge pod.status doc } }
    | none => s
  | .delete podRef _ => { s with pods := s.pods.erase podRef }

/-- A call on its way to the API server, with the UID it was issued for. -/
structure PodCall where
  uid : PodUID
  request : ApiRequest

structure ReporterState (Status : Type) where
  connected : Bool := true
  server : ApiServer Status := {}
  inFlight : List PodCall := []

inductive ReporterAction (Status : Type)
  /-- somebody creates a pod object under a free name and with a UID never used before -/
  | create (podRef : PodRef) (uid : PodUID) (status : Status)
  /-- somebody else removes the object -/
  | remove (podRef : PodRef)
  | reportPodStatus (podRef : PodRef) (uid : PodUID) (state : PodLifecycleState)
  | deletePod (podRef : PodRef) (uid : PodUID)
  /-- call `i` reaches the API server -/
  | land (i : ℕ)
  /-- call `i` is lost -/
  | lose (i : ℕ)

namespace ReporterState

def issue (s : ReporterState Status) (uid : PodUID) : Option ApiRequest → ReporterState Status
  | some request => { s with inFlight := s.inFlight ++ [{ uid := uid, request := request }] }
  | none => s

def step (s : ReporterState Status) : ReporterAction Status → Option (ReporterState Status)
  | .create podRef uid status =>
    if (s.server.pods.lookup podRef).isNone ∧ uid ∉ s.server.usedUids then
      some { s with
        server :=
          { pods := s.server.pods.insert podRef { uid := uid, status := status }
            usedUids := insert uid s.server.usedUids } }
    else none
  | .remove podRef => some { s with server := { s.server with pods := s.server.pods.erase podRef } }
  | .reportPodStatus podRef uid state =>
    some (s.issue uid (Adapters.reportPodStatus s.connected podRef uid state))
  | .deletePod podRef uid => some (s.issue uid (Adapters.deletePod s.connected podRef uid))
  | .land i =>
    s.inFlight[i]?.map (fun call =>
      { s with server := s.server.handle merge call.request, inFlight := s.inFlight.eraseIdx i })
  | .lose i =>
    s.inFlight[i]?.map (fun _ => { s with inFlight := s.inFlight.eraseIdx i })

end ReporterState

/-- A call deletes or changes an object that has another UID than the call. -/
def ForeignWrite (s : ReporterState Status) (a : ReporterAction Status) : Prop :=
  ∃ i call podRef pod, a = .land i ∧ s.inFlight[i]? = some call ∧
    s.server.pods.lookup podRef = some pod ∧ pod.uid ≠ call.uid ∧
    (s.server.handle merge call.request).pods.lookup podRef ≠ some pod

/-- A call lands only when its name is free or held by its own pod, or when it is a
status patch that says nothing new. -/
def LandsOnOwn (s : ReporterState Status) (a : ReporterAction Status) : Prop :=
  ∀ i call pod, a = .land i → s.inFlight[i]? = some call →
    s.server.pods.lookup call.request.podRef = some pod →
    pod.uid = call.uid ∨ ∃ podRef doc, call.request = .patchStatus podRef doc ∧ merge pod.status doc = pod.status

variable {merge}

/-- A request leaves every other name alone. -/
theorem handle_lookup_ne (s : ApiServer Status) {request : ApiRequest} {podRef : PodRef}
    (h : podRef ≠ request.podRef) : (s.handle merge request).pods.lookup podRef = s.pods.lookup podRef := by
  cases request with
  | delete ref grace => exact AList.lookup_erase_ne h
  | patchStatus ref doc =>
    simp only [ApiServer.handle]
    cases s.pods.lookup ref with
    | none => rfl
    | some pod => exact AList.lookup_insert_ne h

/-- When a request leaves the object with its name as it is. -/
theorem handle_lookup_self (s : ApiServer Status) {request : ApiRequest} {pod : ApiPod Status}
    (h : s.pods.lookup request.podRef = some pod) :
    (s.handle merge request).pods.lookup request.podRef = some pod ↔
      ∃ podRef doc, request = .patchStatus podRef doc ∧ merge pod.status doc = pod.status := by
  cases request with
  | delete ref grace =>
    constructor
    · intro hk
      rw [ApiServer.handle,ApiRequest.podRef,AList.lookup_erase] at hk
      cases hk
    · rintro ⟨_,_,heq,-⟩
      cases heq
  | patchStatus ref doc =>
    simp only [ApiRequest.podRef] at h
    simp only [ApiServer.handle,h,ApiRequest.podRef,AList.lookup_insert,Option.some.injEq]
    constructor
    · intro hk
      exact ⟨ref,doc,rfl,congrArg ApiPod.status hk⟩
    · rintro ⟨_,_,heq,hm⟩
      cases heq
      rw [hm]

theorem not_foreignWrite_iff (s : ReporterState Status) (a : ReporterAction Status) :
    ¬ ForeignWrite merge s a ↔ LandsOnOwn merge s a := by
  constructor
  · intro h i call pod ha hcall hpod
    by_cases huid : pod.uid = call.uid
    · exact .inl huid
    · right
      by_contra hnew
      refine h ⟨i,call,call.request.podRef,pod,ha,hcall,hpod,huid,?_⟩
      intro hk
      exact hnew ((handle_lookup_self s.server hpod).mp hk)
  · rintro h ⟨i,call,podRef,pod,ha,hcall,hpod,huid,hwrite⟩
    by_cases href : podRef = call.request.podRef
    · subst href
      rcases h i call pod ha hcall hpod with heq | hsame
      · exact huid heq
      · exact hwrite ((handle_lookup_self s.server hpod).mpr hsame)
    · exact hwrite ((handle_lookup_ne s.server href).trans hpod)

/-- A run writes to no foreign object exactly when every call of it lands on its own. -/
theorem no_foreignWrite_iff (merge : Status → PodStatusDoc → Status) (s t : ReporterState Status)
    (w : List (ReporterAction Status)) :
    Runs (Guarded (fun s a => ¬ ForeignWrite merge s a) (ofStep (ReporterState.step merge))) s w t ↔
      Runs (Guarded (LandsOnOwn merge) (ofStep (ReporterState.step merge))) s w t :=
  Runs.guarded_congr not_foreignWrite_iff

/-- The pod is deleted and created again while the force delete of the old one is under way. -/
def recreatePrefix : List (ReporterAction PodStatusDoc) :=
  [.create ⟨"default","web-0"⟩ ⟨"uid-old"⟩ (buildPodStatus {}),
    .deletePod ⟨"default","web-0"⟩ ⟨"uid-old"⟩,
    .remove ⟨"default","web-0"⟩,
    .create ⟨"default","web-0"⟩ ⟨"uid-new"⟩ (buildPodStatus {})]

theorem foreign_delete : ¬ ∀ (w : List (ReporterAction PodStatusDoc)) (t : ReporterState PodStatusDoc),
    Runs (ofStep (ReporterState.step (fun _ doc => doc))) {} w t →
    Runs (Guarded (fun s a => ¬ ForeignWrite (fun _ doc => doc) s a)
      (ofStep (ReporterState.step (fun _ doc => doc)))) {} w t := by
  intro h
  obtain ⟨t,ht⟩ : ∃ t, exec (ReporterState.step (fun _ doc => doc)) {} (recreatePrefix ++ [.land 0]) = some t :=
    ⟨_,rfl⟩
  obtain ⟨s,_,hpre,⟨hok,-⟩,-⟩ := (h _ t (runs_of_exec ht)).split_step
  have hs := exec_of_runs hpre.of_guarded
  cases hs
  refine hok ⟨0,_,⟨"default","web-0"⟩,_,rfl,rfl,rfl,?_,?_⟩
  · decide
  · intro hkept
    cases hkept

end KubeAir.Adapters
