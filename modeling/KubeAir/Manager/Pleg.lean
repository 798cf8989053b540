import KubeAir.Worker.Request

/-! # The pod lifecycle event generator

`relist` compares what the runtime lists with what it listed before and reports every
container that has appeared, gone or changed its state. The record carries the invariant that
every container is cached under its own ID.
-/
namespace KubeAir.Manager.Pleg
open Core Worker

inductive PlegEventType
  | containerStarted
  | containerDied
  | containerRemoved
  | containerChanged
deriving DecidableEq, Repr

structure PlegEvent where
  podUid : String
  containerId : String
  containerName : String
  eventType : PlegEventType
deriving DecidableEq, Repr

structure GenericPleg where
  lastRelist : Option Instant := none
  cache : HashMap String RuntimeContainer := ∅
  keyed : ∀ id c, cache.lookup id = some c → c.id = id := by simp

def plegEvent (c : RuntimeContainer) (eventType : PlegEventType) : PlegEvent where
  podUid := c.podUid
  containerId := c.id
  containerName := c.name
  eventType := eventType

/-- The type of a change of state. -/
def changeType : RuntimeContainerState → RuntimeContainerState → PlegEventType
  | .running, .exited => .containerDied
  | _, .running => .containerStarted
  | _, _ => .containerChanged

/-- The event of a container that is listed. -/
def listedEvent (cache : HashMap String RuntimeContainer) (c : RuntimeContainer) : Option PlegEvent :=
  match cache.lookup c.id with
  | some old => if old.state ≠ c.state then some (plegEvent c (changeType old.state c.state)) else none
  | none => some (plegEvent c (if c.state = .running then .containerStarted else .containerChanged))

/-- The first pass: the next cache and the events of the listed containers. -/
def relistLive (cache : HashMap String RuntimeContainer) (live : List RuntimeContainer) :
    HashMap String RuntimeContainer × List PlegEvent :=
  live.foldl (fun acc c => (acc.1.insert c.id c,acc.2 ++ (listedEvent cache c).toList)) (∅,[])

/-- The second pass: the containers that are listed no more. -/
def removedEvents (cache next : HashMap String RuntimeContainer) : List PlegEvent :=
  cache.entries.filterMap fun e =>
    if (next.lookup e.1).isSome then none else some (plegEvent e.2 .containerRemoved)

/-! ## The first pass -/

theorem relistLive_eq (cache : HashMap String RuntimeContainer) (live : List RuntimeContainer) :
    relistLive cache live = (live.foldl (fun m c => m.insert c.id c) ∅,live.filterMap (listedEvent cache)) := by
  have hstep (l : List RuntimeContainer) (m : HashMap String RuntimeContainer) (events : List PlegEvent) :
      l.foldl (fun acc c => (acc.1.insert c.id c,acc.2 ++ (listedEvent cache c).toList)) (m,events) =
        (l.foldl (fun m c => m.insert c.id c) m,events ++ l.filterMap (listedEvent cache)) := by
    induction l generalizing m events with
    | nil => simp
    | cons c rest ih =>
      rw [List.foldl_cons,ih,List.foldl_cons,List.filterMap_cons]
      cases listedEvent cache c with
      | none => simp
      | some e => simp
  exact hstep live ∅ []

theorem lookup_insertAll {l : List RuntimeContainer} (hnodup : (l.map (·.id)).Nodup)
    (m : HashMap String RuntimeContainer) (id : String) :
    (l.foldl (fun m c => m.insert c.id c) m).lookup id = (l.find? (fun c => c.id == id)).or (m.lookup id) := by
  induction l generalizing m with
  | nil => rfl
  | cons c rest ih =>
    obtain ⟨hfresh,hrest⟩ := List.nodup_cons.mp hnodup
    rw [List.foldl_cons,ih hrest,List.find?_cons]
    by_cases hid : c.id = id
    · have hnone : rest.find? (fun d => d.id == id) = none := by
        rw [List.find?_eq_none]
        intro d hd hdid
        have hsame : d.id = c.id := (beq_iff_eq.mp hdid).trans hid.symm
        exact hfresh (List.mem_map.mpr ⟨d,hd,hsame⟩)
      rw [hnone,hid]
      simp
    · have hbeq : (c.id == id) = false := by simpa using hid
      rw [hbeq,AList.lookup_insert_ne (Ne.symm hid)]

theorem keyed_insertAll (l : List RuntimeContainer) {m : HashMap String RuntimeContainer}
    (hm : ∀ id c, m.lookup id = some c → c.id = id) (id : String) (c : RuntimeContainer)
    (h : (l.foldl (fun m c => m.insert c.id c) m).lookup id = some c) : c.id = id := by
  induction l generalizing m with
  | nil => exact hm id c h
  | cons d rest ih =>
    refine ih ?_ h
    intro id' c' h'
    rcases HashMap.lookup_insert_eq_some.mp h' with ⟨rfl,rfl⟩ | ⟨-,hold⟩
    · rfl
    · exact hm id' c' hold

/-- What the runtime is asked for and when it has answered. -/
structure Relist where
  listing : Except KubeletError (List RuntimeContainer)
  at_ : Instant

namespace GenericPleg

def relist (p : GenericPleg) (r : Relist) : Except KubeletError (List PlegEvent) × GenericPleg :=
  match r.listing with
  | .error e => (.error e,p)
  | .ok live =>
    (.ok ((relistLive p.cache live).2 ++ removedEvents p.cache (relistLive p.cache live).1),
      { lastRelist := some r.at_
        cache := (relistLive p.cache live).1
        keyed := by
          rw [relistLive_eq]
          exact keyed_insertAll live (by simp) })

def isHealthy (p : GenericPleg) (maxStaleness : ℕ) (now : Instant) : Bool :=
  (p.lastRelist.map fun t => decide (now - t ≤ maxStaleness)).getD false

end GenericPleg

/-! ## The events of one container -/

theorem filter_filterMap_eq {α β : Type} {key : α → String} {name : β → String} {f : α → Option β} {l : List α}
    (hname : ∀ a ∈ l, ∀ b, f a = some b → name b = key a) (hl : (l.map key).Nodup) (id : String) :
    (l.filterMap f).filter (fun b => name b == id) = ((l.find? (fun a => key a == id)).bind f).toList := by
  induction l with
  | nil => rfl
  | cons a rest ih =>
    obtain ⟨hfresh,hrest⟩ := List.nodup_cons.mp hl
    have ih' := ih (fun a' ha' => hname a' (List.mem_cons_of_mem _ ha')) hrest
    have hhead := hname a (List.mem_cons_self ..)
    rw [List.find?_cons]
    by_cases hid : key a = id
    · have hnone : rest.find? (fun a' => key a' == id) = none := by
        rw [List.find?_eq_none]
        intro a' ha' hkey
        exact hfresh (List.mem_map.mpr ⟨a',ha',(beq_iff_eq.mp hkey).trans hid.symm⟩)
      rw [hnone] at ih'
      have hempty : (rest.filterMap f).filter (fun b => name b == id) = [] := ih'
      cases hfa : f a with
      | none => simp [hfa,hid,hempty]
      | some b =>
        have hb : name b = id := (hhead b hfa).trans hid
        simp [hfa,hid,hb,hempty]
    · have hbeq : (key a == id) = false := by simpa using hid
      rw [hbeq]
      cases hfa : f a with
      | none => simpa [List.filterMap_cons,hfa] using ih'
      | some b =>
        have hb : name b ≠ id := fun h => hid ((hhead b hfa).symm.trans h)
        simpa [List.filterMap_cons,hfa,hb] using ih'

theorem find_entries (m : HashMap String RuntimeContainer) (id : String) :
    m.entries.find? (fun e => e.1 == id) = (m.lookup id).map fun c => ⟨id,c⟩ := by
  cases hlookup : m.lookup id with
  | none =>
    rw [Option.map_none,List.find?_eq_none]
    intro e he hkey
    have hid : e.1 = id := beq_iff_eq.mp hkey
    have hmem : e.1 ∈ m := AList.mem_keys.mpr (List.mem_map_of_mem he)
    exact (AList.lookup_eq_none.mp hlookup) (hid ▸ hmem)
  | some c =>
    have hmem : (⟨id,c⟩ : Sigma fun _ : String => RuntimeContainer) ∈ m.entries := AList.mem_lookup_iff.mp hlookup
    obtain ⟨e,he⟩ : ∃ e, m.entries.find? (fun e => e.1 == id) = some e := by
      rw [← Option.isSome_iff_exists,List.find?_isSome]
      exact ⟨_,hmem,beq_self_eq_true id⟩
    obtain ⟨key,d⟩ := e
    have hbeq : (key == id) = true := by simpa using List.find?_some he
    have hkey : key = id := beq_iff_eq.mp hbeq
    subst hkey
    have hd : m.lookup key = some d := AList.mem_lookup_iff.mpr (List.mem_of_find?_eq_some he)
    have hcd : c = d := Option.some.inj (hlookup.symm.trans hd)
    rw [he,hcd,Option.map_some]

/-- The state under which a listing reports a container. -/
def stateIn (live : List RuntimeContainer) (id : String) : Option RuntimeContainerState :=
  (live.find? (fun c => c.id == id)).map (·.state)

theorem containerId_of_listedEvent {cache : HashMap String RuntimeContainer} {c : RuntimeContainer} {e : PlegEvent}
    (h : listedEvent cache c = some e) : e.containerId = c.id := by
  unfold listedEvent at h
  split at h
  · split at h
    · exact (Option.some.inj h) ▸ rfl
    · exact absurd h (by simp)
  · exact (Option.some.inj h) ▸ rfl

/-- The events of one container, from what the cache and the next listing hold of it. -/
theorem events_of_id {p : GenericPleg} {live : List RuntimeContainer} (hnodup : (live.map (·.id)).Nodup)
    (id : String) :
    ((relistLive p.cache live).2 ++ removedEvents p.cache (relistLive p.cache live).1).filter
        (fun e => e.containerId == id) =
      match p.cache.lookup id,live.find? (fun c => c.id == id) with
      | _,some c => (listedEvent p.cache c).toList
      | some old,none => [plegEvent old .containerRemoved]
      | none,none => [] := by
  have hnext : (relistLive p.cache live).1.lookup id = live.find? (fun c => c.id == id) := by
    rw [relistLive_eq,lookup_insertAll hnodup]
    simp
  have hlisted : ((relistLive p.cache live).2).filter (fun e => e.containerId == id) =
      ((live.find? (fun c => c.id == id)).bind (listedEvent p.cache)).toList := by
    rw [relistLive_eq]
    exact filter_filterMap_eq (fun c _ e he => containerId_of_listedEvent he) hnodup id
  have hremoved : (removedEvents p.cache (relistLive p.cache live).1).filter (fun e => e.containerId == id) =
      (((p.cache.lookup id).map fun c => (⟨id,c⟩ : Sigma fun _ : String => RuntimeContainer)).bind fun e =>
        if ((relistLive p.cache live).1.lookup e.1).isSome then none
        else some (plegEvent e.2 .containerRemoved)).toList := by
    rw [← find_entries]
    refine filter_filterMap_eq ?_ p.cache.nodupKeys id
    intro e he event hevent
    split at hevent
    · exact absurd hevent (by simp)
    · rw [← Option.some.inj hevent]
      exact p.keyed e.1 e.2 (AList.mem_lookup_iff.mpr he)
  rw [List.filter_append,hlisted,hremoved]
  cases hold : p.cache.lookup id with
  | none => cases hfound : live.find? (fun c => c.id == id) <;> simp
  | some old => cases hfound : live.find? (fun c => c.id == id) <;> simp [hnext,hfound]

/-! ## Histories of listings -/

/-- The runtime lists no container twice. -/
def Relist.Distinct (r : Relist) : Prop := ∀ live, r.listing = .ok live → (live.map (·.id)).Nodup

abbrev Poll := {r : Relist // r.Distinct}

def runPleg (polls : List Poll) : GenericPleg := polls.foldl (fun p r => (p.relist r.1).2) {}

/-- The last listing that has succeeded. -/
def lastListing (polls : List Poll) : List RuntimeContainer :=
  polls.foldl (fun prev r => match r.1.listing with | .ok live => live | .error _ => prev) []

theorem lookup_relist {p : GenericPleg} {prev : List RuntimeContainer} (r : Poll)
    (h : ∀ id, p.cache.lookup id = prev.find? (fun c => c.id == id)) (id : String) :
    (p.relist r.1).2.cache.lookup id =
      (match r.1.listing with | .ok live => live | .error _ => prev).find? (fun c => c.id == id) := by
  obtain ⟨r,hr⟩ := r
  unfold GenericPleg.relist
  cases hlisting : r.listing with
  | error e => exact h id
  | ok live =>
    show (relistLive p.cache live).1.lookup id = _
    rw [relistLive_eq,lookup_insertAll (hr live hlisting)]
    simp

theorem lookup_runPleg (polls : List Poll) (id : String) :
    (runPleg polls).cache.lookup id = (lastListing polls).find? (fun c => c.id == id) := by
  have hrun (p : GenericPleg) (prev : List RuntimeContainer)
      (h : ∀ id, p.cache.lookup id = prev.find? (fun c => c.id == id)) :
      (polls.foldl (fun p r => (p.relist r.1).2) p).cache.lookup id =
        (polls.foldl (fun prev r => match r.1.listing with | .ok live => live | .error _ => prev) prev).find?
          (fun c => c.id == id) := by
    induction polls generalizing p prev with
    | nil => exact h id
    | cons r rest ih => exact ih _ _ (lookup_relist r h)
  exact hrun {} [] (fun _ => rfl)

/-- One event for each container that the two listings show differently and none for the others,
a death exactly for one that ran and has exited. -/
def Exact (prev live : List RuntimeContainer) (events : List PlegEvent) : Prop :=
  (∀ id, (events.filter fun e => e.containerId == id).length =
    if stateIn prev id = stateIn live id then 0 else 1) ∧
  ∀ e ∈ events, e.eventType = .containerDied ↔
    stateIn prev e.containerId = some .running ∧ stateIn live e.containerId = some .exited

theorem exact_relist {p : GenericPleg} {prev live : List RuntimeContainer}
    (h : ∀ id, p.cache.lookup id = prev.find? (fun c => c.id == id)) (hnodup : (live.map (·.id)).Nodup) :
    Exact prev live ((relistLive p.cache live).2 ++ removedEvents p.cache (relistLive p.cache live).1) := by
  refine ⟨?_,?_⟩
  · intro id
    rw [events_of_id hnodup id,h id]
    unfold stateIn
    cases hlive : live.find? (fun c => c.id == id) with
    | none => cases hprev : prev.find? (fun c => c.id == id) <;> simp
    | some c =>
      have hc : c.id = id := by simpa using List.find?_some hlive
      cases hprev : prev.find? (fun c => c.id == id) with
      | none => simp [listedEvent,h,hc,hprev]
      | some old =>
        by_cases hstate : old.state = c.state
        · simp [listedEvent,h,hc,hprev,hstate]
        · simp [listedEvent,h,hc,hprev,hstate]
  · intro e he
    have hmem : e ∈ ((relistLive p.cache live).2 ++ removedEvents p.cache (relistLive p.cache live).1).filter
        (fun e' => e'.containerId == e.containerId) :=
      List.mem_filter.mpr ⟨he,beq_self_eq_true e.containerId⟩
    rw [events_of_id hnodup,h] at hmem
    unfold stateIn
    cases hlive : live.find? (fun c => c.id == e.containerId) with
    | none =>
      cases hprev : prev.find? (fun c => c.id == e.containerId) with
      | none => simp [hlive,hprev] at hmem
      | some old =>
        rw [hlive,hprev] at hmem
        rw [List.mem_singleton.mp hmem]
        simp [plegEvent]
    | some c =>
      have hc : c.id = e.containerId := by simpa using List.find?_some hlive
      rw [hlive] at hmem
      have hlisted : listedEvent p.cache c = some e := Option.mem_toList.mp hmem
      unfold listedEvent at hlisted
      rw [h,hc] at hlisted
      cases hprev : prev.find? (fun c => c.id == e.containerId) with
      | none =>
        rw [hprev] at hlisted
        have htype : (plegEvent c (if c.state = .running then .containerStarted else .containerChanged)).eventType =
            e.eventType := congrArg PlegEvent.eventType (Option.some.inj hlisted)
        rw [← htype]
        by_cases hrunning : c.state = .running
        · simp [plegEvent,hrunning]
        · simp [plegEvent,hrunning]
      | some old =>
        rw [hprev] at hlisted
        by_cases hstate : old.state = c.state
        · simp [hstate] at hlisted
        · simp only [ne_eq,hstate,not_false_eq_true,if_true,Option.some.injEq] at hlisted
          have htype : changeType old.state c.state = e.eventType := congrArg PlegEvent.eventType hlisted
          rw [← htype]
          cases hold : old.state <;> cases hnew : c.state <;> simp [changeType,hold,hnew] at hstate ⊢

/-- After every history of listings the cache is the last listing that succeeded; a failed listing changes
nothing and a successful one reports exactly what has changed since. -/
theorem relist_exact (polls : List Poll) (r : Poll) :
    (∀ id, (runPleg polls).cache.lookup id = (lastListing polls).find? (fun c => c.id == id)) ∧
    match r.1.listing with
    | .error e => (runPleg polls).relist r.1 = (.error e,runPleg polls)
    | .ok live => ∃ events, ((runPleg polls).relist r.1).1 = .ok events ∧ Exact (lastListing polls) live events := by
  refine ⟨lookup_runPleg polls,?_⟩
  obtain ⟨r,hr⟩ := r
  unfold GenericPleg.relist
  cases hlisting : r.listing with
  | error e => rfl
  | ok live => exact ⟨_,rfl,exact_relist (lookup_runPleg polls) (hr live hlisting)⟩

end KubeAir.Manager.Pleg
