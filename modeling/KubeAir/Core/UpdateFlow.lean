import KubeAir.Core.PodEvents
import KubeAir.Transition.Draining
import KubeAir.Transition.WriteLog

/-! # Reconciliation passes beside the dispatcher

The dispatcher of the pod sources, any number of reconciliation passes and the runtime loop share
the registry and the bounded update channel. The registry is cut into shards. A pass goes through
them one after another and keeps the read guard of its shard while it waits for room in the
channel, so a call that writes to a shard waits for the passes in it; readers never wait. The
receiver lives as long as the system. A task may take its turn whenever it can.
-/
namespace KubeAir.Core
open Transition

/-- One `reconcile_all` under way. -/
structure ReconcilePass where
  /-- the shard that the iterator comes to next -/
  shard : ℕ := 0
  /-- the shard whose read guard it holds -/
  guard : Option ℕ := none
  /-- what it has not yielded of that shard -/
  entries : List PodSpec := []
  /-- the pods whose events it has sent -/
  sent : List PodSpec := []
  done : Bool := false

/-- The manager's own channel holds the event with which the dispatcher waits for room. -/
structure UpdateFlow (capacity : ℕ) where
  manager : PodManager := {}
  /-- updates of the sources that the dispatcher has not come to -/
  sourceRx : List PodCall := []
  passes : List ReconcilePass := []
  updateRx : BoundedChannel PodUpdate capacity := .empty
  /-- what the runtime loop has taken from the channel, in that order -/
  received : List PodUpdate := []

inductive FlowAction
  | arrive (c : PodCall)
  /-- `reconcile_tick` spawns a pass -/
  | tick
  /-- the dispatcher makes its next call up to the send -/
  | dispatch
  /-- the event of the dispatcher gets into the channel -/
  | send
  /-- pass `i` comes to its next shard -/
  | acquire (i : ℕ)
  /-- an event of pass `i` gets into the channel -/
  | yield (i : ℕ)
  | finish (i : ℕ)
  /-- the runtime loop takes an event -/
  | receive

/-- The key whose shard a call locks for writing. -/
def PodManager.writeKey (m : PodManager) : PodCall → Option PodUID
  | .upsert pod _ =>
    match if (m.get pod.uid).isNone && !pod.hostAliases.isEmpty then m.equivalentEntry pod else none with
    | some existing => if existing.hostAliases ≠ pod.hostAliases then some existing.uid else none
    | none => some pod.uid
  | .remove uid _ _ => some uid

namespace UpdateFlow
variable {capacity shards : ℕ} (shardOf : PodUID → Fin shards)

/-- The desired pods of a shard. -/
def shardEntries (m : PodManager) (shard : ℕ) : List PodSpec :=
  m.list.filter (fun pod => (shardOf pod.uid).val = shard)

/-- No pass holds the read guard of the shard. -/
def Unlocked (s : UpdateFlow capacity) (uid : PodUID) : Prop := ∀ p ∈ s.passes, p.guard ≠ some (shardOf uid).val

/-- The dispatcher has given its event away. -/
def sentOff (m : PodManager) : PodManager := { m with updateTx := { m.updateTx with queue := m.updateTx.queue.tail } }

/-- The maps are iterated in any order, and within a shard the entries come in any order. -/
inductive Step (s : UpdateFlow capacity) : FlowAction → UpdateFlow capacity → Prop
  | arrive (c : PodCall) : Step s (.arrive c) { s with sourceRx := s.sourceRx ++ [c] }
  | tick : Step s .tick { s with passes := s.passes ++ [{}] }
  | dispatch {c : PodCall} {rest : List PodCall} {n t : PodManager} (hidle : s.manager.updateTx.queue = [])
      (hnext : s.sourceRx = c :: rest) (horder : PodManager.Reordered s.manager n)
      (hfree : ∀ uid, n.writeKey c = some uid → s.Unlocked shardOf uid) (hcall : n.call c = (.ok (),t)) :
      Step s .dispatch { s with manager := t, sourceRx := rest }
  | send {u : PodUpdate} {rest : List PodUpdate} (hevent : s.manager.updateTx.queue = u :: rest)
      (hroom : s.updateRx.HasRoom) :
      Step s .send { s with manager := sentOff s.manager, updateRx := s.updateRx.send u hroom }
  | acquire {i : ℕ} {p : ReconcilePass} {entries : List PodSpec} (hpass : s.passes[i]? = some p) (hlive : p.done = false)
      (hempty : p.entries = []) (hshard : p.shard < shards) (hentries : entries.Perm (shardEntries shardOf s.manager p.shard)) :
      Step s (.acquire i)
        { s with passes := s.passes.set i { p with shard := p.shard + 1, guard := some p.shard, entries := entries } }
  | yield {i : ℕ} {p : ReconcilePass} {pod : PodSpec} {rest : List PodSpec} (hpass : s.passes[i]? = some p)
      (hentries : p.entries = pod :: rest) (hroom : s.updateRx.HasRoom) :
      Step s (.yield i)
        { s with
          passes := s.passes.set i { p with entries := rest, sent := p.sent ++ [pod] }
          updateRx := s.updateRx.send ⟨pod,.reconcile⟩ hroom }
  | finish {i : ℕ} {p : ReconcilePass} (hpass : s.passes[i]? = some p) (hlive : p.done = false)
      (hempty : p.entries = []) (hshard : shards ≤ p.shard) :
      Step s (.finish i) { s with passes := s.passes.set i { p with guard := none, done := true } }
  | receive {u : PodUpdate} {rest : BoundedChannel PodUpdate capacity} (hnext : s.updateRx.recv = some (u,rest)) :
      Step s .receive { s with updateRx := rest, received := s.received ++ [u] }

/-- Every event so far, in the order in which the runtime loop takes them, the last one being that
with which the dispatcher waits. -/
def events (s : UpdateFlow capacity) : List PodUpdate := s.received ++ s.updateRx.queue ++ s.manager.updateTx.queue

/-- `handle_update` syncs a pod for every event but a removal. -/
def heard (u : PodUpdate) : PodUID × Option PodSpec := (u.pod.uid,if u.op = .remove then none else some u.pod)

/-- The pods the runtime loop takes to be desired, going by the events alone. -/
def believed (events : List PodUpdate) : PodUID → Option PodSpec := written (fun _ => none) (events.map heard)

/-- What a pass holds of its shard is as the registry has it, and the events say what is desired. -/
structure Coherent (s : UpdateFlow capacity) : Prop where
  held : ∀ p ∈ s.passes, ∀ pod ∈ p.entries,
    p.guard = some (shardOf pod.uid).val ∧ s.manager.get pod.uid = some pod
  agrees : believed s.events = s.manager.get

section Lemmas
variable {shardOf} {s t : UpdateFlow capacity} {m n : PodManager} {a : FlowAction} {c : PodCall}

theorem mem_shardEntries {pod : PodSpec} {shard : ℕ} :
    pod ∈ shardEntries shardOf m shard ↔ m.get pod.uid = some pod ∧ (shardOf pod.uid).val = shard := by
  simp [shardEntries,PodManager.mem_list]

theorem believed_concat (events : List PodUpdate) (u : PodUpdate) :
    believed (events ++ [u]) = Function.update (believed events) u.pod.uid (heard u).2 := by
  simp [believed,heard]

/-- A call writes to no other key than the one it locks. -/
theorem get_call {uid : PodUID} (h : m.writeKey c ≠ some uid) : (m.call c).2.get uid = m.get uid := by
  cases c with
  | upsert pod now =>
    simp only [PodManager.call,PodManager.upsert,PodManager.writeKey] at h ⊢
    split
    · next existing hentry =>
      rw [hentry] at h
      simp only [PodManager.mergeAliases]
      split
      · next hne =>
        simp only [hne,if_pos,not_false_eq_true,ne_eq,Option.some.injEq] at h
        exact PodManager.get_store_ne m _ uid (Ne.symm h)
      · rfl
    · next hentry =>
      rw [hentry] at h
      have huid := PodManager.inheritAliases_uid m pod
      have hne : uid ≠ (m.inheritAliases pod).uid := by
        intro heq
        simp [heq,huid] at h
      rw [PodManager.get_insertPod]
      exact PodManager.get_store_ne m _ uid hne
  | remove u fallbackSpec at_ =>
    have hne : uid ≠ u := by
      intro heq
      simp [PodManager.writeKey,heq] at h
    have hget := PodManager.get_remove m uid (fallbackSpec.map (·.val)) u at_
    rw [if_neg hne] at hget
    exact hget

/-- The event of a call says what the call has done to the registry. -/
theorem believed_call {before : List PodUpdate} (hidle : m.updateTx.queue = []) (h : believed before = m.get)
    (hcall : m.call c = (.ok (),n)) : believed (before ++ n.updateTx.queue) = n.get := by
  cases PodManager.emits_call hcall with
  | nothing hsame => simp [hsame,hidle,h]
  | stored pod op hop hget hqueue hkept hnew =>
    have hheard : heard ⟨pod,op⟩ = (pod.uid,some pod) := by
      rcases hop with rfl | rfl <;> rfl
    rw [hqueue,hidle,List.nil_append,believed_concat,hheard,h]
    funext uid
    rw [hget]
    by_cases huid : uid = pod.uid
    · simp [huid]
    · rw [Function.update_of_ne huid,PodManager.get_store_ne m pod uid huid]
  | dropped pod hget hqueue hkept =>
    rw [hqueue,hidle,List.nil_append,believed_concat,h]
    funext uid
    rw [hget]
    by_cases huid : uid = pod.uid
    · simp [huid,heard]
    · simp [huid]

theorem mem_set {passes : List ReconcilePass} {i : ℕ} {p q : ReconcilePass} (h : q ∈ passes.set i p) : q ∈ passes ∨ q = p :=
  List.mem_or_eq_of_mem_set h

/-- An event that repeats what the events say in the end may be queued before the event with which
the dispatcher waits. -/
theorem believed_insert (before waiting : List PodUpdate) {pod : PodSpec}
    (h : believed (before ++ waiting) pod.uid = some pod) :
    believed (before ++ ⟨pod,.reconcile⟩ :: waiting) = believed (before ++ waiting) := by
  simp only [believed,List.map_append,List.map_cons] at h ⊢
  exact written_insert h

theorem Coherent.dispatch (h : s.Coherent shardOf) (hidle : s.manager.updateTx.queue = [])
    (horder : PodManager.Reordered s.manager m) (hfree : ∀ uid, m.writeKey c = some uid → s.Unlocked shardOf uid)
    (hcall : m.call c = (.ok (),n)) {rest : List PodCall} :
    Coherent shardOf { s with manager := n, sourceRx := rest } := by
  have hget : m.get = s.manager.get := funext horder.get
  have hempty : m.updateTx.queue = [] := by rw [horder.updateTx,hidle]
  constructor
  · intro p hp pod hpod
    obtain ⟨hguard,hsame⟩ := h.held p hp pod hpod
    refine ⟨hguard,?_⟩
    -- the pass is in the shard of the pod, so the call writes elsewhere
    have hother : m.writeKey c ≠ some pod.uid := fun hkey => hfree pod.uid hkey p hp hguard
    have hkept := get_call hother
    rw [hcall,hget] at hkept
    exact hkept.trans hsame
  · have hbefore : believed (s.received ++ s.updateRx.queue) = m.get := by
      have hall := h.agrees
      simp only [events,hidle,List.append_nil] at hall
      exact hall.trans hget.symm
    exact believed_call hempty hbefore hcall

theorem Coherent.yield (h : s.Coherent shardOf) {i : ℕ} {p : ReconcilePass} {pod : PodSpec} {rest : List PodSpec}
    (hpass : s.passes[i]? = some p) (hentries : p.entries = pod :: rest) (hroom : s.updateRx.HasRoom) :
    Coherent shardOf { s with
      passes := s.passes.set i { p with entries := rest, sent := p.sent ++ [pod] }
      updateRx := s.updateRx.send ⟨pod,.reconcile⟩ hroom } := by
  have hheld := h.held p (List.mem_of_getElem? hpass)
  rw [hentries] at hheld
  constructor
  · intro q hq r hr
    rcases mem_set hq with hq | rfl
    · exact h.held q hq r hr
    · exact hheld r (List.mem_cons_of_mem pod hr)
  · obtain ⟨-,hget⟩ := hheld pod List.mem_cons_self
    have hall := h.agrees
    simp only [events] at hall
    have hin : believed (s.received ++ s.updateRx.queue ++ s.manager.updateTx.queue) pod.uid = some pod := by rw [hall,hget]
    have hinsert := believed_insert (s.received ++ s.updateRx.queue) s.manager.updateTx.queue hin
    simp only [events,BoundedChannel.queue_send]
    rw [← hall,← hinsert]
    simp

theorem Coherent.step (h : s.Coherent shardOf) (hstep : Step shardOf s a t) : t.Coherent shardOf := by
  cases hstep with
  | arrive c => exact ⟨h.held,h.agrees⟩
  | tick =>
    refine ⟨fun p hp pod hpod => ?_,h.agrees⟩
    rcases List.mem_append.mp hp with hp | hp
    · exact h.held p hp pod hpod
    · obtain rfl := List.mem_singleton.mp hp
      simp at hpod
  | dispatch hidle hnext horder hfree hcall => exact h.dispatch hidle horder hfree hcall
  | @send u rest hevent hroom =>
    refine ⟨h.held,?_⟩
    have hall := h.agrees
    simp only [events,hevent] at hall
    simp only [events,sentOff,BoundedChannel.queue_send,hevent,List.tail_cons]
    rw [← List.append_assoc,List.append_assoc _ [u] rest,List.singleton_append,hall]
    rfl
  | acquire hpass hlive hempty hshard hentries =>
    refine ⟨fun q hq pod hpod => ?_,h.agrees⟩
    rcases mem_set hq with hq | rfl
    · exact h.held q hq pod hpod
    · obtain ⟨hget,hin⟩ := mem_shardEntries.mp (hentries.mem_iff.mp hpod)
      exact ⟨by simp [hin],hget⟩
  | yield hpass hentries hroom => exact h.yield hpass hentries hroom
  | finish hpass hlive hempty hshard =>
    refine ⟨fun q hq pod hpod => ?_,h.agrees⟩
    rcases mem_set hq with hq | rfl
    · exact h.held q hq pod hpod
    · simp [hempty] at hpod
  | @receive u rest hnext =>
    refine ⟨h.held,?_⟩
    have hall := h.agrees
    simp only [events,BoundedChannel.recv_eq_some hnext] at hall
    simpa [events] using hall

theorem coherent_start : Coherent shardOf ({} : UpdateFlow capacity) where
  held p hp := absurd hp List.not_mem_nil
  agrees := by
    funext uid
    rfl

end Lemmas

/-- Whatever the order in which the dispatcher, the passes and the runtime loop take turns: the
events, taken at their word with those of the passes among them, say exactly what the registry
holds. No pass brings back a pod that has been removed, or an older spec of one. -/
theorem believed_eq_desired {w : List FlowAction} {s : UpdateFlow capacity} (hr : Runs (Step shardOf) {} w s) (uid : PodUID) :
    believed s.events uid = s.manager.get uid :=
  congrFun (hr.invariant (fun _ _ _ h hstep => h.step hstep) coherent_start).agrees uid

/-! ## Taking turns as they come -/

instance (s : UpdateFlow capacity) (uid : PodUID) : Decidable (s.Unlocked shardOf uid) :=
  inferInstanceAs (Decidable (∀ p ∈ s.passes, p.guard ≠ some (shardOf uid).val))

/-- Whether a call can have the lock it needs. -/
def MayWrite (s : UpdateFlow capacity) (c : PodCall) : Prop := ∀ uid ∈ s.manager.writeKey c, s.Unlocked shardOf uid

instance (s : UpdateFlow capacity) (c : PodCall) : Decidable (s.MayWrite shardOf c) :=
  inferInstanceAs (Decidable (∀ uid ∈ s.manager.writeKey c, s.Unlocked shardOf uid))

/-- A step in which the maps are iterated as they are stored. -/
def perform (s : UpdateFlow capacity) : FlowAction → Option (UpdateFlow capacity)
  | .arrive c => some { s with sourceRx := s.sourceRx ++ [c] }
  | .tick => some { s with passes := s.passes ++ [{}] }
  | .dispatch =>
    match s.manager.updateTx.queue, s.sourceRx with
    | [], c :: rest =>
      if s.MayWrite shardOf c then (s.manager.succeed c).map fun t => { s with manager := t, sourceRx := rest }
      else none
    | _, _ => none
  | .send =>
    match s.manager.updateTx.queue with
    | u :: _ =>
      if h : s.updateRx.HasRoom then some { s with manager := sentOff s.manager, updateRx := s.updateRx.send u h }
      else none
    | [] => none
  | .acquire i =>
    (s.passes[i]?).bind fun p =>
      if p.done = false ∧ p.entries = [] ∧ p.shard < shards then
        let entries := shardEntries shardOf s.manager p.shard
        some { s with passes := s.passes.set i { p with shard := p.shard + 1, guard := some p.shard, entries := entries } }
      else none
  | .yield i =>
    (s.passes[i]?).bind fun p =>
      match p.entries with
      | pod :: rest =>
        if h : s.updateRx.HasRoom then
          some { s with
            passes := s.passes.set i { p with entries := rest, sent := p.sent ++ [pod] }
            updateRx := s.updateRx.send ⟨pod,.reconcile⟩ h }
        else none
      | [] => none
  | .finish i =>
    (s.passes[i]?).bind fun p =>
      if p.done = false ∧ p.entries = [] ∧ shards ≤ p.shard then
        some { s with passes := s.passes.set i { p with guard := none, done := true } }
      else none
  | .receive => s.updateRx.recv.map fun r => { s with updateRx := r.2, received := s.received ++ [r.1] }

theorem step_of_perform {s t : UpdateFlow capacity} {a : FlowAction} (h : s.perform shardOf a = some t) :
    Step shardOf s a t := by
  cases a with
  | arrive c =>
    obtain rfl := Option.some.inj h
    exact .arrive c
  | tick =>
    obtain rfl := Option.some.inj h
    exact .tick
  | dispatch =>
    simp only [perform] at h
    split at h
    · next c rest hidle hnext =>
      obtain ⟨hfree,h⟩ := Option.ite_none_right_eq_some.mp h
      obtain ⟨m,hm,rfl⟩ := Option.map_eq_some_iff.mp h
      simp only [PodManager.succeed] at hm
      split at hm
      · next m' hcall =>
        obtain rfl := Option.some.inj hm
        exact .dispatch hidle hnext ⟨.refl _,rfl,rfl⟩ hfree hcall
      · cases hm
    · cases h
  | send =>
    simp only [perform] at h
    split at h
    · next u rest hevent =>
      split at h
      · next hroom =>
        obtain rfl := Option.some.inj h
        exact .send hevent hroom
      · cases h
    · cases h
  | acquire i =>
    obtain ⟨p,hpass,h⟩ := Option.bind_eq_some_iff.mp h
    obtain ⟨⟨hlive,hempty,hshard⟩,h⟩ := Option.ite_none_right_eq_some.mp h
    obtain rfl := Option.some.inj h
    exact .acquire hpass hlive hempty hshard (.refl _)
  | yield i =>
    obtain ⟨p,hpass,h⟩ := Option.bind_eq_some_iff.mp h
    split at h
    · next pod rest hentries =>
      split at h
      · next hroom =>
        obtain rfl := Option.some.inj h
        exact .yield hpass hentries hroom
      · cases h
    · cases h
  | finish i =>
    obtain ⟨p,hpass,h⟩ := Option.bind_eq_some_iff.mp h
    obtain ⟨⟨hlive,hempty,hshard⟩,h⟩ := Option.ite_none_right_eq_some.mp h
    obtain rfl := Option.some.inj h
    exact .finish hpass hlive hempty hshard
  | receive =>
    obtain ⟨⟨u,rest⟩,hnext,rfl⟩ := Option.map_eq_some_iff.mp h
    exact .receive hnext

theorem runs_of_perform {s t : UpdateFlow capacity} {w : List FlowAction} (h : exec (perform shardOf) s w = some t) :
    Runs (Step shardOf) s w t :=
  (runs_of_exec h).mono (fun _ _ _ hstep => step_of_perform shardOf hstep)

def web : PodSpec := { uid := ⟨"web"⟩, podRef := { ns := "default", name := "web" } }

def webRemoval : PodCall := .remove web.uid (some ⟨web,rfl⟩) 1

/-- A pass is in the only shard when the removal of its pod arrives, in a channel for two events. -/
def removalActions : List FlowAction :=
  [.arrive (.upsert web 0),.dispatch,.send,.tick,.acquire 0,.arrive webRemoval,
    .yield 0,.receive,.finish 0,.dispatch,.send]

theorem believed_eq_desired_removal : ∃ s : UpdateFlow 2, Runs (Step fun _ => (0 : Fin 1)) {} removalActions s ∧
    s.events.map (·.op) = [.add,.reconcile,.remove] ∧ believed s.events web.uid = s.manager.get web.uid := by
  have hexec : (exec (perform fun _ => (0 : Fin 1)) ({} : UpdateFlow 2) removalActions).map
      (fun s => s.events.map (·.op)) = some [.add,.reconcile,.remove] := by
    decide +kernel
  obtain ⟨s,hs,hevents⟩ := Option.map_eq_some_iff.mp hexec
  have hr := runs_of_perform _ hs
  exact ⟨s,hr,hevents,believed_eq_desired _ hr web.uid⟩

end UpdateFlow
end KubeAir.Core
