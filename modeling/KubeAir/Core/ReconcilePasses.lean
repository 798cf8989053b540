import KubeAir.Core.UpdateFlow

/-! # What a reconciliation pass covers

A pass sees its shards at different times, so it is no snapshot of the registry. Still it sends one
event for every pod that stays desired while it is under way, and never two for one pod.
-/
namespace KubeAir.Core
open Transition

/-- The keys of the registry, in the order in which its pods are listed. -/
theorem PodManager.map_uid_list (m : PodManager) : m.list.map (·.uid) = m.desired.keys := by
  have hkeys : ∀ e ∈ m.desired.entries, e.2.uid = e.1 := fun e he => m.keyed e.1 e.2 (AList.mem_lookup_iff.mpr he)
  simp only [list,AList.keys,List.keys,List.map_map]
  exact List.map_congr_left hkeys

theorem PodManager.nodup_list (m : PodManager) : (m.list.map (·.uid)).Nodup := by
  rw [m.map_uid_list]
  exact m.desired.nodupKeys

namespace UpdateFlow
variable {capacity shards : ℕ} (shardOf : PodUID → Fin shards)

/-- The pods of a pass so far, those it still holds included. -/
def reached (p : ReconcilePass) : List PodUID := (p.sent ++ p.entries).map (·.uid)

/-- A pass has come to no pod twice and to none of a shard ahead of it. -/
structure Orderly (p : ReconcilePass) : Prop where
  nodup : (reached p).Nodup
  behind : ∀ uid ∈ reached p, (shardOf uid).val < p.shard
  ends : p.done = true → p.entries = [] ∧ shards ≤ p.shard

/-- The reconcile events are those that the passes have sent. -/
def Accounted (s : UpdateFlow capacity) : Prop :=
  ((s.events.filter (fun u => u.op = .reconcile)).map (·.pod)).Perm (s.passes.flatMap (·.sent))

/-- The pod is desired at the start of the run and after each of its steps. -/
def DesiredThroughout (uid : PodUID) (s : UpdateFlow capacity) (w : List FlowAction) (t : UpdateFlow capacity) : Prop :=
  (s.manager.get uid).isSome = true ∧
    Runs (fun s a t => Step shardOf s a t ∧ (t.manager.get uid).isSome = true) s w t

/-- The pass has come to the pod if it has come to its shard. -/
def Covers (i : ℕ) (uid : PodUID) (s : UpdateFlow capacity) : Prop :=
  ∃ p, s.passes[i]? = some p ∧ ((shardOf uid).val < p.shard → uid ∈ reached p)

section Lemmas
variable {shardOf} {s t : UpdateFlow capacity} {m : PodManager} {p : ReconcilePass} {a : FlowAction} {i : ℕ} {uid : PodUID}

theorem mem_map_shardEntries {shard : ℕ} {uid : PodUID} :
    uid ∈ (shardEntries shardOf m shard).map (·.uid) ↔ (m.get uid).isSome = true ∧ (shardOf uid).val = shard := by
  rw [List.mem_map]
  constructor
  · rintro ⟨pod,hpod,rfl⟩
    obtain ⟨hget,hshard⟩ := mem_shardEntries.mp hpod
    exact ⟨by simp [hget],hshard⟩
  · rintro ⟨hsome,hshard⟩
    obtain ⟨pod,hget⟩ := Option.isSome_iff_exists.mp hsome
    obtain rfl := m.keyed uid pod hget
    exact ⟨pod,mem_shardEntries.mpr ⟨hget,hshard⟩,rfl⟩

theorem Orderly.acquire (h : Orderly shardOf p) (hempty : p.entries = []) {entries : List PodSpec} (hlive : p.done = false)
    (hentries : entries.Perm (shardEntries shardOf m p.shard)) :
    Orderly shardOf { p with shard := p.shard + 1, guard := some p.shard, entries := entries } := by
  have hsent : reached p = p.sent.map (·.uid) := by simp [reached,hempty]
  have huids : (entries.map (·.uid)).Perm ((shardEntries shardOf m p.shard).map (·.uid)) := hentries.map _
  have hin : ∀ uid ∈ entries.map (·.uid), (shardOf uid).val = p.shard := fun uid huid =>
    (mem_map_shardEntries.mp (huids.mem_iff.mp huid)).2
  constructor
  · simp only [reached,List.map_append]
    refine List.nodup_append.mpr ⟨hsent ▸ h.nodup,?_,?_⟩
    · exact huids.nodup_iff.mpr (m.nodup_list.sublist (List.filter_sublist.map _))
    · -- what was sent lies in the shards before
      intro uid hold uid' hnew heq
      have hlt := h.behind uid (hsent ▸ hold)
      have hshard := hin uid' hnew
      rw [heq] at hlt
      omega
  · intro uid huid
    simp only [reached,List.map_append,List.mem_append] at huid
    rcases huid with hold | hnew
    · have hlt := h.behind uid (hsent ▸ hold)
      dsimp only
      omega
    · have hshard := hin uid hnew
      dsimp only
      omega
  · intro hdone
    simp [hlive] at hdone

theorem reached_yield {pod : PodSpec} {rest : List PodSpec} (hentries : p.entries = pod :: rest) :
    reached { p with entries := rest, sent := p.sent ++ [pod] } = reached p := by
  simp [reached,hentries]

theorem Orderly.yield (h : Orderly shardOf p) {pod : PodSpec} {rest : List PodSpec} (hentries : p.entries = pod :: rest) :
    Orderly shardOf { p with entries := rest, sent := p.sent ++ [pod] } := by
  have hreached := reached_yield hentries
  refine ⟨hreached ▸ h.nodup,hreached ▸ h.behind,fun hdone => ?_⟩
  have hnone := (h.ends hdone).1
  rw [hentries] at hnone
  cases hnone

theorem orderly_step (h : ∀ p ∈ s.passes, Orderly shardOf p) (hstep : Step shardOf s a t) :
    ∀ p ∈ t.passes, Orderly shardOf p := by
  cases hstep with
  | arrive c => exact h
  | tick =>
    intro p hp
    rcases List.mem_append.mp hp with hp | hp
    · exact h p hp
    · obtain rfl := List.mem_singleton.mp hp
      exact ⟨List.nodup_nil,fun uid huid => absurd huid List.not_mem_nil,fun hdone => by cases hdone⟩
  | dispatch hidle hnext horder hfree hcall => exact h
  | send hevent hroom => exact h
  | acquire hpass hlive hempty hshard hentries =>
    intro q hq
    rcases mem_set hq with hq | rfl
    · exact h q hq
    · exact (h _ (List.mem_of_getElem? hpass)).acquire hempty hlive hentries
  | yield hpass hentries hroom =>
    intro q hq
    rcases mem_set hq with hq | rfl
    · exact h q hq
    · exact (h _ (List.mem_of_getElem? hpass)).yield hentries
  | finish hpass hlive hempty hshard =>
    intro q hq
    rcases mem_set hq with hq | rfl
    · exact h q hq
    · have hp := h _ (List.mem_of_getElem? hpass)
      exact ⟨hp.nodup,hp.behind,fun _ => ⟨hempty,hshard⟩⟩
  | receive hnext => exact h

/-- Changing what one pass has sent changes the pods of all passes by as much. -/
theorem flatMap_sent_set {passes : List ReconcilePass} {q : ReconcilePass} (more : List PodSpec) (hpass : passes[i]? = some p)
    (hq : q.sent = p.sent ++ more) : ((passes.set i q).flatMap (·.sent)).Perm (passes.flatMap (·.sent) ++ more) := by
  obtain ⟨hlt,hget⟩ := List.getElem?_eq_some_iff.mp hpass
  have hsplit : passes = passes.take i ++ p :: passes.drop (i + 1) := by
    rw [← hget,List.getElem_cons_drop,List.take_append_drop]
  rw [List.set_eq_take_append_cons_drop,if_pos hlt]
  nth_rewrite 3 [hsplit]
  simp only [List.flatMap_append,List.flatMap_cons,hq,List.append_assoc]
  exact ((List.perm_append_comm).append_left p.sent).append_left _

theorem Accounted.set (h : s.Accounted) {q : ReconcilePass} (hpass : s.passes[i]? = some p) (hq : q.sent = p.sent) :
    Accounted { s with passes := s.passes.set i q } := by
  have hset := flatMap_sent_set [] hpass (by simpa using hq)
  rw [List.append_nil] at hset
  exact h.trans hset.symm

theorem Accounted.yield (h : s.Accounted) {pod : PodSpec} {rest : List PodSpec} (hpass : s.passes[i]? = some p)
    (hroom : s.updateRx.HasRoom) : Accounted { s with
      passes := s.passes.set i { p with entries := rest, sent := p.sent ++ [pod] }
      updateRx := s.updateRx.send ⟨pod,.reconcile⟩ hroom } := by
  have hset := flatMap_sent_set (q := { p with entries := rest, sent := p.sent ++ [pod] }) [pod] hpass rfl
  refine List.Perm.trans ?_ (List.Perm.trans (h.append_right [pod]) hset.symm)
  simp only [events,BoundedChannel.queue_send,List.filter_append,List.map_append,List.append_assoc]
  refine (List.Perm.append_left _ (List.Perm.append_left _ ?_))
  exact List.perm_append_comm

/-- The dispatcher's own events are no reconcile events. -/
theorem filter_call {n : PodManager} {c : PodCall} (hidle : m.updateTx.queue = []) (hcall : m.call c = (.ok (),n)) :
    n.updateTx.queue.filter (fun u => u.op = .reconcile) = [] := by
  cases PodManager.emits_call hcall with
  | nothing hsame => simp [hsame,hidle]
  | stored pod op hop hget hqueue hkept hnew => rcases hop with rfl | rfl <;> simp [hqueue,hidle]
  | dropped pod hget hqueue hkept => simp [hqueue,hidle]

theorem Accounted.step (h : s.Accounted) (hstep : Step shardOf s a t) : t.Accounted := by
  cases hstep with
  | arrive c => exact h
  | tick => simpa [Accounted,events] using h
  | dispatch hidle hnext horder hfree hcall =>
    have hnone := filter_call (by rw [horder.updateTx,hidle]) hcall
    simpa [Accounted,events,hnone,hidle] using h
  | send hevent hroom => simpa [Accounted,events,sentOff,hevent] using h
  | acquire hpass hlive hempty hshard hentries => exact h.set hpass rfl
  | yield hpass hentries hroom => exact h.yield hpass hroom
  | finish hpass hlive hempty hshard => exact h.set hpass rfl
  | receive hnext => simpa [Accounted,events,BoundedChannel.recv_eq_some hnext] using h

/-- What another pass does does not matter to this one. -/
theorem Covers.set (h : Covers shardOf i uid s) {j : ℕ} {q : ReconcilePass} {u : UpdateFlow capacity} (hpass : s.passes[j]? = some p)
    (hpasses : u.passes = s.passes.set j q)
    (hq : ((shardOf uid).val < p.shard → uid ∈ reached p) → (shardOf uid).val < q.shard → uid ∈ reached q) :
    Covers shardOf i uid u := by
  obtain ⟨r,hr,hcovers⟩ := h
  by_cases hij : j = i
  · subst hij
    obtain rfl := Option.some.inj (hr.symm.trans hpass)
    obtain ⟨hlt,-⟩ := List.getElem?_eq_some_iff.mp hpass
    exact ⟨q,by simp [hpasses,hlt],hq hcovers⟩
  · exact ⟨r,by rw [hpasses,List.getElem?_set_ne hij,hr],hcovers⟩

theorem Covers.step (h : Covers shardOf i uid s) (hdesired : (s.manager.get uid).isSome = true)
    (hstep : Step shardOf s a t) : Covers shardOf i uid t := by
  cases hstep with
  | arrive c => exact h
  | tick =>
    obtain ⟨p,hp,hcovers⟩ := h
    exact ⟨p,by rw [List.getElem?_append_left (List.getElem?_eq_some_iff.mp hp).1,hp],hcovers⟩
  | dispatch hidle hnext horder hfree hcall => exact h
  | send hevent hroom => exact h
  | @acquire j p entries hpass hlive hempty hshard hentries =>
    refine h.set hpass rfl (fun hold hlt => ?_)
    dsimp only at hlt
    rcases Nat.lt_succ_iff_lt_or_eq.mp hlt with hlt | heq
    · have hmem := hold hlt
      simp only [reached,hempty,List.append_nil] at hmem
      simp only [reached,List.map_append]
      exact List.mem_append_left _ hmem
    · -- the pass comes to the shard of the pod while it is desired
      have hmem := (hentries.map (·.uid)).mem_iff.mpr (mem_map_shardEntries.mpr ⟨hdesired,heq⟩)
      simp only [reached,List.map_append]
      exact List.mem_append_right _ hmem
  | yield hpass hentries hroom =>
    refine h.set hpass rfl (fun hold hlt => ?_)
    rw [reached_yield hentries]
    exact hold hlt
  | finish hpass hlive hempty hshard => exact h.set hpass rfl (fun hold hlt => hold hlt)
  | receive hnext => exact h

theorem covers_of_throughout {w : List FlowAction} (h : Covers shardOf i uid s)
    (hr : DesiredThroughout shardOf uid s w t) : Covers shardOf i uid t := by
  obtain ⟨hsome,hr⟩ := hr
  induction hr with
  | nil s => exact h
  | cons hstep _ ih => exact ih (h.step hsome hstep.1) hstep.2

end Lemmas

/-- A pass that has come to its end has sent exactly one event for a pod that was desired all along
and at most one for any other, whatever the dispatcher, the runtime loop and other passes did
meanwhile; and all reconcile events are of passes. -/
theorem reconciled_once {w₀ w : List FlowAction} {s t : UpdateFlow capacity} {i : ℕ} {p : ReconcilePass} {uid : PodUID}
    (hs : Runs (Step shardOf) {} w₀ s) (hstart : s.passes[i]? = some {})
    (hr : DesiredThroughout shardOf uid s w t) (hpass : t.passes[i]? = some p) (hdone : p.done = true) :
    (p.sent.map (·.uid)).count uid = 1 ∧ (∀ u, (p.sent.map (·.uid)).count u ≤ 1) ∧ t.Accounted := by
  have ht : Runs (Step shardOf) {} (w₀ ++ w) t := hs.append (hr.2.mono fun _ _ _ h => h.1)
  have horderly := ht.invariant (I := fun s => ∀ p ∈ s.passes, Orderly shardOf p)
    (fun _ _ _ h hstep => orderly_step h hstep) (fun p hp => absurd hp List.not_mem_nil)
  have haccounted := ht.invariant (I := Accounted) (fun _ _ _ h hstep => h.step hstep) (List.Perm.refl [])
  have hp := horderly p (List.mem_of_getElem? hpass)
  obtain ⟨hempty,hend⟩ := hp.ends hdone
  have hsent : reached p = p.sent.map (·.uid) := by simp [reached,hempty]
  have hnodup : (p.sent.map (·.uid)).Nodup := hsent ▸ hp.nodup
  obtain ⟨q,hq,hcovers⟩ := covers_of_throughout (i := i) ⟨{},hstart,fun hlt => absurd hlt (Nat.not_lt_zero _)⟩ hr
  obtain rfl := Option.some.inj (hpass.symm.trans hq)
  have hmem : uid ∈ p.sent.map (·.uid) := hsent ▸ hcovers (lt_of_lt_of_le (shardOf uid).isLt hend)
  exact ⟨List.count_eq_one_of_mem hnodup hmem,fun u => List.nodup_iff_count_le_one.mp hnodup u,haccounted⟩

/-- A step that leaves the pod desired. -/
def performKeeping (uid : PodUID) (s : UpdateFlow capacity) (a : FlowAction) : Option (UpdateFlow capacity) :=
  (s.perform shardOf a).filter fun t => (t.manager.get uid).isSome

theorem throughout_of_exec {uid : PodUID} {s t : UpdateFlow capacity} {w : List FlowAction}
    (hs : (s.manager.get uid).isSome = true) (h : exec (performKeeping shardOf uid) s w = some t) :
    DesiredThroughout shardOf uid s w t := by
  refine ⟨hs,(runs_of_exec h).mono fun s a t hstep => ?_⟩
  obtain ⟨hperform,hsome⟩ := Option.filter_eq_some_iff.mp hstep
  exact ⟨step_of_perform shardOf hperform,hsome⟩

/-- The pass has not begun. -/
def Fresh (p : ReconcilePass) : Prop :=
  p.shard = 0 ∧ p.guard = none ∧ p.entries.isEmpty = true ∧ p.sent.isEmpty = true ∧ p.done = false

instance (p : ReconcilePass) : Decidable (Fresh p) := inferInstanceAs (Decidable (_ ∧ _ ∧ _ ∧ _ ∧ _))

theorem eq_of_fresh {p : ReconcilePass} (h : Fresh p) : p = {} := by
  obtain ⟨shard,guard,entries,sent,done⟩ := p
  simpa [Fresh] using h

def startActions : List FlowAction := [.arrive (.upsert web 0),.dispatch,.send,.tick]

/-- The spec of the pod is updated between its event and the end of the pass. -/
def passActions : List FlowAction :=
  [.acquire 0,.arrive (.upsert web 1),.yield 0,.receive,.receive,.finish 0,.dispatch,.send]

theorem reconciled_once_web : ∃ (s t : UpdateFlow 2) (p : ReconcilePass),
    Runs (Step fun _ => (0 : Fin 1)) {} startActions s ∧ t.passes[0]? = some p ∧
      (p.sent.map (·.uid)).count web.uid = 1 ∧ (∀ u, (p.sent.map (·.uid)).count u ≤ 1) ∧ t.Accounted := by
  have hexec : ((exec (perform fun _ => (0 : Fin 1)) ({} : UpdateFlow 2) startActions).bind fun s =>
      (s.passes[0]?).bind fun q =>
        if Fresh q ∧ (s.manager.get web.uid).isSome = true then
          (exec (performKeeping (fun _ => (0 : Fin 1)) web.uid) s passActions).bind fun t =>
            (t.passes[0]?).map (·.done)
        else none) = some true := by
    decide +kernel
  obtain ⟨s,hs,hexec⟩ := Option.bind_eq_some_iff.mp hexec
  obtain ⟨q,hq,hexec⟩ := Option.bind_eq_some_iff.mp hexec
  obtain ⟨⟨hfresh,hsome⟩,hexec⟩ := Option.ite_none_right_eq_some.mp hexec
  obtain ⟨t,ht,hexec⟩ := Option.bind_eq_some_iff.mp hexec
  obtain ⟨p,hp,hdone⟩ := Option.map_eq_some_iff.mp hexec
  have hr := runs_of_perform _ hs
  rw [eq_of_fresh hfresh] at hq
  exact ⟨s,t,p,hr,hp,reconciled_once _ hr hq (throughout_of_exec _ hsome ht) hp hdone⟩

end UpdateFlow
end KubeAir.Core
