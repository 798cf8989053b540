import KubeAir.Core.ClosedChannel
import KubeAir.Core.ReconcilePasses
import Mathlib.Algebra.GroupWithZero.Nat

/-! # The steps that are left

A pass that waits for room holds a shard, and the dispatcher may wait for that shard with the next
update of the sources behind it. Without new updates and passes every step lowers what is left to do,
and as long as something is left some task has a step.
-/
namespace KubeAir.Core
open Transition

namespace UpdateFlow
variable {capacity shards : ℕ} (shardOf : PodUID → Fin shards)

/-- What the tasks do themselves; updates of the sources and ticks come from outside. -/
def Internal : FlowAction → Prop
  | .arrive _ => False
  | .tick => False
  | _ => True

/-- The steps of the tasks. -/
def OwnStep (s : UpdateFlow capacity) (a : FlowAction) (t : UpdateFlow capacity) : Prop := Internal a ∧ Step shardOf s a t

/-- Nothing waits to be applied, to be sent or to be taken, and no pass is under way. -/
structure Settled (s : UpdateFlow capacity) : Prop where
  sourceRx : s.sourceRx = []
  sent : s.manager.updateTx.queue = []
  updateRx : s.updateRx.queue = []
  passes : ∀ p ∈ s.passes, p.done = true

/-- The receiver is there, and a pass at its end holds nothing. -/
structure Flowing (s : UpdateFlow capacity) : Prop where
  opened : s.manager.updateTx.closed = false
  released : ∀ p ∈ s.passes, p.done = true → p.guard = none ∧ p.entries = []

/-- The desired pods of a shard and of those after it. -/
def ahead (m : PodManager) (shard : ℕ) : List PodUID := (m.list.map (·.uid)).filter (fun uid => shard ≤ (shardOf uid).val)

/-- The steps that a pass has before it, and those that its events give to the runtime loop. -/
def passRank (m : PodManager) (p : ReconcilePass) : ℕ :=
  if p.done then 0 else 1 + (shards - p.shard) + 2 * (p.entries.length + (ahead shardOf m p.shard).length)

/-- A call may add one pod to what every pass has before it. -/
def rank (s : UpdateFlow capacity) : ℕ :=
  s.updateRx.queue.length + 2 * s.manager.updateTx.queue.length + s.sourceRx.length * (3 + 2 * s.passes.length) +
    (s.passes.map (passRank shardOf s.manager)).sum

section Calls
variable {m n : PodManager} {c : PodCall}

theorem closed_send (u : PodUpdate) : (m.send u).2.updateTx.closed = m.updateTx.closed := by
  simp only [PodManager.send,UpdateChannel.send]
  split <;> rfl

theorem closed_call (c : PodCall) : (m.call c).2.updateTx.closed = m.updateTx.closed := by
  cases c with
  | upsert pod now =>
    simp only [PodManager.call,PodManager.upsert]
    split
    · simp only [PodManager.mergeAliases]
      split
      · exact closed_send _
      · rfl
    · simp only [PodManager.insertPod]
      rw [closed_send]
      split <;> rfl
  | remove uid fallbackSpec at_ =>
    simp only [PodManager.call,PodManager.remove]
    split
    · exact closed_send _
    · split
      · exact closed_send _
      · rfl

/-- A call does not fail while the receiver is there. -/
theorem call_ok (hopen : m.updateTx.closed = false) (c : PodCall) : ∃ n, m.call c = (.ok (),n) := by
  have hsame : m.opened = m := by
    simp only [PodManager.opened]
    rw [← hopen]
  have hok : (m.call c).1 = .ok () := by
    cases c with
    | upsert pod now =>
      have hok := PodManager.ok_of_opened m (.upsert pod now)
      rwa [hsame] at hok
    | remove uid fallbackSpec at_ =>
      have hok := PodManager.ok_of_opened m (.remove uid (fallbackSpec.map (·.val)) at_)
      rwa [hsame] at hok
  exact ⟨(m.call c).2,Prod.ext hok rfl⟩

theorem length_queue_call (hidle : m.updateTx.queue = []) (hcall : m.call c = (.ok (),n)) : n.updateTx.queue.length ≤ 1 := by
  cases PodManager.emits_call hcall with
  | nothing hsame => simp [hsame,hidle]
  | stored pod op hop hget hqueue hkept hnew => simp [hqueue,hidle]
  | dropped pod hget hqueue hkept => simp [hqueue,hidle]

variable {shardOf} {p : ReconcilePass} {shard : ℕ}

theorem mem_ahead {uid : PodUID} :
    uid ∈ ahead shardOf m shard ↔ (m.get uid).isSome = true ∧ shard ≤ (shardOf uid).val := by
  simp only [ahead,m.map_uid_list,List.mem_filter,decide_eq_true_eq]
  refine and_congr_left fun _ => ?_
  exact (AList.lookup_isSome).symm

theorem nodup_ahead : (ahead shardOf m shard).Nodup := m.nodup_list.filter _

variable (shardOf) in
/-- A call puts at most one more pod before a pass. -/
theorem length_ahead_call (shard : ℕ) (hcall : m.call c = (.ok (),n)) :
    (ahead shardOf n shard).length ≤ (ahead shardOf m shard).length + 1 := by
  have hget (uid : PodUID) (hne : m.writeKey c ≠ some uid) : n.get uid = m.get uid := by
    have hkept := get_call hne
    rwa [hcall] at hkept
  have hsubset (uid : PodUID) (hmem : uid ∈ ahead shardOf n shard) : m.writeKey c = some uid ∨ uid ∈ ahead shardOf m shard := by
    by_cases hkey : m.writeKey c = some uid
    · exact .inl hkey
    · obtain ⟨hsome,hshard⟩ := mem_ahead.mp hmem
      exact .inr (mem_ahead.mpr ⟨hget uid hkey ▸ hsome,hshard⟩)
  cases hkey : m.writeKey c with
  | none =>
    have hsub : ahead shardOf n shard ⊆ ahead shardOf m shard := fun uid hmem =>
      (hsubset uid hmem).resolve_left (by simp [hkey])
    have hlength := (List.subperm_of_subset nodup_ahead hsub).length_le
    omega
  | some key =>
    have hsub : ahead shardOf n shard ⊆ key :: ahead shardOf m shard := by
      intro uid hmem
      rcases hsubset uid hmem with heq | hold
      · rw [Option.some.inj (hkey.symm.trans heq)]
        exact List.mem_cons_self
      · exact List.mem_cons_of_mem _ hold
    simpa using (List.subperm_of_subset nodup_ahead hsub).length_le

theorem length_ahead_reordered (h : PodManager.Reordered m n) : (ahead shardOf n shard).length = (ahead shardOf m shard).length := by
  have hlist : m.list.Perm n.list := h.desired.map _
  exact ((hlist.map _).filter _).length_eq.symm

variable (shardOf m shard) in
/-- The pods from a shard on are those of the shard and those after it. -/
theorem length_ahead : (ahead shardOf m shard).length = (shardEntries shardOf m shard).length + (ahead shardOf m (shard + 1)).length := by
  simp only [ahead,shardEntries,List.filter_map,List.length_map]
  induction m.list with
  | nil => rfl
  | cons pod l ih =>
    simp only [List.filter_cons,Function.comp_apply,decide_eq_true_eq] at ih ⊢
    rcases Nat.lt_trichotomy shard (shardOf pod.uid).val with h | h | h
    · rw [if_pos (by omega),if_neg (by omega),if_pos (by omega)]
      simp only [List.length_cons]
      omega
    · rw [if_pos (by omega),if_pos (by omega),if_neg (by omega)]
      simp only [List.length_cons]
      omega
    · rw [if_neg (by omega),if_neg (by omega),if_neg (by omega)]
      exact ih

theorem passRank_acquire {entries : List PodSpec} (guard : Option ℕ) (hlive : p.done = false) (hempty : p.entries = [])
    (hshard : p.shard < shards) (hentries : entries.Perm (shardEntries shardOf m p.shard)) :
    passRank shardOf m { p with shard := p.shard + 1, guard := guard, entries := entries } < passRank shardOf m p := by
  have hahead := length_ahead shardOf m p.shard
  have hlength := hentries.length_eq
  simp only [passRank,hlive,hempty,List.length_nil,Bool.false_eq_true,if_false]
  omega

variable (shardOf m) in
theorem passRank_yield {pod : PodSpec} {rest : List PodSpec} (sent : List PodSpec) (hlive : p.done = false) (hentries : p.entries = pod :: rest) :
    passRank shardOf m { p with entries := rest, sent := sent } + 2 = passRank shardOf m p := by
  simp only [passRank,hlive,hentries,List.length_cons,Bool.false_eq_true,if_false]
  omega

variable (shardOf m) in
theorem passRank_finish (hlive : p.done = false) :
    passRank shardOf m { p with guard := none, done := true } < passRank shardOf m p := by
  simp only [passRank,hlive,if_true,Bool.false_eq_true,if_false]
  omega

end Calls

section Steps
variable {shardOf} {s t : UpdateFlow capacity} {m n : PodManager} {p q : ReconcilePass} {a : FlowAction} {i : ℕ}

theorem Flowing.set (h : s.Flowing) {u : UpdateFlow capacity} (hopen : u.manager.updateTx.closed = s.manager.updateTx.closed)
    (hpasses : u.passes = s.passes.set i q) (hq : q.done = true → q.guard = none ∧ q.entries = []) : u.Flowing := by
  refine ⟨hopen.trans h.opened,fun r hr => ?_⟩
  rw [hpasses] at hr
  rcases mem_set hr with hr | rfl
  · exact h.released r hr
  · exact hq

theorem Flowing.step (h : s.Flowing) (hstep : Step shardOf s a t) : t.Flowing := by
  cases hstep with
  | arrive c => exact ⟨h.opened,h.released⟩
  | tick =>
    refine ⟨h.opened,fun p hp hdone => ?_⟩
    rcases List.mem_append.mp hp with hp | hp
    · exact h.released p hp hdone
    · obtain rfl := List.mem_singleton.mp hp
      exact ⟨rfl,rfl⟩
  | @dispatch c rest n t hidle hnext horder hfree hcall =>
    refine ⟨?_,h.released⟩
    have hclosed := closed_call (m := n) c
    rw [hcall,horder.updateTx,h.opened] at hclosed
    exact hclosed
  | send hevent hroom => exact ⟨h.opened,h.released⟩
  | acquire hpass hlive hempty hshard hentries => exact h.set rfl rfl (by simp [hlive])
  | @yield i p pod rest hpass hentries hroom =>
    refine h.set rfl rfl (fun hdone => ?_)
    have hnone := (h.released p (List.mem_of_getElem? hpass) hdone).2
    rw [hentries] at hnone
    cases hnone
  | finish hpass hlive hempty hshard => exact h.set rfl rfl (fun _ => ⟨rfl,hempty⟩)
  | receive hnext => exact ⟨h.opened,h.released⟩

/-- The ranks of all passes after one has changed. -/
theorem sum_passRank_set {passes : List ReconcilePass} (f : ReconcilePass → ℕ) (hpass : passes[i]? = some p) :
    ((passes.set i q).map f).sum + f p = (passes.map f).sum + f q := by
  induction passes generalizing i with
  | nil => simp at hpass
  | cons r passes ih =>
    cases i with
    | zero =>
      obtain rfl := Option.some.inj hpass
      simp only [List.set_cons_zero,List.map_cons,List.sum_cons]
      omega
    | succ i =>
      have hrest := ih (i := i) (by simpa using hpass)
      simp only [List.set_cons_succ,List.map_cons,List.sum_cons]
      omega

variable (shardOf) in
theorem passRank_call (hcall : m.call c = (.ok (),n)) (p : ReconcilePass) :
    passRank shardOf n p ≤ passRank shardOf m p + 2 := by
  have hahead := length_ahead_call shardOf p.shard hcall
  simp only [passRank]
  split <;> omega

variable (shardOf) in
theorem sum_passRank_call (hcall : m.call c = (.ok (),n)) (passes : List ReconcilePass) :
    (passes.map (passRank shardOf n)).sum ≤ (passes.map (passRank shardOf m)).sum + 2 * passes.length := by
  induction passes with
  | nil => simp
  | cons p passes ih =>
    have hp := passRank_call shardOf hcall p
    simp only [List.map_cons,List.sum_cons,List.length_cons]
    omega

theorem passRank_reordered (h : PodManager.Reordered m n) : passRank shardOf n = passRank shardOf m := by
  funext p
  simp only [passRank,length_ahead_reordered h]

theorem rank_dispatch {c : PodCall} {rest : List PodCall} (hidle : s.manager.updateTx.queue = [])
    (hnext : s.sourceRx = c :: rest) (horder : PodManager.Reordered s.manager m) (hcall : m.call c = (.ok (),n)) :
    rank shardOf { s with manager := n, sourceRx := rest } < rank shardOf s := by
  have hempty : m.updateTx.queue = [] := by rw [horder.updateTx,hidle]
  have hqueue := length_queue_call hempty hcall
  have hpasses := sum_passRank_call shardOf hcall s.passes
  rw [passRank_reordered horder] at hpasses
  simp only [rank,hidle,hnext,List.length_nil,List.length_cons,Nat.add_mul]
  omega

/-- A pass that still has an entry is under way. -/
theorem Flowing.live (h : s.Flowing) (hpass : s.passes[i]? = some p) {pod : PodSpec} {rest : List PodSpec}
    (hentries : p.entries = pod :: rest) : p.done = false := by
  by_contra hdone
  have hnone := (h.released p (List.mem_of_getElem? hpass) (by simpa using hdone)).2
  rw [hentries] at hnone
  cases hnone

theorem rank_step (h : s.Flowing) (hinternal : Internal a) (hstep : Step shardOf s a t) : rank shardOf t < rank shardOf s := by
  cases hstep with
  | arrive c => exact hinternal.elim
  | tick => exact hinternal.elim
  | dispatch hidle hnext horder hfree hcall => exact rank_dispatch hidle hnext horder hcall
  | @send u rest hevent hroom =>
    have hpasses : passRank shardOf (sentOff s.manager) = passRank shardOf s.manager := rfl
    simp only [rank,hpasses,BoundedChannel.queue_send,List.length_append,List.length_singleton]
    simp only [sentOff,hevent,List.tail_cons,List.length_cons]
    omega
  | @acquire i p entries hpass hlive hempty hshard hentries =>
    have hsum := sum_passRank_set (q := { p with shard := p.shard + 1, guard := some p.shard, entries := entries })
      (passRank shardOf s.manager) hpass
    have hlower := passRank_acquire (some p.shard) hlive hempty hshard hentries
    simp only [rank,List.length_set]
    omega
  | @yield i p pod rest hpass hentries hroom =>
    have hsum := sum_passRank_set (q := { p with entries := rest, sent := p.sent ++ [pod] })
      (passRank shardOf s.manager) hpass
    have hlower := passRank_yield shardOf s.manager (p.sent ++ [pod]) (h.live hpass hentries) hentries
    simp only [rank,List.length_set,BoundedChannel.queue_send,List.length_append,List.length_singleton]
    omega
  | @finish i p hpass hlive hempty hshard =>
    have hsum := sum_passRank_set (q := { p with guard := none, done := true }) (passRank shardOf s.manager) hpass
    have hlower := passRank_finish shardOf s.manager hlive
    simp only [rank,List.length_set]
    omega
  | @receive u rest hnext =>
    simp only [rank,BoundedChannel.recv_eq_some hnext,List.length_cons]
    omega

/-- A pass that is under way can always go on while the channel has room. -/
theorem exists_passStep (hpass : s.passes[i]? = some p) (hlive : p.done = false) (hroom : s.updateRx.HasRoom) :
    ∃ a t, OwnStep shardOf s a t := by
  cases hentries : p.entries with
  | cons pod rest => exact ⟨.yield i,_,trivial,.yield hpass hentries hroom⟩
  | nil =>
    by_cases hshard : p.shard < shards
    · exact ⟨.acquire i,_,trivial,.acquire hpass hlive hentries hshard (.refl _)⟩
    · exact ⟨.finish i,_,trivial,.finish hpass hlive hentries (Nat.le_of_not_lt hshard)⟩

/-- Without a pass under way, the dispatcher gets every lock. -/
theorem exists_dispatch (h : s.Flowing) (hdone : ∀ p ∈ s.passes, p.done = true) (hidle : s.manager.updateTx.queue = [])
    {c : PodCall} {rest : List PodCall} (hnext : s.sourceRx = c :: rest) : ∃ a t, OwnStep shardOf s a t := by
  obtain ⟨n,hcall⟩ := call_ok h.opened c
  refine ⟨.dispatch,_,trivial,.dispatch hidle hnext ⟨.refl _,rfl,rfl⟩ (fun uid _ p hp => ?_) hcall⟩
  rw [(h.released p hp (hdone p hp)).1]
  simp

theorem exists_step (hcapacity : 0 < capacity) (h : s.Flowing) (hrest : ¬Settled s) : ∃ a t, OwnStep shardOf s a t := by
  by_cases hqueue : s.updateRx.queue = []
  · have hroom := BoundedChannel.hasRoom_of_nil hcapacity hqueue
    cases hevent : s.manager.updateTx.queue with
    | cons u rest => exact ⟨.send,_,trivial,.send hevent hroom⟩
    | nil =>
      by_cases hdone : ∀ p ∈ s.passes, p.done = true
      · cases hnext : s.sourceRx with
        | cons c rest => exact exists_dispatch h hdone hevent hnext
        | nil => exact absurd ⟨hnext,hevent,hqueue,hdone⟩ hrest
      · obtain ⟨p,hp,hlive⟩ : ∃ p ∈ s.passes, ¬p.done = true := by simpa using hdone
        obtain ⟨i,hpass⟩ := List.mem_iff_getElem?.mp hp
        exact exists_passStep hpass (by simpa using hlive) hroom
  · obtain ⟨u,rest,hnext⟩ := BoundedChannel.exists_recv hqueue
    exact ⟨.receive,_,trivial,.receive hnext⟩

variable (shardOf) in
theorem drains (hcapacity : 0 < capacity) :
    Drains (OwnStep shardOf) (fun s : UpdateFlow capacity => s.Flowing) Settled (rank shardOf) where
  kept _ _ _ h hstep := h.step hstep.2
  lowered _ _ _ h hstep := rank_step h hstep.1 hstep.2
  moves _ h hrest := exists_step hcapacity h hrest

theorem flowing_start : Flowing ({} : UpdateFlow capacity) := ⟨rfl,fun _ hp => absurd hp List.not_mem_nil⟩

end Steps

end UpdateFlow
end KubeAir.Core
