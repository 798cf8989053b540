import KubeAir.Core.FlowProgress

/-! # Passes and the dispatcher never block each other for good

The tasks run on the threads of a pool, and a free thread takes any task that can go on. A task that
waits for the channel gives its thread back, but the dispatcher is in the middle of a call when it
waits for a shard, and keeps its own. The runtime loop needs a thread to empty the channel, so that
the pass in the shard gets on: two threads are enough for any number of passes, and one is not.
-/
namespace KubeAir.Core
open Transition

/-- The tasks on a pool of threads. -/
structure ThreadedFlow (capacity : ℕ) where
  flow : UpdateFlow capacity := {}
  /-- the dispatcher is in a call -/
  calling : Bool := false

inductive ThreadAction
  /-- the dispatcher goes into the call for its next update -/
  | call
  | act (a : FlowAction)

namespace ThreadedFlow
open UpdateFlow (Internal Flowing Settled)
variable {capacity shards : ℕ} (shardOf : PodUID → Fin shards) (threads : ℕ)

/-- The threads that calls keep. -/
def kept (s : ThreadedFlow capacity) : ℕ := if s.calling then 1 else 0

/-- A call ends on the thread on which it began, and every other step of a task takes a free one. -/
inductive Step (s : ThreadedFlow capacity) : ThreadAction → ThreadedFlow capacity → Prop
  | call {c : PodCall} {rest : List PodCall} (hfree : s.kept < threads) (hout : s.calling = false)
      (hidle : s.flow.manager.updateTx.queue = []) (hnext : s.flow.sourceRx = c :: rest) :
      Step s .call { s with calling := true }
  | dispatch {t : UpdateFlow capacity} (hin : s.calling = true) (hstep : UpdateFlow.Step shardOf s.flow .dispatch t) :
      Step s (.act .dispatch) { flow := t, calling := false }
  | act {a : FlowAction} {t : UpdateFlow capacity} (hother : a ≠ .dispatch) (hfree : Internal a → s.kept < threads)
      (hstep : UpdateFlow.Step shardOf s.flow a t) : Step s (.act a) { s with flow := t }

/-- The steps of the tasks. -/
def OwnStep (s : ThreadedFlow capacity) (a : ThreadAction) (t : ThreadedFlow capacity) : Prop :=
  (∀ b, a = .act b → Internal b) ∧ Step shardOf threads s a t

/-- A call is about an update that is still there. -/
structure Underway (s : ThreadedFlow capacity) : Prop where
  flowing : Flowing s.flow
  idle : s.calling = true → s.flow.manager.updateTx.queue = []
  next : s.calling = true → s.flow.sourceRx ≠ []

/-- Going into a call is a step of its own. -/
def rank (s : ThreadedFlow capacity) : ℕ := 2 * UpdateFlow.rank shardOf s.flow + if s.calling then 0 else 1

section Lemmas
variable {shardOf threads} {s t : ThreadedFlow capacity} {a : ThreadAction} {b : FlowAction} {u v : UpdateFlow capacity}
  {w : List ThreadAction}

/-- Only the dispatcher takes updates of the sources, and only it sends them. -/
theorem waiting_step (hstep : UpdateFlow.Step shardOf u b v) (hother : b ≠ .dispatch) (hidle : u.manager.updateTx.queue = []) :
    v.manager.updateTx.queue = [] ∧ (u.sourceRx ≠ [] → v.sourceRx ≠ []) := by
  cases hstep with
  | arrive c => exact ⟨hidle,fun _ => by simp⟩
  | dispatch => exact absurd rfl hother
  | send hevent => rw [hidle] at hevent; cases hevent
  | _ => exact ⟨hidle,id⟩

theorem Underway.step (h : Underway s) (hstep : Step shardOf threads s a t) : Underway t := by
  cases hstep with
  | call hfree hout hidle hnext =>
    refine ⟨h.flowing,fun _ => hidle,fun _ => ?_⟩
    rw [hnext]
    exact List.cons_ne_nil _ _
  | dispatch hin hstep => exact ⟨h.flowing.step hstep,nofun,nofun⟩
  | act hother hfree hstep =>
    refine ⟨h.flowing.step hstep,fun hin => ?_,fun hin => ?_⟩
    · exact (waiting_step hstep hother (h.idle hin)).1
    · exact (waiting_step hstep hother (h.idle hin)).2 (h.next hin)

theorem underway_start : Underway ({} : ThreadedFlow capacity) := ⟨UpdateFlow.flowing_start,nofun,nofun⟩

theorem rank_step (h : Underway s) (hstep : OwnStep shardOf threads s a t) : rank shardOf t < rank shardOf s := by
  obtain ⟨hinternal,hstep⟩ := hstep
  cases hstep with
  | call hfree hout hidle hnext =>
    unfold rank
    simp [hout]
  | dispatch hin hstep =>
    have hlower := UpdateFlow.rank_step h.flowing (hinternal _ rfl) hstep
    unfold rank
    simp only [hin,if_true,Bool.false_eq_true,if_false]
    omega
  | act hother hfree hstep =>
    have hlower := UpdateFlow.rank_step h.flowing (hinternal _ rfl) hstep
    unfold rank
    dsimp only
    omega

/-- With two threads one is always free. -/
theorem exists_step (hthreads : 2 ≤ threads) (hcapacity : 0 < capacity) (h : Underway s) (hrest : ¬Settled s.flow) :
    ∃ a t, OwnStep shardOf threads s a t := by
  have hfree : s.kept < threads := by
    unfold kept
    split <;> omega
  have hmove : ∃ a t, Internal a ∧ UpdateFlow.Step shardOf s.flow a t := UpdateFlow.exists_step hcapacity h.flowing hrest
  obtain ⟨a,t,hinternal,hstep⟩ := hmove
  by_cases hdispatch : a = .dispatch
  · subst hdispatch
    cases hcalling : s.calling with
    | true =>
      refine ⟨.act .dispatch,⟨t,false⟩,?_,.dispatch hcalling hstep⟩
      rintro b ⟨⟩
      exact hinternal
    | false =>
      cases hstep with
      | dispatch hidle hnext =>
        refine ⟨.call,{ s with calling := true },?_,.call hfree hcalling hidle hnext⟩
        rintro b ⟨⟩
  · refine ⟨.act a,{ s with flow := t },?_,.act hdispatch (fun _ => hfree) hstep⟩
    rintro b ⟨⟩
    exact hinternal

variable (shardOf) in
theorem drains (hthreads : 2 ≤ threads) (hcapacity : 0 < capacity) :
    Drains (OwnStep shardOf threads) (fun s : ThreadedFlow capacity => Underway s) (fun s => Settled s.flow) (rank shardOf) where
  kept _ _ _ h hstep := h.step hstep.2
  lowered _ _ _ h hstep := rank_step h hstep
  moves _ h hrest := exists_step hthreads hcapacity h hrest

/-- On threads the tasks do what they do as they can. -/
theorem runs_flow (hr : Runs (Step shardOf threads) s w t) : ∃ w', Runs (UpdateFlow.Step shardOf) s.flow w' t.flow := by
  induction hr with
  | nil s => exact ⟨[],.nil _⟩
  | cons hstep _ ih =>
    obtain ⟨w',hr⟩ := ih
    cases hstep with
    | call => exact ⟨w',hr⟩
    | dispatch hin hstep => exact ⟨.dispatch :: w',.cons hstep hr⟩
    | @act a _ hother hfree hstep => exact ⟨a :: w',.cons hstep hr⟩

/-- One thread is enough to follow a run in which nothing waits. -/
theorem runs_threaded (hthreads : 0 < threads) {w : List FlowAction} (hr : Runs (UpdateFlow.Step shardOf) u w v) :
    ∃ w', Runs (Step shardOf threads) ⟨u,false⟩ w' ⟨v,false⟩ := by
  induction hr with
  | nil u => exact ⟨[],.nil _⟩
  | @cons u v _ a _ hstep _ ih =>
    obtain ⟨w',hr⟩ := ih
    by_cases hdispatch : a = .dispatch
    · subst hdispatch
      obtain ⟨c,rest,hidle,hnext⟩ : ∃ c rest, u.manager.updateTx.queue = [] ∧ u.sourceRx = c :: rest := by
        cases hstep with
        | dispatch hidle hnext => exact ⟨_,_,hidle,hnext⟩
      exact ⟨_,.cons (.call hthreads rfl hidle hnext) (.cons (.dispatch rfl hstep) hr)⟩
    · exact ⟨_,.cons (.act hdispatch (fun _ => hthreads) hstep) hr⟩

end Lemmas

/-- Wherever the system has got to, with as many passes as there are, on two threads or more: left to
itself it goes on on every schedule until all updates are applied and every pass is at its end, within a
bound that depends on the state alone, and then the runtime loop has been told exactly what is desired. -/
theorem tasks_settle (hthreads : 2 ≤ threads) (hcapacity : 0 < capacity) {w₀ w : List ThreadAction} {s t : ThreadedFlow capacity}
    (hs : Runs (Step shardOf threads) {} w₀ s) (hr : Runs (OwnStep shardOf threads) s w t) :
    w.length ≤ rank shardOf s ∧ (Settled t.flow ∨ ∃ a u, OwnStep shardOf threads t a u) ∧
      ∃ w' u, Runs (OwnStep shardOf threads) t w' u ∧ Settled u.flow ∧
        ∀ uid, UpdateFlow.believed u.flow.received uid = u.flow.manager.get uid := by
  have hunderway := hs.invariant (fun _ _ _ h hstep => Underway.step h hstep) underway_start
  obtain ⟨hbound,hmoves,w',u,hr',hrest⟩ := (drains shardOf hthreads hcapacity).settles hunderway hr
  refine ⟨hbound,hmoves,w',u,hr',hrest,fun uid => ?_⟩
  obtain ⟨_,hu⟩ := runs_flow (hs.append ((hr.append hr').mono fun _ _ _ h => h.2))
  have hevents : u.flow.events = u.flow.received := by simp [UpdateFlow.events,hrest.updateRx,hrest.sent]
  rw [← UpdateFlow.believed_eq_desired shardOf hu uid,hevents]

/-! ## A removal that waits for a pass -/

/-- A pass is in the only shard, and the channel is full. -/
def enteredActions : List FlowAction := [.arrive (.upsert UpdateFlow.web 0),.dispatch,.send,.tick,.acquire 0]

/-- Then the removal arrives, and the dispatcher waits in its call. -/
theorem exists_waiting (hthreads : 0 < threads) : ∃ (w : List ThreadAction) (s : ThreadedFlow 1),
    Runs (Step (fun _ => (0 : Fin 1)) threads) {} w s ∧ s.calling = true ∧ s.flow.sourceRx = [UpdateFlow.webRemoval] ∧
      ¬s.flow.Unlocked (fun _ => (0 : Fin 1)) UpdateFlow.web.uid := by
  have hexec : ((exec (UpdateFlow.perform fun _ => (0 : Fin 1)) ({} : UpdateFlow 1) enteredActions).map fun u =>
      decide (u.manager.updateTx.queue.isEmpty ∧ u.sourceRx.isEmpty ∧
        ¬u.Unlocked (fun _ => (0 : Fin 1)) UpdateFlow.web.uid)) = some true := by
    decide +kernel
  obtain ⟨u,hu,hentered⟩ := Option.map_eq_some_iff.mp hexec
  obtain ⟨hidle,hnone,hlocked⟩ := of_decide_eq_true hentered
  have hnext : u.sourceRx ++ [UpdateFlow.webRemoval] = [UpdateFlow.webRemoval] := by rw [List.isEmpty_iff.mp hnone,List.nil_append]
  obtain ⟨w,hr⟩ := runs_threaded hthreads (UpdateFlow.runs_of_perform _ hu)
  have harrive : Step (fun _ => (0 : Fin 1)) threads ⟨u,false⟩ (.act (.arrive UpdateFlow.webRemoval))
      ⟨{ u with sourceRx := u.sourceRx ++ [UpdateFlow.webRemoval] },false⟩ :=
    .act nofun (fun h => h.elim) (.arrive UpdateFlow.webRemoval)
  exact ⟨_,_,hr.append (.cons harrive (.cons (.call hthreads rfl (List.isEmpty_iff.mp hidle) hnext) (.nil _))),rfl,hnext,hlocked⟩

/-- With two threads the pass gets its events into the channel, and the removal its shard. -/
theorem tasks_settle_waiting : ∃ (w : List ThreadAction) (s : ThreadedFlow 1),
    Runs (Step (fun _ => (0 : Fin 1)) 2) {} w s ∧ s.calling = true ∧
      ¬s.flow.Unlocked (fun _ => (0 : Fin 1)) UpdateFlow.web.uid ∧
      ∃ w' u, Runs (OwnStep (fun _ => (0 : Fin 1)) 2) s w' u ∧ Settled u.flow ∧
        ∀ uid, UpdateFlow.believed u.flow.received uid = u.flow.manager.get uid := by
  obtain ⟨w,s,hr,hin,-,hlocked⟩ := exists_waiting 2 Nat.two_pos
  exact ⟨w,s,hr,hin,hlocked,(tasks_settle _ 2 le_rfl Nat.one_pos hr (.nil s)).2.2⟩

/-- With one thread nothing moves any more. -/
theorem stuck_of_one_thread : ∃ (w : List ThreadAction) (s : ThreadedFlow 1),
    Runs (Step (fun _ => (0 : Fin 1)) 1) {} w s ∧ ¬Settled s.flow ∧ ∀ a t, ¬OwnStep (fun _ => (0 : Fin 1)) 1 s a t := by
  obtain ⟨w,s,hr,hin,hnext,hlocked⟩ := exists_waiting 1 Nat.one_pos
  have hkept : ¬s.kept < 1 := by simp [kept,hin]
  refine ⟨w,s,hr,fun hrest => ?_,?_⟩
  · rw [hrest.sourceRx] at hnext
    cases hnext
  · rintro a t ⟨hinternal,hstep⟩
    cases hstep with
    | call hfree => exact hkept hfree
    | dispatch _ hstep =>
      cases hstep with
      | dispatch _ hnext' _ hfree =>
        obtain ⟨rfl,-⟩ := List.cons.inj (hnext.symm.trans hnext')
        exact hlocked (hfree _ rfl)
    | act _ hfree => exact hkept (hfree (hinternal _ rfl))

end ThreadedFlow
end KubeAir.Core
