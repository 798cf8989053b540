import KubeAir.Accounting.SlidingWindow
import KubeAir.Core.Pod
import KubeAir.Transition.Machine
import Mathlib.Algebra.Order.Group.Nat
import Mathlib.Data.List.Induction

/-! # The rate limiter of streaming requests

A key is let through as often as a limit says within a window that slides with the time. What the
queue of a key keeps is all that later windows hold of the calls that were let through.
-/
namespace KubeAir.Streaming.RateLimiter
open Core Accounting Transition SlidingWindow Machine

/-- `Instant::duration_since`, zero for a later instant. -/
def durationSince (now earlier : Instant) : ℕ := now - earlier

structure FixedWindowRateLimiter where
  entries : HashMap String (List Instant) := ∅
  maxEvents : ℕ := 0
  window : ℕ := 0

/-- A call of `allow` and the time it reads. -/
structure Call where
  key : String
  now : Instant
deriving DecidableEq, Repr

namespace FixedWindowRateLimiter

def new (maxEvents window : ℕ) : FixedWindowRateLimiter where
  maxEvents := maxEvents
  window := window

def queue (l : FixedWindowRateLimiter) (key : String) : List Instant := (l.entries.lookup key).getD []

def allow (l : FixedWindowRateLimiter) (c : Call) : Bool × FixedWindowRateLimiter :=
  let q := (l.queue c.key).dropWhile (fun front => l.window < durationSince c.now front)
  if l.maxEvents ≤ q.length then (false,{ l with entries := l.entries.insert c.key q })
  else (true,{ l with entries := l.entries.insert c.key (q ++ [c.now]) })

/-- The limiter after some calls. -/
abbrev called (maxEvents window : ℕ) (calls : List Call) : FixedWindowRateLimiter := after allow (new maxEvents window) calls

/-- The calls with what they returned. -/
abbrev returned (maxEvents window : ℕ) (calls : List Call) : List (Call × Bool) :=
  answers allow (new maxEvents window) calls

end FixedWindowRateLimiter

open FixedWindowRateLimiter

/-- When the calls of a key returned true. -/
def grants (key : String) (returned : List (Call × Bool)) : List Instant :=
  (returned.filter (fun p => p.2 ∧ p.1.key = key)).map (·.1.now)

/-- What the limiter is for. -/
structure Limits (maxEvents window : ℕ) (calls : List Call) : Prop where
  /-- no closed interval as long as the window holds more grants of a key -/
  bounded : ∀ key, Bounded window maxEvents (grants key (returned maxEvents window calls))
  /-- a refused call has as many grants of its key in the window before it -/
  refused : ∀ before c rest, returned maxEvents window calls = before ++ (c,false) :: rest →
    ((grants c.key before).filter (fun t => t ≤ c.now ∧ durationSince c.now t ≤ window)).length = maxEvents
  /-- the calls of a key are answered as if there were no others -/
  apart : ∀ key, (returned maxEvents window calls).filter (fun p => p.1.key = key) =
    returned maxEvents window (calls.filter (fun c => c.key = key))

section Queues
variable {l : FixedWindowRateLimiter} {c : Call} {key : String}

@[simp] theorem maxEvents_allow : (l.allow c).2.maxEvents = l.maxEvents := by
  unfold allow
  dsimp only
  split <;> rfl

@[simp] theorem window_allow : (l.allow c).2.window = l.window := by
  unfold allow
  dsimp only
  split <;> rfl

theorem queue_allow_of_ne (h : key ≠ c.key) : (l.allow c).2.queue key = l.queue key := by
  unfold allow queue
  dsimp only
  split
  · rw [AList.lookup_insert_ne h]
  · rw [AList.lookup_insert_ne h]

theorem expired_iff (now front window : ℕ) : window < durationSince now front ↔ front + window < now :=
  Nat.lt_sub_iff_add_lt'

theorem durationSince_le_iff {now front window : ℕ} : durationSince now front ≤ window ↔ now ≤ front + window :=
  Nat.sub_le_iff_le_add'

/-- What a call does to a queue that is in order. -/
theorem allow_eq (h : (l.queue c.key).Pairwise (· ≤ ·)) :
    (l.allow c).1 = decide ((recent l.window c.now (l.queue c.key)).length < l.maxEvents) ∧
      (l.allow c).2.queue c.key = recent l.window c.now (l.queue c.key) ++ if (l.allow c).1 then [c.now] else [] := by
  have hq : (l.queue c.key).dropWhile (fun front => l.window < durationSince c.now front) =
      recent l.window c.now (l.queue c.key) := by
    simp only [expired_iff]
    exact dropWhile_eq_recent h
  unfold allow
  rw [hq]
  dsimp only
  split
  · next hfull =>
    refine ⟨(decide_eq_false (not_lt.mpr hfull)).symm,?_⟩
    simp [queue]
  · next hroom =>
    refine ⟨(decide_eq_true (not_le.mp hroom)).symm,?_⟩
    simp [queue]

/-- What a call answers and leaves depends on the limiter by the queue of its key alone. -/
theorem allow_congr {l' : FixedWindowRateLimiter} (hmax : l.maxEvents = l'.maxEvents) (hwindow : l.window = l'.window)
    (hqueue : l.queue c.key = l'.queue c.key) :
    (l.allow c).1 = (l'.allow c).1 ∧ (l.allow c).2.queue c.key = (l'.allow c).2.queue c.key := by
  unfold allow
  rw [hmax,hwindow,hqueue]
  dsimp only
  split
  · simp [queue]
  · simp [queue]

end Queues

/-! ## What the queues keep -/

/-- The queues are in order, and any later window holds the same of them as of the grants. -/
structure Tracks (l : FixedWindowRateLimiter) (past : List (Call × Bool)) : Prop where
  sorted : ∀ key, (l.queue key).Pairwise (· ≤ ·)
  called : ∀ key, ∀ t ∈ l.queue key, ∃ p ∈ past, t = p.1.now
  same : ∀ key now, (∀ p ∈ past, p.1.now ≤ now) →
    recent l.window now (l.queue key) = recent l.window now (grants key past)

theorem grants_concat {key : String} {past : List (Call × Bool)} {c : Call} {b : Bool} :
    grants key (past ++ [(c,b)]) = grants key past ++ if b = true ∧ c.key = key then [c.now] else [] := by
  unfold grants
  rw [List.filter_append,List.map_append]
  by_cases h : b = true ∧ c.key = key
  · simp [h]
  · rw [if_neg h,List.filter_cons_of_neg (by simpa using h)]
    rfl

theorem tracks_new (maxEvents window : ℕ) : Tracks (new maxEvents window) [] where
  sorted := fun _ => List.Pairwise.nil
  called := fun _ _ h => absurd h List.not_mem_nil
  same := fun _ _ _ => rfl

theorem Tracks.allow {l : FixedWindowRateLimiter} {past : List (Call × Bool)} (h : Tracks l past) {c : Call}
    (hlater : ∀ p ∈ past, p.1.now ≤ c.now) : Tracks (l.allow c).2 (past ++ [(c,(l.allow c).1)]) := by
  obtain ⟨-,hqueue⟩ := allow_eq (h.sorted c.key)
  have hold : ∀ t ∈ recent l.window c.now (l.queue c.key), t ∈ l.queue c.key := fun t ht => (List.mem_filter.mp ht).1
  have hadded : ∀ t ∈ (if (l.allow c).1 = true then [c.now] else []), t = c.now := by
    intro t ht
    split at ht
    · exact List.mem_singleton.mp ht
    · cases ht
  constructor
  · intro key
    by_cases hkey : key = c.key
    · subst hkey
      rw [hqueue,List.pairwise_append]
      refine ⟨(h.sorted c.key).filter _,?_,?_⟩
      · split
        · exact List.pairwise_singleton _ _
        · exact List.Pairwise.nil
      · intro t ht u hu
        obtain ⟨p,hp,rfl⟩ := h.called c.key t (hold t ht)
        exact hadded u hu ▸ hlater p hp
    · rw [queue_allow_of_ne hkey]
      exact h.sorted key
  · intro key t ht
    have hpast : ∀ u ∈ l.queue key, ∃ p ∈ past ++ [(c,(l.allow c).1)], u = p.1.now := by
      intro u hu
      obtain ⟨p,hp,hup⟩ := h.called key u hu
      exact ⟨p,List.mem_append_left _ hp,hup⟩
    by_cases hkey : key = c.key
    · subst hkey
      rw [hqueue] at ht
      rcases List.mem_append.mp ht with ht | ht
      · exact hpast t (hold t ht)
      · exact ⟨(c,(l.allow c).1),by simp,hadded t ht⟩
    · rw [queue_allow_of_ne hkey] at ht
      exact hpast t ht
  · intro key now hnow
    have hpast : ∀ p ∈ past, p.1.now ≤ now := fun p hp => hnow p (List.mem_append_left _ hp)
    have hc : c.now ≤ now := hnow (c,(l.allow c).1) (by simp)
    rw [grants_concat,window_allow]
    by_cases hkey : key = c.key
    · subst hkey
      rw [hqueue,recent_append,recent_append,recent_recent hc,h.same c.key now hpast]
      simp
    · rw [queue_allow_of_ne hkey,h.same key now hpast]
      simp [Ne.symm hkey]

/-! ## Whole runs -/

section Runs
variable {maxEvents window : ℕ} {calls : List Call} {c : Call}

variable (maxEvents window) in
theorem limits_called : (called maxEvents window calls).maxEvents = maxEvents ∧
    (called maxEvents window calls).window = window := by
  induction calls using List.reverseRecOn with
  | nil => exact ⟨rfl,rfl⟩
  | append_singleton calls c ih =>
    rw [called,after_concat]
    simpa using ih

variable (maxEvents window) in
theorem tracks_called (h : calls.Pairwise (fun a b => a.now ≤ b.now)) :
    Tracks (called maxEvents window calls) (returned maxEvents window calls) := by
  induction calls using List.reverseRecOn with
  | nil => exact tracks_new maxEvents window
  | append_singleton calls c ih =>
    obtain ⟨hcalls,-,hlater⟩ := List.pairwise_append.mp h
    rw [called,returned,after_concat,answers_concat]
    refine (ih hcalls).allow ?_
    intro p hp
    exact hlater p.1 (fst_mem_of_mem_answers hp) c List.mem_cons_self

/-- A call returns true exactly if the window before it has room. -/
theorem allow_called (h : (calls ++ [c]).Pairwise (fun a b => a.now ≤ b.now)) :
    ((called maxEvents window calls).allow c).1 =
      decide ((recent window c.now (grants c.key (returned maxEvents window calls))).length < maxEvents) := by
  obtain ⟨hcalls,-,hlater⟩ := List.pairwise_append.mp h
  have htracks := tracks_called maxEvents window hcalls
  have hsame := htracks.same c.key c.now fun p hp => hlater p.1 (fst_mem_of_mem_answers hp) c List.mem_cons_self
  obtain ⟨hmax,hwindow⟩ := @limits_called maxEvents window calls
  rw [(allow_eq (htracks.sorted c.key)).1,hmax,hsame,hwindow]

variable (maxEvents window) in
theorem bounded_grants (h : calls.Pairwise (fun a b => a.now ≤ b.now)) (key : String) :
    Bounded window maxEvents (grants key (returned maxEvents window calls)) := by
  induction calls using List.reverseRecOn with
  | nil => exact bounded_nil
  | append_singleton calls c ih =>
    have hcalls := (List.pairwise_append.mp h).1
    rw [returned,answers_concat,grants_concat]
    split
    · next hgrant =>
      obtain ⟨hallow,rfl⟩ := hgrant
      rw [allow_called h] at hallow
      exact (ih hcalls).concat (of_decide_eq_true hallow)
    · rw [List.append_nil]
      exact ih hcalls

theorem grants_le (h : (calls ++ [c]).Pairwise (fun a b => a.now ≤ b.now)) {key : String} {t : Instant}
    (ht : t ∈ grants key (returned maxEvents window calls)) : t ≤ c.now := by
  obtain ⟨p,hp,rfl⟩ := List.mem_map.mp ht
  have hcall : p.1 ∈ calls := fst_mem_of_mem_answers (List.mem_filter.mp hp).1
  exact (List.pairwise_append.mp h).2.2 p.1 hcall c List.mem_cons_self

/-- The window before a call that is refused is full. -/
theorem full_of_refused (h : (calls ++ [c]).Pairwise (fun a b => a.now ≤ b.now))
    (hrefused : ((called maxEvents window calls).allow c).1 = false) :
    ((grants c.key (returned maxEvents window calls)).filter
      (fun t => t ≤ c.now ∧ durationSince c.now t ≤ window)).length = maxEvents := by
  have hfull : maxEvents ≤ (recent window c.now (grants c.key (returned maxEvents window calls))).length := by
    rw [allow_called h] at hrefused
    exact not_lt.mp (of_decide_eq_false hrefused)
  have hbound := bounded_grants maxEvents window (List.pairwise_append.mp h).1 c.key
    (c.now - window) c.now (by omega)
  have hrecent : (grants c.key (returned maxEvents window calls)).filter
      (fun t => t ≤ c.now ∧ durationSince c.now t ≤ window) =
        recent window c.now (grants c.key (returned maxEvents window calls)) := by
    refine List.filter_congr ?_
    intro t ht
    have hle : t ≤ c.now := grants_le h ht
    refine decide_eq_decide.mpr ?_
    rw [durationSince_le_iff]
    exact and_iff_right hle
  have hinterval : (grants c.key (returned maxEvents window calls)).filter
      (fun t => t ≤ c.now ∧ durationSince c.now t ≤ window) =
        (grants c.key (returned maxEvents window calls)).filter (fun t => c.now - window ≤ t ∧ t ≤ c.now) := by
    refine List.filter_congr ?_
    intro t _
    refine decide_eq_decide.mpr ?_
    rw [durationSince_le_iff,and_comm]
    exact and_congr_left' Nat.sub_le_iff_le_add.symm
  apply Nat.le_antisymm
  · rw [hinterval]
    exact hbound
  · rw [hrecent]
    exact hfull

/-- The answers to the calls of a key are those that it gets alone. -/
theorem returned_filter (key : String) : (returned maxEvents window calls).filter (fun p => p.1.key = key) =
    returned maxEvents window (calls.filter (fun c => c.key = key)) := by
  refine answers_filter (fun l : FixedWindowRateLimiter => (l.maxEvents,l.window,l.queue key))
    (fun c : Call => c.key = key) ?_ ?_ rfl
  · intro l l' c hview hc
    obtain rfl : c.key = key := of_decide_eq_true hc
    simp only [Prod.mk.injEq] at hview
    obtain ⟨hmax,hwindow,hqueue⟩ := hview
    obtain ⟨hanswer,hafter⟩ := allow_congr hmax hwindow hqueue
    refine ⟨hanswer,?_⟩
    simp [hmax,hwindow,hafter]
  · intro l c hc
    have hkey : key ≠ c.key := Ne.symm (of_decide_eq_false hc)
    simp [queue_allow_of_ne hkey]

/-- The limiter limits the grants of each key in every window, refuses a call only for a full
window, and keeps the keys apart. -/
theorem limits_of_nondecreasing (maxEvents window : ℕ) (calls : List Call)
    (h : calls.Pairwise (fun a b => a.now ≤ b.now)) : Limits maxEvents window calls where
  bounded := bounded_grants maxEvents window h
  refused := by
    intro before c rest hsplit
    obtain ⟨v,u,rfl,rfl,hanswer⟩ := answers_split hsplit
    have hcalls : (v ++ [c]).Pairwise (fun a b => a.now ≤ b.now) := by
      refine h.sublist ?_
      simp
    exact full_of_refused hcalls hanswer.symm
  apart := returned_filter

/-- Two calls at one time, of which a limit of one lets the first through. -/
theorem limits_same_time : Limits 1 5 [⟨"alice",3⟩,⟨"alice",3⟩] :=
  limits_of_nondecreasing 1 5 [⟨"alice",3⟩,⟨"alice",3⟩] (by decide)

end Runs

end KubeAir.Streaming.RateLimiter
