import KubeAir.Core.Pod
import KubeAir.Transition.Streak

/-! # Probe evaluation

The counters of a probe and the decision after each result, over the whole history of results.
-/
namespace KubeAir.Adapters.Prober
open Core Transition

inductive ProbeResult
  | success
  | failure (msg : String)
  | unknown (msg : String)
deriving DecidableEq, Repr

structure ProbeState where
  consecutiveSuccesses : UInt32 := 0
  consecutiveFailures : UInt32 := 0
deriving DecidableEq, Repr

inductive ProbeDecision
  | pass
  | fail
  | pending
deriving DecidableEq, Repr

def evaluateProbeResult (result : ProbeResult) (state : ProbeState) (probe : Probe) : ProbeDecision × ProbeState :=
  match result with
  | .success =>
    let state := { state with
      consecutiveFailures := 0
      consecutiveSuccesses := state.consecutiveSuccesses + 1 }
    if probe.successThreshold ≤ state.consecutiveSuccesses.toNat then (.pass,state) else (.pending,state)
  | .failure _ | .unknown _ =>
    let state := { state with
      consecutiveSuccesses := 0
      consecutiveFailures := state.consecutiveFailures + 1 }
    if probe.failureThreshold ≤ state.consecutiveFailures.toNat then (.fail,state) else (.pending,state)

/-- The state after a sequence of results. -/
def probeStateAfter (probe : Probe) (results : List ProbeResult) : ProbeState :=
  results.foldl (fun s r => (evaluateProbeResult r s probe).2) {}

def ProbeResult.isSuccess : ProbeResult → Bool
  | .success => true
  | .failure _ | .unknown _ => false

/-- A result that counts as a failure. -/
def ProbeResult.isFailure (r : ProbeResult) : Bool := !r.isSuccess

/-- The counter that a result increments. -/
def ProbeState.counter (state : ProbeState) (r : ProbeResult) : UInt32 :=
  if r.isSuccess then state.consecutiveSuccesses else state.consecutiveFailures

variable {probe : Probe} {state : ProbeState} {result : ProbeResult} {results : List ProbeResult}

theorem evaluateProbeResult_success (h : result.isSuccess = true) : evaluateProbeResult result state probe =
    (if probe.successThreshold ≤ (state.consecutiveSuccesses + 1).toNat then .pass else .pending,
      ⟨state.consecutiveSuccesses + 1,0⟩) := by
  cases result with
  | success =>
    unfold evaluateProbeResult
    dsimp only
    split <;> rfl
  | failure msg => cases h
  | unknown msg => cases h

theorem evaluateProbeResult_failure (h : result.isSuccess = false) : evaluateProbeResult result state probe =
    (if probe.failureThreshold ≤ (state.consecutiveFailures + 1).toNat then .fail else .pending,
      ⟨0,state.consecutiveFailures + 1⟩) := by
  cases result with
  | success => cases h
  | failure msg =>
    unfold evaluateProbeResult
    dsimp only
    split <;> rfl
  | unknown msg =>
    unfold evaluateProbeResult
    dsimp only
    split <;> rfl

theorem probeStateAfter_concat :
    probeStateAfter probe (results ++ [result]) = (evaluateProbeResult result (probeStateAfter probe results) probe).2 := by
  unfold probeStateAfter
  rw [List.foldl_append]
  rfl

theorem toNat_succ {x : UInt32} {n : ℕ} (hx : x.toNat = n) (hn : n + 1 < 2 ^ 32) : (x + 1).toNat = n + 1 := by
  rw [UInt32.toNat_add,hx]
  exact Nat.mod_eq_of_lt hn

/-- The counters are the streaks of the history, as long as it is short enough. -/
theorem counters_eq_streaks (probe : Probe) (h : results.length < 2 ^ 32) :
    (probeStateAfter probe results).consecutiveSuccesses.toNat = streak ProbeResult.isSuccess results ∧
      (probeStateAfter probe results).consecutiveFailures.toNat = streak ProbeResult.isFailure results := by
  induction results using List.reverseRecOn with
  | nil => exact ⟨rfl,rfl⟩
  | append_singleton results result ih =>
    rw [List.length_append,List.length_singleton] at h
    obtain ⟨hs,hf⟩ := ih (Nat.lt_of_succ_lt h)
    have hsle : streak ProbeResult.isSuccess results ≤ results.length := streak_le_length
    have hfle : streak ProbeResult.isFailure results ≤ results.length := streak_le_length
    rw [probeStateAfter_concat,streak_concat,streak_concat]
    cases hr : result.isSuccess with
    | true =>
      have hfail : result.isFailure = false := by rw [ProbeResult.isFailure,hr]; rfl
      rw [evaluateProbeResult_success hr,hfail,if_pos rfl,if_neg Bool.false_ne_true]
      exact ⟨toNat_succ hs (by omega),rfl⟩
    | false =>
      have hfail : result.isFailure = true := by rw [ProbeResult.isFailure,hr]; rfl
      rw [evaluateProbeResult_failure hr,hfail,if_neg Bool.false_ne_true,if_pos rfl]
      exact ⟨rfl,toNat_succ hf (by omega)⟩

/-- The decision after a result is the one that the last results call for. -/
structure Decides (probe : Probe) (history : List ProbeResult) (decision : ProbeDecision) : Prop where
  pass : decision = .pass ↔ LastAll probe.successThreshold ProbeResult.isSuccess history
  fail : decision = .fail ↔ LastAll probe.failureThreshold ProbeResult.isFailure history
  pending : decision = .pending ↔ ¬LastAll probe.successThreshold ProbeResult.isSuccess history ∧
    ¬LastAll probe.failureThreshold ProbeResult.isFailure history

theorem not_lastAll_of_streak {p : ProbeResult → Bool} {n : ℕ} (hn : 1 ≤ n) (h : streak p results = 0) :
    ¬LastAll n p results := by
  rw [← le_streak_iff,h]
  omega

theorem decides_evaluate (hsuccess : 1 ≤ probe.successThreshold) (hfailure : 1 ≤ probe.failureThreshold)
    (h : (results ++ [result]).length < 2 ^ 32) :
    Decides probe (results ++ [result]) (evaluateProbeResult result (probeStateAfter probe results) probe).1 := by
  obtain ⟨hs,hf⟩ := counters_eq_streaks probe h
  rw [probeStateAfter_concat] at hs hf
  cases hr : result.isSuccess with
  | true =>
    have hnone : ¬LastAll probe.failureThreshold ProbeResult.isFailure (results ++ [result]) := by
      apply not_lastAll_of_streak hfailure
      rw [streak_concat,ProbeResult.isFailure,hr]
      rfl
    rw [evaluateProbeResult_success hr] at hs ⊢
    have hiff := le_streak_iff (n := probe.successThreshold) (p := ProbeResult.isSuccess) (l := results ++ [result])
    rw [← hs] at hiff
    dsimp only at hiff ⊢
    by_cases hle : probe.successThreshold ≤ ((probeStateAfter probe results).consecutiveSuccesses + 1).toNat
    · rw [if_pos hle]
      exact ⟨iff_of_true rfl (hiff.mp hle),iff_of_false nofun hnone,iff_of_false nofun (fun h => h.1 (hiff.mp hle))⟩
    · rw [if_neg hle]
      have hnot := fun hall => hle (hiff.mpr hall)
      exact ⟨iff_of_false nofun hnot,iff_of_false nofun hnone,iff_of_true rfl ⟨hnot,hnone⟩⟩
  | false =>
    have hnone : ¬LastAll probe.successThreshold ProbeResult.isSuccess (results ++ [result]) := by
      apply not_lastAll_of_streak hsuccess
      rw [streak_concat,hr]
      rfl
    rw [evaluateProbeResult_failure hr] at hf ⊢
    have hiff := le_streak_iff (n := probe.failureThreshold) (p := ProbeResult.isFailure) (l := results ++ [result])
    rw [← hf] at hiff
    dsimp only at hiff ⊢
    by_cases hle : probe.failureThreshold ≤ ((probeStateAfter probe results).consecutiveFailures + 1).toNat
    · rw [if_pos hle]
      exact ⟨iff_of_false nofun hnone,iff_of_true rfl (hiff.mp hle),iff_of_false nofun (fun h => h.2 (hiff.mp hle))⟩
    · rw [if_neg hle]
      have hnot := fun hall => hle (hiff.mpr hall)
      exact ⟨iff_of_false nofun hnone,iff_of_false nofun hnot,iff_of_true rfl ⟨hnone,hnot⟩⟩

/-- No result overflows the counter that it increments. -/
theorem counter_lt (h : (results ++ [result]).length < 2 ^ 32) :
    ((probeStateAfter probe results).counter result).toNat + 1 < 2 ^ 32 := by
  rw [List.length_append,List.length_singleton] at h
  obtain ⟨hs,hf⟩ := counters_eq_streaks probe (Nat.lt_of_succ_lt h)
  have hsle : streak ProbeResult.isSuccess results ≤ results.length := streak_le_length
  have hfle : streak ProbeResult.isFailure results ≤ results.length := streak_le_length
  unfold ProbeState.counter
  split <;> omega

end KubeAir.Adapters.Prober
