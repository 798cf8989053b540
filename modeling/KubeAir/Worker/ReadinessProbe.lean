import KubeAir.Adapters.Prober
import KubeAir.Worker.Request

/-! # The readiness loop

`spawn_readiness_probe` as a step over the rounds of its loop: the readiness that it stores for a
container turns only after enough results in a row.
-/
namespace KubeAir.Worker.ReadinessProbe
open Core Transition Adapters.Prober

/-- The entries of `readiness_map`, the state of the probe, and whether the loop has returned. -/
structure ReadinessTask where
  readiness : HashMap String Bool
  probeState : ProbeState := {}
  returned : Bool := false

/-- What a round observes. A result is only asked for when the container is found running. -/
structure ProbeRound where
  status : Except KubeletError (Option RuntimeContainerState)
  result : ProbeResult

/-- The container is found running. -/
def ProbeRound.found (r : ProbeRound) : Bool :=
  match r.status with
  | .ok (some .running) => true
  | _ => false

def ProbeRound.succeeds (r : ProbeRound) : Bool := r.found && r.result.isSuccess

def ProbeRound.fails (r : ProbeRound) : Bool := r.found && r.result.isFailure

/-- Containers start not-ready until the probe passes. -/
def begin (cid : String) (readiness : HashMap String Bool) : ReadinessTask :=
  { readiness := readiness.insert cid false }

/-- What is stored after a decision. -/
def applyDecision (cid : String) (t : ReadinessTask) : ProbeDecision × ProbeState → ReadinessTask
  | (.pass,state) => { t with
      readiness := t.readiness.insert cid true
      probeState := state }
  | (.fail,_) => { t with
      readiness := t.readiness.insert cid false
      probeState := {} }
  | (.pending,state) => { t with probeState := state }

/-- One round of the loop. -/
def round (cid : String) (probe : Probe) (t : ReadinessTask) (r : ProbeRound) : ReadinessTask :=
  if t.returned then t
  else
    match r.status with
    | .ok (some .running) => applyDecision cid t (evaluateProbeResult r.result t.probeState probe)
    | .ok (some .exited) => { t with
        readiness := t.readiness.insert cid false
        returned := true }
    | .ok none => { t with
        readiness := t.readiness.erase cid
        returned := true }
    -- a state that may pass: not ready for now, and the counters start anew
    | .ok (some _) | .error _ => { t with
        readiness := t.readiness.insert cid false
        probeState := {} }

def taskAfter (cid : String) (probe : Probe) (readiness : HashMap String Bool) (rounds : List ProbeRound) :
    ReadinessTask :=
  rounds.foldl (round cid probe) (begin cid readiness)

/-- The readiness that is stored for the container. -/
def ReadinessTask.ready (cid : String) (t : ReadinessTask) : Bool := (t.readiness.lookup cid).getD false

variable {cid : String} {probe : Probe} {readiness : HashMap String Bool} {rounds : List ProbeRound}
  {t : ReadinessTask} {r : ProbeRound}

theorem taskAfter_concat : taskAfter cid probe readiness (rounds ++ [r]) =
    round cid probe (taskAfter cid probe readiness rounds) r := by
  unfold taskAfter
  rw [List.foldl_append]
  rfl

/-- A loop that has returned does nothing. -/
theorem round_returned (hret : t.returned = true) : round cid probe t r = t := by
  unfold round
  rw [if_pos hret]

theorem round_found (hret : t.returned = false) (h : r.found = true) : round cid probe t r =
    applyDecision cid t (evaluateProbeResult r.result t.probeState probe) := by
  unfold ProbeRound.found at h
  unfold round
  rw [hret,if_neg Bool.false_ne_true]
  split at h
  · rename_i hstatus
    rw [hstatus]
  · cases h

/-- The counters start anew when the container is not found running. -/
theorem probeState_lost (h : r.found = false) (hret : (round cid probe t r).returned = false) :
    (round cid probe t r).probeState = {} := by
  unfold ProbeRound.found at h
  unfold round at hret ⊢
  by_cases ht : t.returned = true
  · rw [if_pos ht] at hret
    rw [ht] at hret
    cases hret
  · rw [if_neg ht] at hret ⊢
    split at h
    · cases h
    · split
      · contradiction
      · rename_i hstatus
        rw [hstatus] at hret
        cases hret
      · rename_i hstatus
        rw [hstatus] at hret
        cases hret
      · rfl
      · rfl

theorem ready_lost (h : r.found = false) (hready : (round cid probe t r).ready cid = true) : t.ready cid = true := by
  unfold ProbeRound.found at h
  unfold round at hready
  by_cases ht : t.returned = true
  · rwa [if_pos ht] at hready
  · rw [if_neg ht] at hready
    unfold ReadinessTask.ready at hready
    split at h
    · cases h
    · split at hready
      · contradiction
      · rw [AList.lookup_insert] at hready
        cases hready
      · rw [AList.lookup_erase] at hready
        cases hready
      · rw [AList.lookup_insert] at hready
        cases hready
      · rw [AList.lookup_insert] at hready
        cases hready

theorem ready_applyDecision (cid : String) (t : ReadinessTask) (d : ProbeDecision × ProbeState) :
    (applyDecision cid t d).ready cid =
      match d.1 with
      | .pass => true
      | .fail => false
      | .pending => t.ready cid := by
  obtain ⟨decision,state⟩ := d
  unfold ReadinessTask.ready applyDecision
  cases decision with
  | pass => simp
  | fail => simp
  | pending => rfl

/-! ## The counters behind the history -/

/-- The counters of a loop that runs on are not ahead of the history of its rounds. -/
def Behind (rounds : List ProbeRound) (t : ReadinessTask) : Prop :=
  t.returned = false → t.probeState.consecutiveSuccesses.toNat ≤ streak ProbeRound.succeeds rounds ∧
    t.probeState.consecutiveFailures.toNat ≤ streak ProbeRound.fails rounds

theorem toNat_succ_le (x : UInt32) : (x + 1).toNat ≤ x.toNat + 1 := by
  rw [UInt32.toNat_add]
  exact Nat.mod_le _ _

/-- A result leaves the counters that it finds behind the history, behind it. -/
theorem counters_le (probe : Probe) (h : r.found = true) (hs : t.probeState.consecutiveSuccesses.toNat ≤ streak ProbeRound.succeeds rounds)
    (hf : t.probeState.consecutiveFailures.toNat ≤ streak ProbeRound.fails rounds) :
    (evaluateProbeResult r.result t.probeState probe).2.consecutiveSuccesses.toNat ≤
        streak ProbeRound.succeeds (rounds ++ [r]) ∧
      (evaluateProbeResult r.result t.probeState probe).2.consecutiveFailures.toNat ≤
        streak ProbeRound.fails (rounds ++ [r]) := by
  rw [streak_concat,streak_concat]
  unfold ProbeRound.succeeds ProbeRound.fails ProbeResult.isFailure
  rw [h]
  cases hr : r.result.isSuccess with
  | true =>
    rw [evaluateProbeResult_success hr]
    exact ⟨(toNat_succ_le _).trans (Nat.succ_le_succ hs),Nat.zero_le _⟩
  | false =>
    rw [evaluateProbeResult_failure hr]
    exact ⟨Nat.zero_le _,(toNat_succ_le _).trans (Nat.succ_le_succ hf)⟩

theorem behind_applyDecision {d : ProbeDecision × ProbeState}
    (hs : d.2.consecutiveSuccesses.toNat ≤ streak ProbeRound.succeeds rounds)
    (hf : d.2.consecutiveFailures.toNat ≤ streak ProbeRound.fails rounds) :
    Behind rounds (applyDecision cid t d) := by
  intro _
  obtain ⟨decision,state⟩ := d
  cases decision with
  | pass => exact ⟨hs,hf⟩
  | fail => exact ⟨Nat.zero_le _,Nat.zero_le _⟩
  | pending => exact ⟨hs,hf⟩

theorem behind_taskAfter : Behind rounds (taskAfter cid probe readiness rounds) := by
  induction rounds using List.reverseRecOn with
  | nil => exact fun _ => ⟨Nat.le_refl 0,Nat.le_refl 0⟩
  | append_singleton rounds r ih =>
    rw [taskAfter_concat]
    cases hret : (taskAfter cid probe readiness rounds).returned with
    | true =>
      rw [round_returned hret]
      intro h
      rw [hret] at h
      cases h
    | false =>
      obtain ⟨hs,hf⟩ := ih hret
      cases hfound : r.found with
      | true =>
        rw [round_found hret hfound]
        obtain ⟨hs',hf'⟩ := counters_le probe hfound hs hf
        exact behind_applyDecision hs' hf'
      | false =>
        intro hret'
        rw [probeState_lost hfound hret']
        exact ⟨Nat.zero_le _,Nat.zero_le _⟩

/-! ## Turns -/

/-- A loop whose round turns the readiness has not returned before. -/
theorem returned_of_turns {b : Bool} (hbefore : (taskAfter cid probe readiness rounds).ready cid = b)
    (hafter : (taskAfter cid probe readiness (rounds ++ [r])).ready cid = !b) :
    (taskAfter cid probe readiness rounds).returned = false := by
  cases hret : (taskAfter cid probe readiness rounds).returned with
  | false => rfl
  | true =>
    rw [taskAfter_concat,round_returned hret,hbefore] at hafter
    cases b <;> cases hafter

/-- The stored readiness turns true in a round only after enough successes in a row. -/
theorem lastAll_of_turns_true (hbefore : (taskAfter cid probe readiness rounds).ready cid = false)
    (hafter : (taskAfter cid probe readiness (rounds ++ [r])).ready cid = true) :
    LastAll probe.successThreshold ProbeRound.succeeds (rounds ++ [r]) := by
  have hret := returned_of_turns hbefore hafter
  rw [taskAfter_concat] at hafter
  obtain ⟨hs,hf⟩ := behind_taskAfter hret
  cases hfound : r.found with
  | false =>
    rw [ready_lost hfound hafter] at hbefore
    cases hbefore
  | true =>
    obtain ⟨hs',-⟩ := counters_le probe hfound hs hf
    rw [round_found hret hfound,ready_applyDecision,hbefore] at hafter
    apply le_streak_iff.mp
    cases hr : r.result.isSuccess with
    | true =>
      rw [evaluateProbeResult_success hr] at hs' hafter
      by_cases hle : probe.successThreshold ≤
          ((taskAfter cid probe readiness rounds).probeState.consecutiveSuccesses + 1).toNat
      · exact hle.trans hs'
      · rw [if_neg hle] at hafter
        cases hafter
    | false =>
      rw [evaluateProbeResult_failure hr] at hafter
      split_ifs at hafter

/-- The stored readiness of a container that is found running turns false only after enough
results in a row that are no success. -/
theorem lastAll_of_turns_false (hfound : r.found = true) (hbefore : (taskAfter cid probe readiness rounds).ready cid = true)
    (hafter : (taskAfter cid probe readiness (rounds ++ [r])).ready cid = false) :
    LastAll probe.failureThreshold ProbeRound.fails (rounds ++ [r]) := by
  have hret := returned_of_turns hbefore hafter
  rw [taskAfter_concat] at hafter
  obtain ⟨hs,hf⟩ := behind_taskAfter hret
  obtain ⟨-,hf'⟩ := counters_le probe hfound hs hf
  rw [round_found hret hfound,ready_applyDecision,hbefore] at hafter
  apply le_streak_iff.mp
  cases hr : r.result.isSuccess with
  | false =>
    rw [evaluateProbeResult_failure hr] at hf' hafter
    by_cases hle : probe.failureThreshold ≤
        ((taskAfter cid probe readiness rounds).probeState.consecutiveFailures + 1).toNat
    · exact hle.trans hf'
    · rw [if_neg hle] at hafter
      cases hafter
  | true =>
    rw [evaluateProbeResult_success hr] at hafter
    split_ifs at hafter

/-- The law of a probe: the decisions for every history, and the turns of the stored readiness in
every run of the loop. -/
structure Hysteresis (probe : Probe) : Prop where
  decides : ∀ results result, (results ++ [result]).length < 2 ^ 32 →
    Decides probe (results ++ [result]) (evaluateProbeResult result (probeStateAfter probe results) probe).1
  counter_lt : ∀ results result, (results ++ [result]).length < 2 ^ 32 →
    ((probeStateAfter probe results).counter result).toNat + 1 < 2 ^ 32
  turnsTrue : ∀ cid readiness rounds r, (taskAfter cid probe readiness rounds).ready cid = false →
    (taskAfter cid probe readiness (rounds ++ [r])).ready cid = true →
      LastAll probe.successThreshold ProbeRound.succeeds (rounds ++ [r])
  turnsFalse : ∀ cid readiness rounds r, r.found = true → (taskAfter cid probe readiness rounds).ready cid = true →
    (taskAfter cid probe readiness (rounds ++ [r])).ready cid = false →
      LastAll probe.failureThreshold ProbeRound.fails (rounds ++ [r])

/-- Each decision is the one that the last results call for, and the stored readiness of a
container that is found running turns only after enough results in a row. -/
theorem probe_hysteresis (probe : Probe) (hsuccess : 1 ≤ probe.successThreshold) (hfailure : 1 ≤ probe.failureThreshold) :
    Hysteresis probe where
  decides _ _ h := decides_evaluate hsuccess hfailure h
  counter_lt _ _ h := counter_lt h
  turnsTrue _ _ _ _ hbefore hafter := lastAll_of_turns_true hbefore hafter
  turnsFalse _ _ _ _ hfound hbefore hafter := lastAll_of_turns_false hfound hbefore hafter

/-- A probe that passes after two successes and fails after three failures. -/
def webProbe : Probe where
  handler := .httpGet "/healthz" 80 none "HTTP"
  initialDelaySeconds := 0
  periodSeconds := 10
  timeoutSeconds := 1
  successThreshold := 2
  failureThreshold := 3

theorem webProbe_hysteresis :
    1 ≤ webProbe.successThreshold ∧ 1 ≤ webProbe.failureThreshold ∧ Hysteresis webProbe :=
  ⟨by decide,by decide,probe_hysteresis webProbe (by decide) (by decide)⟩

end KubeAir.Worker.ReadinessProbe
