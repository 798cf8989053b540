import KubeAir.Transition.Runs
import KubeAir.Worker.ProbeTasks

/-! # What the probes of a container may do

A task stops the container exactly when its probe has failed often enough in a row. The liveness and
the readiness task of a container wait for its startup probe, and a container that is recorded once is
stopped at most once, whatever the order in which passes, tasks and restarts take turns.
-/
namespace KubeAir.Worker.ProbeTasks
open Core Transition Adapters.Prober ReadinessProbe

/-- The end of a task is the one that the last results call for. -/
structure Justified (probe : Probe) (t : ProbeTask) : Prop where
  stopped : t.ended = some .stopped ↔ LastAll (max 1 probe.failureThreshold) ProbeResult.isFailure t.results
  passed : t.ended = some .passed ↔ t.kind = .startup ∧ LastAll (max 1 probe.successThreshold) ProbeResult.isSuccess t.results

/-- The counters of a task that goes on are those of its results. The liveness task does not use the
number of successes, which may wrap. -/
structure Counting (t : ProbeTask) : Prop where
  failures : t.ended = none → t.probeState.consecutiveFailures.toNat = streak ProbeResult.isFailure t.results
  successes : t.ended = none → t.kind = .startup →
    t.probeState.consecutiveSuccesses.toNat = streak ProbeResult.isSuccess t.results

section Turn
variable {probe : Probe} {t : ProbeTask} {r : ProbeRound} {result : ProbeResult}

theorem turn_ended (h : t.ended.isSome = true) : t.turn probe r = t := by
  simp [ProbeTask.turn,h]

theorem turn_lost (h : t.ended = none) (hfound : r.found = false) : t.turn probe r = { t with ended := some .lost } := by
  simp [ProbeTask.turn,h,hfound]

theorem turn_found (h : t.ended = none) (hfound : r.found = true) : t.turn probe r =
    { t with
      probeState := (evaluateProbeResult r.result t.probeState probe).2
      results := t.results ++ [r.result]
      ended := endOf t.kind (evaluateProbeResult r.result t.probeState probe).1 } := by
  simp [ProbeTask.turn,h,hfound]

@[simp] theorem kind_turn : (t.turn probe r).kind = t.kind := by
  simp only [ProbeTask.turn]
  split
  · rfl
  · split <;> rfl

@[simp] theorem cid_turn : (t.turn probe r).cid = t.cid := by
  simp only [ProbeTask.turn]
  split
  · rfl
  · split <;> rfl

theorem streaks_concat_success (h : result.isSuccess = true) (results : List ProbeResult) :
    streak ProbeResult.isSuccess (results ++ [result]) = streak ProbeResult.isSuccess results + 1 ∧
      streak ProbeResult.isFailure (results ++ [result]) = 0 := by
  simp [streak_concat,ProbeResult.isFailure,h]

theorem streaks_concat_failure (h : result.isSuccess = false) (results : List ProbeResult) :
    streak ProbeResult.isSuccess (results ++ [result]) = 0 ∧
      streak ProbeResult.isFailure (results ++ [result]) = streak ProbeResult.isFailure results + 1 := by
  simp [streak_concat,ProbeResult.isFailure,h]

theorem endOf_eq_stopped {kind : ProbeKind} {d : ProbeDecision} (hkind : kind ≠ .readiness) :
    endOf kind d = some .stopped ↔ d = .fail := by
  cases kind <;> cases d <;> simp_all [endOf]

theorem endOf_eq_passed {kind : ProbeKind} {d : ProbeDecision} : endOf kind d = some .passed ↔ kind = .startup ∧ d = .pass := by
  cases kind <;> cases d <;> simp [endOf]

/-- What a task knows of its results before they call for its end. -/
theorem streaks_lt (hj : Justified probe t) (hended : t.ended = none) :
    streak ProbeResult.isFailure t.results < max 1 probe.failureThreshold ∧
      (t.kind = .startup → streak ProbeResult.isSuccess t.results < max 1 probe.successThreshold) := by
  constructor
  · have hnot : ¬ LastAll (max 1 probe.failureThreshold) ProbeResult.isFailure t.results := by
      rw [← hj.stopped,hended]
      simp
    exact not_le.mp fun hle => hnot (le_streak_iff.mp hle)
  · intro hkind
    have hnot : ¬ (t.kind = .startup ∧ LastAll (max 1 probe.successThreshold) ProbeResult.isSuccess t.results) := by
      rw [← hj.passed,hended]
      simp
    exact not_le.mp fun hle => hnot ⟨hkind,le_streak_iff.mp hle⟩

/-- A success ends the startup task if it is the last of enough. -/
theorem judged_success (hj : Justified probe t) (hc : Counting t) (hkind : t.kind ≠ .readiness)
    (hfits : probe.successThreshold < 2 ^ 32) (hended : t.ended = none) (hfound : r.found = true)
    (hr : r.result.isSuccess = true) : Justified probe (t.turn probe r) ∧ Counting (t.turn probe r) := by
  obtain ⟨hs,hf⟩ := streaks_concat_success hr t.results
  have hcount : t.kind = .startup →
      (t.probeState.consecutiveSuccesses + 1).toNat = streak ProbeResult.isSuccess t.results + 1 := by
    intro hstartup
    have hlt := (streaks_lt hj hended).2 hstartup
    exact toNat_succ (hc.successes hended hstartup) (by omega)
  rw [turn_found hended hfound,evaluateProbeResult_success hr]
  constructor
  · constructor
    · simp only [endOf_eq_stopped hkind,← le_streak_iff,hf]
      split <;> simp
    · simp only [endOf_eq_passed,← le_streak_iff,hs]
      constructor
      · rintro ⟨hstartup,hpass⟩
        split at hpass
        · next hle =>
          rw [hcount hstartup] at hle
          exact ⟨hstartup,by omega⟩
        · cases hpass
      · rintro ⟨hstartup,hle⟩
        have hle' : probe.successThreshold ≤ (t.probeState.consecutiveSuccesses + 1).toNat := by
          rw [hcount hstartup]
          omega
        exact ⟨hstartup,if_pos hle'⟩
  · exact ⟨fun _ => hf.symm,fun _ hstartup => (hcount hstartup).trans hs.symm⟩

/-- A failure ends the task if it is the last of enough. -/
theorem judged_failure (hj : Justified probe t) (hc : Counting t) (hkind : t.kind ≠ .readiness)
    (hfits : probe.failureThreshold < 2 ^ 32) (hended : t.ended = none) (hfound : r.found = true)
    (hr : r.result.isSuccess = false) : Justified probe (t.turn probe r) ∧ Counting (t.turn probe r) := by
  obtain ⟨hs,hf⟩ := streaks_concat_failure hr t.results
  have hcount : (t.probeState.consecutiveFailures + 1).toNat = streak ProbeResult.isFailure t.results + 1 := by
    have hlt := (streaks_lt hj hended).1
    exact toNat_succ (hc.failures hended) (by omega)
  rw [turn_found hended hfound,evaluateProbeResult_failure hr]
  constructor
  · constructor
    · simp only [endOf_eq_stopped hkind,← le_streak_iff,hf,hcount]
      constructor
      · intro hfail
        split at hfail
        · omega
        · cases hfail
      · intro hle
        exact if_pos (by omega)
    · simp only [endOf_eq_passed,← le_streak_iff,hs]
      split <;> simp
  · exact ⟨fun _ => hcount.trans hf.symm,fun _ _ => hs.symm⟩

theorem judged_turn (hj : Justified probe t) (hc : Counting t) (hkind : t.kind ≠ .readiness)
    (hfits : probe.successThreshold < 2 ^ 32 ∧ probe.failureThreshold < 2 ^ 32) :
    Justified probe (t.turn probe r) ∧ Counting (t.turn probe r) := by
  cases hended : t.ended with
  | some e => rw [turn_ended (by simp [hended])]; exact ⟨hj,hc⟩
  | none =>
    cases hfound : r.found with
    | false =>
      have hstopped := hj.stopped
      have hpassed := hj.passed
      rw [turn_lost hended hfound]
      simp only [hended,reduceCtorEq,false_iff] at hstopped hpassed
      exact ⟨⟨by simpa using hstopped,by simpa using hpassed⟩,⟨nofun,nofun⟩⟩
    | true =>
      cases hr : r.result.isSuccess with
      | true => exact judged_success hj hc hkind hfits.1 hended hfound hr
      | false => exact judged_failure hj hc hkind hfits.2 hended hfound hr

end Turn

/-! ## Supervision -/

/-- What a task is for. -/
def key (t : ProbeTask) : ProbeKind × String := (t.kind,t.cid)

/-- A startup task of the container has passed. -/
def StartupPassed (s : Supervision) (cid : String) : Prop :=
  ∃ t ∈ s.tasks, key t = (.startup,cid) ∧ t.ended = some .passed

/-- The container has no startup probe, or it has passed. -/
def Settled (probes : ContainerProbes) (s : Supervision) (cid : String) : Prop :=
  (probes.probe .startup).isSome = true → StartupPassed s cid

/-- The container is recorded under an ID for which the probe is not registered. -/
def Unarmed (s : Supervision) (kind : ProbeKind) (cid : String) : Prop := s.containerId = some cid ∧ s.registered kind ≠ some cid

instance (s : Supervision) (kind : ProbeKind) (cid : String) : Decidable (Unarmed s kind cid) := by
  unfold Unarmed
  infer_instance

structure Supervised (probes : ContainerProbes) (s : Supervision) : Prop where
  known : ∀ t ∈ s.tasks, (probes.probe t.kind).isSome = true
  judged : ∀ t ∈ s.tasks, t.kind ≠ .readiness → ∀ p ∈ probes.probe t.kind, Justified p t ∧ Counting t
  calm : ∀ t ∈ s.tasks, t.kind = .readiness → t.ended = none ∨ t.ended = some .lost
  done : ∀ cid, s.containerStartupDone.lookup cid = some true → StartupPassed s cid
  gated : ∀ t ∈ s.tasks, t.kind ≠ .startup → Settled probes s t.cid
  ready : ∀ cid, s.containerReadiness.lookup cid = some true → ∃ t ∈ s.tasks, key t = (.readiness,cid)
  /-- a task that is yet to be spawned counts -/
  once : ∀ kind cid, (s.tasks.map key).count (kind,cid) + (if Unarmed s kind cid then 1 else 0) ≤ s.recorded.count cid

section Invariant
variable {probes : ContainerProbes} {s s' : Supervision} {kind : ProbeKind} {cid : String} {t t' : ProbeTask} {i : ℕ}
  {r : ProbeRound} {a : ProbeAction}

theorem mem_set_or_eq {l : List ProbeTask} {u : ProbeTask} (ht : l[i]? = some t) (hu : u ∈ l) (t' : ProbeTask) :
    u = t ∨ u ∈ l.set i t' := by
  obtain ⟨k,hk,rfl⟩ := List.mem_iff_getElem.mp hu
  by_cases hki : k = i
  · subst hki
    exact .inl (Option.some.inj ((List.getElem?_eq_getElem hk).symm.trans ht))
  · have hk' : k < (l.set i t').length := by simpa using hk
    have hget : (l.set i t')[k] = l[k] := List.getElem_set_ne (Ne.symm hki) hk'
    exact .inr (hget ▸ List.getElem_mem hk')

theorem map_key_set {l : List ProbeTask} (ht : l[i]? = some t) (hkey : key t' = key t) : (l.set i t').map key = l.map key := by
  rw [List.map_set,hkey]
  have hget : (l.map key)[i]? = some (key t) := by simp [ht]
  obtain ⟨hlt,heq⟩ := List.getElem?_eq_some_iff.mp hget
  rw [← heq,List.set_getElem_self]

/-- Tasks keep what they are for, and a pass. -/
theorem StartupPassed.mono (h : StartupPassed s cid)
    (htasks : ∀ u ∈ s.tasks, u.ended = some .passed → ∃ u' ∈ s'.tasks, key u' = key u ∧ u'.ended = some .passed) :
    StartupPassed s' cid := by
  obtain ⟨u,hu,hkey,hpassed⟩ := h
  obtain ⟨u',hu',hkey',hpassed'⟩ := htasks u hu hpassed
  exact ⟨u',hu',hkey'.trans hkey,hpassed'⟩

/-- What does not touch the tasks and leaves no more to spawn. -/
theorem Supervised.same (h : Supervised probes s) (htasks : s'.tasks = s.tasks)
    (hdone : ∀ cid, s'.containerStartupDone.lookup cid = some true → s.containerStartupDone.lookup cid = some true)
    (hready : ∀ cid, s'.containerReadiness.lookup cid = some true → s.containerReadiness.lookup cid = some true)
    (honce : ∀ kind cid, s.recorded.count cid + (if Unarmed s' kind cid then 1 else 0) ≤
      s'.recorded.count cid + (if Unarmed s kind cid then 1 else 0)) : Supervised probes s' where
  known := htasks ▸ h.known
  judged := htasks ▸ h.judged
  calm := htasks ▸ h.calm
  done c hc := by
    have hpassed := h.done c (hdone c hc)
    simpa only [StartupPassed,htasks] using hpassed
  gated t ht hkind hstartup := by
    have hpassed := h.gated t (htasks ▸ ht) hkind hstartup
    simpa only [StartupPassed,htasks] using hpassed
  ready c hc := htasks ▸ h.ready c (hready c hc)
  once kind c := by
    have hbefore := h.once kind c
    have hstep := honce kind c
    rw [htasks]
    omega

theorem Supervised.record (h : Supervised probes s) (cid : String) :
    Supervised probes { s with containerId := some cid, recorded := s.recorded ++ [cid] } := by
  refine h.same rfl (fun _ hc => hc) (fun _ hc => hc) (fun kind c => ?_)
  by_cases hc : cid = c
  · subst hc
    simp only [List.count_append,List.count_singleton_self]
    split <;> split <;> omega
  · have hunarmed : ¬ Unarmed { s with containerId := some cid, recorded := s.recorded ++ [cid] } kind c := fun hun =>
      hc (Option.some.inj hun.1)
    simp only [if_neg hunarmed,List.count_append]
    omega

/-- A container that is not recorded needs no task. -/
theorem Supervised.unrecord (h : Supervised probes s) (hid : s'.containerId = none) (htasks : s'.tasks = s.tasks)
    (hrecorded : s'.recorded = s.recorded)
    (hdone : ∀ cid, s'.containerStartupDone.lookup cid = some true → s.containerStartupDone.lookup cid = some true)
    (hready : ∀ cid, s'.containerReadiness.lookup cid = some true → s.containerReadiness.lookup cid = some true) :
    Supervised probes s' := by
  refine h.same htasks hdone hready (fun kind c => ?_)
  have hunarmed : ¬ Unarmed s' kind c := fun hun => nomatch hid.symm.trans hun.1
  simp only [if_neg hunarmed,hrecorded]
  omega

theorem lookup_of_erase {m : HashMap String Bool} {b : Bool} {c : String} (h : (m.erase cid).lookup c = some b) : m.lookup c = some b := by
  by_cases hc : c = cid
  · subst hc
    simp at h
  · rwa [AList.lookup_erase_ne hc] at h

theorem Supervised.drop (h : Supervised probes s) : Supervised probes s.drop := by
  simp only [Supervision.drop]
  split
  · exact h.unrecord rfl rfl rfl (fun _ hc => lookup_of_erase hc) (fun _ hc => lookup_of_erase hc)
  · exact h

theorem StartupPassed.spawn {c : String} (h : StartupPassed s c) : StartupPassed (s.spawn kind cid) c :=
  h.mono fun u hu hended => ⟨u,List.mem_append_left _ hu,rfl,hended⟩

/-- A task has seen no results when it is spawned. -/
theorem judged_spawned (p : Probe) : Justified p { kind := kind, cid := cid } ∧ Counting { kind := kind, cid := cid } := by
  have hmax : ∀ n, ¬ max 1 n ≤ 0 := fun n => by omega
  constructor
  · constructor <;> simp [← le_streak_iff,streak,hmax]
  · exact ⟨fun _ => rfl,fun _ _ => rfl⟩

theorem map_key_spawn : (s.spawn kind cid).tasks.map key = s.tasks.map key ++ [(kind,cid)] := by
  simp [Supervision.spawn,key]

theorem not_unarmed_spawn : ¬ Unarmed (s.spawn kind cid) kind cid := by
  simp [Unarmed,Supervision.spawn]

/-- Spawning arms no container but its own. -/
theorem unarmed_of_spawn {k : ProbeKind} {c : String} (hunarmed : Unarmed s kind cid) (hnew : ¬ (k = kind ∧ c = cid))
    (h : Unarmed (s.spawn kind cid) k c) : Unarmed s k c := by
  obtain ⟨hid,hregistered⟩ := h
  have hcid : cid = c := Option.some.inj (hunarmed.1.symm.trans hid)
  have hk : k ≠ kind := fun hk => hnew ⟨hk,hcid.symm⟩
  exact ⟨hid,by simpa [Supervision.spawn,Function.update_of_ne hk] using hregistered⟩

/-- Spawning turns a task that is yet to be spawned into one. -/
theorem once_spawn (honce : ∀ kind cid, (s.tasks.map key).count (kind,cid) + (if Unarmed s kind cid then 1 else 0) ≤ s.recorded.count cid)
    (hunarmed : Unarmed s kind cid) (k : ProbeKind) (c : String) : ((s.spawn kind cid).tasks.map key).count (k,c) +
      (if Unarmed (s.spawn kind cid) k c then 1 else 0) ≤ s.recorded.count c := by
  have hbefore := honce k c
  rw [map_key_spawn,List.count_append]
  by_cases hnew : k = kind ∧ c = cid
  · obtain ⟨rfl,rfl⟩ := hnew
    rw [if_pos hunarmed] at hbefore
    rw [if_neg not_unarmed_spawn,List.count_singleton_self]
    omega
  · have hcount : List.count (k,c) [(kind,cid)] = 0 := by
      rw [List.count_eq_zero,List.mem_singleton,Prod.mk.injEq]
      exact hnew
    by_cases hun : Unarmed (s.spawn kind cid) k c
    · rw [if_pos (unarmed_of_spawn hunarmed hnew hun)] at hbefore
      rw [if_pos hun,hcount]
      omega
    · rw [if_neg hun,hcount]
      omega

theorem Supervised.spawn (h : Supervised probes s) (hprobe : (probes.probe kind).isSome = true) (hunarmed : Unarmed s kind cid)
    (hsettled : kind ≠ .startup → Settled probes s cid) : Supervised probes (s.spawn kind cid) where
  known t ht := by
    rcases List.mem_append.mp ht with ht | ht
    · exact h.known t ht
    · obtain rfl := List.mem_singleton.mp ht
      exact hprobe
  judged t ht hkind p hp := by
    rcases List.mem_append.mp ht with ht | ht
    · exact h.judged t ht hkind p hp
    · obtain rfl := List.mem_singleton.mp ht
      exact judged_spawned p
  calm t ht hkind := by
    rcases List.mem_append.mp ht with ht | ht
    · exact h.calm t ht hkind
    · obtain rfl := List.mem_singleton.mp ht
      exact .inl rfl
  done c hc := (h.done c hc).spawn
  gated t ht hkind hstartup := by
    rcases List.mem_append.mp ht with ht | ht
    · exact (h.gated t ht hkind hstartup).spawn
    · obtain rfl := List.mem_singleton.mp ht
      exact (hsettled hkind hstartup).spawn
  ready c hc := by
    obtain ⟨t,ht,hkey⟩ := h.ready c hc
    exact ⟨t,List.mem_append_left _ ht,hkey⟩
  once := once_spawn h.once hunarmed

theorem Supervised.arm (h : Supervised probes s)
    (hsettled : kind ≠ .startup → ∀ cid, s.containerId = some cid → Settled probes s cid) : Supervised probes (s.arm probes kind) := by
  simp only [Supervision.arm]
  split
  · next cid hid =>
    split
    · next hspawn =>
      obtain ⟨hprobe,hunregistered⟩ := (Bool.and_eq_true _ _).mp hspawn
      exact h.spawn hprobe ⟨hid,by simpa using hunregistered⟩ fun hkind => hsettled hkind cid hid
    · exact h
  · exact h

theorem containerId_arm (s : Supervision) : (s.arm probes kind).containerId = s.containerId := by
  simp only [Supervision.arm]
  split
  · split <;> rfl
  · rfl

theorem StartupPassed.arm (h : StartupPassed s cid) : StartupPassed (s.arm probes kind) cid := by
  simp only [Supervision.arm]
  split
  · split
    · exact h.spawn
    · exact h
  · exact h

theorem Supervised.armOthers (h : Supervised probes s) (hdone : s.startupDone probes = true) :
    Supervised probes ((s.arm probes .liveness).arm probes .readiness) := by
  have hsettled : ∀ cid, s.containerId = some cid → Settled probes s cid := by
    intro cid hid hstartup
    simp only [Supervision.startupDone,hid,Bool.or_eq_true] at hdone
    rcases hdone with hnone | hdone
    · simp [Option.isNone_iff_eq_none.mp hnone] at hstartup
    · refine h.done cid ?_
      cases hlookup : s.containerStartupDone.lookup cid <;> simp_all
  refine (h.arm fun _ => hsettled).arm fun _ cid hid hstartup => ?_
  rw [containerId_arm] at hid
  exact (hsettled cid hid hstartup).arm

/-- A task that comes around, with what it stores. -/
theorem Supervised.set (h : Supervised probes s) (ht : s.tasks[i]? = some t) (hkey : key t' = key t)
    (hpassed : t.ended = some .passed → t'.ended = some .passed)
    (hjudged : t.kind ≠ .readiness → ∀ p ∈ probes.probe t.kind, Justified p t' ∧ Counting t')
    (hcalm : t.kind = .readiness → t'.ended = none ∨ t'.ended = some .lost) {done readiness : HashMap String Bool}
    (hdone : ∀ cid, done.lookup cid = some true → s.containerStartupDone.lookup cid = some true ∨
      key t = (.startup,cid) ∧ t'.ended = some .passed)
    (hready : ∀ cid, readiness.lookup cid = some true → s.containerReadiness.lookup cid = some true ∨ key t = (.readiness,cid)) :
    Supervised probes { s with containerStartupDone := done, containerReadiness := readiness, tasks := s.tasks.set i t' } := by
  have hmem : t ∈ s.tasks := List.mem_of_getElem? ht
  have hmem' : t' ∈ s.tasks.set i t' := List.mem_set (List.getElem?_eq_some_iff.mp ht).1 t'
  have hkind : t'.kind = t.kind := (Prod.mk.inj hkey).1
  have hcid : t'.cid = t.cid := (Prod.mk.inj hkey).2
  have hstays {c : String} (hp : StartupPassed s c) : StartupPassed
      { s with containerStartupDone := done, containerReadiness := readiness, tasks := s.tasks.set i t' } c := by
    refine hp.mono fun u hu hended => ?_
    rcases mem_set_or_eq ht hu t' with rfl | hu
    · exact ⟨t',hmem',hkey,hpassed hended⟩
    · exact ⟨u,hu,rfl,hended⟩
  constructor
  · intro u hu
    rcases List.mem_or_eq_of_mem_set hu with hu | rfl
    · exact h.known u hu
    · exact hkind ▸ h.known t hmem
  · intro u hu hne p hp
    rcases List.mem_or_eq_of_mem_set hu with hu | rfl
    · exact h.judged u hu hne p hp
    · rw [hkind] at hne hp
      exact hjudged hne p hp
  · intro u hu heq
    rcases List.mem_or_eq_of_mem_set hu with hu | rfl
    · exact h.calm u hu heq
    · exact hcalm (hkind.symm.trans heq)
  · intro c hc
    rcases hdone c hc with hold | ⟨hstartup,hended⟩
    · exact hstays (h.done c hold)
    · exact ⟨t',hmem',hkey.trans hstartup,hended⟩
  · intro u hu hne hstartup
    rcases List.mem_or_eq_of_mem_set hu with hu | rfl
    · exact hstays (h.gated u hu hne hstartup)
    · rw [hcid]
      exact hstays (h.gated t hmem (hkind ▸ hne) hstartup)
  · intro c hc
    rcases hready c hc with hold | heq
    · obtain ⟨u,hu,hukey⟩ := h.ready c hold
      rcases mem_set_or_eq ht hu t' with rfl | hu
      · exact ⟨t',hmem',hkey.trans hukey⟩
      · exact ⟨u,hu,hukey⟩
    · exact ⟨t',hmem',hkey.trans heq⟩
  · intro k c
    have honce := h.once k c
    rw [map_key_set ht hkey]
    exact honce

/-- What a startup task stores when it comes around. -/
theorem startupEntry_passed {probe : Probe} {done : HashMap String Bool} {c : String} (hkind : t.kind = .startup)
    (hc : (ProbeTask.startupEntry done t (t.turn probe r)).lookup c = some true) :
    done.lookup c = some true ∨ key t = (.startup,c) ∧ (t.turn probe r).ended = some .passed := by
  simp only [ProbeTask.startupEntry] at hc
  split at hc
  · by_cases hcid : c = t.cid
    · subst hcid
      simp only [AList.lookup_insert,Option.some.injEq,beq_iff_eq] at hc
      exact .inr ⟨by simp [key,hkind],hc⟩
    · rw [AList.lookup_insert_ne hcid] at hc
      exact .inl hc
  · exact .inl hc

theorem readiness_applyDecision {task : ReadinessTask} {d : ProbeDecision × ProbeState} {c : String} (hne : c ≠ cid) :
    (applyDecision cid task d).readiness.lookup c = task.readiness.lookup c := by
  obtain ⟨decision,state⟩ := d
  cases decision <;> simp [applyDecision,AList.lookup_insert_ne hne]

/-- A readiness task stores nothing for another container. -/
theorem readiness_round {probe : Probe} {task : ReadinessTask} {c : String} (hne : c ≠ cid) :
    (ReadinessProbe.round cid probe task r).readiness.lookup c = task.readiness.lookup c := by
  simp only [ReadinessProbe.round]
  split
  · rfl
  · split
    · exact readiness_applyDecision hne
    · simp [AList.lookup_insert_ne hne]
    · simp [AList.lookup_erase_ne hne]
    · simp [AList.lookup_insert_ne hne]
    · simp [AList.lookup_insert_ne hne]

theorem turn_passed {probe : Probe} (h : t.ended = some .passed) : (t.turn probe r).ended = some .passed := by
  rw [turn_ended (by simp [h]),h]

theorem Supervised.comeAround (h : Supervised probes s) (ht : s.tasks[i]? = some t)
    (hstep : comeAround probes s i t r = some s') : Supervised probes s' := by
  obtain ⟨p,hp,hstep⟩ := Option.bind_eq_some_iff.mp hstep
  have hjudged : t.kind ≠ .readiness → ∀ q ∈ probes.probe t.kind, Justified q (t.turn p r) ∧ Counting (t.turn p r) := by
    intro hkind q hq
    obtain rfl := Option.some.inj (hp.symm.trans hq)
    obtain ⟨hj,hc⟩ := h.judged t (List.mem_of_getElem? ht) hkind p hp
    exact judged_turn hj hc hkind (probes.fits t.kind hkind p hp)
  have hkey : key (t.turn p r) = key t := by simp [key]
  cases hkind : t.kind with
  | startup =>
    simp only [hkind,Option.some.injEq] at hstep
    subst hstep
    exact h.set ht hkey turn_passed hjudged (by simp [hkind]) (fun c hc => startupEntry_passed hkind hc) (fun c hc => .inl hc)
  | liveness =>
    simp only [hkind,Option.some.injEq] at hstep
    subst hstep
    exact h.set ht hkey turn_passed hjudged (by simp [hkind]) (fun c hc => .inl hc) (fun c hc => .inl hc)
  | readiness =>
    simp only [hkind] at hstep
    split at hstep
    · simp only [Option.some.injEq] at hstep
      subst hstep
      have hcalm := h.calm t (List.mem_of_getElem? ht) hkind
      have hsame : key (t.afterReadiness r (ReadinessProbe.round t.cid p (t.readiness s.containerReadiness) r)) = key t := rfl
      refine h.set ht hsame (fun hended => ?_) (fun hne => absurd hkind hne) (fun _ => ?_) (fun c hc => .inl hc) (fun c hc => ?_)
      · simp [hended] at hcalm
      · simp only [ProbeTask.afterReadiness]
        split <;> simp
      · by_cases hcid : c = t.cid
        · exact .inr (by simp [key,hkind,hcid])
        · rw [readiness_round hcid] at hc
          exact .inl hc
    · cases hstep

theorem Supervised.step (h : Supervised probes s) (hstep : perform probes s a = some s') : Supervised probes s' := by
  cases a with
  | record cid =>
    obtain rfl := Option.some.inj hstep
    exact h.record cid
  | drop =>
    obtain rfl := Option.some.inj hstep
    exact h.drop
  | clear =>
    obtain rfl := Option.some.inj hstep
    exact h.unrecord rfl rfl rfl (fun _ hc => hc) (fun _ hc => hc)
  | terminate =>
    obtain rfl := Option.some.inj hstep
    have hnone : s.drop.containerId = none := by
      simp only [Supervision.drop]
      split
      · rfl
      · assumption
    exact h.drop.unrecord hnone rfl rfl (fun _ hc => hc) (fun _ hc => hc)
  | armStartup =>
    obtain rfl := Option.some.inj hstep
    exact h.arm fun hne => absurd rfl hne
  | armOthers =>
    obtain rfl := Option.some.inj hstep
    split
    · next hdone => exact h.armOthers hdone
    · exact h
  | begin i =>
    obtain ⟨t,ht,hstep⟩ := Option.bind_eq_some_iff.mp hstep
    obtain ⟨⟨hkind,-⟩,heq⟩ := Option.ite_none_right_eq_some.mp hstep
    obtain rfl := Option.some.inj heq
    have hcalm := h.calm t (List.mem_of_getElem? ht) hkind
    have hsame : key { t with begun := true } = key t := rfl
    refine h.set ht hsame id (fun hne => absurd hkind hne) (fun _ => hcalm) (fun c hc => .inl hc) (fun c hc => ?_)
    by_cases hcid : c = t.cid
    · subst hcid
      simp at hc
    · rw [AList.lookup_insert_ne hcid] at hc
      exact .inl hc
  | turn i r =>
    obtain ⟨t,ht,hstep⟩ := Option.bind_eq_some_iff.mp hstep
    exact h.comeAround ht hstep

theorem supervised_start (probes : ContainerProbes) : Supervised probes {} where
  known _ ht := absurd ht List.not_mem_nil
  judged _ ht := absurd ht List.not_mem_nil
  calm _ ht := absurd ht List.not_mem_nil
  done _ hc := by simp at hc
  gated _ ht := absurd ht List.not_mem_nil
  ready _ hc := by simp at hc
  once kind cid := by simp [Unarmed]

end Invariant

/-! ## The law -/

/-- What the tasks of a container have done. -/
structure Lawful (probes : ContainerProbes) (s : Supervision) : Prop where
  stops : ∀ t ∈ s.tasks, t.ended = some .stopped ↔
    t.kind ≠ .readiness ∧ ∃ p ∈ probes.probe t.kind, LastAll (max 1 p.failureThreshold) ProbeResult.isFailure t.results
  waits : ∀ t ∈ s.tasks, t.kind ≠ .startup → ∀ p ∈ probes.probe .startup, ∃ u ∈ s.tasks, key u = (.startup,t.cid) ∧
    u.ended = some .passed ∧ LastAll (max 1 p.successThreshold) ProbeResult.isSuccess u.results
  ready : ∀ cid, s.containerReadiness.lookup cid = some true → ∃ t ∈ s.tasks, key t = (.readiness,cid)
  once : ∀ kind cid, (s.tasks.map key).count (kind,cid) ≤ s.recorded.count cid
  stoppedOnce : ∀ cid, s.recorded.count cid = 1 →
    s.tasks.countP (fun t => t.cid = cid ∧ t.ended = some .stopped) ≤ 1

section Law
variable {probes : ContainerProbes} {s : Supervision} {cid : String} {w : List ProbeAction}

theorem eq_of_count_le_one {l : List ProbeTask} {k : ProbeKind × String} {t u : ProbeTask} (h : (l.map key).count k ≤ 1)
    (ht : t ∈ l) (hu : u ∈ l) (htk : key t = k) (huk : key u = k) : t = u := by
  have ht' : t ∈ l.filter (fun x => key x == k) := List.mem_filter.mpr ⟨ht,by simp [htk]⟩
  have hu' : u ∈ l.filter (fun x => key x == k) := List.mem_filter.mpr ⟨hu,by simp [huk]⟩
  have hle : (l.filter (fun x => key x == k)).length ≤ 1 := by
    rwa [List.count,List.countP_map,List.countP_eq_length_filter] at h
  have hpos := List.length_pos_of_mem ht'
  obtain ⟨x,hx⟩ := List.length_eq_one_iff.mp (by omega : (l.filter (fun x => key x == k)).length = 1)
  rw [hx,List.mem_singleton] at ht' hu'
  rw [ht',hu']

/-- A startup task that has stopped the container has not passed, so there is no liveness task
beside it. -/
theorem Supervised.not_stopped (h : Supervised probes s) (hcount : (s.tasks.map key).count (.startup,cid) ≤ 1) {t u : ProbeTask}
    (hu : u ∈ s.tasks) (hkey : key u = (.startup,cid)) (hstopped : u.ended = some .stopped) (ht : t ∈ s.tasks)
    (hkind : t.kind = .liveness) : t.cid ≠ cid := by
  rintro rfl
  have hprobe : (probes.probe .startup).isSome = true := (Prod.mk.inj hkey).1 ▸ h.known u hu
  obtain ⟨v,hv,hvkey,hpassed⟩ := h.gated t ht (by simp [hkind]) hprobe
  obtain rfl := eq_of_count_le_one hcount hv hu hvkey hkey
  simp [hstopped] at hpassed

theorem Supervised.stoppedOnce (h : Supervised probes s) (hcid : s.recorded.count cid = 1) :
    s.tasks.countP (fun t => t.cid = cid ∧ t.ended = some .stopped) ≤ 1 := by
  have hcount (kind : ProbeKind) : (s.tasks.map key).count (kind,cid) ≤ 1 := by
    have honce := h.once kind cid
    omega
  have hcountP (kind : ProbeKind) : s.tasks.countP (fun t => key t == (kind,cid)) ≤ 1 := by
    have hle := hcount kind
    rwa [List.count,List.countP_map] at hle
  have hcalm (t : ProbeTask) (ht : t ∈ s.tasks) (hended : t.ended = some .stopped) : t.kind ≠ .readiness := by
    intro hkind
    have hends := h.calm t ht hkind
    simp [hended] at hends
  by_cases hstartup : ∃ u ∈ s.tasks, key u = (.startup,cid) ∧ u.ended = some .stopped
  · obtain ⟨u,hu,hkey,hstopped⟩ := hstartup
    refine le_trans (List.countP_mono_left fun t ht hst => ?_) (hcountP .startup)
    obtain ⟨htcid,hended⟩ := of_decide_eq_true hst
    cases hkind : t.kind with
    | startup => simp [key,hkind,htcid]
    | liveness => exact absurd htcid (h.not_stopped (hcount .startup) hu hkey hstopped ht hkind)
    | readiness => exact absurd hkind (hcalm t ht hended)
  · refine le_trans (List.countP_mono_left fun t ht hst => ?_) (hcountP .liveness)
    obtain ⟨htcid,hended⟩ := of_decide_eq_true hst
    cases hkind : t.kind with
    | startup => exact absurd ⟨t,ht,by simp [key,hkind,htcid],hended⟩ hstartup
    | liveness => simp [key,hkind,htcid]
    | readiness => exact absurd hkind (hcalm t ht hended)

theorem Supervised.lawful (h : Supervised probes s) : Lawful probes s where
  stops t ht := by
    by_cases hkind : t.kind = .readiness
    · have hcalm := h.calm t ht hkind
      constructor
      · intro hended
        simp [hended] at hcalm
      · exact fun hstop => absurd hkind hstop.1
    · obtain ⟨p,hp⟩ := Option.isSome_iff_exists.mp (h.known t ht)
      rw [(h.judged t ht hkind p hp).1.stopped]
      constructor
      · exact fun hlast => ⟨hkind,p,hp,hlast⟩
      · rintro ⟨-,q,hq,hlast⟩
        obtain rfl := Option.some.inj (hp.symm.trans hq)
        exact hlast
  waits t ht hkind p hp := by
    have hsome : (probes.probe .startup).isSome = true := by
      rw [Option.mem_def] at hp
      simp [hp]
    obtain ⟨u,hu,hkey,hpassed⟩ := h.gated t ht hkind hsome
    have hukind : u.kind = .startup := (Prod.mk.inj hkey).1
    have hjudged := (h.judged u hu (by simp [hukind]) p (hukind ▸ hp)).1
    exact ⟨u,hu,hkey,hpassed,(hjudged.passed.mp hpassed).2⟩
  ready := h.ready
  once kind cid := by
    have honce := h.once kind cid
    omega
  stoppedOnce _ hcid := h.stoppedOnce hcid

/-- In whatever order passes, tasks, restarts of the container and removals of the pod come, and
whatever the probes find: a task stops the container exactly when its probe has failed often enough in
a row; the liveness and the readiness task wait for the startup probe; only containers with a readiness
task are noted as ready; there is at most one task of a kind each time the container is recorded, and a
container recorded once is stopped at most once. -/
theorem lawful_probes (hr : Runs (ofStep (perform probes)) {} w s) : Lawful probes s :=
  (hr.invariant (fun _ _ _ h hstep => Supervised.step h hstep) (supervised_start probes)).lawful

end Law

/-- A probe that passes at once and fails after two failures. -/
def quickProbe : Probe where
  handler := .exec ["true"]
  initialDelaySeconds := 0
  periodSeconds := 1
  timeoutSeconds := 1
  successThreshold := 1
  failureThreshold := 2

def webProbes : ContainerProbes where
  probe _ := some quickProbe
  fits _ _ p hp := by
    obtain rfl := Option.some.inj hp
    simp [quickProbe]

def running (result : ProbeResult) : ProbeRound := ⟨.ok (some .running),result⟩

/-- A container that starts, comes to life, is ready and then fails for good. -/
def webActions : List ProbeAction :=
  [.record "c1",.armStartup,.armOthers,.turn 0 (running .success),.armStartup,.armOthers,.begin 2,.turn 2 (running .success),
    .turn 1 (running (.failure "timeout")),.turn 1 (running .success),.turn 1 (running (.failure "timeout")),
    .turn 1 (running (.unknown "refused")),.drop,.record "c2",.armStartup]

theorem lawful_webProbes : ∃ s, Runs (ofStep (perform webProbes)) {} webActions s ∧
    s.tasks.map (·.ended) = [some .passed,some .stopped,none,none] ∧ Lawful webProbes s := by
  have hexec : (exec (perform webProbes) {} webActions).map (fun s => s.tasks.map (·.ended)) =
      some [some .passed,some .stopped,none,none] := by
    decide +kernel
  obtain ⟨s,hs,hended⟩ := Option.map_eq_some_iff.mp hexec
  have hr := runs_of_exec hs
  exact ⟨s,hr,hended,lawful_probes hr⟩

end KubeAir.Worker.ProbeTasks
