import KubeAir.Worker.ReadinessProbe
import KubeAir.Worker.SyncFrame

/-! # The probes of a container

A pass that finds the container running arms its probes, and every armed probe is a task of its own:
the startup task lets the other two begin, it and the liveness task stop the container. Passes, tasks
and restarts of the container come in any order, and the probes find whatever they find.
-/
namespace KubeAir.Worker.ProbeTasks
open Core Transition Adapters.Prober ReadinessProbe

inductive TaskEnd
  | passed
  /-- the task has called `stop_container` -/
  | stopped
  /-- the container was not found running -/
  | lost
deriving DecidableEq, Repr

/-- The loop of `spawn_startup_probe`, `spawn_liveness_probe` or `spawn_readiness_probe`. -/
structure ProbeTask where
  kind : ProbeKind
  cid : String
  /-- a readiness task starts with an entry of its own -/
  begun : Bool := false
  probeState : ProbeState := {}
  /-- what the probe has found so far -/
  results : List ProbeResult := []
  ended : Option TaskEnd := none
deriving DecidableEq

/-- The probes of a container. The thresholds of those that may stop it have 32 bits. -/
structure ContainerProbes where
  probe : ProbeKind → Option Probe
  fits : ∀ kind, kind ≠ .readiness → ∀ p ∈ probe kind, p.successThreshold < 2 ^ 32 ∧ p.failureThreshold < 2 ^ 32

/-- What a pod worker knows of one of its containers, and the tasks that it has spawned. -/
structure Supervision where
  containerId : Option String := none
  /-- `startup_probe_registered`, `probe_registered` and `readiness_probe_registered` -/
  registered : ProbeKind → Option String := fun _ => none
  containerStartupDone : HashMap String Bool := ∅
  containerReadiness : HashMap String Bool := ∅
  tasks : List ProbeTask := []
  /-- the IDs that have been recorded for the container, one after another -/
  recorded : List String := []

inductive ProbeAction
  /-- the container is started, or found by recovery, under this ID -/
  | record (cid : String)
  /-- `start_container` drops the record of the container before -/
  | drop
  /-- the sandbox is gone, and the IDs are cleared -/
  | clear
  /-- the pod is terminated, and its state forgotten -/
  | terminate
  /-- a pass comes to the startup probe of the running container -/
  | armStartup
  /-- and then to its other probes -/
  | armOthers
  /-- task `i` stores its first entry -/
  | begin (i : ℕ)
  /-- task `i` comes around -/
  | turn (i : ℕ) (r : ProbeRound)

namespace Supervision

/-- The entries for the container are forgotten, with its ID. -/
def drop (s : Supervision) : Supervision :=
  match s.containerId with
  | some cid =>
    { s with
      containerId := none
      registered := fun _ => none
      containerStartupDone := s.containerStartupDone.erase cid
      containerReadiness := s.containerReadiness.erase cid }
  | none => s

def spawn (kind : ProbeKind) (cid : String) (s : Supervision) : Supervision :=
  { s with
    registered := Function.update s.registered kind (some cid)
    tasks := s.tasks ++ [{ kind := kind, cid := cid }] }

/-- A probe task is spawned once for each container ID. -/
def arm (probes : ContainerProbes) (kind : ProbeKind) (s : Supervision) : Supervision :=
  match s.containerId with
  | some cid =>
    if (probes.probe kind).isSome && s.registered kind != some cid then s.spawn kind cid else s
  | none => s

/-- Whether the other probes need not wait for the startup probe. -/
def startupDone (probes : ContainerProbes) (s : Supervision) : Bool :=
  match s.containerId with
  | some cid => (probes.probe .startup).isNone || (s.containerStartupDone.lookup cid).getD false
  | none => false

end Supervision

/-- Whether a decision is the last of a task. The liveness task does not care for passes. -/
def endOf : ProbeKind → ProbeDecision → Option TaskEnd
  | .startup, .pass => some .passed
  | .startup, .fail => some .stopped
  | .liveness, .fail => some .stopped
  | _, _ => none

namespace ProbeTask

/-- A round of the startup or the liveness loop. -/
def turn (probe : Probe) (t : ProbeTask) (r : ProbeRound) : ProbeTask :=
  if t.ended.isSome then t
  else if r.found then
    let decided := evaluateProbeResult r.result t.probeState probe
    { t with probeState := decided.2, results := t.results ++ [r.result], ended := endOf t.kind decided.1 }
  else { t with ended := some .lost }

/-- What `done_map` holds after a round of the startup loop. -/
def startupEntry (done : HashMap String Bool) (before after : ProbeTask) : HashMap String Bool :=
  if before.ended.isNone && after.ended.isSome then done.insert before.cid (after.ended == some .passed) else done

def readiness (readiness : HashMap String Bool) (t : ProbeTask) : ReadinessTask :=
  { readiness := readiness, probeState := t.probeState, returned := t.ended.isSome }

/-- A round of the readiness loop. -/
def afterReadiness (t : ProbeTask) (r : ProbeRound) (task : ReadinessTask) : ProbeTask :=
  { t with
    probeState := task.probeState
    results := if t.ended.isNone && r.found then t.results ++ [r.result] else t.results
    ended := if task.returned then some .lost else none }

end ProbeTask

section Step
variable (probes : ContainerProbes)

/-- Task `i` comes around. -/
def comeAround (s : Supervision) (i : ℕ) (t : ProbeTask) (r : ProbeRound) : Option Supervision :=
  (probes.probe t.kind).bind fun probe =>
    match t.kind with
    | .startup =>
      some { s with
        containerStartupDone := ProbeTask.startupEntry s.containerStartupDone t (t.turn probe r)
        tasks := s.tasks.set i (t.turn probe r) }
    | .liveness => some { s with tasks := s.tasks.set i (t.turn probe r) }
    | .readiness =>
      if t.begun then
        let task := ReadinessProbe.round t.cid probe (t.readiness s.containerReadiness) r
        some { s with containerReadiness := task.readiness, tasks := s.tasks.set i (t.afterReadiness r task) }
      else none

def perform (s : Supervision) : ProbeAction → Option Supervision
  | .record cid => some { s with containerId := some cid, recorded := s.recorded ++ [cid] }
  | .drop => some s.drop
  | .clear => some { s with containerId := none }
  | .terminate => some { s.drop with registered := fun _ => none }
  | .armStartup => some (s.arm probes .startup)
  | .armOthers => some (if s.startupDone probes then (s.arm probes .liveness).arm probes .readiness else s)
  | .begin i =>
    (s.tasks[i]?).bind fun t =>
      if t.kind = .readiness ∧ t.begun = false then
        some { s with
          containerReadiness := s.containerReadiness.insert t.cid false
          tasks := s.tasks.set i { t with begun := true } }
      else none
  | .turn i r => (s.tasks[i]?).bind fun t => comeAround probes s i t r

end Step

/-! ## Arming in a pass -/

section Arming
variable (probes : ContainerProbes)

/-- What a pass arms when it finds the container running. -/
def Supervision.armed (s : Supervision) : Supervision :=
  let s := s.arm probes .startup
  if s.startupDone probes then (s.arm probes .liveness).arm probes .readiness else s

/-- What the state of the pod says about the container of a name. -/
def view (name : String) (st : PodRuntimeState) (s : Supervision) : Supervision :=
  { s with
    containerId := st.containerIds.lookup name
    registered := fun kind => (registered kind st).lookup name }

/-- Spawning a task and asking whether the startup probe has passed, and no other call. -/
def arming : Contract Request Request.Answer Supervision where
  drift := Eq
  allowed _ op :=
    match op with
    | .spawnProbe .. => True
    | .containerStartupDone _ => True
    | _ => False
  answers s op ans s' :=
    match op, ans with
    | .spawnProbe kind cid _, _ => s' = { s with tasks := s.tasks ++ [{ kind := kind, cid := cid }] }
    | .containerStartupDone cid, done => done = s.containerStartupDone.lookup cid ∧ s' = s
    | _, _ => False

end Arming

section Lemmas
variable {probes : ContainerProbes} {kind kind' : ProbeKind} {name cid : String} {st : PodRuntimeState} {s : Supervision}

theorem registered_register : registered kind' (register kind name cid st) =
    if kind' = kind then (registered kind st).insert name cid else registered kind' st := by
  cases kind <;> cases kind' <;> simp [registered,register]

@[simp] theorem containerIds_register : (register kind name cid st).containerIds = st.containerIds := by
  cases kind <;> rfl

theorem view_register : view name (register kind name cid st) s =
    { view name st s with registered := Function.update (view name st s).registered kind (some cid) } := by
  have hregistered : (fun k => (registered k (register kind name cid st)).lookup name) =
      Function.update (fun k => (registered k st).lookup name) kind (some cid) := by
    funext k
    by_cases hk : k = kind
    · subst hk
      simp [registered_register]
    · simp [registered_register,hk]
  simp [view,hregistered]

theorem meets_armProbe (hid : st.containerIds.lookup name = some cid) :
    (armProbe kind (probes.probe kind) name cid).Meets arming (fun r st' s' => r = .ok () ∧
      st'.containerIds = st.containerIds ∧ view name st' s' = (view name st s).arm probes kind) st s := by
  have harm : (view name st s).arm probes kind =
      if (probes.probe kind).isSome && (registered kind st).lookup name != some cid then
        view name (register kind name cid st) { s with tasks := s.tasks ++ [{ kind := kind, cid := cid }] }
      else view name st s := by
    rw [view_register]
    simp [Supervision.arm,Supervision.spawn,view,hid]
  simp only [armProbe,Routine.meets_bind,Routine.meets_get]
  rw [harm]
  split
  · rw [Routine.meets_bind,Routine.meets_lift]
    rintro s' rfl
    refine ⟨trivial,?_⟩
    rintro ans s' rfl
    exact ⟨rfl,containerIds_register,rfl⟩
  · exact ⟨rfl,rfl,rfl⟩

theorem meets_startupDone {ctr : ContainerSpec} (hprobe : ctr.startupProbe = probes.probe .startup)
    (hid : st.containerIds.lookup name = some cid) :
    (startupDone ctr cid).Meets arming (fun done s' => done = (view name st s).startupDone probes ∧ s' = s) s := by
  have hdone : (view name st s).startupDone probes =
      ((probes.probe .startup).isNone || (s.containerStartupDone.lookup cid).getD false) := by
    simp [Supervision.startupDone,view,hid]
  simp only [startupDone,hprobe,hdone]
  split
  · next hsome =>
    rw [Program.meets_bind]
    rintro s' rfl
    refine ⟨trivial,?_⟩
    rintro ans s' ⟨rfl,rfl⟩
    simp [Option.isNone_eq_false_iff.mpr hsome]
  · next hnone =>
    simp [Option.not_isSome_iff_eq_none.mp hnone]

/-- The arming of the model is that of a pass. -/
theorem meets_armProbes {ctr : ContainerSpec} (hstartup : ctr.startupProbe = probes.probe .startup)
    (hliveness : ctr.livenessProbe = probes.probe .liveness) (hreadiness : ctr.readinessProbe = probes.probe .readiness)
    (hid : st.containerIds.lookup ctr.name = some cid) :
    (armProbes ctr cid).Meets arming (fun _ st' s' => view ctr.name st' s' = (view ctr.name st s).armed probes) st s := by
  simp only [armProbes,hstartup,hliveness,hreadiness,Routine.meets_bind]
  refine (meets_armProbe hid).mono ?_
  rintro r st₁ s₁ ⟨rfl,hids₁,hview₁⟩
  rw [Routine.meets_lift]
  refine (meets_startupDone hstartup (hids₁ ▸ hid)).mono ?_
  rintro done s₁ ⟨rfl,rfl⟩
  simp only [Supervision.armed,← hview₁]
  split
  · rw [Routine.meets_bind]
    refine (meets_armProbe (hids₁ ▸ hid)).mono ?_
    rintro r st₂ s₂ ⟨rfl,hids₂,hview₂⟩
    rw [Routine.meets_bind]
    refine (meets_armProbe (hids₂ ▸ hids₁ ▸ hid)).mono ?_
    rintro r st₃ s₃ ⟨rfl,-,hview₃⟩
    rw [Routine.meets_pure,hview₃,hview₂]
  · rfl

end Lemmas

end KubeAir.Worker.ProbeTasks
