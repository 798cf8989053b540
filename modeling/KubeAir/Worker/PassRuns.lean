import KubeAir.Transition.Runs
import KubeAir.Worker.NodeFrame
import KubeAir.Worker.SyncPod

/-! # Runs of sync passes over one pod

The passes of a pod follow one another, each starting from the state the last one left.
Containers exit at any time, and a restart of the kubelet drops the pass in progress, the
runtime state and the status store, but nothing of the runtime.
-/
namespace KubeAir.Worker
open Core Transition

inductive Activity
  | idle (state : PodRuntimeState)
  | syncing (pass : WorkerM (PodSyncResult × PodRuntimeState))

structure Kubelet where
  node : Node := {}
  activity : Activity := .idle {}

inductive PassAction
  | enter
  | reply (c : Choice)
  | finish
  | exit (containerId : String) (code : ℤ)
  | restart

/-- The runtime manager keeps the state a pass leaves, except after `Terminated`. -/
def stateAfter : PodSyncResult × PodRuntimeState → PodRuntimeState
  | (.terminated,_) => {}
  | (_,state) => state

variable (worker : PodWorker) (pod : PodSpec)

def passStep (k : Kubelet) : PassAction → Option Kubelet
  | .enter =>
    match k.activity with
    | .idle state => some { k with activity := .syncing (syncPod worker pod state) }
    | .syncing _ => none
  | .reply c =>
    match k.activity with
    | .syncing (.call op next) =>
      (k.node.respond op c).map fun r => { node := r.2, activity := .syncing (next r.1) }
    | _ => none
  | .finish =>
    match k.activity with
    | .syncing (.ret r) => some { k with activity := .idle (stateAfter r) }
    | _ => none
  | .exit id code => (k.node.exit id code).map fun w => { k with node := w }
  | .restart => some { node := { k.node with status := none }, activity := .idle {} }

abbrev PassRuns : Kubelet → List PassAction → Kubelet → Prop := Runs (ofStep (passStep worker pod))

/-- Nothing has happened yet. -/
def Unstarted (k : Kubelet) : Prop := k.node.log = [] ∧ k.activity = .idle {}

/-! ## The law -/

def allContainers : List ContainerSpec := pod.initContainers ++ pod.containers ++ pod.ephemeralContainers

/-- Every container of the pod with the name `n` has the effective restart policy `p`. -/
def HasPolicy (n : String) (p : RestartPolicy) : Prop :=
  (∃ c ∈ allContainers pod, c.name = n) ∧
    ∀ c ∈ allContainers pod, c.name = n → containerRestartPolicy c pod.restartPolicy = p

def StartedAtMostOnce (n : String) (log : List Event) : Prop :=
  ∀ sandboxId, log.count (.started pod.uid.val sandboxId n) ≤ 1

/-- The log is read from its newest entry backwards. -/
def NotStartedAfterSuccess (n : String) (log : List Event) : Prop :=
  log.Pairwise fun later earlier =>
    (∃ sandboxId, later = .started pod.uid.val sandboxId n) → earlier ≠ .exited pod.uid.val n 0

/-- A container under `Never` starts at most once in a sandbox, and one under `OnFailure`
does not start again after it succeeded. -/
def RunsOnce (w : Node) : Prop :=
  ∀ n, (HasPolicy pod n .never → StartedAtMostOnce pod n w.log) ∧
    (HasPolicy pod n .onFailure → NotStartedAfterSuccess pod n w.log)

/-! ## The condition -/

/-- The history of the container forbids another start in the sandbox. -/
def MustNotStart (w : Node) (sandboxId n : String) : RestartPolicy → Prop
  | .never => .started pod.uid.val sandboxId n ∈ w.log
  | .onFailure => .exited pod.uid.val n 0 ∈ w.log
  | .always => False

instance (w : Node) (sandboxId n : String) (p : RestartPolicy) :
    Decidable (MustNotStart pod w sandboxId n p) := by
  cases p <;> unfold MustNotStart <;> infer_instance

/-- The entries of a listing that recovery would adopt under the name `n`. -/
def adoptable (w : Node) (n : String) : List (Σ _ : String, ContainerRecord) :=
  w.containers.entries.filter fun e =>
    e.2.podUid == pod.uid.val && e.2.name == n && shouldRecover pod (e.2.listed e.1)

/-- Recovery meets at most one container of each name, and finds those that must not start
again. -/
def RecoveryFinds (w : Node) (sandboxId : String) : Prop :=
  ∀ c ∈ allContainers pod, containerRestartPolicy c pod.restartPolicy ≠ .always →
    (adoptable pod w c.name).length ≤ 1 ∧
      (MustNotStart pod w sandboxId c.name (containerRestartPolicy c pod.restartPolicy) →
        ∃ e ∈ adoptable pod w c.name, containerRestartPolicy c pod.restartPolicy = .onFailure →
          e.2.state = .exited ∧ e.2.exitCode = some 0)

instance (w : Node) (sandboxId : String) : Decidable (RecoveryFinds pod w sandboxId) := by
  unfold RecoveryFinds
  infer_instance

/-- The runtime tells the state of the container, and the container is not an init container
that has failed under a `Never` of its own in a pod that may restart. -/
def StatusTold (w : Node) (id : String) (c : Choice) : Prop :=
  ∀ r, w.containers.lookup id = some r → r.podUid = pod.uid.val →
    (∀ ctr ∈ allContainers pod, ctr.name = r.name →
      containerRestartPolicy ctr pod.restartPolicy ≠ .always → ∀ e, c ≠ .fault e) ∧
    (∀ ctr ∈ pod.initContainers, ctr.name = r.name → ctr.restartPolicy = some .never →
      pod.restartPolicy ≠ .never → r.state = .exited → r.exitCode = some 0)

instance (w : Node) (id : String) (c : Choice) : Decidable (StatusTold pod w id c) :=
  inferInstanceAs (Decidable (∀ r ∈ w.containers.lookup id, _))

/-- The environment answers a call in a way the worker can cope with. -/
def Copes (w : Node) (op : Request) (c : Choice) : Prop :=
  match op with
  | .containerStatus .decision id => StatusTold pod w id c
  | .listContainers (.recovery sandboxId) => (∀ e, c ≠ .fault e) ∧ RecoveryFinds pod w sandboxId
  | .runPostStart _ _ n =>
    (∀ ctr ∈ allContainers pod, ctr.name = n → containerRestartPolicy ctr pod.restartPolicy ≠ .always →
      ∀ e, c ≠ .fault e)
  | _ => True

instance (w : Node) (op : Request) (c : Choice) : Decidable (Copes pod w op c) := by
  unfold Copes
  split <;> infer_instance

/-- The condition on a step: a call of the pass is answered in a way it copes with. -/
def Coped (k : Kubelet) : PassAction → Prop
  | .reply c =>
    match k.activity with
    | .syncing (.call op _) => Copes pod k.node op c
    | _ => True
  | _ => True

instance (k : Kubelet) (a : PassAction) : Decidable (Coped pod k a) := by
  unfold Coped
  split
  · split <;> infer_instance
  · infer_instance

end KubeAir.Worker
