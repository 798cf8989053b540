import KubeAir.Worker.PassRuns

/-! # The order of the init containers

Passes over one pod whose calls are answered in any way. A history keeps what the answers
have shown: which containers were made, which were started, and which init containers the
pass has seen succeed. The law is read off the history, from its newest entry backwards.
-/
namespace KubeAir.Worker
open Core Transition

inductive InitEvent
  | started (name sandboxId : String)
  | succeeded (name sandboxId : String)
deriving DecidableEq, Repr

/-- The sandbox the pass has entered last, the name and the sandbox of each container that was
made, and the starts and successes, newest first. -/
structure InitHistory where
  sandbox : Option String := none
  made : HashMap String (String × String) := ∅
  log : List InitEvent := []

namespace InitHistory

/-- An event of a container is logged under what the container was made for. -/
def logged (h : InitHistory) (id : String) (event : String → String → InitEvent) : InitHistory :=
  match h.made.lookup id with
  | some (name,sandboxId) => { h with log := event name sandboxId :: h.log }
  | none => h

/-- What the answer to a call shows. The status that counts is the one a decision rests on. -/
def note (h : InitHistory) : (op : Request) → op.Answer → InitHistory
  | .listContainers (.recovery sandboxId),_ => { h with sandbox := some sandboxId }
  | .createContainer config,.ok id => { h with made := h.made.insert id (config.container.name,config.sandboxId) }
  | .startContainer id,.ok _ => h.logged id .started
  | .containerStatus .decision id,.ok (some s) =>
    if s.state = .exited ∧ s.exitCode = some 0 then h.logged id .succeeded else h
  | _,_ => h

end InitHistory

/-! ## Runs -/

structure AnsweredKubelet where
  activity : Activity := .idle {}
  history : InitHistory := {}

/-- An answer is given to whatever call the pass has come to. -/
inductive AnswerAction
  | enter
  | answer (a : (op : Request) → op.Answer)
  | finish
  | restart

variable (worker : PodWorker) (pod : PodSpec)

def answerStep (k : AnsweredKubelet) : AnswerAction → Option AnsweredKubelet
  | .enter =>
    match k.activity with
    | .idle state => some { k with activity := .syncing (syncPod worker pod state) }
    | .syncing _ => none
  | .answer a =>
    match k.activity with
    | .syncing (.call op next) => some { activity := .syncing (next (a op)), history := k.history.note op (a op) }
    | _ => none
  | .finish =>
    match k.activity with
    | .syncing (.ret r) => some { k with activity := .idle (stateAfter r) }
    | _ => none
  | .restart => some { k with activity := .idle {} }

abbrev AnsweredRuns : AnsweredKubelet → List AnswerAction → AnsweredKubelet → Prop :=
  Runs (ofStep (answerStep worker pod))

/-! ## The law -/

/-- What an init container has to have done before the next container may start: a sidecar has
been started, a regular one seen to succeed. -/
def milestone (ctr : ContainerSpec) (sandboxId : String) : InitEvent :=
  if isSidecarInitContainer ctr then .started ctr.name sandboxId else .succeeded ctr.name sandboxId

/-- The history permits a start under the name in the sandbox. -/
structure MayStart (name sandboxId : String) (log : List InitEvent) : Prop where
  app : (∃ ctr ∈ pod.containers, ctr.name = name) → ∀ init ∈ pod.initContainers, milestone init sandboxId ∈ log
  order : ∀ before ctr after, pod.initContainers = before ++ ctr :: after → ctr.name = name →
    ∀ init ∈ before, milestone init sandboxId ∈ log
  once : ∀ ctr ∈ pod.initContainers, ctr.name = name → isSidecarInitContainer ctr = false →
    .succeeded name sandboxId ∉ log

/-- Every start was permitted by what came before it. -/
def InitOrder (log : List InitEvent) : Prop :=
  ∀ later name sandboxId earlier, log = later ++ .started name sandboxId :: earlier →
    MayStart pod name sandboxId earlier

/-! ## The condition -/

/-- No init container shares its name with another container of the pod. -/
def InitNamesApart : Prop :=
  pod.initContainers.Pairwise (fun c d => c.name ≠ d.name) ∧
    ∀ c ∈ pod.initContainers, ∀ d ∈ pod.containers ++ pod.ephemeralContainers, c.name ≠ d.name

instance : Decidable (InitNamesApart pod) :=
  inferInstanceAs (Decidable (_ ∧ _))

/-- The container that recovery adopts under a name. -/
def adopted (a : Except KubeletError (List RuntimeContainer)) (name : String) : Option String :=
  ((a.toOption.getD []).find? (fun c => c.podUid == pod.uid.val && c.name == name && shouldRecover pod c)).map (·.id)

/-- Recovery adopts for an init container only what was made for it in the sandbox, for a sidecar
only when it was started, and it finds a container of those that have succeeded. -/
def RecoversInits (h : InitHistory) (sandboxId : String) (a : Except KubeletError (List RuntimeContainer)) : Prop :=
  ∀ ctr ∈ pod.initContainers,
    (∀ id ∈ adopted pod a ctr.name, h.made.lookup id = some (ctr.name,sandboxId) ∧
      (isSidecarInitContainer ctr = true → .started ctr.name sandboxId ∈ h.log)) ∧
    (isSidecarInitContainer ctr = false → .succeeded ctr.name sandboxId ∈ h.log →
      (adopted pod a ctr.name).isSome = true)

/-- The status of a regular init container after which the pass does not restart it. -/
def Awaited : Except KubeletError (Option RuntimeContainer) → Prop
  | .ok (some s) => s.state = .running ∨ s.state = .exited ∧ (s.exitCode = some 0 ∨ pod.restartPolicy = .never)
  | _ => False

/-- A regular init container that has succeeded in the sandbox is not shown in need of a restart. -/
def ShowsSuccess (h : InitHistory) (id : String) (a : Except KubeletError (Option RuntimeContainer)) : Prop :=
  ∀ sandboxId ∈ h.sandbox, ∀ ctr ∈ pod.initContainers, isSidecarInitContainer ctr = false →
    h.made.lookup id = some (ctr.name,sandboxId) → .succeeded ctr.name sandboxId ∈ h.log → Awaited pod a

/-- The container is no sidecar, or one that was started in the sandbox before. -/
def NoSidecarMissed (h : InitHistory) (ctr : ContainerSpec) : Prop :=
  ∀ sandboxId ∈ h.sandbox, ∀ sidecar ∈ pod.initContainers, isSidecarInitContainer sidecar = true →
    sidecar.name = ctr.name → .started sidecar.name sandboxId ∈ h.log

/-- The answer lets the worker see how far the init containers are. -/
def ShowsProgress (h : InitHistory) : (op : Request) → op.Answer → Prop
  | .prepareContainer ctr,.ok (some _) => NoSidecarMissed pod h ctr
  | .createContainer _,.ok id => h.made.lookup id = none
  | .listContainers (.recovery sandboxId),a => RecoversInits pod h sandboxId a
  | .containerStatus .decision id,a => ShowsSuccess pod h id a
  | _,_ => True

/-- The condition on a step: the call of the pass is answered so. -/
def Shown (k : AnsweredKubelet) : AnswerAction → Prop
  | .answer a =>
    match k.activity with
    | .syncing (.call op _) => ShowsProgress pod k.history op (a op)
    | _ => True
  | _ => True

/-! The condition can be evaluated. -/

instance (a : Except KubeletError (Option RuntimeContainer)) : Decidable (Awaited pod a) :=
  match a with
  | .ok (some _) => inferInstanceAs (Decidable (_ ∨ _))
  | .ok none => .isFalse id
  | .error _ => .isFalse id

instance (h : InitHistory) (sandboxId : String) (a : Except KubeletError (List RuntimeContainer)) :
    Decidable (RecoversInits pod h sandboxId a) :=
  inferInstanceAs (Decidable (∀ ctr ∈ pod.initContainers, _))

instance (h : InitHistory) (id : String) (a : Except KubeletError (Option RuntimeContainer)) :
    Decidable (ShowsSuccess pod h id a) :=
  inferInstanceAs (Decidable (∀ sandboxId ∈ h.sandbox, _))

instance (h : InitHistory) (ctr : ContainerSpec) : Decidable (NoSidecarMissed pod h ctr) :=
  inferInstanceAs (Decidable (∀ sandboxId ∈ h.sandbox, _))

instance (h : InitHistory) (op : Request) (a : op.Answer) : Decidable (ShowsProgress pod h op a) := by
  induction op using Request.casesOn with
  | prepareContainer ctr =>
    match a with
    | .ok (some _) => exact inferInstanceAs (Decidable (NoSidecarMissed pod h ctr))
    | .ok none => exact .isTrue trivial
    | .error _ => exact .isTrue trivial
  | createContainer =>
    match a with
    | .ok id => exact inferInstanceAs (Decidable (h.made.lookup id = none))
    | .error _ => exact .isTrue trivial
  | listContainers site =>
    match site with
    | .recovery sandboxId => exact inferInstanceAs (Decidable (RecoversInits pod h sandboxId a))
    | .nameCleanup | .podCleanup => exact .isTrue trivial
  | containerStatus site id =>
    match site with
    | .decision => exact inferInstanceAs (Decidable (ShowsSuccess pod h id a))
    | .report => exact .isTrue trivial
  | _ => exact .isTrue trivial

instance : (k : AnsweredKubelet) → (a : AnswerAction) → Decidable (Shown pod k a)
  | ⟨.syncing (.call op _),h⟩,.answer a => inferInstanceAs (Decidable (ShowsProgress pod h op (a op)))
  | ⟨.syncing (.ret _),_⟩,.answer _ => .isTrue trivial
  | ⟨.idle _,_⟩,.answer _ => .isTrue trivial
  | _,.enter => .isTrue trivial
  | _,.finish => .isTrue trivial
  | _,.restart => .isTrue trivial

end KubeAir.Worker
