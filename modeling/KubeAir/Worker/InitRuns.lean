import KubeAir.Worker.InitPass
import KubeAir.Worker.RunOnce

/-! # Init containers come first

In every run of passes whose calls are answered so that the worker sees how far the init
containers are, each start was permitted by what the pass had seen before it.
-/
namespace KubeAir.Worker
open Core Transition Program

variable {pod : PodSpec} {h : InitHistory} {log : List InitEvent}

theorem initOrder_nil : InitOrder pod [] := by
  intro later name sandboxId earlier heq
  cases later <;> cases heq

/-- An event is logged that is no start, or one that is permitted. -/
theorem InitOrder.cons {e : InitEvent} (hlog : InitOrder pod log)
    (he : ∀ name sandboxId, e = .started name sandboxId → MayStart pod name sandboxId log) :
    InitOrder pod (e :: log) := by
  intro later name sandboxId earlier heq
  cases later with
  | nil =>
    obtain ⟨rfl,rfl⟩ := List.cons.inj heq
    exact he name sandboxId rfl
  | cons e' later =>
    obtain ⟨-,rfl⟩ := List.cons.inj heq
    exact hlog later name sandboxId earlier rfl

/-- A call that is allowed keeps the order, whatever its answer is. -/
theorem initOrder_note {op : Request} (hlog : InitOrder pod h.log) (hallowed : (orderContract pod).allowed h op)
    (a : op.Answer) : InitOrder pod (h.note op a).log := by
  by_cases hop : op.Aside
  · rw [InitHistory.note_of_aside hop a]
    exact hlog
  · cases op with
    | prepareContainer | runPostStart => exact hlog
    | createContainer config => cases a <;> exact hlog
    | startContainer id =>
      cases a with
      | error e => exact hlog
      | ok _ =>
        change InitOrder pod (h.logged id .started).log
        unfold InitHistory.logged
        cases hmade : h.made.lookup id with
        | none => exact hlog
        | some p =>
          refine hlog.cons ?_
          intro name sandboxId heq
          obtain ⟨rfl,rfl⟩ := InitEvent.started.inj heq
          exact hallowed p.1 p.2 hmade
    | listContainers site =>
      cases site with
      | recovery sandboxId => exact hlog
      | _ => exact (hop trivial).elim
    | containerStatus site id =>
      cases site with
      | decision =>
        rcases note_containerStatus h id a with hsame | ⟨name,sandboxId,-,hnote⟩
        · rw [hsame]
          exact hlog
        · rw [hnote]
          refine hlog.cons ?_
          rintro _ _ ⟨⟩
      | report => exact (hop trivial).elim
    | _ => exact (hop trivial).elim

/-- Whatever the pass still does starts only what the history permits. -/
def Following (pod : PodSpec) (k : AnsweredKubelet) : Prop :=
  match k.activity with
  | .idle st => AtRest pod st k.history
  | .syncing q => q.Meets (orderContract pod) (fun r h => AtRest pod (stateAfter r) h) k.history

structure OrderInvariant (pod : PodSpec) (k : AnsweredKubelet) : Prop where
  following : Following pod k
  law : InitOrder pod k.history.log

theorem orderInvariant_step {worker : PodWorker} {k k' : AnsweredKubelet} {a : AnswerAction}
    (hnames : InitNamesApart pod) (hk : OrderInvariant pod k) (hshown : Shown pod k a)
    (hstep : answerStep worker pod k a = some k') : OrderInvariant pod k' := by
  obtain ⟨activity,history⟩ := k
  obtain ⟨hfollowing,hlaw⟩ := hk
  cases a with
  | enter =>
    cases activity with
    | idle st =>
      obtain rfl := Option.some.inj hstep
      exact ⟨order_syncPod hnames hfollowing,hlaw⟩
    | syncing q => cases hstep
  | answer a =>
    cases activity with
    | idle st => cases hstep
    | syncing q =>
      cases q with
      | ret r => cases hstep
      | call op next =>
        obtain rfl := Option.some.inj hstep
        obtain ⟨hallowed,hnext⟩ := hfollowing history rfl
        exact ⟨hnext (a op) _ ⟨hshown,rfl⟩,initOrder_note hlaw hallowed (a op)⟩
  | finish =>
    cases activity with
    | idle st => cases hstep
    | syncing q =>
      cases q with
      | ret r =>
        obtain rfl := Option.some.inj hstep
        exact ⟨hfollowing,hlaw⟩
      | call op next => cases hstep
  | restart =>
    obtain rfl := Option.some.inj hstep
    exact ⟨.inl ⟨rfl,rfl⟩,hlaw⟩

/-- Runs whose answers show how far the init containers are keep their order. -/
theorem initOrder_of_shown (worker : PodWorker) (pod : PodSpec) (k k' : AnsweredKubelet) (as : List AnswerAction)
    (hnames : InitNamesApart pod) (hidle : k.activity = .idle {}) (hlaw : InitOrder pod k.history.log)
    (hr : Runs (Guarded (Shown pod) (ofStep (answerStep worker pod))) k as k') : InitOrder pod k'.history.log := by
  have hstart : OrderInvariant pod k := by
    refine ⟨?_,hlaw⟩
    unfold Following
    rw [hidle]
    exact .inl ⟨rfl,rfl⟩
  exact (hr.invariant (fun _ _ _ hk hs => orderInvariant_step hnames hk hs.1 hs.2) hstart).law

/-! ## Two runs -/

def setupPod : PodSpec where
  uid := ⟨"uid-a"⟩
  podRef := ⟨"default","web"⟩
  initContainers := [{ name := "setup", image := "busybox" },
    { name := "proxy", image := "envoy", restartPolicy := some .always }]
  containers := [{ name := "app", image := "nginx" }]

/-- Every call is granted; containers are listed and have the status as given. -/
def granting (listing : List RuntimeContainer) (status : Except KubeletError (Option RuntimeContainer)) :
    (op : Request) → op.Answer
  | .now => 0
  | .instant => 0
  | .sleep _ => ()
  | .pause _ => ()
  | .ensurePodVolumes _ => .ok ()
  | .unmountPodVolumes => .ok ()
  | .ensureImage image => .ok image
  | .prepareContainer _ => .ok none
  | .runPodSandbox _ => .ok "s1"
  | .stopPodSandbox _ => .ok ()
  | .removePodSandbox _ => .ok ()
  | .podSandboxStatus _ => .ok none
  | .listPodSandboxes => .ok []
  | .createContainer config => .ok (config.container.name ++ "-id")
  | .startContainer _ => .ok ()
  | .stopContainer .. => .ok ()
  | .removeContainer _ => .ok ()
  | .listContainers _ => .ok listing
  | .containerStatus .. => status
  | .updateContainerResources .. => .ok ()
  | .runPostStart .. => .ok ()
  | .runPreStop .. => ()
  | .getStatus => none
  | .setStatus _ => ()
  | .reportPodStatus _ => .ok ()
  | .containerStartupDone _ => none
  | .containerReadiness _ => none
  | .forgetProbes _ => ()
  | .spawnProbe .. => ()
  | .readTerminationMessage .. => none

def setupDone : RuntimeContainer where
  id := "setup-id"
  podUid := "uid-a"
  name := "setup"
  state := .exited
  exitCode := some 0

/-- The first pass starts the container `setup`. -/
def setupPass : List AnswerAction := .enter :: List.replicate 20 (.answer (granting [] (.ok none)))

/-- The kubelet restarts and recovers the container, which is seen to have succeeded. -/
def setupRecovered : List AnswerAction :=
  setupPass ++ .restart :: .enter :: List.replicate 22 (.answer (granting [setupDone] (.ok (some setupDone))))

/-- The sidecar and the container `app` are started after it. -/
theorem initOrder_of_recovery : ∃ k, exec (answerStep nodeA setupPod) {} setupRecovered = some k ∧
    InitOrder setupPod k.history.log := by
  obtain ⟨k,hk⟩ : ∃ k, exec (guardedStep (Shown setupPod) (answerStep nodeA setupPod)) {} setupRecovered = some k :=
    Option.isSome_iff_exists.mp (by decide +kernel)
  have hr := guarded_of_exec hk
  exact ⟨k,exec_of_runs hr.of_guarded,initOrder_of_shown nodeA setupPod {} k _ (by decide) rfl initOrder_nil hr⟩

/-- The second pass sees the container succeed, and the third one gets no answer for it. -/
def setupUnanswered : List AnswerAction :=
  setupPass ++ .finish :: .enter :: List.replicate 31 (.answer (granting [] (.ok (some setupDone)))) ++
    .finish :: .enter :: List.replicate 19 (.answer (granting [] (.error (.runtime "unavailable"))))

/-- The container is started again. -/
theorem not_initOrder : ¬ ∀ (worker : PodWorker) (pod : PodSpec) (k k' : AnsweredKubelet) (as : List AnswerAction),
    InitNamesApart pod → k.activity = .idle {} → InitOrder pod k.history.log → AnsweredRuns worker pod k as k' →
      InitOrder pod k'.history.log := by
  intro h
  have hlog : (exec (answerStep nodeA setupPod) {} setupUnanswered).map (·.history.log) =
      some [.started "setup" "s1",.started "app" "s1",.started "proxy" "s1",.succeeded "setup" "s1",
        .started "setup" "s1"] := by
    decide +kernel
  obtain ⟨k,hk,hlog⟩ := Option.map_eq_some_iff.mp hlog
  have hmay := h nodeA setupPod {} k setupUnanswered (by decide) rfl initOrder_nil (runs_of_exec hk) [] "setup" "s1" _ hlog
  exact hmay.once _ List.mem_cons_self rfl rfl (by decide)

end KubeAir.Worker
