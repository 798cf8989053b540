import KubeAir.Worker.SyncOnce

/-! # Run at most once across restarts

In every run of passes, exits and restarts whose calls are answered in a way the worker
copes with, a container under `Never` starts at most once in a sandbox and one under
`OnFailure` does not start again after it succeeded. Without the condition neither holds.
-/
namespace KubeAir.Worker
open Core Transition Program

variable {worker : PodWorker} {pod : PodSpec} {n : String} {p : RestartPolicy} {k k' : Kubelet}

/-- What the policy of the container demands of the log. -/
def LogLaw (pod : PodSpec) (n : String) (p : RestartPolicy) (log : List Event) : Prop :=
  (p = .never → StartedAtMostOnce pod n log) ∧ (p = .onFailure → NotStartedAfterSuccess pod n log)

theorem logLaw_nil : LogLaw pod n p [] := ⟨fun _ _ => Nat.zero_le 1,fun _ => .nil⟩

/-- A start that the history allows. -/
theorem LogLaw.started {w : Node} {podUid sandboxId m : String} (h : LogLaw pod n p w.log)
    (hmay : podUid = pod.uid.val → m = n → ¬ MustNotStart pod w sandboxId n p) :
    LogLaw pod n p (.started podUid sandboxId m :: w.log) := by
  refine ⟨?_,?_⟩
  · rintro rfl sandboxId'
    rw [List.count_cons]
    split
    · next heq =>
      injection (beq_iff_eq.mp heq) with huid hbox hname
      have hfirst : w.log.count (.started pod.uid.val sandboxId n) = 0 :=
        List.count_eq_zero.mpr (hmay huid hname)
      rw [← hbox,hfirst]
    · exact h.1 rfl sandboxId'
  · rintro rfl
    refine List.pairwise_cons.mpr ⟨?_,h.2 rfl⟩
    rintro earlier hmem ⟨sandboxId',heq⟩ rfl
    injection heq with huid _ hname
    exact hmay huid hname hmem

theorem LogLaw.exited {log : List Event} {podUid m : String} {code : ℤ} (h : LogLaw pod n p log) :
    LogLaw pod n p (.exited podUid m code :: log) := by
  refine ⟨?_,?_⟩
  · intro hp sandboxId
    rw [List.count_cons_of_ne (by rintro ⟨⟩)]
    exact h.1 hp sandboxId
  · intro hp
    refine List.pairwise_cons.mpr ⟨?_,h.2 hp⟩
    rintro _ _ ⟨_,⟨⟩⟩

/-- Whatever the pass still does starts nothing twice and leaves a settled state. -/
def Ready (pod : PodSpec) (n : String) (p : RestartPolicy) (k : Kubelet) : Prop :=
  match k.activity with
  | .idle st => Settled pod n p st k.node
  | .syncing q => q.Meets (startContract pod n p) (fun r w => Settled pod n p (stateAfter r) w) k.node

structure OnceInvariant (pod : PodSpec) (n : String) (p : RestartPolicy) (k : Kubelet) : Prop where
  ready : Ready pod n p k
  law : LogLaw pod n p k.node.log

theorem onceInvariant_unstarted (h : Unstarted k) : OnceInvariant pod n p k := by
  obtain ⟨hlog,hidle⟩ := h
  constructor
  · unfold Ready
    rw [hidle]
    exact .inl ⟨rfl,rfl⟩
  · rw [hlog]
    exact logLaw_nil

/-- An answer to the pass that it copes with. -/
theorem onceInvariant_reply {op : Request} {next : op.Answer → WorkerM (PodSyncResult × PodRuntimeState)}
    {w w' : Node} {a : op.Answer} {c : Choice}
    (h : (Program.call op next).Meets (startContract pod n p)
      (fun r w => Settled pod n p (stateAfter r) w) w) (hlaw : LogLaw pod n p w.log)
    (hcopes : Copes pod w op c) (hrespond : w.respond op c = some (a,w')) :
    OnceInvariant pod n p { node := w', activity := .syncing (next a) } := by
  obtain ⟨hallowed,hnext⟩ := h w .refl
  constructor
  · exact hnext a w' ⟨c,hcopes,hrespond⟩
  · rcases Node.respond_log hrespond with hlog | ⟨id,r,hop,hr,hlog⟩
    · rw [hlog]
      exact hlaw
    · rw [hlog]
      exact hlaw.started (hallowed id r hop hr)

theorem onceInvariant_exit {id : String} {code : ℤ} {w : Node} (h : OnceInvariant pod n p k)
    (hexit : k.node.exit id code = some w) : OnceInvariant pod n p { k with node := w } := by
  obtain ⟨hready,hlaw⟩ := h
  constructor
  · unfold Ready at hready ⊢
    dsimp only
    split
    · next st hidle =>
      rw [hidle] at hready
      exact steady_settled.exit k.node id code w hready hexit
    · next q hsync =>
      rw [hsync] at hready
      exact hready.drift (.single ⟨id,code,hexit⟩) drift_trans fun _ => steady_settled.drift
  · obtain ⟨r,-,-,hlog⟩ := log_of_exit hexit
    dsimp only
    rw [hlog]
    exact hlaw.exited

theorem onceInvariant_step {a : PassAction} (hpol : HasPolicy pod n p) (hp : p ≠ .always)
    (h : OnceInvariant pod n p k) (hcoped : Coped pod k a) (hstep : passStep worker pod k a = some k') :
    OnceInvariant pod n p k' := by
  obtain ⟨w,activity⟩ := k
  cases a with
  | enter =>
    cases activity with
    | idle st =>
      obtain rfl := Option.some.inj hstep
      exact ⟨meets_syncPod hpol hp h.ready,h.law⟩
    | syncing q => cases hstep
  | reply c =>
    cases activity with
    | idle st => cases hstep
    | syncing q =>
      cases q with
      | ret r => cases hstep
      | call op next =>
        obtain ⟨⟨a,w'⟩,hrespond,rfl⟩ := Option.map_eq_some_iff.mp hstep
        exact onceInvariant_reply h.ready h.law hcoped hrespond
  | finish =>
    cases activity with
    | idle st => cases hstep
    | syncing q =>
      cases q with
      | ret r =>
        obtain rfl := Option.some.inj hstep
        exact ⟨h.ready,h.law⟩
      | call op next => cases hstep
  | exit id code =>
    obtain ⟨w',hexit,rfl⟩ := Option.map_eq_some_iff.mp hstep
    exact onceInvariant_exit h hexit
  | restart =>
    obtain rfl := Option.some.inj hstep
    exact ⟨.inl ⟨rfl,rfl⟩,h.law⟩

theorem onceInvariant_runs {as : List PassAction} (hpol : HasPolicy pod n p) (hp : p ≠ .always)
    (hk : Unstarted k) (hr : Runs (Guarded (Coped pod) (ofStep (passStep worker pod))) k as k') :
    OnceInvariant pod n p k' :=
  hr.invariant (fun _ _ _ h hs => onceInvariant_step hpol hp h hs.1 hs.2) (onceInvariant_unstarted hk)

/-- Runs whose calls are answered in a way the worker copes with run every container once. -/
theorem runsOnce_of_coped (worker : PodWorker) (pod : PodSpec) (k k' : Kubelet) (as : List PassAction)
    (hk : Unstarted k) (hr : Runs (Guarded (Coped pod) (ofStep (passStep worker pod))) k as k') :
    RunsOnce pod k'.node := by
  intro n
  constructor
  · intro hpol
    exact (onceInvariant_runs hpol (by decide) hk hr).law.1 rfl
  · intro hpol
    exact (onceInvariant_runs hpol (by decide) hk hr).law.2 rfl

def nodeA : PodWorker := { nodeName := "node-a", podInfraContainerImage := "pause", nodeInternalIp := "10.0.0.1" }

def jobPod : PodSpec where
  uid := ⟨"uid-a"⟩
  podRef := ⟨"default","job"⟩
  restartPolicy := .never
  containers := [{ name := "app", image := "busybox" }]

/-- A pass makes the sandbox of the pod and starts its container, then the kubelet stops. -/
def startThenRestart : List PassAction :=
  [.enter,.reply .accept,.reply (.named "busybox-id"),.reply (.named "pause-id"),.reply (.listed []),
    .reply (.named "s1"),.reply .accept,.reply (.listed []),.reply .accept,.reply (.named "busybox-id"),
    .reply (.message none),.reply (.named "c1"),.reply .accept,.restart]

/-- The next pass finds the sandbox, lists the container and looks at it. -/
def recoverPass : List PassAction :=
  [.enter,.reply .accept,.reply (.named "busybox-id"),.reply (.named "pause-id"),.reply (.listed ["s1"]),
    .reply .accept,.reply (.listed ["c1"]),.reply .accept]

/-- The container exits after the restarted kubelet has found it running, and is left alone. -/
theorem runsOnce_of_recovery : ∃ k, exec (passStep nodeA jobPod) {}
    (startThenRestart ++ recoverPass ++ [.exit "c1" 1,.reply .accept]) = some k ∧ RunsOnce jobPod k.node := by
  obtain ⟨k,hk⟩ : ∃ k, exec (guardedStep (Coped jobPod) (passStep nodeA jobPod)) {}
      (startThenRestart ++ recoverPass ++ [.exit "c1" 1,.reply .accept]) = some k :=
    Option.isSome_iff_exists.mp (by decide +kernel)
  have hr := guarded_of_exec hk
  exact ⟨k,exec_of_runs hr.of_guarded,runsOnce_of_coped nodeA jobPod {} k _ ⟨rfl,rfl⟩ hr⟩

/-- The container has exited when the restarted kubelet lists it. -/
def startedAgain : List PassAction :=
  startThenRestart ++ .exit "c1" 0 :: recoverPass ++
    [.reply (.named "busybox-id"),.reply (.message none),.reply (.named "c2"),.reply .accept]

/-- Recovery passes over an app container that has exited, and the pass starts it again. -/
theorem not_runsOnce : ¬ ∀ (worker : PodWorker) (pod : PodSpec) (k k' : Kubelet) (as : List PassAction),
    Unstarted k → PassRuns worker pod k as k' → RunsOnce pod k'.node := by
  intro h
  have hlog : (exec (passStep nodeA jobPod) {} startedAgain).map (·.node.log) =
      some [.started "uid-a" "s1" "app",.exited "uid-a" "app" 0,.started "uid-a" "s1" "app"] := by
    decide +kernel
  obtain ⟨k,hk,hlog⟩ := Option.map_eq_some_iff.mp hlog
  have hpolicy : HasPolicy jobPod "app" .never := by simp [HasPolicy,allContainers,jobPod,containerRestartPolicy]
  have honce := (h nodeA jobPod {} k startedAgain ⟨rfl,rfl⟩ (runs_of_exec hk) "app").1 hpolicy "s1"
  rw [hlog] at honce
  revert honce
  decide

end KubeAir.Worker
