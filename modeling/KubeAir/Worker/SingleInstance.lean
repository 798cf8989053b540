import KubeAir.Worker.LivePass
import KubeAir.Worker.RunOnce

/-! # At most one live instance of a container

In every run whose calls tell the worker what runs, `start_container` is called for a name only
while no container of that name runs, and no two containers of one name run at once. An error
from `container_status` of a running container is enough to break both. The answer to any call
can be lost after the call has taken effect.
-/
namespace KubeAir.Worker
open Core Transition Program

variable {worker : PodWorker} {pod : PodSpec}

/-- The pass is in `start_container`: it gets the image of the container that it prepares next. -/
def InStart (ctr : ContainerSpec) : Activity → Prop
  | .syncing (.call (.ensureImage _) next) =>
    ∃ (imageId : String) (next' : _), next (.ok imageId) = .call (.prepareContainer ctr) next'
  | _ => False

/-- Whatever follows, a pass that calls `start_container` is in it. -/
theorem inStart_startContainer (ctr : ContainerSpec) (sandboxId : String) (st : PodRuntimeState)
    (f : Except KubeletError Unit × PodRuntimeState → WorkerM (PodSyncResult × PodRuntimeState)) :
    InStart ctr (.syncing (startContainer pod ctr sandboxId st >>= f)) :=
  ⟨"",_,rfl⟩

/-- No two containers of the pod with one name run, and one that is being started is down. -/
def OneLive (pod : PodSpec) (k : Kubelet) : Prop :=
  SingleInstance pod k.node ∧ ∀ ctr, InStart ctr k.activity → Down pod ctr.name k.node

/-! ## Runs in which answers are lost -/

inductive LossyAction
  | pass (a : PassAction)
  | lost (c : Choice) (e : KubeletError)

/-- The answer to the call of a pass is lost. -/
def lossyStep (worker : PodWorker) (pod : PodSpec) (k : Kubelet) : LossyAction → Option Kubelet
  | .pass a => passStep worker pod k a
  | .lost c e =>
    match k.activity with
    | .syncing (.call op next) => (k.node.settle op (.lost c e)).map fun r => { node := r.2, activity := .syncing (next r.1) }
    | _ => none

/-- How the call of a pass ends, if a call ends. -/
def LossyAction.outcome : LossyAction → Option Outcome
  | .pass (.reply c) => some (.reply c)
  | .lost c e => some (.lost c e)
  | _ => none

abbrev LossyRuns (worker : PodWorker) (pod : PodSpec) : Kubelet → List LossyAction → Kubelet → Prop :=
  Runs (ofStep (lossyStep worker pod))

/-! ## Runs that remember the stray container -/

structure WatchedKubelet extends Kubelet where
  stray : Option String := none

def strayStep (k : WatchedKubelet) : LossyAction → Option String
  | .pass .restart => none
  | a =>
    match a.outcome,k.activity with
    | some o,.syncing (.call op _) => strayAfter k.stray op o
    | _,_ => k.stray

def watchStep (worker : PodWorker) (pod : PodSpec) (k : WatchedKubelet) (a : LossyAction) : Option WatchedKubelet :=
  (lossyStep worker pod k.toKubelet a).map fun k' => { toKubelet := k', stray := strayStep k a }

/-- Every run of passes is one that remembers. -/
theorem watched_of_runs {k k' : Kubelet} {as : List LossyAction} (h : LossyRuns worker pod k as k')
    (stray : Option String) : ∃ stray', Runs (ofStep (watchStep worker pod))
      { toKubelet := k, stray := stray } as { toKubelet := k', stray := stray' } := by
  induction h generalizing stray with
  | nil k => exact ⟨stray,.nil _⟩
  | cons hstep _ ih =>
    obtain ⟨stray',hruns⟩ := ih (strayStep { toKubelet := _, stray := stray } _)
    refine ⟨stray',.cons ?_ hruns⟩
    unfold ofStep watchStep
    rw [show lossyStep worker pod _ _ = _ from hstep]
    rfl

/-- The condition on a step: a call of the pass ends so that the worker is told what runs. -/
def Told (pod : PodSpec) (k : WatchedKubelet) (a : LossyAction) : Prop :=
  match a.outcome,k.activity with
  | some o,.syncing (.call op _) => Tells pod k.node k.stray op o
  | _,_ => True

instance (k : WatchedKubelet) (a : LossyAction) : Decidable (Told pod k a) := by
  unfold Told
  split <;> infer_instance

/-! ## The invariant -/

/-- Whatever the pass still does starts only what is down. -/
def Watching (pod : PodSpec) (k : WatchedKubelet) : Prop :=
  match k.activity with
  | .idle st => Resting pod st k.node
  | .syncing q => q.Meets (liveContract pod) (fun r w => Resting pod (stateAfter r) w.node)
      { node := k.node, stray := k.stray }

structure LiveInvariant (pod : PodSpec) (k : WatchedKubelet) : Prop where
  watching : Watching pod k
  single : SingleInstance pod k.node

/-- The container of a pass in `start_container` is down, as it is prepared without delay if the
image is there. -/
theorem down_of_inStart {k : WatchedKubelet} {ctr : ContainerSpec} (h : Watching pod k)
    (hstart : InStart ctr k.activity) : Down pod ctr.name k.node := by
  obtain ⟨⟨w,activity⟩,stray⟩ := k
  cases activity with
  | idle st => exact hstart.elim
  | syncing q =>
    cases q with
    | ret r => exact hstart.elim
    | call op next =>
      cases op with
      | ensureImage image =>
        obtain ⟨imageId,next',hnext⟩ := hstart
        obtain ⟨-,hmeets⟩ := h { node := w, stray := stray } ⟨.refl,rfl⟩
        have hprepare := hmeets (.ok imageId) { node := w, stray := stray } ⟨.reply (.named imageId),trivial,rfl,rfl⟩
        rw [hnext] at hprepare
        exact (hprepare { node := w, stray := stray } ⟨.refl,rfl⟩).1
      | _ => exact hstart.elim

theorem LiveInvariant.oneLive {k : WatchedKubelet} (h : LiveInvariant pod k) : OneLive pod k.toKubelet :=
  ⟨h.single,fun _ hstart => down_of_inStart h.watching hstart⟩

/-- A call that is allowed keeps the running containers apart. -/
theorem singleInstance_settle {w w' : Node} {stray : Option String} {op : Request} {a : op.Answer} {o : Outcome}
    (h : SingleInstance pod w) (hallowed : (liveContract pod).allowed { node := w, stray := stray } op)
    (hsettle : w.settle op o = some (a,w')) : SingleInstance pod w' := by
  by_cases hop : op.StartsNothing
  · exact falling_singleInstance w w' h (falls_settle hsettle hop)
  · cases op with
    | startContainer id =>
      rcases Node.settle_startContainer hsettle with ⟨r,hr,rfl,-⟩ | ⟨e,-,rfl⟩
      · exact h.start (hallowed r hr)
      · exact h
    | _ => exact (hop trivial).elim

/-- A call that ends as the pass is told. -/
theorem liveInvariant_settle {op : Request} {next : op.Answer → WorkerM (PodSyncResult × PodRuntimeState)}
    {w w' : Node} {stray : Option String} {a : op.Answer} {o : Outcome}
    (h : LiveInvariant pod { node := w, activity := .syncing (.call op next), stray := stray })
    (htells : Tells pod w stray op o) (hsettle : w.settle op o = some (a,w')) :
    LiveInvariant pod { node := w', activity := .syncing (next a), stray := strayAfter stray op o } := by
  obtain ⟨hwatching,hsingle⟩ := h
  obtain ⟨hallowed,hnext⟩ := hwatching { node := w, stray := stray } ⟨.refl,rfl⟩
  refine ⟨?_,singleInstance_settle hsingle hallowed hsettle⟩
  exact hnext a { node := w', stray := strayAfter stray op o } ⟨o,htells,hsettle,rfl⟩

/-- What happens to the pass while no answer is lost. -/
theorem liveInvariant_pass {k : WatchedKubelet} {k' : Kubelet} {a : PassAction} (h : LiveInvariant pod k)
    (htold : Told pod k (.pass a)) (hpass : passStep worker pod k.toKubelet a = some k') :
    LiveInvariant pod { toKubelet := k', stray := strayStep k (.pass a) } := by
  obtain ⟨⟨w,activity⟩,stray⟩ := k
  obtain ⟨hwatching,hsingle⟩ := h
  cases a with
  | enter =>
    cases activity with
    | idle st =>
      obtain rfl := Option.some.inj hpass
      exact ⟨live_syncPod hwatching,hsingle⟩
    | syncing q => cases hpass
  | reply c =>
    cases activity with
    | idle st => cases hpass
    | syncing q =>
      cases q with
      | ret r => cases hpass
      | call op next =>
        obtain ⟨⟨a,w'⟩,hrespond,rfl⟩ := Option.map_eq_some_iff.mp hpass
        exact liveInvariant_settle ⟨hwatching,hsingle⟩ htold hrespond
  | finish =>
    cases activity with
    | idle st => cases hpass
    | syncing q =>
      cases q with
      | ret r =>
        obtain rfl := Option.some.inj hpass
        exact ⟨hwatching,hsingle⟩
      | call op next => cases hpass
  | exit id code =>
    obtain ⟨w',hexit,rfl⟩ := Option.map_eq_some_iff.mp hpass
    refine ⟨?_,falling_singleInstance w w' hsingle (falls_exit hexit)⟩
    cases activity with
    | idle st => exact falling_resting w w' hwatching (falls_exit hexit)
    | syncing q =>
      refine Program.Meets.drift hwatching ⟨.single ⟨id,code,hexit⟩,rfl⟩ ?_ ?_
      · rintro a b c ⟨hab,hhook⟩ ⟨hbc,hhook'⟩
        exact ⟨hab.trans hbc,hhook'.trans hhook⟩
      · intro r w w' hw hd
        exact live_drift falling_resting w w' hw hd
  | restart =>
    obtain rfl := Option.some.inj hpass
    exact ⟨.inl ⟨rfl,rfl⟩,falling_singleInstance w _ hsingle fun _ _ hrun => hrun⟩

theorem liveInvariant_step {k k' : WatchedKubelet} {a : LossyAction} (h : LiveInvariant pod k)
    (htold : Told pod k a) (hstep : watchStep worker pod k a = some k') : LiveInvariant pod k' := by
  obtain ⟨k₁,hpass,rfl⟩ := Option.map_eq_some_iff.mp hstep
  cases a with
  | pass a => exact liveInvariant_pass h htold hpass
  | lost c e =>
    obtain ⟨⟨w,activity⟩,stray⟩ := k
    cases activity with
    | idle st => cases hpass
    | syncing q =>
      cases q with
      | ret r => cases hpass
      | call op next =>
        obtain ⟨⟨a,w'⟩,hsettle,rfl⟩ := Option.map_eq_some_iff.mp hpass
        exact liveInvariant_settle h htold hsettle

/-- Runs whose calls tell the worker what runs never start a second live instance. -/
theorem oneLive_of_told (worker : PodWorker) (pod : PodSpec) (k k' : WatchedKubelet) (as : List LossyAction)
    (hidle : k.activity = .idle {}) (hsingle : SingleInstance pod k.node)
    (hr : Runs (Guarded (Told pod) (ofStep (watchStep worker pod))) k as k') : OneLive pod k'.toKubelet := by
  have hstart : LiveInvariant pod k := by
    refine ⟨?_,hsingle⟩
    unfold Watching
    rw [hidle]
    exact .inl ⟨rfl,rfl⟩
  exact (hr.invariant (fun _ _ _ h hs => liveInvariant_step h hs.1 hs.2) hstart).oneLive

theorem singleInstance_empty : SingleInstance pod {} := by
  rintro n id id' ⟨r,hr,-⟩
  cases hr

/-- The container is removed again, and the next pass starts another one, which the restarted
kubelet lists and looks at. -/
def removedAndStarted : List PassAction :=
  [.reply .accept,.reply .accept,.reply (.time 5),.reply .accept,.finish,.enter,.reply .accept,
    .reply (.named "busybox-id"),.reply .accept,.reply (.named "busybox-id"),.reply (.message none),
    .reply (.named "c2"),.reply .accept,.restart,.enter,.reply .accept,.reply (.named "busybox-id"),
    .reply (.named "pause-id"),.reply (.listed ["s1"]),.reply .accept,.reply (.listed ["c2"]),.reply .accept,
    .reply .accept]

/-- The container runs, but the answer to its start is lost. -/
def startedUntold : List LossyAction :=
  (startThenRestart.take 12).map .pass ++ .lost .accept (.runtime "unavailable") :: removedAndStarted.map .pass

theorem oneLive_of_untold : ∃ k, exec (watchStep nodeA jobPod) {} startedUntold = some k ∧
    OneLive jobPod k.toKubelet := by
  obtain ⟨k,hk⟩ : ∃ k, exec (guardedStep (Told jobPod) (watchStep nodeA jobPod)) {} startedUntold = some k :=
    Option.isSome_iff_exists.mp (by decide +kernel)
  have hr := guarded_of_exec hk
  exact ⟨k,exec_of_runs hr.of_guarded,oneLive_of_told nodeA jobPod {} k _ rfl singleInstance_empty hr⟩

/-- The status of the running container is not told, it is not removed, and another one starts. -/
def startedBesides : List PassAction :=
  startThenRestart ++ recoverPass ++
    [.reply (.fault (.runtime "unavailable")),.reply (.named "busybox-id"),.reply (.message none),
      .reply (.fault (.runtime "container is running")),.reply .accept,.reply (.named "c2"),.reply .accept]

/-- The new container runs beside the one that `container_status` gave no answer for. -/
theorem not_oneLive : ¬ ∀ (worker : PodWorker) (pod : PodSpec) (k k' : Kubelet) (as : List LossyAction),
    k.activity = .idle {} → SingleInstance pod k.node → LossyRuns worker pod k as k' → OneLive pod k' := by
  intro h
  have hnode : (exec (lossyStep nodeA jobPod) {} (startedBesides.map .pass)).map (fun k => ["c1","c2"].map fun id =>
      (k.node.containers.lookup id).map fun r => (r.podUid,r.name,r.state)) =
        some [some ("uid-a","app",.running),some ("uid-a","app",.running)] := by
    decide +kernel
  obtain ⟨k,hk,hnode⟩ := Option.map_eq_some_iff.mp hnode
  have hruns {id : String} (hid : (k.node.containers.lookup id).map (fun r => (r.podUid,r.name,r.state)) =
      some ("uid-a","app",.running)) : RunsAs jobPod "app" id k.node := by
    obtain ⟨r,hr,heq⟩ := Option.map_eq_some_iff.mp hid
    obtain ⟨huid,heq⟩ := Prod.mk.inj heq
    obtain ⟨hname,hrun⟩ := Prod.mk.inj heq
    exact ⟨r,hr,huid,hname,hrun⟩
  obtain ⟨h₁,hnode⟩ := List.cons.inj hnode
  obtain ⟨h₂,-⟩ := List.cons.inj hnode
  have hsame := (h nodeA jobPod {} k (startedBesides.map .pass) rfl singleInstance_empty (runs_of_exec hk)).1 "app" "c1" "c2"
    (hruns h₁) (hruns h₂)
  exact absurd hsame (by decide)

end KubeAir.Worker
