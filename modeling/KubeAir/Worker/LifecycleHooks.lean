import KubeAir.Worker.ContainerEnv
import KubeAir.Worker.SyncFrame

/-! # Lifecycle hooks

A hook runs a command, asks a server, opens a connection or waits, and what it calls may answer late or
never. It is given the time that the pod has, and a pod is taken down however its hooks end.
-/
namespace KubeAir.Worker.LifecycleHooks
open Core Transition Adapters.Admission
open ContainerEnv (lossyText)

/-- An answer and the milliseconds until it comes, if it comes. -/
abbrev Reply (α : Type) := Option (ℕ × α)

/-- `tokio::time::timeout`: what comes in time, and the time that has passed. -/
def timeout {α : Type} (limit : ℕ) (reply : Reply α) : Option α × ℕ :=
  match reply with
  | some (t,a) => if t ≤ limit then (some a,t) else (none,limit)
  | none => (none,limit)

structure ExecResult where
  exitCode : ℤ
  stderr : List UInt8

/-- The runtime and the network, and the texts of the libraries. -/
structure Outside where
  execSync : String → List String → ℕ → Reply (Except String ExecResult)
  buildClient : Except String Unit
  httpGet : String → Bool → Reply (Except String ℕ)
  connect : String → Reply (Except String Unit)
  toLowercase : String → String
  lateText : String
  statusText : ℕ → String

/-! ## The hooks -/

section Hooks
variable (outside : Outside) (limit : ℕ)

/-- `exec_sync` of the client; the limits are in seconds. -/
def execSync (containerId : String) (command : List String) (timeoutSeconds : ℕ) : Except KubeletError ExecResult × ℕ :=
  let grpcDeadline := timeoutSeconds + 35
  match timeout (grpcDeadline * 1000) (outside.execSync containerId command timeoutSeconds) with
  | (none,t) => (.error (.runtime ("ExecSync timed out after " ++ toString grpcDeadline ++ "s")),t)
  | (some (.error e),t) => (.error (.runtime ("ExecSync: " ++ e)),t)
  | (some (.ok result),t) => (.ok result,t)

def execHook (command : List String) (containerId : String) : Except KubeletError Unit × ℕ :=
  match execSync outside containerId command limit with
  | (.error e,t) => (.error e,t)
  | (.ok result,t) =>
    if result.exitCode ≠ 0 then
      (.error (.lifecycle ("lifecycle exec hook failed with exit code " ++ toString result.exitCode ++ ": " ++
        trim (lossyText result.stderr))),t)
    else (.ok (),t)

def hookUrl (path : String) (port : ℕ) (host : Option String) (scheme : String) : String :=
  outside.toLowercase scheme ++ "://" ++ host.getD "localhost" ++ ":" ++ toString port ++ path

def isHttps (scheme : String) : Bool := scheme.toList.map Char.toLower = "https".toList

def httpHook (path : String) (port : ℕ) (host : Option String) (scheme : String) : Except KubeletError Unit × ℕ :=
  match outside.buildClient with
  | .error e => (.error (.lifecycle ("HTTP client build: " ++ e)),0)
  | .ok _ =>
    match timeout (limit * 1000) (outside.httpGet (hookUrl outside path port host scheme) (isHttps scheme)) with
    | (none,t) => (.error (.lifecycle ("HTTP hook GET failed: " ++ outside.lateText)),t)
    | (some (.error e),t) => (.error (.lifecycle ("HTTP hook GET failed: " ++ e)),t)
    | (some (.ok status),t) =>
      if ¬ (200 ≤ status ∧ status < 300) ∧ 400 ≤ status then
        (.error (.lifecycle ("HTTP hook returned error status: " ++ outside.statusText status)),t)
      else (.ok (),t)

def hookAddress (port : ℕ) (host : Option String) : String := host.getD "localhost" ++ ":" ++ toString port

def tcpHook (port : ℕ) (host : Option String) : Except KubeletError Unit × ℕ :=
  match timeout (limit * 1000) (outside.connect (hookAddress port host)) with
  | (none,t) => (.error (.lifecycle ("TCP hook timed out connecting to " ++ hookAddress port host)),t)
  | (some (.error e),t) => (.error (.lifecycle ("TCP hook connect failed: " ++ e)),t)
  | (some (.ok _),t) => (.ok (),t)

def sleepHook (seconds : ℕ) : Except KubeletError Unit × ℕ :=
  match timeout (limit * 1000) (some (seconds * 1000,())) with
  | (none,t) => (.error (.lifecycle ("Sleep hook timed out after " ++ toString limit ++ "s (grace period exceeded)")),t)
  | (some _,t) => (.ok (),t)

/-- What a hook comes to, and the milliseconds that it takes. -/
def execute (handler : LifecycleHandler) (containerId : String) : Except KubeletError Unit × ℕ :=
  match handler with
  | .exec command => execHook outside limit command containerId
  | .httpGet path port host scheme => httpHook outside limit path port host scheme
  | .tcpSocket port host => tcpHook outside limit port host
  | .sleep seconds => sleepHook limit seconds

/-- `run_post_start`, with 30 seconds. -/
def runPostStart (handler : LifecycleHandler) (containerId : String) : Except KubeletError Unit × ℕ :=
  execute outside 30 handler containerId

/-- `run_pre_stop`: a failure is only logged, and what is left is the time. -/
def runPreStop (handler : LifecycleHandler) (containerId : String) (gracePeriod : ℕ) : ℕ :=
  (execute outside gracePeriod handler containerId).2

/-- The time a hook can take: the runtime has 35 seconds more to answer. -/
def allowance : ℕ := (limit + 35) * 1000

end Hooks

section Limits
variable {outside : Outside} {limit : ℕ} {α : Type}

/-- The answer comes in time. -/
def Arrives (limit : ℕ) (reply : Reply α) (a : α) : Prop := ∃ t ≤ limit, reply = some (t,a)

theorem timeout_fst {reply : Reply α} {a : α} : (timeout limit reply).1 = some a ↔ Arrives limit reply a := by
  unfold timeout Arrives
  constructor
  · intro h
    split at h
    · next t b =>
      split at h
      · next hin =>
        obtain rfl := Option.some.inj h
        exact ⟨t,hin,rfl⟩
      · cases h
    · cases h
  · rintro ⟨t,hin,rfl⟩
    exact congrArg Prod.fst (if_pos hin)

/-- What a hook asks for: a command that ends with 0, an answer below 400, a connection, or a wait that is
not too long. -/
def Succeeds (outside : Outside) (limit : ℕ) (containerId : String) : LifecycleHandler → Prop
  | .exec command => ∃ result,
      Arrives (allowance limit) (outside.execSync containerId command limit) (.ok result) ∧ result.exitCode = 0
  | .httpGet path port host scheme => outside.buildClient = .ok () ∧ ∃ status,
      Arrives (limit * 1000) (outside.httpGet (hookUrl outside path port host scheme) (isHttps scheme)) (.ok status) ∧ status < 400
  | .tcpSocket port host => Arrives (limit * 1000) (outside.connect (hookAddress port host)) (.ok ())
  | .sleep seconds => seconds ≤ limit

theorem execute_ok_iff {handler : LifecycleHandler} {containerId : String} :
    (execute outside limit handler containerId).1 = .ok () ↔ Succeeds outside limit containerId handler := by
  cases handler with
  | exec command =>
    unfold Succeeds execute execHook execSync allowance
    simp only [← timeout_fst]
    rcases timeout ((limit + 35) * 1000) (outside.execSync containerId command limit) with ⟨_ | e | result,t⟩
    · simp
    · simp
    · by_cases hcode : result.exitCode = 0
      · simp [hcode]
      · simp [hcode]
  | httpGet path port host scheme =>
    unfold Succeeds execute httpHook
    simp only [← timeout_fst]
    cases outside.buildClient with
    | error e => simp
    | ok _ =>
      rcases timeout (limit * 1000) (outside.httpGet (hookUrl outside path port host scheme) (isHttps scheme)) with ⟨_ | e | status,t⟩
      · simp
      · simp
      · dsimp only
        by_cases hstatus : status < 400
        · rw [if_neg (by omega)]
          simp [hstatus]
        · rw [if_pos (by omega)]
          simp [hstatus]
  | tcpSocket port host =>
    unfold Succeeds execute tcpHook
    simp only [← timeout_fst]
    rcases timeout (limit * 1000) (outside.connect (hookAddress port host)) with ⟨_ | e | _,t⟩
    · simp
    · simp
    · simp
  | sleep seconds =>
    unfold Succeeds execute sleepHook timeout
    by_cases hin : seconds ≤ limit
    · simp [hin]
    · simp [hin]

end Limits

/-! ## Taking a pod down -/

/-- The clock, the hooks that have run, the pauses between calls, the time that other calls took, and the
containers that a stop was requested for. -/
structure Termination where
  clock : ℕ := 0
  hooks : ℕ := 0
  paused : ℕ := 0
  others : ℕ := 0
  stopped : List String := []

namespace Termination
variable (w : Termination)

def elapse (d : ℕ) : Termination := { w with clock := w.clock + d, others := w.others + d }

/-- Every call takes some time; that of a hook or of a pause is its own. -/
def Answers (op : Request) (w' : Termination) : Prop :=
  match op with
  | .runPreStop handler containerId _ gracePeriod => ∃ outside,
      w' = { w with clock := w.clock + runPreStop outside handler containerId gracePeriod, hooks := w.hooks + 1 }
  | .pause millis => w' = { w with clock := w.clock + millis, paused := w.paused + millis }
  | .stopContainer containerId _ => ∃ d, w' = { w.elapse d with stopped := w.stopped ++ [containerId] }
  | _ => ∃ d, w' = w.elapse d

/-- A hook is given the time that the pod has, and only a container that was to be stopped is removed. -/
def Permitted (gracePeriod : ℕ) : Request → Prop
  | .runPreStop _ _ _ limit => limit = gracePeriod
  | .removeContainer containerId => containerId ∈ w.stopped
  | _ => True

/-- The hooks have taken no more than their time. -/
def InTime (gracePeriod : ℕ) : Prop := w.clock ≤ w.others + w.paused + w.hooks * allowance gracePeriod

end Termination

def terminating (gracePeriod : ℕ) : Contract Request Request.Answer Termination where
  drift w w' := w' = w
  allowed w := w.Permitted gracePeriod
  answers w op _ w' := w.Answers op w'

/-- A call that is neither a hook nor a pause. -/
def Plain : Request → Prop
  | .runPreStop .. => False
  | .pause _ => False
  | _ => True

section Taking
variable {gracePeriod n p : ℕ} {w w' : Termination} {ids : List String} {containerId : String}

/-- So many hooks have run at most, so long were the pauses, and these containers were to be stopped. -/
structure Underway (gracePeriod n p : ℕ) (ids : List String) (w : Termination) : Prop where
  inTime : w.InTime gracePeriod
  hooks : w.hooks ≤ n
  paused : w.paused ≤ p
  stopped : ∀ id ∈ ids, id ∈ w.stopped

theorem Underway.elapse (h : Underway gracePeriod n p ids w) (d : ℕ) : Underway gracePeriod n p ids (w.elapse d) := by
  refine ⟨?_,h.hooks,h.paused,h.stopped⟩
  have htime := h.inTime
  unfold Termination.InTime at htime ⊢
  unfold Termination.elapse
  dsimp only
  omega

theorem Underway.mono {p' : ℕ} (h : Underway gracePeriod n p ids w) (hp : p ≤ p') : Underway gracePeriod n p' ids w :=
  ⟨h.inTime,h.hooks,h.paused.trans hp,h.stopped⟩

theorem Underway.answers (h : Underway gracePeriod n p ids w) {op : Request} (hop : Plain op) (hans : w.Answers op w') :
    Underway gracePeriod n p ids w' := by
  unfold Termination.Answers at hans
  split at hans
  · exact hop.elim
  · exact hop.elim
  · obtain ⟨d,rfl⟩ := hans
    exact ⟨(h.elapse d).inTime,h.hooks,h.paused,fun id hid => List.mem_append_left _ (h.stopped id hid)⟩
  · obtain ⟨d,rfl⟩ := hans
    exact h.elapse d

theorem meets_plain (op : Request) (hop : Plain op) (hallowed : w.Permitted gracePeriod op) (h : Underway gracePeriod n p ids w) :
    (ask op).Meets (terminating gracePeriod) (fun _ => Underway gracePeriod n p ids) w := by
  rintro w' rfl
  exact ⟨hallowed,fun _ _ hans => h.answers hop hans⟩

theorem meets_pause (millis : ℕ) (h : Underway gracePeriod n p ids w) :
    (pause millis).Meets (terminating gracePeriod) (fun _ => Underway gracePeriod n (p + millis) ids) w := by
  rintro w' rfl
  refine ⟨trivial,?_⟩
  rintro - w'' rfl
  refine ⟨?_,h.hooks,Nat.add_le_add_right h.paused millis,h.stopped⟩
  have htime := h.inTime
  unfold Termination.InTime at htime ⊢
  dsimp only
  omega

/-- Between two attempts half a second passes. -/
theorem meets_removeWithRetries (hmem : containerId ∈ ids) (attempts : ℕ) (h : Underway gracePeriod n p ids w) :
    (removeWithRetries containerId attempts).Meets (terminating gracePeriod)
      (fun _ => Underway gracePeriod n (p + (attempts - 1) * 500) ids) w := by
  induction attempts generalizing p w with
  | zero => exact h.mono (Nat.le_add_right _ _)
  | succ attempts ih =>
    unfold removeWithRetries
    rw [Program.meets_bind]
    refine (meets_plain (.removeContainer containerId) trivial (h.stopped containerId hmem) h).mono fun r w hremoved => ?_
    cases r with
    | ok _ => exact hremoved.mono (Nat.le_add_right _ _)
    | error e =>
      dsimp only
      split
      · exact hremoved.mono (Nat.le_add_right _ _)
      · next hmore =>
        rw [Program.meets_bind]
        refine (meets_pause 500 hremoved).mono fun _ w hpaused => ?_
        refine (ih hpaused).mono fun _ w hrest => hrest.mono ?_
        omega

theorem meets_removeAll (entries : List (Sigma fun _ : String => String)) (hmem : ∀ e ∈ entries, e.2 ∈ ids)
    (h : Underway gracePeriod n p ids w) : (Program.forEach (fun e => removeWithRetries e.2 3) entries).Meets
      (terminating gracePeriod) (fun _ => Underway gracePeriod n (p + entries.length * 1000) ids) w := by
  induction entries generalizing p w with
  | nil => exact h.mono (Nat.le_add_right _ _)
  | cons e entries ih =>
    obtain ⟨hfirst,hothers⟩ := List.forall_mem_cons.mp hmem
    unfold Program.forEach
    rw [Program.meets_bind]
    refine (meets_removeWithRetries hfirst 3 h).mono fun _ w hremoved => ?_
    refine (ih hothers hremoved).mono fun _ w hrest => hrest.mono ?_
    rw [List.length_cons]
    omega

end Taking

/-! ## Starting a container -/

/-- The container that has been started, and those that a stop was requested for since. -/
structure Start where
  started : Option String := none
  stopped : List String := []

/-- Calls are answered in any way, and a hook runs with 30 seconds. -/
def Start.Answers (outside : Outside) (w : Start) (op : Request) (ans : op.Answer) (w' : Start) : Prop :=
  match op, ans with
  | .startContainer containerId, .ok _ => w' = { started := some containerId }
  | .runPostStart handler containerId _, (r : Except KubeletError Unit) =>
    w' = w ∧ r = (runPostStart outside handler containerId).1
  | .stopContainer containerId _, _ => w' = { w with stopped := w.stopped ++ [containerId] }
  | _, _ => w' = w

def starting (outside : Outside) : Contract Request Request.Answer Start where
  drift w w' := w' = w
  allowed _ _ := True
  answers := Start.Answers outside

def HookSucceeds (outside : Outside) (ctr : ContainerSpec) (containerId : String) : Prop :=
  ∀ handler ∈ ctr.lifecycle.bind (·.postStart), Succeeds outside 30 containerId handler

/-- A container that was started stays running and is recorded if its hook succeeds. Otherwise the start
fails, and a stop is requested for it. -/
structure FollowsHook (outside : Outside) (ctr : ContainerSpec) (r : Except KubeletError Unit) (st : PodRuntimeState)
    (w : Start) : Prop where
  kept : ∀ id ∈ w.started, HookSucceeds outside ctr id →
    r = .ok () ∧ w.stopped = [] ∧ st.containerIds.lookup ctr.name = some id
  dropped : ∀ id ∈ w.started, ¬HookSucceeds outside ctr id →
    (∃ e, r = .error e) ∧ w.stopped = [id] ∧ st.containerIds.lookup ctr.name = none

section Starting
open Program Routine
variable {outside : Outside} {pod : PodSpec} {ctr : ContainerSpec} {cid sandboxId imageId : String} {st : PodRuntimeState}
  {r : Except KubeletError Unit} {w : Start}

def Unstarted (w : Start) : Prop := w.started = none

theorem Unstarted.followsHook (h : Unstarted w) : FollowsHook outside ctr r st w where
  kept id hid := by
    rw [show w.started = none from h] at hid
    cases hid
  dropped id hid := by
    rw [show w.started = none from h] at hid
    cases hid

/-- A call that starts no container and runs no hook. -/
def Preparing : Request → Prop
  | .startContainer _ => False
  | .runPostStart .. => False
  | _ => True

theorem preparing_of_aside {op : Request} (h : op.Aside) : Preparing op := by
  cases op with
  | startContainer _ => exact h
  | runPostStart _ _ _ => exact h
  | _ => trivial

theorem Unstarted.answers (h : Unstarted w) {op : Request} {ans : op.Answer} {w' : Start} (hop : Preparing op)
    (hans : w.Answers outside op ans w') : Unstarted w' := by
  unfold Start.Answers at hans
  split at hans
  · exact hop.elim
  · exact hop.elim
  · rw [hans]
    exact h
  · rw [hans]
    exact h

/-- Until the container is started, nothing of the law is asked. -/
theorem meets_preparing {α : Type} {q : WorkerM α} (hq : q.Uses Preparing) (h : Unstarted w) :
    q.Meets (starting outside) (fun _ => Unstarted) w := by
  refine (Every.meets hq h ?_ ?_).mono fun _ _ hw => hw.2
  · rintro w w' hw rfl
    exact hw
  · intro w op hw hop
    exact ⟨trivial,fun ans w' hans => Unstarted.answers hw hop hans⟩

theorem preparing_createOrReplace {config : CreateContainerConfig} :
    (createOrReplace pod ctr config).Uses Preparing := by
  unfold createOrReplace
  refine Uses.bind (uses_ask trivial) fun r => ?_
  split
  · trivial
  · refine uses_ite (Uses.bind ?_ fun _ => uses_ask trivial) (uses_pure _)
    exact (aside_cleanupReserved pod ctr _).mono (fun _ => preparing_of_aside) fun _ h => h

theorem meets_dropRecord {name : String} (h : Unstarted w) : (dropRecord name).Meets (starting outside) (fun r st w =>
    r = .ok () ∧ st.containerIds.lookup name = none ∧ Unstarted w) st w := by
  unfold dropRecord
  rw [Routine.meets_bind,meets_get]
  dsimp only
  split
  · next hnone => exact ⟨rfl,hnone,h⟩
  · next old _ =>
    rw [Routine.meets_bind,meets_lift]
    refine (meets_preparing (uses_ask (show Preparing (.removeContainer old) from trivial)) h).mono fun _ w h => ?_
    dsimp only
    rw [Routine.meets_bind,meets_lift]
    refine (meets_preparing (uses_ask (show Preparing (.forgetProbes old) from trivial)) h).mono fun _ w h => ?_
    exact ⟨rfl,AList.lookup_erase _ _,h⟩

theorem meets_postStart (hstarted : w = { started := some cid }) (hnone : st.containerIds.lookup ctr.name = none) :
    (postStart ctr cid).Meets (starting outside) (fun r st' w' => match r with
      | .ok _ => st' = st ∧ w' = w ∧ HookSucceeds outside ctr cid
      | .error e => FollowsHook outside ctr (.error e) st' w') st w := by
  unfold postStart
  split
  · next hhook =>
    refine ⟨rfl,rfl,fun handler hhandler => ?_⟩
    rw [hhook] at hhandler
    cases hhandler
  · next handler hhook =>
    rw [Routine.meets_bind,Routine.meets_lift]
    rintro w' rfl
    refine ⟨trivial,?_⟩
    rintro r w'' ⟨rfl,rfl⟩
    have hsucceeds : HookSucceeds outside ctr cid ↔ (runPostStart outside handler cid).1 = .ok () := by
      unfold HookSucceeds runPostStart
      rw [hhook,execute_ok_iff]
      exact ⟨fun h => h handler rfl,fun h other hother => Option.some.inj hother ▸ h⟩
    cases hr : (runPostStart outside handler cid).1 with
    | ok _ => exact ⟨rfl,rfl,hsucceeds.mpr hr⟩
    | error e =>
      have hfails : ¬HookSucceeds outside ctr cid := by
        rw [hsucceeds,hr]
        exact nofun
      rw [Program.meets_ret]
      dsimp only
      rw [Routine.meets_bind,Routine.meets_lift]
      rintro w' rfl
      refine ⟨trivial,?_⟩
      rintro - w'' rfl
      subst hstarted
      refine ⟨fun id hid hok => ?_,fun id hid _ => ?_⟩
      · cases hid
        exact absurd hok hfails
      · cases hid
        exact ⟨⟨e,rfl⟩,rfl,hnone⟩

theorem meets_startCreated (h : Unstarted w) (hnone : st.containerIds.lookup ctr.name = none) :
    (startCreated ctr cid).Meets (starting outside) (FollowsHook outside ctr) st w := by
  unfold startCreated
  rw [Routine.meets_bind,Routine.meets_lift]
  rintro w rfl
  refine ⟨trivial,?_⟩
  intro ans w' hans
  cases ans with
  | error e =>
    have hunstarted : Unstarted w' := by
      rw [show w' = w from hans]
      exact h
    dsimp only
    rw [Program.meets_ret,Routine.meets_bind,Routine.meets_lift]
    refine (meets_preparing (uses_ask (show Preparing (.removeContainer cid) from trivial)) hunstarted).mono fun _ w h => ?_
    exact h.followsHook
  | ok _ =>
    rw [Program.meets_ret]
    dsimp only
    rw [Routine.meets_bind]
    refine (meets_postStart hans hnone).mono ?_
    rintro r st' w'' hr
    cases r with
    | error e => exact hr
    | ok _ =>
      obtain ⟨rfl,rfl,hsucceeds⟩ := hr
      rw [show w'' = { started := some cid } from hans]
      dsimp only
      rw [Routine.meets_bind,Routine.meets_lift]
      rintro w rfl
      refine ⟨trivial,?_⟩
      rintro - w rfl
      rw [Program.meets_ret]
      dsimp only
      rw [Routine.meets_bind,Routine.meets_lift]
      rintro w rfl
      refine ⟨trivial,?_⟩
      rintro at_ w rfl
      refine ⟨fun id hid _ => ?_,fun id hid hfails => ?_⟩
      · cases hid
        exact ⟨rfl,rfl,AList.lookup_insert _⟩
      · cases hid
        exact absurd hsucceeds hfails

theorem meets_createAndStart (h : Unstarted w) :
    (createAndStart pod ctr sandboxId imageId).Meets (starting outside) (FollowsHook outside ctr) st w := by
  unfold createAndStart
  rw [Routine.meets_bind,meets_get]
  dsimp only
  rw [Routine.meets_bind]
  refine (meets_dropRecord h).mono ?_
  rintro r st w ⟨rfl,hnone,h⟩
  dsimp only
  rw [Routine.meets_bind,meets_orExit]
  refine (meets_preparing preparing_createOrReplace h).mono fun r w h => ?_
  cases r with
  | error e => exact h.followsHook
  | ok cid =>
    dsimp only
    rw [Routine.meets_bind,meets_modify]
    exact meets_startCreated h hnone

/-- In every run of `start_container`, a container that is started is left running and recorded just when it
has no hook or its hook succeeds; otherwise a stop is requested for it and the old record is gone too. -/
theorem start_follows_hook (outside : Outside) (pod : PodSpec) (ctr : ContainerSpec) (sandboxId : String) (st : PodRuntimeState) :
    (startContainer pod ctr sandboxId).Meets (starting outside) (FollowsHook outside ctr) st {} := by
  unfold startContainer
  rw [Routine.meets_bind,meets_orExit]
  refine (meets_preparing (uses_ask (show Preparing (.ensureImage ctr.image) from trivial)) (show Unstarted {} from rfl)).mono fun r w h => ?_
  cases r with
  | error e => exact h.followsHook
  | ok imageId =>
    dsimp only
    rw [Routine.meets_bind,meets_orExit]
    refine (meets_preparing (uses_ask (show Preparing (.prepareContainer ctr) from trivial)) h).mono fun r w h => ?_
    cases r with
    | error e => exact h.followsHook
    | ok msg =>
      cases msg with
      | none => exact meets_createAndStart h
      | some msg => exact h.followsHook

end Starting

end KubeAir.Worker.LifecycleHooks
