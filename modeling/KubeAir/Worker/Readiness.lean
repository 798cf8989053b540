import KubeAir.Adapters.StatusPatch
import KubeAir.Worker.PodStatusUpdate

/-! # Agreement about readiness

The status pass stores a readiness flag for each container and derives the condition of
the pod, and the reporter sends a flag of its own. What the runtime, the probes and the
clock answer during one pass decides whether the three agree.
-/
namespace KubeAir.Worker.Readiness
open Core Transition Program

/-- What a status pass is told, by container ID. -/
structure StatusWorld where
  container : String → Except KubeletError (Option RuntimeContainer)
  readiness : String → Option Bool
  /-- the clock when the container is looked at -/
  readAt : String → Instant

/-- The stored state and the container that was looked at last. -/
structure Observed where
  stored : Option PodLifecycleState := none
  asked : String := ""

/-- What the calls of a status pass return; the wall clock and the messages are arbitrary. -/
def StatusWorld.Answers (world : StatusWorld) (w : Observed) : (op : Request) → op.Answer → Observed → Prop
  | .containerStatus .report cid, ans, w' => ans = world.container cid ∧ w' = { w with asked := cid }
  | .containerReadiness cid, ans, w' => ans = world.readiness cid ∧ w' = w
  | .instant, ans, w' => ans = world.readAt w.asked ∧ w' = w
  | .getStatus, ans, w' => ans = w.stored ∧ w' = w
  | .setStatus st, _, w' => w' = { w with stored := some st }
  | _, _, w' => w' = w

def StatusWorld.contract (world : StatusWorld) : Contract Request Request.Answer Observed where
  drift := Eq
  allowed _ _ := True
  answers := world.Answers

/-! ## What the inputs say about a container -/

section Inputs
variable (world : StatusWorld) (pod : PodSpec) (state : PodRuntimeState) (ctr : ContainerSpec)

/-- The recorded container of that name, as the runtime describes it. -/
def found : Option (String × RuntimeContainer) :=
  (state.containerIds.lookup ctr.name).bind fun cid =>
    match world.container cid with
    | .ok (some s) => some (cid,s)
    | _ => none

def runs : Bool := (found world state ctr).any (fun f => f.2.state = .running)

/-- The readiness probe, if there is one, has succeeded. -/
def probePasses (cid : String) : Bool := !ctr.readinessProbe.isSome || (world.readiness cid).getD false

def runsReady : Bool := (found world state ctr).any (fun f => f.2.state = .running && probePasses world ctr f.1)

/-- The container was started less than 800 ms before it is looked at. -/
def startedJustNow (cid : String) : Bool :=
  (state.recentlyStarted.lookup ctr.name).any (fun t => world.readAt cid - t < 800 * 10 ^ 6)

def exitedEarly : Bool :=
  (found world state ctr).any (fun f => f.2.state = .exited && startedJustNow world state ctr f.1)

/-- The container exited with code 0 and no restart is being waited for. -/
def completed : Bool :=
  ctr.name ∉ state.crashLoopBackoff &&
    (found world state ctr).any (fun f => f.2.state = .exited && f.2.exitCode.getD (-1) = 0)

def initReady : Bool :=
  completed world state ctr || isSidecarInitContainer ctr && runsReady world state ctr

/-- The inputs for which the flags agree: what runs is ready, nothing has exited early, no
ephemeral container runs, and no sidecar is missing when the app containers are ready. -/
structure ReadinessKept : Prop where
  apps : ∀ ctr ∈ pod.containers,
    exitedEarly world state ctr = false ∧ (runs world state ctr = true → runsReady world state ctr = true)
  inits : ∀ ctr ∈ pod.initContainers, runs world state ctr = true → initReady world state ctr = true
  ephemerals : ∀ ctr ∈ pod.ephemeralContainers, runs world state ctr = false
  sidecars : (∀ ctr ∈ pod.containers, runsReady world state ctr = true) →
    ∀ ctr ∈ pod.initContainers, isSidecarInitContainer ctr = true → initReady world state ctr = true

end Inputs

/-- Each container has its status, which is ready if `P` asks for it. -/
def AllReady (P : ContainerSpec → Bool) : List ContainerSpec → List ContainerStatus → Prop :=
  List.Forall₂ (fun ctr cs => cs.name = ctr.name ∧ (P ctr = true → cs.ready = true))

/-- ContainersReady is True exactly if the app containers and the sidecars are ready, and
the reporter sends the stored flags. -/
structure ReadinessAgrees (pod : PodSpec) (st : PodLifecycleState) : Prop where
  containersReady :
    (st.conditions.find? (fun c => c.conditionType = .containersReady)).map (·.status) = some .true ↔
      AllReady (fun _ => true) pod.containers st.containerStatuses ∧
        AllReady isSidecarInitContainer pod.initContainers st.initContainerStatuses
  reported : ∀ cs ∈ st.containerStatuses ++ st.initContainerStatuses ++ st.ephemeralContainerStatuses,
    (Adapters.lifecycleContainerStatusToK8s cs).ready = cs.ready

/-! ## The statuses that a pass derives -/

/-- A status that shows the container as running and as ready or not. -/
structure Shows (running ready : Bool) (ctr : ContainerSpec) (cs : ContainerStatus) : Prop where
  name : cs.name = ctr.name
  running : cs.state.isRunning = running
  ready : cs.ready = ready

section Pass
variable {world : StatusWorld} {pod : PodSpec} {state : PodRuntimeState} {ctr : ContainerSpec} {w : Observed}

theorem meets_ask {op : Request} {Q : op.Answer → Observed → Prop} :
    (ask op).Meets world.contract Q w ↔ ∀ ans w', world.Answers w op ans w' → Q ans w' := by
  constructor
  · intro h ans w' hans
    exact (h w rfl).2 ans w' hans
  · intro h w' hw
    obtain rfl : w = w' := hw
    exact ⟨trivial,h⟩

theorem meets_now : now.Meets world.contract (fun _ w' => w' = w) w :=
  meets_ask.mpr fun _ _ h => h

theorem meets_orNow (t : Option DateTime) : (orNow t).Meets world.contract (fun _ w' => w' = w) w := by
  cases t with
  | some t => exact rfl
  | none => exact meets_now

theorem meets_probeReady (cid : String) :
    (probeReady ctr cid).Meets world.contract (fun r w' => r = probePasses world ctr cid ∧ w' = w) w := by
  unfold probeReady probePasses
  split
  · next h =>
    rw [meets_bind]
    refine meets_ask.mpr ?_
    rintro ans w' ⟨rfl,rfl⟩
    rw [h]
    exact ⟨rfl,rfl⟩
  · next h =>
    rw [Bool.not_eq_true] at h
    rw [h]
    exact ⟨rfl,rfl⟩

theorem meets_justStarted : (justStarted state ctr.name).Meets world.contract
    (fun r w' => r = startedJustNow world state ctr w.asked ∧ w' = w) w := by
  unfold justStarted startedJustNow
  cases state.recentlyStarted.lookup ctr.name with
  | none => exact ⟨rfl,rfl⟩
  | some t =>
    dsimp only
    rw [meets_bind]
    refine meets_ask.mpr ?_
    rintro ans w' ⟨rfl,rfl⟩
    exact ⟨rfl,rfl⟩

/-- The state and the flag of an app container that the runtime knows. -/
theorem meets_appContainerState {cid : String} {s : RuntimeContainer} (hfound : found world state ctr = some (cid,s))
    (hasked : w.asked = cid) : (appContainerState state ctr cid s).Meets world.contract
      (fun r w' => r.1.isRunning = (runs world state ctr || exitedEarly world state ctr) ∧
        r.2 = runsReady world state ctr ∧ w' = w) w := by
  unfold appContainerState runs exitedEarly runsReady
  rw [hfound]
  cases hs : s.state with
  | running =>
    dsimp only
    rw [meets_bind]
    refine (meets_probeReady cid).mono ?_
    rintro ready w' ⟨rfl,rfl⟩
    rw [meets_bind]
    refine (meets_orNow s.startedAt).mono ?_
    rintro t w'' rfl
    simp [hs,ContainerState.isRunning]
  | exited =>
    dsimp only
    rw [meets_bind]
    refine meets_now.mono ?_
    rintro t w' rfl
    rw [meets_bind]
    refine meets_justStarted.mono ?_
    rintro early w'' ⟨hearly,rfl⟩
    rw [hasked] at hearly
    cases early with
    | true =>
      rw [if_pos rfl,meets_bind]
      refine (meets_orNow s.startedAt).mono ?_
      rintro t w' rfl
      simp [hs,← hearly,ContainerState.isRunning]
    | false =>
      rw [if_neg Bool.false_ne_true]
      split
      · simp [hs,← hearly,crashLoopState,ContainerState.isRunning]
      · rw [meets_bind]
        refine meets_ask.mpr ?_
        rintro message w' rfl
        simp [hs,← hearly,terminatedState,ContainerState.isRunning]
  | created | unknown => simp [hs,ContainerState.isRunning]

theorem found_eq_none_of_lookup (h : state.containerIds.lookup ctr.name = none) : found world state ctr = none := by
  unfold found
  rw [h]
  rfl

theorem found_of_ok {cid : String} {s : RuntimeContainer} (h : state.containerIds.lookup ctr.name = some cid)
    (hs : world.container cid = .ok (some s)) : found world state ctr = some (cid,s) := by
  unfold found
  rw [h,Option.bind_some,hs]

theorem found_of_not_ok {cid : String} (h : state.containerIds.lookup ctr.name = some cid)
    (hother : ∀ s, world.container cid = .ok (some s) → False) : found world state ctr = none := by
  unfold found
  rw [h,Option.bind_some]
  split
  · next s hs => exact (hother s hs).elim
  · rfl

theorem lookup_of_found {f : String × RuntimeContainer} (h : found world state ctr = some f) :
    state.containerIds.lookup ctr.name = some f.1 := by
  obtain ⟨cid,hcid,hf⟩ := Option.bind_eq_some_iff.mp h
  split at hf
  · obtain rfl := Option.some.inj hf
    exact hcid
  · cases hf

theorem unrecordedState_isRunning (done : Bool) : (unrecordedState state ctr.name done).isRunning = false := by
  unfold unrecordedState
  split <;> rfl

theorem meets_observeAppContainer (done : Bool) : (observeAppContainer state done ctr).Meets world.contract
    (fun r w' => r.1.isRunning = (runs world state ctr || exitedEarly world state ctr) ∧
      r.2.1 = runsReady world state ctr ∧ w'.stored = w.stored) w := by
  unfold observeAppContainer
  cases hlookup : state.containerIds.lookup ctr.name with
  | none =>
    unfold runs exitedEarly runsReady
    rw [found_eq_none_of_lookup hlookup]
    exact ⟨unrecordedState_isRunning done,rfl,rfl⟩
  | some cid =>
    dsimp only
    rw [meets_bind]
    refine meets_ask.mpr ?_
    rintro ans w' ⟨rfl,rfl⟩
    split
    · next s hs =>
      rw [meets_bind]
      refine (meets_appContainerState (found_of_ok hlookup hs) rfl).mono ?_
      rintro r w' ⟨hrunning,hready,rfl⟩
      exact ⟨hrunning,hready,rfl⟩
    · next hother =>
      unfold runs exitedEarly runsReady
      rw [found_of_not_ok hlookup hother]
      exact ⟨rfl,rfl,rfl⟩

theorem meets_appContainerStatus (previous : List ContainerStatus) (done : Bool) :
    (appContainerStatus state previous done ctr).Meets world.contract
      (fun cs w' => Shows (runs world state ctr || exitedEarly world state ctr) (runsReady world state ctr) ctr cs ∧
        w'.stored = w.stored) w := by
  unfold appContainerStatus
  rw [meets_bind]
  refine (meets_observeAppContainer done).mono ?_
  rintro ⟨current,ready,imageId⟩ w' ⟨hrunning,hready,hstored⟩
  exact ⟨⟨rfl,hrunning,hready⟩,hstored⟩

/-- The state of an init container that the runtime knows. -/
theorem meets_initContainerState {cid : String} {s : RuntimeContainer} (hfound : found world state ctr = some (cid,s)) :
    (initContainerState state ctr s).Meets world.contract
      (fun r w' => r.isRunning = runs world state ctr ∧ r.isSucceeded = completed world state ctr ∧ w' = w) w := by
  unfold initContainerState runs completed
  rw [hfound]
  cases hs : s.state with
  | running =>
    dsimp only
    rw [meets_bind]
    refine (meets_orNow s.startedAt).mono ?_
    rintro t w' rfl
    simp [hs,ContainerState.isRunning]
  | exited =>
    dsimp only
    rw [meets_bind]
    refine meets_now.mono ?_
    rintro t w' rfl
    split
    · next hwaits => simp [hs,hwaits,crashLoopState,ContainerState.isRunning]
    · next hends => simp [hs,hends,terminatedState,ContainerState.isRunning,beq_eq_decide]
  | created | unknown => simp [hs,ContainerState.isRunning]

theorem meets_observeInitContainer (before : List ContainerStatus) :
    (observeInitContainer pod state before ctr).Meets world.contract
      (fun r w' => r.1.isRunning = runs world state ctr ∧ r.1.isSucceeded = completed world state ctr ∧
        w'.stored = w.stored) w := by
  unfold observeInitContainer
  cases hlookup : state.containerIds.lookup ctr.name with
  | none =>
    unfold runs completed
    rw [found_eq_none_of_lookup hlookup]
    refine ⟨unrecordedState_isRunning _,?_,rfl⟩
    dsimp only
    unfold unrecordedState
    split <;> simp
  | some cid =>
    dsimp only
    rw [meets_bind]
    refine meets_ask.mpr ?_
    rintro ans w' ⟨rfl,rfl⟩
    split
    · next s hs =>
      rw [meets_bind]
      refine (meets_initContainerState (found_of_ok hlookup hs)).mono ?_
      rintro r w' ⟨hrunning,hsucceeded,rfl⟩
      exact ⟨hrunning,hsucceeded,rfl⟩
    · next hother =>
      unfold runs completed
      rw [found_of_not_ok hlookup hother]
      simp [ContainerState.isRunning]

/-- A running container has been found, so its flag is the one of the probe. -/
theorem runsReady_of_lookup {cid : String} (hlookup : state.containerIds.lookup ctr.name = some cid)
    (hruns : runs world state ctr = true) : runsReady world state ctr = probePasses world ctr cid := by
  unfold runs at hruns
  unfold runsReady
  cases hs : found world state ctr with
  | none =>
    rw [hs] at hruns
    cases hruns
  | some f =>
    have hcid : cid = f.1 := Option.some.inj (hlookup.symm.trans (lookup_of_found hs))
    rw [hs] at hruns
    simp only [Option.any_some] at hruns ⊢
    rw [hruns,hcid,Bool.true_and]

theorem meets_initContainerReady {current : ContainerState} (hrunning : current.isRunning = runs world state ctr)
    (hsucceeded : current.isSucceeded = completed world state ctr) :
    (initContainerReady state ctr current).Meets world.contract
      (fun r w' => r = initReady world state ctr ∧ w' = w) w := by
  have hready : runs world state ctr = false → runsReady world state ctr = false := by
    intro h
    unfold runs at h
    unfold runsReady
    cases hs : found world state ctr with
    | none => rfl
    | some f =>
      rw [hs] at h
      simp only [Option.any_some] at h ⊢
      rw [h,Bool.false_and]
  unfold initContainerReady initReady
  rw [hsucceeded,hrunning]
  cases hcompleted : completed world state ctr with
  | true => exact ⟨rfl,rfl⟩
  | false =>
    cases hruns : runs world state ctr with
    | false =>
      rw [hready hruns,Bool.and_false]
      exact ⟨rfl,rfl⟩
    | true =>
      cases hsidecar : isSidecarInitContainer ctr with
      | false => exact ⟨rfl,rfl⟩
      | true =>
        cases hlookup : state.containerIds.lookup ctr.name with
        | none =>
          unfold runs at hruns
          rw [found_eq_none_of_lookup hlookup] at hruns
          cases hruns
        | some cid =>
          rw [runsReady_of_lookup hlookup hruns]
          exact meets_probeReady cid

theorem meets_initContainerStatus (previous before : List ContainerStatus) :
    (initContainerStatus pod state previous before ctr).Meets world.contract
      (fun cs w' => Shows (runs world state ctr) (initReady world state ctr) ctr cs ∧ w'.stored = w.stored) w := by
  unfold initContainerStatus
  rw [meets_bind]
  refine (meets_observeInitContainer before).mono ?_
  rintro ⟨current,imageId⟩ w' ⟨hrunning,hsucceeded,hstored⟩
  rw [meets_bind]
  refine (meets_initContainerReady hrunning hsucceeded).mono ?_
  rintro ready w'' ⟨hready,rfl⟩
  exact ⟨⟨rfl,hrunning,hready⟩,hstored⟩

theorem meets_initContainerStatuses (previous before : List ContainerStatus) (ctrs : List ContainerSpec) :
    (initContainerStatuses pod state previous before ctrs).Meets world.contract
      (fun statuses w' => (∃ rest, statuses = before ++ rest ∧
          List.Forall₂ (fun ctr => Shows (runs world state ctr) (initReady world state ctr) ctr) ctrs rest) ∧
        w'.stored = w.stored) w := by
  induction ctrs generalizing before w with
  | nil => exact ⟨⟨[],(List.append_nil before).symm,.nil⟩,rfl⟩
  | cons ctr ctrs ih =>
    unfold initContainerStatuses
    rw [meets_bind]
    refine (meets_initContainerStatus previous before).mono ?_
    rintro status w' ⟨hshows,hstored⟩
    refine (ih (before ++ [status])).mono ?_
    rintro statuses w'' ⟨⟨rest,rfl,hrest⟩,hstored'⟩
    exact ⟨⟨status :: rest,List.append_assoc before [status] rest,.cons hshows hrest⟩,hstored'.trans hstored⟩

theorem meets_ephemeralContainerStatus : (ephemeralContainerStatus state ctr).Meets world.contract
    (fun cs w' => Shows (runs world state ctr) false ctr cs ∧ w'.stored = w.stored) w := by
  have hobserve : (observeEphemeralContainer state ctr).Meets world.contract
      (fun r w' => r.1.isRunning = runs world state ctr ∧ w'.stored = w.stored) w := by
    unfold observeEphemeralContainer runs
    cases hlookup : state.containerIds.lookup ctr.name with
    | none =>
      rw [found_eq_none_of_lookup hlookup]
      exact ⟨rfl,rfl⟩
    | some cid =>
      dsimp only
      rw [meets_bind]
      refine meets_ask.mpr ?_
      rintro ans w' ⟨rfl,rfl⟩
      split
      · next s hs =>
        rw [found_of_ok hlookup hs,meets_bind]
        unfold ephemeralContainerState
        cases hstate : s.state with
        | running =>
          dsimp only
          rw [meets_bind]
          refine (meets_orNow s.startedAt).mono ?_
          rintro t w' rfl
          simp [hstate,ContainerState.isRunning]
        | exited =>
          dsimp only
          rw [meets_bind]
          refine meets_now.mono ?_
          rintro t w' rfl
          simp [hstate,terminatedState,ContainerState.isRunning]
        | created | unknown => simp [hstate,ContainerState.isRunning]
      · next hother =>
        rw [found_of_not_ok hlookup hother]
        exact ⟨rfl,rfl⟩
  unfold ephemeralContainerStatus
  rw [meets_bind]
  refine hobserve.mono ?_
  rintro ⟨current,imageId⟩ w' ⟨hrunning,hstored⟩
  exact ⟨⟨rfl,hrunning,rfl⟩,hstored⟩

end Pass
/-! ## What the statuses say -/

section Statuses
variable {ctrs : List ContainerSpec} {l : List ContainerStatus} {running ready : ContainerSpec → Bool}

theorem reported_ready (cs : ContainerStatus) :
    (Adapters.lifecycleContainerStatusToK8s cs).ready = (cs.ready || cs.state.isRunning) := by
  unfold Adapters.lifecycleContainerStatusToK8s
  cases cs.state <;> rfl

theorem reported_iff (h : List.Forall₂ (fun ctr => Shows (running ctr) (ready ctr) ctr) ctrs l) :
    (∀ cs ∈ l, (Adapters.lifecycleContainerStatusToK8s cs).ready = cs.ready) ↔
      ∀ ctr ∈ ctrs, running ctr = true → ready ctr = true := by
  induction h with
  | nil => exact iff_of_true (List.forall_mem_nil _) (List.forall_mem_nil _)
  | cons hshows _ ih =>
    rw [List.forall_mem_cons,List.forall_mem_cons,ih,reported_ready,hshows.ready,hshows.running]
    simp

theorem allReady_iff {P : ContainerSpec → Bool}
    (h : List.Forall₂ (fun ctr => Shows (running ctr) (ready ctr) ctr) ctrs l) :
    AllReady P ctrs l ↔ ∀ ctr ∈ ctrs, P ctr = true → ready ctr = true := by
  unfold AllReady
  induction h with
  | nil => exact iff_of_true .nil (List.forall_mem_nil _)
  | cons hshows _ ih =>
    rw [List.forall₂_cons,List.forall_mem_cons,ih,hshows.ready]
    simp only [hshows.name,true_and]

theorem all_ready_iff (h : List.Forall₂ (fun ctr => Shows (running ctr) (ready ctr) ctr) ctrs l) :
    l.all (·.ready) = true ↔ ∀ ctr ∈ ctrs, ready ctr = true := by
  induction h with
  | nil => exact iff_of_true rfl (List.forall_mem_nil _)
  | cons hshows _ ih =>
    rw [List.forall_mem_cons,List.all_cons,Bool.and_eq_true,ih,hshows.ready]

/-- Without a running container that is not ready the sidecars are not in the way. -/
theorem sidecarsReady_of_reported {pod : PodSpec}
    (h : ∀ cs ∈ l, (Adapters.lifecycleContainerStatusToK8s cs).ready = cs.ready) : sidecarsReady pod l = true := by
  unfold sidecarsReady
  rw [List.all_eq_true]
  intro cs hcs
  have hready := h cs hcs
  rw [reported_ready] at hready
  cases hflag : cs.ready with
  | true => rfl
  | false =>
    rw [hflag,Bool.false_or] at hready
    rw [hready,Bool.and_false]
    rfl

end Statuses

section Conditions
variable {conditions : List PodCondition} {t t' : PodConditionType} {f : PodCondition → PodCondition}

theorem find?_modifyCondition_ne (h : t' ≠ t) (hf : ∀ c, c.conditionType = t → (f c).conditionType = t) :
    (modifyCondition t f conditions).find? (fun c => c.conditionType = t') =
      conditions.find? (fun c => c.conditionType = t') := by
  induction conditions with
  | nil => rfl
  | cons c conditions ih =>
    unfold modifyCondition
    by_cases hc : c.conditionType = t
    · rw [if_pos hc,List.find?_cons_of_neg,List.find?_cons_of_neg]
      · rw [decide_eq_true_iff,hc]
        exact h.symm
      · rw [decide_eq_true_iff,hf c hc]
        exact h.symm
    · rw [if_neg hc,List.find?_cons,List.find?_cons,ih]

theorem find?_putCondition_self (c : PodCondition) :
    (putCondition c conditions).find? (fun d => d.conditionType = c.conditionType) = some c := by
  unfold putCondition
  induction conditions with
  | nil => simp
  | cons d conditions ih =>
    by_cases hd : d.conditionType = c.conditionType
    · simp [modifyCondition,hd]
    · rw [List.any_cons,decide_eq_false hd,Bool.false_or]
      split
      · next hany =>
        rw [if_pos hany] at ih
        unfold modifyCondition
        rw [if_neg hd,List.find?_cons_of_neg (by simpa using hd)]
        exact ih
      · next hany =>
        rw [if_neg hany] at ih
        rw [List.cons_append,List.find?_cons_of_neg (by simpa using hd)]
        exact ih

theorem find?_putCondition_ne {c : PodCondition} (h : t ≠ c.conditionType) :
    (putCondition c conditions).find? (fun d => d.conditionType = t) =
      conditions.find? (fun d => d.conditionType = t) := by
  unfold putCondition
  split
  · exact find?_modifyCondition_ne h (fun _ _ => rfl)
  · rw [List.find?_append,List.find?_cons_of_neg (by simpa using h.symm),List.find?_nil,Option.or_none]

end Conditions

theorem containersReady_derivedState (pod : PodSpec) (ls : PodLifecycleState)
    (inits apps ephemerals : List ContainerStatus) (now : DateTime) :
    ((derivedState pod ls inits apps ephemerals now).conditions.find?
        (fun c => c.conditionType = .containersReady)).map (·.status) = some .true ↔
      sidecarsReady pod inits = true ∧ apps.all (·.ready) = true := by
  unfold derivedState
  dsimp only
  rw [find?_putCondition_ne (by simp [readyCondition])]
  have hself (ready : Bool) (conditions : List PodCondition) :
      (putCondition (readyCondition .containersReady ready now) conditions).find?
        (fun c => c.conditionType = .containersReady) = some (readyCondition .containersReady ready now) :=
    find?_putCondition_self (readyCondition .containersReady ready now)
  rw [hself,Option.map_some,← Bool.and_eq_true]
  unfold readyCondition
  cases sidecarsReady pod inits && apps.all (·.ready) <;> simp

section Agreement
variable {world : StatusWorld} {pod : PodSpec} {state : PodRuntimeState} {ctr : ContainerSpec}

theorem not_runsReady_of_exitedEarly (h : exitedEarly world state ctr = true) : runsReady world state ctr = false := by
  unfold exitedEarly at h
  unfold runsReady
  cases hs : found world state ctr with
  | none => rfl
  | some f =>
    rw [hs] at h
    simp only [Option.any_some,Bool.and_eq_true,decide_eq_true_eq] at h ⊢
    simp [h.1]

/-- The flags that follow from given statuses agree exactly when the inputs keep them. -/
theorem agrees_iff {ls : PodLifecycleState} {inits apps ephemerals : List ContainerStatus} {now : DateTime}
    (hinits : List.Forall₂ (fun ctr => Shows (runs world state ctr) (initReady world state ctr) ctr)
      pod.initContainers inits)
    (happs : List.Forall₂
      (fun ctr => Shows (runs world state ctr || exitedEarly world state ctr) (runsReady world state ctr) ctr)
      pod.containers apps)
    (hephemerals : List.Forall₂ (fun ctr => Shows (runs world state ctr) false ctr)
      pod.ephemeralContainers ephemerals) :
    ReadinessAgrees pod (derivedState pod ls inits apps ephemerals now) ↔ ReadinessKept world pod state := by
  have hinitsreported := reported_iff hinits
  have happsreported := reported_iff happs
  have hephemeralsreported := reported_iff hephemerals
  have happsready := all_ready_iff happs
  constructor
  · rintro ⟨hcondition,hreported⟩
    change ∀ cs ∈ apps ++ inits ++ ephemerals, _ at hreported
    rw [List.forall_mem_append,List.forall_mem_append] at hreported
    obtain ⟨⟨hreportedapps,hreportedinits⟩,hreportedephemerals⟩ := hreported
    rw [containersReady_derivedState] at hcondition
    refine ⟨?_,hinitsreported.mp hreportedinits,?_,?_⟩
    · intro ctr hctr
      have hctrready := happsreported.mp hreportedapps ctr hctr
      constructor
      · by_contra hearly
        rw [Bool.not_eq_false] at hearly
        rw [not_runsReady_of_exitedEarly hearly,hearly,Bool.or_true] at hctrready
        exact Bool.false_ne_true (hctrready rfl)
      · intro hruns
        exact hctrready (by rw [hruns,Bool.true_or])
    · intro ctr hctr
      by_contra hruns
      rw [Bool.not_eq_false] at hruns
      exact Bool.false_ne_true (hephemeralsreported.mp hreportedephemerals ctr hctr hruns)
    · intro hready
      have hboth := hcondition.mp ⟨sidecarsReady_of_reported hreportedinits,happsready.mpr hready⟩
      exact (allReady_iff hinits).mp hboth.2
  · intro hkept
    have hreportedinits := hinitsreported.mpr hkept.inits
    have hreportedapps : ∀ cs ∈ apps, (Adapters.lifecycleContainerStatusToK8s cs).ready = cs.ready := by
      refine happsreported.mpr ?_
      intro ctr hctr hshown
      obtain ⟨hearly,hready⟩ := hkept.apps ctr hctr
      rw [hearly,Bool.or_false] at hshown
      exact hready hshown
    have hreportedephemerals : ∀ cs ∈ ephemerals, (Adapters.lifecycleContainerStatusToK8s cs).ready = cs.ready := by
      refine hephemeralsreported.mpr ?_
      intro ctr hctr hruns
      rw [hkept.ephemerals ctr hctr] at hruns
      cases hruns
    constructor
    · rw [containersReady_derivedState]
      change _ ↔ AllReady _ pod.containers apps ∧ AllReady _ pod.initContainers inits
      rw [happsready,allReady_iff happs,allReady_iff hinits]
      constructor
      · rintro ⟨-,hready⟩
        exact ⟨fun ctr hctr _ => hready ctr hctr,hkept.sidecars hready⟩
      · rintro ⟨hready,-⟩
        exact ⟨sidecarsReady_of_reported hreportedinits,fun ctr hctr => hready ctr hctr rfl⟩
    · change ∀ cs ∈ apps ++ inits ++ ephemerals, _
      rw [List.forall_mem_append,List.forall_mem_append]
      exact ⟨⟨hreportedapps,hreportedinits⟩,hreportedephemerals⟩

end Agreement

/-- The state that a status pass stores agrees about readiness exactly when the inputs of the
pass keep it, whatever the clocks and the messages are. -/
theorem readiness_agrees (world : StatusWorld) (pod : PodSpec) (state : PodRuntimeState) (w : Observed) :
    (updatePodStatus pod state).Meets world.contract
      (fun _ w' => ∃ st, w'.stored = some st ∧ (ReadinessAgrees pod st ↔ ReadinessKept world pod state)) w := by
  unfold updatePodStatus
  rw [meets_bind]
  refine meets_ask.mpr ?_
  rintro ls w' ⟨rfl,rfl⟩
  rw [meets_bind]
  refine (meets_initContainerStatuses _ [] pod.initContainers).mono ?_
  rintro inits w₁ ⟨⟨inits',rfl,hinits⟩,-⟩
  rw [meets_bind]
  refine (Meets.forList_forall₂ (I := fun _ => True)
    (fun ctr _ w _ => (meets_appContainerStatus _ _).mono (fun _ _ h => ⟨h.1,trivial⟩)) trivial).mono ?_
  rintro apps w₂ ⟨happs,-⟩
  rw [meets_bind]
  refine (Meets.forList_forall₂ (I := fun _ => True)
    (fun ctr _ w _ => meets_ephemeralContainerStatus.mono (fun _ _ h => ⟨h.1,trivial⟩)) trivial).mono ?_
  rintro ephemerals w₃ ⟨hephemerals,-⟩
  rw [meets_bind]
  refine meets_now.mono ?_
  rintro now w₄ rfl
  refine meets_ask.mpr ?_
  rintro ans w₅ rfl
  exact ⟨_,rfl,agrees_iff hinits happs hephemerals⟩

/-! ## A pass that breaks the agreement -/

/-- One way to answer every call. -/
def StatusWorld.reply (world : StatusWorld) (w : Observed) : (op : Request) → op.Answer × Observed
  | .containerStatus .report cid => (world.container cid,{ w with asked := cid })
  | .containerReadiness cid => (world.readiness cid,w)
  | .instant => (world.readAt w.asked,w)
  | .getStatus => (w.stored,w)
  | .setStatus st => ((),{ w with stored := some st })
  | .now => (0,w)
  | .sleep _ | .pause _ | .runPreStop .. | .forgetProbes _ | .spawnProbe .. => ((),w)
  | .ensurePodVolumes _ | .unmountPodVolumes | .stopPodSandbox _ | .removePodSandbox _ | .startContainer _
  | .stopContainer .. | .removeContainer _ | .updateContainerResources .. | .runPostStart .. | .reportPodStatus _ =>
    (.ok (),w)
  | .ensureImage _ | .runPodSandbox _ | .createContainer _ => (.ok "",w)
  | .listPodSandboxes | .listContainers _ => (.ok [],w)
  | .prepareContainer _ | .podSandboxStatus _ | .containerStatus .decision _ => (.ok none,w)
  | .containerStartupDone _ | .readTerminationMessage .. => (none,w)

theorem answers_reply (world : StatusWorld) (w : Observed) (op : Request) :
    world.contract.answers w op (world.reply w op).1 (world.reply w op).2 := by
  cases op with
  | containerStatus site cid => cases site <;> simp [StatusWorld.contract,StatusWorld.Answers,StatusWorld.reply]
  | _ => simp [StatusWorld.contract,StatusWorld.Answers,StatusWorld.reply]

/-- One container with a readiness probe. -/
def probedPod : PodSpec where
  uid := ⟨"web"⟩
  podRef := { ns := "default", name := "web" }
  containers := [{ name := "app", readinessProbe := some ⟨.tcpSocket 80 none,0,10,1,1,3⟩ }]

def probedState : PodRuntimeState := { containerIds := (∅ : HashMap String String).insert "app" "c1" }

/-- The container runs and its probe fails. -/
def failingProbe : StatusWorld where
  container cid := .ok (some { id := cid, podUid := "web", name := "app", state := .running })
  readiness _ := some false
  readAt _ := 0

/-- The reporter sends a running container as ready although its readiness probe fails. -/
theorem not_readinessAgrees : ¬ (updatePodStatus probedPod probedState).Meets failingProbe.contract
    (fun _ w => ∃ st, w.stored = some st ∧ ReadinessAgrees probedPod st) {} := by
  intro h
  obtain ⟨st,hstored,hagrees⟩ := h.run failingProbe.reply (fun _ => rfl) (answers_reply failingProbe)
  have hrun : (((updatePodStatus probedPod probedState).run failingProbe.reply {}).2.stored.map fun st =>
      st.containerStatuses.map (fun cs => ((Adapters.lifecycleContainerStatusToK8s cs).ready,cs.ready))) =
        some [(true,false)] := by
    decide +kernel
  rw [hstored,Option.map_some] at hrun
  have hflags := Option.some.inj hrun
  cases hstatuses : st.containerStatuses with
  | nil =>
    rw [hstatuses] at hflags
    cases hflags
  | cons cs rest =>
    rw [hstatuses] at hflags
    obtain ⟨hreported,hready⟩ := Prod.mk.inj (List.cons.inj hflags).1
    have hsame := hagrees.reported cs (by rw [hstatuses]; simp)
    rw [hreported,hready] at hsame
    cases hsame

end KubeAir.Worker.Readiness
