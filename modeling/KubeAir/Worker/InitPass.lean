import KubeAir.Worker.InitOrder
import KubeAir.Worker.KnownContainers
import KubeAir.Worker.SyncFrame

/-! # A pass keeps the order of the init containers

Each pass walks the list of the init containers from the start. Where the answers show how
far they are, a container is started only when the history permits it.
-/
namespace KubeAir.Worker
open Core Transition Program Routine

variable (pod : PodSpec)

/-! ## The contract -/

/-- Nothing happens between two calls, the answers show the progress of the init containers, and a
container is started only if the history permits it. -/
def orderContract : Contract Request Request.Answer InitHistory where
  drift h h' := h' = h
  allowed h op :=
    match op with
    | .startContainer id => ∀ name sandboxId, h.made.lookup id = some (name,sandboxId) →
        MayStart pod name sandboxId h.log
    | _ => True
  answers h op a h' := ShowsProgress pod h op a ∧ h' = h.note op a

variable {pod} {h h' : InitHistory} {l : List ContainerSpec} {ids : HashMap String String} {st : PodRuntimeState}
  {ctr : ContainerSpec} {sandboxId name id : String} {α β ε : Type}

theorem InitHistory.note_of_aside {op : Request} (hop : op.Aside) (a : op.Answer) : h.note op a = h := by
  cases op with
  | createContainer | startContainer => exact hop.elim
  | containerStatus site _ | listContainers site =>
    cases site <;> first | exact hop.elim | rfl
  | _ => rfl

/-- A single call, and what its answer shows. -/
theorem order_ask {op : Request} {Q : op.Answer → InitHistory → Prop} (hallowed : (orderContract pod).allowed h op)
    (hQ : ∀ a, ShowsProgress pod h op a → Q a (h.note op a)) : (ask op).Meets (orderContract pod) Q h := by
  refine Program.meets_request (P := fun w => w = h) rfl (fun _ _ hw hd => Eq.trans hd hw) ?_
  rintro _ rfl
  refine ⟨hallowed,?_⟩
  rintro a _ ⟨hshown,rfl⟩
  exact hQ a hshown

theorem order_aside (w : InitHistory) (op : Request) (hw : w = h) (hop : op.Aside) :
    (orderContract pod).allowed w op ∧ ∀ a w', (orderContract pod).answers w op a w' → w' = h := by
  subst hw
  refine ⟨?_,?_⟩
  · cases op with
    | startContainer => exact hop.elim
    | _ => trivial
  · rintro a _ ⟨-,rfl⟩
    exact InitHistory.note_of_aside hop a

theorem order_of_uses {q : WorkerM α} (hq : q.Uses Request.Aside) :
    q.Meets (orderContract pod) (fun _ h' => h' = h) h :=
  (Every.meets (P := fun w => w = h) hq rfl (fun _ _ hw hd => Eq.trans hd hw) order_aside).mono fun _ _ hr => hr.2

/-- A routine that remembers the same containers shows nothing. -/
theorem order_of_inert {m : PassM ε α} (hm : Inert Request.Aside m) :
    m.Meets (orderContract pod) (fun _ st' h' => SameIds st st' ∧ h' = h) st h :=
  Keeps.meets (P := fun w => w = h) hm rfl (fun _ _ hw hd => Eq.trans hd hw) order_aside

/-! ## How far the pass is -/

/-- What the recorded containers say about the init containers in the sandbox. -/
structure Placed (pod : PodSpec) (sandboxId : String) (ids : HashMap String String) (h : InitHistory) : Prop where
  sandbox : h.sandbox = some sandboxId
  recorded : ∀ init ∈ pod.initContainers, ∀ id, ids.lookup init.name = some id →
    h.made.lookup id = some (init.name,sandboxId) ∧
      (isSidecarInitContainer init = true → .started init.name sandboxId ∈ h.log)
  succeeded : ∀ init ∈ pod.initContainers, isSidecarInitContainer init = false →
    .succeeded init.name sandboxId ∈ h.log → (ids.lookup init.name).isSome = true

/-- The init containers of `l` are passed: the regular ones among them are recorded. -/
structure Reached (pod : PodSpec) (l : List ContainerSpec) (sandboxId : String) (st : PodRuntimeState)
    (h : InitHistory) : Prop where
  sandbox : st.sandboxId = some sandboxId
  placed : Placed pod sandboxId st.containerIds h
  passed : ∀ init ∈ l, milestone init sandboxId ∈ h.log
  kept : ∀ init ∈ l, isSidecarInitContainer init = false → (st.containerIds.lookup init.name).isSome = true

theorem Reached.of_sameIds {st' : PodRuntimeState} (hr : Reached pod l sandboxId st h) (hs : SameIds st st') :
    Reached pod l sandboxId st' h := by
  obtain ⟨hsandbox,hids⟩ := hs
  constructor
  · rw [hsandbox,hr.sandbox]
  · rw [hids]
    exact hr.placed
  · exact hr.passed
  · rw [hids]
    exact hr.kept

/-- A container that may start is forgotten. -/
theorem Placed.erase (hp : Placed pod sandboxId ids h) (hmay : MayStart pod name sandboxId h.log) :
    Placed pod sandboxId (ids.erase name) h where
  sandbox := hp.sandbox
  recorded := by
    intro init hinit id hid
    by_cases hname : init.name = name
    · rw [hname,AList.lookup_erase] at hid
      cases hid
    · rw [AList.lookup_erase_ne hname] at hid
      exact hp.recorded init hinit id hid
  succeeded := by
    intro init hinit hregular hsucceeded
    by_cases hname : init.name = name
    · rw [hname] at hsucceeded
      exact (hmay.once init hinit hname hregular hsucceeded).elim
    · rw [AList.lookup_erase_ne hname]
      exact hp.succeeded init hinit hregular hsucceeded

theorem Reached.erase {st' : PodRuntimeState} (hr : Reached pod l sandboxId st h)
    (hmay : MayStart pod name sandboxId h.log) (hne : ∀ init ∈ l, init.name ≠ name)
    (hsandbox : st'.sandboxId = st.sandboxId) (hids : st'.containerIds = st.containerIds.erase name) :
    Reached pod l sandboxId st' h := by
  constructor
  · rw [hsandbox,hr.sandbox]
  · rw [hids]
    exact hr.placed.erase hmay
  · exact hr.passed
  · intro init hinit hregular
    rw [hids,AList.lookup_erase_ne (hne init hinit)]
    exact hr.kept init hinit hregular

/-- A container is made under a new ID. -/
theorem Reached.make (hr : Reached pod l sandboxId st h) (hfresh : h.made.lookup id = none)
    (p : String × String) : Reached pod l sandboxId st { h with made := h.made.insert id p } where
  sandbox := hr.sandbox
  placed := by
    refine ⟨hr.placed.sandbox,?_,hr.placed.succeeded⟩
    intro init hinit id' hid
    obtain ⟨hmade,hstarted⟩ := hr.placed.recorded init hinit id' hid
    refine ⟨?_,hstarted⟩
    have hne : id' ≠ id := by
      rintro rfl
      rw [hfresh] at hmade
      cases hmade
    exact (AList.lookup_insert_ne hne).trans hmade
  passed := hr.passed
  kept := hr.kept

/-- An event is logged that shows no success of a regular init container that is not recorded. -/
theorem Reached.log (hr : Reached pod l sandboxId st h) (e : InitEvent)
    (he : ∀ init ∈ pod.initContainers, isSidecarInitContainer init = false → e = .succeeded init.name sandboxId →
      (st.containerIds.lookup init.name).isSome = true) :
    Reached pod l sandboxId st { h with log := e :: h.log } where
  sandbox := hr.sandbox
  placed := by
    refine ⟨hr.placed.sandbox,?_,?_⟩
    · intro init hinit id hid
      obtain ⟨hmade,hstarted⟩ := hr.placed.recorded init hinit id hid
      exact ⟨hmade,fun hside => List.mem_cons_of_mem e (hstarted hside)⟩
    · intro init hinit hregular hsucceeded
      rcases List.mem_cons.mp hsucceeded with heq | hmem
      · exact he init hinit hregular heq.symm
      · exact hr.placed.succeeded init hinit hregular hmem
  passed := fun init hinit => List.mem_cons_of_mem e (hr.passed init hinit)
  kept := hr.kept

/-- A container that was made for the name and started is recorded. -/
theorem Reached.record {st' : PodRuntimeState} (hr : Reached pod l sandboxId st h)
    (hmade : h.made.lookup id = some (name,sandboxId)) (hstarted : .started name sandboxId ∈ h.log)
    (hsandbox : st'.sandboxId = st.sandboxId) (hids : st'.containerIds = st.containerIds.insert name id) :
    Reached pod l sandboxId st' h := by
  have hsome {n : String} (h : (st.containerIds.lookup n).isSome = true) :
      (st'.containerIds.lookup n).isSome = true := by
    rw [hids]
    by_cases hn : n = name
    · rw [hn,AList.lookup_insert]
      rfl
    · rw [AList.lookup_insert_ne hn]
      exact h
  constructor
  · rw [hsandbox,hr.sandbox]
  · refine ⟨hr.placed.sandbox,?_,fun init hinit hregular hs => hsome (hr.placed.succeeded init hinit hregular hs)⟩
    intro init hinit id' hid
    rw [hids] at hid
    by_cases hname : init.name = name
    · rw [hname,AList.lookup_insert] at hid
      obtain rfl := Option.some.inj hid
      rw [hname]
      exact ⟨hmade,fun _ => hstarted⟩
    · rw [AList.lookup_insert_ne hname] at hid
      exact hr.placed.recorded init hinit id' hid
  · exact hr.passed
  · exact fun init hinit hregular => hsome (hr.kept init hinit hregular)

/-! ## Starting a container -/

theorem order_dropRecord (hr : Reached pod l sandboxId st h) (hmay : MayStart pod name sandboxId h.log)
    (hne : ∀ init ∈ l, init.name ≠ name) : (dropRecord name).Meets (orderContract pod)
      (fun r st' h' => r = .ok () ∧ h' = h ∧ Reached pod l sandboxId st' h') st h := by
  unfold dropRecord
  rw [Routine.meets_bind,Routine.meets_get]
  dsimp only
  split
  · exact ⟨rfl,rfl,hr⟩
  · next old _ =>
    have hremove : (removeContainer old).Uses Request.Aside := uses_ask trivial
    have hforget : (forgetProbes old).Uses Request.Aside := uses_ask trivial
    rw [Routine.meets_bind,Routine.meets_lift]
    refine (order_of_uses hremove).mono ?_
    rintro _ _ rfl
    dsimp only
    rw [Routine.meets_bind,Routine.meets_lift]
    refine (order_of_uses hforget).mono ?_
    rintro _ _ rfl
    exact ⟨rfl,rfl,hr.erase hmay hne rfl rfl⟩

/-- What creating a container for the name leaves. -/
def Makes (pod : PodSpec) (l : List ContainerSpec) (sandboxId name : String) (st : PodRuntimeState)
    (log : List InitEvent) (a : Except KubeletError String) (h : InitHistory) : Prop :=
  Reached pod l sandboxId st h ∧ h.log = log ∧ ∀ id, a = .ok id → h.made.lookup id = some (name,sandboxId)

theorem order_createContainer {config : CreateContainerConfig} (hname : config.container.name = name)
    (hsandbox : config.sandboxId = sandboxId) (hr : Reached pod l sandboxId st h) :
    (createContainer config).Meets (orderContract pod) (Makes pod l sandboxId name st h.log) h := by
  refine order_ask trivial ?_
  intro a hshown
  cases a with
  | error e => exact ⟨hr,rfl,fun id heq => nomatch heq⟩
  | ok id =>
    refine ⟨hr.make hshown _,rfl,?_⟩
    rintro id' heq
    obtain rfl := Except.ok.inj heq
    rw [← hname,← hsandbox]
    exact AList.lookup_insert _

theorem order_createOrReplace {config : CreateContainerConfig} (hname : config.container.name = name)
    (hsandbox : config.sandboxId = sandboxId) (hr : Reached pod l sandboxId st h) :
    (createOrReplace pod ctr config).Meets (orderContract pod) (Makes pod l sandboxId name st h.log) h := by
  unfold createOrReplace
  rw [Program.meets_bind]
  refine (order_createContainer hname hsandbox hr).mono ?_
  rintro a h' ⟨hr',hlog,hmade⟩
  cases a with
  | ok id => exact ⟨hr',hlog,hmade⟩
  | error e =>
    dsimp only
    split
    · rw [Program.meets_bind]
      refine (order_of_uses (aside_cleanupReserved pod ctr _)).mono ?_
      rintro _ _ rfl
      rw [← hlog]
      exact order_createContainer hname hsandbox hr'
    · exact ⟨hr',hlog,hmade⟩

/-- The PostStart hook shows nothing. -/
theorem order_postStart : (postStart ctr id).Meets (orderContract pod) (fun _ st' h' => st' = st ∧ h' = h) st h := by
  unfold postStart
  split
  · exact ⟨rfl,rfl⟩
  · next handler _ =>
    rw [Routine.meets_bind,Routine.meets_lift]
    refine order_ask trivial ?_
    intro a _
    cases a with
    | ok _ => exact ⟨rfl,rfl⟩
    | error e =>
      have hstop : (stopContainer id 0).Uses Request.Aside := uses_ask trivial
      dsimp only
      rw [Routine.meets_bind,Routine.meets_lift]
      exact (order_of_uses hstop).mono fun _ _ hw => ⟨rfl,hw⟩

/-- What starting a container leaves, and what is known when it was started. -/
def Starts (pod : PodSpec) (l : List ContainerSpec) (sandboxId : String) (P : InitHistory → Prop)
    (r : Except KubeletError Unit) (st : PodRuntimeState) (h : InitHistory) : Prop :=
  Reached pod l sandboxId st h ∧ (r = .ok () → P h)

theorem order_startCreated (hr : Reached pod l sandboxId st h) (hmay : MayStart pod ctr.name sandboxId h.log)
    (hmade : h.made.lookup id = some (ctr.name,sandboxId)) : (startCreated ctr id).Meets (orderContract pod)
      (Starts pod l sandboxId (fun h => .started ctr.name sandboxId ∈ h.log)) st h := by
  unfold startCreated
  rw [Routine.meets_bind,Routine.meets_lift]
  refine order_ask ?_ ?_
  · intro name sandboxId' hid
    obtain ⟨rfl,rfl⟩ := Prod.mk.inj (Option.some.inj (hmade.symm.trans hid))
    exact hmay
  · intro a _
    cases a with
    | error e =>
      have hremove : (removeContainer id).Uses Request.Aside := uses_ask trivial
      dsimp only
      rw [Routine.meets_bind,Routine.meets_lift]
      refine (order_of_uses hremove).mono ?_
      rintro _ _ rfl
      exact ⟨hr,fun heq => nomatch heq⟩
    | ok _ =>
      have hnote : h.note (.startContainer id) (.ok ()) =
          { h with log := .started ctr.name sandboxId :: h.log } := by
        change h.logged id .started = _
        unfold InitHistory.logged
        rw [hmade]
      have hstarted := hr.log (.started ctr.name sandboxId) (fun _ _ _ heq => nomatch heq)
      rw [← hnote] at hstarted
      dsimp only
      rw [Routine.meets_bind]
      refine order_postStart.mono ?_
      rintro r _ _ ⟨rfl,rfl⟩
      cases r with
      | error e => exact ⟨hstarted,fun heq => nomatch heq⟩
      | ok _ =>
        have hreport : (reportedStatus id).Uses Request.Aside := uses_ask trivial
        have hinstant : instant.Uses Request.Aside := uses_ask trivial
        dsimp only
        rw [Routine.meets_bind,Routine.meets_lift]
        refine (order_of_uses hreport).mono ?_
        rintro _ _ rfl
        dsimp only
        rw [Routine.meets_bind,Routine.meets_lift]
        refine (order_of_uses hinstant).mono ?_
        rintro _ _ rfl
        have hmem : .started ctr.name sandboxId ∈ (h.note (.startContainer id) (.ok ())).log := by
          rw [hnote]
          exact List.mem_cons_self
        have hmade' : (h.note (.startContainer id) (.ok ())).made.lookup id = some (ctr.name,sandboxId) := by
          rw [hnote]
          exact hmade
        exact ⟨hstarted.record hmade' hmem rfl rfl,fun _ => hmem⟩

theorem order_createAndStart {imageId : String} (hr : Reached pod l sandboxId st h)
    (hmay : MayStart pod ctr.name sandboxId h.log) (hne : ∀ init ∈ l, init.name ≠ ctr.name) :
    (createAndStart pod ctr sandboxId imageId).Meets (orderContract pod)
      (Starts pod l sandboxId (fun h => .started ctr.name sandboxId ∈ h.log)) st h := by
  unfold createAndStart
  rw [Routine.meets_bind,Routine.meets_get]
  dsimp only
  rw [Routine.meets_bind]
  refine (order_dropRecord hr hmay hne).mono ?_
  rintro r st' _ ⟨rfl,rfl,hr'⟩
  dsimp only
  rw [Routine.meets_bind,meets_orExit]
  refine (order_createOrReplace rfl rfl hr').mono ?_
  rintro a h' ⟨hr',hlog,hmade⟩
  cases a with
  | error e => exact ⟨hr',fun heq => nomatch heq⟩
  | ok id =>
    rw [← hlog] at hmay
    exact order_startCreated (hr'.of_sameIds ⟨rfl,rfl⟩) hmay (hmade id rfl)

/-- A start that succeeds has started the container, unless the container cannot be prepared. -/
theorem order_startContainer (hr : Reached pod l sandboxId st h) (hmay : MayStart pod ctr.name sandboxId h.log)
    (hne : ∀ init ∈ l, init.name ≠ ctr.name) : (startContainer pod ctr sandboxId).Meets (orderContract pod)
      (Starts pod l sandboxId (fun h => ∀ init ∈ pod.initContainers, isSidecarInitContainer init = true →
        init.name = ctr.name → .started init.name sandboxId ∈ h.log)) st h := by
  have himage : (ensureImage ctr.image).Uses Request.Aside := uses_ask trivial
  unfold startContainer
  rw [Routine.meets_bind,meets_orExit]
  refine (order_of_uses himage).mono ?_
  rintro a _ rfl
  cases a with
  | error e => exact ⟨hr,fun heq => nomatch heq⟩
  | ok imageId =>
    dsimp only
    rw [Routine.meets_bind,meets_orExit]
    refine order_ask trivial ?_
    intro a hshown
    cases a with
    | error e => exact ⟨hr,fun heq => nomatch heq⟩
    | ok msg =>
      cases msg with
      | some msg =>
        exact ⟨hr.of_sameIds ⟨rfl,rfl⟩,fun _ => hshown sandboxId (Option.mem_def.mpr hr.placed.sandbox)⟩
      | none =>
        refine (order_createAndStart hr hmay hne).mono ?_
        rintro r st' h' ⟨hr',hstarted⟩
        refine ⟨hr',?_⟩
        intro hok init _ _ hname
        rw [hname]
        exact hstarted hok

/-! ## The decisions -/

/-- What holds between two passes: nothing is recorded, or what is recorded is placed. -/
def AtRest (pod : PodSpec) (st : PodRuntimeState) (h : InitHistory) : Prop :=
  (st.sandboxId = none ∧ st.containerIds = ∅) ∨ ∃ sandboxId, Reached pod [] sandboxId st h

theorem Reached.atRest (hr : Reached pod l sandboxId st h) : AtRest pod st h :=
  .inr ⟨sandboxId,hr.sandbox,hr.placed,List.forall_mem_nil _,List.forall_mem_nil _⟩

theorem AtRest.of_sameIds {st' : PodRuntimeState} (hr : AtRest pod st h) (hs : SameIds st st') : AtRest pod st' h := by
  rcases hr with ⟨hsandbox,hids⟩ | ⟨sandboxId,hr⟩
  · exact .inl ⟨hs.1.trans hsandbox,hs.2.trans hids⟩
  · exact .inr ⟨sandboxId,hr.of_sameIds hs⟩

theorem AtRest.stateAfter (r : PodSyncResult) (hr : AtRest pod st h) : AtRest pod (stateAfter (r,st)) h := by
  cases r with
  | terminated => exact .inl ⟨rfl,rfl⟩
  | _ => exact hr

/-- What a step of the pass leaves. -/
def Attains (pod : PodSpec) (l : List ContainerSpec) (sandboxId : String) :
    Except PodSyncResult α → PodRuntimeState → InitHistory → Prop
  | .ok _,st,h => Reached pod l sandboxId st h
  | .error r,st,h => AtRest pod (stateAfter (r,st)) h

/-- What the decision about an init container leaves: it is passed, or if it is regular it has not
succeeded in the sandbox. -/
def InitDecides (pod : PodSpec) (l : List ContainerSpec) (sandboxId : String) (ctr : ContainerSpec) :
    Except PodSyncResult Bool → PodRuntimeState → InitHistory → Prop
  | .ok true,st,h => Reached pod (l ++ [ctr]) sandboxId st h
  | .ok false,st,h => Reached pod l sandboxId st h ∧
      (isSidecarInitContainer ctr = false → .succeeded ctr.name sandboxId ∉ h.log)
  | .error r,st,h => AtRest pod (stateAfter (r,st)) h

/-- A step on the side, and what comes after it. -/
theorem order_bind {m : SyncM α} {f : α → SyncM β} {Q : Except PodSyncResult β → PodRuntimeState → InitHistory → Prop}
    (hm : Inert Request.Aside m) (hf : ∀ a st', SameIds st st' → (f a).Meets (orderContract pod) Q st' h)
    (hQ : ∀ r st', SameIds st st' → Q (.error r) st' h) : (m >>= f).Meets (orderContract pod) Q st h := by
  rw [Routine.meets_bind]
  refine (order_of_inert hm).mono ?_
  rintro r st' _ ⟨hs,rfl⟩
  cases r with
  | ok a => exact hf a st' hs
  | error r => exact hQ r st' hs

/-- The status is shown, and the pass ends. -/
theorem order_report {Q : Except PodSyncResult β → PodRuntimeState → InitHistory → Prop} {f : Unit → SyncM β}
    (hf : ∀ st', SameIds st st' → (f ()).Meets (orderContract pod) Q st' h)
    (hQ : ∀ r st', SameIds st st' → Q (.error r) st' h) :
    (Routine.get >>= fun st => liftM (updatePodStatus pod st) >>= f : SyncM β).Meets (orderContract pod) Q st h := by
  rw [Routine.meets_bind,Routine.meets_get]
  exact order_bind (aside_of_reporting (inert_lift (uses_updatePodStatus pod st))) (fun _ => hf) hQ

theorem order_terminateFailed {f : PodLifecycleState → WorkerM PodLifecycleState}
    (hf : ∀ ls, (f ls).Uses Request.Calm) {Q : Except PodSyncResult Unit → PodRuntimeState → InitHistory → Prop}
    (hQ : ∀ st, Q (.error .terminated) st h) : (terminateFailed pod f).Meets (orderContract pod) Q st h := by
  have hterminate := (uses_terminatePod pod st pod.terminationGracePeriodSeconds).mono
    (fun _ hop => hop.aside) fun _ _ => trivial
  have hstored := (uses_updateStored hf).mono (fun _ hop => hop.aside) fun _ _ => trivial
  unfold terminateFailed
  rw [Routine.meets_bind,Routine.meets_get]
  dsimp only
  rw [Routine.meets_bind,Routine.meets_lift]
  refine (order_of_uses hterminate).mono ?_
  rintro _ _ rfl
  dsimp only
  rw [Routine.meets_bind,Routine.meets_lift]
  refine (order_of_uses hstored).mono ?_
  rintro _ _ rfl
  exact hQ st

/-- A status answer shows nothing, or the success of the container it is asked for. -/
theorem note_containerStatus (h : InitHistory) (id : String) (a : Except KubeletError (Option RuntimeContainer)) :
    h.note (.containerStatus .decision id) a = h ∨ ∃ name sandboxId, h.made.lookup id = some (name,sandboxId) ∧
      h.note (.containerStatus .decision id) a = { h with log := .succeeded name sandboxId :: h.log } := by
  rcases a with e | _ | s
  · exact .inl rfl
  · exact .inl rfl
  · change (if s.state = .exited ∧ s.exitCode = some 0 then h.logged id .succeeded else h) = h ∨ ∃ name sandboxId, _ ∧
      (if s.state = .exited ∧ s.exitCode = some 0 then h.logged id .succeeded else h) = _
    split
    · unfold InitHistory.logged
      cases hmade : h.made.lookup id with
      | none => exact .inl rfl
      | some p => exact .inr ⟨p.1,p.2,rfl,rfl⟩
    · exact .inl rfl

/-- Looking at a container whose success, if it is a regular init container, is recorded. -/
theorem Reached.look (hr : Reached pod l sandboxId st h) (a : Except KubeletError (Option RuntimeContainer))
    (hrec : ∀ init ∈ pod.initContainers, isSidecarInitContainer init = false →
      h.made.lookup id = some (init.name,sandboxId) → (st.containerIds.lookup init.name).isSome = true) :
    Reached pod l sandboxId st (h.note (.containerStatus .decision id) a) := by
  rcases note_containerStatus h id a with hsame | ⟨name,sandboxId',hmade,hlog⟩
  · rw [hsame]
    exact hr
  · rw [hlog]
    refine hr.log _ ?_
    intro init hinit hregular heq
    obtain ⟨rfl,rfl⟩ := InitEvent.succeeded.inj heq
    exact hrec init hinit hregular hmade

/-- Looking at the recorded container of an init container. -/
theorem Reached.lookInit {cid : String} (hr : Reached pod l sandboxId st h) (hctr : ctr ∈ pod.initContainers)
    (hcid : st.containerIds.lookup ctr.name = some cid) (a : Except KubeletError (Option RuntimeContainer)) :
    Reached pod l sandboxId st (h.note (.containerStatus .decision cid) a) := by
  obtain ⟨hmade,-⟩ := hr.placed.recorded ctr hctr cid hcid
  refine hr.look a ?_
  intro init _ _ hinit
  obtain ⟨hname,-⟩ := Prod.mk.inj (Option.some.inj (hmade.symm.trans hinit))
  rw [← hname,hcid]
  rfl

theorem Reached.snoc (hr : Reached pod l sandboxId st h) (hpassed : milestone ctr sandboxId ∈ h.log)
    (hkept : isSidecarInitContainer ctr = false → (st.containerIds.lookup ctr.name).isSome = true) :
    Reached pod (l ++ [ctr]) sandboxId st h where
  sandbox := hr.sandbox
  placed := hr.placed
  passed := by
    intro init hinit
    rcases List.mem_append.mp hinit with hmem | hlast
    · exact hr.passed init hmem
    · rw [List.mem_singleton.mp hlast]
      exact hpassed
  kept := by
    intro init hinit
    rcases List.mem_append.mp hinit with hmem | hlast
    · exact hr.kept init hmem
    · rw [List.mem_singleton.mp hlast]
      exact hkept

theorem order_sidecarRuns {cid : String} (hctr : ctr ∈ pod.initContainers) (hside : isSidecarInitContainer ctr = true)
    (hr : Reached pod l sandboxId st h) (hcid : st.containerIds.lookup ctr.name = some cid) :
    (sidecarRuns ctr cid).Meets (orderContract pod) (InitDecides pod l sandboxId ctr) st h := by
  unfold sidecarRuns
  rw [Routine.meets_bind,Routine.meets_lift]
  refine order_ask trivial ?_
  intro a _
  have hlook := hr.lookInit hctr hcid a
  have hrestart {st' : PodRuntimeState} (hs : SameIds st st') : InitDecides pod l sandboxId ctr (.ok false) st'
      (h.note (.containerStatus .decision cid) a) := by
    refine ⟨hlook.of_sameIds hs,?_⟩
    intro hregular
    rw [hside] at hregular
    cases hregular
  rcases a with e | _ | s
  · exact hrestart (sameIds_refl st)
  · exact hrestart (sameIds_refl st)
  · dsimp only
    split
    · have hpassed : milestone ctr sandboxId ∈ (h.note (.containerStatus .decision cid) (.ok (some s))).log := by
        unfold milestone
        rw [if_pos hside]
        exact (hlook.placed.recorded ctr hctr cid hcid).2 hside
      have hkept : isSidecarInitContainer ctr = false → (st.containerIds.lookup ctr.name).isSome = true := by
        intro _
        rw [hcid]
        rfl
      refine order_bind (aside_of_calm (inert_armProbes ctr cid)) ?_ ?_
      · exact fun _ st' hs => (hlook.snoc hpassed hkept).of_sameIds hs
      · exact fun r st' hs => (hlook.of_sameIds hs).atRest.stateAfter r
    · exact hrestart (sameIds_refl st)

/-- A regular init container is restarted only when it has not succeeded. -/
theorem not_succeeded_of_shown {cid : String} {a : Except KubeletError (Option RuntimeContainer)}
    (hctr : ctr ∈ pod.initContainers) (hr : Reached pod l sandboxId st h)
    (hcid : st.containerIds.lookup ctr.name = some cid) (hshown : ShowsSuccess pod h cid a) (ha : ¬ Awaited pod a)
    (hregular : isSidecarInitContainer ctr = false) :
    .succeeded ctr.name sandboxId ∉ (h.note (.containerStatus .decision cid) a).log := by
  obtain ⟨hmade,-⟩ := hr.placed.recorded ctr hctr cid hcid
  have hnot : .succeeded ctr.name sandboxId ∉ h.log := fun hmem =>
    ha (hshown sandboxId (Option.mem_def.mpr hr.placed.sandbox) ctr hctr hregular hmade hmem)
  have hsame : h.note (.containerStatus .decision cid) a = h := by
    rcases a with e | _ | s
    · rfl
    · rfl
    · refine if_neg ?_
      rintro ⟨hstate,hcode⟩
      exact ha (.inr ⟨hstate,.inl hcode⟩)
  rw [hsame]
  exact hnot

theorem order_initCompleted {cid : String} (hctr : ctr ∈ pod.initContainers)
    (hregular : isSidecarInitContainer ctr = false) (hr : Reached pod l sandboxId st h)
    (hcid : st.containerIds.lookup ctr.name = some cid) :
    (initCompleted pod ctr cid).Meets (orderContract pod) (InitDecides pod l sandboxId ctr) st h := by
  unfold initCompleted
  rw [Routine.meets_bind,Routine.meets_lift]
  refine order_ask trivial ?_
  intro a hshown
  have hlook := hr.lookInit hctr hcid a
  have hrestart {st' : PodRuntimeState} (ha : ¬ Awaited pod a) (hs : SameIds st st') :
      InitDecides pod l sandboxId ctr (.ok false) st' (h.note (.containerStatus .decision cid) a) :=
    ⟨hlook.of_sameIds hs,not_succeeded_of_shown hctr hr hcid hshown ha⟩
  have hrest (r : PodSyncResult) {st' : PodRuntimeState} (hs : SameIds st st') :
      AtRest pod (stateAfter (r,st')) (h.note (.containerStatus .decision cid) a) :=
    (hlook.of_sameIds hs).atRest.stateAfter r
  rcases a with e | _ | s
  · exact hrestart id (sameIds_refl st)
  · exact hrestart id (sameIds_refl st)
  · dsimp only
    split
    · exact order_report (fun st' hs => hrest _ hs) (fun r st' hs => hrest r hs)
    · next hexited =>
      split
      · next hcode =>
        refine hlook.snoc ?_ ?_
        · have hnote : h.note (.containerStatus .decision cid) (.ok (some s)) =
              { h with log := .succeeded ctr.name sandboxId :: h.log } := by
            change (if s.state = .exited ∧ s.exitCode = some 0 then h.logged cid .succeeded else h) = _
            rw [if_pos ⟨hexited,hcode⟩]
            unfold InitHistory.logged
            rw [(hr.placed.recorded ctr hctr cid hcid).1]
          rw [hnote]
          unfold milestone
          rw [hregular]
          exact List.mem_cons_self
        · intro _
          rw [hcid]
          rfl
      · next hcode =>
        split
        · refine order_report (fun st' hs => ?_) (fun r st' hs => hrest r hs)
          rw [Routine.meets_bind]
          exact order_terminateFailed (fun _ => uses_pure _) fun _ => .inl ⟨rfl,rfl⟩
        · next hpolicy =>
          have ha : ¬ Awaited pod (.ok (some s)) := by
            rintro (hrunning | ⟨-,hzero | hnever⟩)
            · rw [hexited] at hrunning
              cases hrunning
            · exact hcode hzero
            · exact hpolicy hnever
          refine order_bind (aside_of_calm (inert_snapshot ctr.name "Error" s)) ?_ ?_
          · exact fun _ st' hs => hrestart ha hs
          · exact fun r st' hs => hrest r hs
    · next hrunning hexited =>
      have ha : ¬ Awaited pod (.ok (some s)) := by
        rintro (h | ⟨h,-⟩)
        · exact hrunning h
        · exact hexited h
      exact hrestart ha (sameIds_refl st)

theorem order_initProceeds (hctr : ctr ∈ pod.initContainers) (hr : Reached pod l sandboxId st h) :
    (initProceeds pod ctr).Meets (orderContract pod) (InitDecides pod l sandboxId ctr) st h := by
  unfold initProceeds
  rw [Routine.meets_bind,Routine.meets_get]
  dsimp only
  split
  · next hnone =>
    refine ⟨hr,?_⟩
    intro hregular hsucceeded
    have hsome := hr.placed.succeeded ctr hctr hregular hsucceeded
    rw [hnone] at hsome
    cases hsome
  · next cid hcid =>
    split
    · next hside => exact order_sidecarRuns hctr hside hr hcid
    · next hside => exact order_initCompleted hctr (Bool.eq_false_iff.mpr hside) hr hcid

/-! ## The containers of the pod -/

theorem order_startFailed {e : KubeletError} (hr : Reached pod l sandboxId st h) :
    (startFailed name e).Meets (orderContract pod) (Attains pod l sandboxId) st h := by
  unfold startFailed
  split
  · rw [Routine.meets_bind]
    exact .inl ⟨rfl,rfl⟩
  · exact hr.of_sameIds ⟨rfl,rfl⟩

/-- Where names are apart, a name stands at one place of the list. -/
theorem before_eq {before before' after after' : List ContainerSpec} {ctr ctr' : ContainerSpec}
    (hp : (before ++ ctr :: after).Pairwise (fun c d => c.name ≠ d.name))
    (heq : before ++ ctr :: after = before' ++ ctr' :: after') (hname : ctr'.name = ctr.name) : before = before' := by
  induction before generalizing before' with
  | nil =>
    cases before' with
    | nil => rfl
    | cons b before' =>
      obtain ⟨rfl,rfl⟩ := List.cons.inj heq
      have hmem : ctr' ∈ before' ++ ctr' :: after' := List.mem_append_right _ List.mem_cons_self
      exact (List.rel_of_pairwise_cons hp hmem hname.symm).elim
  | cons b before ih =>
    have hmem : ctr ∈ before ++ ctr :: after := List.mem_append_right _ List.mem_cons_self
    cases before' with
    | nil =>
      obtain ⟨rfl,-⟩ := List.cons.inj heq
      exact (List.rel_of_pairwise_cons hp hmem hname).elim
    | cons b' before' =>
      obtain ⟨rfl,hrest⟩ := List.cons.inj heq
      rw [ih hp.of_cons hrest]

section Walk
variable {before after : List ContainerSpec}

/-- The next init container may start once those before it are passed. -/
theorem mayStart_init (hnames : InitNamesApart pod) (hinits : pod.initContainers = before ++ ctr :: after)
    (hr : Reached pod before sandboxId st h) (hnot : isSidecarInitContainer ctr = false →
      .succeeded ctr.name sandboxId ∉ h.log) : MayStart pod ctr.name sandboxId h.log := by
  have hctr : ctr ∈ pod.initContainers := by
    rw [hinits]
    exact List.mem_append_right _ List.mem_cons_self
  obtain ⟨hapart,hothers⟩ := hnames
  constructor
  · rintro ⟨app,happ,hname⟩
    exact (hothers ctr hctr app (List.mem_append_left _ happ) hname.symm).elim
  · intro before' ctr' after' heq hname
    rw [hinits] at hapart heq
    rw [← before_eq hapart heq hname]
    exact hr.passed
  · intro init hinit hname hregular
    have hsame : init = ctr := List.inj_on_of_nodup_map (List.pairwise_map.mpr hapart) hinit hctr hname
    rw [hsame] at hregular
    exact hnot hregular

theorem names_before (hnames : InitNamesApart pod) (hinits : pod.initContainers = before ++ ctr :: after) :
    ∀ init ∈ before, init.name ≠ ctr.name := by
  obtain ⟨hapart,-⟩ := hnames
  rw [hinits] at hapart
  exact fun init hinit => (List.pairwise_append.mp hapart).2.2 init hinit ctr List.mem_cons_self

/-- The other containers may start once all init containers are passed. -/
theorem mayStart_other (hnames : InitNamesApart pod) (hctr : ctr ∈ pod.containers ++ pod.ephemeralContainers)
    (hr : Reached pod pod.initContainers sandboxId st h) : MayStart pod ctr.name sandboxId h.log := by
  obtain ⟨-,hothers⟩ := hnames
  constructor
  · exact fun _ => hr.passed
  · intro before init after hinits hname
    have hinit : init ∈ pod.initContainers := by
      rw [hinits]
      exact List.mem_append_right _ List.mem_cons_self
    exact (hothers init hinit ctr hctr hname).elim
  · exact fun init hinit hname => (hothers init hinit ctr hctr hname).elim

theorem order_runInitContainer (hnames : InitNamesApart pod) (hinits : pod.initContainers = before ++ ctr :: after)
    (hr : Reached pod before sandboxId st h) : (runInitContainer pod sandboxId ctr).Meets (orderContract pod)
      (Attains pod (before ++ [ctr]) sandboxId) st h := by
  have hctr : ctr ∈ pod.initContainers := by
    rw [hinits]
    exact List.mem_append_right _ List.mem_cons_self
  unfold runInitContainer
  rw [Routine.meets_bind]
  refine (order_initProceeds hctr hr).mono ?_
  intro r st h hdecided
  cases r with
  | error r => exact hdecided
  | ok proceed =>
    cases proceed with
    | true => exact hdecided
    | false =>
      obtain ⟨hr,hnot⟩ := hdecided
      refine order_bind (aside_of_reporting (inert_initBackoff pod ctr.name)) ?_ ?_
      · intro _ st' hs
        have hmay := mayStart_init hnames hinits hr hnot
        rw [Routine.meets_bind,Routine.meets_attempt]
        refine (order_startContainer (hr.of_sameIds hs) hmay (names_before hnames hinits)).mono ?_
        rintro r st h ⟨hr,hstarted⟩
        cases r with
        | error e =>
          dsimp only
          rw [Routine.meets_bind]
          refine (order_startFailed hr).mono ?_
          intro r st h hr
          cases r with
          | error r => exact hr
          | ok _ =>
            refine order_report (fun st' hs => ?_) (fun r st' hs => ?_)
            · exact (hr.of_sameIds hs).atRest
            · exact (hr.of_sameIds hs).atRest.stateAfter r
        | ok _ =>
          have hclear : Reached pod before sandboxId (clearStartFailure ctr.name st) h := hr.of_sameIds ⟨rfl,rfl⟩
          dsimp only
          rw [Routine.meets_bind,Routine.meets_modify]
          dsimp only
          split
          · next hside =>
            refine hclear.snoc ?_ ?_
            · unfold milestone
              rw [if_pos hside]
              exact hstarted rfl ctr hctr hside rfl
            · intro hregular
              rw [hside] at hregular
              cases hregular
          · refine order_report (fun st' hs => ?_) (fun r st' hs => ?_)
            · exact (hclear.of_sameIds hs).atRest
            · exact (hclear.of_sameIds hs).atRest.stateAfter r
      · exact fun r st' hs => (hr.of_sameIds hs).atRest.stateAfter r

/-- The walk along the init containers. -/
theorem order_initContainers (hnames : InitNamesApart pod) (hinits : pod.initContainers = before ++ after)
    (hr : Reached pod before sandboxId st h) :
    (Routine.forEach (runInitContainer pod sandboxId) after).Meets (orderContract pod)
      (Attains pod pod.initContainers sandboxId) st h := by
  induction after generalizing before st h with
  | nil =>
    rw [List.append_nil] at hinits
    rw [hinits]
    exact hr
  | cons ctr after ih =>
    unfold Routine.forEach
    rw [Routine.meets_bind]
    refine (order_runInitContainer hnames hinits hr).mono ?_
    intro r st h hr
    cases r with
    | error r => exact hr
    | ok _ =>
      refine ih ?_ hr
      rw [hinits,List.append_assoc]
      rfl

end Walk

section Others
variable {Q : Except PodSyncResult β → PodRuntimeState → InitHistory → Prop}

/-- A step on the side keeps how far the pass is. -/
theorem Reached.bind {m : SyncM α} {f : α → SyncM β} (hr : Reached pod l sandboxId st h) (hm : Inert Request.Aside m)
    (hf : ∀ a st', Reached pod l sandboxId st' h → (f a).Meets (orderContract pod) Q st' h)
    (hQ : ∀ r st', AtRest pod (stateAfter (r,st')) h → Q (.error r) st' h) :
    (m >>= f).Meets (orderContract pod) Q st h :=
  order_bind hm (fun a st' hs => hf a st' (hr.of_sameIds hs)) fun r st' hs =>
    hQ r st' ((hr.of_sameIds hs).atRest.stateAfter r)

end Others

theorem order_appExited {s : RuntimeContainer} (hr : Reached pod l sandboxId st h) :
    (appExited pod ctr s).Meets (orderContract pod) (Attains pod l sandboxId) st h := by
  unfold appExited
  refine hr.bind (aside_of_calm (inert_snapshot ctr.name _ s)) ?_ fun _ _ hrest => hrest
  intro _ st hr
  split
  · rw [Routine.meets_bind,Routine.meets_get]
    refine hr.bind (aside_of_reporting (inert_crashLoopSleep pod ctr.name _)) ?_ fun _ _ hrest => hrest
    exact fun _ st hr => hr
  · exact hr

/-- Once all init containers are passed, looking at an app container shows no success that is not
recorded. -/
theorem order_appProceeds (hr : Reached pod pod.initContainers sandboxId st h) :
    (appProceeds pod ctr).Meets (orderContract pod) (Attains pod pod.initContainers sandboxId) st h := by
  unfold appProceeds
  rw [Routine.meets_bind,Routine.meets_get]
  dsimp only
  split
  · exact hr
  · next cid _ =>
    rw [Routine.meets_bind,Routine.meets_lift]
    refine order_ask trivial ?_
    intro a _
    have hlook : Reached pod pod.initContainers sandboxId st (h.note (.containerStatus .decision cid) a) :=
      hr.look a fun init hinit hregular _ => hr.kept init hinit hregular
    rcases a with e | _ | s
    · exact hlook
    · exact hlook
    · dsimp only
      split
      · refine hlook.bind (aside_of_calm (inert_armProbes ctr cid)) ?_ fun _ _ hrest => hrest
        intro armed st hr
        refine hr.bind (aside_of_reporting (inert_resizeWhenArmed ctr cid armed)) ?_ fun _ _ hrest => hrest
        exact fun _ st hr => hr
      · exact order_appExited hlook
      · exact hlook

theorem order_runAppContainer (hnames : InitNamesApart pod) (hctr : ctr ∈ pod.containers)
    (hr : Reached pod pod.initContainers sandboxId st h) : (runAppContainer pod sandboxId ctr).Meets (orderContract pod)
      (Attains pod pod.initContainers sandboxId) st h := by
  have hother : ctr ∈ pod.containers ++ pod.ephemeralContainers := List.mem_append_left _ hctr
  unfold runAppContainer
  rw [Routine.meets_bind]
  refine (order_appProceeds hr).mono ?_
  intro r st h hr
  cases r with
  | error r => exact hr
  | ok proceed =>
    cases proceed with
    | true => exact hr
    | false =>
      change Routine.Meets _ (Routine.get >>= _) _ st h
      rw [Routine.meets_bind,Routine.meets_get]
      dsimp only
      split
      · exact hr
      · refine Reached.bind hr (inert_lift (uses_sleepAfter (fun _ => trivial) _)) ?_ fun _ _ hrest => hrest
        intro _ st hr
        rw [Routine.meets_bind,Routine.meets_attempt]
        refine (order_startContainer hr (mayStart_other hnames hother hr) fun init hinit =>
          hnames.2 init hinit ctr hother).mono ?_
        rintro r st h ⟨hr,-⟩
        cases r with
        | ok _ => exact hr.of_sameIds ⟨rfl,rfl⟩
        | error e => exact order_startFailed hr

theorem order_runEphemeralContainer (hnames : InitNamesApart pod) (hctr : ctr ∈ pod.ephemeralContainers)
    (hr : Reached pod pod.initContainers sandboxId st h) : (runEphemeralContainer pod sandboxId ctr).Meets
      (orderContract pod) (Attains pod pod.initContainers sandboxId) st h := by
  have hother : ctr ∈ pod.containers ++ pod.ephemeralContainers := List.mem_append_right _ hctr
  unfold runEphemeralContainer
  rw [Routine.meets_bind,Routine.meets_get]
  dsimp only
  split
  · exact hr
  · rw [Routine.meets_bind,Routine.meets_attempt]
    refine (order_startContainer hr (mayStart_other hnames hother hr) fun init hinit =>
      hnames.2 init hinit ctr hother).mono ?_
    exact fun _ _ _ hr => hr.1

theorem order_forEach {body : ContainerSpec → SyncM Unit} {ctrs : List ContainerSpec}
    (hbody : ∀ ctr ∈ ctrs, ∀ st h, Reached pod l sandboxId st h →
      (body ctr).Meets (orderContract pod) (Attains pod l sandboxId) st h)
    (hr : Reached pod l sandboxId st h) :
    (Routine.forEach body ctrs).Meets (orderContract pod) (Attains pod l sandboxId) st h := by
  refine Routine.Meets.forEach (I := Reached pod l sandboxId) ?_ (fun _ _ hr => hr) hr
  intro ctr hctr st h hr
  refine (hbody ctr hctr st h hr).mono ?_
  intro r st h hr
  cases r with
  | ok _ => exact hr
  | error r => exact hr

theorem order_syncContainers (hnames : InitNamesApart pod) (hr : Reached pod [] sandboxId st h) :
    (syncContainers pod sandboxId).Meets (orderContract pod) (Attains pod pod.initContainers sandboxId) st h := by
  unfold syncContainers
  rw [Routine.meets_bind]
  refine (order_initContainers hnames (List.nil_append _).symm hr).mono ?_
  intro r st h hr
  cases r with
  | error r => exact hr
  | ok _ =>
    refine Reached.bind hr (aside_of_reporting (inert_markInitialized pod)) ?_ fun _ _ hrest => hrest
    intro _ st hr
    rw [Routine.meets_bind]
    refine (order_forEach (fun ctr hctr st h hr => order_runAppContainer hnames hctr hr) hr).mono ?_
    intro r st h hr
    cases r with
    | error r => exact hr
    | ok _ =>
      dsimp only
      rw [Routine.meets_bind,Routine.meets_get]
      refine Reached.bind hr (aside_of_calm (inert_lift (uses_stopSidecarsWhenDone pod st))) ?_ fun _ _ hrest => hrest
      intro _ st hr
      rw [Routine.meets_bind]
      refine (order_forEach (fun ctr hctr st h hr => order_runEphemeralContainer hnames hctr hr) hr).mono ?_
      intro r st h hr
      cases r with
      | error r => exact hr
      | ok _ =>
        have hstatus := (uses_updatePodStatus pod st).mono (fun _ hop => hop.aside) fun _ _ => trivial
        dsimp only
        rw [Routine.meets_bind,Routine.meets_get]
        dsimp only
        rw [Routine.meets_lift]
        refine (order_of_uses hstatus).mono ?_
        rintro _ _ rfl
        exact hr

/-! ## Recovery -/

theorem lookup_recovered {a : List RuntimeContainer} (hids : st.containerIds = ∅) :
    (recoverContainers pod st a).containerIds.lookup name = adopted pod (.ok a) name := by
  rw [lookup_recoverContainers,hids,AList.lookup_empty,Option.none_or]
  rfl

/-- What recovery adopts is placed. -/
theorem order_adoptListed (hsandbox : st.sandboxId = some sandboxId) (hids : st.containerIds = ∅) :
    (adoptListed pod sandboxId).Meets (orderContract pod)
      (fun r st' h' => r = .ok () ∧ Reached pod [] sandboxId st' h') st h := by
  have hreached {st' : PodRuntimeState} {a : Except KubeletError (List RuntimeContainer)}
      (hsandbox' : st'.sandboxId = some sandboxId)
      (hlookup : ∀ name, st'.containerIds.lookup name = adopted pod a name) (hshown : RecoversInits pod h sandboxId a) :
      Reached pod [] sandboxId st' { h with sandbox := some sandboxId } := by
    refine ⟨hsandbox',⟨rfl,?_,?_⟩,List.forall_mem_nil _,List.forall_mem_nil _⟩
    · intro init hinit id hid
      rw [hlookup] at hid
      exact (hshown init hinit).1 id (Option.mem_def.mpr hid)
    · intro init hinit hregular hsucceeded
      rw [hlookup]
      exact (hshown init hinit).2 hregular hsucceeded
  unfold adoptListed
  rw [Routine.meets_bind,Routine.meets_lift]
  refine order_ask trivial ?_
  intro a hshown
  cases a with
  | ok ctrs =>
    refine ⟨rfl,hreached ?_ (fun _ => lookup_recovered hids) hshown⟩
    rw [sandboxId_recoverContainers]
    exact hsandbox
  | error e =>
    refine ⟨rfl,hreached hsandbox (fun name => ?_) hshown⟩
    rw [hids]
    rfl

theorem order_ensureSandbox {worker : PodWorker} (hr : AtRest pod st h) :
    (ensureSandbox worker pod).Meets (orderContract pod) (fun r st' h' => match r with
      | .ok sandboxId => Reached pod [] sandboxId st' h'
      | .error r => AtRest pod (stateAfter (r,st')) h') st h := by
  unfold ensureSandbox
  rw [Routine.meets_bind,Routine.meets_get]
  dsimp only
  split
  · next sandboxId hsandbox =>
    rcases hr with ⟨hnone,-⟩ | ⟨sandboxId',hr⟩
    · rw [hsandbox] at hnone
      cases hnone
    · obtain rfl := Option.some.inj (hsandbox.symm.trans hr.sandbox)
      exact hr
  · next hsandbox =>
    have hids : st.containerIds = ∅ := by
      rcases hr with ⟨-,hids⟩ | ⟨sandboxId,hr⟩
      · exact hids
      · have hsome := hr.sandbox
        rw [hsandbox] at hsome
        cases hsome
    have hcreate := (uses_createSandbox worker pod).mono (fun _ hop => hop.aside) fun _ _ => trivial
    rw [Routine.meets_bind,Routine.meets_lift]
    refine (order_of_uses hcreate).mono ?_
    rintro a _ rfl
    cases a with
    | ok found =>
      have haddress := (uses_updateStored (f := fun ls => pure (addressedState worker pod found.2 ls))
        fun _ => uses_pure _).mono (fun _ hop => hop.aside) fun _ _ => trivial
      dsimp only
      rw [Routine.meets_bind]
      unfold enterSandbox
      rw [Routine.meets_bind,Routine.meets_modify]
      dsimp only
      rw [Routine.meets_bind]
      have hnoted : ({ st with sandboxId := some found.1, sandboxIp := found.2 } : PodRuntimeState).containerIds = ∅ := hids
      refine (order_adoptListed rfl hnoted).mono ?_
      rintro r st h ⟨rfl,hr⟩
      dsimp only
      rw [Routine.meets_lift]
      refine (order_of_uses haddress).mono ?_
      rintro _ _ rfl
      exact hr
    | error e =>
      have hmark := (uses_markUnscheduled "SandboxCreationFailed" ("Failed to create pod sandbox: " ++ e.text) id).mono
        (fun _ hop => hop.aside) fun _ _ => trivial
      dsimp only
      rw [Routine.meets_bind,Routine.meets_lift]
      refine (order_of_uses hmark).mono ?_
      rintro _ _ rfl
      exact .inl ⟨hsandbox,hids⟩

/-! ## The whole pass -/

/-- What a pass leaves. -/
def Rested (pod : PodSpec) : Except PodSyncResult Unit → PodRuntimeState → InitHistory → Prop
  | .ok _,st,h => AtRest pod st h
  | .error r,st,h => AtRest pod (stateAfter (r,st)) h

/-- A step on the side, before the sandbox is looked at. -/
theorem AtRest.bind {m : SyncM α} {f : α → SyncM Unit} (hr : AtRest pod st h) (hm : Inert Request.Reporting m)
    (hf : ∀ a st', AtRest pod st' h → (f a).Meets (orderContract pod) (Rested pod) st' h) :
    (m >>= f).Meets (orderContract pod) (Rested pod) st h :=
  order_bind (aside_of_reporting hm) (fun a st' hs => hf a st' (hr.of_sameIds hs)) fun r _ hs =>
    (hr.of_sameIds hs).stateAfter r

theorem order_checkDeadline (hr : AtRest pod st h) :
    (checkDeadline pod).Meets (orderContract pod) (Rested pod) st h := by
  unfold checkDeadline
  split
  · refine hr.bind (inert_lift (uses_ask trivial)) ?_
    intro ls st hr
    refine hr.bind (inert_lift (uses_ask trivial)) ?_
    intro t st hr
    split
    · exact order_terminateFailed uses_deadlineExceededState fun _ => .inl ⟨rfl,rfl⟩
    · exact hr
  · exact hr

theorem order_syncSteps {worker : PodWorker} (hnames : InitNamesApart pod) (hr : AtRest pod st h) :
    (syncSteps worker pod).Meets (orderContract pod) (Rested pod) st h := by
  unfold syncSteps
  split
  · exact hr.stateAfter _
  · rw [Routine.meets_bind]
    refine (order_checkDeadline hr).mono ?_
    intro r st h hr
    cases r with
    | error r => exact hr
    | ok _ =>
      refine AtRest.bind hr inert_ensureVolumes ?_
      intro _ st hr
      refine hr.bind (Keeps.forEach sameIds_refl sameIds_trans fun ctr _ => inert_ensureContainerImage ctr) ?_
      intro _ st hr
      rw [Routine.meets_bind]
      refine (order_ensureSandbox hr).mono ?_
      intro r st h hr
      cases r with
      | error r => exact hr
      | ok sandboxId =>
        refine (order_syncContainers hnames hr).mono ?_
        intro r st h hr
        cases r with
        | error r => exact hr
        | ok _ => exact Reached.atRest hr

/-- A pass starts only what the history permits. -/
theorem order_syncPod {worker : PodWorker} (hnames : InitNamesApart pod) (hr : AtRest pod st h) :
    (syncPod worker pod st).Meets (orderContract pod) (fun r h => AtRest pod (stateAfter r) h) h := by
  unfold syncPod
  rw [Program.meets_bind]
  refine Program.Meets.mono (order_syncSteps hnames hr) ?_
  rintro ⟨r,st⟩ h hr
  cases r with
  | error r => exact hr
  | ok _ => exact hr

end KubeAir.Worker
