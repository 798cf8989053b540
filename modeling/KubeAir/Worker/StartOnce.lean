import KubeAir.Worker.KnownContainers

/-! # A pass starts nothing twice

Every part of a pass keeps what is known about a fixed container, and starts that container
only where its history allows it, as long as its calls are answered in a way it copes with.
-/
namespace KubeAir.Worker
open Core Transition Program Routine

variable (pod : PodSpec) (n : String) (p : RestartPolicy)

/-- Between two calls containers exit, the answers are those the worker copes with, and the
container `n` is not started where its history forbids it. -/
def startContract : Contract Request Request.Answer Node where
  drift := Node.Drift
  allowed w op := ∀ id r, op = .startContainer id → w.containers.lookup id = some r →
    r.podUid = pod.uid.val → r.name = n → ¬ MustNotStart pod w r.sandboxId n p
  answers w op ans w' := ∃ c, Copes pod w op c ∧ w.respond op c = some (ans,w')

/-- The sandbox is up and the container is known. -/
def KnownIn (sandboxId : String) (st : PodRuntimeState) (w : Node) : Prop :=
  st.sandboxId = some sandboxId ∧ Known pod n p sandboxId st.containerIds w

/-- What holds between two passes. -/
def Settled (st : PodRuntimeState) (w : Node) : Prop :=
  (st.sandboxId = none ∧ st.containerIds = ∅) ∨ ∃ sandboxId, KnownIn pod n p sandboxId st w

variable {pod n p} {sandboxId : String} {ids : HashMap String String} {w : Node} {st : PodRuntimeState}
  {ctr : ContainerSpec} {α ε : Type}

theorem steady_knownIn : Node.Steady (KnownIn pod n p sandboxId st) := (Node.Steady.const _).and steady_known

theorem steady_settled : Node.Steady (Settled pod n p st) where
  frame := by
    rintro w w' (h | ⟨sandboxId,h⟩) hs
    · exact .inl h
    · exact .inr ⟨sandboxId,steady_knownIn.frame w w' h hs⟩
  exit := by
    rintro w id code w' (h | ⟨sandboxId,h⟩) he
    · exact .inl h
    · exact .inr ⟨sandboxId,steady_knownIn.exit w id code w' h he⟩

theorem KnownIn.of_sameIds {st' : PodRuntimeState} (h : KnownIn pod n p sandboxId st w) (hs : SameIds st st') :
    KnownIn pod n p sandboxId st' w := by
  obtain ⟨hsandbox,hknown⟩ := h
  exact ⟨hs.1.trans hsandbox,by rw [hs.2]; exact hknown⟩

theorem Settled.of_sameIds {st' : PodRuntimeState} (h : Settled pod n p st w) (hs : SameIds st st') :
    Settled pod n p st' w := by
  rcases h with ⟨hsandbox,hids⟩ | ⟨sandboxId,h⟩
  · exact .inl ⟨hs.1.trans hsandbox,hs.2.trans hids⟩
  · exact .inr ⟨sandboxId,h.of_sameIds hs⟩

/-! ## Calls -/

theorem drift_trans (a b c : Node) (hab : Node.Drift a b) (hbc : Node.Drift b c) : Node.Drift a c :=
  hab.trans hbc

/-- A call made where `P` holds, which starts nothing. -/
theorem meets_ask {op : Request} {P : Node → Prop} {Q : op.Answer → Node → Prop} (hP : Node.Steady P)
    (hop : op.StartsNothing) (hw : P w)
    (hQ : ∀ w, P w → ∀ c a w', Copes pod w op c → w.respond op c = some (a,w') → Q a w') :
    (ask op).Meets (startContract pod n p) Q w := by
  refine meets_request hw hP.drift ?_
  intro w hw
  refine ⟨?_,fun a w' ⟨c,hcopes,hrespond⟩ => hQ w hw c a w' hcopes hrespond⟩
  rintro id r rfl
  exact hop.elim

theorem meets_ask_passive {op : Request} {P : Node → Prop} (hP : Node.Steady P) (hop : op.Passive) (hw : P w) :
    (ask op).Meets (startContract pod n p) (fun _ => P) w :=
  meets_ask hP hop.startsNothing hw fun w hw _ _ w' _ h => hP.frame w w' hw (Node.respond_passive hop h)

/-- A program that touches no container. -/
theorem meets_passive {q : WorkerM α} {P : Node → Prop} (hP : Node.Steady P) (hq : q.Uses Request.Passive)
    (hw : P w) : q.Meets (startContract pod n p) (fun _ => P) w := by
  refine (Every.meets hq hw hP.drift ?_).mono (fun _ _ h => h.2)
  intro w op hw hop
  refine ⟨?_,fun a w' ⟨c,_,hrespond⟩ => hP.frame w w' hw (Node.respond_passive hop hrespond)⟩
  rintro id r rfl
  exact hop.elim

/-- A program that starts no container, where nothing about containers is to be kept. -/
theorem meets_startsNothing {q : WorkerM α} (hq : q.Uses Request.StartsNothing) :
    q.Meets (startContract pod n p) (fun _ _ => True) w := by
  refine (Every.meets (P := fun _ => True) hq trivial (fun _ _ h _ => h) ?_).mono (fun _ _ h => h.2)
  intro w op _ hop
  refine ⟨?_,fun _ _ _ => trivial⟩
  rintro id r rfl
  exact hop.elim

/-- A routine that leaves the containers alone. -/
theorem meets_inert {m : PassM ε α} {P : Node → Prop} (hP : Node.Steady P) (hm : Inert Request.Passive m)
    (hw : P w) : m.Meets (startContract pod n p) (fun _ st' w' => SameIds st st' ∧ P w') st w := by
  refine Keeps.meets hm hw hP.drift ?_
  intro w op hw hop
  refine ⟨?_,fun a w' ⟨c,_,hrespond⟩ => hP.frame w w' hw (Node.respond_passive hop hrespond)⟩
  rintro id r rfl
  exact hop.elim

theorem meets_removeContainer {id : String} {P : Node → Prop} (hP : Node.Steady P)
    (hdrop : ∀ w, P w → P (w.drop id)) (hw : P w) :
    (removeContainer id).Meets (startContract pod n p) (fun _ => P) w := by
  refine meets_ask hP trivial hw ?_
  intro w hw c a w' _ h
  rcases Node.respond_removeContainer h with rfl | rfl
  · exact hdrop w hw
  · exact hw

/-! ## Starting a container -/

/-- What holds on the way to a start: the recorded IDs say enough, and if it is `n` that is
started, it may be. -/
def Starting (pod : PodSpec) (n : String) (p : RestartPolicy) (sandboxId m : String)
    (ids : HashMap String String) (w : Node) : Prop :=
  Known pod n p sandboxId ids w ∧ (m = n → Startable pod n p sandboxId w)

variable {m id : String}

theorem steady_starting : Node.Steady (Starting pod n p sandboxId m ids) :=
  steady_known.and steady_startable.imp

theorem Starting.drop (h : Starting pod n p sandboxId m ids w) (hm : ids.lookup m = none)
    (hnamed : NamedAt pod id m w) : Starting pod n p sandboxId m ids (w.drop id) :=
  ⟨known_drop h.1 hnamed hm,fun hmn => startable_drop (h.2 hmn)⟩

/-- Removing a container of the name whose ID has been forgotten. -/
theorem meets_removeNamed (hm : ids.lookup m = none)
    (h : Starting pod n p sandboxId m ids w ∧ NamedAt pod id m w) :
    (removeContainer id).Meets (startContract pod n p)
      (fun _ w => Starting pod n p sandboxId m ids w ∧ NamedAt pod id m w) w :=
  meets_removeContainer (steady_starting.and steady_namedAt)
    (fun _ h => ⟨h.1.drop hm h.2,namedAt_drop h.2⟩) h

theorem meets_dropRecord (h : KnownIn pod n p sandboxId st w) (hs : m = n → Startable pod n p sandboxId w) :
    (dropRecord m).Meets (startContract pod n p) (fun r st' w' => r = .ok () ∧
      st'.sandboxId = some sandboxId ∧ st'.containerIds.lookup m = none ∧
        Starting pod n p sandboxId m st'.containerIds w') st w := by
  obtain ⟨hsandbox,hknown⟩ := h
  unfold dropRecord
  rw [Routine.meets_bind,Routine.meets_get]
  dsimp only
  split
  · next hnone => exact ⟨rfl,hsandbox,hnone,hknown,hs⟩
  · next old hold =>
    have hnamed : NamedAt pod old m w := by
      obtain ⟨r,hr,huid,hname,-⟩ := hknown.recorded m old hold
      intro r' hr'
      obtain rfl : r = r' := Option.some.inj (hr.symm.trans hr')
      exact ⟨huid,hname⟩
    have hstart : Starting pod n p sandboxId m (st.containerIds.erase m) w := ⟨known_erase hknown hs,hs⟩
    rw [Routine.meets_bind,Routine.meets_lift]
    refine (meets_removeNamed (AList.lookup_erase _ _) ⟨hstart,hnamed⟩).mono ?_
    rintro - w ⟨hstart,-⟩
    dsimp only
    rw [Routine.meets_bind,Routine.meets_lift]
    have hforget : (forgetProbes old).Meets (startContract pod n p)
        (fun _ => Starting pod n p sandboxId m (st.containerIds.erase m)) w :=
      meets_ask_passive steady_starting trivial hstart
    refine hforget.mono ?_
    intro _ w hstart
    exact ⟨rfl,hsandbox,AList.lookup_erase _ _,hstart⟩

theorem meets_cleanupContainerById (hm : ids.lookup m = none) (h : Starting pod n p sandboxId m ids w)
    (hnamed : NamedAt pod id m w) : (cleanupContainerById id).Meets (startContract pod n p)
      (fun _ w => Starting pod n p sandboxId m ids w) w := by
  unfold cleanupContainerById
  rw [Program.meets_bind]
  have hstop : (stopContainer id 0).Meets (startContract pod n p)
      (fun _ w => Starting pod n p sandboxId m ids w ∧ NamedAt pod id m w) w :=
    meets_ask_passive (steady_starting.and steady_namedAt) trivial ⟨h,hnamed⟩
  refine hstop.mono ?_
  intro _ w hw
  rw [Program.meets_bind]
  refine (meets_removeNamed hm hw).mono ?_
  intro _ w hw
  exact hw.1

theorem lookup_labels (r : ContainerRecord) (id : String) :
    (r.listed id).labels.lookup "kubelet.rs/pod_uid" = some r.podUid ∧
      (r.listed id).labels.lookup "kubelet.rs/container_name" = some r.name :=
  ⟨rfl,rfl⟩

/-- The entries with the labels of a container have its name. -/
theorem namedAt_of_label {l : List String} {c : RuntimeContainer}
    (hc : c ∈ (l.filterMap fun id => (w.containers.lookup id).map (ContainerRecord.listed id)).filter
      (fun c => c.labels.lookup "kubelet.rs/pod_uid" = some pod.uid.val &&
        c.labels.lookup "kubelet.rs/container_name" = some m)) : NamedAt pod c.id m w := by
  obtain ⟨hmem,hlabels⟩ := List.mem_filter.mp hc
  obtain ⟨r,hr,heq⟩ := mem_listing hmem
  rw [Bool.and_eq_true,decide_eq_true_eq,decide_eq_true_eq] at hlabels
  obtain ⟨huid,hname⟩ := hlabels
  rw [heq,(lookup_labels r c.id).1] at huid
  rw [heq,(lookup_labels r c.id).2] at hname
  intro r' hr'
  obtain rfl : r = r' := Option.some.inj (hr.symm.trans hr')
  exact ⟨Option.some.inj huid,Option.some.inj hname⟩

/-- The containers of a listing have the name, as long as they are there. -/
def AllNamed (pod : PodSpec) (m : String) (l : List RuntimeContainer) (w : Node) : Prop :=
  ∀ c ∈ l, NamedAt pod c.id m w

theorem steady_allNamed {l : List RuntimeContainer} : Node.Steady (AllNamed pod m l) :=
  ⟨fun w w' h hs c hc => steady_namedAt.frame w w' (h c hc) hs,
    fun w id code w' h he c hc => steady_namedAt.exit w id code w' (h c hc) he⟩

theorem meets_removeAll {l : List RuntimeContainer} (hm : ids.lookup m = none)
    (h : Starting pod n p sandboxId m ids w ∧ AllNamed pod m l w) :
    (Program.forEach (fun c : RuntimeContainer => do
        let _ ← removeContainer c.id
        pure ()) l).Meets (startContract pod n p)
      (fun _ w => Starting pod n p sandboxId m ids w ∧ AllNamed pod m l w) w := by
  refine Program.Meets.forEach ?_ h
  intro c hc w hw
  rw [Program.meets_bind]
  refine (meets_removeContainer (steady_starting.and steady_allNamed) ?_ hw).mono fun _ _ hw => hw
  exact fun w h => ⟨h.1.drop hm (h.2 c hc),fun c' hc' => namedAt_drop (h.2 c' hc')⟩

theorem meets_cleanupReservedContainerName (hname : ctr.name = m) (hm : ids.lookup m = none)
    (h : Starting pod n p sandboxId m ids w) : (cleanupReservedContainerName pod ctr).Meets
      (startContract pod n p) (fun _ w => Starting pod n p sandboxId m ids w) w := by
  subst hname
  unfold cleanupReservedContainerName
  rw [Program.meets_bind]
  refine meets_ask steady_starting trivial h ?_
  intro w hw c a w' _ hrespond
  obtain ⟨rfl,⟨l,-,-,rfl⟩ | ⟨e,-,rfl⟩⟩ := Node.respond_listContainers hrespond
  · exact (meets_removeAll hm ⟨hw,fun c hc => namedAt_of_label hc⟩).mono fun _ _ hw => hw.1
  · exact hw

theorem meets_createContainer {config : CreateContainerConfig} (huid : config.podUid = pod.uid.val)
    (hname : config.container.name = m) (hsandbox : config.sandboxId = sandboxId)
    (h : Starting pod n p sandboxId m ids w) : (createContainer config).Meets (startContract pod n p)
      (fun a w => Starting pod n p sandboxId m ids w ∧ match a with
        | .ok cid => CreatedAt pod sandboxId cid m w
        | .error e => ∀ id, reservedContainerId e.text = some id → NamedAt pod id m w) w := by
  refine meets_ask steady_starting trivial h ?_
  intro w hw c a w' _ hrespond
  rcases Node.respond_createContainer hrespond with ⟨cid,rfl,hfresh,rfl⟩ | ⟨e,rfl,rfl,hhonest⟩
  · refine ⟨⟨known_create hw.1 hfresh rfl,fun hmn => startable_create (hw.2 hmn) rfl⟩,?_⟩
    exact ⟨Node.newRecord config,by rw [Node.lookup_put,if_pos rfl],rfl,huid,hname,hsandbox⟩
  · refine ⟨hw,?_⟩
    intro id hid r hr
    unfold Node.reservedHonestly at hhonest
    rw [hid,Option.bind_some,hr] at hhonest
    simp only [Bool.and_eq_true,beq_iff_eq] at hhonest
    exact ⟨hhonest.1.trans huid,hhonest.2.trans hname⟩

theorem meets_createOrReplace {config : CreateContainerConfig} (huid : config.podUid = pod.uid.val)
    (hcontainer : config.container.name = m) (hname : ctr.name = m) (hsandbox : config.sandboxId = sandboxId)
    (hm : ids.lookup m = none) (h : Starting pod n p sandboxId m ids w) :
    (createOrReplace pod ctr config).Meets (startContract pod n p)
      (fun a w => Starting pod n p sandboxId m ids w ∧
        ∀ cid, a = .ok cid → CreatedAt pod sandboxId cid m w) w := by
  unfold createOrReplace
  rw [Program.meets_bind]
  refine (meets_createContainer huid hcontainer hsandbox h).mono ?_
  rintro a w ⟨hw,ha⟩
  cases a with
  | ok cid =>
    refine ⟨hw,?_⟩
    rintro cid' heq
    obtain rfl := Except.ok.inj heq
    exact ha
  | error e =>
    dsimp only at ha ⊢
    split
    · rw [Program.meets_bind]
      have hclean : (cleanupReserved pod ctr (reservedContainerId e.text)).Meets (startContract pod n p)
          (fun _ w => Starting pod n p sandboxId m ids w) w := by
        cases hid : reservedContainerId e.text with
        | none => exact meets_cleanupReservedContainerName hname hm hw
        | some id =>
          unfold cleanupReserved
          rw [Program.meets_bind]
          refine (meets_cleanupContainerById hm hw (ha id hid)).mono ?_
          intro _ w hw
          exact meets_cleanupReservedContainerName hname hm hw
      refine hclean.mono ?_
      intro _ w hw
      refine (meets_createContainer huid hcontainer hsandbox hw).mono ?_
      rintro a w ⟨hw,ha⟩
      refine ⟨hw,?_⟩
      rintro cid rfl
      exact ha
    · exact ⟨hw,fun cid heq => nomatch heq⟩

/-- The container runs under an ID that is still to be recorded. -/
def Started (pod : PodSpec) (n : String) (p : RestartPolicy) (sandboxId m id : String)
    (ids : HashMap String String) (w : Node) : Prop :=
  Known pod n p sandboxId (ids.insert m id) w ∧ (m ≠ n → Known pod n p sandboxId ids w)

theorem steady_started : Node.Steady (Started pod n p sandboxId m id ids) := steady_known.and steady_known.imp

section Start
variable (hpol : HasPolicy pod n p) (hp : p ≠ .always) (hctr : ctr ∈ allContainers pod)
include hpol hp hctr

theorem meets_postStart (h : Started pod n p sandboxId ctr.name id ids w) :
    (postStart ctr id).Meets (startContract pod n p) (fun r st' w' => st' = st ∧ match r with
      | .ok _ => Started pod n p sandboxId ctr.name id ids w'
      | .error _ => Known pod n p sandboxId ids w') st w := by
  unfold postStart
  split
  · exact ⟨rfl,h⟩
  · next handler _ =>
    rw [Routine.meets_bind,Routine.meets_lift]
    refine meets_ask steady_started trivial h ?_
    intro w hw c a w' hcopes hrespond
    obtain rfl := Node.commit_keep hrespond
    cases a with
    | ok _ => exact ⟨rfl,hw⟩
    | error e =>
      -- the hook of `n` itself does not fail
      have hne : ctr.name ≠ n := by
        intro hn
        rcases Node.commit_cases hrespond with ⟨-,h,-⟩ | ⟨⟨e,hfault,-⟩,-⟩
        · cases h
        · exact hcopes ctr hctr rfl (by rw [hpol.2 ctr hctr hn]; exact hp) e hfault
      dsimp only
      rw [Routine.meets_bind,Routine.meets_lift]
      have hstop : (stopContainer id 0).Meets (startContract pod n p)
          (fun _ => Known pod n p sandboxId ids) w' :=
        meets_ask_passive steady_known trivial (hw.2 hne)
      refine hstop.mono ?_
      intro _ w hw
      exact ⟨rfl,hw⟩

theorem meets_startCreated (hsandbox : st.sandboxId = some sandboxId)
    (hm : st.containerIds.lookup ctr.name = none)
    (h : Starting pod n p sandboxId ctr.name st.containerIds w)
    (hcreated : CreatedAt pod sandboxId id ctr.name w) :
    (startCreated ctr id).Meets (startContract pod n p)
      (fun _ st' w' => KnownIn pod n p sandboxId st' w') st w := by
  unfold startCreated
  rw [Routine.meets_bind,Routine.meets_lift]
  have hsteady : Node.Steady fun w => Starting pod n p sandboxId ctr.name st.containerIds w ∧
    CreatedAt pod sandboxId id ctr.name w := steady_starting.and steady_createdAt
  refine Program.meets_request ⟨h,hcreated⟩ hsteady.drift ?_
  rintro w ⟨h,r,hr,hstate,huid,hname,hbox⟩
  refine ⟨?_,?_⟩
  · -- the only container started here is the one just created
    intro id' r' heq hr' _ hn
    injection heq with hid
    subst hid
    obtain rfl : r = r' := Option.some.inj (hr.symm.trans hr')
    rw [hbox]
    exact (h.2 (hname.symm.trans hn)).not_mustNotStart
  · rintro a w' ⟨c,-,hrespond⟩
    rcases Node.respond_startContainer hrespond with ⟨r',hr',-,rfl,rfl⟩ | ⟨e,rfl,rfl⟩
    · obtain rfl : r = r' := Option.some.inj (hr.symm.trans hr')
      have hstarted : Started pod n p sandboxId ctr.name id st.containerIds (w.start id r) := by
        refine ⟨?_,fun hne => known_start_other h.1 hr hstate (by rw [hname]; exact hne)⟩
        rw [← hname]
        exact known_start h.1 hr hstate huid fun hn => h.2 (hname.symm.trans hn)
      dsimp only
      rw [Routine.meets_bind]
      refine (meets_postStart hpol hp hctr hstarted).mono ?_
      rintro r' st' w ⟨rfl,hw⟩
      cases r' with
      | error e => exact ⟨hsandbox,hw⟩
      | ok _ =>
        dsimp only at hw ⊢
        rw [Routine.meets_bind,Routine.meets_lift]
        have hreport : (reportedStatus id).Meets (startContract pod n p)
            (fun _ => Started pod n p sandboxId ctr.name id st'.containerIds) w :=
          meets_ask_passive steady_started trivial hw
        refine hreport.mono ?_
        intro _ w hw
        dsimp only
        rw [Routine.meets_bind,Routine.meets_lift]
        have hinstant : instant.Meets (startContract pod n p)
            (fun _ => Started pod n p sandboxId ctr.name id st'.containerIds) w :=
          meets_ask_passive steady_started trivial hw
        refine hinstant.mono ?_
        intro at_ w hw
        exact ⟨hsandbox,hw.1⟩
    · dsimp only
      rw [Routine.meets_bind,Routine.meets_lift]
      have hnamed : NamedAt pod id ctr.name w' := by
        intro r' hr'
        obtain rfl : r = r' := Option.some.inj (hr.symm.trans hr')
        exact ⟨huid,hname⟩
      refine (meets_removeNamed hm ⟨h,hnamed⟩).mono ?_
      intro _ w hw
      exact ⟨hsandbox,hw.1.1⟩

theorem meets_createAndStart {imageId : String} (h : KnownIn pod n p sandboxId st w)
    (hs : ctr.name = n → Startable pod n p sandboxId w) :
    (createAndStart pod ctr sandboxId imageId).Meets (startContract pod n p)
      (fun _ st' w' => KnownIn pod n p sandboxId st' w') st w := by
  unfold createAndStart
  rw [Routine.meets_bind,Routine.meets_get]
  dsimp only
  rw [Routine.meets_bind]
  refine (meets_dropRecord h hs).mono ?_
  rintro r st' w ⟨rfl,hsandbox,hm,hstart⟩
  dsimp only
  rw [Routine.meets_bind,meets_orExit]
  refine (meets_createOrReplace rfl rfl rfl rfl hm hstart).mono ?_
  rintro a w ⟨hstart,hcreated⟩
  cases a with
  | error e => exact ⟨hsandbox,hstart.1⟩
  | ok cid => exact meets_startCreated hpol hp hctr hsandbox hm hstart (hcreated cid rfl)

theorem meets_startContainer (h : KnownIn pod n p sandboxId st w)
    (hs : ctr.name = n → Startable pod n p sandboxId w) :
    (startContainer pod ctr sandboxId).Meets (startContract pod n p)
      (fun _ st' w' => KnownIn pod n p sandboxId st' w') st w := by
  have hsteady : Node.Steady fun w => KnownIn pod n p sandboxId st w ∧
    (ctr.name = n → Startable pod n p sandboxId w) := steady_knownIn.and steady_startable.imp
  unfold startContainer
  rw [Routine.meets_bind,meets_orExit]
  have himage : (ensureImage ctr.image).Meets (startContract pod n p) (fun _ w =>
      KnownIn pod n p sandboxId st w ∧ (ctr.name = n → Startable pod n p sandboxId w)) w :=
    meets_ask_passive hsteady trivial ⟨h,hs⟩
  refine himage.mono ?_
  intro a w hw
  cases a with
  | error e => exact hw.1
  | ok imageId =>
    dsimp only
    rw [Routine.meets_bind,meets_orExit]
    have hprepare : (prepareContainer ctr).Meets (startContract pod n p) (fun _ w =>
        KnownIn pod n p sandboxId st w ∧ (ctr.name = n → Startable pod n p sandboxId w)) w :=
      meets_ask_passive hsteady trivial hw
    refine hprepare.mono ?_
    intro a w hw
    cases a with
    | error e => exact hw.1
    | ok msg =>
      cases msg with
      | some msg => exact hw.1
      | none => exact meets_createAndStart hpol hp hctr hw.1 hw.2

end Start

end KubeAir.Worker
