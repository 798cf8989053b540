import KubeAir.Worker.PassRuns
import KubeAir.Worker.SyncFrame

/-! # What the worker knows about a container

For a container whose policy forbids some start, the recorded IDs have to tell as much as
the history does. `Known` says so, `Startable` says that the history forbids nothing yet,
and each operation on the containers of the runtime keeps them.
-/
namespace KubeAir.Worker
open Core Transition

variable (pod : PodSpec) (n : String) (p : RestartPolicy) (sandboxId : String)

/-- What the recorded IDs of the containers say about the container `n`. -/
structure Known (ids : HashMap String String) (w : Node) : Prop where
  recorded : ∀ m id, ids.lookup m = some id → ∃ r, w.containers.lookup id = some r ∧
    r.podUid = pod.uid.val ∧ r.name = m ∧ (r.state = .running ∨ r.state = .exited)
  never : p = .never → .started pod.uid.val sandboxId n ∈ w.log → ids.lookup n ≠ none
  running : p = .onFailure → ∀ id r, w.containers.lookup id = some r → r.podUid = pod.uid.val →
    r.name = n → r.state = .running → ids.lookup n = some id
  succeeded : p = .onFailure → .exited pod.uid.val n 0 ∈ w.log → ∃ id r, ids.lookup n = some id ∧
    w.containers.lookup id = some r ∧ r.state = .exited ∧ r.exitCode = some 0

/-- The container `n` may be started, and no other container of that name runs. -/
structure Startable (w : Node) : Prop where
  never : p = .never → .started pod.uid.val sandboxId n ∉ w.log
  running : p = .onFailure → ∀ id r, w.containers.lookup id = some r → r.podUid = pod.uid.val →
    r.name = n → r.state ≠ .running
  succeeded : p = .onFailure → .exited pod.uid.val n 0 ∉ w.log

/-- The ID, if it is in use, belongs to a container of the pod with the name `m`. -/
def NamedAt (id m : String) (w : Node) : Prop :=
  ∀ r, w.containers.lookup id = some r → r.podUid = pod.uid.val ∧ r.name = m

/-- A container of the pod that has been created in the sandbox and not been started. -/
def CreatedAt (id m : String) (w : Node) : Prop :=
  ∃ r, w.containers.lookup id = some r ∧ r.state = .created ∧ r.podUid = pod.uid.val ∧ r.name = m ∧
    r.sandboxId = sandboxId

variable {pod n p sandboxId} {ids : HashMap String String} {w w' : Node} {id m : String}

theorem Startable.not_mustNotStart (h : Startable pod n p sandboxId w) : ¬ MustNotStart pod w sandboxId n p := by
  cases p with
  | always => exact id
  | onFailure => exact h.succeeded rfl
  | never => exact h.never rfl

/-- What is not recorded may be started. -/
theorem Known.startable (h : Known pod n p sandboxId ids w) (hn : ids.lookup n = none) :
    Startable pod n p sandboxId w where
  never hp hs := h.never hp hs hn
  running := by
    intro hp id r hr huid hname hrun
    have hid := h.running hp id r hr huid hname hrun
    rw [hn] at hid
    cases hid
  succeeded := by
    intro hp hs
    obtain ⟨id,r,hid,-⟩ := h.succeeded hp hs
    rw [hn] at hid
    cases hid

/-- A recorded container under `OnFailure` that has exited with an error may be started. -/
theorem Known.startable_of_failed {r : ContainerRecord} (h : Known pod n p sandboxId ids w) (hp : p ≠ .never)
    (hid : ids.lookup n = some id) (hr : w.containers.lookup id = some r) (hstate : r.state = .exited)
    (hcode : r.exitCode ≠ some 0) : Startable pod n p sandboxId w where
  never hnever := (hp hnever).elim
  running := by
    intro hf id' r' hr' huid hname hrun
    have hid' := h.running hf id' r' hr' huid hname hrun
    obtain rfl : id = id' := Option.some.inj (hid.symm.trans hid')
    obtain rfl : r = r' := Option.some.inj (hr.symm.trans hr')
    rw [hstate] at hrun
    cases hrun
  succeeded := by
    intro hf hs
    obtain ⟨id',r',hid',hr',-,hcode'⟩ := h.succeeded hf hs
    obtain rfl : id = id' := Option.some.inj (hid.symm.trans hid')
    obtain rfl : r = r' := Option.some.inj (hr.symm.trans hr')
    exact hcode hcode'

/-! ## Exits and frames -/

/-- An exit changes one running container of the runtime. -/
theorem lookup_of_exit {code : ℤ} (h : w.exit id code = some w') {id' : String} {r' : ContainerRecord}
    (hr' : w'.containers.lookup id' = some r') :
    (id' ≠ id ∧ w.containers.lookup id' = some r') ∨
      ∃ r, id' = id ∧ w.containers.lookup id = some r ∧ r.state = .running ∧ r'.podUid = r.podUid ∧
        r'.name = r.name ∧ r'.sandboxId = r.sandboxId ∧ r'.state = .exited ∧ r'.exitCode = some code := by
  obtain ⟨r,hr,hrun,rfl⟩ := Node.exit_cases h
  change (w.put id _).containers.lookup id' = some r' at hr'
  rw [Node.lookup_put] at hr'
  split at hr'
  · next heq =>
    obtain rfl := Option.some.inj hr'
    exact .inr ⟨r,heq,hr,hrun,rfl,rfl,rfl,rfl,rfl⟩
  · next hne => exact .inl ⟨hne,hr'⟩

/-- What is kept of a container when another or itself exits. -/
theorem lookup_exit {code : ℤ} (h : w.exit id code = some w') {id' : String} {r : ContainerRecord}
    (hr : w.containers.lookup id' = some r) :
    ∃ r', w'.containers.lookup id' = some r' ∧ r'.podUid = r.podUid ∧ r'.name = r.name ∧
      r'.sandboxId = r.sandboxId ∧ (r.state ≠ .running → r' = r) ∧
      (r.state = .running → r'.state = .running ∨ r'.state = .exited) := by
  obtain ⟨r₀,hr₀,hrun,rfl⟩ := Node.exit_cases h
  change ∃ r', (w.put id _).containers.lookup id' = some r' ∧ _
  rw [Node.lookup_put]
  by_cases heq : id' = id
  · subst heq
    obtain rfl : r₀ = r := Option.some.inj (hr₀.symm.trans hr)
    rw [if_pos rfl]
    exact ⟨_,rfl,rfl,rfl,rfl,fun hne => (hne hrun).elim,fun _ => .inr rfl⟩
  · rw [if_neg heq]
    exact ⟨r,hr,rfl,rfl,rfl,fun _ => rfl,.inl⟩

theorem log_of_exit {code : ℤ} (h : w.exit id code = some w') :
    ∃ r, w.containers.lookup id = some r ∧ r.state = .running ∧
      w'.log = .exited r.podUid r.name code :: w.log := by
  obtain ⟨r,hr,hrun,rfl⟩ := Node.exit_cases h
  exact ⟨r,hr,hrun,rfl⟩

theorem known_exit {code : ℤ} (hk : Known pod n p sandboxId ids w) (h : w.exit id code = some w') :
    Known pod n p sandboxId ids w' where
  recorded := by
    intro m id' hid
    obtain ⟨r,hr,huid,hname,hstate⟩ := hk.recorded m id' hid
    obtain ⟨r',hr',huid',hname',-,hsame,hrunning⟩ := lookup_exit h hr
    refine ⟨r',hr',huid'.trans huid,hname'.trans hname,?_⟩
    rcases hstate with hrun | hexited
    · exact hrunning hrun
    · rw [hsame (by rw [hexited]; decide)]
      exact .inr hexited
  never := by
    intro hp hs
    obtain ⟨r,-,-,hlog⟩ := log_of_exit h
    rw [hlog] at hs
    rcases List.mem_cons.mp hs with heq | hmem
    · cases heq
    · exact hk.never hp hmem
  running := by
    intro hp id' r' hr' huid hname hrun
    rcases lookup_of_exit h hr' with ⟨-,hr⟩ | ⟨r,-,-,-,-,-,-,hexited,-⟩
    · exact hk.running hp id' r' hr huid hname hrun
    · rw [hexited] at hrun
      cases hrun
  succeeded := by
    intro hp hs
    obtain ⟨r,hr,hrun,hlog⟩ := log_of_exit h
    rw [hlog] at hs
    rcases List.mem_cons.mp hs with heq | hmem
    · -- the container that exits now is the recorded one
      injection heq with huid hname hcode
      have hid := hk.running hp id r hr huid.symm hname.symm hrun
      obtain ⟨r',hr',-⟩ := lookup_exit h hr
      rcases lookup_of_exit h hr' with ⟨hne,-⟩ | ⟨-,-,-,-,-,-,-,hexited,hcode'⟩
      · exact (hne rfl).elim
      · exact ⟨id,r',hid,hr',hexited,by rw [hcode',← hcode]⟩
    · obtain ⟨id',r₀,hid,hr₀,hexited,hcode⟩ := hk.succeeded hp hmem
      obtain ⟨r',hr',-,-,-,hsame,-⟩ := lookup_exit h hr₀
      obtain rfl := hsame (by rw [hexited]; decide)
      exact ⟨id',_,hid,hr',hexited,hcode⟩

theorem startable_exit {code : ℤ} (hs : Startable pod n p sandboxId w) (h : w.exit id code = some w') :
    Startable pod n p sandboxId w' where
  never := by
    intro hp hmem
    obtain ⟨r,-,-,hlog⟩ := log_of_exit h
    rw [hlog] at hmem
    rcases List.mem_cons.mp hmem with heq | hmem
    · cases heq
    · exact hs.never hp hmem
  running := by
    intro hp id' r' hr' huid hname hrun
    rcases lookup_of_exit h hr' with ⟨-,hr⟩ | ⟨r,-,-,-,-,-,-,hexited,-⟩
    · exact hs.running hp id' r' hr huid hname hrun
    · rw [hexited] at hrun
      cases hrun
  succeeded := by
    intro hp hmem
    obtain ⟨r,hr,hrun,hlog⟩ := log_of_exit h
    rw [hlog] at hmem
    rcases List.mem_cons.mp hmem with heq | hmem
    · injection heq with huid hname hcode
      exact hs.running hp id r hr huid.symm hname.symm hrun
    · exact hs.succeeded hp hmem

theorem known_frame (hk : Known pod n p sandboxId ids w) (h : w.SameContainers w') :
    Known pod n p sandboxId ids w' := by
  obtain ⟨hcontainers,hlog⟩ := h
  obtain ⟨hrecorded,hnever,hrunning,hsucceeded⟩ := hk
  constructor
  · rwa [hcontainers]
  · rwa [hlog]
  · rwa [hcontainers]
  · rwa [hcontainers,hlog]

theorem startable_frame (hs : Startable pod n p sandboxId w) (h : w.SameContainers w') :
    Startable pod n p sandboxId w' := by
  obtain ⟨hcontainers,hlog⟩ := h
  obtain ⟨hnever,hrunning,hsucceeded⟩ := hs
  constructor
  · rwa [hlog]
  · rwa [hcontainers]
  · rwa [hlog]

theorem steady_known : Node.Steady (Known pod n p sandboxId ids) :=
  ⟨fun _ _ h hs => known_frame h hs,fun _ _ _ _ h he => known_exit h he⟩

theorem steady_startable : Node.Steady (Startable pod n p sandboxId) :=
  ⟨fun _ _ h hs => startable_frame h hs,fun _ _ _ _ h he => startable_exit h he⟩

theorem steady_namedAt : Node.Steady (NamedAt pod id m) where
  frame := by
    intro w w' h hs r hr
    rw [hs.1] at hr
    exact h r hr
  exit := by
    intro w id' code w' h he r' hr'
    rcases lookup_of_exit he hr' with ⟨-,hr⟩ | ⟨r,rfl,hr,-,huid,hname,-⟩
    · exact h r' hr
    · rw [huid,hname]
      exact h r hr

theorem steady_createdAt : Node.Steady (CreatedAt pod sandboxId id m) where
  frame := by
    rintro w w' ⟨r,hr,hrest⟩ hs
    exact ⟨r,by rw [hs.1]; exact hr,hrest⟩
  exit := by
    rintro w id' code w' ⟨r,hr,hcreated,hrest⟩ he
    obtain ⟨r',hr',-,-,-,hsame,-⟩ := lookup_exit he hr
    obtain rfl := hsame (by rw [hcreated]; decide)
    exact ⟨_,hr',hcreated,hrest⟩

/-! ## Operations on one container -/

/-- Forgetting the ID of a container that may be started. -/
theorem known_erase (hk : Known pod n p sandboxId ids w) (hs : m = n → Startable pod n p sandboxId w) :
    Known pod n p sandboxId (ids.erase m) w := by
  have hlookup {m' id' : String} (h : (ids.erase m).lookup m' = some id') : ids.lookup m' = some id' := by
    by_cases hm : m' = m
    · subst hm
      rw [AList.lookup_erase] at h
      cases h
    · rwa [AList.lookup_erase_ne hm] at h
  by_cases hm : m = n
  · have hstart := hs hm
    constructor
    · exact fun m' id' h => hk.recorded m' id' (hlookup h)
    · exact fun hp h => (hstart.never hp h).elim
    · exact fun hp id' r hr huid hname hrun => (hstart.running hp id' r hr huid hname hrun).elim
    · exact fun hp h => (hstart.succeeded hp h).elim
  · have hn : (ids.erase m).lookup n = ids.lookup n := AList.lookup_erase_ne (Ne.symm hm)
    constructor
    · exact fun m' id' h => hk.recorded m' id' (hlookup h)
    · rw [hn]
      exact hk.never
    · rw [hn]
      exact hk.running
    · rw [hn]
      exact hk.succeeded

/-- Removing a container whose name is not recorded. -/
theorem known_drop (hk : Known pod n p sandboxId ids w) (hnamed : NamedAt pod id m w)
    (hm : ids.lookup m = none) : Known pod n p sandboxId ids (w.drop id) := by
  have hne {m' id' : String} {r : ContainerRecord} (hid : ids.lookup m' = some id')
      (hr : w.containers.lookup id' = some r) (hname : r.name = m') :
      (w.drop id).containers.lookup id' = some r := by
    rw [Node.lookup_drop,if_neg,hr]
    rintro rfl
    have hm' := (hnamed r hr).2
    rw [hname] at hm'
    rw [hm',hm] at hid
    cases hid
  constructor
  · intro m' id' hid
    obtain ⟨r,hr,huid,hname,hstate⟩ := hk.recorded m' id' hid
    exact ⟨r,hne hid hr hname,huid,hname,hstate⟩
  · exact hk.never
  · intro hp id' r hr huid hname hrun
    rw [Node.lookup_drop] at hr
    split at hr
    · cases hr
    · exact hk.running hp id' r hr huid hname hrun
  · intro hp hs
    obtain ⟨id',r,hid,hr,hrest⟩ := hk.succeeded hp hs
    obtain ⟨r',hr',-,hname,-⟩ := hk.recorded n id' hid
    obtain rfl : r' = r := Option.some.inj (hr'.symm.trans hr)
    exact ⟨id',r',hid,hne hid hr hname,hrest⟩

theorem startable_drop (hs : Startable pod n p sandboxId w) : Startable pod n p sandboxId (w.drop id) := by
  constructor
  · exact hs.never
  · intro hp id' r hr huid hname
    rw [Node.lookup_drop] at hr
    split at hr
    · cases hr
    · exact hs.running hp id' r hr huid hname
  · exact hs.succeeded

theorem namedAt_drop {id' : String} (h : NamedAt pod id m w) : NamedAt pod id m (w.drop id') := by
  intro r hr
  rw [Node.lookup_drop] at hr
  split at hr
  · cases hr
  · exact h r hr

/-- Creating a container under a new ID. -/
theorem known_create {r : ContainerRecord} (hk : Known pod n p sandboxId ids w)
    (hfresh : w.containers.lookup id = none) (hr : r.state = .created) :
    Known pod n p sandboxId ids (w.put id r) := by
  have hkeep {id' : String} {r' : ContainerRecord} (hr' : w.containers.lookup id' = some r') :
      (w.put id r).containers.lookup id' = some r' := by
    rw [Node.lookup_put,if_neg,hr']
    rintro rfl
    rw [hfresh] at hr'
    cases hr'
  constructor
  · intro m' id' hid
    obtain ⟨r',hr',hrest⟩ := hk.recorded m' id' hid
    exact ⟨r',hkeep hr',hrest⟩
  · exact hk.never
  · intro hp id' r' hr' huid hname hrun
    rw [Node.lookup_put] at hr'
    split at hr'
    · obtain rfl := Option.some.inj hr'
      rw [hr] at hrun
      cases hrun
    · exact hk.running hp id' r' hr' huid hname hrun
  · intro hp hs
    obtain ⟨id',r',hid,hr',hrest⟩ := hk.succeeded hp hs
    exact ⟨id',r',hid,hkeep hr',hrest⟩

theorem startable_create {r : ContainerRecord} (hs : Startable pod n p sandboxId w) (hr : r.state = .created) :
    Startable pod n p sandboxId (w.put id r) := by
  constructor
  · exact hs.never
  · intro hp id' r' hr' huid hname hrun
    rw [Node.lookup_put] at hr'
    split at hr'
    · obtain rfl := Option.some.inj hr'
      rw [hr] at hrun
      cases hrun
    · exact hs.running hp id' r' hr' huid hname hrun
  · exact hs.succeeded

/-- A container of another name that starts. -/
theorem known_start_other {r : ContainerRecord} (hk : Known pod n p sandboxId ids w)
    (hr : w.containers.lookup id = some r) (hcreated : r.state = .created) (hname : r.name ≠ n) :
    Known pod n p sandboxId ids (w.start id r) := by
  have hkeep {id' : String} {r' : ContainerRecord} (hr' : w.containers.lookup id' = some r')
      (hstate : r'.state = .running ∨ r'.state = .exited) :
      (w.start id r).containers.lookup id' = some r' := by
    change (w.put id _).containers.lookup id' = some r'
    rw [Node.lookup_put,if_neg,hr']
    rintro rfl
    obtain rfl : r = r' := Option.some.inj (hr.symm.trans hr')
    rw [hcreated] at hstate
    rcases hstate with h | h <;> cases h
  constructor
  · intro m' id' hid
    obtain ⟨r',hr',huid,hm,hstate⟩ := hk.recorded m' id' hid
    exact ⟨r',hkeep hr' hstate,huid,hm,hstate⟩
  · intro hp hs
    rcases List.mem_cons.mp hs with heq | hmem
    · injection heq with _ _ hn
      exact (hname hn.symm).elim
    · exact hk.never hp hmem
  · intro hp id' r' hr' huid hn hrun
    change (w.put id _).containers.lookup id' = some r' at hr'
    rw [Node.lookup_put] at hr'
    split at hr'
    · obtain rfl := Option.some.inj hr'
      exact (hname hn).elim
    · exact hk.running hp id' r' hr' huid hn hrun
  · intro hp hs
    rcases List.mem_cons.mp hs with heq | hmem
    · cases heq
    · obtain ⟨id',r',hid,hr',hexited,hcode⟩ := hk.succeeded hp hmem
      exact ⟨id',r',hid,hkeep hr' (.inr hexited),hexited,hcode⟩

/-- A container that starts is known once its ID is recorded. -/
theorem known_start {r : ContainerRecord} (hk : Known pod n p sandboxId ids w)
    (hr : w.containers.lookup id = some r) (hcreated : r.state = .created) (huid : r.podUid = pod.uid.val)
    (hs : r.name = n → Startable pod n p sandboxId w) :
    Known pod n p sandboxId (ids.insert r.name id) (w.start id r) := by
  have hself : (w.start id r).containers.lookup id =
      some { r with state := .running, startedAt := some w.clock } := by
    change (w.put id _).containers.lookup id = _
    rw [Node.lookup_put,if_pos rfl]
  by_cases hname : r.name = n
  · have hstart := hs hname
    have hn : (ids.insert r.name id).lookup n = some id := by rw [hname]; exact AList.lookup_insert _
    constructor
    · intro m' id' hid
      by_cases hm : m' = r.name
      · subst hm
        rw [AList.lookup_insert] at hid
        obtain rfl := Option.some.inj hid
        exact ⟨_,hself,huid,rfl,.inl rfl⟩
      · rw [AList.lookup_insert_ne hm] at hid
        obtain ⟨r',hr',huid',hm',hstate⟩ := hk.recorded m' id' hid
        refine ⟨r',?_,huid',hm',hstate⟩
        change (w.put id _).containers.lookup id' = some r'
        rw [Node.lookup_put,if_neg,hr']
        rintro rfl
        obtain rfl : r = r' := Option.some.inj (hr.symm.trans hr')
        exact hm hm'.symm
    · intro _ _
      rw [hn]
      exact Option.some_ne_none id
    · intro hp id' r' hr' huid' hn' hrun
      change (w.put id _).containers.lookup id' = some r' at hr'
      rw [Node.lookup_put] at hr'
      split at hr'
      · next heq => rw [hn,heq]
      · exact (hstart.running hp id' r' hr' huid' hn' hrun).elim
    · intro hp hmem
      rcases List.mem_cons.mp hmem with heq | hmem
      · cases heq
      · exact (hstart.succeeded hp hmem).elim
  · have hother := known_start_other hk hr hcreated hname
    have hn : (ids.insert r.name id).lookup n = ids.lookup n := AList.lookup_insert_ne (Ne.symm hname)
    constructor
    · intro m' id' hid
      by_cases hm : m' = r.name
      · subst hm
        rw [AList.lookup_insert] at hid
        obtain rfl := Option.some.inj hid
        exact ⟨_,hself,huid,rfl,.inl rfl⟩
      · rw [AList.lookup_insert_ne hm] at hid
        exact hother.recorded m' id' hid
    · rw [hn]
      exact hother.never
    · rw [hn]
      exact hother.running
    · rw [hn]
      exact hother.succeeded

/-! ## Recovery -/

/-- Recovery adopts the first entry of each name that it accepts. -/
theorem lookup_recoverContainers (st : PodRuntimeState) (l : List RuntimeContainer) (m : String) :
    (recoverContainers pod st l).containerIds.lookup m = (st.containerIds.lookup m).or
      ((l.find? (fun c => c.podUid == pod.uid.val && c.name == m && shouldRecover pod c)).map (·.id)) := by
  induction l generalizing st with
  | nil => simp [recoverContainers]
  | cons c rest ih =>
    change (recoverContainers pod (recoverContainer pod st c) rest).containerIds.lookup m = _
    rw [ih,List.find?_cons]
    have hstep : (recoverContainer pod st c).containerIds.lookup m = (st.containerIds.lookup m).or
        (if (c.podUid == pod.uid.val && c.name == m && shouldRecover pod c) = true then some c.id else none) := by
      unfold recoverContainer
      by_cases hname : c.name = m
      · subst hname
        split
        · next h =>
          obtain ⟨huid,hnone⟩ := h
          cases hrec : shouldRecover pod c with
          | true => simp [huid,hnone]
          | false => simp [hnone]
        · next h =>
          cases hlook : st.containerIds.lookup c.name with
          | some id => simp
          | none =>
            have huid : c.podUid ≠ pod.uid.val := fun huid => h ⟨huid,hlook⟩
            simp [huid]
      · have hbeq : (c.name == m) = false := by simpa using hname
        simp only [hbeq,Bool.and_false,Bool.false_and,Bool.false_eq_true,if_false,Option.or_none]
        split
        · dsimp only
          split
          · exact AList.lookup_insert_ne (Ne.symm hname)
          · rfl
        · rfl
    rw [hstep]
    split
    · next h => rw [h]; cases st.containerIds.lookup m <;> simp
    · next h =>
      have hfalse : (c.podUid == pod.uid.val && c.name == m && shouldRecover pod c) = false := by
        simpa using h
      rw [hfalse]
      cases st.containerIds.lookup m <;> simp

theorem sandboxId_recoverContainers (st : PodRuntimeState) (l : List RuntimeContainer) :
    (recoverContainers pod st l).sandboxId = st.sandboxId := by
  induction l generalizing st with
  | nil => rfl
  | cons c rest ih =>
    refine (ih (recoverContainer pod st c)).trans ?_
    unfold recoverContainer
    split <;> rfl

/-- The entries of a listing are the containers of the runtime. -/
theorem mem_listing {l : List String} {c : RuntimeContainer}
    (h : c ∈ l.filterMap fun id => (w.containers.lookup id).map (ContainerRecord.listed id)) :
    ∃ r, w.containers.lookup c.id = some r ∧ c = r.listed c.id := by
  obtain ⟨id,-,hid⟩ := List.mem_filterMap.mp h
  obtain ⟨r,hr,rfl⟩ := Option.map_eq_some_iff.mp hid
  exact ⟨r,hr,rfl⟩

theorem mem_adoptable {e : Σ _ : String, ContainerRecord} : e ∈ adoptable pod w n ↔
    w.containers.lookup e.1 = some e.2 ∧ e.2.podUid = pod.uid.val ∧ e.2.name = n ∧
      shouldRecover pod (e.2.listed e.1) = true := by
  unfold adoptable
  rw [List.mem_filter]
  have hmem : e ∈ w.containers.entries ↔ w.containers.lookup e.1 = some e.2 :=
    (AList.mem_lookup_iff (s := w.containers)).symm
  rw [hmem]
  simp only [Bool.and_eq_true,beq_iff_eq,and_assoc]

theorem state_of_shouldRecover {c : RuntimeContainer} (h : shouldRecover pod c = true) :
    c.state = .running ∨ c.state = .exited := by
  unfold shouldRecover at h
  split at h
  · next hs => exact .inl hs
  · next hs => exact .inr hs
  · cases h

theorem eq_of_mem_of_length_le_one {α : Type} {l : List α} {a b : α} (hl : l.length ≤ 1) (ha : a ∈ l)
    (hb : b ∈ l) : a = b := by
  match l, hl, ha, hb with
  | [x], _, ha, hb => exact (List.mem_singleton.mp ha).trans (List.mem_singleton.mp hb).symm

/-- What recovery adopts under a name may be adopted under it. -/
theorem adoptable_of_recovered {l : List String} {st : PodRuntimeState} (hst : st.containerIds = ∅) {m id : String}
    (h : (recoverContainers pod st (l.filterMap fun id =>
      (w.containers.lookup id).map (ContainerRecord.listed id))).containerIds.lookup m = some id) :
    ∃ r, (⟨id,r⟩ : Σ _ : String, ContainerRecord) ∈ adoptable pod w m := by
  rw [lookup_recoverContainers,hst,AList.lookup_empty,Option.none_or] at h
  obtain ⟨c,hc,rfl⟩ := Option.map_eq_some_iff.mp h
  have hmatch := List.find?_some hc
  simp only [Bool.and_eq_true,beq_iff_eq] at hmatch
  obtain ⟨r,hr,hcr⟩ := mem_listing (List.mem_of_find?_eq_some hc)
  rw [hcr] at hmatch
  exact ⟨r,mem_adoptable.mpr ⟨hr,hmatch.1.1,hmatch.1.2,hmatch.2⟩⟩

/-- The only container that may be adopted under a name is adopted. -/
theorem recovered_of_adoptable {l : List String} {st : PodRuntimeState} (hst : st.containerIds = ∅)
    (hl : l.Perm w.containers.keys) (hone : (adoptable pod w n).length ≤ 1) {e : Σ _ : String, ContainerRecord}
    (he : e ∈ adoptable pod w n) :
    (recoverContainers pod st (l.filterMap fun id =>
      (w.containers.lookup id).map (ContainerRecord.listed id))).containerIds.lookup n = some e.1 := by
  obtain ⟨hr,huid,hn,hrec⟩ := mem_adoptable.mp he
  have hkey : e.1 ∈ l := hl.mem_iff.mpr (AList.mem_keys.mp (AList.lookup_isSome.mp (by rw [hr]; rfl)))
  have hmem : e.2.listed e.1 ∈ l.filterMap fun id => (w.containers.lookup id).map (ContainerRecord.listed id) :=
    List.mem_filterMap.mpr ⟨e.1,hkey,by rw [hr]; rfl⟩
  have hsome : ((l.filterMap fun id => (w.containers.lookup id).map (ContainerRecord.listed id)).find?
      (fun c => c.podUid == pod.uid.val && c.name == n && shouldRecover pod c)).isSome = true := by
    rw [List.find?_isSome]
    refine ⟨_,hmem,?_⟩
    simp only [Bool.and_eq_true,beq_iff_eq]
    exact ⟨⟨huid,hn⟩,hrec⟩
  obtain ⟨c,hc⟩ := Option.isSome_iff_exists.mp hsome
  have hid : (recoverContainers pod st (l.filterMap fun id =>
      (w.containers.lookup id).map (ContainerRecord.listed id))).containerIds.lookup n = some c.id := by
    rw [lookup_recoverContainers,hst,AList.lookup_empty,Option.none_or,hc]
    rfl
  obtain ⟨r,hc'⟩ := adoptable_of_recovered hst hid
  rw [hid,eq_of_mem_of_length_le_one hone he hc']

/-- After a recovery that finds what it has to, the container is known. -/
theorem known_recovered {l : List String} {st : PodRuntimeState} (hfind : RecoveryFinds pod w sandboxId)
    (hpol : HasPolicy pod n p) (hp : p ≠ .always) (hl : l.Perm w.containers.keys) (hst : st.containerIds = ∅) :
    Known pod n p sandboxId (recoverContainers pod st (l.filterMap fun id =>
      (w.containers.lookup id).map (ContainerRecord.listed id))).containerIds w := by
  obtain ⟨⟨ctr,hctr,hname⟩,hpolicy⟩ := hpol
  obtain ⟨hone,hmust⟩ := hfind ctr hctr (by rw [hpolicy ctr hctr hname]; exact hp)
  rw [hname] at hone hmust
  rw [hpolicy ctr hctr hname] at hmust
  have hadopt {e : Σ _ : String, ContainerRecord} (he : e ∈ adoptable pod w n) := recovered_of_adoptable hst hl hone he
  constructor
  · intro m id hid
    obtain ⟨r,he⟩ := adoptable_of_recovered hst hid
    obtain ⟨hr,huid,hm,hrec⟩ := mem_adoptable.mp he
    exact ⟨r,hr,huid,hm,state_of_shouldRecover hrec⟩
  · intro hnever hs
    subst hnever
    obtain ⟨e,he,-⟩ := hmust hs
    rw [hadopt he]
    exact Option.some_ne_none _
  · intro _ id r hr huid hn hrun
    have hrec : shouldRecover pod (r.listed id) = true := by
      have hstate : (r.listed id).state = .running := hrun
      rw [shouldRecover,hstate]
    have he : (⟨id,r⟩ : Σ _ : String, ContainerRecord) ∈ adoptable pod w n :=
      mem_adoptable.mpr ⟨hr,huid,hn,hrec⟩
    exact hadopt he
  · intro hfailure hs
    subst hfailure
    obtain ⟨e,he,hdone⟩ := hmust hs
    exact ⟨e.1,e.2,hadopt he,(mem_adoptable.mp he).1,hdone rfl⟩

end KubeAir.Worker
