import KubeAir.Worker.KnownContainers

/-! # Which containers run

Only a start adds to the containers that run. Whatever is said of all of them is kept by every
other call and by the exits between two calls.
-/
namespace KubeAir.Worker
open Core Transition

variable (pod : PodSpec)

/-- A container of the pod with the name `n` runs under the ID. -/
def RunsAs (n id : String) (w : Node) : Prop :=
  ∃ r, w.containers.lookup id = some r ∧ r.podUid = pod.uid.val ∧ r.name = n ∧ r.state = .running

/-- No container of the pod with the name `n` runs. -/
def Down (n : String) (w : Node) : Prop := ∀ id, ¬ RunsAs pod n id w

/-- Two running containers of the pod have different names. -/
def SingleInstance (w : Node) : Prop := ∀ n id id', RunsAs pod n id w → RunsAs pod n id' w → id = id'

def Declared (n : String) : Prop := ∃ ctr ∈ allContainers pod, ctr.name = n

instance (n : String) : Decidable (Declared pod n) := by
  unfold Declared
  infer_instance

/-- A container that runs under a name of the pod is recorded. -/
def Tracked (ids : HashMap String String) (w : Node) : Prop :=
  ∀ n id, Declared pod n → RunsAs pod n id w → ids.lookup n = some id

/-- What runs in the second world runs in the first one. -/
def Falls (w w' : Node) : Prop := ∀ n id, RunsAs pod n id w' → RunsAs pod n id w

/-- An assertion about what runs that holds as well where less runs. -/
def Falling (P : Node → Prop) : Prop := ∀ w w', P w → Falls pod w w' → P w'

variable {pod} {w w' : Node} {c : Choice} {n m id id' : String} {ids : HashMap String String}

theorem Falling.and {P Q : Node → Prop} (hP : Falling pod P) (hQ : Falling pod Q) :
    Falling pod fun w => P w ∧ Q w := by
  intro w w' h hw
  exact ⟨hP w w' h.1 hw,hQ w w' h.2 hw⟩

theorem Falling.const (q : Prop) : Falling pod fun _ => q := fun _ _ h _ => h

theorem falling_down : Falling pod (Down pod n) := by
  intro w w' h hw id hrun
  exact h id (hw n id hrun)

theorem falling_tracked : Falling pod (Tracked pod ids) := by
  intro w w' h hw n id hn hrun
  exact h n id hn (hw n id hrun)

theorem falling_singleInstance : Falling pod (SingleInstance pod) := by
  intro w w' h hw n id id' hrun hrun'
  exact h n id id' (hw n id hrun) (hw n id' hrun')

/-! ## Calls and exits -/

theorem falls_of_sameContainers (h : w.SameContainers w') : Falls pod w w' := by
  rintro n id ⟨r,hr,hrest⟩
  rw [h.1] at hr
  exact ⟨r,hr,hrest⟩

theorem falls_drop : Falls pod w (w.drop id) := by
  rintro n id' ⟨r,hr,hrest⟩
  rw [Node.lookup_drop] at hr
  split at hr
  · cases hr
  · exact ⟨r,hr,hrest⟩

theorem falls_put_created {r : ContainerRecord} (hr : r.state = .created) : Falls pod w (w.put id r) := by
  rintro n id' ⟨r',hr',hrest⟩
  rw [Node.lookup_put] at hr'
  split at hr'
  · obtain rfl := Option.some.inj hr'
    obtain ⟨-,-,hrun⟩ := hrest
    rw [hr] at hrun
    cases hrun
  · exact ⟨r',hr',hrest⟩

/-- Every call but a start leaves at most the containers running that ran before. -/
theorem falls_respond {op : Request} {a : op.Answer} (h : w.respond op c = some (a,w'))
    (hop : op.StartsNothing) : Falls pod w w' := by
  by_cases hpassive : op.Passive
  · exact falls_of_sameContainers (Node.respond_passive hpassive h)
  · cases op with
    | createContainer config =>
      rcases Node.respond_createContainer h with ⟨cid,-,-,rfl⟩ | ⟨e,-,rfl,-⟩
      · exact falls_put_created rfl
      · exact fun _ _ hrun => hrun
    | startContainer id => exact hop.elim
    | removeContainer id =>
      rcases Node.respond_removeContainer h with rfl | rfl
      · exact falls_drop
      · exact fun _ _ hrun => hrun
    | removePodSandbox sandboxId =>
      rcases Node.commit_cases h with ⟨-,-,rfl⟩ | ⟨-,rfl⟩
      · rintro n id ⟨r,hr,hrest⟩
        exact ⟨r,(Node.lookup_dropSandbox.mp hr).1,hrest⟩
      · exact fun _ _ hrun => hrun
    | _ => exact (hpassive trivial).elim

theorem falls_settle {op : Request} {o : Outcome} {a : op.Answer} (h : w.settle op o = some (a,w'))
    (hop : op.StartsNothing) : Falls pod w w' := by
  obtain ⟨c,a',hrespond⟩ := Node.respond_of_settle h
  exact falls_respond hrespond hop

theorem falls_exit {code : ℤ} (h : w.exit id code = some w') : Falls pod w w' := by
  rintro n id' ⟨r,hr,huid,hname,hrun⟩
  rcases lookup_of_exit h hr with ⟨-,hr⟩ | ⟨-,-,-,-,-,-,-,hexited,-⟩
  · exact ⟨r,hr,huid,hname,hrun⟩
  · rw [hexited] at hrun
    cases hrun

theorem Falling.drift {P : Node → Prop} (hP : Falling pod P) (hw : P w) (hd : Node.Drift w w') : P w' := by
  induction hd with
  | refl => exact hw
  | tail _ hstep ih =>
    obtain ⟨id,code,hexit⟩ := hstep
    exact hP _ _ ih (falls_exit hexit)

/-- What runs after a container has started. -/
theorem runsAs_start {r : ContainerRecord} (h : RunsAs pod n id' (w.start id r)) :
    RunsAs pod n id' w ∨ id' = id ∧ r.podUid = pod.uid.val ∧ n = r.name := by
  obtain ⟨r',hr',huid,hname,hrun⟩ := h
  change (w.put id _).containers.lookup id' = some r' at hr'
  rw [Node.lookup_put] at hr'
  split at hr'
  · next heq =>
    obtain rfl := Option.some.inj hr'
    exact .inr ⟨heq,huid,hname.symm⟩
  · exact .inl ⟨r',hr',huid,hname,hrun⟩

/-- A container that starts while none of its name runs is the only one of its name. -/
theorem SingleInstance.start {r : ContainerRecord} (h : SingleInstance pod w)
    (hdown : r.podUid = pod.uid.val → Down pod r.name w) : SingleInstance pod (w.start id r) := by
  intro n id₁ id₂ h₁ h₂
  rcases runsAs_start h₁ with h₁ | ⟨rfl,huid,rfl⟩
  · rcases runsAs_start h₂ with h₂ | ⟨-,huid,rfl⟩
    · exact h n id₁ id₂ h₁ h₂
    · exact (hdown huid id₁ h₁).elim
  · rcases runsAs_start h₂ with h₂ | ⟨rfl,-,-⟩
    · exact (hdown huid id₂ h₂).elim
    · rfl

/-! ## What is recorded -/

theorem RunsAs.isRunning (h : RunsAs pod n id w) : w.isRunning id = true := by
  obtain ⟨r,hr,-,-,hrun⟩ := h
  unfold Node.isRunning
  rw [hr]
  simp [hrun]

/-- Nothing runs under a name that is not recorded. -/
theorem Tracked.down (h : Tracked pod ids w) (hn : Declared pod n) (hnone : ids.lookup n = none) :
    Down pod n w := by
  intro id hrun
  have hid := h n id hn hrun
  rw [hnone] at hid
  cases hid

/-- The recorded container is the only one of its name that can run. -/
theorem Tracked.down_of_recorded (h : Tracked pod ids w) (hn : Declared pod n)
    (hid : ids.lookup n = some id) (hstopped : ¬ RunsAs pod n id w) : Down pod n w := by
  intro id' hrun
  have hid' := h n id' hn hrun
  obtain rfl : id = id' := Option.some.inj (hid.symm.trans hid')
  exact hstopped hrun

/-- Forgetting the ID of a container that does not run. -/
theorem Tracked.erase (h : Tracked pod ids w) (hdown : Down pod m w) : Tracked pod (ids.erase m) w := by
  intro n id hn hrun
  have hne : n ≠ m := by
    rintro rfl
    exact hdown id hrun
  rw [AList.lookup_erase_ne hne]
  exact h n id hn hrun

/-- Recording the container that has just started. -/
theorem Tracked.start {r : ContainerRecord} (h : Tracked pod ids w) (hdown : Down pod r.name w) :
    Tracked pod (ids.insert r.name id) (w.start id r) := by
  intro n id' hn hrun
  rcases runsAs_start hrun with hrun | ⟨rfl,-,rfl⟩
  · have hne : n ≠ r.name := by
      rintro rfl
      exact hdown id' hrun
    rw [AList.lookup_insert_ne hne]
    exact h n id' hn hrun
  · exact AList.lookup_insert _

/-- A container that has stopped again need not be recorded. -/
theorem Tracked.of_insert (h : Tracked pod (ids.insert m id) w) (hstopped : ¬ RunsAs pod m id w) :
    Tracked pod ids w := by
  intro n id' hn hrun
  have hid := h n id' hn hrun
  have hne : n ≠ m := by
    rintro rfl
    rw [AList.lookup_insert] at hid
    obtain rfl := Option.some.inj hid
    exact hstopped hrun
  rwa [AList.lookup_insert_ne hne] at hid

end KubeAir.Worker
