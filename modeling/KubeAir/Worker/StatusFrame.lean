import KubeAir.Worker.SyncFrame

/-! # Who writes the status

One call writes the stored status, and no call turns back the clocks. Most of a pass
writes no status at all.
-/
namespace KubeAir.Worker
open Core Transition Program Routine

/-- The stored phase is terminal. -/
def isTerminalState (st : PodLifecycleState) : Bool := st.phase == .failed || st.phase == .succeeded

def Node.terminal (w : Node) : Bool := w.status.any isTerminalState

/-- The world moves on: time does not go back, and the status is as before. -/
structure Node.Later (w w' : Node) : Prop where
  status : w'.status = w.status
  clock : w.clock ≤ w'.clock
  uptime : w.uptime ≤ w'.uptime

namespace Node
variable {w w' : Node} {c : Choice}

theorem Later.refl (w : Node) : w.Later w := ⟨rfl,le_rfl,le_rfl⟩

theorem Later.trans {w₁ w₂ w₃ : Node} (h : w₁.Later w₂) (h' : w₂.Later w₃) : w₁.Later w₃ :=
  ⟨h'.status.trans h.status,h.clock.trans h'.clock,h.uptime.trans h'.uptime⟩

theorem respond_setStatus {st : PodLifecycleState} {a : Unit} (h : w.respond (.setStatus st) c = some (a,w')) :
    w' = { w with status := some st } :=
  (Prod.mk.inj (Option.some.inj h)).2.symm

/-- Only `setStatus` changes the stored status, and no call turns back the clocks. -/
theorem respond_silent {op : Request} (hop : op.Silent) {a : op.Answer}
    (h : w.respond op c = some (a,w')) : w.Later w' := by
  have hcommit {next : Node} {may : Bool} {a : Except KubeletError Unit}
      (h : w.commit may next c = some (a,w')) (hnext : w.Later next) : w.Later w' := by
    rcases commit_cases h with ⟨-,-,rfl⟩ | ⟨-,rfl⟩
    · exact hnext
    · exact .refl _
  unfold respond at h
  cases op with
  | setStatus => exact hop.elim
  | ensurePodVolumes | unmountPodVolumes | stopContainer | updateContainerResources | runPostStart
  | reportPodStatus | removeContainer | stopPodSandbox | removePodSandbox => exact hcommit h ⟨rfl,le_rfl,le_rfl⟩
  | startContainer id =>
    dsimp only at h
    split at h
    · exact hcommit h ⟨rfl,le_rfl,le_rfl⟩
    · exact hcommit h (.refl w)
  | podSandboxStatus | containerStatus =>
    rw [(read_cases h).1]
    exact .refl w
  | sleep | pause | runPreStop | getStatus | forgetProbes | spawnProbe =>
    obtain ⟨-,rfl⟩ := Prod.mk.inj (Option.some.inj h)
    exact .refl w
  | now | instant | runPodSandbox | createContainer | listPodSandboxes | listContainers | ensureImage
  | prepareContainer | containerStartupDone | containerReadiness | readTerminationMessage =>
    cases c <;> grind [Later, put]
end Node

section Silence
variable (worker : PodWorker) (pod : PodSpec) {ε α β : Type}

variable {U : Request → Prop}

/-- A routine whose calls all satisfy `U`. -/
abbrev Only (U : Request → Prop) (m : PassM ε α) : Prop := m.Keeps U (fun _ _ => True)

theorem only_bind {m : PassM ε α} {f : α → PassM ε β} (hm : Only U m) (hf : ∀ a, Only U (f a)) :
    Only U (m >>= f) :=
  Keeps.bind (fun _ _ _ _ _ => trivial) hm hf

theorem only_lift {q : WorkerM α} (h : q.Uses U) : Only U (liftM q : PassM ε α) :=
  Keeps.lift (fun _ => trivial) h

theorem only_modify (f : PodRuntimeState → PodRuntimeState) : Only U (Routine.modify f : PassM ε Unit) :=
  Keeps.modify fun _ => trivial

theorem only_pure (a : α) : Only U (pure a : PassM ε α) := Keeps.pure (fun _ => trivial) a

theorem only_get : Only U (Routine.get : PassM ε PodRuntimeState) := Keeps.get fun _ => trivial

theorem only_exit (e : ε) : Only U (Routine.exit e : PassM ε α) := Keeps.exit (fun _ => trivial) e

theorem Inert.silent {m : PassM ε α} (h : Inert Request.Calm m) : Only Request.Silent m :=
  fun st => (h st).mono (fun _ hop => hop.silent) fun _ _ => trivial

theorem only_orExit {q : WorkerM (Except KubeletError α)} (h : q.Uses U) : Only U (orExit q) := by
  unfold orExit
  apply only_bind (only_lift h)
  intro r
  split
  · exact only_pure _
  · exact only_exit _

theorem only_dropRecord (name : String) : Only Request.Silent (dropRecord name) := by
  unfold dropRecord
  apply only_bind only_get
  intro st
  split
  · exact only_pure ()
  · apply only_bind (only_lift (uses_ask trivial))
    intro _
    exact only_bind (only_lift (uses_ask trivial)) fun _ => only_modify _

theorem silent_cleanupReservedContainerName (ctr : ContainerSpec) :
    (cleanupReservedContainerName pod ctr).Uses Request.Silent := by
  unfold cleanupReservedContainerName
  apply Uses.bind (uses_ask trivial)
  intro r
  split
  · exact uses_pure ()
  · exact Uses.forEach fun c _ => Uses.bind (uses_ask trivial) fun _ => uses_pure ()

theorem silent_createOrReplace (ctr : ContainerSpec) (config : CreateContainerConfig) :
    (createOrReplace pod ctr config).Uses Request.Silent := by
  unfold createOrReplace
  apply Uses.bind (uses_ask trivial)
  intro r
  split
  · exact uses_pure _
  · refine uses_ite (Uses.bind ?_ fun _ => uses_ask trivial) (uses_pure _)
    unfold cleanupReserved
    split
    · refine Uses.bind ?_ fun _ => silent_cleanupReservedContainerName pod ctr
      exact Uses.bind (uses_ask trivial) fun _ => Uses.bind (uses_ask trivial) fun _ => uses_pure ()
    · exact silent_cleanupReservedContainerName pod ctr

theorem only_postStart (ctr : ContainerSpec) (cid : String) : Only Request.Silent (postStart ctr cid) := by
  unfold postStart
  split
  · exact only_pure ()
  · apply only_bind (only_lift (uses_ask trivial))
    intro r
    split
    · exact only_pure ()
    · exact only_bind (only_lift (uses_ask trivial)) fun _ => only_exit _

theorem only_startCreated (ctr : ContainerSpec) (cid : String) : Only Request.Silent (startCreated ctr cid) := by
  unfold startCreated
  apply only_bind (only_lift (uses_ask trivial))
  intro r
  split
  · exact only_bind (only_lift (uses_ask trivial)) fun _ => only_exit _
  · apply only_bind (only_postStart ctr cid)
    intro _
    apply only_bind (only_lift (uses_ask trivial))
    intro _
    exact only_bind (only_lift (uses_ask trivial)) fun _ => only_modify _

theorem only_startContainer (ctr : ContainerSpec) (sandboxId : String) :
    Only Request.Silent (startContainer pod ctr sandboxId) := by
  unfold startContainer
  apply only_bind (only_orExit (uses_ask trivial))
  intro imageId
  apply only_bind (only_orExit (uses_ask trivial))
  intro msg
  split
  · exact only_modify _
  · unfold createAndStart
    apply only_bind only_get
    intro st
    apply only_bind (only_dropRecord ctr.name)
    intro _
    apply only_bind (only_orExit (silent_createOrReplace pod ctr _))
    intro cid
    exact only_bind (only_modify _) fun _ => only_startCreated ctr cid

theorem only_adoptListed (id : String) : Only Request.Silent (adoptListed pod id) := by
  unfold adoptListed
  apply only_bind (only_lift (uses_ask trivial))
  intro r
  split
  · exact only_modify _
  · exact only_pure ()

end Silence
end KubeAir.Worker
