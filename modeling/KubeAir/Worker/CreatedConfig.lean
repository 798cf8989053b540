import KubeAir.Worker.SyncFrame

/-! # The configuration of a new container

What every run of `start_container` passes to the runtime when it creates the container.
-/
namespace KubeAir.Worker
open Core Transition Program Routine

/-- A call that creates a container does so with a configuration that satisfies `P`. -/
def Request.Creates (P : CreateContainerConfig → Prop) : Request → Prop
  | .createContainer config => P config
  | _ => True

/-- The configuration that a container is created with. -/
def createConfig (pod : PodSpec) (ctr : ContainerSpec) (sandboxId imageId : String) (attempt : ℕ) :
    CreateContainerConfig where
  podUid := pod.uid.val
  podName := pod.podRef.name
  podNamespace := pod.podRef.ns
  attempt := attempt
  container := ctr
  sandboxId := sandboxId
  imageId := imageId
  security := buildContainerSecurity ctr.securityContext pod.securityContext
  shareProcessNamespace := pod.shareProcessNamespace.getD false

variable {P : CreateContainerConfig → Prop} {pod : PodSpec} {ctr : ContainerSpec} {name sandboxId imageId : String}
  {st : PodRuntimeState} {config : CreateContainerConfig}

theorem Request.Aside.creates {op : Request} (h : op.Aside) : op.Creates P := by
  cases op with
  | createContainer config => exact h.elim
  | _ => trivial

theorem creates_dropRecord : (dropRecord name).Keeps (Request.Creates P) (fun _ _ => True) := by
  unfold dropRecord
  apply Keeps.bind (fun _ _ _ _ _ => trivial) (Keeps.get fun _ => trivial)
  intro st
  split
  · exact Keeps.pure (fun _ => trivial) ()
  · apply Keeps.bind (fun _ _ _ _ _ => trivial) (Keeps.lift (fun _ => trivial) (uses_ask trivial))
    intro _
    apply Keeps.bind (fun _ _ _ _ _ => trivial) (Keeps.lift (fun _ => trivial) (uses_ask trivial))
    intro _
    exact Keeps.modify fun _ => trivial

theorem creates_createOrReplace (h : P config) : (createOrReplace pod ctr config).Uses (Request.Creates P) := by
  unfold createOrReplace
  apply Uses.bind (uses_ask h)
  intro r
  split
  · exact uses_pure _
  · split
    · apply Uses.bind ((aside_cleanupReserved pod ctr _).mono (fun _ => Request.Aside.creates) (fun _ h => h))
      intro _
      exact uses_ask h
    · exact uses_pure _

theorem creates_startCreated {cid : String} :
    (startCreated ctr cid).Keeps (Request.Creates P) (fun _ _ => True) := by
  have hpost : (postStart ctr cid).Keeps (Request.Creates P) (fun _ _ => True) := by
    unfold postStart
    split
    · exact Keeps.pure (fun _ => trivial) ()
    · apply Keeps.bind (fun _ _ _ _ _ => trivial) (Keeps.lift (fun _ => trivial) (uses_ask trivial))
      intro r
      split
      · exact Keeps.pure (fun _ => trivial) ()
      · apply Keeps.bind (fun _ _ _ _ _ => trivial) (Keeps.lift (fun _ => trivial) (uses_ask trivial))
        intro _
        exact Keeps.exit (fun _ => trivial) _
  unfold startCreated
  apply Keeps.bind (fun _ _ _ _ _ => trivial) (Keeps.lift (fun _ => trivial) (uses_ask trivial))
  intro r
  split
  · apply Keeps.bind (fun _ _ _ _ _ => trivial) (Keeps.lift (fun _ => trivial) (uses_ask trivial))
    intro _
    exact Keeps.exit (fun _ => trivial) _
  · apply Keeps.bind (fun _ _ _ _ _ => trivial) hpost
    intro _
    apply Keeps.bind (fun _ _ _ _ _ => trivial) (Keeps.lift (fun _ => trivial) (uses_ask trivial))
    intro _
    apply Keeps.bind (fun _ _ _ _ _ => trivial) (Keeps.lift (fun _ => trivial) (uses_ask trivial))
    intro _
    exact Keeps.modify fun _ => trivial

theorem creates_orExit {α : Type} {q : WorkerM (Except KubeletError α)} (h : q.Uses (Request.Creates P)) :
    (orExit q).Keeps (Request.Creates P) (fun _ _ => True) := by
  unfold orExit
  apply Keeps.bind (fun _ _ _ _ _ => trivial) (Keeps.lift (fun _ => trivial) h)
  intro r
  split
  · exact Keeps.pure (fun _ => trivial) _
  · exact Keeps.exit (fun _ => trivial) _

/-- The attempt is the restart count that the state holds when the container is created. -/
theorem creates_createAndStart (h : P (createConfig pod ctr sandboxId imageId ((st.restartCounts.lookup ctr.name).getD 0))) :
    (createAndStart pod ctr sandboxId imageId st).Uses (Request.Creates P) := by
  have hrest : ∀ n, P (createConfig pod ctr sandboxId imageId n) → (do
      dropRecord ctr.name
      let cid ← orExit (createOrReplace pod ctr (createConfig pod ctr sandboxId imageId n))
      Routine.modify fun st =>
        { st with restartCounts := st.restartCounts.insert ctr.name (saturatingSucc n) }
      startCreated ctr cid : StartM Unit).Keeps (Request.Creates P) (fun _ _ => True) := by
    intro n hn
    apply Keeps.bind (fun _ _ _ _ _ => trivial) creates_dropRecord
    intro _
    apply Keeps.bind (fun _ _ _ _ _ => trivial) (creates_orExit (creates_createOrReplace hn))
    intro cid
    apply Keeps.bind (fun _ _ _ _ _ => trivial) (Keeps.modify fun _ => trivial)
    intro _
    exact creates_startCreated
  exact hrest ((st.restartCounts.lookup ctr.name).getD 0) h st

/-- Every run of `start_container` creates the container with one configuration, up to the image. -/
theorem creates_startContainer
    (h : ∀ imageId, P (createConfig pod ctr sandboxId imageId ((st.restartCounts.lookup ctr.name).getD 0))) :
    (startContainer pod ctr sandboxId st).Uses (Request.Creates P) := by
  unfold startContainer
  refine ⟨trivial,fun r => ?_⟩
  cases r with
  | error e => trivial
  | ok imageId =>
    refine ⟨trivial,fun r => ?_⟩
    cases r with
    | error e => trivial
    | ok msg =>
      cases msg with
      | some msg => trivial
      | none => exact creates_createAndStart (h imageId)

/-- A run in which every call succeeds creates and starts the container. -/
theorem uses_of_startContainer {U : Request → Prop} (pod : PodSpec) (ctr : ContainerSpec) (sandboxId : String)
    (h : (startContainer pod ctr sandboxId {}).Uses U) :
    U (.createContainer (createConfig pod ctr sandboxId "" 0)) ∧ U (.startContainer "") := by
  have hcreate := (h.2 (.ok "")).2 (.ok none)
  exact ⟨hcreate.1,(hcreate.2 (.ok "")).1⟩

end KubeAir.Worker
