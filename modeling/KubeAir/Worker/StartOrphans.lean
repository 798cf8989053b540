import KubeAir.Worker.SyncFrame

/-! # What a start leaves behind

The containers that `start_container` creates in the runtime, beside the one that it records, for
every way in which its calls are answered.
-/
namespace KubeAir.Worker.StartOrphans
open Core Transition Program Routine

/-- A call and its answer. -/
abbrev Call := Σ op : Request, op.Answer

/-- What a call does to the containers that have been created and not removed. -/
def Call.apply (ids : List String) : Call → List String
  | ⟨.createContainer _,.ok id⟩ => ids ++ [id]
  | ⟨.removeContainer id,.ok _⟩ => ids.filter (· ≠ id)
  | _ => ids

/-- The containers that are left of those that the calls have created. -/
def left (calls : List Call) : List String := calls.foldl Call.apply []

/-- The call is a PostStart hook that failed. -/
def Call.HookFails : Call → Prop
  | ⟨.runPostStart ..,.error _⟩ => True
  | _ => False

/-- The call has found an invalid configuration of the container. -/
def Call.FindsConfigError : Call → Prop
  | ⟨.prepareContainer _,.ok (some _)⟩ => True
  | _ => False

/-- The call is a removal that failed. -/
def Call.RemovalFails : Call → Prop
  | ⟨.removeContainer _,.error _⟩ => True
  | _ => False

/-- Calls are answered in any way, except that removing a container succeeds. -/
def anyAnswers : Contract Request Request.Answer (List Call) where
  drift := Eq
  allowed _ _ := True
  answers calls op ans calls' := ¬Call.RemovalFails ⟨op,ans⟩ ∧ calls' = calls ++ [⟨op,ans⟩]

/-- What the runtime has agrees with what is recorded when a start returns. -/
structure InStep (name : String) (r : Except KubeletError Unit) (st : PodRuntimeState) (calls : List Call) : Prop where
  noOrphan : ∀ id ∈ left calls, st.containerIds.lookup name = some id
  recorded : r = .ok () → (∀ c ∈ calls, ¬c.FindsConfigError) → ∃ config id,
    (⟨.createContainer config,.ok id⟩ : Call) ∈ calls ∧ (⟨.startContainer id,.ok ()⟩ : Call) ∈ calls ∧
      st.containerIds.lookup name = some id

def HookSucceeds (calls : List Call) : Prop := ∀ c ∈ calls, ¬c.HookFails

variable {pod : PodSpec} {ctr : ContainerSpec} {name sandboxId imageId cid : String} {st : PodRuntimeState}
  {calls : List Call} {call : Call} {r : Except KubeletError Unit}

theorem left_concat : left (calls ++ [call]) = Call.apply (left calls) call := by
  unfold left
  rw [List.foldl_append]
  rfl

theorem HookSucceeds.concat (h : HookSucceeds calls) (hcall : ¬call.HookFails) : HookSucceeds (calls ++ [call]) := by
  intro c hc
  rcases List.mem_append.mp hc with hc | hc
  · exact h c hc
  · rw [List.mem_singleton.mp hc]
    exact hcall

/-! ## Before the container exists -/

/-- No container has been created, and no hook has failed. -/
def Bare (calls : List Call) : Prop := left calls = [] ∧ HookSucceeds calls

theorem Bare.inStep (h : Bare calls) (hr : r ≠ .ok ()) : InStep name r st calls ↔ HookSucceeds calls :=
  iff_of_true ⟨fun _ hid => absurd (h.1 ▸ hid) List.not_mem_nil,fun hok => absurd hok hr⟩ h.2

theorem Bare.concat (h : Bare calls) (call : Call) (hleft : call.apply [] = []) (hhook : ¬call.HookFails) :
    Bare (calls ++ [call]) :=
  ⟨by rw [left_concat,h.1,hleft],h.2.concat hhook⟩

theorem meets_call {op : Request} {Q : op.Answer → List Call → Prop}
    (h : ∀ ans, ¬Call.RemovalFails ⟨op,ans⟩ → Q ans (calls ++ [⟨op,ans⟩])) : (ask op).Meets anyAnswers Q calls := by
  rintro w rfl
  refine ⟨trivial,?_⟩
  rintro ans w ⟨hremoved,rfl⟩
  exact h ans hremoved

theorem apply_aside {op : Request} (h : op.Aside) (ans : op.Answer) :
    Call.apply [] ⟨op,ans⟩ = [] ∧ ¬Call.HookFails ⟨op,ans⟩ := by
  cases op with
  | createContainer config => exact h.elim
  | runPostStart handler id name => exact h.elim
  | removeContainer id => cases ans <;> exact ⟨rfl,not_false⟩
  | _ => exact ⟨rfl,not_false⟩

/-- Calls on the side neither create a container nor run a hook. -/
theorem meets_aside {α : Type} {q : WorkerM α} (h : q.Uses Request.Aside) (hbare : Bare calls) :
    q.Meets anyAnswers (fun _ calls => Bare calls) calls := by
  refine (Every.meets h hbare ?_ ?_).mono (fun _ _ hw => hw.2)
  · rintro w w' hw rfl
    exact hw
  · rintro w op hw hop
    refine ⟨trivial,?_⟩
    rintro ans w' ⟨-,rfl⟩
    obtain ⟨hleft,hhook⟩ := apply_aside hop ans
    exact hw.concat _ hleft hhook

theorem meets_askAside {op : Request} (h : op.Aside) (hbare : Bare calls) :
    (ask op).Meets anyAnswers (fun _ calls => Bare calls) calls :=
  meets_aside (uses_ask h) hbare

theorem meets_dropRecord (hbare : Bare calls) : (dropRecord name).Meets anyAnswers (fun r st calls =>
    r = .ok () ∧ st.containerIds.lookup name = none ∧ Bare calls) st calls := by
  unfold dropRecord
  rw [Routine.meets_bind,meets_get]
  dsimp only
  split
  · rename_i hnone
    exact ⟨rfl,hnone,hbare⟩
  · rename_i old _
    rw [Routine.meets_bind,meets_lift]
    refine Program.Meets.mono (meets_askAside (show (Request.removeContainer old).Aside from trivial) hbare) (fun _ calls hbare => ?_)
    dsimp only
    rw [Routine.meets_bind,meets_lift]
    refine Program.Meets.mono (meets_askAside (show (Request.forgetProbes old).Aside from trivial) hbare) (fun _ calls hbare => ?_)
    exact ⟨rfl,AList.lookup_erase _ _,hbare⟩

/-- One container has been created and is left, and no hook has failed. -/
structure Created (cid : String) (calls : List Call) : Prop where
  left : left calls = [cid]
  created : ∃ config, (⟨.createContainer config,.ok cid⟩ : Call) ∈ calls
  hooks : HookSucceeds calls

theorem meets_create {config : CreateContainerConfig} (hbare : Bare calls) :
    (createContainer config).Meets anyAnswers (fun r calls => match r with
      | .ok cid => Created cid calls
      | .error _ => Bare calls) calls := by
  apply meets_call
  intro ans _
  cases ans with
  | error e => exact hbare.concat _ rfl not_false
  | ok cid =>
    refine ⟨?_,⟨config,List.mem_append_right _ List.mem_cons_self⟩,hbare.2.concat not_false⟩
    rw [left_concat,hbare.1]
    rfl

theorem meets_createOrReplace {config : CreateContainerConfig} (hbare : Bare calls) :
    (createOrReplace pod ctr config).Meets anyAnswers (fun r calls => match r with
      | .ok cid => Created cid calls
      | .error _ => Bare calls) calls := by
  unfold createOrReplace
  rw [Program.meets_bind]
  refine (meets_create hbare).mono (fun r calls hr => ?_)
  cases r with
  | ok cid => exact hr
  | error e =>
    dsimp only
    split
    · rw [Program.meets_bind]
      exact (meets_aside (aside_cleanupReserved pod ctr _) hr).mono (fun _ _ hbare => meets_create hbare)
    · exact hr

/-! ## After it has been created -/

theorem Created.concat (h : Created cid calls) (call : Call) (hleft : call.apply [cid] = [cid])
    (hhook : ¬call.HookFails) : Created cid (calls ++ [call]) where
  left := by rw [left_concat,h.left,hleft]
  created := h.created.imp fun _ hc => List.mem_append_left _ hc
  hooks := h.hooks.concat hhook

/-- A container that is left and not recorded breaks the law. -/
theorem not_inStep (hleft : left calls = [cid]) (hnone : st.containerIds.lookup name = none) :
    ¬InStep name r st calls := by
  intro h
  have hid := h.noOrphan cid (by rw [hleft]; exact List.mem_cons_self)
  rw [hnone] at hid
  cases hid

theorem meets_postStart (h : Created cid calls) (hnone : st.containerIds.lookup ctr.name = none)
    (hstarted : (⟨.startContainer cid,.ok ()⟩ : Call) ∈ calls) :
    (postStart ctr cid).Meets anyAnswers (fun r st' calls => match r with
      | .ok _ => st' = st ∧ Created cid calls ∧ (⟨.startContainer cid,.ok ()⟩ : Call) ∈ calls
      | .error e => InStep ctr.name (.error e) st' calls ↔ HookSucceeds calls) st calls := by
  unfold postStart
  split
  · exact ⟨rfl,h,hstarted⟩
  · rename_i handler _
    rw [Routine.meets_bind,meets_lift]
    apply meets_call
    intro ans _
    cases ans with
    | ok u => exact ⟨rfl,h.concat _ rfl not_false,List.mem_append_left _ hstarted⟩
    | error e =>
      dsimp only
      rw [Routine.meets_bind,meets_lift]
      apply meets_call
      intro ans _
      have hleft : left (calls ++ [⟨.runPostStart handler cid ctr.name,.error e⟩] ++ [⟨.stopContainer cid 0,ans⟩]) =
          [cid] := by
        rw [left_concat,left_concat,h.left]
        rfl
      refine iff_of_false (not_inStep hleft hnone) (fun hhooks => ?_)
      exact hhooks _ (List.mem_append_left _ (List.mem_append_right _ List.mem_cons_self)) trivial

theorem meets_startCreated (h : Created cid calls) (hnone : st.containerIds.lookup ctr.name = none) :
    (startCreated ctr cid).Meets anyAnswers (fun r st' calls =>
      InStep ctr.name r st' calls ↔ HookSucceeds calls) st calls := by
  unfold startCreated
  rw [Routine.meets_bind,meets_lift]
  apply meets_call
  intro ans _
  cases ans with
  | error e =>
    have hfailed := h.concat ⟨.startContainer cid,.error e⟩ rfl not_false
    dsimp only
    rw [Routine.meets_bind,meets_lift]
    apply meets_call
    intro ans hremoved
    cases ans with
    | error e => exact absurd trivial hremoved
    | ok u =>
      have hleft : left (calls ++ [⟨.startContainer cid,.error e⟩] ++ [⟨.removeContainer cid,.ok u⟩]) = [] := by
        rw [left_concat,hfailed.left]
        change [cid].filter (fun id => decide (id ≠ cid)) = []
        rw [List.filter_cons_of_neg (by simp),List.filter_nil]
      have hbare : Bare (calls ++ [⟨.startContainer cid,.error e⟩] ++ [⟨.removeContainer cid,.ok u⟩]) :=
        ⟨hleft,hfailed.hooks.concat not_false⟩
      exact hbare.inStep nofun
  | ok u =>
    have hstarted := h.concat ⟨.startContainer cid,.ok u⟩ rfl not_false
    dsimp only
    rw [Routine.meets_bind]
    refine (meets_postStart hstarted hnone (List.mem_append_right _ List.mem_cons_self)).mono ?_
    intro r st' calls hr
    cases r with
    | error e => exact hr
    | ok v =>
      obtain ⟨rfl,hcreated,hmem⟩ := hr
      dsimp only
      rw [Routine.meets_bind,meets_lift]
      apply meets_call
      intro status _
      dsimp only
      rw [Routine.meets_bind,meets_lift]
      apply meets_call
      intro at_ _
      have hreported := (hcreated.concat ⟨.containerStatus .report cid,status⟩ rfl not_false).concat
        ⟨.instant,at_⟩ rfl not_false
      refine iff_of_true ⟨?_,?_⟩ hreported.hooks
      · intro id hid
        rw [hreported.left] at hid
        rw [List.mem_singleton.mp hid]
        exact AList.lookup_insert _
      · intro _ _
        obtain ⟨config,hconfig⟩ := hreported.created
        exact ⟨config,cid,hconfig,List.mem_append_left _ (List.mem_append_left _ hmem),AList.lookup_insert _⟩

theorem meets_createAndStart (hbare : Bare calls) :
    (createAndStart pod ctr sandboxId imageId).Meets anyAnswers (fun r st' calls =>
      InStep ctr.name r st' calls ↔ HookSucceeds calls) st calls := by
  unfold createAndStart
  rw [Routine.meets_bind,meets_get]
  dsimp only
  rw [Routine.meets_bind]
  refine (meets_dropRecord hbare).mono ?_
  rintro r st calls ⟨rfl,hnone,hbare⟩
  dsimp only
  rw [Routine.meets_bind,meets_orExit]
  refine (meets_createOrReplace hbare).mono ?_
  intro r calls hr
  cases r with
  | error e => exact hr.inStep nofun
  | ok cid =>
    dsimp only
    rw [Routine.meets_bind,meets_modify]
    exact meets_startCreated hr hnone

/-- In every run, what is left of the containers that a start creates agrees with the record
exactly when no PostStart hook fails. -/
theorem startContainer_inStep_iff (pod : PodSpec) (ctr : ContainerSpec) (sandboxId : String) (st : PodRuntimeState) :
    (startContainer pod ctr sandboxId).Meets anyAnswers (fun r st' calls =>
      InStep ctr.name r st' calls ↔ HookSucceeds calls) st [] := by
  have hnothing : Bare [] := ⟨rfl,fun _ h => absurd h List.not_mem_nil⟩
  unfold startContainer
  rw [Routine.meets_bind,meets_orExit]
  apply meets_call
  intro ans _
  have hbare := hnothing.concat ⟨.ensureImage ctr.image,ans⟩ rfl not_false
  cases ans with
  | error e => exact hbare.inStep nofun
  | ok imageId =>
    dsimp only
    rw [Routine.meets_bind,meets_orExit]
    apply meets_call
    intro ans _
    cases ans with
    | error e => exact (hbare.concat ⟨.prepareContainer ctr,.error e⟩ rfl not_false).inStep nofun
    | ok msg =>
      cases msg with
      | none => exact meets_createAndStart (hbare.concat ⟨.prepareContainer ctr,.ok none⟩ rfl not_false)
      | some msg =>
        have hfound := hbare.concat ⟨.prepareContainer ctr,.ok (some msg)⟩ rfl not_false
        refine iff_of_true ⟨fun _ hid => absurd (hfound.1 ▸ hid) List.not_mem_nil,fun _ hnone => ?_⟩ hfound.2
        exact absurd trivial (hnone _ (List.mem_append_right _ List.mem_cons_self))

/-! ## A hook that fails -/

def hookedContainer : ContainerSpec :=
  { name := "app"
    lifecycle := some { postStart := some (.exec ["false"]) } }

/-- The container whose hook fails is stopped, but neither removed nor recorded. -/
theorem hooked_container_left : ¬(startContainer { uid := ⟨"u"⟩, podRef := ⟨"default","web"⟩ } hookedContainer "s").Meets
    anyAnswers (fun r st calls => InStep "app" r st calls) {} [] := by
  intro h
  have himage := (h [] rfl).2 (.ok "i") _ ⟨not_false,rfl⟩
  have hprepared := (himage _ rfl).2 (.ok none) _ ⟨not_false,rfl⟩
  have hcreated := (hprepared _ rfl).2 (.ok "c") _ ⟨not_false,rfl⟩
  have hstarted := (hcreated _ rfl).2 (.ok ()) _ ⟨not_false,rfl⟩
  have hfailed := (hstarted _ rfl).2 (.error (.lifecycle "hook failed")) _ ⟨not_false,rfl⟩
  have hstopped := (hfailed _ rfl).2 (.ok ()) _ ⟨not_false,rfl⟩
  have hrecorded := hstopped.noOrphan "c" List.mem_cons_self
  cases hrecorded

end KubeAir.Worker.StartOrphans
