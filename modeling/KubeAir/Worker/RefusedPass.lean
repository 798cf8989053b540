import KubeAir.Transition.Execution
import KubeAir.Worker.LatePass

/-! # Passes that refuse their pod, and first passes

A pass over a pod that is invalid or past its deadline starts nothing. Over any other pod
that has no sandbox on its node, some execution of the first pass makes one.
-/
namespace KubeAir.Worker
open Core Transition Program Routine

/-- The start time that is stored for the pod. -/
def Node.startTime (w : Node) : Option DateTime := w.status.bind (·.startTime)

/-- A pod with this start time is past its deadline. -/
def Overdue (pod : PodSpec) (start t : DateTime) : Prop :=
  deadlineExceeded pod (some { startTime := some start }) t = true

/-- A pass over a pod with this start time ends before it does anything for it. -/
def Refuses (pod : PodSpec) (start t : DateTime) : Prop := (validatePod pod).isOk = false ∨ Overdue pod start t

/-- Time goes on, and a start time that is stored stays. -/
structure Ages (w w' : Node) : Prop where
  clock : w.clock ≤ w'.clock
  start : ∀ t, w.startTime = some t → w'.startTime = some t

/-- What is written keeps the stored start time, and nothing is started. -/
def refusedContract : Contract Request Request.Answer Node where
  drift := Ages
  allowed w op := ¬ op.Starts ∧ ∀ st, op = .setStatus st → ∀ t, w.startTime = some t → st.startTime = some t
  answers w op a w' := ∃ c, w.respond op c = some (a,w')

variable {worker : PodWorker} {pod : PodSpec} {st : PodRuntimeState} {w w' : Node} {start t t' : DateTime}

theorem overdue_iff : Overdue pod start t ↔
    ∃ d, pod.activeDeadlineSeconds = some d ∧ (t - start).tdiv (10 ^ 9) > asI64 d := by
  unfold Overdue deadlineExceeded
  cases pod.activeDeadlineSeconds with
  | none => simp
  | some d => simp

theorem deadlineExceeded_of_start {ls : Option PodLifecycleState} (h : ls.bind (·.startTime) = some start) :
    deadlineExceeded pod ls t = true ↔ Overdue pod start t := by
  unfold Overdue deadlineExceeded
  rw [h]
  rfl

theorem Overdue.mono {start' : DateTime} (h : Overdue pod start t) (hspan : t - start ≤ t' - start') :
    Overdue pod start' t' := by
  obtain ⟨d,hd,hover⟩ := overdue_iff.mp h
  exact overdue_iff.mpr ⟨d,hd,hover.trans_le (Int.tdiv_le_tdiv (by decide) hspan)⟩

theorem Refuses.mono {start' : DateTime} (h : Refuses pod start t) (hspan : t - start ≤ t' - start') :
    Refuses pod start' t' :=
  h.imp_right fun hover => hover.mono hspan

theorem Ages.refl (w : Node) : Ages w w := ⟨le_rfl,fun _ h => h⟩

theorem Ages.trans {w'' : Node} (h : Ages w w') (h' : Ages w' w'') : Ages w w'' :=
  ⟨h.clock.trans h'.clock,fun t ht => h'.start t (h.start t ht)⟩

theorem Ages.of_later (h : w.Later w') : Ages w w' := by
  refine ⟨h.clock,?_⟩
  intro t ht
  unfold Node.startTime
  rw [h.status]
  exact ht

/-! ## Refused -/

/-- The pod has this start time and is past its deadline. -/
def IsOverdue (pod : PodSpec) (start : DateTime) (w : Node) : Prop := w.startTime = some start ∧ Overdue pod start w.clock

theorem IsOverdue.ages (h : IsOverdue pod start w) (hd : Ages w w') : IsOverdue pod start w' :=
  ⟨hd.start start h.1,h.2.mono (Int.sub_le_sub_right hd.clock start)⟩

theorem overdue_of_calls {α : Type} {U : Request → Prop} {R : α → Prop} {q : WorkerM α} (hq : q.Every U R)
    (hU : ∀ op, U op → op.Clearing) (h : IsOverdue pod start w) :
    q.Meets refusedContract (fun a w => R a ∧ IsOverdue pod start w) w := by
  refine Every.meets hq h (fun w w' h hd => h.ages hd) ?_
  intro w op h hop
  obtain ⟨hsilent,hstarts⟩ := hU op hop
  refine ⟨⟨hstarts,?_⟩,?_⟩
  · rintro st rfl
    exact hsilent.elim
  · rintro a w' ⟨c,hrespond⟩
    exact h.ages (.of_later (Node.respond_silent hsilent hrespond))

theorem every_start_deadlineExceededState (ls : PodLifecycleState) :
    (deadlineExceededState ls).Every Request.Calm fun st => st.startTime = ls.startTime :=
  Every.bind (uses_ask trivial) fun _ _ => Every.pure rfl

/-- The stored status of an overdue pod, as it is read. -/
theorem meets_getStatus_overdue {Q : Option PodLifecycleState → Node → Prop} (h : IsOverdue pod start w)
    (hQ : ∀ w, IsOverdue pod start w → Q w.status w) : getStatus.Meets refusedContract Q w := by
  refine Program.meets_request h (fun w w' h hd => h.ages hd) ?_
  rintro w h
  refine ⟨⟨id,fun _ hop => by cases hop⟩,?_⟩
  rintro ls w' ⟨c,hrespond⟩
  obtain ⟨rfl,rfl⟩ := Prod.mk.inj (Option.some.inj hrespond)
  exact hQ w h

/-- A pod that is past its deadline is taken down, and its status keeps its start time. -/
theorem meets_overdue_terminate (h : IsOverdue pod start w) :
    (terminateFailed pod deadlineExceededState).Meets refusedContract (fun r _ _ => ∃ e, r = .error e) st w := by
  unfold terminateFailed
  rw [Routine.meets_bind,Routine.meets_get]
  dsimp only
  rw [Routine.meets_bind,Routine.meets_lift]
  have hdown := uses_terminatePod pod st pod.terminationGracePeriodSeconds
  refine (overdue_of_calls hdown (fun _ hop => hop.clearing) h).mono ?_
  rintro _ w ⟨-,h⟩
  dsimp only
  rw [Routine.meets_bind,Routine.meets_lift]
  unfold updateStored
  rw [Program.meets_bind]
  refine meets_getStatus_overdue h fun w h => ?_
  cases hstatus : w.status with
  | none => exact ⟨_,rfl⟩
  | some ls =>
    have hls : ls.startTime = some start := by
      have hstart := h.1
      unfold Node.startTime at hstart
      rw [hstatus] at hstart
      exact hstart
    dsimp only
    rw [Program.meets_bind]
    have hcalls := every_start_deadlineExceededState ls
    refine (overdue_of_calls hcalls (fun _ hop => hop.clearing) h).mono ?_
    rintro st' w ⟨hst',h⟩
    refine Program.meets_request h (fun w w' h hd => h.ages hd) ?_
    rintro w h
    refine ⟨⟨id,?_⟩,fun _ _ _ => ⟨_,rfl⟩⟩
    intro st'' hop t ht
    obtain rfl := Request.setStatus.inj hop
    rw [hst',hls,← h.1,ht]

theorem meets_overdue (h : IsOverdue pod start w) :
    (checkDeadline pod).Meets refusedContract (fun r _ _ => ∃ e, r = .error e) st w := by
  have hsome : pod.activeDeadlineSeconds.isSome = true := by
    obtain ⟨d,hd,-⟩ := overdue_iff.mp h.2
    rw [hd]
    rfl
  unfold checkDeadline
  rw [if_pos hsome,Routine.meets_bind,Routine.meets_lift]
  refine meets_getStatus_overdue h fun w h => ?_
  dsimp only
  rw [Routine.meets_bind,Routine.meets_lift]
  have hkeep (v v' : Node) (hv : Ages w v) (hd : Ages v v') : Ages w v' := hv.trans hd
  refine Program.meets_request (.refl w) hkeep ?_
  intro v hv
  refine ⟨⟨id,fun _ hop => by cases hop⟩,?_⟩
  rintro t v' ⟨c,hrespond⟩
  cases c with
  | time t' =>
    obtain ⟨hclock,hnext⟩ := Option.ite_none_right_eq_some.mp hrespond
    obtain ⟨rfl,rfl⟩ := Prod.mk.inj (Option.some.inj hnext)
    have hpassed : deadlineExceeded pod w.status t' = true :=
      (deadlineExceeded_of_start h.1).mpr (h.2.mono (Int.sub_le_sub_right (hv.clock.trans hclock) start))
    dsimp only
    rw [if_pos hpassed]
    exact meets_overdue_terminate (h.ages (hv.trans ⟨hclock,fun _ h => h⟩))
  | _ => cases hrespond

/-- A pass over a pod that it refuses starts nothing. -/
theorem meets_refused (hstart : w.startTime = some start) (hrefuses : Refuses pod start w.clock) :
    (syncPod worker pod st).Meets refusedContract (fun _ _ => True) w := by
  have hsteps : (syncSteps worker pod).Meets refusedContract (fun _ _ _ => True) st w := by
    unfold syncSteps
    cases hvalid : validatePod pod with
    | error e => trivial
    | ok _ =>
      have hover : Overdue pod start w.clock := by
        rcases hrefuses with hinvalid | hover
        · rw [hvalid] at hinvalid
          cases hinvalid
        · exact hover
      dsimp only
      rw [Routine.meets_bind]
      refine (meets_overdue ⟨hstart,hover⟩).mono ?_
      rintro _ st w ⟨e,rfl⟩
      trivial
  unfold syncPod
  rw [Program.meets_bind]
  refine Program.Meets.mono hsteps ?_
  rintro ⟨r,st⟩ w _
  cases r with
  | error r => trivial
  | ok _ => trivial

/-! ## First passes -/

/-- How the node may answer. -/
def nodeAnswers : Environment Request Request.Answer Node := fun w op a w' => ∃ c, w.respond op c = some (a,w')

/-- The worker knows no sandbox, and the node has none. -/
def Unhoused (st : PodRuntimeState) (w : Node) : Prop := st.sandboxId = none ∧ w.sandboxes = ∅

theorem ends_checkDeadline (hstart : w.startTime = some start) (hover : ¬ Overdue pod start w.clock) :
    (checkDeadline pod).Ends nodeAnswers (fun r st' w' => r = .ok () ∧ st' = st ∧ w' = w) st w := by
  unfold checkDeadline
  split
  · refine Routine.ends_bind (Routine.ends_lift (Program.ends_request ⟨.accept,rfl⟩ ?_))
    refine Routine.ends_bind (Routine.ends_lift (Program.ends_request ⟨.time w.clock,if_pos le_rfl⟩ ?_))
    have hnot : deadlineExceeded pod w.status w.clock = false := by
      rw [← Bool.not_eq_true,deadlineExceeded_of_start hstart]
      exact hover
    dsimp only
    rw [hnot]
    exact ⟨rfl,rfl,rfl⟩
  · exact ⟨rfl,rfl,rfl⟩

theorem ends_ensureVolumes :
    ensureVolumes.Ends nodeAnswers (fun r st' w' => r = .ok () ∧ st' = st ∧ w' = w) st w := by
  unfold ensureVolumes
  refine Routine.ends_bind (Routine.ends_get ?_)
  exact Routine.ends_bind (Routine.ends_lift (Program.ends_request ⟨.accept,rfl⟩ ⟨rfl,rfl,rfl⟩))

theorem ends_ensureContainerImage (ctr : ContainerSpec) (h : Unhoused st w) :
    (ensureContainerImage ctr).Ends nodeAnswers (fun r st w => r = .ok () ∧ Unhoused st w) st w := by
  have hsleep (n : ℕ) : (sleepAfter n).Ends nodeAnswers (fun _ w' => w' = w) w := by
    unfold sleepAfter
    split
    · exact Program.ends_request ⟨.accept,rfl⟩ rfl
    · exact Program.ends_pure rfl
  unfold ensureContainerImage
  refine Routine.ends_bind (Routine.ends_get ?_)
  refine Routine.ends_bind (Routine.ends_lift ((hsleep _).mono ?_))
  rintro - _ rfl
  exact Routine.ends_bind (Routine.ends_lift (Program.ends_request ⟨.named ctr.image,rfl⟩ ⟨rfl,h⟩))

theorem reaches_createSandbox (h : w.sandboxes = ∅) :
    (createSandbox worker pod).Reaches nodeAnswers Request.Starts w := by
  unfold createSandbox
  refine Program.reaches_bind (Program.ends_request ⟨.named worker.podInfraContainerImage,rfl⟩ ?_)
  have hlist : (recoverExistingSandbox worker pod).Ends nodeAnswers (fun r w' => r = .ok none ∧ w' = w) w := by
    refine Program.ends_bind (Program.ends_request (a := .ok []) ⟨.listed [],?_⟩ ⟨rfl,rfl⟩)
    unfold Node.respond
    dsimp only
    rw [h]
    rfl
  refine Program.reaches_bind (hlist.mono ?_)
  rintro _ _ ⟨rfl,rfl⟩
  exact Program.Reaches.bind (Program.Reaches.bind (Program.reaches_request trivial))

/-- Some execution of the first pass makes a sandbox. -/
theorem reaches_sandbox (hvalid : (validatePod pod).isOk = true) (hstart : w.startTime = some start)
    (hover : ¬ Overdue pod start w.clock) (h : Unhoused st w) :
    (syncPod worker pod st).Reaches nodeAnswers Request.Starts w := by
  refine Program.Reaches.bind ?_
  unfold syncSteps
  cases hv : validatePod pod with
  | error e =>
    rw [hv] at hvalid
    cases hvalid
  | ok _ =>
    refine Routine.reaches_bind ((ends_checkDeadline hstart hover).mono ?_)
    rintro _ _ _ ⟨rfl,rfl,rfl⟩
    refine ⟨(),rfl,Routine.reaches_bind (ends_ensureVolumes.mono ?_)⟩
    rintro _ _ _ ⟨rfl,rfl,rfl⟩
    refine ⟨(),rfl,Routine.reaches_bind ((Routine.Ends.forEach (fun ctr _ _ _ h => ends_ensureContainerImage ctr h) h).mono
      ?_)⟩
    rintro _ st w ⟨rfl,hid,hsandboxes⟩
    refine ⟨(),rfl,Routine.Reaches.bind ?_⟩
    unfold ensureSandbox
    refine Routine.reaches_bind ⟨st,rfl,?_⟩
    rw [hid]
    exact Routine.Reaches.bind (Program.Reaches.bind (reaches_createSandbox hsandboxes))

end KubeAir.Worker
