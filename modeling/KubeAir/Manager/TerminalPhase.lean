import KubeAir.Manager.PipelineFrame
import KubeAir.Worker.LatePass
import KubeAir.Worker.OpenPass

/-! # Terminal phases

Once the stored phase of a pod is Failed or Succeeded, no later pass makes a sandbox or
starts a container, and the phase stays terminal, in every run whose steps all meet the
condition below. Without it a pod that was evicted is started again.
-/
namespace KubeAir.Manager
open Core Worker Transition Program

/-- The work is a pass over the pod. -/
def Work.isPassOf (u : PodUID) : Work → Bool
  | .pass uid _ _ => uid == u
  | .teardown .. => false

/-- The work is a pass over the pod that began after its phase became terminal. -/
def Work.isLatePassOf (u : PodUID) : Work → Bool
  | .pass uid late _ => uid == u && late
  | .teardown .. => false

/-- The program is about to make a sandbox or to start a container. -/
def aboutToStart : WorkerM (PodSyncResult × PodRuntimeState) → Prop
  | .call op _ => op.Starts
  | .ret _ => False

namespace Pipeline
variable (s : Pipeline) (u : PodUID)

/-- The stored phase of the pod is terminal. -/
def Terminal : Prop := isTerminalStatus s.manager.podManager u = true

/-- No pass over the pod is under way, except perhaps that of task `i`. -/
def NoPassBut (i : ℕ) : Prop := ∀ e ∈ s.work.entries, e.2.isPassOf u = true → e.1 = i

def NoPass : Prop := ∀ e ∈ s.work.entries, e.2.isPassOf u = false

/-- A late pass over the pod is under way. -/
def LatePassUnderWay : Prop := ∃ e ∈ s.work.entries, e.2.isLatePassOf u = true

instance : Decidable (s.Terminal u) := inferInstanceAs (Decidable (_ = true))

instance (i : ℕ) : Decidable (s.NoPassBut u i) := inferInstanceAs (Decidable (∀ e ∈ s.work.entries, _ → _))

instance : Decidable (s.NoPass u) := inferInstanceAs (Decidable (∀ e ∈ s.work.entries, _))

instance : Decidable (s.LatePassUnderWay u) := inferInstanceAs (Decidable (∃ e ∈ s.work.entries, _))

end Pipeline

/-! ## The condition -/

/-- A call of a pass over the pod is answered in a way that keeps a terminal phase. -/
def PassReplySettles (u : PodUID) (s : Pipeline) (i : ℕ) (late : Bool) (op : Request) (c : Choice) : Prop :=
  match op with
  | .setStatus st => isTerminalState st = true → s.NoPassBut u i
  | .sleep _ => late = false → ¬ s.Terminal u
  | _ => late = true → LateCopes op c

/-- The phase turns terminal while no other pass over the pod is under way. After that a
pass begins only where it is safe, the calls it depends on do not fail, nothing takes away
what has exited before it ends, no earlier pass goes to sleep, and the pod is not added again. -/
def Settles (u : PodUID) (s : Pipeline) : PipelineAction → Prop
  | .upsert pod _ => pod.uid = u → s.Terminal u →
      (s.manager.podManager.get u).isSome = true ∨ s.manager.podManager.Merges pod
  | .handleUpdate update _ => update.pod.uid = u → update.op ≠ .remove →
      (checkHostPortConflict s.manager.podManager update.pod).isSome = true → s.NoPass u
  | .evictPod uid _ _ _ => uid = u → (s.manager.podManager.get u).isSome = true → s.NoPass u
  | .run i =>
    match s.manager.tasks[i]? with
    | some (.sync v pod .takeState) => pod.uid = u → s.Terminal u →
        s.NoPass u ∧ LateSafe pod (s.manager.cell v).takenState (s.world u)
    | _ => True
  | .reply i c =>
    match s.work.lookup i with
    | some (.pass uid late (.call op _)) =>
      if uid = u then PassReplySettles u s i late op c
      else s.LatePassUnderWay u → SparesExited u.val s.node op
    | some (.teardown _ (.call op _)) => s.LatePassUnderWay u → SparesExited u.val s.node op
    | _ => True
  | _ => True

instance (u : PodUID) (s : Pipeline) (i : ℕ) (late : Bool) (op : Request) (c : Choice) :
    Decidable (PassReplySettles u s i late op c) := by
  induction op using Request.casesOn with
  | setStatus st => exact inferInstanceAs (Decidable (isTerminalState st = true → s.NoPassBut u i))
  | sleep => exact inferInstanceAs (Decidable (late = false → ¬ s.Terminal u))
  | _ => exact inferInstanceAs (Decidable (late = true → LateCopes _ c))

instance (u : PodUID) (s : Pipeline) (action : PipelineAction) : Decidable (Settles u s action) := by
  unfold Settles
  cases action with
  | run i =>
    dsimp only
    split <;> infer_instance
  | reply i c =>
    dsimp only
    split <;> infer_instance
  | _ => infer_instance

/-! ## The invariant -/

/-- Every pass over the pod keeps a terminal phase terminal, and a late pass, which is then
the only one, starts nothing. -/
structure SettledInvariant (u : PodUID) (s : Pipeline) : Prop where
  open_ : ∀ i q, s.work.lookup i = some (.pass u false q) →
    q.Meets openContract (fun _ _ => True) (s.world u)
  late : ∀ i q, s.work.lookup i = some (.pass u true q) →
    q.Meets (lateContract u.val) (fun _ _ => True) (s.world u) ∧ s.Terminal u ∧ s.NoPassBut u i
  teardown : ∀ i v q, s.work.lookup i = some (.teardown v q) → q.Uses Request.Silent

variable {worker : PodWorker} {s t : Pipeline} {u : PodUID} {i : ℕ}

theorem mem_work {e : Σ _ : ℕ, Work} : e ∈ s.work.entries ↔ s.work.lookup e.1 = some e.2 :=
  (AList.mem_lookup_iff (s := s.work)).symm

theorem noPass_lookup (h : s.NoPass u) {late : Bool} {q : WorkerM (PodSyncResult × PodRuntimeState)} :
    s.work.lookup i ≠ some (.pass u late q) := by
  intro hi
  have hfalse := h ⟨i,.pass u late q⟩ (mem_work.mpr hi)
  simp [Work.isPassOf] at hfalse

theorem noPassBut_lookup {j : ℕ} (h : s.NoPassBut u i) {late : Bool}
    {q : WorkerM (PodSyncResult × PodRuntimeState)} (hj : s.work.lookup j = some (.pass u late q)) : j = i :=
  h ⟨j,.pass u late q⟩ (mem_work.mpr hj) (by simp [Work.isPassOf])

theorem latePassUnderWay_lookup {q : WorkerM (PodSyncResult × PodRuntimeState)}
    (hi : s.work.lookup i = some (.pass u true q)) : s.LatePassUnderWay u :=
  ⟨⟨i,.pass u true q⟩,mem_work.mpr hi,by simp [Work.isLatePassOf]⟩

theorem terminal_world : s.Terminal u ↔ (s.world u).terminal = true := Iff.rfl

theorem openDrift_trans (a b c : Node) (hab : openContract.drift a b) (hbc : openContract.drift b c) :
    openContract.drift a c :=
  fun ha => hbc (hab ha)

theorem lateDrift_trans {uid : String} (a b c : Node) (hab : LateDrift uid a b) (hbc : LateDrift uid b c) :
    LateDrift uid a c := by
  refine ⟨hab.later.trans hbc.later,?_⟩
  intro id r hr huid hexited
  exact hbc.exited id r (hab.exited id r hr huid hexited) huid hexited

/-- The step begins and moves no pass over the pod, and tears pods down silently. -/
structure KeepsPasses (u : PodUID) (s t : Pipeline) : Prop where
  pass : ∀ i late q, t.work.lookup i = some (.pass u late q) → s.work.lookup i = some (.pass u late q)
  teardown : ∀ i v q, t.work.lookup i = some (.teardown v q) →
    s.work.lookup i = some (.teardown v q) ∨ q.Uses Request.Silent

theorem KeepsPasses.of_work (h : t.work = s.work) : KeepsPasses u s t := by
  refine ⟨?_,?_⟩
  · intro i late q hi
    rwa [h] at hi
  · intro i v q hi
    rw [h] at hi
    exact .inl hi

/-- A step that keeps the passes and drifts as they expect. -/
theorem SettledInvariant.of_drift (h : SettledInvariant u s) (hwork : KeepsPasses u s t)
    (hopen : openContract.drift (s.world u) (t.world u))
    (hlate : s.LatePassUnderWay u → LateDrift u.val (s.world u) (t.world u)) : SettledInvariant u t := by
  constructor
  · intro i q hi
    exact (h.open_ i q (hwork.pass i false q hi)).drift hopen openDrift_trans fun _ _ _ _ _ => trivial
  · intro i q hi
    have hs := hwork.pass i true q hi
    obtain ⟨hmeets,hterminal,halone⟩ := h.late i q hs
    have hdrift := hlate (latePassUnderWay_lookup hs)
    refine ⟨hmeets.drift hdrift lateDrift_trans fun _ _ _ _ _ => trivial,?_,?_⟩
    · rw [terminal_world,Node.terminal,hdrift.later.status]
      exact hterminal
    · rintro ⟨j,w⟩ he hpassOf
      have hj := mem_work.mp he
      cases w with
      | teardown v q => cases hpassOf
      | pass v late q =>
        obtain rfl : v = u := by simpa [Work.isPassOf] using hpassOf
        exact halone ⟨j,.pass v late q⟩ (mem_work.mpr (hwork.pass j late q hj)) hpassOf
  · intro i v q hi
    rcases hwork.teardown i v q hi with hsame | hq
    · exact h.teardown i v q hsame
    · exact hq

/-- A step that leaves the world of the pod alone. -/
theorem SettledInvariant.of_world (h : SettledInvariant u s) (hwork : KeepsPasses u s t)
    (hworld : t.world u = s.world u) : SettledInvariant u t := by
  refine h.of_drift hwork ?_ ?_
  · intro hw
    rw [hworld]
    exact hw
  · rintro -
    rw [hworld]
    exact ⟨.refl _,fun _ _ hr _ _ => hr⟩

end KubeAir.Manager
