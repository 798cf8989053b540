import KubeAir.Adapters.Quantity
import KubeAir.Transition.Stamps

/-! # In-place resize

The resources of a container are handed to the runtime when it is created, and again when a pass
finds it running with resources that differ from those it applied last. The values are computed in
two places, and the two calls read a zero differently.
-/
namespace KubeAir.Worker.ContainerResize
open Core Transition Adapters.Quantity

/-! ## The values -/

/-- Multiplication of `i64` values, which wraps around. -/
def mulI64 (a b : ℤ) : ℤ := Int.bmod (a * b) (2 ^ 64)

/-- `i64::clamp`. -/
def clamp (low high z : ℤ) : ℤ := max low (min high z)

structure LinuxContainerResources where
  cpuPeriod : ℤ
  cpuQuota : ℤ
  cpuShares : ℤ
  memoryLimitBytes : ℤ
  oomScoreAdj : ℤ := 0
  cpusetCpus : String := ""
  cpusetMems : String := ""
  memorySwapLimitBytes : ℤ := 0
deriving DecidableEq, Repr

def valueOf (m : HashMap String ResourceQuantity) (key : String) : ℤ := ((m.lookup key).map (·.value)).getD 0

/-- What a container is created with. -/
def specToLinuxResources (r : ResourceRequirements) : LinuxContainerResources :=
  let cpuReqMillis := valueOf r.requests "cpu"
  let cpuQuota := ((r.limits.lookup "cpu").map (fun q => mulI64 q.value 100)).getD 0
  { cpuQuota := cpuQuota
    cpuPeriod := if 0 < cpuQuota then 100000 else 0
    cpuShares := if 0 < cpuReqMillis then clamp 2 262144 ((mulI64 cpuReqMillis 1024).tdiv 1000) else 2
    memoryLimitBytes := valueOf r.limits "memory" }

/-- What is remembered of an update: CPU request and limit in millicores, memory limit in bytes. -/
abbrev ResizeKey := ℤ × ℤ × ℤ

def resizeKey (r : ResourceRequirements) : ResizeKey :=
  (valueOf r.requests "cpu",valueOf r.limits "cpu",valueOf r.limits "memory")

/-- What a running container is updated with. -/
def resizeRequest (key : ResizeKey) : LinuxContainerResources where
  cpuShares := clamp 2 262144 ((mulI64 key.1 1024).tdiv 1000)
  cpuQuota := if 0 < key.2.1 then mulI64 key.2.1 100 else -1
  cpuPeriod := 100000
  memoryLimitBytes := key.2.2

/-! ## The runtime -/

/-- The values in effect for a container; `none` is unlimited. -/
structure Effect where
  cpuShares : ℤ
  cpuQuota : Option ℤ
  memoryLimit : Option ℤ
deriving DecidableEq, Repr

/-- A limit at create, where 0 is unlimited as -1 is. -/
def createdLimit (v : ℤ) : Option ℤ := if v = 0 ∨ v = -1 then none else some v

/-- A limit at update, where 0 leaves the old one. -/
def updatedLimit (old : Option ℤ) (v : ℤ) : Option ℤ := if v = 0 then old else createdLimit v

def created (r : LinuxContainerResources) : Effect where
  cpuShares := r.cpuShares
  cpuQuota := createdLimit r.cpuQuota
  memoryLimit := createdLimit r.memoryLimitBytes

def Effect.update (e : Effect) (r : LinuxContainerResources) : Effect where
  cpuShares := if r.cpuShares = 0 then e.cpuShares else r.cpuShares
  cpuQuota := updatedLimit e.cpuQuota r.cpuQuota
  memoryLimit := updatedLimit e.memoryLimit r.memoryLimitBytes

/-- The values in effect for a container that is created with these resources. -/
def target (r : ResourceRequirements) : Effect := created (specToLinuxResources r)

/-! ## Passes -/

/-- A running container: the resources that it was created from or updated to last, and what is in
effect. -/
structure RunningContainer where
  given : ResourceRequirements
  effect : Effect

structure ResizeState where
  /-- `applied_resources` of the state of the pod -/
  appliedResources : HashMap String ResizeKey := ∅
  running : HashMap String RunningContainer := ∅

/-- The turn of a container in a pass, and whether the runtime accepts the call that it leads to. -/
structure Visit where
  name : String
  resources : ResourceRequirements
  accepted : Bool

inductive ResizeStep
  | visit (v : Visit)
  /-- the container exits, and a later pass creates it anew -/
  | exits (name : String)
  /-- the state of the pod is given up -/
  | forget

namespace ResizeState

/-- The same values were applied already. -/
def Applied (s : ResizeState) (v : Visit) : Prop := s.appliedResources.lookup v.name = some (resizeKey v.resources)

instance (s : ResizeState) (v : Visit) : Decidable (s.Applied v) := inferInstanceAs (Decidable (_ = _))

/-- `apply_container_resize_if_needed` for a running container. -/
def applyContainerResizeIfNeeded (s : ResizeState) (c : RunningContainer) (v : Visit) : ResizeState :=
  if s.Applied v then s
  else if v.accepted then
    { appliedResources := s.appliedResources.insert v.name (resizeKey v.resources)
      running := s.running.insert v.name ⟨v.resources,c.effect.update (resizeRequest (resizeKey v.resources))⟩ }
  else s

/-- A container that does not run is created from the resources of the pass. -/
def visit (s : ResizeState) (v : Visit) : ResizeState :=
  match s.running.lookup v.name with
  | some c => s.applyContainerResizeIfNeeded c v
  | none =>
    if v.accepted then { s with running := s.running.insert v.name ⟨v.resources,target v.resources⟩ } else s

def step (s : ResizeState) : ResizeStep → ResizeState
  | .visit v => s.visit v
  | .exits name => { s with running := s.running.erase name }
  | .forget => { s with appliedResources := ∅ }

end ResizeState

/-- The products of the two computations are `i64` values. -/
def ProductsFit (r : ResourceRequirements) : Prop :=
  FitsI64 (valueOf r.requests "cpu" * 1024) ∧ FitsI64 (valueOf r.limits "cpu" * 100)

/-- Creating a container multiplies a request only if it is positive. -/
def CreationFits (r : ResourceRequirements) : Prop :=
  (0 < valueOf r.requests "cpu" → FitsI64 (valueOf r.requests "cpu" * 1024)) ∧ FitsI64 (valueOf r.limits "cpu" * 100)

/-- No product overflows, and a container that runs at its turn has the values of the current spec
in effect after it, unless the runtime refuses the update. -/
structure Converges (s : ResizeState) (v : Visit) : Prop where
  creation : CreationFits v.resources
  fit : ∀ c, s.running.lookup v.name = some c → ProductsFit v.resources
  effect : ∀ c, s.running.lookup v.name = some c → s.Applied v ∨ v.accepted = true →
    ((s.visit v).running.lookup v.name).map (·.effect) = some (target v.resources)

/-- The CPU quantities are in bounds, a negative request only if the container runs. A container whose
resources are those applied last was given resources with the same values since; one that is updated has
no limit that the update would have to take away by a zero, and its CPU limit is not negative. -/
structure Steady (s : ResizeState) (v : Visit) : Prop where
  request : valueOf v.resources.requests "cpu" < 2 ^ 53
  negative : ∀ c, s.running.lookup v.name = some c → -2 ^ 53 ≤ valueOf v.resources.requests "cpu"
  limit : -92233720368547758 ≤ valueOf v.resources.limits "cpu" ∧
    valueOf v.resources.limits "cpu" ≤ 92233720368547758
  applied : ∀ c, s.running.lookup v.name = some c → s.Applied v → target c.given = target v.resources
  updated : ∀ c, s.running.lookup v.name = some c → ¬s.Applied v → v.accepted = true →
    0 ≤ valueOf v.resources.limits "cpu" ∧
      (valueOf v.resources.limits "memory" = 0 →
        valueOf c.given.limits "memory" = 0 ∨ valueOf c.given.limits "memory" = -1)

variable {r given : ResourceRequirements}

/-! ## The two computations -/

theorem mulI64_of_fits {a b : ℤ} (h : FitsI64 (a * b)) : mulI64 a b = a * b :=
  Int.bmod_eq_of_le (by have := h.1; omega) (by have := h.2; omega)

theorem cpuQuota_eq (h : ProductsFit r) : (specToLinuxResources r).cpuQuota = valueOf r.limits "cpu" * 100 := by
  have hfit := h.2
  unfold specToLinuxResources
  unfold valueOf at hfit ⊢
  cases hcpu : r.limits.lookup "cpu" with
  | none => rfl
  | some q =>
    rw [hcpu,Option.map_some,Option.getD_some] at hfit
    exact mulI64_of_fits hfit

theorem cpuShares_eq (h : ProductsFit r) :
    (resizeRequest (resizeKey r)).cpuShares = (specToLinuxResources r).cpuShares := by
  have hproduct := mulI64_of_fits h.1
  unfold resizeRequest resizeKey specToLinuxResources clamp
  dsimp only
  rw [hproduct]
  split
  · rfl
  · next hreq =>
    have hneg : (valueOf r.requests "cpu" * 1024).tdiv 1000 ≤ 0 := by
      have hnum : valueOf r.requests "cpu" * 1024 ≤ 0 := by omega
      have hnonneg := Int.tdiv_nonneg (Int.neg_nonneg.mpr hnum) (by decide : (0 : ℤ) ≤ 1000)
      rw [Int.neg_tdiv] at hnonneg
      omega
    omega

theorem two_le_cpuShares (key : ResizeKey) : 2 ≤ (resizeRequest key).cpuShares := le_max_left _ _

theorem updatedLimit_quota_iff {old : Option ℤ} {limit : ℤ} :
    updatedLimit old (if 0 < limit then limit * 100 else -1) = createdLimit (limit * 100) ↔ 0 ≤ limit := by
  unfold updatedLimit createdLimit
  by_cases hpos : 0 < limit
  · have h0 : limit * 100 ≠ 0 := by omega
    have h1 : limit * 100 ≠ -1 := by omega
    simp only [hpos,if_true,h0,if_false,hpos.le]
  · rw [if_neg hpos]
    by_cases hzero : limit = 0
    · subst hzero
      simp
    · have h0 : limit * 100 ≠ 0 := by omega
      have h1 : limit * 100 ≠ -1 := by omega
      have hneg : ¬0 ≤ limit := by omega
      simp [h0,h1,hneg]

theorem updatedLimit_memory_iff {old new : ℤ} :
    updatedLimit (createdLimit old) new = createdLimit new ↔ (new = 0 → old = 0 ∨ old = -1) := by
  unfold updatedLimit
  by_cases hnew : new = 0
  · subst hnew
    unfold createdLimit
    simp [or_iff_not_imp_left]
  · simp only [hnew,if_false,false_implies]

/-- An update leaves what the spec asks for in effect, when no limit has to go by a zero. -/
theorem update_eq_iff (h : ProductsFit r) :
    (target given).update (resizeRequest (resizeKey r)) = target r ↔ 0 ≤ valueOf r.limits "cpu" ∧
      (valueOf r.limits "memory" = 0 → valueOf given.limits "memory" = 0 ∨ valueOf given.limits "memory" = -1) := by
  have hshares : (resizeRequest (resizeKey r)).cpuShares ≠ 0 := by
    have := two_le_cpuShares (resizeKey r)
    omega
  have hquota : (resizeRequest (resizeKey r)).cpuQuota =
      if 0 < valueOf r.limits "cpu" then valueOf r.limits "cpu" * 100 else -1 := by
    unfold resizeRequest resizeKey
    dsimp only
    rw [mulI64_of_fits h.2]
  have hupdate : (target given).update (resizeRequest (resizeKey r)) = target r ↔
      updatedLimit (target given).cpuQuota (resizeRequest (resizeKey r)).cpuQuota = (target r).cpuQuota ∧
        updatedLimit (target given).memoryLimit (valueOf r.limits "memory") = (target r).memoryLimit := by
    unfold Effect.update
    rw [if_neg hshares,cpuShares_eq h]
    constructor
    · exact fun he => ⟨congrArg Effect.cpuQuota he,congrArg Effect.memoryLimit he⟩
    · rintro ⟨hq,hm⟩
      exact congrArg₂ (Effect.mk _) hq hm
  rw [hupdate,hquota]
  refine and_congr ?_ updatedLimit_memory_iff
  unfold target created
  rw [cpuQuota_eq h]
  exact updatedLimit_quota_iff

/-! ## Runs -/

/-- What is in effect for a container is what it was given last. -/
def InEffect (s : ResizeState) : Prop := ∀ name c, s.running.lookup name = some c → c.effect = target c.given

/-- A law about the visits among the steps. -/
def OnVisits (P : ResizeState → Visit → Prop) (s : ResizeState) : ResizeStep → Prop
  | .visit v => P s v
  | _ => True

theorem inEffect_insert {s : ResizeState} {name : String} {c : RunningContainer} (h : InEffect s)
    (hc : c.effect = target c.given) (memo : HashMap String ResizeKey) :
    InEffect { appliedResources := memo, running := s.running.insert name c } := by
  intro name' c' hc'
  rcases HashMap.lookup_insert_eq_some.mp hc' with ⟨-,rfl⟩ | ⟨-,hc'⟩
  · exact hc
  · exact h name' c' hc'

/-- One visit to a container with its values in effect converges exactly when it is steady. -/
theorem converges_iff {s : ResizeState} {v : Visit} (h : InEffect s) : Converges s v ↔ Steady s v := by
  have hcreation : CreationFits v.resources ↔ valueOf v.resources.requests "cpu" < 2 ^ 53 ∧
      -92233720368547758 ≤ valueOf v.resources.limits "cpu" ∧
        valueOf v.resources.limits "cpu" ≤ 92233720368547758 := by
    unfold CreationFits FitsI64
    omega
  have hfit : ProductsFit v.resources ↔
      CreationFits v.resources ∧ -2 ^ 53 ≤ valueOf v.resources.requests "cpu" := by
    unfold ProductsFit CreationFits FitsI64
    omega
  have heffect (hf : ProductsFit v.resources) (c : RunningContainer) (hc : s.running.lookup v.name = some c) :
      (s.Applied v ∨ v.accepted = true →
        ((s.visit v).running.lookup v.name).map (·.effect) = some (target v.resources)) ↔
      (s.Applied v → target c.given = target v.resources) ∧
        (¬s.Applied v → v.accepted = true → 0 ≤ valueOf v.resources.limits "cpu" ∧
          (valueOf v.resources.limits "memory" = 0 →
            valueOf c.given.limits "memory" = 0 ∨ valueOf c.given.limits "memory" = -1)) := by
    unfold ResizeState.visit
    rw [hc]
    unfold ResizeState.applyContainerResizeIfNeeded
    by_cases happlied : s.Applied v
    · simp only [happlied,true_or,true_implies,if_true,not_true_eq_false,false_implies,and_true,hc,Option.map_some,
        Option.some_inj,h v.name c hc]
    · by_cases hacc : v.accepted = true
      · simp only [happlied,hacc,or_true,true_implies,if_false,if_true,false_implies,not_false_eq_true,true_and,
          AList.lookup_insert,Option.map_some,Option.some_inj,h v.name c hc]
        exact update_eq_iff hf
      · exact iff_of_true (fun h' => (h'.elim happlied hacc).elim)
          ⟨fun h' => (happlied h').elim,fun _ h' => (hacc h').elim⟩
  constructor
  · intro hcv
    obtain ⟨hrequest,hlimit⟩ := hcreation.mp hcv.creation
    exact ⟨hrequest,fun c hc => (hfit.mp (hcv.fit c hc)).2,hlimit,
      fun c hc => ((heffect (hcv.fit c hc) c hc).mp (hcv.effect c hc)).1,
      fun c hc => ((heffect (hcv.fit c hc) c hc).mp (hcv.effect c hc)).2⟩
  · intro hst
    have hcreates := hcreation.mpr ⟨hst.request,hst.limit⟩
    have hf : ∀ c, s.running.lookup v.name = some c → ProductsFit v.resources :=
      fun c hc => hfit.mpr ⟨hcreates,hst.negative c hc⟩
    exact ⟨hcreates,hf,fun c hc => (heffect (hf c hc) c hc).mpr ⟨hst.applied c hc,hst.updated c hc⟩⟩

/-- A visit that converges leaves every container with what it was given. -/
theorem inEffect_visit {s : ResizeState} {v : Visit} (h : InEffect s) (hcv : Converges s v) : InEffect (s.visit v) := by
  have heffect := hcv.effect
  unfold ResizeState.visit at heffect ⊢
  cases hc : s.running.lookup v.name with
  | none =>
    dsimp only
    split
    · exact inEffect_insert h rfl _
    · exact h
  | some c =>
    rw [hc] at heffect
    dsimp only at heffect ⊢
    unfold ResizeState.applyContainerResizeIfNeeded at heffect ⊢
    by_cases happlied : s.Applied v
    · rw [if_pos happlied]
      exact h
    · rw [if_neg happlied]
      split
      · next hacc =>
        have hin := heffect c rfl (.inr hacc)
        rw [if_neg happlied,if_pos hacc,AList.lookup_insert] at hin
        exact inEffect_insert h (Option.some_inj.mp hin) _
      · exact h

/-- In every run, the visits converge exactly when each of them is steady. -/
theorem resize_converges_iff (w : List ResizeStep) :
    EachStep ResizeState.step (OnVisits Converges) {} w ↔ EachStep ResizeState.step (OnVisits Steady) {} w := by
  refine eachStep_congr_of_inv (I := InEffect) ?_ ?_ ?_
  · intro s a hs
    cases a with
    | visit v => exact converges_iff hs
    | exits name => exact Iff.rfl
    | forget => exact Iff.rfl
  · intro s a hs ha
    cases a with
    | visit v => exact inEffect_visit hs ha
    | exits name => exact fun name' c hc => hs name' c (HashMap.lookup_erase_eq_some.mp hc).2
    | forget => exact hs
  · intro name c hc
    rw [AList.lookup_empty] at hc
    cases hc

def limited : ResourceRequirements where
  limits := (∅ : HashMap String ResourceQuantity).insert "memory" ⟨100,.bytes⟩

/-- A memory limit that is removed stays in effect. -/
theorem removed_limit_stays : ¬∀ w, EachStep ResizeState.step (OnVisits Converges) {} w := by
  intro h
  have hremoved := (h [.visit ⟨"app",limited,true⟩,.visit ⟨"app",{},true⟩]).2.1.effect
    ⟨limited,target limited⟩ (by rfl) (.inr rfl)
  have hstays : (((ResizeState.step {} (.visit ⟨"app",limited,true⟩)).visit ⟨"app",{},true⟩).running.lookup "app").map
      (·.effect) ≠ some (target {}) := by
    decide +kernel
  exact hstays hremoved

/-- The parser returns quantities that overflow. -/
example : (parseK8sQuantityForKey "cpu" "9223372036854775807m").any (fun q => !decide (FitsI64 (q.value * 1024))) = true := by
  decide +kernel

end KubeAir.Worker.ContainerResize
