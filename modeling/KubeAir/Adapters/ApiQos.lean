import KubeAir.Adapters.PodWatch
import KubeAir.Adapters.Quantity
import KubeAir.Core.Qos

/-! # The class of an API pod

The class that `compute_qos_class` gives a converted pod, beside the class that the amounts of the
API pod call for.
-/
namespace KubeAir.Adapters.ApiQos
open Core Quantity

/-- The resources of an API container. -/
structure ApiResources where
  requests : Option (HashMap String K8sQuantity) := none
  limits : Option (HashMap String K8sQuantity) := none

namespace ApiResources

def texts (r : ApiResources) : K8sResourceRequirements where
  requests := r.requests.map (·.mapValues K8sQuantity.text)
  limits := r.limits.map (·.mapValues K8sQuantity.text)

/-- What a container asks for under a key. -/
def request (r : ApiResources) (key : String) : Option K8sQuantity := r.requests.bind (·.lookup key)

def limit (r : ApiResources) (key : String) : Option K8sQuantity := r.limits.bind (·.lookup key)

end ApiResources

/-! ## The class by amounts -/

/-- A positive limit and a request of the same amount. -/
def Pinned (r : ApiResources) (key : String) : Prop :=
  ∃ l q, r.limit key = some l ∧ r.request key = some q ∧ 0 < l.amount ∧ q.amount = l.amount

def GuaranteedBy (r : ApiResources) : Prop := Pinned r "cpu" ∧ Pinned r "memory"

def Positive (q : Option K8sQuantity) : Prop := ∃ x, q = some x ∧ 0 < x.amount

/-- No positive request or limit for CPU or memory. -/
def Idle (r : ApiResources) : Prop :=
  ∀ key ∈ ["cpu","memory"], ¬Positive (r.request key) ∧ ¬Positive (r.limit key)

/-- The class that the amounts of the containers call for. -/
def Expected (containers : List ApiResources) (qos : QosClass) : Prop :=
  (qos = .guaranteed ↔ ∀ r ∈ containers, GuaranteedBy r) ∧
    (qos = .bestEffort ↔ ∀ r ∈ containers, Idle r) ∧
      (qos = .burstable ↔ ¬(∀ r ∈ containers, GuaranteedBy r) ∧ ¬∀ r ∈ containers, Idle r)

/-! ## The class by spellings -/

/-- A limit and a request that are read in one unit. -/
def OneUnit (r : ApiResources) (key : String) : Prop :=
  ∃ l q unit, r.limit key = some l ∧ r.request key = some q ∧ Legible key l unit ∧ Legible key q unit ∧
    rounded unit l.amount = rounded unit q.amount

/-- The limits and requests for CPU and memory are read in one unit each, as equal values. -/
def SpelledAlike (r : ApiResources) : Prop := OneUnit r "cpu" ∧ OneUnit r "memory"

/-- No quantity of the container is read. -/
def Unread (r : ApiResources) : Prop :=
  ∀ key q, r.request key = some q ∨ r.limit key = some q → ∀ unit, ¬Legible key q unit

/-- The spellings of a pod's quantities show its class. -/
structure ShowsClass (containers : List ApiResources) : Prop where
  /-- there is a container -/
  nonempty : containers ≠ []
  /-- equal amounts are spelled alike -/
  alike : (∀ r ∈ containers, GuaranteedBy r) → ∀ r ∈ containers, SpelledAlike r
  /-- what is spelled alike is positive, and does not only agree after saturation -/
  positive : (∀ r ∈ containers, SpelledAlike r) → ∀ r ∈ containers, GuaranteedBy r
  /-- a pod without CPU and memory lists nothing else, and no zero -/
  bare : (∀ r ∈ containers, Idle r) → ∀ r ∈ containers, Unread r
  /-- a pod with CPU or memory lists a quantity that is read -/
  read : (∀ r ∈ containers, Unread r) → ∀ r ∈ containers, Idle r

/-! ## The converted pod -/

variable {C E : Type} (resources : C → Option ApiResources) (rest : C → ContainerSpec)
  (k8sEphemeralContainerToSpec : E → ContainerSpec)

/-- `k8s_container_to_spec`, with its other fields as they are. -/
def k8sContainerToSpec (c : C) : ContainerSpec :=
  { rest c with
    resources := ((resources c).map (fun r => resourceRequirementsFromK8s r.texts)).getD {} }

/-- The resources of the app and init containers. -/
def allResources (spec : K8sPodSpec C E) : List ApiResources :=
  (spec.containers ++ spec.initContainers.getD []).map (fun c => (resources c).getD {})

variable {resources rest k8sEphemeralContainerToSpec}

def converted (r : ApiResources) : ResourceRequirements := resourceRequirementsFromK8s r.texts

theorem k8sContainerToSpec_resources (c : C) :
    (k8sContainerToSpec resources rest c).resources = converted ((resources c).getD {}) := by
  unfold k8sContainerToSpec
  cases resources c <;> rfl

/-- A quantity of the converted container is one that the parser reads. -/
theorem lookup_quantities (o : Option (HashMap String K8sQuantity)) (key : String) :
    (((o.map (·.mapValues K8sQuantity.text)).map quantitiesFromK8s).getD ∅).lookup key =
      (o.bind (·.lookup key)).bind (fun q => parseK8sQuantityForKey key q.text) := by
  cases o with
  | none => rfl
  | some m =>
    simp only [Option.map_some,Option.getD_some,Option.bind_some]
    unfold quantitiesFromK8s
    rw [HashMap.lookup_filterMapValues,HashMap.lookup_mapValues]
    cases m.lookup key with
    | none => simp only [Option.map_none,Option.bind_none]
    | some q => simp only [Option.map_some,Option.bind_some]

theorem lookup_requests (r : ApiResources) (key : String) :
    (converted r).requests.lookup key = (r.request key).bind (fun q => parseK8sQuantityForKey key q.text) :=
  lookup_quantities r.requests key

theorem lookup_limits (r : ApiResources) (key : String) :
    (converted r).limits.lookup key = (r.limit key).bind (fun q => parseK8sQuantityForKey key q.text) :=
  lookup_quantities r.limits key

/-! ## The classes -/

theorem read_iff {key : String} {q : K8sQuantity} :
    (∃ unit, Legible key q unit) ↔ ∃ r, parseK8sQuantityForKey key q.text = some r := by
  constructor
  · rintro ⟨unit,h⟩
    exact ⟨⟨rounded unit q.amount,unit⟩,parseK8sQuantityForKey_eq_some.mpr ⟨h,rfl⟩⟩
  · rintro ⟨r,h⟩
    exact ⟨r.unit,(parseK8sQuantityForKey_eq_some.mp h).1⟩

/-- A map of converted quantities is empty when none of its texts is read. -/
theorem unread_iff (r : ApiResources) :
    ((converted r).requests.entries.isEmpty = true ∧ (converted r).limits.entries.isEmpty = true) ↔ Unread r := by
  rw [HashMap.isEmpty_iff,HashMap.isEmpty_iff]
  constructor
  · rintro ⟨hq,hl⟩ key q h unit hlegible
    obtain ⟨v,hv⟩ := read_iff.mp ⟨unit,hlegible⟩
    rcases h with h | h
    · exact hq key v (by rw [lookup_requests,h,Option.bind_some,hv])
    · exact hl key v (by rw [lookup_limits,h,Option.bind_some,hv])
  · intro h
    refine ⟨fun key v hv => ?_,fun key v hv => ?_⟩
    · rw [lookup_requests,Option.bind_eq_some_iff] at hv
      obtain ⟨q,hq,hparse⟩ := hv
      obtain ⟨unit,hlegible⟩ := read_iff.mpr ⟨v,hparse⟩
      exact h key q (.inl hq) unit hlegible
    · rw [lookup_limits,Option.bind_eq_some_iff] at hv
      obtain ⟨q,hq,hparse⟩ := hv
      obtain ⟨unit,hlegible⟩ := read_iff.mpr ⟨v,hparse⟩
      exact h key q (.inr hq) unit hlegible

/-- A limit and a request come out equal when they are read in one unit, as one value. -/
theorem oneUnit_iff (r : ApiResources) (key : String) :
    OneUnit r key ↔ ∃ v, (converted r).requests.lookup key = some v ∧ (converted r).limits.lookup key = some v := by
  rw [lookup_requests,lookup_limits]
  constructor
  · rintro ⟨l,q,unit,hl,hq,hlegiblel,hlegibleq,heq⟩
    refine ⟨⟨rounded unit l.amount,unit⟩,?_,?_⟩
    · rw [hq,Option.bind_some]
      exact parseK8sQuantityForKey_eq_some.mpr ⟨hlegibleq,heq⟩
    · rw [hl,Option.bind_some]
      exact parseK8sQuantityForKey_eq_some.mpr ⟨hlegiblel,rfl⟩
  · rintro ⟨v,hv,hv'⟩
    obtain ⟨q,hq,hparseq⟩ := Option.bind_eq_some_iff.mp hv
    obtain ⟨l,hl,hparsel⟩ := Option.bind_eq_some_iff.mp hv'
    obtain ⟨hlegibleq,hvalueq⟩ := parseK8sQuantityForKey_eq_some.mp hparseq
    obtain ⟨hlegiblel,hvaluel⟩ := parseK8sQuantityForKey_eq_some.mp hparsel
    exact ⟨l,q,v.unit,hl,hq,hlegiblel,hlegibleq,hvaluel.symm.trans hvalueq⟩

theorem guaranteed_iff (r : ResourceRequirements) :
    r.guaranteed = true ↔
      (∃ v, r.requests.lookup "cpu" = some v ∧ r.limits.lookup "cpu" = some v) ∧
        ∃ v, r.requests.lookup "memory" = some v ∧ r.limits.lookup "memory" = some v := by
  unfold ResourceRequirements.guaranteed
  cases r.requests.lookup "cpu" with
  | none => simp
  | some cr =>
    cases r.limits.lookup "cpu" with
    | none => simp
    | some cl =>
      cases r.requests.lookup "memory" with
      | none => simp
      | some mr =>
        cases r.limits.lookup "memory" with
        | none => simp
        | some ml =>
          simp only [Bool.and_eq_true,beq_iff_eq,Option.some.injEq,exists_eq_left']
          exact and_congr eq_comm eq_comm

theorem spelledAlike_iff (r : ApiResources) : (converted r).guaranteed = true ↔ SpelledAlike r := by
  rw [guaranteed_iff]
  exact and_congr (oneUnit_iff r "cpu").symm (oneUnit_iff r "memory").symm

/-- A container lists a quantity. -/
def lists (c : ContainerSpec) : Bool := !c.resources.requests.entries.isEmpty || !c.resources.limits.entries.isEmpty

theorem lists_eq_false {c : ContainerSpec} :
    lists c = false ↔ c.resources.requests.entries.isEmpty = true ∧ c.resources.limits.entries.isEmpty = true := by
  unfold lists
  rw [Bool.or_eq_false_iff,Bool.not_eq_false',Bool.not_eq_false']

theorem lists_of_guaranteed {c : ContainerSpec} (h : c.resources.guaranteed = true) : lists c = true := by
  obtain ⟨⟨v,hv,-⟩,-⟩ := (guaranteed_iff c.resources).mp h
  cases hl : lists c with
  | true => rfl
  | false => exact absurd hv ((HashMap.isEmpty_iff _).mp (lists_eq_false.mp hl).1 "cpu" v)

theorem computeQosClass_eq (pod : PodSpec) :
    computeQosClass pod =
      if (pod.containers ++ pod.initContainers).any lists then
        if (pod.containers ++ pod.initContainers).all (·.resources.guaranteed) then .guaranteed else .burstable
      else .bestEffort := by
  change (if (pod.containers ++ pod.initContainers).isEmpty then _
    else if !(pod.containers ++ pod.initContainers).any lists then _ else _) = _
  cases hcs : pod.containers ++ pod.initContainers with
  | nil => rfl
  | cons c cs =>
    rw [if_neg (by simp)]
    cases (c :: cs).any lists <;> rfl

theorem computeQosClass_guaranteed {pod : PodSpec} :
    computeQosClass pod = .guaranteed ↔
      pod.containers ++ pod.initContainers ≠ [] ∧
        ∀ c ∈ pod.containers ++ pod.initContainers, c.resources.guaranteed = true := by
  rw [computeQosClass_eq]
  generalize pod.containers ++ pod.initContainers = cs
  constructor
  · intro h
    by_cases hany : cs.any lists = true
    · rw [if_pos hany] at h
      by_cases hall : cs.all (·.resources.guaranteed) = true
      · obtain ⟨c,hc,-⟩ := List.any_eq_true.mp hany
        exact ⟨List.ne_nil_of_mem hc,List.all_eq_true.mp hall⟩
      · rw [if_neg hall] at h
        cases h
    · rw [if_neg hany] at h
      cases h
  · rintro ⟨hne,hall⟩
    obtain ⟨c,hc⟩ := List.exists_mem_of_ne_nil cs hne
    have hany : cs.any lists = true := List.any_eq_true.mpr ⟨c,hc,lists_of_guaranteed (hall c hc)⟩
    rw [if_pos hany,if_pos (List.all_eq_true.mpr hall)]

theorem computeQosClass_bestEffort {pod : PodSpec} :
    computeQosClass pod = .bestEffort ↔ ∀ c ∈ pod.containers ++ pod.initContainers, lists c = false := by
  rw [computeQosClass_eq]
  generalize pod.containers ++ pod.initContainers = cs
  by_cases hany : cs.any lists = true
  · rw [if_pos hany]
    refine iff_of_false (by split <;> exact QosClass.noConfusion) (fun h => ?_)
    obtain ⟨c,hc,hlists⟩ := List.any_eq_true.mp hany
    rw [h c hc] at hlists
    cases hlists
  · rw [if_neg hany]
    refine iff_of_true rfl (fun c hc => Bool.eq_false_iff.mpr (fun hlists => hany ?_))
    exact List.any_eq_true.mpr ⟨c,hc,hlists⟩

/-- The containers of the converted pod are the converted containers. -/
theorem containers_converted {k8sContainer : C → ContainerSpec} {pod : K8sPod C E} {nodeName : String}
    {spec : PodSpec} (h : podToSpec k8sContainer k8sEphemeralContainerToSpec pod nodeName = some spec) :
    ∃ kspec, pod.spec = some kspec ∧
      spec.containers ++ spec.initContainers =
        (kspec.containers ++ kspec.initContainers.getD []).map k8sContainer := by
  unfold podToSpec at h
  obtain ⟨uid,-,h⟩ := Option.bind_eq_some_iff.mp h
  obtain ⟨name,-,h⟩ := Option.bind_eq_some_iff.mp h
  dsimp only at h
  split at h
  · cases h
  · obtain ⟨kspec,hk,h⟩ := Option.bind_eq_some_iff.mp h
    cases h
    exact ⟨kspec,hk,List.map_append.symm⟩

variable {pod : K8sPod C E} {kspec : K8sPodSpec C E} {nodeName : String} {spec : PodSpec}

theorem resources_converted (hk : pod.spec = some kspec)
    (h : podToSpec (k8sContainerToSpec resources rest) k8sEphemeralContainerToSpec pod nodeName = some spec) :
    (spec.containers ++ spec.initContainers).map (·.resources) = (allResources resources kspec).map converted := by
  obtain ⟨kspec',hk',hcontainers⟩ := containers_converted h
  obtain rfl : kspec = kspec' := Option.some.inj (hk.symm.trans hk')
  rw [hcontainers,allResources,List.map_map,List.map_map]
  exact List.map_congr_left (fun c _ => k8sContainerToSpec_resources c)

theorem forall_resources (hk : pod.spec = some kspec)
    (h : podToSpec (k8sContainerToSpec resources rest) k8sEphemeralContainerToSpec pod nodeName = some spec)
    (P : ResourceRequirements → Prop) :
    (∀ c ∈ spec.containers ++ spec.initContainers, P c.resources) ↔
      ∀ r ∈ allResources resources kspec, P (converted r) := by
  rw [← List.forall_mem_map (P := P),resources_converted hk h,List.forall_mem_map]

theorem class_guaranteed (hk : pod.spec = some kspec)
    (h : podToSpec (k8sContainerToSpec resources rest) k8sEphemeralContainerToSpec pod nodeName = some spec) :
    computeQosClass spec = .guaranteed ↔
      allResources resources kspec ≠ [] ∧ ∀ r ∈ allResources resources kspec, SpelledAlike r := by
  have hnil : spec.containers ++ spec.initContainers = [] ↔ allResources resources kspec = [] := by
    rw [← List.map_eq_nil_iff (f := fun c : ContainerSpec => c.resources),resources_converted hk h,List.map_eq_nil_iff]
  rw [computeQosClass_guaranteed,forall_resources hk h (·.guaranteed = true)]
  exact and_congr (not_congr hnil) (forall₂_congr (fun r _ => spelledAlike_iff r))

theorem class_bestEffort (hk : pod.spec = some kspec)
    (h : podToSpec (k8sContainerToSpec resources rest) k8sEphemeralContainerToSpec pod nodeName = some spec) :
    computeQosClass spec = .bestEffort ↔ ∀ r ∈ allResources resources kspec, Unread r := by
  have hlists := forall_resources hk h (fun r => r.requests.entries.isEmpty = true ∧ r.limits.entries.isEmpty = true)
  rw [computeQosClass_bestEffort]
  calc
    (∀ c ∈ spec.containers ++ spec.initContainers, lists c = false) ↔ _ := forall₂_congr (fun _ _ => lists_eq_false)
    _ ↔ _ := hlists
    _ ↔ ∀ r ∈ allResources resources kspec, Unread r := forall₂_congr (fun r _ => unread_iff r)

theorem burstable_iff (qos : QosClass) : qos = .burstable ↔ ¬qos = .guaranteed ∧ ¬qos = .bestEffort := by
  cases qos <;> decide

/-- The class is the one that the amounts call for exactly when the spellings show it. -/
theorem computeQosClass_expected_iff (hk : pod.spec = some kspec)
    (h : podToSpec (k8sContainerToSpec resources rest) k8sEphemeralContainerToSpec pod nodeName = some spec) :
    Expected (allResources resources kspec) (computeQosClass spec) ↔ ShowsClass (allResources resources kspec) := by
  have hg := class_guaranteed hk h
  have hb := class_bestEffort hk h
  constructor
  · rintro ⟨hguaranteed,hbestEffort,-⟩
    have hne : allResources resources kspec ≠ [] := by
      intro hnil
      rw [hnil] at hguaranteed hb
      have hbest := hb.mpr (fun r hr => absurd hr List.not_mem_nil)
      rw [hguaranteed.mpr (fun r hr => absurd hr List.not_mem_nil)] at hbest
      cases hbest
    exact
      { nonempty := hne
        alike := fun hall => (hg.mp (hguaranteed.mpr hall)).2
        positive := fun hall => hguaranteed.mp (hg.mpr ⟨hne,hall⟩)
        bare := fun hall => hb.mp (hbestEffort.mpr hall)
        read := fun hall => hbestEffort.mp (hb.mpr hall) }
  · intro hshows
    have hguaranteed : computeQosClass spec = .guaranteed ↔ ∀ r ∈ allResources resources kspec, GuaranteedBy r :=
      hg.trans ⟨fun hall => hshows.positive hall.2,fun hall => ⟨hshows.nonempty,hshows.alike hall⟩⟩
    have hbestEffort : computeQosClass spec = .bestEffort ↔ ∀ r ∈ allResources resources kspec, Idle r :=
      hb.trans ⟨hshows.read,hshows.bare⟩
    refine ⟨hguaranteed,hbestEffort,?_⟩
    rw [burstable_iff,hguaranteed,hbestEffort]

/-! ## A pod with two spellings of 1 Gi -/

def oneCore : K8sQuantity := { oneGibi with suffix := .none }

/-- A core and 1 Gi, the limit and the request for memory as given. -/
def coreAndGibi (request limit : K8sQuantity) : ApiResources where
  requests := some ((∅ : HashMap String K8sQuantity).insert "cpu" oneCore |>.insert "memory" request)
  limits := some ((∅ : HashMap String K8sQuantity).insert "cpu" oneCore |>.insert "memory" limit)

def loneSpec (r : ApiResources) : K8sPodSpec ApiResources Unit where
  containers := [r]
  serviceAccountName := some "default"

def lonePod (r : ApiResources) : K8sPod ApiResources Unit where
  metadata :=
    { uid := some "u"
      name := some "web" }
  spec := some (loneSpec r)

def namedApp {C : Type} (_ : C) : ContainerSpec where
  name := "app"

def loneConverted (r : ApiResources) : PodSpec where
  uid := ⟨"u"⟩
  podRef := ⟨"default","web"⟩
  containers := [k8sContainerToSpec some namedApp r]
  nodeName := "node"

theorem podToSpec_lonePod (r : ApiResources) :
    podToSpec (k8sContainerToSpec some namedApp) namedApp (lonePod r) "node" = some (loneConverted r) := rfl

theorem computeQosClass_expected_iff_lone :
    Expected (allResources some (loneSpec (coreAndGibi oneGibi oneGibi)))
        (computeQosClass (loneConverted (coreAndGibi oneGibi oneGibi))) ↔
      ShowsClass (allResources some (loneSpec (coreAndGibi oneGibi oneGibi))) :=
  computeQosClass_expected_iff rfl (podToSpec_lonePod (coreAndGibi oneGibi oneGibi))

/-- A memory limit of 1Gi with a request of 1073741824 bytes makes a pod burstable. -/
theorem one_gibi_burstable :
    computeQosClass (loneConverted (coreAndGibi gibiBytes oneGibi)) = .burstable ∧
      (∀ r ∈ allResources some (loneSpec (coreAndGibi gibiBytes oneGibi)), GuaranteedBy r) ∧
        ¬Expected (allResources some (loneSpec (coreAndGibi gibiBytes oneGibi)))
          (computeQosClass (loneConverted (coreAndGibi gibiBytes oneGibi))) := by
  have hclass : computeQosClass (loneConverted (coreAndGibi gibiBytes oneGibi)) = .burstable := by decide +kernel
  have hall : ∀ r ∈ allResources some (loneSpec (coreAndGibi gibiBytes oneGibi)), GuaranteedBy r := by
    intro r hr
    rw [List.mem_singleton.mp hr]
    have hcore : (0 : ℚ) < oneCore.amount := by
      norm_num [K8sQuantity.amount,oneCore,oneGibi,Wire.Numeral.amount,Wire.Sign.factor,Wire.Digits.value,
        Wire.Numeral.fractionAmount,Suffix.factor]
    have hgibi : (0 : ℚ) < oneGibi.amount := by
      norm_num [K8sQuantity.amount,oneGibi,Wire.Numeral.amount,Wire.Sign.factor,Wire.Digits.value,
        Wire.Numeral.fractionAmount,Suffix.factor]
    exact ⟨⟨oneCore,oneCore,rfl,rfl,hcore,rfl⟩,⟨oneGibi,gibiBytes,rfl,rfl,hgibi,amount_oneGibi.symm⟩⟩
  refine ⟨hclass,hall,?_⟩
  rintro ⟨hguaranteed,-⟩
  have hg := hguaranteed.mpr hall
  rw [hclass] at hg
  cases hg

end KubeAir.Adapters.ApiQos
