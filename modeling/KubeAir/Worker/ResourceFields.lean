import KubeAir.Worker.DownwardApi

/-! # Resources in variables and files

A limit or a request of a container as a variable and as a file. What is meant is the ceiling of
the amount by the divisor. The variable ignores the name of the container and the divisor, the
file rounds down and knows some divisors only.
-/
namespace KubeAir.Worker.DownwardApi
open Core Adapters Quantity FieldRef Wire.Binary64

inductive Bound
  | limits
  | requests
  deriving DecidableEq

inductive Measure
  | cpu
  | memory
  | ephemeralStorage
  deriving DecidableEq

/-- The key of a measure in the limits and requests. -/
def Measure.key : Measure → String
  | cpu => "cpu"
  | memory => "memory"
  | ephemeralStorage => "ephemeral-storage"

/-- A resource that can be exposed. -/
structure ResourceName where
  bound : Bound
  measure : Measure
  deriving DecidableEq

def ResourceName.text (r : ResourceName) : String :=
  (match r.bound with
  | .limits => "limits."
  | .requests => "requests.") ++ r.measure.key

/-- The quantity that a container declares. -/
def ResourceName.quantity (r : ResourceName) (c : ContainerSpec) : Option ResourceQuantity :=
  match r.bound with
  | .limits => c.resources.limits.lookup r.measure.key
  | .requests => c.resources.requests.lookup r.measure.key

/-- What a quantity denotes, in cores or bytes. -/
def quantityAmount (q : ResourceQuantity) : ℚ := q.value / perOne q.unit

/-- What the node has of a measure. -/
def allocatable (host : HostView) : Measure → Option ℚ
  | .cpu => some host.cpus
  | .memory => some (nodeAllocatableMemoryBytes host)
  | .ephemeralStorage => none

/-- The amount that is to be exposed: the limit, else what the node has; the request, else nothing. -/
def ResourceName.amount (host : HostView) (r : ResourceName) (c : ContainerSpec) : Option ℚ :=
  match r.quantity c,r.bound with
  | some q, _ => some (quantityAmount q)
  | none, .limits => allocatable host r.measure
  | none, .requests => some 0

/-- A divisor that is absent or zero is 1. -/
def divisorAmount : Option K8sQuantity → ℚ
  | none => 1
  | some q => if q.amount = 0 then 1 else q.amount

/-- The container that a reference means; without a name that of the variable. -/
def namedContainer (pod : PodSpec) (own : ContainerSpec) : Option String → Option ContainerSpec
  | none => some own
  | some n => (pod.containers ++ pod.initContainers).find? (fun c => c.name = n)

/-- The reference of a variable and of a file. -/
structure Reference where
  containerName : Option String := none
  resource : ResourceName
  divisor : Option K8sQuantity := none

def Reference.envSource (ref : Reference) : K8sEnvVarSource where
  resourceFieldRef := some
    { containerName := ref.containerName
      resource := ref.resource.text
      divisor := ref.divisor }

def Reference.item (ref : Reference) (path : String) (mode : Option ℤ) : DownwardAPIVolumeFile where
  path := path
  resourceFieldRef := some ⟨ref.containerName,ref.resource.text,ref.divisor.map (·.text)⟩
  mode := mode

/-- Variable and file have the same value, and that is the ceiling of the amount by the divisor. -/
def Exposes (host : HostView) (pod : PodSpec) (own : ContainerSpec) (podIp : Option String) (configmaps : ConfigMaps)
    (secrets : Secrets) (ref : Reference) (item : DownwardAPIVolumeFile) (target : ContainerSpec) : Prop :=
  ∃ source, ref.envSource.toSpec = some source ∧
    resolveEnvVarSource host pod own podIp source configmaps secrets = .ok (resolveDownwardApiValue host pod item podIp) ∧
      ∀ a, ref.resource.amount host target = some a →
        resolveDownwardApiValue host pod item podIp = toString ⌈a / divisorAmount ref.divisor⌉

/-! ## The two values -/

/-- The number of a variable: the container's own, in whole cores or bytes. -/
def ownNumber (host : HostView) (r : ResourceName) (own : ContainerSpec) : ℤ :=
  match r.measure,r.quantity own,r.bound with
  | .cpu, some q, _ => wholeCores q.value
  | .cpu, none, .limits => wholeCores (nodeAllocatableCpuMillicores host)
  | _, some q, _ => q.value
  | _, none, .limits => nodeAllocatableMemoryBytes host
  | _, none, .requests => 0

/-- The amount of a file, in millicores or bytes: a limit has to be positive, a request to be there. -/
def fileAmount (host : HostView) (r : ResourceName) (c : ContainerSpec) : Option ℤ :=
  match r.bound,r.measure with
  | .limits, .cpu => some (positiveOr (nodeAllocatableCpuMillicores host) (r.quantity c))
  | .limits, .memory => some (positiveOr (nodeAllocatableMemoryBytes host) (r.quantity c))
  | _, _ => (r.quantity c).map (·.value)

/-- The number of a file, in whole cores, in millicores, or in the divisors for bytes that are known. -/
def fileNumber (m : Measure) (divisor : String) (raw : ℤ) : ℤ :=
  match m with
  | .cpu => if divisor = "1m" then raw else wholeCores raw
  | _ => raw.tdiv (divisorBytes divisor)

section values
variable {host : HostView} {pod : PodSpec} {own : ContainerSpec} {podIp : Option String} {configmaps : ConfigMaps}
  {secrets : Secrets} {r : ResourceName} {ref : Reference}

theorem resolveEnvVarSource_resource (containerName : Option String) :
    resolveEnvVarSource host pod own podIp (.resourceFieldRef containerName r.text) configmaps secrets =
      .ok (if r.measure = .ephemeralStorage then "" else toString (ownNumber host r own)) := by
  obtain ⟨bound,measure⟩ := r
  cases bound <;> cases measure
  case limits.ephemeralStorage | requests.ephemeralStorage => rfl
  all_goals
    change Except.ok _ = _
    rw [if_neg (by decide)]
    simp only [ownNumber,ResourceName.quantity,Measure.key]
  case limits.cpu => cases own.resources.limits.lookup "cpu" <;> rfl
  case limits.memory => cases own.resources.limits.lookup "memory" <;> rfl
  case requests.cpu => cases own.resources.requests.lookup "cpu" <;> rfl
  case requests.memory => cases own.resources.requests.lookup "memory" <;> rfl

theorem rawValue_text (c : ContainerSpec) : rawValue host c r.text = fileAmount host r c := by
  obtain ⟨bound,measure⟩ := r
  cases bound <;> cases measure <;> rfl

theorem containsCpu_text : containsCpu r.text = decide (r.measure = .cpu) := by
  obtain ⟨bound,measure⟩ := r
  cases bound <;> cases measure <;> decide

theorem resolveDownwardApiValue_item (path : String) (mode : Option ℤ) :
    resolveDownwardApiValue host pod (ref.item path mode) podIp =
      match (referredContainer pod ref.containerName).bind (fileAmount host ref.resource) with
      | some raw => toString (fileNumber ref.resource.measure ((ref.divisor.map (·.text)).getD "1") raw)
      | none => "" := by
  unfold resolveDownwardApiValue Reference.item
  simp only [Option.bind_some,rawValue_text,containsCpu_text,Option.map_none,Option.getD_none]
  cases referredContainer pod ref.containerName with
  | none => rfl
  | some c =>
    rw [Option.bind_some,Option.bind_some]
    cases fileAmount host ref.resource c with
    | none => rfl
    | some raw =>
      rw [Option.map_some]
      refine congrArg toString ?_
      unfold applyResourceDivisor fileNumber
      cases ref.resource.measure <;> rfl

end values

/-! ## Where they are right -/

/-- What the node has, in millicores or bytes. -/
def nodeHas (host : HostView) : Measure → ℤ
  | .cpu => host.cpus * 1000
  | _ => nodeAllocatableMemoryBytes host

/-- The amount of a variable: what is declared, else what the node has for a limit, and nothing for a
request. -/
inductive OfVariable (host : HostView) (r : ResourceName) (c : ContainerSpec) : ℤ → Prop
  | set {q : ResourceQuantity} (h : r.quantity c = some q) : OfVariable host r c q.value
  | node (hbound : r.bound = .limits) (h : r.quantity c = none) : OfVariable host r c (nodeHas host r.measure)
  | nothing (hbound : r.bound = .requests) (h : r.quantity c = none) : OfVariable host r c 0

/-- The amount of a file: what is declared, else what the node has for a limit. A limit has to be
positive, and there is nothing for a request. -/
inductive OfFile (host : HostView) (r : ResourceName) (c : ContainerSpec) : ℤ → Prop
  | set {q : ResourceQuantity} (h : r.quantity c = some q) (hpos : r.bound = .limits → 0 < q.value) : OfFile host r c q.value
  | node (hbound : r.bound = .limits) (h : ∀ q, r.quantity c = some q → q.value ≤ 0) : OfFile host r c (nodeHas host r.measure)

/-- The millicores fill all but the last of so many cores. From 2^53 on they are rounded to doubles. -/
def FillCores (millicores n : ℤ) : Prop :=
  if |millicores| < 2 ^ 53 then 1000 * (n - 1) < millicores ∧ millicores ≤ 1000 * n
  else (n : ℚ) - 1 < toF64 (toF64 millicores / 1000) ∧ toF64 (toF64 millicores / 1000) ≤ n

/-- So many whole units are in the bytes, on either side of zero. -/
def HoldUnits (unit bytes n : ℤ) : Prop :=
  if 0 ≤ bytes then n * unit ≤ bytes ∧ bytes < (n + 1) * unit else (n - 1) * unit < bytes ∧ bytes ≤ n * unit

/-- For a variable the cores count that are begun, or the bytes. -/
def Measure.Fills : Measure → ℤ → ℤ → Prop
  | .cpu, x, n => FillCores x n
  | _, x, n => x = n

/-- For a file the millicores count if the divisor is written so, and the whole units of a divisor for
bytes that is known. -/
def Measure.FillsBy (divisor : String) : Measure → ℤ → ℤ → Prop
  | .cpu, x, n => if divisor = "1m" then x = n else FillCores x n
  | _, x, n => HoldUnits (divisorBytes divisor) x n

/-- The amounts of the container of the variable and of that of the file fill as many units as it takes
divisors to reach the amount meant. A limit for ephemeral storage is given by neither,
which is right where there is none. -/
def Agrees (host : HostView) (pod : PodSpec) (own : ContainerSpec) (ref : Reference) (target : ContainerSpec) : Prop :=
  let file := referredContainer pod ref.containerName
  if ref.resource.measure = .ephemeralStorage then
    ref.resource.bound = .limits ∧ ref.resource.quantity target = none ∧ ∀ c, file = some c → ref.resource.quantity c = none
  else
    ∃ n : ℤ,
      let units := (ref.resource.amount host target).getD 0 / divisorAmount ref.divisor
      ((n : ℚ) - 1 < units ∧ units ≤ n) ∧
        (∃ x, OfVariable host ref.resource own x ∧ ref.resource.measure.Fills x n) ∧
          ∃ c x, file = some c ∧ OfFile host ref.resource c x ∧
            ref.resource.measure.FillsBy ((ref.divisor.map (·.text)).getD "1") x n

section amounts
variable {host : HostView} {r : ResourceName} {c : ContainerSpec} {x n : ℤ}

/-- Below 2^53 millicores the doubles give the ceiling. -/
theorem wholeCores_eq (h : |x| < 2 ^ 53) : wholeCores x = ⌈(x : ℚ) / 1000⌉ := by
  have hbound : |(x : ℚ)| < 2 ^ 53 := by exact_mod_cast h
  unfold wholeCores
  rw [toF64_intCast h]
  refine ceil_eq_of_close (n := x) (d := 1000) (by norm_num) ?_ ?_
  · rintro ⟨c,rfl⟩
    have hc : ((1000 * c : ℤ) : ℚ) / 1000 = c := by
      push_cast
      exact mul_div_cancel_left₀ (c : ℚ) (by norm_num)
    rw [hc,toF64_intCast]
    · exact hc.symm
    · rw [abs_mul,show |(1000 : ℤ)| = 1000 by norm_num] at h
      have hpos := abs_nonneg c
      omega
  · have hclose := toF64_error_of_lt (x := (x : ℚ) / 1000) (k := -9) (by
      rw [abs_div,abs_of_pos (show (0 : ℚ) < 1000 by norm_num),div_lt_iff₀ (by norm_num)]
      norm_num
      linarith)
    refine lt_of_le_of_lt hclose ?_
    norm_num

theorem wholeCores_eq_iff : wholeCores x = n ↔ FillCores x n := by
  unfold FillCores
  split
  · next h =>
    rw [wholeCores_eq h,Int.ceil_eq_iff,lt_div_iff₀ (by norm_num),div_le_iff₀ (by norm_num)]
    norm_cast
    rw [mul_comm 1000,mul_comm 1000]
  · exact Int.ceil_eq_iff

theorem divisorBytes_pos (divisor : String) : 0 < divisorBytes divisor := by
  unfold divisorBytes
  split <;> decide

theorem tdiv_eq_iff {unit : ℤ} (hunit : 0 < unit) : x.tdiv unit = n ↔ HoldUnits unit x n := by
  unfold HoldUnits
  split
  · next h => rw [Int.tdiv_eq_ediv_of_nonneg h,Int.ediv_eq_iff_of_pos hunit,add_mul,one_mul]
  · next h =>
    rw [← neg_inj,← Int.neg_tdiv,Int.tdiv_eq_ediv_of_nonneg (by omega),Int.ediv_eq_iff_of_pos hunit]
    constructor <;> rintro ⟨hlow,hhigh⟩ <;> constructor <;> linarith

theorem ofVariable_iff : OfVariable host r c x ↔ x =
    match r.quantity c,r.bound with
    | some q, _ => q.value
    | none, .limits => nodeHas host r.measure
    | none, .requests => 0 := by
  constructor
  · intro hx
    cases hx with
    | set h => rw [h]
    | node hbound h => rw [h,hbound]
    | nothing hbound h => rw [h,hbound]
  · rintro rfl
    cases hq : r.quantity c with
    | some q => exact .set hq
    | none =>
      cases hbound : r.bound with
      | limits => exact .node hbound hq
      | requests => exact .nothing hbound hq

theorem ownNumber_eq_iff : ownNumber host r c = n ↔ ∃ x, OfVariable host r c x ∧ r.measure.Fills x n := by
  have hzero : wholeCores 0 = 0 := by
    rw [wholeCores_eq (by norm_num)]
    norm_num
  simp only [ofVariable_iff,exists_eq_left]
  obtain ⟨bound,measure⟩ := r
  unfold ownNumber
  generalize ResourceName.quantity _ c = q
  cases measure with
  | cpu => cases q <;> cases bound <;> simp only [Measure.Fills,← wholeCores_eq_iff,nodeHas,nodeAllocatableCpuMillicores,hzero]
  | memory => cases q <;> cases bound <;> exact Iff.rfl
  | ephemeralStorage => cases q <;> cases bound <;> exact Iff.rfl

theorem fileAmount_eq_iff (h : r.measure ≠ .ephemeralStorage) : fileAmount host r c = some x ↔ OfFile host r c x := by
  have hlimit : r.bound = .limits → (positiveOr (nodeHas host r.measure) (r.quantity c) = x ↔ OfFile host r c x) := by
    intro hbound
    unfold positiveOr
    constructor
    · intro hx
      split at hx
      · next hpos =>
        cases hq : r.quantity c with
        | none =>
          rw [hq] at hpos
          exact absurd hpos (lt_irrefl _)
        | some q =>
          rw [hq] at hx hpos
          subst hx
          exact .set hq fun _ => hpos
      · next hpos =>
        subst hx
        refine .node hbound fun q hq => ?_
        rw [hq] at hpos
        exact not_lt.mp hpos
    · intro hx
      cases hx with
      | set hq hpos =>
        rw [hq]
        exact if_pos (hpos hbound)
      | node _ hnone =>
        refine if_neg ?_
        cases hq : r.quantity c with
        | none => exact lt_irrefl _
        | some q => exact not_lt.mpr (hnone q hq)
  have hrequest : r.bound = .requests → ((r.quantity c).map (·.value) = some x ↔ OfFile host r c x) := by
    intro hbound
    rw [Option.map_eq_some_iff]
    constructor
    · rintro ⟨q,hq,rfl⟩
      exact .set hq fun hlimits => by cases hbound.symm.trans hlimits
    · intro hx
      cases hx with
      | set hq _ => exact ⟨_,hq,rfl⟩
      | node hlimits _ => cases hbound.symm.trans hlimits
  obtain ⟨bound,measure⟩ := r
  cases bound <;> cases measure
  case limits.ephemeralStorage | requests.ephemeralStorage => exact absurd rfl h
  case limits.cpu | limits.memory => exact Option.some_inj.trans (hlimit rfl)
  case requests.cpu | requests.memory => exact hrequest rfl

theorem fileNumber_eq_iff (m : Measure) (divisor : String) : fileNumber m divisor x = n ↔ m.FillsBy divisor x n := by
  cases m with
  | cpu =>
    unfold fileNumber Measure.FillsBy
    dsimp only
    split
    · exact Iff.rfl
    · exact wholeCores_eq_iff
  | memory => exact tdiv_eq_iff (divisorBytes_pos divisor)
  | ephemeralStorage => exact tdiv_eq_iff (divisorBytes_pos divisor)

/-- A file of the container and the divisor that are meant shows bytes that the divisor divides. -/
theorem holdUnits_ceiling_iff {unit : ℤ} (hunit : 0 < unit) (hx : 0 ≤ x) : HoldUnits unit x ⌈(x : ℚ) / unit⌉ ↔ unit ∣ x := by
  have hq : (0 : ℚ) < unit := Int.cast_pos.mpr hunit
  have hle : (x : ℚ) ≤ (⌈(x : ℚ) / unit⌉ : ℤ) * unit := (div_le_iff₀ hq).mp (Int.le_ceil _)
  have hle' : x ≤ ⌈(x : ℚ) / unit⌉ * unit := by exact_mod_cast hle
  unfold HoldUnits
  rw [if_pos hx]
  constructor
  · exact fun h => ⟨⌈(x : ℚ) / unit⌉,by rw [mul_comm]; exact le_antisymm hle' h.1⟩
  · rintro ⟨k,rfl⟩
    have hk : ⌈((unit * k : ℤ) : ℚ) / unit⌉ = k := by
      push_cast
      rw [mul_div_cancel_left₀ _ hq.ne',Int.ceil_intCast]
    rw [hk]
    constructor <;> nlinarith

end amounts

section agreement
variable {host : HostView} {pod : PodSpec} {own target : ContainerSpec} {podIp : Option String} {configmaps : ConfigMaps}
  {secrets : Secrets} {r : ResourceName} {ref : Reference}

theorem amount_isSome (host : HostView) (h : r.measure ≠ .ephemeralStorage) (c : ContainerSpec) : (r.amount host c).isSome = true := by
  obtain ⟨bound,measure⟩ := r
  unfold ResourceName.amount
  cases bound <;> cases measure
  case limits.ephemeralStorage | requests.ephemeralStorage => exact absurd rfl h
  all_goals
    generalize ResourceName.quantity _ c = q
    cases q <;> rfl

theorem fileAmount_ephemeral (h : r.measure = .ephemeralStorage) (c : ContainerSpec) :
    fileAmount host r c = (r.quantity c).map (·.value) := by
  obtain ⟨bound,measure⟩ := r
  obtain rfl : measure = .ephemeralStorage := h
  cases bound <;> rfl

/-- An amount of ephemeral storage is missing for a limit that is not set. -/
theorem amount_ephemeral_eq_none_iff (host : HostView) (h : r.measure = .ephemeralStorage) (c : ContainerSpec) :
    r.amount host c = none ↔ r.bound = .limits ∧ r.quantity c = none := by
  obtain ⟨bound,measure⟩ := r
  obtain rfl : measure = .ephemeralStorage := h
  unfold ResourceName.amount
  cases hq : ResourceName.quantity ⟨bound,.ephemeralStorage⟩ c <;> cases bound <;> simp [allocatable]

theorem toString_int_ne_empty (n : ℤ) : toString n ≠ "" := by
  obtain ⟨x,hfraction,-,hchars⟩ := exists_numeral n
  intro h
  rw [h] at hchars
  obtain ⟨hwhole,-⟩ := List.append_eq_nil_iff.mp hchars
  exact Wire.Numeral.whole_ne_nil hfraction (List.map_eq_nil_iff.mp (List.append_eq_nil_iff.mp hwhole).2)

/-- The source of the variable has lost the divisor. -/
theorem envSource_toSpec : ref.envSource.toSpec = some (.resourceFieldRef ref.containerName ref.resource.text) := rfl

/-- The numbers of variable and file are those that the amounts come to. -/
theorem agrees_iff_of_measured (h : ref.resource.measure ≠ .ephemeralStorage) : Agrees host pod own ref target ↔
    ownNumber host ref.resource own = ⌈(ref.resource.amount host target).getD 0 / divisorAmount ref.divisor⌉ ∧
      ∃ c raw, referredContainer pod ref.containerName = some c ∧ fileAmount host ref.resource c = some raw ∧
        fileNumber ref.resource.measure ((ref.divisor.map (·.text)).getD "1") raw =
          ⌈(ref.resource.amount host target).getD 0 / divisorAmount ref.divisor⌉ := by
  unfold Agrees
  rw [if_neg h]
  simp only [← Int.ceil_eq_iff,← ownNumber_eq_iff,← fileAmount_eq_iff h,← fileNumber_eq_iff,exists_eq_left']

theorem exposes_iff_of_measured (path : String) (mode : Option ℤ) (h : ref.resource.measure ≠ .ephemeralStorage) :
    Exposes host pod own podIp configmaps secrets ref (ref.item path mode) target ↔ Agrees host pod own ref target := by
  obtain ⟨a,ha⟩ := Option.isSome_iff_exists.mp (amount_isSome host h target)
  rw [agrees_iff_of_measured h,ha]
  unfold Exposes
  rw [envSource_toSpec,ha,Option.getD_some]
  simp only [Option.some.injEq,exists_eq_left',resolveEnvVarSource_resource,if_neg h,Except.ok.injEq,forall_eq']
  rw [resolveDownwardApiValue_item]
  cases hraw : (referredContainer pod ref.containerName).bind (fileAmount host ref.resource) with
  | none =>
    refine iff_of_false (fun hx => toString_int_ne_empty _ hx.1) ?_
    rintro ⟨-,c,raw,hc,hamount,-⟩
    rw [hc,Option.bind_some,hamount] at hraw
    cases hraw
  | some raw =>
    obtain ⟨c,hc,hamount⟩ := Option.bind_eq_some_iff.mp hraw
    dsimp only
    constructor
    · rintro ⟨hown,hceiling⟩
      have hfile := toString_int_inj hceiling
      exact ⟨(toString_int_inj hown).trans hfile,c,raw,hc,hamount,hfile⟩
    · rintro ⟨hown,c',raw',hc',hamount',hfile⟩
      obtain rfl := Option.some.inj (hc.symm.trans hc')
      obtain rfl := Option.some.inj (hamount.symm.trans hamount')
      rw [hown,hfile]
      exact ⟨rfl,rfl⟩

theorem exposes_iff_of_ephemeral (path : String) (mode : Option ℤ) (h : ref.resource.measure = .ephemeralStorage) :
    Exposes host pod own podIp configmaps secrets ref (ref.item path mode) target ↔ Agrees host pod own ref target := by
  unfold Exposes Agrees
  rw [envSource_toSpec,if_pos h]
  simp only [Option.some.injEq,exists_eq_left',resolveEnvVarSource_resource,if_pos h,Except.ok.injEq]
  rw [resolveDownwardApiValue_item]
  have hfile : (referredContainer pod ref.containerName).bind (fileAmount host ref.resource) = none ↔
      ∀ c, referredContainer pod ref.containerName = some c → ref.resource.quantity c = none := by
    rw [Option.bind_eq_none_iff]
    simp only [fileAmount_ephemeral h,Option.map_eq_none_iff]
  rw [← and_assoc,← amount_ephemeral_eq_none_iff host h,← hfile]
  cases (referredContainer pod ref.containerName).bind (fileAmount host ref.resource) with
  | none =>
    dsimp only
    constructor
    · rintro ⟨-,hamount⟩
      refine ⟨Option.eq_none_iff_forall_ne_some.mpr fun a ha => ?_,rfl⟩
      exact toString_int_ne_empty _ (hamount a ha).symm
    · rintro ⟨hnone,-⟩
      refine ⟨rfl,fun a ha => ?_⟩
      rw [hnone] at ha
      cases ha
  | some raw => exact iff_of_false (fun hx => toString_int_ne_empty _ hx.1.symm) (fun hx => by cases hx.2)

/-- Variable and file agree with each other and with the amount exactly if what the code takes for
the amounts comes to the ceiling by the divisor. -/
theorem exposes_iff (path : String) (mode : Option ℤ) :
    (∀ target, namedContainer pod own ref.containerName = some target →
      Exposes host pod own podIp configmaps secrets ref (ref.item path mode) target) ↔
        ∀ target, namedContainer pod own ref.containerName = some target → Agrees host pod own ref target := by
  refine forall₂_congr fun target _ => ?_
  by_cases h : ref.resource.measure = .ephemeralStorage
  · exact exposes_iff_of_ephemeral path mode h
  · exact exposes_iff_of_measured path mode h

/-- A limit or request of the variable's own container, which the file reads too, in whole units. -/
theorem agrees_of_own {q : ResourceQuantity} (hmeasure : ref.resource.measure ≠ .ephemeralStorage)
    (hfile : referredContainer pod ref.containerName = some own) (hq : ref.resource.quantity own = some q)
    (hpos : 0 < q.value) (hsmall : q.value < 2 ^ 53) (hunit : q.unit = .millicores ↔ ref.resource.measure = .cpu)
    (hone : divisorAmount ref.divisor = 1) (htext : (ref.divisor.map (·.text)).getD "1" ∈ ["0","1"]) :
    Agrees host pod own ref own := by
  obtain ⟨containerName,⟨bound,measure⟩,divisor⟩ := ref
  have hamount : ResourceName.amount host ⟨bound,measure⟩ own = some (quantityAmount q) := by
    unfold ResourceName.amount
    rw [show ResourceName.quantity ⟨bound,measure⟩ own = some q from hq]
  have hraw : fileAmount host ⟨bound,measure⟩ own = some q.value := by
    unfold fileAmount
    rw [show ResourceName.quantity ⟨bound,measure⟩ own = some q from hq]
    cases bound <;> cases measure <;> simp [positiveOr,hpos]
  have hnotm : (divisor.map (·.text)).getD "1" ≠ "1m" ∧ divisorBytes ((divisor.map (·.text)).getD "1") = 1 := by
    simp only [List.mem_cons,List.not_mem_nil,or_false] at htext
    rcases htext with ht | ht <;> rw [ht] <;> decide
  rw [agrees_iff_of_measured hmeasure]
  dsimp only
  rw [hamount,hone,div_one,Option.getD_some]
  cases measure with
  | ephemeralStorage => exact absurd rfl hmeasure
  | cpu =>
    have hcores : wholeCores q.value = ⌈quantityAmount q⌉ := by
      rw [wholeCores_eq (by rw [abs_of_pos hpos]; exact hsmall),quantityAmount,hunit.mpr rfl]
      rfl
    refine ⟨?_,own,q.value,hfile,hraw,?_⟩
    · rw [← hcores,ownNumber,hq]
    · rw [← hcores,fileNumber,if_neg hnotm.1]
  | memory =>
    have hbytes : q.value = ⌈quantityAmount q⌉ := by
      have hone : perOne q.unit = 1 := by
        cases hu : q.unit with
        | millicores => cases hunit.mp hu
        | _ => rfl
      rw [quantityAmount,hone,Int.cast_one,div_one,Int.ceil_intCast]
    refine ⟨?_,own,q.value,hfile,hraw,?_⟩
    · rw [← hbytes,ownNumber,hq]
    · rw [← hbytes]
      change q.value.tdiv (divisorBytes ((divisor.map (·.text)).getD "1")) = q.value
      rw [hnotm.2,Int.tdiv_one]

end agreement

/-! ## A limit in units of 1Mi -/

def oneMebi : K8sQuantity where
  number := oneGibi.number
  suffix := .mebi

/-- A container with a memory limit of 100M. -/
def limitedContainer : ContainerSpec where
  name := "app"
  resources := { limits := (∅ : HashMap String ResourceQuantity).insert "memory" ⟨100000000,.bytes⟩ }

def limitedPod : PodSpec where
  uid := ⟨"uid-a"⟩
  podRef := ⟨"default","web"⟩
  containers := [limitedContainer]

def memoryLimit : Reference where
  containerName := some "app"
  resource := ⟨.limits,.memory⟩
  divisor := some oneMebi

def fourCores : HostView where
  internalIp := "10.0.0.1"
  cpus := 4

/-- The variable has the bytes, and the file has fewer units than the limit takes. -/
theorem memory_limit_rounded_down :
    namedContainer limitedPod limitedContainer memoryLimit.containerName = some limitedContainer ∧
      resolveEnvVarSource fourCores limitedPod limitedContainer none (.resourceFieldRef (some "app") "limits.memory") ∅ ∅ =
        .ok "100000000" ∧
      resolveDownwardApiValue fourCores limitedPod (memoryLimit.item "limit" none) none = "95" ∧
      ∃ a, memoryLimit.resource.amount fourCores limitedContainer = some a ∧ ⌈a / divisorAmount memoryLimit.divisor⌉ = 96 := by
  have hdivisor : divisorAmount memoryLimit.divisor = 1048576 := by
    have hone : oneMebi.amount = 1048576 := by
      norm_num [K8sQuantity.amount,oneMebi,oneGibi,Wire.Numeral.amount,Wire.Sign.factor,Wire.Digits.value,
        Wire.Numeral.fractionAmount,Suffix.factor]
    change (if oneMebi.amount = 0 then 1 else oneMebi.amount) = 1048576
    rw [hone,if_neg (by norm_num)]
  refine ⟨rfl,rfl,?_,100000000,?_,?_⟩
  · have hraw : (referredContainer limitedPod memoryLimit.containerName).bind (fileAmount fourCores memoryLimit.resource) =
        some 100000000 := rfl
    have htext : (memoryLimit.divisor.map (·.text)).getD "1" = "1Mi" := by decide
    rw [resolveDownwardApiValue_item,hraw,htext]
    rfl
  · change some (quantityAmount ⟨100000000,.bytes⟩) = _
    norm_num [quantityAmount,perOne]
  · rw [hdivisor,Int.ceil_eq_iff]
    norm_num

end KubeAir.Worker.DownwardApi
