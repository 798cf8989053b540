import KubeAir.Adapters.Eviction

/-! # Node pressure

The evaluator behind the pressure conditions of the node. It has a parser of thresholds of
its own, which knows fewer suffixes than the one of the eviction manager.
-/
namespace KubeAir.Adapters.Pressure
open Core Admission Eviction

structure ResourceSignals where
  memoryAvailableBytes : UInt64
  nodefsAvailableBytes : UInt64
  nodefsInodesFree : UInt64
  imagefsAvailableBytes : UInt64
  pidAvailable : UInt64
  nodefsTotalBytes : UInt64
  imagefsTotalBytes : UInt64

def parseBytes (s : String) : UInt64 :=
  match stripSuffix s "Ki" with
  | some n => (parseU64 n).getD 0 * 1024
  | none =>
    match stripSuffix s "Mi" with
    | some n => (parseU64 n).getD 0 * 1024 * 1024
    | none =>
      match stripSuffix s "Gi" with
      | some n => (parseU64 n).getD 0 * 1024 * 1024 * 1024
      | none => (parseU64 s).getD 0

def thresholdExceeded (signalValue total : UInt64) (threshold : String) : Bool :=
  match stripSuffix threshold "%" with
  | some pctStr =>
    let pct := (parseF64 pctStr).getD 0.0
    if total = 0 then false else signalValue < (pct / 100.0 * total.toFloat).toUInt64
  | none => signalValue < parseBytes threshold

structure PressureConditions where
  memoryPressure : Bool := false
  diskPressure : Bool := false
  pidPressure : Bool := false
deriving DecidableEq, Repr

/-- Whether a signal has fallen below its threshold. -/
def exceeded (signals : ResourceSignals) (signal threshold : String) : Bool :=
  match signal with
  | "memory.available" =>
    thresholdExceeded signals.memoryAvailableBytes (signals.memoryAvailableBytes + signals.nodefsTotalBytes) threshold
  | "nodefs.available" => thresholdExceeded signals.nodefsAvailableBytes signals.nodefsTotalBytes threshold
  | "nodefs.inodesFree" => thresholdExceeded signals.nodefsInodesFree 1000000 threshold
  | "imagefs.available" => thresholdExceeded signals.imagefsAvailableBytes signals.imagefsTotalBytes threshold
  | "pid.available" => signals.pidAvailable < (parseU64 threshold).getD 1000
  | _ => false

/-- One round of the loop over the thresholds. -/
def evaluateSignal (signals : ResourceSignals) (conditions : PressureConditions) (signal threshold : String) :
    PressureConditions :=
  if exceeded signals signal threshold then
    match signal with
    | "memory.available" => { conditions with memoryPressure := true }
    | "nodefs.available" | "nodefs.inodesFree" | "imagefs.available" => { conditions with diskPressure := true }
    | "pid.available" => { conditions with pidPressure := true }
    | _ => conditions
  else conditions

def evaluatePressure (signals : ResourceSignals) (evictionHard : HashMap String String) : PressureConditions :=
  evictionHard.entries.foldl (fun conditions e => evaluateSignal signals conditions e.1 e.2) {}

theorem binarySuffix : ∀ x ∈ suffixes, x ≠ ("Ki",1024) → x ≠ ("Mi",1024 * 1024) →
    x ≠ ("Gi",1024 * 1024 * 1024) → x.1 ∉ ["Ki","Mi","Gi"] := by decide +kernel

/-- What the pressure parser makes of the same text. -/
theorem parseBytes_eq (s : String) : parseBytes s = match splitQuantity s with
    | none => (parseU64 s).getD 0
    | some (number,x) => if x.1 ∈ ["Ki","Mi","Gi"] then (parseU64 number).getD 0 * x.2 else 0 := by
  cases h : splitQuantity s with
  | none =>
    have hn := splitQuantity_eq_none.mp h
    unfold parseBytes
    rw [hn ("Ki",1024) (by simp [suffixes]),hn ("Mi",1024 * 1024) (by simp [suffixes]),
      hn ("Gi",1024 * 1024 * 1024) (by simp [suffixes])]
  | some y =>
    obtain ⟨number,x⟩ := y
    obtain ⟨hx,hs⟩ := splitQuantity_eq_some.mp h
    have hother : ∀ y ∈ suffixes, y ≠ x → stripSuffix s y.1 = none := by
      intro y hy hne
      cases hb : stripSuffix s y.1 with
      | none => rfl
      | some b => exact absurd (suffix_unique hy hx hb hs) hne
    have hu := parseU64_suffixed hx hs
    unfold parseBytes
    rw [hu]
    show _ = if x.1 ∈ ["Ki","Mi","Gi"] then (parseU64 number).getD 0 * x.2 else 0
    by_cases hki : x = ("Ki",1024)
    · subst hki
      rw [hs]
      rfl
    rw [hother ("Ki",1024) (by simp [suffixes]) (Ne.symm hki)]
    by_cases hmi : x = ("Mi",1024 * 1024)
    · subst hmi
      rw [hs]
      exact UInt64.mul_assoc _ 1024 1024
    rw [hother ("Mi",1024 * 1024) (by simp [suffixes]) (Ne.symm hmi)]
    by_cases hgi : x = ("Gi",1024 * 1024 * 1024)
    · subst hgi
      rw [hs]
      show (parseU64 number).getD 0 * 1024 * 1024 * 1024 = _
      rw [UInt64.mul_assoc _ 1024 1024,UInt64.mul_assoc _ 1024 (1024 * 1024)]
      rfl
    rw [hother ("Gi",1024 * 1024 * 1024) (by simp [suffixes]) (Ne.symm hgi),if_neg (binarySuffix x hx hki hmi hgi)]
    rfl

/-! ## The two evaluators -/

/-- A flag that each round of a loop raises when it hits. -/
theorem foldl_flag {α β : Type} (flag : β → Bool) {hit : α → Bool} {round : β → α → β} (l : List α)
    (h : ∀ a ∈ l, ∀ b, flag (round b a) = (flag b || hit a)) (b : β) :
    flag (l.foldl round b) = (flag b || l.any hit) := by
  induction l generalizing b with
  | nil => simp
  | cons a l ih =>
    rw [List.foldl_cons,ih (fun x hx => h x (List.mem_cons_of_mem a hx)),h a List.mem_cons_self,List.any_cons,
      Bool.or_assoc]

/-- The hits of a loop over a map at one key. -/
theorem any_entries_key (m : HashMap String String) (key : String) (hit : String → Bool) :
    m.entries.any (fun e => e.1 = key && hit e.2) = (m.lookup key).any hit := by
  rw [Bool.eq_iff_iff]
  simp only [List.any_eq_true,Bool.and_eq_true,decide_eq_true_eq,Option.any_eq_true]
  constructor
  · rintro ⟨e,he,rfl,hh⟩
    exact ⟨e.2,AList.mem_lookup_iff.mpr he,hh⟩
  · rintro ⟨v,hv,hh⟩
    exact ⟨⟨key,v⟩,AList.mem_lookup_iff.mp hv,rfl,hh⟩

/-- What is available of the resource that a signal is about. -/
def available (signals : ResourceSignals) : String → UInt64
  | "memory.available" => signals.memoryAvailableBytes
  | "nodefs.available" => signals.nodefsAvailableBytes
  | _ => signals.pidAvailable

def comparedSignals : List String := ["memory.available","nodefs.available","pid.available"]

/-- A value that one of two bounds is above and the other is not. -/
def Between (a p q : UInt64) : Prop := p ≤ a ∧ a < q ∨ q ≤ a ∧ a < p

instance (a p q : UInt64) : Decidable (Between a p q) := inferInstanceAs (Decidable (_ ∨ _))

theorem lt_eq_lt_iff (a p q : UInt64) : (decide (a < p) = decide (a < q)) ↔ ¬ Between a p q := by
  rw [decide_eq_decide]
  unfold Between
  simp only [UInt64.lt_iff_toNat_lt,UInt64.le_iff_toNat_le]
  omega

theorem between_self (a p : UInt64) : ¬ Between a p p := by
  rintro (⟨h,h'⟩ | ⟨h,h'⟩)
  · exact absurd h' (UInt64.not_lt.mpr h)
  · exact absurd h' (UInt64.not_lt.mpr h)

theorem between_zero (a q : UInt64) : ¬ Between a 0 q ↔ q ≤ a := by
  unfold Between
  simp only [UInt64.lt_iff_toNat_lt,UInt64.le_iff_toNat_le,UInt64.toNat_zero]
  omega

/-- Whether the two evaluators read a threshold alike, as far as the available amount tells:
a quantity without a suffix always, one in Ki, Mi or Gi whose number is an integer unless the
amount is between the product modulo `2 ^ 64` and the rounded one, any other one unless the
amount is below it. A number of processes with a suffix is taken to be 1000. -/
def ReadAlike (signal s : String) (available : UInt64) : Prop :=
  match splitQuantity s with
  | none => True
  | some (number,suffix,multiplier) =>
    let quantity := scaled ((parseF64 number).getD 0) multiplier
    if signal = "pid.available" then ¬ Between available 1000 quantity
    else match if suffix ∈ ["Ki","Mi","Gi"] then parseU64 number else none with
      | some n => ¬ Between available (n * multiplier) quantity
      | none => quantity ≤ available

theorem thresholdExceeded_quantity {s : String} {q : UInt64} (h : parseQuantity s = some q) (value total : UInt64) :
    thresholdExceeded value total s = decide (value < parseBytes s) := by
  unfold thresholdExceeded
  rw [(parseQuantity_bare h).2]

theorem exceeded_bytes {signals : ResourceSignals} {signal s : String} {q : UInt64} (hs : signal ∈ comparedSignals)
    (hp : signal ≠ "pid.available") (h : parseQuantity s = some q) :
    exceeded signals signal s = decide (available signals signal < parseBytes s) := by
  simp only [comparedSignals,List.mem_cons,List.not_mem_nil,or_false] at hs
  rcases hs with rfl | rfl | rfl
  · exact thresholdExceeded_quantity h _ _
  · exact thresholdExceeded_quantity h _ _
  · exact absurd rfl hp

/-- One threshold is exceeded for both evaluators or for neither. -/
theorem exceeded_eq_iff {signals : ResourceSignals} {signal s : String} {q : UInt64} (hs : signal ∈ comparedSignals)
    (h : parseQuantity s = some q) :
    exceeded signals signal s = decide (available signals signal < q) ↔
      ReadAlike signal s (available signals signal) := by
  have hq := h
  rw [parseQuantity_eq] at hq
  unfold ReadAlike
  by_cases hp : signal = "pid.available"
  · subst hp
    show decide (signals.pidAvailable < (parseU64 s).getD 1000) = decide (signals.pidAvailable < q) ↔ _
    cases hx : splitQuantity s with
    | none =>
      rw [hx] at hq
      rw [show parseU64 s = some q from hq]
      simp
    | some y =>
      obtain ⟨number,x⟩ := y
      rw [hx] at hq
      obtain ⟨hmem,hstrip⟩ := splitQuantity_eq_some.mp hx
      obtain ⟨n,hn,rfl⟩ := Option.map_eq_some_iff.mp hq
      rw [parseU64_suffixed hmem hstrip,lt_eq_lt_iff]
      simp only [hn,↓reduceIte,Option.getD_some,Option.getD_none]
      rfl
  · rw [exceeded_bytes hs hp h,parseBytes_eq,lt_eq_lt_iff]
    cases hx : splitQuantity s with
    | none =>
      rw [hx] at hq
      rw [show parseU64 s = some q from hq]
      simp only [Option.getD_some,between_self,not_false_eq_true]
    | some y =>
      obtain ⟨number,suffix,multiplier⟩ := y
      rw [hx] at hq
      obtain ⟨n,hn,rfl⟩ := Option.map_eq_some_iff.mp hq
      simp only [hn,if_neg hp,Option.getD_some]
      by_cases hb : suffix ∈ ["Ki","Mi","Gi"]
      · simp only [if_pos hb]
        cases parseU64 number with
        | none => simp only [Option.getD_none,UInt64.zero_mul,between_zero]
        | some n => rfl
      · simp only [if_neg hb,between_zero]


/-- The evaluators are given the same amounts. -/
structure SameAvailable (signals : ResourceSignals) (resources : NodeResources) : Prop where
  memory : resources.availableMemoryBytes = signals.memoryAvailableBytes
  disk : resources.availableDiskBytes = signals.nodefsAvailableBytes
  pids : resources.availablePids = signals.pidAvailable

/-- Every threshold is an absolute quantity for one of the signals that both evaluators know. -/
def Quantities (evictionHard : HashMap String String) : Prop :=
  ∀ signal s, evictionHard.lookup signal = some s → signal ∈ comparedSignals ∧ (parseQuantity s).isSome

/-- The flags of the two evaluators are the same. -/
def Agree (conditions : PressureConditions) (pressure : ResourcePressure) : Prop :=
  conditions.memoryPressure = pressure.memoryPressure ∧ conditions.diskPressure = pressure.diskPressure ∧
    conditions.pidPressure = pressure.pidPressure

instance (c : PressureConditions) (p : ResourcePressure) : Decidable (Agree c p) := inferInstanceAs (Decidable (_ ∧ _))

/-- The flag of the pressure conditions that a signal raises. -/
def conditionFlag (signal : String) (c : PressureConditions) : Bool :=
  match signal with
  | "memory.available" => c.memoryPressure
  | "nodefs.available" => c.diskPressure
  | _ => c.pidPressure

/-- The flag of the evaluator of the eviction manager that a signal raises. -/
def pressureFlag (signal : String) (p : ResourcePressure) : Bool :=
  match signal with
  | "memory.available" => p.memoryPressure
  | "nodefs.available" => p.diskPressure
  | _ => p.pidPressure

theorem agree_iff (c : PressureConditions) (p : ResourcePressure) :
    Agree c p ↔ ∀ flag ∈ comparedSignals, conditionFlag flag c = pressureFlag flag p := by
  simp [Agree,comparedSignals,conditionFlag,pressureFlag]

theorem evaluateSignal_flag (signals : ResourceSignals) (c : PressureConditions) {flag : String}
    (hf : flag ∈ comparedSignals) {signal : String} (hs : signal ∈ comparedSignals) (s : String) :
    conditionFlag flag (evaluateSignal signals c signal s) =
      (conditionFlag flag c || (signal = flag && exceeded signals signal s)) := by
  unfold evaluateSignal
  cases exceeded signals signal s with
  | false => simp
  | true =>
    simp only [comparedSignals,List.mem_cons,List.not_mem_nil,or_false] at hf hs
    rcases hf with rfl | rfl | rfl <;> rcases hs with rfl | rfl | rfl <;> simp [conditionFlag]

/-- What the pressure evaluator makes of its thresholds. -/
theorem evaluatePressure_flag (signals : ResourceSignals) {hard : HashMap String String} (hq : Quantities hard)
    {flag : String} (hf : flag ∈ comparedSignals) :
    conditionFlag flag (evaluatePressure signals hard) = (hard.lookup flag).any (exceeded signals flag) := by
  have hround : ∀ e ∈ hard.entries, ∀ c, conditionFlag flag (evaluateSignal signals c e.1 e.2) =
      (conditionFlag flag c || (e.1 = flag && exceeded signals flag e.2)) := by
    intro e he c
    have hs := (hq e.1 e.2 (AList.mem_lookup_iff.mpr he)).1
    rw [evaluateSignal_flag signals c hf hs]
    by_cases hk : e.1 = flag
    · rw [hk]
    · simp [hk]
  unfold evaluatePressure
  rw [foldl_flag (conditionFlag flag) hard.entries hround,any_entries_key]
  simp only [comparedSignals,List.mem_cons,List.not_mem_nil,or_false] at hf
  rcases hf with rfl | rfl | rfl <;> rfl

theorem measured_available {signals : ResourceSignals} {resources : NodeResources}
    (ha : SameAvailable signals resources) {signal : String} (hs : signal ∈ comparedSignals) :
    ∃ capacity, EvictionEvaluator.measured resources signal = some (available signals signal,capacity) := by
  simp only [comparedSignals,List.mem_cons,List.not_mem_nil,or_false] at hs
  rcases hs with rfl | rfl | rfl
  · exact ⟨_,by rw [EvictionEvaluator.measured,ha.memory]; rfl⟩
  · exact ⟨_,by rw [EvictionEvaluator.measured,ha.disk]; rfl⟩
  · exact ⟨_,by rw [EvictionEvaluator.measured,ha.pids]; rfl⟩

theorem evaluateThreshold_flag {signals : ResourceSignals} {resources : NodeResources}
    (ha : SameAvailable signals resources) (p : ResourcePressure) {flag : String} (hf : flag ∈ comparedSignals)
    {signal : String} (hs : signal ∈ comparedSignals) (q : UInt64) :
    pressureFlag flag (EvictionEvaluator.evaluateThreshold resources p ⟨signal,.absolute q⟩) =
      (pressureFlag flag p || (signal = flag && decide (available signals signal < q))) := by
  obtain ⟨capacity,hm⟩ := measured_available ha hs
  unfold EvictionEvaluator.evaluateThreshold EvictionThreshold.isExceeded
  simp only [hm]
  cases decide (available signals signal < q) with
  | false => simp
  | true =>
    simp only [comparedSignals,List.mem_cons,List.not_mem_nil,or_false] at hf hs
    rcases hf with rfl | rfl | rfl <;> rcases hs with rfl | rfl | rfl <;> simp [pressureFlag]

/-- What the evaluator of the eviction manager makes of its thresholds. -/
theorem evaluate_flag {signals : ResourceSignals} {resources : NodeResources} (ha : SameAvailable signals resources)
    {hard : HashMap String String} (hq : Quantities hard) (soft : HashMap String String) {flag : String}
    (hf : flag ∈ comparedSignals) :
    pressureFlag flag ((EvictionEvaluator.new hard soft).evaluate resources) =
      (hard.lookup flag).any (fun s => decide (available signals flag < (parseQuantity s).getD 0)) := by
  have hparse : EvictionEvaluator.parseAll hard =
      hard.entries.map (fun e => ⟨e.1,.absolute ((parseQuantity e.2).getD 0)⟩) := by
    unfold EvictionEvaluator.parseAll
    rw [← List.filterMap_eq_map]
    refine List.filterMap_congr ?_
    intro e he
    obtain ⟨q,hq'⟩ := Option.isSome_iff_exists.mp (hq e.1 e.2 (AList.mem_lookup_iff.mpr he)).2
    rw [EvictionThreshold.parse_quantity hq',Function.comp,hq',Option.getD_some]
  have hround : ∀ e ∈ hard.entries, ∀ p,
      pressureFlag flag (EvictionEvaluator.evaluateThreshold resources p
        ⟨e.1,.absolute ((parseQuantity e.2).getD 0)⟩) =
      (pressureFlag flag p || (e.1 = flag && decide (available signals flag < (parseQuantity e.2).getD 0))) := by
    intro e he p
    have hs := (hq e.1 e.2 (AList.mem_lookup_iff.mpr he)).1
    rw [evaluateThreshold_flag ha p hf hs]
    by_cases hk : e.1 = flag
    · rw [hk]
    · simp [hk]
  unfold EvictionEvaluator.evaluate EvictionEvaluator.new
  dsimp only
  rw [hparse,List.foldl_map,foldl_flag (pressureFlag flag) hard.entries hround,
    any_entries_key hard flag (fun s => decide (available signals flag < (parseQuantity s).getD 0))]
  simp only [comparedSignals,List.mem_cons,List.not_mem_nil,or_false] at hf
  rcases hf with rfl | rfl | rfl <;> rfl

/-- The node reports the pressure that pods are evicted for exactly when the two parsers read
each threshold alike. -/
theorem pressure_agrees_iff {signals : ResourceSignals} {resources : NodeResources}
    (ha : SameAvailable signals resources) {hard : HashMap String String} (hq : Quantities hard)
    (soft : HashMap String String) :
    Agree (evaluatePressure signals hard) ((EvictionEvaluator.new hard soft).evaluate resources) ↔
      ∀ signal s, hard.lookup signal = some s → ReadAlike signal s (available signals signal) := by
  rw [agree_iff]
  constructor
  · intro h signal s hl
    obtain ⟨hs,hp⟩ := hq signal s hl
    obtain ⟨q,hq'⟩ := Option.isSome_iff_exists.mp hp
    have := h signal hs
    rw [evaluatePressure_flag signals hq hs,evaluate_flag ha hq soft hs,hl,Option.any_some,Option.any_some,hq'] at this
    exact (exceeded_eq_iff hs hq').mp this
  · intro h flag hf
    rw [evaluatePressure_flag signals hq hf,evaluate_flag ha hq soft hf]
    cases hl : hard.lookup flag with
    | none => rfl
    | some s =>
      obtain ⟨q,hq'⟩ := Option.isSome_iff_exists.mp (hq flag s hl).2
      rw [Option.any_some,Option.any_some,hq']
      exact (exceeded_eq_iff hf hq').mpr (h flag s hl)

/-- A node without memory, and a threshold of one gigabyte. -/
def exhausted : ResourceSignals := ⟨0,0,0,0,0,0,0⟩

def exhaustedResources : NodeResources := ⟨0,0,0,0,0,0⟩

def gigabyteThreshold : HashMap String String := (∅ : HashMap String String).insert "memory.available" "1G"

theorem gigabyteThreshold_quantities : Quantities gigabyteThreshold := by
  intro signal s h
  rcases HashMap.lookup_insert_eq_some.mp h with ⟨rfl,rfl⟩ | ⟨-,h⟩
  · exact ⟨by decide,by decide +kernel⟩
  · cases h

theorem pressure_agrees_iff_gigabyte :
    Agree (evaluatePressure exhausted gigabyteThreshold)
        ((EvictionEvaluator.new gigabyteThreshold ∅).evaluate exhaustedResources) ↔
      ∀ signal s, gigabyteThreshold.lookup signal = some s → ReadAlike signal s (available exhausted signal) :=
  pressure_agrees_iff ⟨rfl,rfl,rfl⟩ gigabyteThreshold_quantities ∅

/-- No pressure is reported, and pods are evicted for it. -/
theorem gigabyte_pressure_disagrees :
    ¬ ∀ (signals : ResourceSignals) (resources : NodeResources) (hard soft : HashMap String String),
      SameAvailable signals resources → Quantities hard →
        Agree (evaluatePressure signals hard) ((EvictionEvaluator.new hard soft).evaluate resources) := by
  intro h
  have := h exhausted exhaustedResources gigabyteThreshold ∅ ⟨rfl,rfl,rfl⟩ gigabyteThreshold_quantities
  revert this
  decide +kernel

end KubeAir.Adapters.Pressure
