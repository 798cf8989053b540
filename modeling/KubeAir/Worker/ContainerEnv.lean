import KubeAir.Worker.DownwardApi
import KubeAir.Worker.EnvExpansion

/-! # The environment of a container

Four layers write one map: the variables of the services, the entries of `envFrom`, those of `env`,
and the host name. Each entry of `env` is expanded with the map so far, and logged.
-/
namespace KubeAir.Worker.ContainerEnv
open Core FieldRef DownwardApi EnvExpansion

/-- The order in which a map with given keys is walked. -/
structure MapOrder where
  walk : List String → List String
  perm : ∀ keys, (walk keys).Perm keys

/-- The entries of a map as they are walked. -/
def MapOrder.pairs {V : Type} (order : MapOrder) (m : HashMap String V) : List (String × V) :=
  (order.walk m.keys).filterMap fun k => (m.lookup k).map fun v => (k,v)

inductive LogRecord
  /-- "Resolved environment variable" -/
  | resolved (container envName envValue : String)
  /-- "Assembled container environment" -/
  | assembled (container : String) (totalEnvVars : ℕ) (envKeys : List String)
  deriving DecidableEq

/-- Why no environment comes out. -/
inductive EnvStop
  | failed (e : KubeletError)
  | panicked

/-- The map so far, and what was logged. -/
structure Assembly where
  env : HashMap String String
  log : List LogRecord := []

/-- The inputs besides the container. -/
structure EnvInputs where
  host : HostView
  order : MapOrder
  pod : PodSpec
  podIp : Option String
  configmaps : ConfigMaps
  secrets : Secrets
  serviceEnvs : HashMap String String

/-- Writing entries one after the other, under names with a common start. -/
def insertAll (namePrefix : String) (entries : List (String × String)) (env : HashMap String String) :
    HashMap String String :=
  entries.foldl (fun env p => env.insert (namePrefix ++ p.1) p.2) env

def lossyText (value : List UInt8) : String := String.ofList (Wire.Utf8.fromUtf8Lossy value)

namespace EnvInputs
variable (inputs : EnvInputs) (container : ContainerSpec)

def insertConfigMap (env : HashMap String String) (envFrom : EnvFromSource) : Except EnvStop (HashMap String String) :=
  match envFrom.configMapRef with
  | none => .ok env
  | some ref =>
    match inputs.configmaps.lookup ref.name with
    | some configmap => .ok (insertAll (envFrom.namePrefix.getD "") (inputs.order.pairs configmap) env)
    | none =>
      if ref.optional then .ok env
      else .error (.failed (.runtime ("missing required ConfigMap '" ++ ref.name ++ "' for envFrom")))

def insertSecret (env : HashMap String String) (envFrom : EnvFromSource) : Except EnvStop (HashMap String String) :=
  match envFrom.secretRef with
  | none => .ok env
  | some ref =>
    match inputs.secrets.lookup ref.name with
    | some secret =>
      .ok (insertAll (envFrom.namePrefix.getD "") ((inputs.order.pairs secret).map fun p => (p.1,lossyText p.2)) env)
    | none =>
      if ref.optional then .ok env
      else .error (.failed (.runtime ("missing required Secret '" ++ ref.name ++ "' for envFrom")))

def insertFrom (env : HashMap String String) (envFrom : EnvFromSource) : Except EnvStop (HashMap String String) :=
  (inputs.insertConfigMap env envFrom).bind fun env => inputs.insertSecret env envFrom

/-- The value of an entry of `env`. -/
def valueOf (env : HashMap String String) (envVar : EnvVar) : Except EnvStop String :=
  match envVar.value with
  | some rawValue =>
    match expandEnvValue rawValue env with
    | some value => .ok value
    | none => .error .panicked
  | none =>
    match envVar.valueFrom with
    | some source =>
      (resolveEnvVarSource inputs.host inputs.pod container inputs.podIp source inputs.configmaps inputs.secrets).mapError
        .failed
    | none => .ok ""

def insertVar (a : Assembly) (envVar : EnvVar) : Except EnvStop Assembly :=
  (inputs.valueOf container a.env envVar).map fun value =>
    { env := a.env.insert envVar.name value
      log := a.log ++ [.resolved container.name envVar.name value] }

/-- The first three layers, with some of the entries of `env`. -/
def assembleVars (vars : List EnvVar) : Except EnvStop Assembly :=
  (container.envFrom.foldlM inputs.insertFrom inputs.serviceEnvs).bind fun env =>
    vars.foldlM (inputs.insertVar container) { env := env }

/-- The host name where nothing else defines it. -/
def withHostname (env : HashMap String String) : HashMap String String :=
  if (env.lookup "HOSTNAME").isSome then env else env.insert "HOSTNAME" inputs.pod.effectiveHostname

/-- `assemble_container_env`, with the log. -/
def assembleContainerEnv : Except EnvStop (List (String × String) × List LogRecord) :=
  (inputs.assembleVars container container.env).map fun a =>
    let env := inputs.withHostname a.env
    (inputs.order.pairs env,
      a.log ++ [.assembled container.name env.keys.length (inputs.order.walk env.keys)])

end EnvInputs

/-! ## Maps -/

section maps
variable {V : Type} {order : MapOrder} {k n v start : String} {m m' env env' : HashMap String String}

theorem mem_pairs {m : HashMap String V} {v : V} : (k,v) ∈ order.pairs m ↔ m.lookup k = some v := by
  unfold MapOrder.pairs
  rw [List.mem_filterMap]
  constructor
  · rintro ⟨k',-,h⟩
    obtain ⟨v',hv',heq⟩ := Option.map_eq_some_iff.mp h
    cases heq
    exact hv'
  · intro h
    refine ⟨k,(order.perm m.keys).mem_iff.mpr ?_,by rw [h]; rfl⟩
    exact AList.lookup_isSome.mp (by rw [h]; rfl)

theorem nodup_pairs (m : HashMap String V) : ((order.pairs m).map Prod.fst).Nodup := by
  have hkeys : (order.walk m.keys).Nodup := (order.perm m.keys).nodup_iff.mpr m.keys_nodup
  have hsub : List.Sublist ((order.pairs m).map Prod.fst) (order.walk m.keys) := by
    unfold MapOrder.pairs
    generalize order.walk m.keys = ks
    induction ks with
    | nil => exact .slnil
    | cons k ks ih =>
      rw [List.filterMap_cons]
      cases m.lookup k with
      | none => exact ih.cons k
      | some v => exact ih.cons_cons k
  exact hsub.nodup hkeys

theorem append_cancel {a b : String} (h : start ++ a = start ++ b) : a = b := by
  rw [← String.toList_inj,String.toList_append,String.toList_append] at h
  exact String.toList_inj.mp (List.append_cancel_left h)

/-- Entries with different names decide their own, and leave the rest. -/
theorem lookup_insertAll {l : List (String × String)} (hl : (l.map Prod.fst).Nodup) :
    (insertAll start l env).lookup n = some v ↔
      (∃ k, n = start ++ k ∧ (k,v) ∈ l) ∨ (∀ k ∈ l.map Prod.fst, n ≠ start ++ k) ∧ env.lookup n = some v := by
  induction l generalizing env with
  | nil => simp [insertAll]
  | cons p l ih =>
    obtain ⟨k₀,v₀⟩ := p
    obtain ⟨hnew,hl⟩ := List.nodup_cons.mp hl
    change (insertAll start l (env.insert (start ++ k₀) v₀)).lookup n = some v ↔ _
    rw [ih hl,HashMap.lookup_insert_eq_some,List.map_cons,List.forall_mem_cons]
    simp only [List.mem_cons,Prod.mk.injEq]
    by_cases hn : n = start ++ k₀
    · have hall : ∀ k ∈ l.map Prod.fst, n ≠ start ++ k := by
        rintro k hk hnk
        exact hnew (append_cancel (hn.symm.trans hnk) ▸ hk)
      have hone : ∀ k, (k,v) ∈ l → n ≠ start ++ k := fun k hk => hall k (List.mem_map_of_mem hk)
      constructor
      · rintro (⟨k,hk,hmem⟩ | ⟨-,⟨-,rfl⟩ | ⟨hne,-⟩⟩)
        · exact absurd hk (hone k hmem)
        · exact Or.inl ⟨k₀,hn,Or.inl ⟨rfl,rfl⟩⟩
        · exact absurd hn hne
      · rintro (⟨k,hk,⟨rfl,rfl⟩ | hmem⟩ | ⟨⟨hne,-⟩,-⟩)
        · exact Or.inr ⟨hall,Or.inl ⟨hn,rfl⟩⟩
        · exact absurd hk (hone k hmem)
        · exact absurd hn hne
    · constructor
      · rintro (⟨k,hk,hmem⟩ | ⟨hall,⟨heq,-⟩ | ⟨-,hlookup⟩⟩)
        · exact Or.inl ⟨k,hk,Or.inr hmem⟩
        · exact absurd heq hn
        · exact Or.inr ⟨⟨hn,hall⟩,hlookup⟩
      · rintro (⟨k,hk,⟨rfl,rfl⟩ | hmem⟩ | ⟨⟨-,hall⟩,hlookup⟩)
        · exact absurd hk hn
        · exact Or.inl ⟨k,hk,hmem⟩
        · exact Or.inr ⟨hall,Or.inr ⟨hn,hlookup⟩⟩

/-- The order of the entries makes no difference. -/
theorem insertAll_congr {l l' : List (String × String)} (hl : (l.map Prod.fst).Nodup) (hl' : (l'.map Prod.fst).Nodup)
    (hmem : ∀ p, p ∈ l ↔ p ∈ l') (h : SameMap env env') : SameMap (insertAll start l env) (insertAll start l' env') := by
  intro n
  refine Option.ext fun v => ?_
  rw [lookup_insertAll hl,lookup_insertAll hl',h n]
  simp only [List.mem_map,hmem]

theorem insert_congr (h : SameMap env env') : SameMap (env.insert n v) (env'.insert n v) := by
  intro k
  refine Option.ext fun w => ?_
  rw [HashMap.lookup_insert_eq_some,HashMap.lookup_insert_eq_some,h k]

/-- The expansion depends on the values only. -/
theorem expandEnvValue_congr (input : String) (h : SameMap env env') :
    expandEnvValue input env = expandEnvValue input env' := by
  have hcopied : Token.copied env = Token.copied env' := by
    funext t
    cases t <;> simp only [Token.copied,referenceText,h _]
  rw [expandEnvValue_eq,expandEnvValue_eq,VolumeMounts.expandEnvValue,VolumeMounts.expandEnvValue,expandChars_eq,
    expandChars_eq,hcopied]

end maps

end KubeAir.Worker.ContainerEnv
