import KubeAir.Worker.ContainerEnv

/-! # Definitions of the environment

What the environment is meant to be: a list of definitions, in which the last one with a name
decides, and each value sees those before it.
-/
namespace KubeAir.Worker.ContainerEnv
open Core FieldRef DownwardApi EnvExpansion

/-- The map of a list of definitions. -/
def defined (ds : List (String × String)) : HashMap String String := ds.foldl (fun m d => m.insert d.1 d.2) ∅

/-- The order in which the entries are stored. -/
def MapOrder.stored : MapOrder where
  walk := id
  perm _ := .refl _

section missing
variable (configmaps : ConfigMaps) (secrets : Secrets)

/-- The key that a source refers to is not there. -/
def Unfound : EnvVarSource → Prop
  | .configMapKeyRef name key _ => (configmaps.lookup name).bind (·.lookup key) = none
  | .secretKeyRef name key _ => (secrets.lookup name).bind (·.lookup key) = none
  | _ => False

instance : DecidablePred (Unfound configmaps secrets) := fun source => by
  cases source <;> unfold Unfound <;> infer_instance

def IsOptional : EnvVarSource → Prop
  | .configMapKeyRef _ _ optional => optional = true
  | .secretKeyRef _ _ optional => optional = true
  | _ => False

/-- An entry of `envFrom` refers to a map that has to be there and is not. -/
def FromMissing (envFrom : EnvFromSource) : Prop :=
  (∃ ref, envFrom.configMapRef = some ref ∧ configmaps.lookup ref.name = none ∧ ref.optional = false) ∨
    ∃ ref, envFrom.secretRef = some ref ∧ secrets.lookup ref.name = none ∧ ref.optional = false

/-- An entry of `env` refers to a key that has to be there and is not. -/
def VarMissing (envVar : EnvVar) : Prop :=
  envVar.value = none ∧ ∃ source, envVar.valueFrom = some source ∧ Unfound configmaps secrets source ∧ ¬IsOptional source

/-- An entry of `env` refers to a key that need not be there and is not. -/
def VarAbsent (envVar : EnvVar) : Prop :=
  envVar.value = none ∧ ∃ source, envVar.valueFrom = some source ∧ Unfound configmaps secrets source ∧ IsOptional source

/-- Something that the container refers to is missing. -/
def Missing (container : ContainerSpec) : Prop :=
  (∃ envFrom ∈ container.envFrom, FromMissing configmaps secrets envFrom) ∨
    ∃ envVar ∈ container.env, VarMissing configmaps secrets envVar

end missing

namespace EnvInputs
variable (inputs : EnvInputs) (container : ContainerSpec)

/-- The definitions of an entry of `envFrom`: those of the config map, then those of the secret. -/
def definitionsFrom (envFrom : EnvFromSource) : List (String × String) :=
  let start := envFrom.namePrefix.getD ""
  let configmap := (envFrom.configMapRef.bind (inputs.configmaps.lookup ·.name)).getD ∅
  let secret := (envFrom.secretRef.bind (inputs.secrets.lookup ·.name)).getD ∅
  (MapOrder.stored.pairs configmap).map (fun p => (start ++ p.1,p.2)) ++
    (MapOrder.stored.pairs secret).map fun p => (start ++ p.1,lossyText p.2)

/-- The definition that an entry of `env` makes after those before it. -/
def definition (ds : List (String × String)) (envVar : EnvVar) : Option (String × String) :=
  match envVar.value with
  | some rawValue => some (envVar.name,String.ofList (referenceScan (defined ds) rawValue.toList))
  | none =>
    match envVar.valueFrom with
    | some source =>
      if Unfound inputs.configmaps inputs.secrets source then none
      else
        (resolveEnvVarSource inputs.host inputs.pod container inputs.podIp source inputs.configmaps
          inputs.secrets).toOption.map fun value => (envVar.name,value)
    | none => some (envVar.name,"")

/-- The definitions of the services and of `envFrom`. -/
def baseDefinitions : List (String × String) :=
  MapOrder.stored.pairs inputs.serviceEnvs ++ container.envFrom.flatMap inputs.definitionsFrom

/-- The definitions with some of the entries of `env`. -/
def definitions (vars : List EnvVar) : List (String × String) :=
  vars.foldl (fun ds envVar => ds ++ (inputs.definition container ds envVar).toList) (inputs.baseDefinitions container)

/-- The host name is defined where nothing else defines it. -/
def finalDefinitions : List (String × String) :=
  let ds := inputs.definitions container container.env
  if "HOSTNAME" ∈ ds.map Prod.fst then ds else ds ++ [("HOSTNAME",inputs.pod.effectiveHostname)]

/-- What the environment is meant to be. -/
structure Lawful : Prop where
  fails_iff : (∃ e, inputs.assembleContainerEnv container = .error (.failed e)) ↔
    Missing inputs.configmaps inputs.secrets container
  /-- before each entry of `env`, and after the last one, the map has the definitions so far -/
  sees : ¬Missing inputs.configmaps inputs.secrets container → ∀ before after, container.env = before ++ after →
    ∃ a, inputs.assembleVars container before = .ok a ∧ SameMap a.env (defined (inputs.definitions container before))
  result : ¬Missing inputs.configmaps inputs.secrets container →
    ∃ env log, inputs.assembleContainerEnv container = .ok (env,log) ∧ (env.map Prod.fst).Nodup ∧
      ∀ n v, (n,v) ∈ env ↔ (defined (inputs.finalDefinitions container)).lookup n = some v

end EnvInputs

/-! ## Definitions and maps -/

section maps
variable {order : MapOrder} {ds es : List (String × String)} {m env : HashMap String String} {n v start : String}

theorem defined_append (ds es : List (String × String)) :
    defined (ds ++ es) = es.foldl (fun m d => m.insert d.1 d.2) (defined ds) := List.foldl_append

theorem defined_insertAll (start : String) (l : List (String × String)) :
    defined (ds ++ l.map fun p => (start ++ p.1,p.2)) = insertAll start l (defined ds) := by
  rw [defined_append,List.foldl_map]
  rfl

/-- The last definition of a name decides. -/
theorem lookup_defined (ds : List (String × String)) (n : String) :
    (defined ds).lookup n = (ds.reverse.find? (fun d => d.1 = n)).map Prod.snd := by
  induction ds using List.reverseRecOn with
  | nil => rfl
  | append_singleton ds d ih =>
    rw [defined_append,List.foldl_cons,List.foldl_nil,List.reverse_append,List.reverse_singleton,List.singleton_append,
      List.find?_cons]
    by_cases hn : d.1 = n
    · rw [hn,AList.lookup_insert,decide_eq_true rfl]
      rfl
    · rw [AList.lookup_insert_ne (Ne.symm hn),decide_eq_false hn,ih]

theorem isSome_lookup_defined : ((defined ds).lookup n).isSome = true ↔ n ∈ ds.map Prod.fst := by
  rw [lookup_defined,Option.isSome_map,List.find?_isSome]
  simp

theorem defined_stored (m : HashMap String String) : SameMap m (defined (MapOrder.stored.pairs m)) := by
  intro n
  refine Option.ext fun v => ?_
  have hone : defined (MapOrder.stored.pairs m) = insertAll "" (MapOrder.stored.pairs m) ∅ := by
    unfold defined insertAll
    simp only [String.empty_append]
  rw [hone,lookup_insertAll (nodup_pairs m)]
  simp only [String.empty_append,exists_eq_left',mem_pairs]
  refine ⟨Or.inl,?_⟩
  rintro (h | ⟨-,h⟩)
  · exact h
  · cases h

end maps

namespace EnvInputs
variable {inputs : EnvInputs} {container : ContainerSpec} {env : HashMap String String} {ds : List (String × String)}
  {envFrom : EnvFromSource}

/-! ## The entries of `envFrom` -/

theorem insertConfigMap_ok (h : ¬FromMissing inputs.configmaps inputs.secrets envFrom) (hsame : SameMap env (defined ds)) :
    ∃ env', inputs.insertConfigMap env envFrom = .ok env' ∧
      SameMap env' (defined (ds ++ (MapOrder.stored.pairs
        ((envFrom.configMapRef.bind (inputs.configmaps.lookup ·.name)).getD ∅)).map fun p =>
          (envFrom.namePrefix.getD "" ++ p.1,p.2))) := by
  rw [defined_insertAll]
  unfold insertConfigMap
  cases href : envFrom.configMapRef with
  | none => exact ⟨env,rfl,hsame⟩
  | some ref =>
    rw [Option.bind_some]
    dsimp only
    cases hlookup : inputs.configmaps.lookup ref.name with
    | some configmap =>
      refine ⟨_,rfl,insertAll_congr (nodup_pairs configmap) (nodup_pairs configmap) (fun p => ?_) hsame⟩
      rw [Option.getD_some,mem_pairs,mem_pairs]
    | none =>
      cases hoptional : ref.optional with
      | true => exact ⟨env,if_pos rfl,hsame⟩
      | false => exact absurd (Or.inl ⟨ref,href,hlookup,hoptional⟩) h

theorem insertSecret_ok (h : ¬FromMissing inputs.configmaps inputs.secrets envFrom) (hsame : SameMap env (defined ds)) :
    ∃ env', inputs.insertSecret env envFrom = .ok env' ∧
      SameMap env' (defined (ds ++ (MapOrder.stored.pairs
        ((envFrom.secretRef.bind (inputs.secrets.lookup ·.name)).getD ∅)).map fun p =>
          (envFrom.namePrefix.getD "" ++ p.1,lossyText p.2))) := by
  have hmap : ∀ l : List (String × List UInt8), (l.map fun p => (envFrom.namePrefix.getD "" ++ p.1,lossyText p.2)) =
      (l.map fun p => (p.1,lossyText p.2)).map fun p => (envFrom.namePrefix.getD "" ++ p.1,p.2) := by
    intro l
    rw [List.map_map]
    rfl
  rw [hmap,defined_insertAll]
  unfold insertSecret
  cases href : envFrom.secretRef with
  | none => exact ⟨env,rfl,hsame⟩
  | some ref =>
    rw [Option.bind_some]
    dsimp only
    cases hlookup : inputs.secrets.lookup ref.name with
    | some secret =>
      have hnodup : ∀ order : MapOrder, (((order.pairs secret).map fun p => (p.1,lossyText p.2)).map Prod.fst).Nodup := by
        intro order
        rw [List.map_map]
        exact nodup_pairs secret
      refine ⟨_,rfl,insertAll_congr (hnodup _) (hnodup _) (fun p => ?_) hsame⟩
      rw [Option.getD_some,List.mem_map,List.mem_map]
      simp only [Prod.exists,mem_pairs]
    | none =>
      cases hoptional : ref.optional with
      | true => exact ⟨env,if_pos rfl,hsame⟩
      | false => exact absurd (Or.inr ⟨ref,href,hlookup,hoptional⟩) h

theorem insertFrom_ok (h : ¬FromMissing inputs.configmaps inputs.secrets envFrom) (hsame : SameMap env (defined ds)) :
    ∃ env', inputs.insertFrom env envFrom = .ok env' ∧
      SameMap env' (defined (ds ++ inputs.definitionsFrom envFrom)) := by
  obtain ⟨env₁,hone,hsame⟩ := insertConfigMap_ok h hsame
  obtain ⟨env₂,htwo,hsame⟩ := insertSecret_ok h hsame
  refine ⟨env₂,?_,?_⟩
  · unfold insertFrom
    rw [hone]
    exact htwo
  · unfold definitionsFrom
    rw [← List.append_assoc]
    exact hsame

theorem insertFrom_failed (h : FromMissing inputs.configmaps inputs.secrets envFrom) (env : HashMap String String) :
    ∃ e, inputs.insertFrom env envFrom = .error (.failed e) := by
  unfold insertFrom
  cases hmap : inputs.insertConfigMap env envFrom with
  | error stop =>
    unfold insertConfigMap at hmap
    split at hmap
    · cases hmap
    · split at hmap
      · cases hmap
      · split at hmap
        · cases hmap
        · cases hmap
          exact ⟨_,rfl⟩
  | ok env' =>
    rcases h with ⟨ref,href,hlookup,hoptional⟩ | ⟨ref,href,hlookup,hoptional⟩
    · unfold insertConfigMap at hmap
      rw [href] at hmap
      dsimp only at hmap
      rw [hlookup] at hmap
      dsimp only at hmap
      rw [hoptional,if_neg (by decide)] at hmap
      cases hmap
    · refine ⟨.runtime ("missing required Secret '" ++ ref.name ++ "' for envFrom"),?_⟩
      change inputs.insertSecret env' envFrom = _
      unfold insertSecret
      rw [href]
      dsimp only
      rw [hlookup]
      dsimp only
      rw [hoptional,if_neg (by decide)]

/-- All entries of `envFrom` in order. -/
theorem foldlM_insertFrom_ok (l : List EnvFromSource) (h : ∀ ef ∈ l, ¬FromMissing inputs.configmaps inputs.secrets ef)
    (hsame : SameMap env (defined ds)) :
    ∃ env', l.foldlM inputs.insertFrom env = .ok env' ∧ SameMap env' (defined (ds ++ l.flatMap inputs.definitionsFrom)) := by
  induction l generalizing env ds with
  | nil => exact ⟨env,rfl,by rw [List.flatMap_nil,List.append_nil]; exact hsame⟩
  | cons ef l ih =>
    obtain ⟨hfirst,hrest⟩ := List.forall_mem_cons.mp h
    obtain ⟨env₁,hone,hsame₁⟩ := insertFrom_ok hfirst hsame
    obtain ⟨env₂,htwo,hsame₂⟩ := ih hrest hsame₁
    refine ⟨env₂,?_,?_⟩
    · rw [List.foldlM_cons,hone]
      exact htwo
    · rw [List.flatMap_cons,← List.append_assoc]
      exact hsame₂

theorem foldlM_insertFrom_failed (inputs : EnvInputs) (env : HashMap String String) (l : List EnvFromSource) (h : ∃ ef ∈ l, FromMissing inputs.configmaps inputs.secrets ef) :
    ∃ e, l.foldlM inputs.insertFrom env = .error (.failed e) := by
  induction l generalizing env with
  | nil =>
    obtain ⟨ef,hef,-⟩ := h
    cases hef
  | cons ef l ih =>
    by_cases hfirst : FromMissing inputs.configmaps inputs.secrets ef
    · obtain ⟨e,he⟩ := insertFrom_failed hfirst env
      refine ⟨e,?_⟩
      rw [List.foldlM_cons,he]
      rfl
    · obtain ⟨ef',hmem,hmissing⟩ := h
      have hl : ef' ∈ l := by
        rcases List.mem_cons.mp hmem with rfl | hl
        · exact absurd hmissing hfirst
        · exact hl
      obtain ⟨env₁,hone,-⟩ := insertFrom_ok hfirst (defined_stored env)
      obtain ⟨e,he⟩ := ih env₁ ⟨ef',hl,hmissing⟩
      refine ⟨e,?_⟩
      rw [List.foldlM_cons,hone]
      exact he

/-- The map before the entries of `env`. -/
theorem base_ok (inputs : EnvInputs) (h : ∀ ef ∈ container.envFrom, ¬FromMissing inputs.configmaps inputs.secrets ef) :
    ∃ env, container.envFrom.foldlM inputs.insertFrom inputs.serviceEnvs = .ok env ∧
      SameMap env (defined (inputs.baseDefinitions container)) :=
  foldlM_insertFrom_ok container.envFrom h (defined_stored inputs.serviceEnvs)

end EnvInputs

/-! ## The entries of `env` -/

/-- The expansion of the value does not panic. -/
def Expandable (envVar : EnvVar) : Prop :=
  ∀ rawValue, envVar.value = some rawValue → ∀ c, Token.shell c ∈ tokens rawValue.toList → c.toNat < 128

/-- After the definitions so far, the entry comes out as it is meant: its value is copied rightly,
and where it is to define nothing its name is the empty text already. -/
def Faithful (configmaps : ConfigMaps) (secrets : Secrets) (ds : List (String × String)) (envVar : EnvVar) : Prop :=
  (∀ rawValue, envVar.value = some rawValue → ∀ t ∈ tokens rawValue.toList, t.Copyable) ∧
    (VarAbsent configmaps secrets envVar → (defined ds).lookup envVar.name = some "")

theorem mapM_eq_none_iff {α β : Type} {g : α → Option β} (l : List α) : l.mapM g = none ↔ ∃ a ∈ l, g a = none := by
  induction l with
  | nil => simp
  | cons a l ih =>
    rw [List.mapM_cons,List.exists_mem_cons_iff,← ih]
    cases g a with
    | none => simp
    | some b => cases l.mapM g <;> simp

theorem copied_eq_none_iff {t : Token} {env : HashMap String String} :
    t.copied env = none ↔ ∃ c, t = .shell c ∧ ¬c.toNat < 128 := by
  cases t <;> simp [Token.copied]

theorem expandEnvValue_eq_none_iff (input : String) (env : HashMap String String) :
    expandEnvValue input env = none ↔ ∃ c, Token.shell c ∈ tokens input.toList ∧ ¬c.toNat < 128 := by
  rw [expandEnvValue_eq,VolumeMounts.expandEnvValue,expandChars_eq,Option.map_eq_none_iff,Option.map_eq_none_iff,
    mapM_eq_none_iff]
  constructor
  · rintro ⟨t,ht,hnone⟩
    obtain ⟨c,rfl,hc⟩ := copied_eq_none_iff.mp hnone
    exact ⟨c,ht,hc⟩
  · rintro ⟨c,hmem,hc⟩
    exact ⟨.shell c,hmem,copied_eq_none_iff.mpr ⟨c,rfl,hc⟩⟩

section sources
variable {inputs : EnvInputs} {container : ContainerSpec} {source : EnvVarSource}

/-- A source that is not found gives the empty text or an error. -/
theorem resolve_unfound (container : ContainerSpec) (h : Unfound inputs.configmaps inputs.secrets source) :
    (IsOptional source → resolveEnvVarSource inputs.host inputs.pod container inputs.podIp source inputs.configmaps
      inputs.secrets = .ok "") ∧
    (¬IsOptional source → ∃ e, resolveEnvVarSource inputs.host inputs.pod container inputs.podIp source inputs.configmaps
      inputs.secrets = .error e) := by
  cases source with
  | fieldRef fieldPath => cases h
  | resourceFieldRef containerName resource => cases h
  | configMapKeyRef name key optional =>
    unfold resolveEnvVarSource IsOptional
    dsimp only
    rw [show (inputs.configmaps.lookup name).bind (·.lookup key) = none from h]
    exact ⟨fun ho => if_pos ho,fun ho => ⟨_,if_neg ho⟩⟩
  | secretKeyRef name key optional =>
    unfold resolveEnvVarSource IsOptional
    dsimp only
    rw [show (inputs.secrets.lookup name).bind (·.lookup key) = none from h]
    exact ⟨fun ho => if_pos ho,fun ho => ⟨_,if_neg ho⟩⟩

theorem resolve_found (container : ContainerSpec) (h : ¬Unfound inputs.configmaps inputs.secrets source) :
    ∃ value, resolveEnvVarSource inputs.host inputs.pod container inputs.podIp source inputs.configmaps inputs.secrets =
      .ok value := by
  cases source with
  | fieldRef fieldPath => exact ⟨_,rfl⟩
  | resourceFieldRef containerName resource => exact ⟨_,rfl⟩
  | configMapKeyRef name key optional =>
    obtain ⟨value,hvalue⟩ := Option.ne_none_iff_exists'.mp h
    refine ⟨value,?_⟩
    unfold resolveEnvVarSource
    dsimp only
    rw [hvalue]
  | secretKeyRef name key optional =>
    obtain ⟨value,hvalue⟩ := Option.ne_none_iff_exists'.mp h
    refine ⟨String.ofList (Wire.Utf8.fromUtf8Lossy value),?_⟩
    unfold resolveEnvVarSource
    dsimp only
    rw [hvalue]

end sources

section steps
variable {inputs : EnvInputs} {container : ContainerSpec} {a : Assembly} {envVar : EnvVar} {ds : List (String × String)}
  {m m' : HashMap String String} {n v w : String}

theorem sameMap_insert_iff (h : SameMap m m') : SameMap (m.insert n v) (m'.insert n w) ↔ v = w := by
  constructor
  · intro hsame
    have hn := hsame n
    rw [AList.lookup_insert,AList.lookup_insert] at hn
    exact Option.some.inj hn
  · rintro rfl
    exact insert_congr h

theorem sameMap_insert_left_iff (h : SameMap m m') : SameMap (m.insert n v) m' ↔ m'.lookup n = some v := by
  constructor
  · intro hsame
    have hn := hsame n
    rw [AList.lookup_insert] at hn
    exact hn.symm
  · intro hlookup k
    by_cases hk : k = n
    · rw [hk,AList.lookup_insert,hlookup]
    · rw [AList.lookup_insert_ne hk,h k]

theorem insertVar_panicked (h : ¬Expandable envVar) : inputs.insertVar container a envVar = .error .panicked := by
  unfold Expandable at h
  push Not at h
  obtain ⟨rawValue,hvalue,c,hc,hwide⟩ := h
  have hnone := (expandEnvValue_eq_none_iff rawValue a.env).mpr ⟨c,hc,Nat.not_lt.mpr hwide⟩
  unfold EnvInputs.insertVar EnvInputs.valueOf
  rw [hvalue]
  dsimp only
  rw [hnone]
  rfl

theorem insertVar_failed (container : ContainerSpec) (a : Assembly) (h : VarMissing inputs.configmaps inputs.secrets envVar) :
    ∃ e, inputs.insertVar container a envVar = .error (.failed e) := by
  obtain ⟨hvalue,source,hsource,hunfound,hrequired⟩ := h
  obtain ⟨e,he⟩ := (resolve_unfound container hunfound).2 hrequired
  refine ⟨e,?_⟩
  unfold EnvInputs.insertVar EnvInputs.valueOf
  rw [hvalue,hsource]
  dsimp only
  rw [he]
  rfl

theorem insertVar_of_valueOf (h : inputs.valueOf container a.env envVar = .ok v) :
    inputs.insertVar container a envVar =
      .ok { env := a.env.insert envVar.name v, log := a.log ++ [.resolved container.name envVar.name v] } := by
  unfold EnvInputs.insertVar
  rw [h]
  rfl

theorem faithful_of_value {rawValue : String} (h : envVar.value = some rawValue) :
    Faithful inputs.configmaps inputs.secrets ds envVar ↔ ∀ t ∈ tokens rawValue.toList, t.Copyable := by
  constructor
  · intro hfaithful
    exact hfaithful.1 rawValue h
  · intro hall
    refine ⟨fun raw hraw => ?_,fun habsent => ?_⟩
    · obtain rfl := Option.some.inj (h.symm.trans hraw)
      exact hall
    · exact absurd (h.symm.trans habsent.1) (Option.some_ne_none _)

theorem faithful_of_none (h : envVar.value = none) : Faithful inputs.configmaps inputs.secrets ds envVar ↔
    (VarAbsent inputs.configmaps inputs.secrets envVar → (defined ds).lookup envVar.name = some "") := by
  refine and_iff_right fun rawValue hvalue => ?_
  exact absurd (h.symm.trans hvalue) (Option.some_ne_none _).symm

/-- A value is what it is meant to be exactly where all its pieces are copied rightly. -/
theorem insertVar_ok_of_value {rawValue : String} (h : envVar.value = some rawValue) (hexpandable : Expandable envVar) :
    ∃ a', inputs.insertVar container a envVar = .ok a' ∧ (SameMap a.env (defined ds) →
      (SameMap a'.env (defined (ds ++ (inputs.definition container ds envVar).toList)) ↔
        Faithful inputs.configmaps inputs.secrets ds envVar)) := by
  obtain ⟨value,hexpand⟩ : ∃ value, expandEnvValue rawValue a.env = some value := by
    rw [← Option.ne_none_iff_exists']
    intro hnone
    obtain ⟨c,hc,hwide⟩ := (expandEnvValue_eq_none_iff rawValue a.env).mp hnone
    exact hwide (hexpandable rawValue h c hc)
  refine ⟨_,insertVar_of_valueOf (v := value) ?_,fun hsame => ?_⟩
  · unfold EnvInputs.valueOf
    rw [h]
    dsimp only
    rw [hexpand]
  · have hdef : inputs.definition container ds envVar =
        some (envVar.name,String.ofList (referenceScan (defined ds) rawValue.toList)) := by
      unfold EnvInputs.definition
      rw [h]
    have hcopy : VolumeMounts.expandChars (defined ds) rawValue.toList =
        some (referenceScan (defined ds) rawValue.toList) ↔ ∀ t ∈ tokens rawValue.toList, t.Copyable :=
      expandChars_eq_referenceScan_iff rawValue.toList
    rw [hdef,Option.toList_some,defined_append,List.foldl_cons,List.foldl_nil,sameMap_insert_iff hsame,
      faithful_of_value h,← hcopy]
    rw [expandEnvValue_congr rawValue hsame,expandEnvValue_eq_some_iff] at hexpand
    rw [hexpand,Option.some.injEq]
    constructor
    · rintro rfl
      exact String.toList_ofList
    · intro hchars
      rw [← hchars,String.ofList_toList]

/-- A source that is not found defines the empty text, where it is to define nothing. -/
theorem insertVar_ok_of_unfound {source : EnvVarSource} (h : envVar.value = none) (hsource : envVar.valueFrom = some source)
    (hunfound : Unfound inputs.configmaps inputs.secrets source) (hoptional : IsOptional source) :
    ∃ a', inputs.insertVar container a envVar = .ok a' ∧ (SameMap a.env (defined ds) →
      (SameMap a'.env (defined (ds ++ (inputs.definition container ds envVar).toList)) ↔
        Faithful inputs.configmaps inputs.secrets ds envVar)) := by
  refine ⟨_,insertVar_of_valueOf (v := "") ?_,fun hsame => ?_⟩
  · unfold EnvInputs.valueOf
    rw [h,hsource]
    dsimp only
    rw [(resolve_unfound container hunfound).1 hoptional]
    rfl
  · have hdef : inputs.definition container ds envVar = none := by
      unfold EnvInputs.definition
      rw [h,hsource]
      exact if_pos hunfound
    rw [hdef,Option.toList_none,List.append_nil,sameMap_insert_left_iff hsame,faithful_of_none h]
    have habsent : VarAbsent inputs.configmaps inputs.secrets envVar := ⟨h,source,hsource,hunfound,hoptional⟩
    exact ⟨fun hlookup _ => hlookup,fun hlookup => hlookup habsent⟩

/-- Everything else is as it is meant. -/
theorem insertVar_ok_of_definition (h : envVar.value = none) (habsent : ¬VarAbsent inputs.configmaps inputs.secrets envVar)
    (hvalue : inputs.valueOf container a.env envVar = .ok v)
    (hdef : inputs.definition container ds envVar = some (envVar.name,v)) :
    ∃ a', inputs.insertVar container a envVar = .ok a' ∧ (SameMap a.env (defined ds) →
      (SameMap a'.env (defined (ds ++ (inputs.definition container ds envVar).toList)) ↔
        Faithful inputs.configmaps inputs.secrets ds envVar)) := by
  refine ⟨_,insertVar_of_valueOf hvalue,fun hsame => ?_⟩
  rw [hdef,Option.toList_some,defined_append,List.foldl_cons,List.foldl_nil,sameMap_insert_iff hsame,faithful_of_none h]
  exact iff_of_true rfl (fun hv => absurd hv habsent)

theorem insertVar_ok (container : ContainerSpec) (a : Assembly) (ds : List (String × String))
    (hexpandable : Expandable envVar) (hmissing : ¬VarMissing inputs.configmaps inputs.secrets envVar) :
    ∃ a', inputs.insertVar container a envVar = .ok a' ∧ (SameMap a.env (defined ds) →
      (SameMap a'.env (defined (ds ++ (inputs.definition container ds envVar).toList)) ↔
        Faithful inputs.configmaps inputs.secrets ds envVar)) := by
  cases hvalue : envVar.value with
  | some rawValue => exact insertVar_ok_of_value hvalue hexpandable
  | none =>
    cases hsource : envVar.valueFrom with
    | none =>
      refine insertVar_ok_of_definition (v := "") hvalue ?_ ?_ ?_
      · rintro ⟨-,source,hs,-⟩
        exact absurd (hsource.symm.trans hs) (Option.some_ne_none _).symm
      · unfold EnvInputs.valueOf
        rw [hvalue,hsource]
      · unfold EnvInputs.definition
        rw [hvalue,hsource]
    | some source =>
      by_cases hunfound : Unfound inputs.configmaps inputs.secrets source
      · refine insertVar_ok_of_unfound hvalue hsource hunfound ?_
        by_contra hrequired
        exact hmissing ⟨hvalue,source,hsource,hunfound,hrequired⟩
      · obtain ⟨value,hresolve⟩ := resolve_found container hunfound
        refine insertVar_ok_of_definition (v := value) hvalue ?_ ?_ ?_
        · rintro ⟨-,source',hs,hunfound',-⟩
          obtain rfl := Option.some.inj (hsource.symm.trans hs)
          exact hunfound hunfound'
        · unfold EnvInputs.valueOf
          rw [hvalue,hsource]
          dsimp only
          rw [hresolve]
          rfl
        · unfold EnvInputs.definition
          rw [hvalue,hsource]
          dsimp only
          rw [if_neg hunfound,hresolve]
          rfl

end steps

/-! ## Runs -/

section runs
variable {inputs : EnvInputs} {container : ContainerSpec} {vars : List EnvVar} {a : Assembly}

theorem Faithful.expandable {configmaps : ConfigMaps} {secrets : Secrets} {ds : List (String × String)} {envVar : EnvVar}
    (h : Faithful configmaps secrets ds envVar) : Expandable envVar :=
  fun rawValue hvalue c hc => h.1 rawValue hvalue (.shell c) hc

/-- A run over the entries comes to its end where each of them can be expanded and refers to what is there. -/
theorem foldlM_insertVar_ok_iff (vars : List EnvVar) (a : Assembly) :
    (∃ b, vars.foldlM (inputs.insertVar container) a = .ok b) ↔
      ∀ e ∈ vars, Expandable e ∧ ¬VarMissing inputs.configmaps inputs.secrets e := by
  induction vars generalizing a with
  | nil => exact iff_of_true ⟨a,rfl⟩ (fun e he => by cases he)
  | cons v vars ih =>
    rw [List.forall_mem_cons,List.foldlM_cons]
    by_cases hexpandable : Expandable v
    · by_cases hmissing : VarMissing inputs.configmaps inputs.secrets v
      · obtain ⟨e,he⟩ := insertVar_failed container a hmissing
        rw [he]
        exact iff_of_false (fun ⟨b,hb⟩ => by cases hb) (fun h => h.1.2 hmissing)
      · obtain ⟨a',ha',-⟩ := insertVar_ok container a [] hexpandable hmissing
        rw [ha']
        exact (ih a').trans (and_iff_right ⟨hexpandable,hmissing⟩).symm
    · rw [insertVar_panicked hexpandable]
      exact iff_of_false (fun ⟨b,hb⟩ => by cases hb) (fun h => hexpandable h.1.1)

/-- A run over the entries fails at a missing reference, if it gets there. -/
theorem foldlM_insertVar_failed_iff (container : ContainerSpec) (vars : List EnvVar) (a : Assembly) :
    (∃ e, vars.foldlM (inputs.insertVar container) a = .error (.failed e)) ↔
      ∃ before envVar after, vars = before ++ envVar :: after ∧ VarMissing inputs.configmaps inputs.secrets envVar ∧
        ∀ b ∈ before, Expandable b := by
  induction vars generalizing a with
  | nil =>
    constructor
    · rintro ⟨e,he⟩
      cases he
    · rintro ⟨before,envVar,after,h,-⟩
      simp at h
  | cons v vars ih =>
    rw [List.foldlM_cons]
    by_cases hmissing : VarMissing inputs.configmaps inputs.secrets v
    · obtain ⟨e,he⟩ := insertVar_failed container a hmissing
      rw [he]
      exact iff_of_true ⟨e,rfl⟩ ⟨[],v,vars,rfl,hmissing,fun b hb => by cases hb⟩
    · by_cases hexpandable : Expandable v
      · obtain ⟨a',ha',-⟩ := insertVar_ok container a [] hexpandable hmissing
        rw [ha']
        refine (ih a').trans ?_
        constructor
        · rintro ⟨before,envVar,after,rfl,hvar,hbefore⟩
          exact ⟨v :: before,envVar,after,rfl,hvar,List.forall_mem_cons.mpr ⟨hexpandable,hbefore⟩⟩
        · rintro ⟨before,envVar,after,hsplit,hvar,hbefore⟩
          cases before with
          | nil =>
            obtain ⟨rfl,-⟩ := List.cons.inj hsplit
            exact absurd hvar hmissing
          | cons b before =>
            exact ⟨before,envVar,after,(List.cons.inj hsplit).2,hvar,(List.forall_mem_cons.mp hbefore).2⟩
      · rw [insertVar_panicked hexpandable]
        refine iff_of_false ?_ ?_
        · rintro ⟨e,he⟩
          cases he
        · rintro ⟨before,envVar,after,hsplit,hvar,hbefore⟩
          cases before with
          | nil =>
            obtain ⟨rfl,-⟩ := List.cons.inj hsplit
            exact hmissing hvar
          | cons b before =>
            obtain ⟨rfl,-⟩ := List.cons.inj hsplit
            exact hexpandable (List.forall_mem_cons.mp hbefore).1

end runs

namespace EnvInputs
variable (inputs : EnvInputs) (container : ContainerSpec)

/-- The code makes the environment that is meant: a map that `envFrom` refers to is missing, or a
key that an entry of `env` refers to before which no expansion panics; or nothing is missing, and
every entry comes out as it is meant after the definitions before it. -/
def Conforms : Prop :=
  (∃ envFrom ∈ container.envFrom, FromMissing inputs.configmaps inputs.secrets envFrom) ∨
    (∃ before envVar after, container.env = before ++ envVar :: after ∧
      VarMissing inputs.configmaps inputs.secrets envVar ∧ ∀ b ∈ before, Expandable b) ∨
    (¬Missing inputs.configmaps inputs.secrets container ∧
      ∀ before envVar after, container.env = before ++ envVar :: after →
        Faithful inputs.configmaps inputs.secrets (inputs.definitions container before) envVar)

variable {inputs container}

theorem definitions_append (vars : List EnvVar) (envVar : EnvVar) :
    inputs.definitions container (vars ++ [envVar]) = inputs.definitions container vars ++
      (inputs.definition container (inputs.definitions container vars) envVar).toList := by
  unfold definitions
  rw [List.foldl_append,List.foldl_cons,List.foldl_nil]

theorem assembleVars_append (vars : List EnvVar) (envVar : EnvVar) :
    inputs.assembleVars container (vars ++ [envVar]) =
      (inputs.assembleVars container vars).bind fun a => inputs.insertVar container a envVar := by
  unfold assembleVars
  cases container.envFrom.foldlM inputs.insertFrom inputs.serviceEnvs with
  | error stop => rfl
  | ok env =>
    change (vars ++ [envVar]).foldlM (inputs.insertVar container) { env := env } = _
    rw [List.foldlM_append]
    change _ = (vars.foldlM (inputs.insertVar container) { env := env }).bind _
    cases vars.foldlM (inputs.insertVar container) { env := env } with
    | error stop => rfl
    | ok a =>
      change List.foldlM (inputs.insertVar container) a [envVar] = inputs.insertVar container a envVar
      rw [List.foldlM_cons]
      cases inputs.insertVar container a envVar <;> rfl

theorem assemble_failed_iff (hfrom : ∀ ef ∈ container.envFrom, ¬FromMissing inputs.configmaps inputs.secrets ef) :
    (∃ e, inputs.assembleContainerEnv container = .error (.failed e)) ↔
      ∃ before envVar after, container.env = before ++ envVar :: after ∧
        VarMissing inputs.configmaps inputs.secrets envVar ∧ ∀ b ∈ before, Expandable b := by
  obtain ⟨env,henv,-⟩ := base_ok inputs hfrom
  rw [← foldlM_insertVar_failed_iff container container.env { env := env }]
  unfold assembleContainerEnv assembleVars
  rw [henv]
  change (∃ e, Except.map _ (container.env.foldlM (inputs.insertVar container) { env := env }) = _) ↔ _
  cases container.env.foldlM (inputs.insertVar container) { env := env } with
  | ok a => exact iff_of_false (fun ⟨e,he⟩ => by cases he) (fun ⟨e,he⟩ => by cases he)
  | error stop =>
    refine exists_congr fun e => ?_
    change Except.error stop = _ ↔ _
    rw [Except.error.injEq,Except.error.injEq]

/-- The run over a part of the entries, where each comes out as it is meant. -/
theorem sees_of_faithful (hmissing : ¬Missing inputs.configmaps inputs.secrets container)
    (h : ∀ before envVar after, container.env = before ++ envVar :: after →
      Faithful inputs.configmaps inputs.secrets (inputs.definitions container before) envVar)
    (before after : List EnvVar) (hsplit : container.env = before ++ after) :
    ∃ a, inputs.assembleVars container before = .ok a ∧ SameMap a.env (defined (inputs.definitions container before)) := by
  induction before using List.reverseRecOn generalizing after with
  | nil =>
    obtain ⟨env,henv,hsame⟩ := base_ok inputs (fun ef hef hm => hmissing (Or.inl ⟨ef,hef,hm⟩))
    refine ⟨{ env := env },?_,hsame⟩
    unfold assembleVars
    rw [henv]
    rfl
  | append_singleton before envVar ih =>
    have hhere : container.env = before ++ envVar :: after := by
      rw [hsplit,List.append_assoc,List.singleton_append]
    obtain ⟨a,ha,hsame⟩ := ih (envVar :: after) hhere
    have hfaithful := h before envVar after hhere
    have hvar : ¬VarMissing inputs.configmaps inputs.secrets envVar := by
      intro hm
      exact hmissing (Or.inr ⟨envVar,by rw [hhere]; simp,hm⟩)
    obtain ⟨a',ha',hiff⟩ := insertVar_ok container a (inputs.definitions container before)
      hfaithful.expandable hvar
    refine ⟨a',?_,?_⟩
    · rw [assembleVars_append,ha]
      exact ha'
    · rw [definitions_append]
      exact (hiff hsame).mpr hfaithful

/-- The result of a run whose map has the definitions. -/
theorem result_of_sees {a : Assembly} (ha : inputs.assembleVars container container.env = .ok a)
    (hsame : SameMap a.env (defined (inputs.definitions container container.env))) :
    ∃ env log, inputs.assembleContainerEnv container = .ok (env,log) ∧ (env.map Prod.fst).Nodup ∧
      ∀ n v, (n,v) ∈ env ↔ (defined (inputs.finalDefinitions container)).lookup n = some v := by
  have hfinal : SameMap (inputs.withHostname a.env) (defined (inputs.finalDefinitions container)) := by
    unfold withHostname finalDefinitions
    dsimp only
    rw [hsame "HOSTNAME"]
    by_cases hhost : "HOSTNAME" ∈ (inputs.definitions container container.env).map Prod.fst
    · rw [if_pos (isSome_lookup_defined.mpr hhost),if_pos hhost]
      exact hsame
    · rw [if_neg (fun h => hhost (isSome_lookup_defined.mp h)),if_neg hhost,defined_append]
      exact insert_congr hsame
  refine ⟨inputs.order.pairs (inputs.withHostname a.env),a.log ++ [.assembled container.name
    (inputs.withHostname a.env).keys.length (inputs.order.walk (inputs.withHostname a.env).keys)],?_,nodup_pairs _,
    fun n v => ?_⟩
  · unfold assembleContainerEnv
    rw [ha]
    rfl
  · rw [mem_pairs,hfinal n]

theorem assemble_failed_of_from (h : ∃ ef ∈ container.envFrom, FromMissing inputs.configmaps inputs.secrets ef) :
    ∃ e, inputs.assembleContainerEnv container = .error (.failed e) := by
  obtain ⟨e,he⟩ := foldlM_insertFrom_failed inputs inputs.serviceEnvs container.envFrom h
  refine ⟨e,?_⟩
  unfold assembleContainerEnv assembleVars
  rw [he]
  rfl

/-- Where nothing is missing, the law is about each entry. -/
theorem lawful_iff_of_found (hmissing : ¬Missing inputs.configmaps inputs.secrets container) :
    inputs.Lawful container ↔ ∀ before envVar after, container.env = before ++ envVar :: after →
      Faithful inputs.configmaps inputs.secrets (inputs.definitions container before) envVar := by
  have hfrom : ∀ ef ∈ container.envFrom, ¬FromMissing inputs.configmaps inputs.secrets ef :=
    fun ef hef hm => hmissing (Or.inl ⟨ef,hef,hm⟩)
  constructor
  · intro hlaw before envVar after hsplit
    obtain ⟨a,ha,hsame⟩ := hlaw.sees hmissing before (envVar :: after) hsplit
    obtain ⟨a',ha',hsame'⟩ := hlaw.sees hmissing (before ++ [envVar]) after
      (by rw [hsplit,List.append_assoc,List.singleton_append])
    rw [assembleVars_append,ha] at ha'
    change inputs.insertVar container a envVar = .ok a' at ha'
    have hexpandable : Expandable envVar := by
      by_contra hwide
      rw [insertVar_panicked hwide] at ha'
      cases ha'
    have hvar : ¬VarMissing inputs.configmaps inputs.secrets envVar :=
      fun hm => hmissing (Or.inr ⟨envVar,by rw [hsplit]; simp,hm⟩)
    obtain ⟨a'',ha'',hiff⟩ := insertVar_ok container a (inputs.definitions container before)
      hexpandable hvar
    obtain rfl := Except.ok.inj (ha'.symm.trans ha'')
    rw [definitions_append] at hsame'
    exact (hiff hsame).mp hsame'
  · intro hfaithful
    have hsees := sees_of_faithful hmissing hfaithful
    refine ⟨?_,fun _ => hsees,fun _ => ?_⟩
    · rw [assemble_failed_iff hfrom]
      refine iff_of_false ?_ hmissing
      rintro ⟨before,envVar,after,hsplit,hvar,-⟩
      exact hmissing (Or.inr ⟨envVar,by rw [hsplit]; simp,hvar⟩)
    · obtain ⟨a,ha,hsame⟩ := hsees container.env [] (List.append_nil _).symm
      exact result_of_sees ha hsame

/-- The code makes the environment that is meant exactly where it conforms. -/
theorem lawful_iff (inputs : EnvInputs) (container : ContainerSpec) :
    inputs.Lawful container ↔ inputs.Conforms container := by
  by_cases hfrom : ∃ ef ∈ container.envFrom, FromMissing inputs.configmaps inputs.secrets ef
  · have hmissing : Missing inputs.configmaps inputs.secrets container := Or.inl hfrom
    exact iff_of_true ⟨iff_of_true (assemble_failed_of_from hfrom) hmissing,fun h => absurd hmissing h,
      fun h => absurd hmissing h⟩ (Or.inl hfrom)
  · by_cases hmissing : Missing inputs.configmaps inputs.secrets container
    · have hfailed := assemble_failed_iff (fun ef hef (hm : FromMissing inputs.configmaps inputs.secrets ef) =>
        hfrom ⟨ef,hef,hm⟩)
      constructor
      · intro hlaw
        exact Or.inr (Or.inl (hfailed.mp (hlaw.fails_iff.mpr hmissing)))
      · rintro (h | h | ⟨h,-⟩)
        · exact absurd h hfrom
        · exact ⟨iff_of_true (hfailed.mpr h) hmissing,fun hm => absurd hmissing hm,fun hm => absurd hmissing hm⟩
        · exact absurd hmissing h
    · rw [lawful_iff_of_found hmissing]
      constructor
      · exact fun h => Or.inr (Or.inr ⟨hmissing,h⟩)
      · rintro (h | ⟨before,envVar,after,hsplit,hvar,-⟩ | ⟨-,h⟩)
        · exact absurd h hfrom
        · exact absurd (Or.inr ⟨envVar,by rw [hsplit]; simp,hvar⟩) hmissing
        · exact h

end EnvInputs

/-! ## An optional key that is not there -/

def optionalContainer : ContainerSpec where
  name := "app"
  env := [{ name := "MODE", valueFrom := some (.configMapKeyRef "settings" "mode" true) }]

def bareInputs : EnvInputs where
  host := { internalIp := "10.0.0.1", cpus := 4 }
  order := .stored
  pod := { uid := ⟨"uid-a"⟩, podRef := ⟨"default","web"⟩, containers := [optionalContainer] }
  podIp := none
  configmaps := ∅
  secrets := ∅
  serviceEnvs := ∅

/-- The variable is defined as the empty text, where it is meant not to be defined. -/
theorem optional_key_defined :
    (∃ env log, bareInputs.assembleContainerEnv optionalContainer = .ok (env,log) ∧ ("MODE","") ∈ env) ∧
      (defined (bareInputs.finalDefinitions optionalContainer)).lookup "MODE" = none ∧
        ¬bareInputs.Lawful optionalContainer := by
  have hrun : bareInputs.assembleContainerEnv optionalContainer =
      .ok ([("HOSTNAME","web"),("MODE","")],[.resolved "app" "MODE" "",.assembled "app" 2 ["HOSTNAME","MODE"]]) := by
    rfl
  have hmeant : (defined (bareInputs.finalDefinitions optionalContainer)).lookup "MODE" = none := by
    decide
  have hfound : ¬Missing bareInputs.configmaps bareInputs.secrets optionalContainer := by
    rintro (⟨ef,hef,-⟩ | ⟨e,he,-,source,hsource,-,hrequired⟩)
    · cases hef
    · cases List.mem_singleton.mp he
      cases hsource
      exact hrequired rfl
  refine ⟨⟨_,_,hrun,by simp⟩,hmeant,fun hlaw => ?_⟩
  obtain ⟨env,log,hresult,-,hmem⟩ := hlaw.result hfound
  rw [hrun] at hresult
  cases hresult
  have hmode := (hmem "MODE" "").mp (by simp)
  rw [hmeant] at hmode
  cases hmode

end KubeAir.Worker.ContainerEnv
