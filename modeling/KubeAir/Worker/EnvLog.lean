import KubeAir.Worker.EnvDefinitions
import Mathlib.Data.Set.Basic

/-! # Secrets in the log

Two runs whose secrets have the same names and keys. The log tells them apart where an entry of
`env` takes its value from a secret: by a reference to a key, or through the expansion of a name
that a secret of `envFrom` has defined.
-/
namespace KubeAir.Worker.ContainerEnv
open Core FieldRef DownwardApi EnvExpansion

/-- The secrets have the same names, and those the same keys, stored in the same order. -/
def SameShape (secrets secrets' : Secrets) : Prop :=
  ∀ name, (secrets.lookup name).map AList.keys = (secrets'.lookup name).map AList.keys

namespace EnvInputs
variable (inputs : EnvInputs) (container : ContainerSpec)

def withSecrets (secrets : Secrets) : EnvInputs := { inputs with secrets := secrets }

/-- The log does not depend on the values of the secrets. -/
def LogsAgree : Prop :=
  ∀ secrets, SameShape inputs.secrets secrets → ∀ env env' log log',
    inputs.assembleContainerEnv container = .ok (env,log) →
      (inputs.withSecrets secrets).assembleContainerEnv container = .ok (env',log') → log = log'

/-- The names that an entry of `envFrom` takes from its config map. -/
def configNames (envFrom : EnvFromSource) : List String :=
  ((envFrom.configMapRef.bind (inputs.configmaps.lookup ·.name)).getD ∅).keys.map (envFrom.namePrefix.getD "" ++ ·)

/-- The names that an entry of `envFrom` takes from its secret. -/
def secretNames (envFrom : EnvFromSource) : List String :=
  ((envFrom.secretRef.bind (inputs.secrets.lookup ·.name)).getD ∅).keys.map (envFrom.namePrefix.getD "" ++ ·)

/-- The names whose values are from a secret, after an entry of `envFrom`. -/
def taint (tainted : Set String) (envFrom : EnvFromSource) : Set String :=
  {n | n ∈ inputs.secretNames envFrom ∨ n ∈ tainted ∧ n ∉ inputs.configNames envFrom}

/-- The names whose values are from a secret before the entries of `env`. -/
def taintedNames : Set String := container.envFrom.foldl inputs.taint ∅

/-- The value of an entry is from a secret. -/
def Reveals (tainted : Set String) (envVar : EnvVar) : Prop :=
  (∃ rawValue, envVar.value = some rawValue ∧
    ∃ name, Token.reference name ∈ tokens rawValue.toList ∧ String.ofList name ∈ tainted) ∨
  (envVar.value = none ∧ ∃ name key optional, envVar.valueFrom = some (.secretKeyRef name key optional) ∧
    ((inputs.secrets.lookup name).bind (·.lookup key)).isSome = true)

/-- No entry of `env` takes its value from a secret. An entry redefines its name. -/
def Discreet : Set String → List EnvVar → Prop
  | _, [] => True
  | tainted, envVar :: vars => ¬inputs.Reveals tainted envVar ∧ Discreet (tainted \ {envVar.name}) vars

end EnvInputs

/-! ## Maps with the same names -/

/-- The maps have the same names, and differ on some of them only. -/
structure Low (tainted : Set String) (env env' : HashMap String String) : Prop where
  keys : env.keys = env'.keys
  same : ∀ n, n ∉ tainted → env.lookup n = env'.lookup n

/-- The names have a certain value. -/
def Marked (mark : String) (tainted : Set String) (env : HashMap String String) : Prop :=
  ∀ n ∈ tainted, env.lookup n = some mark

section maps
variable {V : Type} {order : MapOrder} {tainted : Set String} {env env' : HashMap String String}
  {l l' : List (String × String)} {start n v mark : String}

theorem names_pairs (order : MapOrder) (m : HashMap String V) : (order.pairs m).map Prod.fst = order.walk m.keys := by
  have hkeys : ∀ ks : List String, (∀ k ∈ ks, k ∈ m.keys) →
      (ks.filterMap fun k => (m.lookup k).map fun v => (k,v)).map Prod.fst = ks := by
    intro ks
    induction ks with
    | nil => exact fun _ => rfl
    | cons k ks ih =>
      intro h
      obtain ⟨hk,hks⟩ := List.forall_mem_cons.mp h
      obtain ⟨v,hv⟩ := Option.isSome_iff_exists.mp (AList.lookup_isSome.mpr hk)
      rw [List.filterMap_cons,hv]
      exact congrArg (k :: ·) (ih hks)
  exact hkeys _ fun k hk => (order.perm m.keys).mem_iff.mp hk

theorem Low.insert (h : Low tainted env env') (n v : String) :
    Low (tainted \ {n}) (env.insert n v) (env'.insert n v) := by
  refine ⟨?_,fun k hk => ?_⟩
  · rw [AList.keys_insert,AList.keys_insert,h.keys]
  · by_cases hkn : k = n
    · rw [hkn,AList.lookup_insert,AList.lookup_insert]
    · rw [AList.lookup_insert_ne hkn,AList.lookup_insert_ne hkn]
      exact h.same k fun ht => hk ⟨ht,hkn⟩

theorem keys_insertAll (hnames : l.map Prod.fst = l'.map Prod.fst) (h : env.keys = env'.keys) :
    (insertAll start l env).keys = (insertAll start l' env').keys := by
  induction l generalizing l' env env' with
  | nil =>
    cases l' with
    | nil => exact h
    | cons p l' => cases hnames
  | cons p l ih =>
    cases l' with
    | nil => cases hnames
    | cons p' l' =>
      obtain ⟨hp,hl⟩ := List.cons.inj hnames
      change (insertAll start l (env.insert (start ++ p.1) p.2)).keys =
        (insertAll start l' (env'.insert (start ++ p'.1) p'.2)).keys
      refine ih hl ?_
      rw [AList.keys_insert,AList.keys_insert,hp,h]

theorem lookup_insertAll_of_notMem (hl : (l.map Prod.fst).Nodup) (h : n ∉ (l.map Prod.fst).map (start ++ ·)) :
    (insertAll start l env).lookup n = env.lookup n := by
  refine Option.ext fun v => ?_
  have hall : ∀ k ∈ l.map Prod.fst, n ≠ start ++ k := by
    rintro k hk rfl
    exact h (List.mem_map_of_mem hk)
  rw [lookup_insertAll hl]
  constructor
  · rintro (⟨k,hk,hmem⟩ | ⟨-,hlookup⟩)
    · exact absurd hk (hall k (List.mem_map_of_mem hmem))
    · exact hlookup
  · exact fun hlookup => Or.inr ⟨hall,hlookup⟩

theorem lookup_insertAll_of_mem {k : String} (hl : (l.map Prod.fst).Nodup) (h : (k,v) ∈ l) :
    (insertAll start l env).lookup (start ++ k) = some v :=
  (lookup_insertAll hl).mpr (Or.inl ⟨k,rfl,h⟩)

/-- Entries with the same names and other values. -/
theorem Low.of_insertAll (start : String) (h : Low tainted env env') (hnames : l.map Prod.fst = l'.map Prod.fst)
    (hl : (l.map Prod.fst).Nodup) :
    Low {n | n ∈ (l.map Prod.fst).map (start ++ ·) ∨ n ∈ tainted} (insertAll start l env) (insertAll start l' env') := by
  refine ⟨keys_insertAll hnames h.keys,fun n hn => ?_⟩
  obtain ⟨hnew,hold⟩ := not_or.mp hn
  rw [lookup_insertAll_of_notMem hl hnew,lookup_insertAll_of_notMem (hnames ▸ hl) (hnames ▸ hnew)]
  exact h.same n hold

/-- The same entries on both sides. -/
theorem Low.of_insertAll_same (start : String) (h : Low tainted env env') (hl : (l.map Prod.fst).Nodup) :
    Low {n | n ∈ tainted ∧ n ∉ (l.map Prod.fst).map (start ++ ·)} (insertAll start l env) (insertAll start l env') := by
  refine ⟨keys_insertAll rfl h.keys,fun n hn => ?_⟩
  by_cases hmem : n ∈ (l.map Prod.fst).map (start ++ ·)
  · obtain ⟨k,hk,rfl⟩ := List.mem_map.mp hmem
    obtain ⟨⟨k',v⟩,hp,rfl⟩ := List.mem_map.mp hk
    rw [lookup_insertAll_of_mem hl hp,lookup_insertAll_of_mem hl hp]
  · rw [lookup_insertAll_of_notMem hl hmem,lookup_insertAll_of_notMem hl hmem]
    exact h.same n fun ht => hn ⟨ht,hmem⟩

end maps

/-! ## Two runs over `envFrom` -/

theorem foldlM_cons_eq_ok {ε σ α : Type} {step : σ → α → Except ε σ} {x : α} {l : List α} {s t : σ}
    (h : (x :: l).foldlM step s = .ok t) : ∃ s₁, step s x = .ok s₁ ∧ l.foldlM step s₁ = .ok t := by
  rw [List.foldlM_cons] at h
  cases hone : step s x with
  | error e =>
    rw [hone] at h
    cases h
  | ok s₁ =>
    rw [hone] at h
    exact ⟨s₁,rfl,h⟩

section shapes
variable {secrets secrets' : Secrets} {inputs : EnvInputs} {tainted : Set String} {env env' e e' : HashMap String String}
  {envFrom : EnvFromSource} {mark : String}

theorem SameShape.bind (h : SameShape secrets secrets') (name : String) :
    (secrets.lookup name = none ∧ secrets'.lookup name = none) ∨
      ∃ m m', secrets.lookup name = some m ∧ secrets'.lookup name = some m' ∧ m.keys = m'.keys := by
  have hname := h name
  cases hm : secrets.lookup name with
  | none =>
    rw [hm,Option.map_none] at hname
    exact Or.inl ⟨rfl,Option.map_eq_none_iff.mp hname.symm⟩
  | some m =>
    rw [hm,Option.map_some] at hname
    obtain ⟨m',hm',hkeys⟩ := Option.map_eq_some_iff.mp hname.symm
    exact Or.inr ⟨m,m',rfl,hm',hkeys.symm⟩

/-- The same keys are found. -/
theorem SameShape.found (h : SameShape secrets secrets') (name key : String) :
    ((secrets.lookup name).bind (·.lookup key)).isSome = ((secrets'.lookup name).bind (·.lookup key)).isSome := by
  rcases h.bind name with ⟨hm,hm'⟩ | ⟨m,m',hm,hm',hkeys⟩
  · rw [hm,hm']
  · rw [hm,hm',Option.bind_some,Option.bind_some,Bool.eq_iff_iff,AList.lookup_isSome,AList.lookup_isSome,
      AList.mem_keys,AList.mem_keys,hkeys]

theorem SameShape.symm (h : SameShape secrets secrets') : SameShape secrets' secrets := fun name => (h name).symm

theorem pairs_empty {V : Type} (order : MapOrder) : order.pairs (∅ : HashMap String V) = [] := by
  have hwalk : order.walk [] = [] := (order.perm []).eq_nil
  unfold MapOrder.pairs
  rw [show (∅ : HashMap String V).keys = [] from rfl,hwalk]
  rfl

/-- The entries of the map that is referred to are written, and none where it is missing. -/
theorem insertRef_eq {V : Type} {maps : HashMap String (HashMap String V)} {ref : Option EnvFromRef} {order : MapOrder}
    {start : String} (text : List (String × V) → List (String × String)) (stop : EnvFromRef → EnvStop) (hnil : text [] = [])
    (h : (match ref with
      | none => .ok env
      | some ref =>
        match maps.lookup ref.name with
        | some m => .ok (insertAll start (text (order.pairs m)) env)
        | none => if ref.optional then .ok env else .error (stop ref) : Except EnvStop (HashMap String String)) = .ok e) :
    e = insertAll start (text (order.pairs ((ref.bind (maps.lookup ·.name)).getD ∅))) env := by
  cases ref with
  | none =>
    rw [Option.bind_none,Option.getD_none,pairs_empty,hnil]
    exact (Except.ok.inj h).symm
  | some ref =>
    rw [Option.bind_some]
    dsimp only at h
    cases hlookup : maps.lookup ref.name with
    | some m =>
      rw [hlookup] at h
      exact (Except.ok.inj h).symm
    | none =>
      rw [hlookup] at h
      rw [Option.getD_none,pairs_empty,hnil]
      dsimp only at h
      split at h
      · exact (Except.ok.inj h).symm
      · cases h

theorem insertConfigMap_eq (h : inputs.insertConfigMap env envFrom = .ok e) :
    e = insertAll (envFrom.namePrefix.getD "")
      (inputs.order.pairs ((envFrom.configMapRef.bind (inputs.configmaps.lookup ·.name)).getD ∅)) env := by
  refine insertRef_eq id (fun ref => .failed (.runtime ("missing required ConfigMap '" ++ ref.name ++ "' for envFrom"))) rfl ?_
  unfold EnvInputs.insertConfigMap at h
  rw [← h]
  cases envFrom.configMapRef with
  | none => rfl
  | some ref =>
    dsimp only
    cases inputs.configmaps.lookup ref.name <;> rfl

theorem insertSecret_eq (h : inputs.insertSecret env envFrom = .ok e) :
    e = insertAll (envFrom.namePrefix.getD "")
      ((inputs.order.pairs ((envFrom.secretRef.bind (inputs.secrets.lookup ·.name)).getD ∅)).map
        fun p => (p.1,lossyText p.2)) env := by
  refine insertRef_eq (List.map fun p => (p.1,lossyText p.2))
    (fun ref => .failed (.runtime ("missing required Secret '" ++ ref.name ++ "' for envFrom"))) rfl ?_
  unfold EnvInputs.insertSecret at h
  rw [← h]
  cases envFrom.secretRef with
  | none => rfl
  | some ref =>
    dsimp only
    cases inputs.secrets.lookup ref.name <;> rfl

theorem insertFrom_eq_ok (h : inputs.insertFrom env envFrom = .ok e) :
    ∃ e₁, inputs.insertConfigMap env envFrom = .ok e₁ ∧ inputs.insertSecret e₁ envFrom = .ok e := by
  unfold EnvInputs.insertFrom at h
  cases hmap : inputs.insertConfigMap env envFrom with
  | error stop =>
    rw [hmap] at h
    cases h
  | ok e₁ =>
    rw [hmap] at h
    exact ⟨e₁,rfl,h⟩

/-- The names of the pairs are the keys. -/
theorem mem_names {V : Type} (order : MapOrder) (m : HashMap String V) {start n : String} :
    n ∈ ((order.pairs m).map Prod.fst).map (start ++ ·) ↔ n ∈ m.keys.map (start ++ ·) := by
  rw [names_pairs]
  simp only [List.mem_map,(order.perm m.keys).mem_iff]

theorem map_lossy_fst (l : List (String × List UInt8)) :
    (l.map fun p => (p.1,lossyText p.2)).map Prod.fst = l.map Prod.fst := by
  rw [List.map_map]
  rfl

/-- The secret of an entry in both runs has the same keys. -/
theorem SameShape.secret (h : SameShape secrets secrets') (ref : Option EnvFromRef) :
    ((ref.bind (secrets.lookup ·.name)).getD ∅).keys = ((ref.bind (secrets'.lookup ·.name)).getD ∅).keys := by
  cases ref with
  | none => rfl
  | some ref =>
    rw [Option.bind_some,Option.bind_some]
    rcases h.bind ref.name with ⟨hm,hm'⟩ | ⟨m,m',hm,hm',hkeys⟩
    · rw [hm,hm']
    · rw [hm,hm']
      exact hkeys

theorem low_insertFrom (hshape : SameShape inputs.secrets secrets) (h : Low tainted env env')
    (hok : inputs.insertFrom env envFrom = .ok e) (hok' : (inputs.withSecrets secrets).insertFrom env' envFrom = .ok e') :
    Low (inputs.taint tainted envFrom) e e' := by
  obtain ⟨e₁,hmap,hsecret⟩ := insertFrom_eq_ok hok
  obtain ⟨e₁',hmap',hsecret'⟩ := insertFrom_eq_ok hok'
  have hnames : (((inputs.order.pairs ((envFrom.secretRef.bind (inputs.secrets.lookup ·.name)).getD ∅)).map
      fun p => (p.1,lossyText p.2)).map Prod.fst) =
        (((inputs.order.pairs ((envFrom.secretRef.bind (secrets.lookup ·.name)).getD ∅)).map
          fun p => (p.1,lossyText p.2)).map Prod.fst) := by
    rw [map_lossy_fst,map_lossy_fst,names_pairs,names_pairs,hshape.secret]
  have hnodup : ((inputs.order.pairs
      ((envFrom.configMapRef.bind (inputs.configmaps.lookup ·.name)).getD ∅)).map Prod.fst).Nodup := nodup_pairs _
  have hboth := (h.of_insertAll_same (envFrom.namePrefix.getD "") hnodup).of_insertAll (envFrom.namePrefix.getD "")
    hnames (by rw [map_lossy_fst]; exact nodup_pairs _)
  rw [insertSecret_eq hsecret,insertSecret_eq hsecret',insertConfigMap_eq hmap,insertConfigMap_eq hmap']
  refine ⟨hboth.keys,fun n hn => hboth.same n fun ht => hn ?_⟩
  rcases ht with ht | ⟨ht,hnot⟩
  · rw [map_lossy_fst,mem_names] at ht
    exact Or.inl ht
  · rw [mem_names] at hnot
    exact Or.inr ⟨ht,hnot⟩

theorem low_foldlM_insertFrom (hshape : SameShape inputs.secrets secrets) (l : List EnvFromSource)
    (h : Low tainted env env') (hok : l.foldlM inputs.insertFrom env = .ok e)
    (hok' : l.foldlM (inputs.withSecrets secrets).insertFrom env' = .ok e') : Low (l.foldl inputs.taint tainted) e e' := by
  induction l generalizing tainted env env' with
  | nil =>
    cases hok
    cases hok'
    exact h
  | cons ef l ih =>
    obtain ⟨e₁,hone,hrest⟩ := foldlM_cons_eq_ok hok
    obtain ⟨e₁',hone',hrest'⟩ := foldlM_cons_eq_ok hok'
    exact ih (low_insertFrom hshape h hone hone') hrest hrest'

/-- All values of the secrets have one text. -/
def Uniform (mark : String) (secrets : Secrets) : Prop :=
  ∀ name m key v, secrets.lookup name = some m → m.lookup key = some v → lossyText v = mark

theorem marked_insertFrom (huniform : Uniform mark inputs.secrets) (h : Marked mark tainted env)
    (hok : inputs.insertFrom env envFrom = .ok e) : Marked mark (inputs.taint tainted envFrom) e := by
  obtain ⟨e₁,hmap,hsecret⟩ := insertFrom_eq_ok hok
  intro n hn
  rw [insertSecret_eq hsecret]
  have hnodup : (((inputs.order.pairs ((envFrom.secretRef.bind (inputs.secrets.lookup ·.name)).getD ∅)).map
      fun p => (p.1,lossyText p.2)).map Prod.fst).Nodup := by
    rw [map_lossy_fst]
    exact nodup_pairs _
  by_cases hmem : n ∈ (((inputs.order.pairs ((envFrom.secretRef.bind (inputs.secrets.lookup ·.name)).getD ∅)).map
      fun p => (p.1,lossyText p.2)).map Prod.fst).map (envFrom.namePrefix.getD "" ++ ·)
  · obtain ⟨k,hk,rfl⟩ := List.mem_map.mp hmem
    obtain ⟨p,hp,rfl⟩ := List.mem_map.mp hk
    obtain ⟨⟨key,value⟩,hvalue,rfl⟩ := List.mem_map.mp hp
    rw [lookup_insertAll_of_mem hnodup hp]
    rw [mem_pairs] at hvalue
    cases hsecretRef : envFrom.secretRef.bind (inputs.secrets.lookup ·.name) with
    | none =>
      rw [hsecretRef] at hvalue
      cases hvalue
    | some secret =>
      rw [hsecretRef,Option.getD_some] at hvalue
      obtain ⟨ref,-,hlookup⟩ := Option.bind_eq_some_iff.mp hsecretRef
      exact congrArg some (huniform ref.name secret key value hlookup hvalue)
  · rw [lookup_insertAll_of_notMem hnodup hmem,insertConfigMap_eq hmap]
    rw [map_lossy_fst,mem_names] at hmem
    rcases hn with hn | ⟨hn,hnot⟩
    · exact absurd hn hmem
    · rw [lookup_insertAll_of_notMem (nodup_pairs _) (fun hc => hnot ((mem_names _ _).mp hc))]
      exact h n hn

theorem marked_foldlM_insertFrom (huniform : Uniform mark inputs.secrets) (l : List EnvFromSource)
    (h : Marked mark tainted env) (hok : l.foldlM inputs.insertFrom env = .ok e) :
    Marked mark (l.foldl inputs.taint tainted) e := by
  induction l generalizing tainted env with
  | nil =>
    cases hok
    exact h
  | cons ef l ih =>
    obtain ⟨e₁,hone,hrest⟩ := foldlM_cons_eq_ok hok
    exact ih (marked_insertFrom huniform h hone) hrest

end shapes

/-! ## Two runs over `env` -/

section entries
variable {inputs : EnvInputs} {container : ContainerSpec} {secrets : Secrets} {tainted : Set String}
  {env env' : HashMap String String} {envVar : EnvVar} {a a' b b' : Assembly} {v v' : String}

theorem mapM_congr {α β : Type} {g g' : α → Option β} {l : List α} (h : ∀ x ∈ l, g x = g' x) : l.mapM g = l.mapM g' := by
  induction l with
  | nil => rfl
  | cons x l ih =>
    obtain ⟨hx,hl⟩ := List.forall_mem_cons.mp h
    rw [List.mapM_cons,List.mapM_cons,hx,ih hl]

/-- An entry that takes nothing from a secret has the same value in both runs. -/
theorem valueOf_congr (hshape : SameShape inputs.secrets secrets) (h : Low tainted env env')
    (hd : ¬inputs.Reveals tainted envVar) :
    inputs.valueOf container env envVar = (inputs.withSecrets secrets).valueOf container env' envVar := by
  unfold EnvInputs.valueOf
  cases hvalue : envVar.value with
  | some rawValue =>
    have hexpand : expandEnvValue rawValue env = expandEnvValue rawValue env' := by
      rw [expandEnvValue_eq,expandEnvValue_eq,VolumeMounts.expandEnvValue,VolumeMounts.expandEnvValue,expandChars_eq,
        expandChars_eq]
      rw [mapM_congr fun t ht => ?_]
      cases t with
      | reference name =>
        have hname : String.ofList name ∉ tainted := fun hmem => hd (Or.inl ⟨rawValue,hvalue,name,ht,hmem⟩)
        rw [Token.copied,Token.copied,referenceText,referenceText,h.same _ hname]
      | _ => rfl
    dsimp only
    rw [hexpand]
  | none =>
    cases hsource : envVar.valueFrom with
    | none => rfl
    | some source =>
      cases source with
      | secretKeyRef name key optional =>
        have hnone : (inputs.secrets.lookup name).bind (·.lookup key) = none := by
          rw [← Option.not_isSome_iff_eq_none]
          exact fun hsome => hd (Or.inr ⟨hvalue,name,key,optional,hsource,hsome⟩)
        have hnone' : (secrets.lookup name).bind (·.lookup key) = none := by
          rw [← Option.not_isSome_iff_eq_none,← hshape.found,hnone]
          exact Bool.false_ne_true
        unfold resolveEnvVarSource EnvInputs.withSecrets
        dsimp only
        rw [hnone,hnone']
      | _ => rfl

theorem insertVar_eq_ok (h : inputs.insertVar container a envVar = .ok b) :
    ∃ v, inputs.valueOf container a.env envVar = .ok v ∧ b.env = a.env.insert envVar.name v ∧
      b.log = a.log ++ [.resolved container.name envVar.name v] := by
  unfold EnvInputs.insertVar at h
  cases hvalue : inputs.valueOf container a.env envVar with
  | error stop =>
    rw [hvalue] at h
    cases h
  | ok v =>
    rw [hvalue] at h
    cases h
    exact ⟨v,rfl,rfl,rfl⟩

theorem low_insertVar (hshape : SameShape inputs.secrets secrets) (h : Low tainted a.env a'.env) (hlog : a.log = a'.log)
    (hd : ¬inputs.Reveals tainted envVar) (hok : inputs.insertVar container a envVar = .ok b)
    (hok' : (inputs.withSecrets secrets).insertVar container a' envVar = .ok b') :
    Low (tainted \ {envVar.name}) b.env b'.env ∧ b.log = b'.log := by
  obtain ⟨v,hv,henv,hb⟩ := insertVar_eq_ok hok
  obtain ⟨v',hv',henv',hb'⟩ := insertVar_eq_ok hok'
  rw [valueOf_congr hshape h hd,hv'] at hv
  obtain rfl := Except.ok.inj hv
  rw [henv,henv',hb,hb',hlog]
  exact ⟨h.insert envVar.name v',rfl⟩

/-- Entries that take nothing from a secret log the same. -/
theorem low_foldlM_insertVar (hshape : SameShape inputs.secrets secrets) (vars : List EnvVar)
    (h : Low tainted a.env a'.env) (hlog : a.log = a'.log) (hd : inputs.Discreet tainted vars)
    (hok : vars.foldlM (inputs.insertVar container) a = .ok b)
    (hok' : vars.foldlM ((inputs.withSecrets secrets).insertVar container) a' = .ok b') :
    b.env.keys = b'.env.keys ∧ b.log = b'.log := by
  induction vars generalizing tainted a a' with
  | nil =>
    cases hok
    cases hok'
    exact ⟨h.keys,hlog⟩
  | cons envVar vars ih =>
    obtain ⟨c,hone,hrest⟩ := foldlM_cons_eq_ok hok
    obtain ⟨c',hone',hrest'⟩ := foldlM_cons_eq_ok hok'
    obtain ⟨hlow,hlogs⟩ := low_insertVar hshape h hlog hd.1 hone hone'
    exact ih hlow hlogs hd.2 hrest hrest'

theorem Marked.insert {mark : String} (h : Marked mark tainted env) (n v : String) :
    Marked mark (tainted \ {n}) (env.insert n v) := by
  rintro k ⟨hk,hne⟩
  rw [AList.lookup_insert_ne hne]
  exact h k hk

/-- A run over the entries adds to the log. -/
theorem foldlM_insertVar_log (vars : List EnvVar) (hok : vars.foldlM (inputs.insertVar container) a = .ok b) :
    ∃ rest, b.log = a.log ++ rest := by
  induction vars generalizing a with
  | nil =>
    cases hok
    exact ⟨[],(List.append_nil _).symm⟩
  | cons envVar vars ih =>
    obtain ⟨c,hone,htail⟩ := foldlM_cons_eq_ok hok
    obtain ⟨v,-,-,hlog⟩ := insertVar_eq_ok hone
    obtain ⟨rest,hrest⟩ := ih htail
    refine ⟨.resolved container.name envVar.name v :: rest,?_⟩
    rw [hrest,hlog,List.append_assoc,List.singleton_append]

theorem mapM_cons_eq_some {α β : Type} {g : α → Option β} {x : α} {l : List α} {ys : List β}
    (h : (x :: l).mapM g = some ys) : ∃ y zs, g x = some y ∧ l.mapM g = some zs ∧ ys = y :: zs := by
  rw [List.mapM_cons] at h
  obtain ⟨y,hy,h⟩ := Option.bind_eq_some_iff.mp h
  obtain ⟨zs,hzs,h⟩ := Option.bind_eq_some_iff.mp h
  exact ⟨y,zs,hy,hzs,(Option.some.inj h).symm⟩

/-- A piece is not longer where the secrets are empty, and shorter where it refers to one. -/
theorem copied_length {t : Token} {x x' : List Char} (h : Low tainted env env') (hempty : Marked "" tainted env)
    (hmark : Marked "x" tainted env') (hx : t.copied env = some x) (hx' : t.copied env' = some x') :
    x.length ≤ x'.length ∧ ∀ name, t = .reference name → String.ofList name ∈ tainted → x.length < x'.length := by
  cases t with
  | reference name =>
    obtain rfl := Option.some.inj hx
    obtain rfl := Option.some.inj hx'
    unfold referenceText
    by_cases hname : String.ofList name ∈ tainted
    · rw [hempty _ hname,hmark _ hname]
      exact ⟨Nat.zero_le _,fun _ _ _ => Nat.zero_lt_one⟩
    · rw [h.same _ hname]
      refine ⟨le_rfl,fun name' heq hmem => ?_⟩
      obtain rfl := Token.reference.inj heq
      exact absurd hmem hname
  | _ =>
    obtain rfl := Option.some.inj (hx.symm.trans hx')
    exact ⟨le_rfl,fun name heq => by cases heq⟩

theorem flatten_length {ts : List Token} {xs xs' : List (List Char)} (h : Low tainted env env')
    (hempty : Marked "" tainted env) (hmark : Marked "x" tainted env') (hxs : ts.mapM (Token.copied env) = some xs)
    (hxs' : ts.mapM (Token.copied env') = some xs') :
    xs.flatten.length ≤ xs'.flatten.length ∧
      ∀ name, .reference name ∈ ts → String.ofList name ∈ tainted → xs.flatten.length < xs'.flatten.length := by
  induction ts generalizing xs xs' with
  | nil =>
    cases hxs
    cases hxs'
    exact ⟨le_rfl,fun name hname => by cases hname⟩
  | cons t ts ih =>
    obtain ⟨y,zs,hy,hzs,rfl⟩ := mapM_cons_eq_some hxs
    obtain ⟨y',zs',hy',hzs',rfl⟩ := mapM_cons_eq_some hxs'
    obtain ⟨hle,hlt⟩ := copied_length h hempty hmark hy hy'
    obtain ⟨hles,hlts⟩ := ih hzs hzs'
    rw [List.flatten_cons,List.flatten_cons,List.length_append,List.length_append]
    refine ⟨by omega,fun name hname hmem => ?_⟩
    rcases List.mem_cons.mp hname with rfl | hname
    · have hfirst := hlt name rfl hmem
      omega
    · have hrest := hlts name hname hmem
      omega

theorem copied_of_valueOf {rawValue : String} (hvalue : envVar.value = some rawValue)
    (hv : inputs.valueOf container env envVar = .ok v) :
    ∃ xs, (tokens rawValue.toList).mapM (Token.copied env) = some xs ∧ xs.flatten = v.toList := by
  unfold EnvInputs.valueOf at hv
  rw [hvalue] at hv
  dsimp only at hv
  cases hone : expandEnvValue rawValue env with
  | none =>
    rw [hone] at hv
    cases hv
  | some value =>
    rw [hone] at hv
    cases hv
    rw [expandEnvValue_eq_some_iff,expandChars_eq] at hone
    exact Option.map_eq_some_iff.mp hone

/-- A key of a secret that is there gives its value. -/
theorem secret_of_valueOf {mark name key : String} {optional : Bool} (huniform : Uniform mark inputs.secrets)
    (hvalue : envVar.value = none) (hsource : envVar.valueFrom = some (.secretKeyRef name key optional))
    (hfound : ((inputs.secrets.lookup name).bind (·.lookup key)).isSome = true)
    (hv : inputs.valueOf container env envVar = .ok v) : v = mark := by
  unfold EnvInputs.valueOf at hv
  rw [hvalue,hsource] at hv
  obtain ⟨value,hlookup⟩ := Option.isSome_iff_exists.mp hfound
  obtain ⟨m,hm,hkey⟩ := Option.bind_eq_some_iff.mp hlookup
  unfold resolveEnvVarSource at hv
  dsimp only at hv
  rw [hlookup] at hv
  exact (Except.ok.inj hv).symm.trans (huniform name m key value hm hkey)

/-- An entry that takes its value from a secret has another value for other secrets. -/
theorem valueOf_ne (hshape : SameShape inputs.secrets secrets) (huniform : Uniform "" inputs.secrets)
    (huniform' : Uniform "x" secrets) (h : Low tainted env env') (hempty : Marked "" tainted env)
    (hmark : Marked "x" tainted env') (hd : inputs.Reveals tainted envVar)
    (hv : inputs.valueOf container env envVar = .ok v)
    (hv' : (inputs.withSecrets secrets).valueOf container env' envVar = .ok v') : v ≠ v' := by
  rcases hd with ⟨rawValue,hvalue,name,ht,hmem⟩ | ⟨hvalue,name,key,optional,hsource,hsome⟩
  · obtain ⟨xs,hxs,hflat⟩ := copied_of_valueOf hvalue hv
    obtain ⟨xs',hxs',hflat'⟩ := copied_of_valueOf hvalue hv'
    rintro rfl
    have hlt := (flatten_length h hempty hmark hxs hxs').2 name ht hmem
    rw [hflat,hflat'] at hlt
    exact lt_irrefl _ hlt
  · have hfound : (((inputs.withSecrets secrets).secrets.lookup name).bind (·.lookup key)).isSome = true :=
      (hshape.found name key).symm.trans hsome
    have hmark : Uniform "x" (inputs.withSecrets secrets).secrets := huniform'
    rw [secret_of_valueOf huniform hvalue hsource hsome hv,secret_of_valueOf hmark hvalue hsource hfound hv']
    decide

/-- Where an entry takes its value from a secret, the logs differ. -/
theorem log_ne_of_reveals (hshape : SameShape inputs.secrets secrets) (huniform : Uniform "" inputs.secrets)
    (huniform' : Uniform "x" secrets) (vars : List EnvVar) (h : Low tainted a.env a'.env)
    (hempty : Marked "" tainted a.env) (hmark : Marked "x" tainted a'.env) (hlog : a.log = a'.log)
    (hd : ¬inputs.Discreet tainted vars) (hok : vars.foldlM (inputs.insertVar container) a = .ok b)
    (hok' : vars.foldlM ((inputs.withSecrets secrets).insertVar container) a' = .ok b') : b.log ≠ b'.log := by
  induction vars generalizing tainted a a' with
  | nil => exact absurd trivial hd
  | cons envVar vars ih =>
    obtain ⟨c,hone,hrest⟩ := foldlM_cons_eq_ok hok
    obtain ⟨c',hone',hrest'⟩ := foldlM_cons_eq_ok hok'
    obtain ⟨v,hv,henv,hc⟩ := insertVar_eq_ok hone
    obtain ⟨v',hv',henv',hc'⟩ := insertVar_eq_ok hone'
    by_cases hreveals : inputs.Reveals tainted envVar
    · have hne := valueOf_ne hshape huniform huniform' h hempty hmark hreveals hv hv'
      obtain ⟨rest,hb⟩ := foldlM_insertVar_log vars hrest
      obtain ⟨rest',hb'⟩ := foldlM_insertVar_log vars hrest'
      rw [hb,hb',hc,hc',hlog,List.append_assoc,List.append_assoc]
      intro heq
      obtain ⟨hrecord,-⟩ := List.cons.inj (List.append_cancel_left heq)
      exact hne (LogRecord.resolved.inj hrecord).2.2
    · obtain ⟨hlow,hlogs⟩ := low_insertVar hshape h hlog hreveals hone hone'
      refine ih hlow ?_ ?_ hlogs (fun hrest => hd ⟨hreveals,hrest⟩) hrest hrest'
      · rw [henv]
        exact hempty.insert envVar.name v
      · rw [henv']
        exact hmark.insert envVar.name v'

end entries

/-! ## Whole runs -/

section runs
variable {inputs : EnvInputs} {container : ContainerSpec} {secrets secrets' : Secrets} {configmaps : ConfigMaps}
  {env : List (String × String)} {log : List LogRecord} {bytes : List UInt8} {mark : String}

theorem assemble_eq_ok (h : inputs.assembleContainerEnv container = .ok (env,log)) :
    ∃ e a, container.envFrom.foldlM inputs.insertFrom inputs.serviceEnvs = .ok e ∧
      container.env.foldlM (inputs.insertVar container) { env := e } = .ok a ∧
      log = a.log ++ [.assembled container.name (inputs.withHostname a.env).keys.length
        (inputs.order.walk (inputs.withHostname a.env).keys)] := by
  unfold EnvInputs.assembleContainerEnv EnvInputs.assembleVars at h
  cases hfrom : container.envFrom.foldlM inputs.insertFrom inputs.serviceEnvs with
  | error stop =>
    rw [hfrom] at h
    cases h
  | ok e =>
    rw [hfrom] at h
    change Except.map _ (container.env.foldlM (inputs.insertVar container) { env := e }) = _ at h
    cases hvars : container.env.foldlM (inputs.insertVar container) { env := e } with
    | error stop =>
      rw [hvars] at h
      cases h
    | ok a =>
      rw [hvars] at h
      cases h
      exact ⟨e,a,rfl,hvars,rfl⟩

/-- An environment comes out where nothing is missing and no expansion panics. -/
theorem assemble_ok_iff : (∃ env log, inputs.assembleContainerEnv container = .ok (env,log)) ↔
    ¬Missing inputs.configmaps inputs.secrets container ∧ ∀ e ∈ container.env, Expandable e := by
  by_cases hfrom : ∃ ef ∈ container.envFrom, FromMissing inputs.configmaps inputs.secrets ef
  · obtain ⟨e,he⟩ := EnvInputs.assemble_failed_of_from hfrom
    rw [he]
    exact iff_of_false (fun ⟨env,log,h⟩ => by cases h) (fun h => h.1 (Or.inl hfrom))
  · have hnone : ∀ ef ∈ container.envFrom, ¬FromMissing inputs.configmaps inputs.secrets ef :=
      fun ef hef hm => hfrom ⟨ef,hef,hm⟩
    obtain ⟨e,he,-⟩ := EnvInputs.base_ok inputs hnone
    have hvars : (∃ a, container.env.foldlM (inputs.insertVar container) { env := e } = .ok a) ↔ _ :=
      foldlM_insertVar_ok_iff container.env { env := e }
    constructor
    · rintro ⟨env,log,h⟩
      obtain ⟨e',a,he',ha,-⟩ := assemble_eq_ok h
      obtain rfl := Except.ok.inj (he.symm.trans he')
      have hall := hvars.mp ⟨a,ha⟩
      refine ⟨?_,fun v hv => (hall v hv).1⟩
      rintro (hm | ⟨v,hv,hm⟩)
      · exact hfrom hm
      · exact (hall v hv).2 hm
    · rintro ⟨hmissing,hexpandable⟩
      obtain ⟨a,ha⟩ := hvars.mpr fun v hv => ⟨hexpandable v hv,fun hm => hmissing (Or.inr ⟨v,hv,hm⟩)⟩
      refine ⟨inputs.order.pairs (inputs.withHostname a.env),a.log ++ [.assembled container.name
        (inputs.withHostname a.env).keys.length (inputs.order.walk (inputs.withHostname a.env).keys)],?_⟩
      unfold EnvInputs.assembleContainerEnv EnvInputs.assembleVars
      rw [he]
      change Except.map _ (container.env.foldlM (inputs.insertVar container) { env := e }) = _
      rw [ha]
      rfl

theorem SameShape.lookup_eq_none (h : SameShape secrets secrets') (name : String) :
    secrets.lookup name = none ↔ secrets'.lookup name = none := by
  rcases h.bind name with ⟨hm,hm'⟩ | ⟨m,m',hm,hm',-⟩
  · rw [hm,hm']
  · rw [hm,hm']
    exact iff_of_false (Option.some_ne_none m) (Option.some_ne_none m')

theorem SameShape.unfound (h : SameShape secrets secrets') (source : EnvVarSource) :
    Unfound configmaps secrets source ↔ Unfound configmaps secrets' source := by
  cases source with
  | secretKeyRef name key optional =>
    change (secrets.lookup name).bind (·.lookup key) = none ↔ (secrets'.lookup name).bind (·.lookup key) = none
    rw [← Option.not_isSome_iff_eq_none,← Option.not_isSome_iff_eq_none,h.found]
  | _ => rfl

/-- What is missing does not depend on the values. -/
theorem SameShape.missing (h : SameShape secrets secrets') :
    Missing configmaps secrets container ↔ Missing configmaps secrets' container := by
  unfold Missing FromMissing VarMissing
  simp only [h.lookup_eq_none,h.unfound]

theorem SameShape.taintedNames (h : SameShape inputs.secrets secrets) :
    (inputs.withSecrets secrets).taintedNames container = inputs.taintedNames container := by
  have htaint : (inputs.withSecrets secrets).taint = inputs.taint := by
    funext tainted envFrom
    unfold EnvInputs.taint EnvInputs.secretNames
    rw [h.secret]
    rfl
  unfold EnvInputs.taintedNames
  rw [htaint]

theorem SameShape.discreet (h : SameShape inputs.secrets secrets) (tainted : Set String) (vars : List EnvVar) :
    (inputs.withSecrets secrets).Discreet tainted vars ↔ inputs.Discreet tainted vars := by
  induction vars generalizing tainted with
  | nil => rfl
  | cons envVar vars ih =>
    unfold EnvInputs.Discreet EnvInputs.Reveals
    rw [ih]
    simp only [h.found]
    rfl

/-- The secrets with one value for all their keys. -/
def uniformSecrets (bytes : List UInt8) (secrets : Secrets) : Secrets :=
  secrets.mapValues fun m => m.mapValues fun _ => bytes

theorem keys_mapValues {V W : Type} (m : HashMap String V) (f : V → W) : (m.mapValues f).keys = m.keys := by
  unfold HashMap.mapValues AList.keys List.keys
  rw [List.map_map]
  rfl

theorem sameShape_uniform (bytes : List UInt8) (secrets : Secrets) : SameShape secrets (uniformSecrets bytes secrets) := by
  intro name
  unfold uniformSecrets
  rw [HashMap.lookup_mapValues,Option.map_map]
  cases secrets.lookup name with
  | none => rfl
  | some m =>
    simp only [Option.map_some,Function.comp_apply,keys_mapValues]

theorem uniform_uniformSecrets (h : lossyText bytes = mark) (secrets : Secrets) :
    Uniform mark (uniformSecrets bytes secrets) := by
  intro name m key v hm hv
  unfold uniformSecrets at hm
  rw [HashMap.lookup_mapValues] at hm
  obtain ⟨m',-,rfl⟩ := Option.map_eq_some_iff.mp hm
  rw [HashMap.lookup_mapValues] at hv
  obtain ⟨v',-,rfl⟩ := Option.map_eq_some_iff.mp hv
  exact h

theorem keys_withHostname {m m' : HashMap String String} (h : m.keys = m'.keys) :
    (inputs.withHostname m).keys = (inputs.withHostname m').keys := by
  have hsome : (m.lookup "HOSTNAME").isSome = (m'.lookup "HOSTNAME").isSome := by
    rw [Bool.eq_iff_iff,AList.lookup_isSome,AList.lookup_isSome,AList.mem_keys,AList.mem_keys,h]
  unfold EnvInputs.withHostname
  rw [hsome]
  split
  · exact h
  · rw [AList.keys_insert,AList.keys_insert,h]

/-- Two runs before the entries of `env`. -/
theorem low_base {e e' : HashMap String String} (hshape : SameShape inputs.secrets secrets)
    (h : container.envFrom.foldlM inputs.insertFrom inputs.serviceEnvs = .ok e)
    (h' : container.envFrom.foldlM (inputs.withSecrets secrets).insertFrom inputs.serviceEnvs = .ok e') :
    Low (inputs.taintedNames container) e e' :=
  low_foldlM_insertFrom hshape container.envFrom ⟨rfl,fun _ _ => rfl⟩ h h'

theorem marked_base (inputs : EnvInputs) {e : HashMap String String} (huniform : Uniform mark inputs.secrets)
    (h : container.envFrom.foldlM inputs.insertFrom inputs.serviceEnvs = .ok e) :
    Marked mark (inputs.taintedNames container) e :=
  marked_foldlM_insertFrom huniform container.envFrom (fun _ hn => hn.elim) h

/-- A discreet container logs the same. -/
theorem logsAgree_of_discreet (h : inputs.Discreet (inputs.taintedNames container) container.env) :
    inputs.LogsAgree container := by
  intro secrets hshape env env' log log' hok hok'
  obtain ⟨e,a,hfrom,hvars,rfl⟩ := assemble_eq_ok hok
  obtain ⟨e',a',hfrom',hvars',rfl⟩ := assemble_eq_ok hok'
  have hlow : Low (inputs.taintedNames container) (Assembly.mk e []).env (Assembly.mk e' []).env :=
    low_base hshape hfrom hfrom'
  obtain ⟨hkeys,hlogs⟩ := low_foldlM_insertVar hshape container.env hlow rfl h hvars hvars'
  have hnames : (inputs.withHostname a.env).keys = (inputs.withHostname a'.env).keys := keys_withHostname hkeys
  rw [hlogs,hnames]
  rfl

theorem lossyText_nil : lossyText [] = "" := by
  unfold lossyText
  rw [Wire.Utf8.fromUtf8Lossy]

theorem lossyText_ascii {b : UInt8} (h : b < 0x80) : lossyText [b] = String.ofList [Char.ofNat b.toNat] := by
  unfold lossyText
  rw [Wire.Utf8.fromUtf8Lossy]
  unfold Wire.Utf8.decodeChar
  rw [if_pos h,Wire.Utf8.fromUtf8Lossy]

/-- Secrets that are all empty, and secrets that are all the same letter, make other logs. -/
theorem log_ne_of_not_discreet (hok : ∃ env log, inputs.assembleContainerEnv container = .ok (env,log))
    (hd : ¬inputs.Discreet (inputs.taintedNames container) container.env) :
    ∃ env env' log log', (inputs.withSecrets (uniformSecrets [] inputs.secrets)).assembleContainerEnv container = .ok (env,log) ∧
      (inputs.withSecrets (uniformSecrets [120] inputs.secrets)).assembleContainerEnv container = .ok (env',log') ∧
        log ≠ log' := by
  have hruns : ∀ bytes, ∃ env log,
      (inputs.withSecrets (uniformSecrets bytes inputs.secrets)).assembleContainerEnv container = .ok (env,log) := by
    intro bytes
    obtain ⟨hmissing,hexpandable⟩ := assemble_ok_iff.mp hok
    exact assemble_ok_iff.mpr ⟨fun hm => hmissing ((sameShape_uniform bytes inputs.secrets).missing.mpr hm),hexpandable⟩
  obtain ⟨env,log,hrun⟩ := hruns []
  obtain ⟨env',log',hrun'⟩ := hruns [120]
  refine ⟨env,env',log,log',hrun,hrun',?_⟩
  obtain ⟨e,a,hfrom,hvars,rfl⟩ := assemble_eq_ok hrun
  obtain ⟨e',a',hfrom',hvars',rfl⟩ := assemble_eq_ok hrun'
  have hshape := sameShape_uniform [] inputs.secrets
  have hshape' : SameShape (inputs.withSecrets (uniformSecrets [] inputs.secrets)).secrets
      (uniformSecrets [120] inputs.secrets) := fun name =>
    ((sameShape_uniform [] inputs.secrets).symm name).trans (sameShape_uniform [120] inputs.secrets name)
  have hempty : Uniform "" (uniformSecrets [] inputs.secrets) := uniform_uniformSecrets lossyText_nil inputs.secrets
  have hmark : Uniform "x" (uniformSecrets [120] inputs.secrets) :=
    uniform_uniformSecrets (lossyText_ascii (by decide)) inputs.secrets
  have hlow : Low _ (Assembly.mk e []).env (Assembly.mk e' []).env := low_base hshape' hfrom hfrom'
  have hmarked := marked_base (inputs.withSecrets (uniformSecrets [120] inputs.secrets)) hmark hfrom'
  rw [(sameShape_uniform [120] inputs.secrets).taintedNames] at hmarked
  have hunmarked := marked_base (inputs.withSecrets (uniformSecrets [] inputs.secrets)) hempty hfrom
  rw [hshape.taintedNames] at hlow hunmarked
  rw [← hshape.discreet] at hd
  intro heq
  exact log_ne_of_reveals hshape' hempty hmark container.env hlow hunmarked
    hmarked rfl hd hvars hvars' (List.append_inj' heq rfl).1

/-- The log depends on the secrets exactly where an environment comes out and an entry of `env`
takes its value from a secret. -/
theorem logsAgree_iff (inputs : EnvInputs) (container : ContainerSpec) :
    inputs.LogsAgree container ↔ (∀ env log, inputs.assembleContainerEnv container ≠ .ok (env,log)) ∨
      inputs.Discreet (inputs.taintedNames container) container.env := by
  constructor
  · intro h
    by_contra hnot
    obtain ⟨hok,hd⟩ := not_or.mp hnot
    push Not at hok
    obtain ⟨env,log,hrun⟩ := hok
    obtain ⟨env₁,env₂,log₁,log₂,hrun₁,hrun₂,hne⟩ := log_ne_of_not_discreet ⟨env,log,hrun⟩ hd
    have h₁ := h _ (sameShape_uniform [] inputs.secrets) env env₁ log log₁ hrun hrun₁
    have h₂ := h _ (sameShape_uniform [120] inputs.secrets) env env₂ log log₂ hrun hrun₂
    exact hne (h₁.symm.trans h₂)
  · rintro (hnone | hd)
    · intro secrets _ env env' log log' hrun
      exact absurd hrun (hnone env log)
    · exact logsAgree_of_discreet hd

end runs

/-! ## A password in the log -/

def passwordContainer : ContainerSpec where
  name := "app"
  env := [{ name := "PASSWORD", valueFrom := some (.secretKeyRef "login" "password" false) }]

/-- The inputs with a secret that has the password. -/
def loginInputs (password : List UInt8) : EnvInputs :=
  bareInputs.withSecrets ((∅ : Secrets).insert "login" ((∅ : HashMap String (List UInt8)).insert "password" password))

theorem login_run (password : List UInt8) : (loginInputs password).assembleContainerEnv passwordContainer =
    .ok ([("HOSTNAME","web"),("PASSWORD",lossyText password)],
      [.resolved "app" "PASSWORD" (lossyText password),.assembled "app" 2 ["HOSTNAME","PASSWORD"]]) := by
  have hvalue : (loginInputs password).valueOf passwordContainer ∅
      { name := "PASSWORD", valueFrom := some (.secretKeyRef "login" "password" false) } = .ok (lossyText password) := rfl
  have hvar := insertVar_of_valueOf (a := { env := ∅ }) hvalue
  unfold EnvInputs.assembleContainerEnv EnvInputs.assembleVars
  change Except.map _ (([{ name := "PASSWORD", valueFrom := some (.secretKeyRef "login" "password" false) }] :
    List EnvVar).foldlM ((loginInputs password).insertVar passwordContainer) { env := ∅ }) = _
  rw [List.foldlM_cons,hvar]
  generalize lossyText password = v
  have hname : bareInputs.pod.effectiveHostname = "web" := by decide
  have hnone : ((∅ : HashMap String String).insert "PASSWORD" v).lookup "HOSTNAME" = none :=
    (AList.lookup_insert_ne (by decide)).trans rfl
  have hhost : (loginInputs password).withHostname ((∅ : HashMap String String).insert "PASSWORD" v) =
      ((∅ : HashMap String String).insert "PASSWORD" v).insert "HOSTNAME" "web" := by
    unfold EnvInputs.withHostname
    rw [hnone,if_neg (by decide)]
    exact congrArg (AList.insert "HOSTNAME" · _) hname
  change Except.ok ((loginInputs password).order.pairs ((loginInputs password).withHostname
    ((∅ : HashMap String String).insert "PASSWORD" v)),_) = _
  rw [hhost]
  rfl

/-- The password is in the log. -/
theorem password_logged :
    (∃ env log, (loginInputs [97]).assembleContainerEnv passwordContainer = .ok (env,log) ∧
      log.head? = some (.resolved "app" "PASSWORD" "a")) ∧
    (∃ env log, (loginInputs [98]).assembleContainerEnv passwordContainer = .ok (env,log) ∧
      log.head? = some (.resolved "app" "PASSWORD" "b")) ∧
    ¬(loginInputs [97]).LogsAgree passwordContainer := by
  have ha : lossyText [97] = "a" := lossyText_ascii (by decide)
  have hb : lossyText [98] = "b" := lossyText_ascii (by decide)
  have hrun := login_run [97]
  have hrun' := login_run [98]
  rw [ha] at hrun
  rw [hb] at hrun'
  refine ⟨⟨_,_,hrun,rfl⟩,⟨_,_,hrun',rfl⟩,fun hagree => ?_⟩
  have hshape : SameShape (loginInputs [97]).secrets (loginInputs [98]).secrets := by
    intro name
    by_cases hname : name = "login"
    · rw [hname]
      rfl
    · unfold loginInputs EnvInputs.withSecrets
      rw [AList.lookup_insert_ne hname,AList.lookup_insert_ne hname]
  have hlogs := hagree _ hshape _ _ _ _ hrun hrun'
  revert hlogs
  decide

end KubeAir.Worker.ContainerEnv
