import KubeAir.Transition.Program
import KubeAir.Worker.EnvDefinitions

/-! # Where the environment of a container comes from

Before the environment is assembled, the config maps and secrets that the container refers to are
fetched from the API server, each of them once, and the services that have an address. What fails
to be fetched is left out if it is optional.
-/
namespace KubeAir.Worker.ContainerEnv
open Core DownwardApi Transition

inductive ObjectKind
  | configMap
  | secret
deriving DecidableEq, Repr

def ObjectKind.label : ObjectKind → String
  | .configMap => "ConfigMap"
  | .secret => "Secret"

abbrev ObjectKind.Data : ObjectKind → Type
  | .configMap => HashMap String String
  | .secret => HashMap String (List UInt8)

structure ServicePort where
  port : ℤ
  protocol : Option String := none
  name : Option String := none

structure ServiceSpec where
  clusterIp : Option String := none
  ports : List ServicePort := []

structure Service where
  name : Option String := none
  spec : Option ServiceSpec := none

/-! ## Calls -/

inductive EnvOp
  | kubeClient
  | object (kind : ObjectKind) (ns name : String)
  | service (ns name : String)
  | services (ns : String)

def EnvAnswer : EnvOp → Type
  | .kubeClient => Bool
  | .object kind _ _ => Except String kind.Data
  | .service _ _ => Except String Service
  | .services _ => Except String (List Service)

abbrev EnvM := Program EnvOp EnvAnswer

def askApi (op : EnvOp) : EnvM (EnvAnswer op) := Program.request op

def kubeClient : EnvM Bool := askApi .kubeClient

def getObject (kind : ObjectKind) (ns name : String) : EnvM (Except String kind.Data) := askApi (.object kind ns name)

def getService (ns name : String) : EnvM (Except String Service) := askApi (.service ns name)

def listServices (ns : String) : EnvM (Except String (List Service)) := askApi (.services ns)

/-! ## Variables of services -/

def toServiceEnvName (input : String) : String :=
  String.ofList (input.toList.map fun c => if c.isAlphanum then c.toUpper else '_')

def protocolOf (port : ServicePort) : String := (port.protocol.getD "TCP").toUpper

/-- The variables of one port. -/
def portVars (start clusterIp : String) (port : ServicePort) : List (String × String) :=
  let portStart := start ++ "_PORT_" ++ toString port.port ++ "_" ++ protocolOf port
  [(portStart,(protocolOf port).toLower ++ "://" ++ clusterIp ++ ":" ++ toString port.port),
    (portStart ++ "_PROTO",(protocolOf port).toLower),(portStart ++ "_PORT",toString port.port),(portStart ++ "_ADDR",clusterIp)] ++
    (port.name.map fun name => (start ++ "_SERVICE_PORT_" ++ toServiceEnvName name,toString port.port)).toList

/-- The variables of the first port under the name of the service. -/
def firstPortVars (start clusterIp : String) : List ServicePort → List (String × String)
  | [] => []
  | port :: _ => [(start ++ "_SERVICE_PORT",toString port.port),
      (start ++ "_PORT",(protocolOf port).toLower ++ "://" ++ clusterIp ++ ":" ++ toString port.port)]

/-- `service_env_vars_from_service`; services without an address have no variables. -/
def serviceEnvVarsFromService (service : Service) : HashMap String String :=
  match service.spec, service.name with
  | some spec, some name =>
    match spec.clusterIp with
    | none => ∅
    | some clusterIp =>
      if clusterIp = "" ∨ clusterIp = "None" then ∅
      else
        let start := toServiceEnvName name
        defined ((start ++ "_SERVICE_HOST",clusterIp) :: firstPortVars start clusterIp spec.ports ++
          spec.ports.flatMap (portVars start clusterIp))
  | _, _ => ∅

/-- `env.entry(k).or_insert(v)`. -/
def orInsert (env : HashMap String String) (entry : String × String) : HashMap String String :=
  if (env.lookup entry.1).isSome then env else env.insert entry.1 entry.2

/-- The variables of a further service; those that are there stay. -/
def addService (order : MapOrder) (env : HashMap String String) (service : Service) : HashMap String String :=
  (order.pairs (serviceEnvVarsFromService service)).foldl orInsert env

def kubernetesEnvs (order : MapOrder) : Except String Service → HashMap String String
  | .ok service => insertAll "" (order.pairs (serviceEnvVarsFromService service)) ∅
  | .error _ => ∅

def withServices (order : MapOrder) (env : HashMap String String) : Except String (List Service) → HashMap String String
  | .ok services => services.foldl (addService order) env
  | .error _ => env

def loadServiceEnvVars (order : MapOrder) (pod : PodSpec) (serviceLinksEnabled : Bool) : EnvM (HashMap String String) := do
  let env := kubernetesEnvs order (← getService "default" "kubernetes")
  if serviceLinksEnabled then
    let services ← listServices pod.podRef.ns
    return withServices order env services
  else return env

/-! ## Objects -/

/-- The references of a container to objects of a kind, and whether they are optional. -/
def references (kind : ObjectKind) (container : ContainerSpec) : List (String × Bool) :=
  match kind with
  | .configMap => container.envFrom.filterMap (fun envFrom => envFrom.configMapRef.map fun ref => (ref.name,ref.optional)) ++
      container.env.filterMap fun envVar =>
        match envVar.valueFrom with
        | some (.configMapKeyRef name _ optional) => some (name,optional)
        | _ => none
  | .secret => container.envFrom.filterMap (fun envFrom => envFrom.secretRef.map fun ref => (ref.name,ref.optional)) ++
      container.env.filterMap fun envVar =>
        match envVar.valueFrom with
        | some (.secretKeyRef name _ optional) => some (name,optional)
        | _ => none

def fetchFailed (kind : ObjectKind) (name err : String) : KubeletError :=
  .runtime ("failed to fetch " ++ kind.label ++ " '" ++ name ++ "': " ++ err)

/-- `load_single_configmap` and `load_single_secret`, reference by reference. -/
def loadObjects (kind : ObjectKind) (ns : String) :
    List (String × Bool) → HashMap String kind.Data → EnvM (Except KubeletError (HashMap String kind.Data))
  | [], objects => pure (.ok objects)
  | (name,optional) :: refs, objects =>
    if (objects.lookup name).isSome then loadObjects kind ns refs objects
    else do
      match ← getObject kind ns name with
      | .ok data => loadObjects kind ns refs (objects.insert name data)
      | .error err => if optional then loadObjects kind ns refs objects else pure (.error (fetchFailed kind name err))

def loadContainerConfigmaps (container : ContainerSpec) (ns : String) : EnvM (Except KubeletError ConfigMaps) :=
  loadObjects .configMap ns (references .configMap container) ∅

def loadContainerSecrets (container : ContainerSpec) (ns : String) : EnvM (Except KubeletError Secrets) :=
  loadObjects .secret ns (references .secret container) ∅

/-- Any reference makes the objects of the kind needed. -/
def needs (kind : ObjectKind) (container : ContainerSpec) : Bool := !(references kind container).isEmpty

def noClient : KubeletError := .runtime "failed to create kube client for env resolution: no client available"

/-- `resolve_container_env`; the maps of `inputs` are those that are loaded. -/
def resolveContainerEnv (inputs : EnvInputs) (container : ContainerSpec) (enableServiceLinks : Option Bool) :
    EnvM (Except EnvStop (List (String × String) × List LogRecord)) := do
  let client ← kubeClient
  if (needs .configMap container || needs .secret container) && !client then return .error (.failed noClient)
  match ← loadContainerConfigmaps container inputs.pod.podRef.ns with
  | .error e => return .error (.failed e)
  | .ok configmaps =>
    match ← loadContainerSecrets container inputs.pod.podRef.ns with
    | .error e => return .error (.failed e)
    | .ok secrets =>
      let serviceEnvs ← (if client then loadServiceEnvVars inputs.order inputs.pod (enableServiceLinks.getD true) else pure ∅)
      return { inputs with configmaps := configmaps, secrets := secrets, serviceEnvs := serviceEnvs }.assembleContainerEnv container

/-! ## What is asked for -/

/-- What has been answered so far. -/
structure EnvWorld where
  client : Bool := false
  objects : (kind : ObjectKind) → List (String × Except String kind.Data) := fun _ => []
  kubernetes : Option (Except String Service) := none
  services : Option (Except String (List Service)) := none

def collectOne {D : Type} (objects : HashMap String D) (answer : String × Except String D) : HashMap String D :=
  match answer.2 with
  | .ok data => objects.insert answer.1 data
  | .error _ => objects

/-- The objects that have been fetched. -/
def collect {D : Type} (answers : List (String × Except String D)) : HashMap String D := answers.foldl collectOne ∅

namespace EnvWorld

def record (w : EnvWorld) (op : EnvOp) (answer : EnvAnswer op) : EnvWorld :=
  match op, answer with
  | .kubeClient, (client : Bool) => { w with client := client }
  | .object kind _ name, (data : Except String kind.Data) =>
    { w with objects := Function.update w.objects kind (w.objects kind ++ [(name,data)]) }
  | .service _ _, (service : Except String Service) => { w with kubernetes := some service }
  | .services _, (services : Except String (List Service)) => { w with services := some services }

/-- The variables of the services that have been answered: those of the API server, then the others. -/
def serviceEnvs (order : MapOrder) (w : EnvWorld) : HashMap String String :=
  let env := match w.kubernetes with
    | some kubernetes => kubernetesEnvs order kubernetes
    | none => ∅
  match w.services with
  | some services => withServices order env services
  | none => env

/-- The inputs of the assembly. -/
def inputs (w : EnvWorld) (base : EnvInputs) : EnvInputs :=
  { base with
    configmaps := collect (w.objects .configMap)
    secrets := collect (w.objects .secret)
    serviceEnvs := w.serviceEnvs base.order }

end EnvWorld

section Law
variable (base : EnvInputs) (container : ContainerSpec) (enableServiceLinks : Option Bool)

/-- When a call may be made: an object that the container refers to is fetched until it is there, the
services of the namespace are only listed where the pod asks for them. -/
def Asks (w : EnvWorld) : EnvOp → Prop
  | .kubeClient => True
  | .object kind ns name => ns = base.pod.podRef.ns ∧ name ∈ (references kind container).map Prod.fst ∧
      (collect (w.objects kind)).lookup name = none
  | .service ns name => ns = "default" ∧ name = "kubernetes"
  | .services ns => enableServiceLinks.getD true = true ∧ ns = base.pod.podRef.ns

def resolving : Contract EnvOp EnvAnswer EnvWorld where
  drift w w' := w' = w
  allowed := Asks base container enableServiceLinks
  answers w op answer w' := w' = w.record op answer

/-- A reference that is not optional. -/
def Required (kind : ObjectKind) (name : String) : Prop := (name,false) ∈ references kind container

/-- All that is required has been fetched. -/
def Fetched (w : EnvWorld) : Prop := ∀ kind name, Required container kind name → ((collect (w.objects kind)).lookup name).isSome

/-- Why nothing is assembled: there is no client for what is needed, or the last fetch of something
that is required has failed. -/
inductive Unfetched (w : EnvWorld) : KubeletError → Prop
  | noClient (client : w.client = false) (needed : ∃ kind, needs kind container = true) : Unfetched w noClient
  | failed {kind : ObjectKind} {name err : String} (required : Required container kind name)
      (last : (w.objects kind).getLast? = some (name,.error err))
      (missing : (collect (w.objects kind)).lookup name = none) : Unfetched w (fetchFailed kind name err)

end Law

section Calls
variable {base : EnvInputs} {container : ContainerSpec} {links : Option Bool} {w : EnvWorld}

theorem meets_askApi {op : EnvOp} {Q : EnvAnswer op → EnvWorld → Prop} : (askApi op).Meets (resolving base container links) Q w ↔
    Asks base container links w op ∧ ∀ answer, Q answer (w.record op answer) := by
  constructor
  · intro h
    obtain ⟨hasks,hanswer⟩ := h w rfl
    exact ⟨hasks,fun answer => hanswer answer _ rfl⟩
  · rintro ⟨hasks,hanswer⟩ w' rfl
    exact ⟨hasks,fun answer w'' hw => hw ▸ hanswer answer⟩

theorem meets_kubeClient {Q : Bool → EnvWorld → Prop} : kubeClient.Meets (resolving base container links) Q w ↔
    ∀ client, Q client { w with client := client } :=
  meets_askApi.trans (and_iff_right trivial)

theorem meets_getObject {kind : ObjectKind} {ns name : String} {Q : Except String kind.Data → EnvWorld → Prop} :
    (getObject kind ns name).Meets (resolving base container links) Q w ↔
      Asks base container links w (.object kind ns name) ∧ ∀ data, Q data
        { w with objects := Function.update w.objects kind (w.objects kind ++ [(name,data)]) } :=
  meets_askApi

theorem meets_getService {ns name : String} {Q : Except String Service → EnvWorld → Prop} :
    (getService ns name).Meets (resolving base container links) Q w ↔
      (ns = "default" ∧ name = "kubernetes") ∧ ∀ service, Q service { w with kubernetes := some service } :=
  meets_askApi

theorem meets_listServices {ns : String} {Q : Except String (List Service) → EnvWorld → Prop} :
    (listServices ns).Meets (resolving base container links) Q w ↔
      (links.getD true = true ∧ ns = base.pod.podRef.ns) ∧ ∀ services, Q services { w with services := some services } :=
  meets_askApi

theorem collect_concat {D : Type} (answers : List (String × Except String D)) (answer : String × Except String D) :
    collect (answers ++ [answer]) = collectOne (collect answers) answer := List.foldl_concat _ _ _ _

/-- Another answer for an object. -/
def EnvWorld.answered (w : EnvWorld) (kind : ObjectKind) (name : String) (data : Except String kind.Data) : EnvWorld :=
  { w with objects := Function.update w.objects kind (w.objects kind ++ [(name,data)]) }

theorem collect_answered {kind : ObjectKind} (name : String) (data : Except String kind.Data) :
    collect ((w.answered kind name data).objects kind) = collectOne (collect (w.objects kind)) (name,data) := by
  rw [← collect_concat]
  exact congrArg collect (Function.update_self kind _ w.objects)

/-- What the loop over references comes to. -/
def Loaded (container : ContainerSpec) {kind : ObjectKind} (w w' : EnvWorld) (refs : List (String × Bool)) :
    Except KubeletError (HashMap String kind.Data) → Prop
  | .error e => Unfetched container w' e
  | .ok objects => objects = collect (w'.objects kind) ∧
      (∀ name, ((collect (w.objects kind)).lookup name).isSome → (objects.lookup name).isSome) ∧
      ∀ name, (name,false) ∈ refs → (objects.lookup name).isSome

theorem Loaded.cons {kind : ObjectKind} {w₁ w' : EnvWorld} {refs : List (String × Bool)} {ref : String × Bool}
    {r : Except KubeletError (HashMap String kind.Data)} (h : Loaded container w₁ w' refs r)
    (hkept : ∀ name, ((collect (w.objects kind)).lookup name).isSome → ((collect (w₁.objects kind)).lookup name).isSome)
    (href : ref.2 = false → ((collect (w₁.objects kind)).lookup ref.1).isSome) : Loaded container w w' (ref :: refs) r := by
  cases r with
  | error e => exact h
  | ok objects =>
    obtain ⟨hobjects,hkept₁,hall⟩ := h
    refine ⟨hobjects,fun name hname => hkept₁ name (hkept name hname),fun name hname => ?_⟩
    rcases List.mem_cons.mp hname with rfl | hname
    · exact hkept₁ name (href rfl)
    · exact hall name hname

/-- The loop over the references to objects of one kind. -/
theorem meets_loadObjects {kind : ObjectKind} (refs : List (String × Bool)) (hrefs : ∀ ref ∈ refs, ref ∈ references kind container) :
    (loadObjects kind base.pod.podRef.ns refs (collect (w.objects kind))).Meets (resolving base container links) (fun r w' =>
      (∃ answers, w' = { w with objects := Function.update w.objects kind answers }) ∧ Loaded container w w' refs r) w := by
  induction refs generalizing w with
  | nil => exact ⟨⟨w.objects kind,by simp⟩,rfl,fun _ h => h,by simp⟩
  | cons ref refs ih =>
    obtain ⟨name,optional⟩ := ref
    obtain ⟨href,hrest⟩ := List.forall_mem_cons.mp hrefs
    rw [loadObjects]
    split
    · next hthere => exact (ih hrest).mono fun r w' h => ⟨h.1,h.2.cons (fun _ h => h) (fun _ => hthere)⟩
    · next hmissing =>
      have hnone : (collect (w.objects kind)).lookup name = none := Option.not_isSome_iff_eq_none.mp hmissing
      rw [Program.meets_bind,meets_getObject]
      refine ⟨⟨rfl,List.mem_map.mpr ⟨_,href,rfl⟩,hnone⟩,fun data => ?_⟩
      -- the rest of the loop starts with one more answer
      have hgoes : (loadObjects kind base.pod.podRef.ns refs (collect ((w.answered kind name data).objects kind))).Meets
          (resolving base container links) (fun r w' =>
            (∃ answers, w' = { w with objects := Function.update w.objects kind answers }) ∧
              Loaded container (w.answered kind name data) w' refs r) (w.answered kind name data) := by
        refine (ih (w := w.answered kind name data) hrest).mono ?_
        rintro r w' ⟨⟨answers,hw⟩,hr⟩
        refine ⟨⟨answers,?_⟩,hr⟩
        simpa [EnvWorld.answered] using hw
      rw [collect_answered] at hgoes
      cases data with
      | ok data =>
        refine hgoes.mono fun r w' h => ⟨h.1,h.2.cons (fun other hother => ?_) (fun _ => ?_)⟩
        · rw [collect_answered]
          by_cases heq : other = name
          · subst heq
            simp [collectOne]
          · simpa [collectOne,AList.lookup_insert_ne heq] using hother
        · simp [collect_answered,collectOne]
      | error err =>
        cases optional with
        | true =>
          refine hgoes.mono fun r w' h => ⟨h.1,h.2.cons (fun other hother => ?_) (fun hfalse => by cases hfalse)⟩
          rw [collect_answered]
          exact hother
        | false =>
          refine ⟨⟨_,rfl⟩,?_⟩
          have hlast : ((w.answered kind name (.error err)).objects kind).getLast? = some (name,.error err) := by
            simp [EnvWorld.answered]
          have hstill : (collect ((w.answered kind name (.error err)).objects kind)).lookup name = none := by
            rw [collect_answered]
            exact hnone
          exact .failed href hlast hstill

theorem meets_loadServiceEnvVars (hservices : w.services = none) :
    (loadServiceEnvVars base.order base.pod (links.getD true)).Meets (resolving base container links) (fun env w' =>
      env = w'.serviceEnvs base.order ∧ w' = { w with kubernetes := w'.kubernetes, services := w'.services }) w := by
  rw [loadServiceEnvVars,Program.meets_bind,meets_getService]
  refine ⟨⟨rfl,rfl⟩,fun kubernetes => ?_⟩
  dsimp only
  split
  · next hlinks =>
    rw [Program.meets_bind,meets_listServices]
    exact ⟨⟨hlinks,rfl⟩,fun services => ⟨rfl,rfl⟩⟩
  · exact ⟨by simp [EnvWorld.serviceEnvs,hservices],rfl⟩

/-- Either something is not fetched, or the environment is assembled from all that is required. -/
def Resolved (base : EnvInputs) (container : ContainerSpec) (r : Except EnvStop (List (String × String) × List LogRecord))
    (w : EnvWorld) : Prop :=
  (∃ e, r = .error (.failed e) ∧ Unfetched container w e) ∨
    Fetched container w ∧ r = (w.inputs base).assembleContainerEnv container

theorem meets_resolveContainerEnv (base : EnvInputs) (container : ContainerSpec) (links : Option Bool) :
    (resolveContainerEnv base container links).Meets (resolving base container links) (Resolved base container) {} := by
  have hrefs (kind : ObjectKind) : ∀ ref ∈ references kind container, ref ∈ references kind container := fun _ h => h
  rw [resolveContainerEnv,Program.meets_bind,meets_kubeClient]
  intro client
  split
  · next hneeds =>
    simp only [Bool.and_eq_true,Bool.or_eq_true,Bool.not_eq_true'] at hneeds
    refine .inl ⟨noClient,rfl,.noClient hneeds.2 ?_⟩
    rcases hneeds.1 with h | h
    · exact ⟨.configMap,h⟩
    · exact ⟨.secret,h⟩
  · rw [Program.meets_bind]
    refine (meets_loadObjects (w := { client := client }) (references .configMap container) (hrefs .configMap)).mono ?_
    rintro configmaps w₁ ⟨⟨configMapAnswers,hw₁⟩,hconfigmaps⟩
    cases configmaps with
    | error e => exact .inl ⟨e,rfl,hconfigmaps⟩
    | ok configmaps =>
      obtain ⟨hcollected,-,hrequired⟩ := hconfigmaps
      have hnone : collect (w₁.objects .secret) = ∅ := by rw [hw₁]; rfl
      rw [Program.meets_bind,loadContainerSecrets,← hnone]
      refine (meets_loadObjects (references .secret container) (hrefs .secret)).mono ?_
      rintro secrets w₂ ⟨⟨secretAnswers,hw₂⟩,hsecrets⟩
      cases secrets with
      | error e => exact .inl ⟨e,rfl,hsecrets⟩
      | ok secrets =>
        obtain ⟨hcollected₂,-,hrequired₂⟩ := hsecrets
        have hsame : w₂.objects .configMap = w₁.objects .configMap := by
          rw [hw₂]
          rfl
        have hfetched : Fetched container w₂ := by
          intro kind name hname
          cases kind with
          | configMap =>
            rw [hsame,← hcollected]
            exact hrequired name hname
          | secret =>
            rw [← hcollected₂]
            exact hrequired₂ name hname
        have hservices : (if client = true then loadServiceEnvVars base.order base.pod (links.getD true) else pure ∅).Meets
            (resolving base container links) (fun env w' => env = w'.serviceEnvs base.order ∧
              w' = { w₂ with kubernetes := w'.kubernetes, services := w'.services }) w₂ := by
          split
          · exact meets_loadServiceEnvVars (by rw [hw₂,hw₁])
          · exact ⟨by simp [EnvWorld.serviceEnvs,hw₂,hw₁],rfl⟩
        rw [Program.meets_bind]
        refine hservices.mono ?_
        rintro serviceEnvs w₃ ⟨hserviceEnvs,hw₃⟩
        have hobjects : w₃.objects = w₂.objects := by rw [hw₃]
        refine .inr ⟨fun kind name hname => ?_,?_⟩
        · rw [hobjects]
          exact hfetched kind name hname
        · simp only [EnvWorld.inputs,hobjects,hsame,hserviceEnvs,hcollected,hcollected₂]

/-! ## What the environment has -/

/-- What the variables of the services say, the API server first and then the services as they are listed. -/
def EnvWorld.serviceVar (w : EnvWorld) (n : String) : Option String :=
  let kubernetes := match w.kubernetes with
    | some (.ok service) => (serviceEnvVarsFromService service).lookup n
    | _ => none
  kubernetes.or (match w.services with
    | some (.ok services) => services.findSome? fun service => (serviceEnvVarsFromService service).lookup n
    | _ => none)

/-- The entry for a name among those of a list, the first one. -/
def entryFor (n : String) (l : List (String × String)) : Option String := l.findSome? fun p => if n = p.1 then some p.2 else none

theorem entryFor_pairs (order : MapOrder) (m : HashMap String String) (n : String) : entryFor n (order.pairs m) = m.lookup n := by
  have hsound {v : String} (h : entryFor n (order.pairs m) = some v) : m.lookup n = some v := by
    obtain ⟨p,hp,hv⟩ := List.exists_of_findSome?_eq_some h
    split at hv
    · next hn =>
      subst hn
      obtain rfl := Option.some.inj hv
      exact mem_pairs.mp hp
    · cases hv
  cases hfound : entryFor n (order.pairs m) with
  | some v => exact (hsound hfound).symm
  | none =>
    cases hlookup : m.lookup n with
    | none => rfl
    | some v =>
      have hno := List.findSome?_eq_none_iff.mp hfound (n,v) (mem_pairs.mpr hlookup)
      simp at hno

theorem lookup_orInsert (env : HashMap String String) (p : String × String) (n : String) :
    (orInsert env p).lookup n = (env.lookup n).or (if n = p.1 then some p.2 else none) := by
  obtain ⟨k,v⟩ := p
  simp only [orInsert]
  split
  · next hthere =>
    by_cases hn : n = k
    · subst hn
      obtain ⟨x,hx⟩ := Option.isSome_iff_exists.mp hthere
      simp [hx]
    · simp [hn]
  · next hmissing =>
    have hnone : env.lookup k = none := Option.not_isSome_iff_eq_none.mp hmissing
    by_cases hn : n = k
    · subst hn
      simp [hnone]
    · simp [hn,AList.lookup_insert_ne hn]

theorem lookup_foldl_orInsert (l : List (String × String)) (env : HashMap String String) (n : String) :
    (l.foldl orInsert env).lookup n = (env.lookup n).or (entryFor n l) := by
  induction l generalizing env with
  | nil => simp [entryFor]
  | cons p l ih =>
    rw [List.foldl_cons,ih,lookup_orInsert,Option.or_assoc]
    by_cases hn : n = p.1 <;> simp [entryFor,hn]

/-- Services only add to what is there. -/
theorem lookup_withServices (order : MapOrder) (services : List Service) (env : HashMap String String) (n : String) :
    (services.foldl (addService order) env).lookup n =
      (env.lookup n).or (services.findSome? fun service => (serviceEnvVarsFromService service).lookup n) := by
  induction services generalizing env with
  | nil => simp
  | cons service services ih =>
    rw [List.foldl_cons,ih,addService,lookup_foldl_orInsert,entryFor_pairs,Option.or_assoc]
    cases hservice : (serviceEnvVarsFromService service).lookup n <;> simp [hservice]

theorem lookup_kubernetesEnvs (order : MapOrder) (service : Service) (n : String) :
    (kubernetesEnvs order (.ok service)).lookup n = (serviceEnvVarsFromService service).lookup n := by
  refine Option.ext fun v => ?_
  simp only [kubernetesEnvs]
  rw [lookup_insertAll (nodup_pairs _)]
  simp only [String.empty_append,exists_eq_left',mem_pairs]
  refine ⟨?_,.inl⟩
  rintro (h | ⟨-,h⟩)
  · exact h
  · cases h

theorem lookup_serviceEnvs (order : MapOrder) (w : EnvWorld) (n : String) : (w.serviceEnvs order).lookup n = w.serviceVar n := by
  have hkubernetes : (match w.kubernetes with
      | some kubernetes => kubernetesEnvs order kubernetes
      | none => ∅).lookup n = match w.kubernetes with
      | some (.ok service) => (serviceEnvVarsFromService service).lookup n
      | _ => none := by
    rcases w.kubernetes with _ | kubernetes
    · rfl
    · cases kubernetes with
      | ok service => exact lookup_kubernetesEnvs order service n
      | error err => rfl
  simp only [EnvWorld.serviceEnvs,EnvWorld.serviceVar,← hkubernetes]
  rcases w.services with _ | services
  · simp
  · cases services with
    | ok services => exact lookup_withServices order services _ n
    | error err => simp [withServices]

end Calls

section Assembly
variable {base inputs : EnvInputs} {container : ContainerSpec} {w : EnvWorld}

/-- The container sets a variable itself, by an entry or with the objects it takes over whole. -/
def Sets (inputs : EnvInputs) (container : ContainerSpec) (n : String) : Prop :=
  n ∈ container.env.map (·.name) ∨ n ∈ (container.envFrom.flatMap inputs.definitionsFrom).map Prod.fst

theorem Fetched.not_fromMissing (h : Fetched container w) (base : EnvInputs) : ∀ envFrom ∈ container.envFrom,
    ¬FromMissing (w.inputs base).configmaps (w.inputs base).secrets envFrom := by
  intro envFrom henvFrom hmissing
  rcases hmissing with ⟨ref,href,hlookup,hrequired⟩ | ⟨ref,href,hlookup,hrequired⟩
  · have hname : Required container .configMap ref.name :=
      List.mem_append_left _ (List.mem_filterMap.mpr ⟨envFrom,henvFrom,by simp [href,hrequired]⟩)
    have hthere := h .configMap ref.name hname
    rw [show (collect (w.objects .configMap)).lookup ref.name = none from hlookup] at hthere
    cases hthere
  · have hname : Required container .secret ref.name :=
      List.mem_append_left _ (List.mem_filterMap.mpr ⟨envFrom,henvFrom,by simp [href,hrequired]⟩)
    have hthere := h .secret ref.name hname
    rw [show (collect (w.objects .secret)).lookup ref.name = none from hlookup] at hthere
    cases hthere

theorem varMissing_of_error {envVar : EnvVar} {source : EnvVarSource} {e : KubeletError} (hvalue : envVar.value = none)
    (hsource : envVar.valueFrom = some source)
    (h : resolveEnvVarSource inputs.host inputs.pod container inputs.podIp source inputs.configmaps inputs.secrets = .error e) :
    VarMissing inputs.configmaps inputs.secrets envVar := by
  have hunfound : Unfound inputs.configmaps inputs.secrets source := by
    by_contra hfound
    obtain ⟨value,hok⟩ := resolve_found container hfound
    rw [hok] at h
    cases h
  refine ⟨hvalue,source,hsource,hunfound,fun hoptional => ?_⟩
  rw [(resolve_unfound container hunfound).1 hoptional] at h
  cases h

/-- What the entries of a container come to, from the map they start with. -/
def Outcome (inputs : EnvInputs) (vars : List EnvVar) (env : HashMap String String) : Except EnvStop Assembly → Prop
  | .ok a => ∀ n, n ∉ vars.map (·.name) → a.env.lookup n = env.lookup n
  | .error (.failed _) => ∃ envVar ∈ vars, VarMissing inputs.configmaps inputs.secrets envVar
  | .error .panicked => ∃ envVar ∈ vars, ¬Expandable envVar

theorem valueOf_error {env : HashMap String String} {envVar : EnvVar} {stop : EnvStop}
    (h : inputs.valueOf container env envVar = .error stop) : match stop with
      | .failed _ => VarMissing inputs.configmaps inputs.secrets envVar
      | .panicked => ¬Expandable envVar := by
  simp only [EnvInputs.valueOf] at h
  split at h
  · next rawValue hvalue =>
    split at h
    · cases h
    · next hpanics =>
      obtain rfl := Except.error.inj h
      obtain ⟨c,hc,hwide⟩ := (expandEnvValue_eq_none_iff rawValue env).mp hpanics
      exact fun hexpandable => hwide (hexpandable rawValue hvalue c hc)
  · next hvalue =>
    split at h
    · next source hsource =>
      cases hresolve : resolveEnvVarSource inputs.host inputs.pod container inputs.podIp source inputs.configmaps inputs.secrets with
      | ok value =>
        rw [hresolve] at h
        cases h
      | error e =>
        rw [hresolve] at h
        obtain rfl := Except.error.inj h
        exact varMissing_of_error hvalue hsource hresolve
    · cases h

theorem outcome_foldlM (vars : List EnvVar) (a : Assembly) :
    Outcome inputs vars a.env (vars.foldlM (inputs.insertVar container) a) := by
  induction vars generalizing a with
  | nil => exact fun n _ => rfl
  | cons envVar vars ih =>
    rw [List.foldlM_cons]
    cases hvalue : inputs.valueOf container a.env envVar with
    | error stop =>
      have hstop := valueOf_error hvalue
      have hinsert : inputs.insertVar container a envVar = .error stop := by rw [EnvInputs.insertVar,hvalue]; rfl
      rw [hinsert]
      cases stop with
      | failed e => exact ⟨envVar,List.mem_cons_self,hstop⟩
      | panicked => exact ⟨envVar,List.mem_cons_self,hstop⟩
    | ok value =>
      rw [insertVar_of_valueOf hvalue]
      have hrest := ih { env := a.env.insert envVar.name value, log := a.log ++ [.resolved container.name envVar.name value] }
      change Outcome inputs (envVar :: vars) a.env (vars.foldlM _ _)
      revert hrest
      generalize vars.foldlM (inputs.insertVar container) _ = r
      intro hrest
      rcases r with stop | a'
      · cases stop with
        | failed e =>
          obtain ⟨v,hv,hmissing⟩ := hrest
          exact ⟨v,List.mem_cons_of_mem _ hv,hmissing⟩
        | panicked =>
          obtain ⟨v,hv,hpanics⟩ := hrest
          exact ⟨v,List.mem_cons_of_mem _ hv,hpanics⟩
      · intro n hn
        rw [List.map_cons,List.mem_cons,not_or] at hn
        rw [hrest n hn.2,AList.lookup_insert_ne hn.1]

/-- What a container gets. -/
def Environment (base : EnvInputs) (container : ContainerSpec) (w : EnvWorld) :
    Except EnvStop (List (String × String) × List LogRecord) → Prop
  | .error (.failed e) => Unfetched container w e ∨
      ∃ envVar ∈ container.env, VarMissing (w.inputs base).configmaps (w.inputs base).secrets envVar
  | .error .panicked => ∃ envVar ∈ container.env, ¬Expandable envVar
  | .ok (env,_) => Fetched container w ∧
      (∀ envVar ∈ container.env, Expandable envVar ∧ ¬VarMissing (w.inputs base).configmaps (w.inputs base).secrets envVar) ∧
      ∀ n, ¬Sets (w.inputs base) container n → ∀ v, (n,v) ∈ env ↔
        (w.serviceVar n).or (if n = "HOSTNAME" then some base.pod.effectiveHostname else none) = some v

theorem lookup_defined_append {ds es : List (String × String)} {n : String} (h : n ∉ es.map Prod.fst) :
    (defined (ds ++ es)).lookup n = (defined ds).lookup n := by
  have hnone : es.reverse.find? (fun d => d.1 = n) = none := by
    refine List.find?_eq_none.mpr fun d hd => ?_
    simp only [decide_eq_true_eq]
    rintro rfl
    exact h (List.mem_map_of_mem (List.mem_reverse.mp hd))
  rw [lookup_defined,lookup_defined,List.reverse_append,List.find?_append,hnone,Option.none_or]

theorem lookup_withHostname (env : HashMap String String) (n : String) : (inputs.withHostname env).lookup n =
    (env.lookup n).or (if n = "HOSTNAME" then some inputs.pod.effectiveHostname else none) := by
  have hinsert := lookup_orInsert env ("HOSTNAME",inputs.pod.effectiveHostname) n
  exact hinsert

theorem environment_of_fetched (h : Fetched container w) :
    Environment base container w ((w.inputs base).assembleContainerEnv container) := by
  obtain ⟨env,henv,hsame⟩ := EnvInputs.base_ok (w.inputs base) (h.not_fromMissing base)
  have hassemble : (w.inputs base).assembleVars container container.env =
      container.env.foldlM ((w.inputs base).insertVar container) { env := env } := by
    rw [EnvInputs.assembleVars,henv]
    rfl
  have houtcome : Outcome (w.inputs base) container.env env
      (container.env.foldlM ((w.inputs base).insertVar container) { env := env }) := outcome_foldlM container.env { env := env }
  have hends : (∃ b, container.env.foldlM ((w.inputs base).insertVar container) { env := env } = .ok b) ↔
      ∀ e ∈ container.env, Expandable e ∧ ¬VarMissing (w.inputs base).configmaps (w.inputs base).secrets e :=
    foldlM_insertVar_ok_iff container.env { env := env }
  rw [EnvInputs.assembleContainerEnv,hassemble]
  revert houtcome hends
  generalize container.env.foldlM ((w.inputs base).insertVar container) { env := env } = r
  intro houtcome hends
  rcases r with stop | a
  · cases stop with
    | failed e => exact .inr houtcome
    | panicked => exact houtcome
  · refine ⟨h,hends.mp ⟨a,rfl⟩,fun n hn v => ?_⟩
    obtain ⟨hvar,hfrom⟩ := not_or.mp hn
    have hbase : env.lookup n = w.serviceVar n := by
      rw [hsame n,EnvInputs.baseDefinitions,lookup_defined_append hfrom,← defined_stored _ n]
      exact lookup_serviceEnvs base.order w n
    have hall : ((w.inputs base).withHostname a.env).lookup n =
        (w.serviceVar n).or (if n = "HOSTNAME" then some base.pod.effectiveHostname else none) := by
      rw [lookup_withHostname,houtcome n hvar,hbase]
      rfl
    rw [← hall]
    exact mem_pairs

/-- Whatever the API server answers: only objects that the container refers to are fetched, from the
namespace of the pod and until they are there, and the services are listed only for pods that ask for
links. Nothing comes out if something that is required is not fetched, if a key that is required is not
in what was fetched, or if a value cannot be expanded, and only then. Else where the container itself says
nothing a variable is that of the API server, or of the first service that has it, or the host name. -/
theorem env_resolved (base : EnvInputs) (container : ContainerSpec) (enableServiceLinks : Option Bool) :
    (resolveContainerEnv base container enableServiceLinks).Meets (resolving base container enableServiceLinks)
      (fun r w => Environment base container w r) {} := by
  refine (meets_resolveContainerEnv base container enableServiceLinks).mono ?_
  rintro r w (⟨e,rfl,hunfetched⟩ | ⟨hfetched,rfl⟩)
  · exact .inl hunfetched
  · exact environment_of_fetched hfetched

end Assembly
end KubeAir.Worker.ContainerEnv
