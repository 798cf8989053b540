import KubeAir.Adapters.PodWatch
import KubeAir.Cri.SecurityContext
import KubeAir.Worker.CreatedConfig

/-! # Security settings on their way to the runtime

The settings that are in effect for a container of an API pod, and the request that creates it in
every run of `start_container`.
-/
namespace KubeAir.Worker.EffectiveSecurity
open Core Transition Program Routine Adapters Cri

/-- A container of an API pod. Init containers are containers. -/
inductive ApiContainer
  | container (c : K8sContainer)
  | ephemeral (c : K8sEphemeralContainer)

def ApiContainer.securityContext : ApiContainer → Option K8sSecurityContext
  | .container c => c.securityContext
  | .ephemeral c => c.securityContext

def ApiContainer.toSpec : ApiContainer → ContainerSpec
  | .container c => k8sContainerToSpec c
  | .ephemeral c => k8sEphemeralContainerToSpec c

abbrev ApiPod := K8sPod K8sContainer K8sEphemeralContainer
abbrev ApiPodSpec := K8sPodSpec K8sContainer K8sEphemeralContainer

/-- The settings in effect: those of the container before those of the pod. -/
structure Effective where
  user : Option ℤ
  group : Option ℤ
  /-- `fsGroup` and the supplemental groups -/
  groups : List ℤ
  nonRoot : Option Bool
  privileged : Bool
  readOnlyRoot : Bool
  escalation : Option Bool
  added : List String
  dropped : List String
  seccomp : Option ProfileSpec
  appArmor : Option ProfileSpec
  hostNetwork : Bool
  hostPid : Bool
  hostIpc : Bool

def effective (ps : ApiPodSpec) (sc : Option K8sSecurityContext) : Effective :=
  let pod := ps.securityContext
  let capabilities := sc.bind (·.capabilities)
  { user := (sc.bind (·.runAsUser)).or (pod.bind (·.runAsUser))
    group := (sc.bind (·.runAsGroup)).or (pod.bind (·.runAsGroup))
    groups := (pod.bind (·.fsGroup)).toList ++ (pod.bind (·.supplementalGroups)).getD []
    nonRoot := (sc.bind (·.runAsNonRoot)).or (pod.bind (·.runAsNonRoot))
    privileged := (sc.bind (·.privileged)).getD false
    readOnlyRoot := (sc.bind (·.readOnlyRootFilesystem)).getD false
    escalation := sc.bind (·.allowPrivilegeEscalation)
    added := (capabilities.bind (·.add)).getD []
    dropped := (capabilities.bind (·.drop)).getD []
    seccomp := (sc.bind (·.seccompProfile)).or (pod.bind (·.seccompProfile))
    appArmor := (sc.bind (·.appArmorProfile)).or (pod.bind (·.appArmorProfile))
    hostNetwork := ps.hostNetwork.getD false
    hostPid := ps.hostPid.getD false
    hostIpc := ps.hostIpc.getD false }

/-- The types of profiles that there are. -/
def profileTypeOf : String → Option SecurityProfileType
  | "RuntimeDefault" => some .runtimeDefault
  | "Unconfined" => some .unconfined
  | "Localhost" => some .localhost
  | _ => none

/-- A profile is sent with its type and its path, and none is sent where there is none. -/
def ProfileCarried (profile : Option ProfileSpec) (sent : Option SecurityProfile) : Prop :=
  match profile with
  | none => sent = none
  | some p => ∃ type, profileTypeOf p.type = some type ∧ sent = some ⟨type,p.localhostProfile.getD ""⟩

/-- The security context has the settings. -/
structure Carries (e : Effective) (ctx : LinuxContainerSecurityContext) : Prop where
  user : ctx.runAsUser = e.user
  group : ctx.runAsGroup = e.group
  groups : ∀ g, g ∈ ctx.supplementalGroups ↔ g ∈ e.groups
  privileged : ctx.privileged = e.privileged
  readOnlyRoot : ctx.readonlyRootfs = e.readOnlyRoot
  noNewPrivs : ctx.noNewPrivs = true ↔ e.escalation = some false
  added : (ctx.capabilities.map (·.addCapabilities)).getD [] = e.added
  dropped : (ctx.capabilities.map (·.dropCapabilities)).getD [] = e.dropped
  seccomp : ProfileCarried e.seccomp ctx.seccomp
  appArmor : ProfileCarried e.appArmor ctx.apparmor
  namespaces : ∃ ns, ctx.namespaceOptions = some ns ∧ (ns.network = .node ↔ e.hostNetwork = true) ∧
    (ns.pid = .node ↔ e.hostPid = true) ∧ (ns.ipc = .node ↔ e.hostIpc = true)

/-- The request has a context with the settings, in a sandbox that is privileged with the container. -/
def RequestCarries (e : Effective) (req : CreateContainerRequest) : Prop :=
  (∃ ctx, req.securityContext = some ctx ∧ Carries e ctx) ∧
    (req.sandboxSecurityContext.map (·.privileged)).getD false = e.privileged

/-- In every run of `start_container`, whatever the runtime answers, the settings are in the request,
and a container that must not run as root is not started with user 0. -/
structure Secured (pod : PodSpec) (ctr : ContainerSpec) (e : Effective) : Prop where
  carried : ∀ sandboxId st, (startContainer pod ctr sandboxId st).Uses
    (Request.Creates fun config => RequestCarries e (createContainerRequest config))
  rootless : e.nonRoot = some true → e.user = some 0 →
    ∀ sandboxId st, (startContainer pod ctr sandboxId st).Uses Request.StartsNothing

def FitsU32 (n : ℤ) : Prop := 0 ≤ n ∧ n < 2 ^ 32

/-- The settings that reach the runtime: IDs of 32 bits, known seccomp types, no AppArmor profile, no
namespace of the host; and the container may run as its user. -/
structure Fits (e : Effective) : Prop where
  user : ∀ u, e.user = some u → FitsU32 u
  group : ∀ g, e.group = some g → FitsU32 g
  groups : ∀ g ∈ e.groups, FitsU32 g
  seccomp : ∀ p, e.seccomp = some p → (profileTypeOf p.type).isSome = true
  appArmor : e.appArmor = none
  hostNetwork : e.hostNetwork = false
  hostPid : e.hostPid = false
  hostIpc : e.hostIpc = false
  rootless : ¬(e.nonRoot = some true ∧ e.user = some 0)

/-! ## IDs -/

/-- An ID after the way through 32 bits. -/
def castId (n : ℤ) : ℤ := ((asU32 n).toNat : ℤ)

theorem castId_eq (n : ℤ) : castId n = n % 2 ^ 32 := by
  have hnonneg : 0 ≤ n % 2 ^ 32 := Int.emod_nonneg n (by decide)
  have hlt : n % 2 ^ 32 < 2 ^ 32 := Int.emod_lt_of_pos n (by decide)
  unfold castId asU32
  rw [UInt32.toNat_ofNat',Nat.mod_eq_of_lt (by omega),Int.toNat_of_nonneg hnonneg]

theorem castId_fits (n : ℤ) : FitsU32 (castId n) := by
  rw [castId_eq]
  exact ⟨Int.emod_nonneg n (by decide),Int.emod_lt_of_pos n (by decide)⟩

theorem castId_eq_self_iff {n : ℤ} : castId n = n ↔ FitsU32 n := by
  constructor
  · intro h
    rw [← h]
    exact castId_fits n
  · rintro ⟨hnonneg,hlt⟩
    rw [castId_eq,Int.emod_eq_of_lt hnonneg hlt]

theorem map_castId_eq_iff {o : Option ℤ} : o.map castId = o ↔ ∀ n, o = some n → FitsU32 n := by
  cases o with
  | none => simp
  | some n =>
    rw [Option.map_some,Option.some.injEq,castId_eq_self_iff]
    constructor
    · intro h m hm
      exact Option.some.inj hm ▸ h
    · exact fun h => h n rfl

/-- The IDs are the same as before exactly where all of them fit. -/
theorem mem_map_castId_iff {l : List ℤ} : (∀ n, n ∈ l.map castId ↔ n ∈ l) ↔ ∀ n ∈ l, FitsU32 n := by
  constructor
  · intro h n hn
    obtain ⟨m,-,rfl⟩ := List.mem_map.mp ((h n).mpr hn)
    exact castId_fits m
  · intro h
    have hmap : l.map castId = l := by
      conv_rhs => rw [← List.map_id l]
      exact List.map_congr_left fun n hn => castId_eq_self_iff.mpr (h n hn)
    rw [hmap]
    exact fun n => Iff.rfl

/-! ## The settings that are sent -/

section fields
variable {ps : ApiPodSpec} {sc : Option K8sSecurityContext}

/-- The context that is sent for a container of the pod. -/
def sent (ps : ApiPodSpec) (sc : Option K8sSecurityContext) : LinuxContainerSecurityContext :=
  buildSecurityContext (buildContainerSecurity (sc.map (·.toSpec)) (ps.securityContext.map (·.toSpec)))
    (ps.shareProcessNamespace.getD false)

/-- An ID of the container before that of the pod, both cut to 32 bits. -/
theorem or_castId {A B : Type} (ctr : Option A) (pod : Option B) (f : A → Option ℤ) (g : B → Option ℤ) :
    ((ctr.bind fun a => (f a).map asU32).or (pod.bind fun b => (g b).map asU32)).map (fun u => (u.toNat : ℤ)) =
      ((ctr.bind f).or (pod.bind g)).map castId := by
  have hbind : ∀ {A : Type} (o : Option A) (f : A → Option ℤ), (o.bind fun a => (f a).map asU32) = (o.bind f).map asU32 := by
    intro A o f
    cases o <;> rfl
  rw [hbind,hbind]
  cases ctr.bind f <;> cases pod.bind g <;> rfl

theorem sent_user : (sent ps sc).runAsUser = (effective ps sc).user.map castId := by
  unfold sent buildSecurityContext buildContainerSecurity effective
  dsimp only
  rw [Option.bind_map,Option.bind_map]
  exact or_castId sc ps.securityContext (·.runAsUser) (·.runAsUser)

theorem sent_group : (sent ps sc).runAsGroup = (effective ps sc).group.map castId := by
  unfold sent buildSecurityContext buildContainerSecurity effective
  dsimp only
  rw [Option.bind_map,Option.bind_map]
  exact or_castId sc ps.securityContext (·.runAsGroup) (·.runAsGroup)

theorem mem_sent_groups {g : ℤ} :
    g ∈ (sent ps sc).supplementalGroups ↔ g ∈ (effective ps sc).groups.map castId := by
  unfold sent buildSecurityContext buildContainerSecurity effective
  cases ps.securityContext with
  | none => simp
  | some pod =>
    simp only [Option.map_some,Option.getD_some,Option.bind_some,List.mem_map,mem_supplementalGroups,List.mem_append,
      Option.mem_toList,K8sPodSecurityContext.toSpec,Option.map_eq_some_iff]
    constructor
    · rintro ⟨x,⟨n,hn,rfl⟩ | ⟨n,hn,rfl⟩,rfl⟩
      · exact ⟨n,Or.inl hn,rfl⟩
      · exact ⟨n,Or.inr hn,rfl⟩
    · rintro ⟨n,hn | hn,rfl⟩
      · exact ⟨asU32 n,Or.inl ⟨n,hn,rfl⟩,rfl⟩
      · exact ⟨asU32 n,Or.inr ⟨n,hn,rfl⟩,rfl⟩

theorem sent_privileged : (sent ps sc).privileged = (effective ps sc).privileged := by
  cases sc <;> rfl

theorem sent_readOnlyRoot : (sent ps sc).readonlyRootfs = (effective ps sc).readOnlyRoot := by
  cases sc <;> rfl

theorem sent_noNewPrivs : (sent ps sc).noNewPrivs = true ↔ (effective ps sc).escalation = some false := by
  unfold sent buildSecurityContext buildContainerSecurity effective
  cases sc with
  | none => simp
  | some sc =>
    simp only [Option.map_some,Option.bind_some,K8sSecurityContext.toSpec]
    cases sc.allowPrivilegeEscalation with
    | none => simp
    | some allow => cases allow <;> simp

theorem sent_capabilities :
    ((sent ps sc).capabilities.map (·.addCapabilities)).getD [] = (effective ps sc).added ∧
      ((sent ps sc).capabilities.map (·.dropCapabilities)).getD [] = (effective ps sc).dropped := by
  have hsecurity : ∀ (security : LinuxContainerSecurity) (share : Bool),
      ((buildSecurityContext security share).capabilities.map (·.addCapabilities)).getD [] = security.capabilitiesAdd ∧
        ((buildSecurityContext security share).capabilities.map (·.dropCapabilities)).getD [] =
          security.capabilitiesDrop := by
    intro security share
    unfold buildSecurityContext
    dsimp only
    split
    · exact ⟨rfl,rfl⟩
    · rename_i h
      obtain ⟨hadd,hdrop⟩ := not_or.mp h
      rw [not_not.mp hadd,not_not.mp hdrop]
      exact ⟨rfl,rfl⟩
  unfold sent
  rw [(hsecurity _ _).1,(hsecurity _ _).2]
  cases sc with
  | none => exact ⟨rfl,rfl⟩
  | some sc =>
    unfold buildContainerSecurity effective
    simp only [Option.map_some,Option.bind_some,K8sSecurityContext.toSpec]
    cases sc.capabilities <;> exact ⟨rfl,rfl⟩

theorem sent_seccomp : (sent ps sc).seccomp = (effective ps sc).seccomp.map fun p =>
    { profileType :=
        match p.type with
        | "Unconfined" => .unconfined
        | "Localhost" => .localhost
        | _ => .runtimeDefault
      localhostRef := p.localhostProfile.getD "" } := by
  have hseccomp : (sc.map (·.toSpec)).bind (·.seccompProfile) = sc.bind (·.seccompProfile) := by
    cases sc <;> rfl
  have hpod : (ps.securityContext.map (·.toSpec)).bind (·.seccompProfile) = ps.securityContext.bind (·.seccompProfile) := by
    cases ps.securityContext <;> rfl
  unfold sent buildSecurityContext buildContainerSecurity effective seccompProfile
  dsimp only
  rw [hseccomp,hpod]
  cases (sc.bind (·.seccompProfile)).or (ps.securityContext.bind (·.seccompProfile)) <;> rfl

theorem seccomp_carried_iff : ProfileCarried (effective ps sc).seccomp (sent ps sc).seccomp ↔
    ∀ p, (effective ps sc).seccomp = some p → (profileTypeOf p.type).isSome = true := by
  rw [sent_seccomp]
  cases (effective ps sc).seccomp with
  | none => simp [ProfileCarried]
  | some p =>
    unfold ProfileCarried
    simp only [Option.map_some,Option.some.injEq,forall_eq']
    unfold profileTypeOf
    split <;> simp_all

/-- No AppArmor profile is sent. -/
theorem appArmor_carried_iff :
    ProfileCarried (effective ps sc).appArmor (sent ps sc).apparmor ↔ (effective ps sc).appArmor = none := by
  cases (effective ps sc).appArmor with
  | none => exact iff_of_true rfl rfl
  | some p =>
    refine iff_of_false ?_ (Option.some_ne_none p)
    rintro ⟨type,-,h⟩
    cases h

/-- No namespace of the host is sent. -/
theorem namespaces_carried_iff {e : Effective} : (∃ ns, (sent ps sc).namespaceOptions = some ns ∧
    (ns.network = .node ↔ e.hostNetwork = true) ∧ (ns.pid = .node ↔ e.hostPid = true) ∧
      (ns.ipc = .node ↔ e.hostIpc = true)) ↔ e.hostNetwork = false ∧ e.hostPid = false ∧ e.hostIpc = false := by
  have hpid : pidMode (ps.shareProcessNamespace.getD false) ≠ .node := by
    cases ps.shareProcessNamespace.getD false <;> decide
  have hpod : NamespaceMode.pod ≠ .node := by decide
  constructor
  · rintro ⟨ns,h,hnetwork,hp,hipc⟩
    cases h
    refine ⟨?_,?_,?_⟩
    · exact Bool.eq_false_iff.mpr fun ht => hpod (hnetwork.mpr ht)
    · exact Bool.eq_false_iff.mpr fun ht => hpid (hp.mpr ht)
    · exact Bool.eq_false_iff.mpr fun ht => hpod (hipc.mpr ht)
  · rintro ⟨hnetwork,hp,hipc⟩
    refine ⟨_,rfl,?_,?_,?_⟩
    · rw [hnetwork]
      exact iff_of_false hpod Bool.false_ne_true
    · rw [hp]
      exact iff_of_false hpid Bool.false_ne_true
    · rw [hipc]
      exact iff_of_false hpod Bool.false_ne_true

end fields

/-- The context has the settings exactly where they fit. -/
theorem carries_iff (ps : ApiPodSpec) (sc : Option K8sSecurityContext) : Carries (effective ps sc) (sent ps sc) ∧
    ¬((effective ps sc).nonRoot = some true ∧ (effective ps sc).user = some 0) ↔ Fits (effective ps sc) := by
  have hgroups : (∀ g, g ∈ (sent ps sc).supplementalGroups ↔ g ∈ (effective ps sc).groups) ↔
      ∀ g ∈ (effective ps sc).groups, FitsU32 g := by
    simp only [mem_sent_groups]
    exact mem_map_castId_iff
  constructor
  · rintro ⟨h,hroot⟩
    obtain ⟨hnetwork,hpid,hipc⟩ := namespaces_carried_iff.mp h.namespaces
    exact
      { user := map_castId_eq_iff.mp (sent_user.symm.trans h.user)
        group := map_castId_eq_iff.mp (sent_group.symm.trans h.group)
        groups := hgroups.mp h.groups
        seccomp := seccomp_carried_iff.mp h.seccomp
        appArmor := appArmor_carried_iff.mp h.appArmor
        hostNetwork := hnetwork
        hostPid := hpid
        hostIpc := hipc
        rootless := hroot }
  · intro h
    refine ⟨?_,h.rootless⟩
    exact
      { user := sent_user.trans (map_castId_eq_iff.mpr h.user)
        group := sent_group.trans (map_castId_eq_iff.mpr h.group)
        groups := hgroups.mpr h.groups
        privileged := sent_privileged
        readOnlyRoot := sent_readOnlyRoot
        noNewPrivs := sent_noNewPrivs
        added := sent_capabilities.1
        dropped := sent_capabilities.2
        seccomp := seccomp_carried_iff.mpr h.seccomp
        appArmor := appArmor_carried_iff.mpr h.appArmor
        namespaces := namespaces_carried_iff.mpr ⟨h.hostNetwork,h.hostPid,h.hostIpc⟩ }

/-! ## Every run -/

section runs
variable {pod : ApiPod} {nodeName : String} {spec : PodSpec} {ps : ApiPodSpec} {c : ApiContainer}

theorem podToSpec_security (hspec : podToSpec k8sContainerToSpec k8sEphemeralContainerToSpec pod nodeName = some spec)
    (hps : pod.spec = some ps) :
    spec.securityContext = ps.securityContext.map (·.toSpec) ∧ spec.shareProcessNamespace = ps.shareProcessNamespace := by
  unfold podToSpec at hspec
  rw [hps] at hspec
  obtain ⟨uid,-,hspec⟩ := Option.bind_eq_some_iff.mp hspec
  obtain ⟨name,-,hspec⟩ := Option.bind_eq_some_iff.mp hspec
  dsimp only at hspec
  split at hspec
  · cases hspec
  · cases hspec
    exact ⟨rfl,rfl⟩

theorem toSpec_securityContext (c : ApiContainer) : c.toSpec.securityContext = c.securityContext.map (·.toSpec) := by
  cases c <;> rfl

/-- The request of a run carries the settings where the context does. -/
theorem requestCarries_iff (hspec : podToSpec k8sContainerToSpec k8sEphemeralContainerToSpec pod nodeName = some spec)
    (hps : pod.spec = some ps) (c : ApiContainer) (sandboxId imageId : String) (attempt : ℕ) :
    RequestCarries (effective ps c.securityContext)
      (createContainerRequest (createConfig spec c.toSpec sandboxId imageId attempt)) ↔
        Carries (effective ps c.securityContext) (sent ps c.securityContext) := by
  obtain ⟨hsecurity,hshare⟩ := podToSpec_security hspec hps
  have hsent : (createContainerRequest (createConfig spec c.toSpec sandboxId imageId attempt)).securityContext =
      some (sent ps c.securityContext) := by
    unfold createContainerRequest createConfig
    dsimp only
    rw [buildOptionalSecurityContext_eq,toSpec_securityContext,hsecurity,hshare]
    rfl
  have hsandbox : ((createContainerRequest (createConfig spec c.toSpec sandboxId imageId attempt)).sandboxSecurityContext.map
      (·.privileged)).getD false = (effective ps c.securityContext).privileged := by
    have hprivileged : (buildContainerSecurity (c.securityContext.map (·.toSpec)) (ps.securityContext.map (·.toSpec))).privileged =
        (effective ps c.securityContext).privileged := sent_privileged
    unfold createContainerRequest createConfig
    dsimp only
    rw [toSpec_securityContext,hsecurity,hprivileged]
    cases (effective ps c.securityContext).privileged <;> rfl
  unfold RequestCarries
  rw [hsent]
  constructor
  · rintro ⟨⟨ctx,hctx,h⟩,-⟩
    exact Option.some.inj hctx ▸ h
  · exact fun h => ⟨⟨_,rfl,h⟩,hsandbox⟩

/-- No security setting is lost, in every run, exactly where the settings fit. -/
theorem secured_iff (hspec : podToSpec k8sContainerToSpec k8sEphemeralContainerToSpec pod nodeName = some spec)
    (hps : pod.spec = some ps) (c : ApiContainer) :
    Secured spec c.toSpec (effective ps c.securityContext) ↔ Fits (effective ps c.securityContext) := by
  rw [← carries_iff]
  constructor
  · intro h
    obtain ⟨hcreate,-⟩ := uses_of_startContainer spec c.toSpec "" (h.carried "" {})
    refine ⟨(requestCarries_iff hspec hps c "" "" 0).mp hcreate,?_⟩
    rintro ⟨hnonRoot,huser⟩
    exact (uses_of_startContainer spec c.toSpec "" (h.rootless hnonRoot huser "" {})).2
  · rintro ⟨hcarries,hroot⟩
    refine ⟨fun sandboxId st => ?_,fun hnonRoot huser => absurd ⟨hnonRoot,huser⟩ hroot⟩
    exact creates_startContainer fun imageId => (requestCarries_iff hspec hps c sandboxId imageId _).mpr hcarries

end runs

/-! ## A container with an AppArmor profile -/

def confinedContainer : ApiContainer :=
  .container { name := "app", securityContext := some { appArmorProfile := some { type := "RuntimeDefault" } } }

def apiSpec : ApiPodSpec := {}

def apiPod : ApiPod := { metadata := { uid := some "uid-a", name := some "web" }, spec := some apiSpec }

/-- The profile is lost in every run. -/
theorem appArmor_lost : ∃ spec, podToSpec k8sContainerToSpec k8sEphemeralContainerToSpec apiPod "node" = some spec ∧
    ¬Secured spec confinedContainer.toSpec (effective apiSpec confinedContainer.securityContext) := by
  refine ⟨_,rfl,fun h => ?_⟩
  obtain ⟨⟨⟨ctx,hctx,hcarries⟩,-⟩,-⟩ := uses_of_startContainer _ _ "" (h.carried "" {})
  cases hctx
  obtain ⟨type,-,hsent⟩ := hcarries.appArmor
  cases hsent

def restrictedContainer : ApiContainer :=
  .container
    { name := "app"
      securityContext := some
        { runAsUser := some 1000
          runAsNonRoot := some true
          readOnlyRootFilesystem := some true
          allowPrivilegeEscalation := some false
          capabilities := some { add := some ["NET_BIND_SERVICE"], drop := some ["ALL"] } } }

def restrictedSpec : ApiPodSpec :=
  { securityContext := some
      { runAsUser := some 0
        runAsGroup := some 3000
        fsGroup := some 2000
        supplementalGroups := some [4000]
        seccompProfile := some { type := "RuntimeDefault" } } }

def restrictedPod : ApiPod := { metadata := { uid := some "uid-b", name := some "db" }, spec := some restrictedSpec }

/-- The user of the container, the groups and the profile of the pod are kept. -/
theorem restricted_secured : ∃ spec,
    podToSpec k8sContainerToSpec k8sEphemeralContainerToSpec restrictedPod "node" = some spec ∧
      Secured spec restrictedContainer.toSpec (effective restrictedSpec restrictedContainer.securityContext) := by
  obtain ⟨spec,hspec⟩ : ∃ spec,
      podToSpec k8sContainerToSpec k8sEphemeralContainerToSpec restrictedPod "node" = some spec := ⟨_,rfl⟩
  refine ⟨spec,hspec,(secured_iff hspec rfl restrictedContainer).mpr ?_⟩
  have hgroups : ∀ g ∈ ([2000,4000] : List ℤ), FitsU32 g := by
    unfold FitsU32
    decide
  exact
    { user := fun u hu => Option.some.inj hu ▸ ⟨by decide,by decide⟩
      group := fun g hg => Option.some.inj hg ▸ ⟨by decide,by decide⟩
      groups := hgroups
      seccomp := fun p hp => Option.some.inj hp ▸ rfl
      appArmor := rfl
      hostNetwork := rfl
      hostPid := rfl
      hostIpc := rfl
      rootless := fun h => absurd h.2 (by decide) }

end KubeAir.Worker.EffectiveSecurity
