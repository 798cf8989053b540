import KubeAir.Adapters.FileSource
import KubeAir.Adapters.PodWatch
import KubeAir.Adapters.UrlSource

/-! # Static manifests as pod objects

A manifest that the file source or the URL source accepts is a pod object with the fields of its
schema. What the source makes of it is compared with what the watcher makes of that object.
-/
namespace KubeAir.Adapters.StaticManifest
open Core

/-! ## The pod object of a manifest -/

def mountObject (m : ManifestVolumeMount) : K8sVolumeMount where
  name := m.name
  mountPath := m.mountPath
  subPath := m.subPath
  readOnly := m.readOnly

def keyObject (r : ManifestKeyRef) : K8sKeySelector where
  name := some r.name
  key := r.key
  optional := r.optional

def envSourceObject (vf : ManifestEnvVarSource) : K8sEnvVarSource where
  fieldRef := vf.fieldRef
  resourceFieldRef := vf.resourceFieldRef.map (fun r => { containerName := r.containerName, resource := r.resource })
  configMapKeyRef := vf.configMapKeyRef.map keyObject
  secretKeyRef := vf.secretKeyRef.map keyObject

def envObject (e : ManifestEnvVar) : K8sEnvVar where
  name := e.name
  value := e.value
  valueFrom := e.valueFrom.map envSourceObject

def securityObject (sc : ManifestSecurityContext) : K8sSecurityContext where
  privileged := sc.privileged
  capabilities := sc.capabilities.map (fun caps => { add := caps.add, drop := caps.drop })
  runAsUser := sc.runAsUser.map (fun u => (u.toNat : ℤ))
  runAsGroup := sc.runAsGroup.map (fun g => (g.toNat : ℤ))
  runAsNonRoot := sc.runAsNonRoot
  readOnlyRootFilesystem := sc.readOnlyRootFilesystem
  allowPrivilegeEscalation := sc.allowPrivilegeEscalation

def containerObject (c : ManifestContainer) : K8sContainer where
  name := c.name
  image := some c.image
  command := c.command
  args := c.args
  volumeMounts := c.volumeMounts.map (·.map mountObject)
  imagePullPolicy := c.imagePullPolicy
  env := c.env.map (·.map envObject)
  securityContext := c.securityContext.map securityObject

def configMapObject (cm : ManifestConfigMap) : K8sKeyedVolume where
  name := cm.name
  items := cm.items
  optional := cm.optional
  defaultMode := cm.defaultMode

def secretObject (s : ManifestSecret) : K8sKeyedVolume where
  name := s.name
  items := s.items
  optional := s.optional
  defaultMode := s.defaultMode

def tokenObject (t : ManifestServiceAccountToken) : K8sServiceAccountToken where
  audience := t.audience
  expirationSeconds := t.expirationSeconds.map (fun n => (n.toNat : ℤ))
  path := t.path

def projectionObject (s : ManifestProjectedSource) : K8sVolumeProjection where
  serviceAccountToken := s.serviceAccountToken.map tokenObject
  configMap := s.configMap.map configMapObject
  secret := s.secret.map secretObject

def volumeObject (v : ManifestVolume) : K8sVolume where
  name := v.name
  hostPath := v.hostPath.map (fun hp => { path := hp.path, type := hp.pathType })
  emptyDir := v.emptyDir.map (·.medium)
  configMap := v.configMap.map configMapObject
  secret := v.secret.map secretObject
  persistentVolumeClaim := v.persistentVolumeClaim.map (fun pvc => { claimName := pvc.claimName, readOnly := pvc.readOnly })
  projected := v.projected.map (fun p =>
    { sources := p.sources.map (·.map projectionObject), defaultMode := p.defaultMode })

def podSecurityObject (sc : ManifestPodSecurityContext) : K8sPodSecurityContext where
  runAsUser := sc.runAsUser.map (fun u => (u.toNat : ℤ))
  runAsGroup := sc.runAsGroup.map (fun g => (g.toNat : ℤ))

/-- The pod object with the fields of the manifest, and with a UID and a name where it has none. The
priority class is not read by the watcher. -/
def podObject (E : Type) (m : PodManifest) (uid name : String) : K8sPod K8sContainer E where
  metadata :=
    { uid := some (m.metadata.uid.getD uid)
      name := some (m.metadata.name.getD name)
      ns := m.metadata.ns
      annotations := m.metadata.annotations
      labels := m.metadata.labels }
  spec := some
    { nodeName := m.spec.nodeName
      containers := (m.spec.containers.getD []).map containerObject
      initContainers := m.spec.initContainers.map (·.map containerObject)
      restartPolicy := m.spec.restartPolicy
      hostNetwork := m.spec.hostNetwork
      hostPid := m.spec.hostPid
      hostIpc := m.spec.hostIpc
      securityContext := m.spec.securityContext.map podSecurityObject
      volumes := m.spec.volumes.map (·.map volumeObject)
      hostAliases := m.spec.hostAliases.map (·.map (fun ha => { ip := ha.ip, hostnames := ha.hostnames })) }

/-! ## Parts -/

theorem envSource_object (vf : ManifestEnvVarSource) : (envSourceObject vf).toSpec = vf.source := by
  unfold envSourceObject K8sEnvVarSource.toSpec ManifestEnvVarSource.source
  cases vf.fieldRef with
  | some fieldPath => rfl
  | none =>
    cases vf.resourceFieldRef with
    | some r => rfl
    | none =>
      cases vf.configMapKeyRef with
      | some cm => rfl
      | none => cases vf.secretKeyRef <;> rfl

theorem envVar_object (e : ManifestEnvVar) : (envObject e).toSpec = parseEnvVar e := by
  unfold envObject K8sEnvVar.toSpec parseEnvVar
  cases e.valueFrom with
  | none => rfl
  | some vf => exact congrArg (EnvVar.mk e.name e.value) (envSource_object vf)

theorem map_asU32 (x : Option UInt32) : (x.map (fun u => (u.toNat : ℤ))).map asU32 = x := by
  cases x with
  | none => rfl
  | some u => exact congrArg some (asU32_toNat u)

theorem securityContext_object (sc : ManifestSecurityContext) : (securityObject sc).toSpec = parseSecurityContext sc := by
  unfold securityObject K8sSecurityContext.toSpec parseSecurityContext
  rw [map_asU32,map_asU32,Option.map_map]
  rfl

theorem getD_map {α β : Type} (l : Option (List α)) (f : α → β) : (l.map (·.map f)).getD [] = (l.getD []).map f := by
  cases l <;> rfl

theorem volumeMounts_object (c : ManifestContainer) :
    (k8sContainerToSpec (containerObject c)).volumeMounts = (parseUrlContainer c).volumeMounts := by
  unfold k8sContainerToSpec containerObject parseUrlContainer parseContainer
  dsimp only
  rw [getD_map,List.map_map]
  rfl

theorem imagePullPolicy_object (policy : Option String) : k8sImagePullPolicy policy = parseImagePullPolicy policy := by
  unfold k8sImagePullPolicy parseImagePullPolicy
  split
  · rfl
  · rfl
  · next hnever halways =>
    split
    · next policy => exact (halways rfl).elim
    · next policy => exact (hnever rfl).elim
    · rfl

/-- A container keeps all that the schema of the URL source declares. -/
theorem container_object (c : ManifestContainer) : k8sContainerToSpec (containerObject c) = parseUrlContainer c := by
  have hmounts := volumeMounts_object c
  have henv : ((c.env.map (·.map envObject)).getD []).map K8sEnvVar.toSpec = (c.env.getD []).map parseEnvVar := by
    rw [getD_map,List.map_map]
    exact List.map_congr_left (fun e _ => envVar_object e)
  have hsecurity : (c.securityContext.map securityObject).map (·.toSpec) = c.securityContext.map parseSecurityContext := by
    rw [Option.map_map]
    exact congrArg (c.securityContext.map ·) (funext securityContext_object)
  unfold k8sContainerToSpec containerObject parseUrlContainer parseContainer at hmounts ⊢
  dsimp only at hmounts ⊢
  rw [hmounts,henv,hsecurity,imagePullPolicy_object]
  rfl

theorem projection_object (s : ManifestProjectedSource) : (projectionObject s).toSpec = s.source := by
  unfold projectionObject K8sVolumeProjection.toSpec ManifestProjectedSource.source
  cases s.serviceAccountToken with
  | some token =>
    unfold tokenObject
    have hexpiration : (token.expirationSeconds.map (fun n => (n.toNat : ℤ))).map asU64 =
        token.expirationSeconds.map (·.toNat) := by
      rw [Option.map_map]
      exact congrArg (token.expirationSeconds.map ·) (funext asU64_toNat)
    dsimp only [Option.map_some]
    rw [hexpiration]
  | none =>
    cases s.configMap with
    | some cm => rfl
    | none => cases s.secret <;> rfl

/-- The watcher reads the source of a volume as the file source does. -/
theorem volumeSource_object (v : ManifestVolume) : k8sVolumeSource (volumeObject v) = fileVolumeSource v := by
  unfold k8sVolumeSource volumeObject fileVolumeSource
  cases v.hostPath with
  | some hp => rfl
  | none =>
    cases v.emptyDir with
    | some ed => rfl
    | none =>
      cases v.configMap with
      | some cm => rfl
      | none =>
        cases v.secret with
        | some s => rfl
        | none =>
          cases v.persistentVolumeClaim with
          | some pvc => rfl
          | none =>
            cases v.projected with
            | none => rfl
            | some p =>
              have hsources : ((p.sources.map (·.map projectionObject)).getD []).filterMap (·.toSpec) =
                  (p.sources.getD []).filterMap (·.source) := by
                rw [getD_map,List.filterMap_map]
                exact congrArg (fun f => List.filterMap f (p.sources.getD [])) (funext projection_object)
              dsimp only [Option.map_some,Option.map_none,Option.none_or]
              rw [hsources]
              rfl

/-! ## Pods -/

/-- The watcher takes the pod for the mirror of a static one. -/
def Mirrored (m : PodManifest) : Prop :=
  m.metadata.annotations.any (fun a => (a.lookup "kubernetes.io/config.mirror").isSome) = true

instance (m : PodManifest) : Decidable (Mirrored m) := inferInstanceAs (Decidable (_ = true))

/-- What the watcher makes of the object of a manifest, in the terms of the two sources. -/
def watchedPod (m : PodManifest) (uid name nodeName : String) : PodSpec where
  uid := ⟨m.metadata.uid.getD uid⟩
  podRef := ⟨m.metadata.ns.getD "default",m.metadata.name.getD name⟩
  nodeName := m.spec.nodeName.getD nodeName
  containers := (m.spec.containers.getD []).map parseUrlContainer
  initContainers := (m.spec.initContainers.getD []).map parseUrlContainer
  restartPolicy := parseRestartPolicy m.spec.restartPolicy
  serviceAccountName := ""
  hostNetwork := m.spec.hostNetwork.getD false
  hostPid := m.spec.hostPid.getD false
  hostIpc := m.spec.hostIpc.getD false
  securityContext := m.spec.securityContext.map (fun sc => { runAsUser := sc.runAsUser, runAsGroup := sc.runAsGroup })
  annotations := m.metadata.annotations.getD ∅
  labels := m.metadata.labels.getD ∅
  hostAliases := (m.spec.hostAliases.getD []).map parseHostAlias
  volumes := (m.spec.volumes.getD []).filterMap fun v => (fileVolumeSource v).map fun source => ⟨v.name,source⟩

variable {E : Type} (k8sEphemeralContainerToSpec : E → ContainerSpec) {m : PodManifest} {uid name nodeName : String}

theorem podSecurity_object (sc : ManifestPodSecurityContext) :
    (podSecurityObject sc).toSpec = { runAsUser := sc.runAsUser, runAsGroup := sc.runAsGroup } := by
  unfold podSecurityObject K8sPodSecurityContext.toSpec
  rw [map_asU32,map_asU32]
  rfl

theorem volumes_object (volumes : List ManifestVolume) : (volumes.map volumeObject).filterMap k8sVolumeToSpec =
    volumes.filterMap fun v => (fileVolumeSource v).map fun source => ⟨v.name,source⟩ := by
  rw [List.filterMap_map]
  refine congrArg (fun f => List.filterMap f volumes) (funext (fun v => ?_))
  exact congrArg (Option.map _) (volumeSource_object v)

theorem podToSpec_object : podToSpec k8sContainerToSpec k8sEphemeralContainerToSpec (podObject E m uid name) nodeName =
    if Mirrored m then none else some (watchedPod m uid name nodeName) := by
  have hcontainers (cs : List ManifestContainer) :
      (cs.map containerObject).map k8sContainerToSpec = cs.map parseUrlContainer := by
    rw [List.map_map]
    exact List.map_congr_left (fun c _ => container_object c)
  have hinit : ((m.spec.initContainers.map (·.map containerObject)).getD []).map k8sContainerToSpec =
      (m.spec.initContainers.getD []).map parseUrlContainer := by
    rw [getD_map,hcontainers]
  have hvolumes : ((m.spec.volumes.map (·.map volumeObject)).getD []).filterMap k8sVolumeToSpec =
      (m.spec.volumes.getD []).filterMap fun v => (fileVolumeSource v).map fun source => ⟨v.name,source⟩ := by
    rw [getD_map,volumes_object]
  have hsecurity : (m.spec.securityContext.map podSecurityObject).map (·.toSpec) =
      m.spec.securityContext.map (fun sc => { runAsUser := sc.runAsUser, runAsGroup := sc.runAsGroup }) := by
    rw [Option.map_map]
    exact congrArg (m.spec.securityContext.map ·) (funext podSecurity_object)
  have haliases : (((m.spec.hostAliases.map (·.map (fun ha => ({ ip := ha.ip, hostnames := ha.hostnames } : K8sHostAlias)))).getD
      []).map (fun ha => ({ ip := ha.ip.getD "", hostnames := ha.hostnames.getD [] } : HostAlias))) =
        (m.spec.hostAliases.getD []).map parseHostAlias := by
    rw [getD_map,List.map_map]
    rfl
  change (if Mirrored m then none else some _) = _
  refine if_congr Iff.rfl rfl (congrArg some ?_)
  unfold watchedPod
  rw [← hcontainers (m.spec.containers.getD []),← hinit,← hsecurity,← haliases,← hvolumes]
  rfl

/-! ## What the sources keep -/

/-- The pods agree on what both schemas declare; of the containers, on the part that is shown. -/
structure SameDeclared (shown : ContainerSpec → ContainerSpec) (m : PodManifest) (nodeName : String)
    (emitted built : PodSpec) : Prop where
  name : m.metadata.name.isSome = true → emitted.podRef.name = built.podRef.name ++ "-" ++ nodeName
  ns : m.metadata.ns.isSome = true → emitted.podRef.ns = built.podRef.ns
  containers : emitted.containers.map shown = built.containers.map shown
  initContainers : emitted.initContainers.map shown = built.initContainers.map shown
  volumes : emitted.volumes = built.volumes
  restartPolicy : emitted.restartPolicy = built.restartPolicy
  hostNetwork : emitted.hostNetwork = built.hostNetwork
  nodeName : emitted.nodeName = built.nodeName
  hostAliases : emitted.hostAliases = built.hostAliases
  annotations : emitted.annotations = built.annotations
  labels : emitted.labels = built.labels

/-- The pods agree on what the schema of the URL source declares besides. -/
structure SameUrlDeclared (m : PodManifest) (nodeName : String) (emitted built : PodSpec) : Prop extends
    SameDeclared id m nodeName emitted built where
  hostPid : emitted.hostPid = built.hostPid
  hostIpc : emitted.hostIpc = built.hostIpc
  securityContext : emitted.securityContext = built.securityContext

/-- A container without the fields that the schema of the file source leaves out. -/
def fileShown (c : ContainerSpec) : ContainerSpec :=
  { c with
    env := []
    securityContext := none }

/-- The first source in the order of the watcher is the first in the order of the URL source. -/
def OneSource (v : ManifestVolume) : Prop :=
  v.persistentVolumeClaim.isSome = true → v.projected.isSome = true →
    v.hostPath.isSome = true ∨ v.emptyDir.isSome = true ∨ v.configMap.isSome = true ∨ v.secret.isSome = true

theorem urlVolumeSource_eq_iff (v : ManifestVolume) : urlVolumeSource v = fileVolumeSource v ↔ OneSource v := by
  unfold urlVolumeSource fileVolumeSource OneSource
  cases v.hostPath with
  | some hp => exact iff_of_true rfl (fun _ _ => .inl rfl)
  | none =>
    cases v.emptyDir with
    | some ed => exact iff_of_true rfl (fun _ _ => .inr (.inl rfl))
    | none =>
      cases v.configMap with
      | some cm => exact iff_of_true rfl (fun _ _ => .inr (.inr (.inl rfl)))
      | none =>
        cases v.secret with
        | some s => exact iff_of_true rfl (fun _ _ => .inr (.inr (.inr rfl)))
        | none =>
          cases v.persistentVolumeClaim with
          | none => cases v.projected <;> exact iff_of_true rfl (fun h => Bool.noConfusion h)
          | some pvc =>
            cases v.projected with
            | none => exact iff_of_true rfl (fun _ h => Bool.noConfusion h)
            | some p =>
              refine iff_of_false (fun h => ?_) (fun h => ?_)
              · cases Option.some.inj h
              · rcases h rfl rfl with h | h | h | h <;> cases h

/-- Two readings of a list that drop the same entries agree when they agree on each. -/
theorem filterMap_eq_iff {α β : Type} {f g : α → Option β} (h : ∀ x, (f x).isSome = (g x).isSome) (l : List α) :
    l.filterMap f = l.filterMap g ↔ ∀ x ∈ l, f x = g x := by
  induction l with
  | nil => simp
  | cons x l ih =>
    have hx := h x
    rw [List.filterMap_cons,List.filterMap_cons,List.forall_mem_cons]
    cases hf : f x with
    | none =>
      rw [hf] at hx
      cases hg : g x with
      | none => simpa using ih
      | some b => rw [hg] at hx; cases hx
    | some a =>
      rw [hf] at hx
      cases hg : g x with
      | none => rw [hg] at hx; cases hx
      | some b => simp only [List.cons.injEq,Option.some.injEq,ih]

theorem isSome_urlVolumeSource (v : ManifestVolume) : (urlVolumeSource v).isSome = (fileVolumeSource v).isSome := by
  unfold urlVolumeSource fileVolumeSource
  simp only [Option.isSome_or,Bool.or_comm]

/-- The URL source reads the volumes as the watcher does when each has one source. -/
theorem urlVolumes_eq_iff (volumes : List ManifestVolume) :
    (volumes.filterMap fun v => (urlVolumeSource v).map fun source => (⟨v.name,source⟩ : VolumeSpec)) =
      (volumes.filterMap fun v => (fileVolumeSource v).map fun source => ⟨v.name,source⟩) ↔
        ∀ v ∈ volumes, OneSource v := by
  rw [filterMap_eq_iff (fun v => by rw [Option.isSome_map,Option.isSome_map,isSome_urlVolumeSource])]
  refine forall₂_congr (fun v _ => ?_)
  rw [← urlVolumeSource_eq_iff]
  have hinj : Function.Injective (fun source => (⟨v.name,source⟩ : VolumeSpec)) :=
    fun a b hab => congrArg VolumeSpec.source hab
  exact (Option.map_injective hinj).eq_iff

section Laws
variable (E) (content path uid name : String)

/-- The decoded manifest of a file. -/
def decoded (src : FilePodSource) (content path : String) : Option PodManifest :=
  if extension path = some "json" then src.fromJson content else src.fromYaml content

/-- A manifest that the file source accepts yields a pod with all that its schema declares. -/
def FileKeeps (src : FilePodSource) : Prop :=
  ∀ m, decoded src content path = some m → ∃ emitted built, src.parseManifest content path = some emitted ∧
    podToSpec k8sContainerToSpec k8sEphemeralContainerToSpec (podObject E m uid name) src.nodeName = some built ∧
      SameDeclared fileShown m src.nodeName emitted built

/-- A manifest of the URL source yields a pod with all that its schema declares. -/
def UrlKeeps (src : UrlPodSource) (m : PodManifest) : Prop :=
  ∃ emitted built, src.parsePod m = some emitted ∧
    podToSpec k8sContainerToSpec k8sEphemeralContainerToSpec (podObject E m uid name) src.nodeName = some built ∧
      SameUrlDeclared m src.nodeName emitted built

end Laws

variable {k8sEphemeralContainerToSpec} {content path : String}

theorem podToSpec_eq_some {built : PodSpec} :
    podToSpec k8sContainerToSpec k8sEphemeralContainerToSpec (podObject E m uid name) nodeName = some built ↔
      ¬Mirrored m ∧ watchedPod m uid name nodeName = built := by
  rw [podToSpec_object]
  by_cases h : Mirrored m
  · simp [h]
  · simp [h]

theorem getD_of_isSome {x : Option String} (h : x.isSome = true) (a b : String) : x.getD a = x.getD b := by
  cases x with
  | none => cases h
  | some s => rfl

theorem file_sameDeclared (src : FilePodSource) :
    SameDeclared fileShown m src.nodeName (src.podOf path m) (watchedPod m uid name src.nodeName) := by
  have hshown (cs : List ManifestContainer) :
      (cs.map parseContainer).map fileShown = (cs.map parseUrlContainer).map fileShown := by
    rw [List.map_map,List.map_map]
    rfl
  exact
    { name := fun h => congrArg (· ++ "-" ++ src.nodeName) (getD_of_isSome h _ _)
      ns := fun h => getD_of_isSome h _ _
      containers := hshown _
      initContainers := hshown _
      volumes := rfl
      restartPolicy := rfl
      hostNetwork := rfl
      nodeName := rfl
      hostAliases := rfl
      annotations := rfl
      labels := rfl }

theorem fileKeeps_iff (src : FilePodSource) : FileKeeps E k8sEphemeralContainerToSpec content path uid name src ↔
    ∀ m, decoded src content path = some m → ¬Mirrored m := by
  refine forall₂_congr (fun m hm => ?_)
  constructor
  · rintro ⟨-,built,-,hbuilt,-⟩
    exact (podToSpec_eq_some.mp hbuilt).1
  · intro h
    have hemitted : src.parseManifest content path = some (src.podOf path m) := congrArg (Option.map (src.podOf path)) hm
    exact ⟨_,_,hemitted,podToSpec_eq_some.mpr ⟨h,rfl⟩,file_sameDeclared src⟩

theorem url_sameDeclared_iff (src : UrlPodSource) {emitted : PodSpec} (h : src.parsePod m = some emitted) :
    SameUrlDeclared m src.nodeName emitted (watchedPod m uid name src.nodeName) ↔
      m.spec.securityContext = none ∧ ∀ v ∈ m.spec.volumes.getD [], OneSource v := by
  obtain rfl := Option.some.inj h
  rw [← urlVolumes_eq_iff]
  constructor
  · intro hsame
    exact ⟨Option.map_eq_none_iff.mp hsame.securityContext.symm,hsame.volumes⟩
  · rintro ⟨hsecurity,hvolumes⟩
    exact
      { name := fun h => congrArg (· ++ "-" ++ src.nodeName) (getD_of_isSome h _ _)
        ns := fun h => getD_of_isSome h _ _
        containers := rfl
        initContainers := rfl
        volumes := hvolumes
        restartPolicy := rfl
        hostNetwork := rfl
        nodeName := rfl
        hostAliases := rfl
        annotations := rfl
        labels := rfl
        hostPid := rfl
        hostIpc := rfl
        securityContext := (Option.map_eq_none_iff.mpr hsecurity).symm }

theorem urlKeeps_iff (src : UrlPodSource) : UrlKeeps E k8sEphemeralContainerToSpec uid name src m ↔
    ¬Mirrored m ∧ m.spec.securityContext = none ∧ ∀ v ∈ m.spec.volumes.getD [], OneSource v := by
  constructor
  · rintro ⟨emitted,built,hemitted,hbuilt,hsame⟩
    obtain ⟨hmirrored,rfl⟩ := podToSpec_eq_some.mp hbuilt
    exact ⟨hmirrored,(url_sameDeclared_iff src hemitted).mp hsame⟩
  · rintro ⟨hmirrored,h⟩
    exact ⟨_,_,rfl,podToSpec_eq_some.mpr ⟨hmirrored,rfl⟩,(url_sameDeclared_iff src rfl).mpr h⟩

/-- The file source keeps what its schema declares, unless the pod passes for a mirror; so does the
URL source for a pod without a security context whose volumes have one source each. -/
theorem declared_fields_kept_iff (E : Type) (k8sEphemeralContainerToSpec : E → ContainerSpec) (uid name : String) :
    (∀ (src : FilePodSource) (content path : String),
      FileKeeps E k8sEphemeralContainerToSpec content path uid name src ↔
        ∀ m, decoded src content path = some m → ¬Mirrored m) ∧
    ∀ (src : UrlPodSource) (m : PodManifest), UrlKeeps E k8sEphemeralContainerToSpec uid name src m ↔
      ¬Mirrored m ∧ m.spec.securityContext = none ∧ ∀ v ∈ m.spec.volumes.getD [], OneSource v :=
  ⟨fun src _ _ => fileKeeps_iff src,fun src _ => urlKeeps_iff src⟩

/-- A static pod that is to run as a given user. -/
def userPod : PodManifest where
  metadata := { name := some "web", ns := some "default" }
  spec :=
    { containers := some [{ name := "app", image := "nginx" }]
      securityContext := some { runAsUser := some 1000 } }

/-- The user of a static pod from the URL source is dropped. -/
theorem pod_user_dropped : ¬∀ (src : UrlPodSource) (m : PodManifest),
    UrlKeeps Empty Empty.elim "u" "web" src m := by
  intro h
  have hkept := (urlKeeps_iff _).mp (h ⟨"node",false,id⟩ userPod)
  exact Option.some_ne_none _ hkept.2.1

end KubeAir.Adapters.StaticManifest
