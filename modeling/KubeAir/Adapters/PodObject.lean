import KubeAir.Adapters.Quantity

/-! # Parts of a pod object

Containers, volumes and security contexts of the API, and what the watcher makes of them. A value
that the watcher casts to a narrower type wraps around.
-/
namespace KubeAir.Adapters
open Core Quantity

/-- `x as u64` of a signed 64-bit value. -/
def asU64 (x : ℤ) : ℕ := (x % 2 ^ 64).toNat

/-- `x as u32` of a signed value. -/
def asU32 (x : ℤ) : UInt32 := UInt32.ofNat (x % 2 ^ 32).toNat

/-- `x as u16` of a signed value. -/
def asU16 (x : ℤ) : ℕ := (x % 2 ^ 16).toNat

/-! ## Containers -/

structure K8sResourceFieldSelector where
  containerName : Option String := none
  resource : String
  /-- not read by the watcher where the value becomes a variable -/
  divisor : Option K8sQuantity := none

/-- A key of a config map or of a secret. -/
structure K8sKeySelector where
  name : Option String := none
  key : String
  optional : Option Bool := none

structure K8sEnvVarSource where
  /-- the field path -/
  fieldRef : Option String := none
  resourceFieldRef : Option K8sResourceFieldSelector := none
  configMapKeyRef : Option K8sKeySelector := none
  secretKeyRef : Option K8sKeySelector := none

structure K8sEnvVar where
  name : String
  value : Option String := none
  valueFrom : Option K8sEnvVarSource := none

structure K8sEnvFromRef where
  name : Option String := none
  optional : Option Bool := none

structure K8sEnvFromSource where
  namePrefix : Option String := none
  configMapRef : Option K8sEnvFromRef := none
  secretRef : Option K8sEnvFromRef := none

structure K8sVolumeMount where
  name : String
  mountPath : String
  subPath : Option String := none
  subPathExpr : Option String := none
  readOnly : Option Bool := none

structure K8sCapabilities where
  add : Option (List String) := none
  drop : Option (List String) := none

structure K8sSecurityContext where
  runAsUser : Option ℤ := none
  runAsGroup : Option ℤ := none
  runAsNonRoot : Option Bool := none
  privileged : Option Bool := none
  readOnlyRootFilesystem : Option Bool := none
  allowPrivilegeEscalation : Option Bool := none
  capabilities : Option K8sCapabilities := none
  seccompProfile : Option ProfileSpec := none
  appArmorProfile : Option ProfileSpec := none
  procMount : Option String := none

inductive IntOrString
  | int (n : ℤ)
  | string (s : String)

structure K8sContainerPort where
  name : Option String := none
  containerPort : ℤ
  hostPort : Option ℤ := none
  protocol : Option String := none
  hostIp : Option String := none

structure K8sHttpGet where
  path : Option String := none
  port : IntOrString
  host : Option String := none
  scheme : Option String := none

structure K8sTcpSocket where
  port : IntOrString
  host : Option String := none

structure K8sGrpc where
  port : ℤ
  service : Option String := none

structure K8sProbe where
  /-- the command -/
  exec : Option (Option (List String)) := none
  httpGet : Option K8sHttpGet := none
  tcpSocket : Option K8sTcpSocket := none
  grpc : Option K8sGrpc := none
  initialDelaySeconds : Option ℤ := none
  periodSeconds : Option ℤ := none
  timeoutSeconds : Option ℤ := none
  successThreshold : Option ℤ := none
  failureThreshold : Option ℤ := none

structure K8sLifecycleHandler where
  /-- the command -/
  exec : Option (Option (List String)) := none
  httpGet : Option K8sHttpGet := none
  tcpSocket : Option K8sTcpSocket := none
  /-- the seconds -/
  sleep : Option ℤ := none

structure K8sLifecycle where
  postStart : Option K8sLifecycleHandler := none
  preStop : Option K8sLifecycleHandler := none

structure K8sContainer where
  name : String
  image : Option String := none
  imagePullPolicy : Option String := none
  command : Option (List String) := none
  args : Option (List String) := none
  env : Option (List K8sEnvVar) := none
  envFrom : Option (List K8sEnvFromSource) := none
  volumeMounts : Option (List K8sVolumeMount) := none
  resources : Option K8sResourceRequirements := none
  terminationMessagePath : Option String := none
  terminationMessagePolicy : Option String := none
  ports : Option (List K8sContainerPort) := none
  livenessProbe : Option K8sProbe := none
  readinessProbe : Option K8sProbe := none
  startupProbe : Option K8sProbe := none
  securityContext : Option K8sSecurityContext := none
  restartPolicy : Option String := none
  lifecycle : Option K8sLifecycle := none

def K8sEnvVarSource.toSpec (vf : K8sEnvVarSource) : Option EnvVarSource :=
  match vf.fieldRef,vf.resourceFieldRef,vf.configMapKeyRef,vf.secretKeyRef with
  | some fieldPath, _, _, _ => some (.fieldRef fieldPath)
  | none, some r, _, _ => some (.resourceFieldRef r.containerName r.resource)
  | none, none, some cm, _ => some (.configMapKeyRef (cm.name.getD "") cm.key (cm.optional.getD false))
  | none, none, none, secret => secret.map (fun s => .secretKeyRef (s.name.getD "") s.key (s.optional.getD false))

def K8sEnvVar.toSpec (e : K8sEnvVar) : EnvVar where
  name := e.name
  value := e.value
  valueFrom := e.valueFrom.bind (·.toSpec)

def K8sEnvFromRef.toSpec (r : K8sEnvFromRef) : EnvFromRef where
  name := r.name.getD ""
  optional := r.optional.getD false

def K8sEnvFromSource.toSpec (ef : K8sEnvFromSource) : EnvFromSource where
  namePrefix := ef.namePrefix
  configMapRef := ef.configMapRef.map (·.toSpec)
  secretRef := ef.secretRef.map (·.toSpec)

def K8sVolumeMount.toSpec (m : K8sVolumeMount) : VolumeMount where
  name := m.name
  mountPath := m.mountPath
  subPath := m.subPath
  subPathExpr := m.subPathExpr
  readOnly := m.readOnly.getD false

def K8sSecurityContext.toSpec (sc : K8sSecurityContext) : SecurityContext where
  runAsUser := sc.runAsUser.map asU32
  runAsGroup := sc.runAsGroup.map asU32
  runAsNonRoot := sc.runAsNonRoot
  privileged := sc.privileged
  readOnlyRootFilesystem := sc.readOnlyRootFilesystem
  allowPrivilegeEscalation := sc.allowPrivilegeEscalation
  capabilities := sc.capabilities.map (fun caps => ⟨caps.add.getD [],caps.drop.getD []⟩)
  seccompProfile := sc.seccompProfile
  apparmorProfile := sc.appArmorProfile
  procMount := sc.procMount

def K8sContainerPort.toSpec (p : K8sContainerPort) : ContainerPort where
  name := p.name
  containerPort := asU16 p.containerPort
  hostPort := p.hostPort.map asU16
  protocol :=
    match p.protocol with
    | some "UDP" => .udp
    | some "SCTP" => .sctp
    | _ => .tcp
  hostIp := p.hostIp

/-- A port that is given by name is looked up among those of the container. -/
def resolveIntOrStringPort (port : IntOrString) (containerPorts : List ContainerPort) : ℕ :=
  match port with
  | .int n => asU16 n
  | .string name => ((containerPorts.find? (fun p => p.name = some name)).map (·.containerPort)).getD 0

def k8sProbeHandler (p : K8sProbe) (containerPorts : List ContainerPort) : Option ProbeHandler :=
  match p.exec,p.httpGet,p.tcpSocket,p.grpc with
  | some command, _, _, _ => some (.exec (command.getD []))
  | none, some http, _, _ => some (.httpGet (http.path.getD "/") (resolveIntOrStringPort http.port containerPorts)
      http.host (http.scheme.getD "HTTP"))
  | none, none, some tcp, _ => some (.tcpSocket (resolveIntOrStringPort tcp.port containerPorts) tcp.host)
  | none, none, none, grpc => grpc.map (fun g => .grpc (asU16 g.port) g.service)

def k8sProbeToSpec (p : K8sProbe) (containerPorts : List ContainerPort) : Option Probe :=
  (k8sProbeHandler p containerPorts).map fun handler =>
    { handler := handler
      initialDelaySeconds := (asU32 (p.initialDelaySeconds.getD 0)).toNat
      periodSeconds := (asU32 (p.periodSeconds.getD 10)).toNat
      timeoutSeconds := (asU32 (p.timeoutSeconds.getD 1)).toNat
      successThreshold := (asU32 (p.successThreshold.getD 1)).toNat
      failureThreshold := (asU32 (p.failureThreshold.getD 3)).toNat }

/-- The port of a lifecycle handler, which is not looked up by name. -/
def lifecyclePort (port : IntOrString) (named : ℕ) : ℕ :=
  match port with
  | .int n => asU16 n
  | .string _ => named

def k8sLifecycleHandlerToSpec (h : K8sLifecycleHandler) : Option LifecycleHandler :=
  match h.exec,h.httpGet,h.tcpSocket,h.sleep with
  | some command, _, _, _ => some (.exec (command.getD []))
  | none, some http, _, _ => some (.httpGet (http.path.getD "/") (lifecyclePort http.port 80) http.host
      (http.scheme.getD "HTTP"))
  | none, none, some tcp, _ => some (.tcpSocket (lifecyclePort tcp.port 0) tcp.host)
  | none, none, none, sleep => sleep.map (fun seconds => .sleep (max seconds 0).toNat)

def k8sImagePullPolicy : Option String → ImagePullPolicy
  | some "Never" => .never
  | some "Always" => .always
  | _ => .ifNotPresent

def k8sContainerToSpec (c : K8sContainer) : ContainerSpec :=
  let ports := (c.ports.getD []).map (·.toSpec)
  { name := c.name
    image := c.image.getD ""
    imagePullPolicy := k8sImagePullPolicy c.imagePullPolicy
    command := c.command.getD []
    args := c.args.getD []
    env := (c.env.getD []).map (·.toSpec)
    envFrom := (c.envFrom.getD []).map (·.toSpec)
    volumeMounts := (c.volumeMounts.getD []).map (·.toSpec)
    resources := (c.resources.map resourceRequirementsFromK8s).getD {}
    terminationMessagePath := c.terminationMessagePath
    terminationMessagePolicy := c.terminationMessagePolicy
    ports := ports
    livenessProbe := c.livenessProbe.bind (k8sProbeToSpec · ports)
    readinessProbe := c.readinessProbe.bind (k8sProbeToSpec · ports)
    startupProbe := c.startupProbe.bind (k8sProbeToSpec · ports)
    securityContext := c.securityContext.map (·.toSpec)
    restartPolicy :=
      match c.restartPolicy with
      | some "Never" => some .never
      | some "OnFailure" => some .onFailure
      | some "Always" => some .always
      | _ => none
    lifecycle := c.lifecycle.map fun lc =>
      ⟨lc.postStart.bind k8sLifecycleHandlerToSpec,lc.preStop.bind k8sLifecycleHandlerToSpec⟩ }

structure K8sEphemeralContainer where
  name : String
  image : Option String := none
  imagePullPolicy : Option String := none
  command : Option (List String) := none
  args : Option (List String) := none
  env : Option (List K8sEnvVar) := none
  envFrom : Option (List K8sEnvFromSource) := none
  volumeMounts : Option (List K8sVolumeMount) := none
  terminationMessagePath : Option String := none
  terminationMessagePolicy : Option String := none
  securityContext : Option K8sSecurityContext := none

def k8sEphemeralContainerToSpec (c : K8sEphemeralContainer) : ContainerSpec where
  name := c.name
  image := c.image.getD ""
  imagePullPolicy := k8sImagePullPolicy c.imagePullPolicy
  command := c.command.getD []
  args := c.args.getD []
  env := (c.env.getD []).map (·.toSpec)
  envFrom := (c.envFrom.getD []).map (·.toSpec)
  volumeMounts := (c.volumeMounts.getD []).map (·.toSpec)
  terminationMessagePath := c.terminationMessagePath
  terminationMessagePolicy := c.terminationMessagePolicy
  securityContext := c.securityContext.map (·.toSpec)

/-! ## Volumes -/

structure K8sHostPath where
  path : String
  type : Option String := none

/-- A config map or a secret, with the items that are projected. -/
structure K8sKeyedVolume where
  name : Option String := none
  items : Option (List KeyToPath) := none
  optional : Option Bool := none
  defaultMode : Option ℤ := none

structure K8sServiceAccountToken where
  audience : Option String := none
  expirationSeconds : Option ℤ := none
  path : String

structure K8sVolumeProjection where
  serviceAccountToken : Option K8sServiceAccountToken := none
  configMap : Option K8sKeyedVolume := none
  secret : Option K8sKeyedVolume := none
  /-- the items -/
  downwardApi : Option (Option (List DownwardAPIVolumeFile)) := none

structure K8sProjected where
  sources : Option (List K8sVolumeProjection) := none
  defaultMode : Option ℤ := none

structure K8sPersistentVolumeClaim where
  claimName : String
  readOnly : Option Bool := none

structure K8sDownwardApi where
  items : Option (List DownwardAPIVolumeFile) := none
  defaultMode : Option ℤ := none

structure K8sVolume where
  name : String
  hostPath : Option K8sHostPath := none
  /-- the medium -/
  emptyDir : Option (Option String) := none
  configMap : Option K8sKeyedVolume := none
  secret : Option K8sKeyedVolume := none
  persistentVolumeClaim : Option K8sPersistentVolumeClaim := none
  projected : Option K8sProjected := none
  downwardApi : Option K8sDownwardApi := none

def K8sVolumeProjection.toSpec (s : K8sVolumeProjection) : Option ProjectedVolumeSource :=
  match s.serviceAccountToken,s.configMap,s.secret with
  | some token, _, _ =>
    some (.serviceAccountToken token.audience (token.expirationSeconds.map asU64) token.path)
  | none, some cm, _ => some (.configMap (cm.name.getD "") (cm.items.getD []) (cm.optional.getD false))
  | none, none, some secret => some (.secret (secret.name.getD "") (secret.items.getD []) (secret.optional.getD false))
  | none, none, none => s.downwardApi.map (fun items => .downwardAPI (items.getD []))

/-- The source of a volume, the first that is set; others are not supported. -/
def k8sVolumeSource (v : K8sVolume) : Option VolumeSource :=
  match v.hostPath,v.emptyDir,v.configMap,v.secret,v.persistentVolumeClaim,v.projected,v.downwardApi with
  | some hp, _, _, _, _, _, _ => some (.hostPath hp.path hp.type)
  | none, some medium, _, _, _, _, _ => some (.emptyDir medium)
  | none, none, some cm, _, _, _, _ =>
    some (.configMap (cm.name.getD "") (cm.items.getD []) (cm.optional.getD false) cm.defaultMode)
  | none, none, none, some s, _, _, _ =>
    some (.secret (s.name.getD "") (s.items.getD []) (s.optional.getD false) s.defaultMode)
  | none, none, none, none, some pvc, _, _ =>
    some (.persistentVolumeClaim pvc.claimName (pvc.readOnly.getD false))
  | none, none, none, none, none, some p, _ =>
    some (.projected ((p.sources.getD []).filterMap (·.toSpec)) p.defaultMode)
  | none, none, none, none, none, none, some d => some (.downwardAPI (d.items.getD []) d.defaultMode)
  | none, none, none, none, none, none, none => none

def k8sVolumeToSpec (v : K8sVolume) : Option VolumeSpec := (k8sVolumeSource v).map (⟨v.name,·⟩)

/-! ## Pods -/

structure K8sPodSecurityContext where
  runAsUser : Option ℤ := none
  runAsGroup : Option ℤ := none
  runAsNonRoot : Option Bool := none
  fsGroup : Option ℤ := none
  supplementalGroups : Option (List ℤ) := none
  fsGroupChangePolicy : Option String := none
  sysctls : Option (List Sysctl) := none
  seccompProfile : Option ProfileSpec := none
  appArmorProfile : Option ProfileSpec := none

def K8sPodSecurityContext.toSpec (sc : K8sPodSecurityContext) : PodSecurityContext where
  runAsUser := sc.runAsUser.map asU32
  runAsGroup := sc.runAsGroup.map asU32
  runAsNonRoot := sc.runAsNonRoot
  fsGroup := sc.fsGroup.map asU32
  supplementalGroups := (sc.supplementalGroups.getD []).map asU32
  fsGroupChangePolicy := sc.fsGroupChangePolicy
  sysctls := sc.sysctls.getD []
  seccompProfile := sc.seccompProfile

/-- A user or group that fits is kept by the cast. -/
theorem asU32_toNat (x : UInt32) : asU32 (x.toNat : ℤ) = x := by
  unfold asU32
  rw [Int.emod_eq_of_lt (by omega) (by exact_mod_cast x.toNat_lt),Int.toNat_natCast,UInt32.ofNat_toNat]

theorem asU64_toNat (x : UInt64) : asU64 (x.toNat : ℤ) = x.toNat := by
  unfold asU64
  rw [Int.emod_eq_of_lt (by omega) (by exact_mod_cast x.toNat_lt),Int.toNat_natCast]

end KubeAir.Adapters
