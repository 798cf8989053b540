import KubeAir.Worker.Request

/-! # The security context of a container

What the client of the runtime makes of the security settings of a container, and the parts of
the `CreateContainer` request that carry them.
-/
namespace KubeAir.Cri
open Core Worker

/-- The modes, of which the first one is the default. -/
inductive NamespaceMode
  | pod
  | container
  | node
  | target
  deriving DecidableEq

structure NamespaceOption where
  network : NamespaceMode := .pod
  pid : NamespaceMode := .pod
  ipc : NamespaceMode := .pod
  deriving DecidableEq

inductive SecurityProfileType
  | runtimeDefault
  | unconfined
  | localhost
  deriving DecidableEq

structure SecurityProfile where
  profileType : SecurityProfileType
  localhostRef : String
  deriving DecidableEq

structure Capability where
  addCapabilities : List String
  dropCapabilities : List String
  deriving DecidableEq

structure LinuxContainerSecurityContext where
  capabilities : Option Capability := none
  privileged : Bool := false
  namespaceOptions : Option NamespaceOption := none
  runAsUser : Option ℤ := none
  readonlyRootfs : Bool := false
  supplementalGroups : List ℤ := []
  noNewPrivs : Bool := false
  runAsGroup : Option ℤ := none
  seccomp : Option SecurityProfile := none
  apparmor : Option SecurityProfile := none
  deriving DecidableEq

structure LinuxSandboxSecurityContext where
  privileged : Bool := false
  deriving DecidableEq

/-- The parts of the request that carry the security settings. -/
structure CreateContainerRequest where
  podSandboxId : String
  name : String
  attempt : ℕ
  securityContext : Option LinuxContainerSecurityContext
  sandboxSecurityContext : Option LinuxSandboxSecurityContext

def pidMode (shareProcessNamespace : Bool) : NamespaceMode := if shareProcessNamespace then .pod else .container

def seccompProfile (security : LinuxContainerSecurity) : Option SecurityProfile :=
  security.seccompProfileType.map fun type =>
    { profileType :=
        match type with
        | "Unconfined" => .unconfined
        | "Localhost" => .localhost
        | _ => .runtimeDefault
      localhostRef := security.seccompLocalhostPath.getD "" }

def buildSecurityContext (security : LinuxContainerSecurity) (shareProcessNamespace : Bool) :
    LinuxContainerSecurityContext where
  capabilities :=
    if security.capabilitiesAdd ≠ [] ∨ security.capabilitiesDrop ≠ [] then
      some { addCapabilities := security.capabilitiesAdd, dropCapabilities := security.capabilitiesDrop }
    else none
  privileged := security.privileged
  namespaceOptions := some { pid := pidMode shareProcessNamespace }
  runAsUser := security.runAsUser.map fun u => (u.toNat : ℤ)
  readonlyRootfs := security.readOnlyRootFilesystem
  supplementalGroups := security.supplementalGroups.map fun g => (g.toNat : ℤ)
  noNewPrivs := (security.allowPrivilegeEscalation.map (!·)).getD false
  runAsGroup := security.runAsGroup.map fun g => (g.toNat : ℤ)
  seccomp := seccompProfile security
  apparmor := none

/-- Whether a setting that the client looks at is not the default. -/
def hasSecuritySettings (security : LinuxContainerSecurity) : Bool :=
  security.runAsUser.isSome || security.runAsGroup.isSome || !security.supplementalGroups.isEmpty ||
    security.privileged || security.readOnlyRootFilesystem || security.allowPrivilegeEscalation.isSome ||
    !security.capabilitiesAdd.isEmpty || !security.capabilitiesDrop.isEmpty || security.seccompProfileType.isSome

def buildOptionalSecurityContext (security : LinuxContainerSecurity) (shareProcessNamespace : Bool) :
    Option LinuxContainerSecurityContext :=
  if hasSecuritySettings security then some (buildSecurityContext security shareProcessNamespace)
  else some { namespaceOptions := some { pid := pidMode shareProcessNamespace } }

/-- The request of `create_container`. -/
def createContainerRequest (config : CreateContainerConfig) : CreateContainerRequest where
  podSandboxId := config.sandboxId
  name := config.container.name
  attempt := config.attempt
  securityContext := buildOptionalSecurityContext config.security config.shareProcessNamespace
  sandboxSecurityContext := if config.security.privileged then some { privileged := true } else none

/-- The shortcut for a container without settings makes no difference. -/
theorem buildOptionalSecurityContext_eq (security : LinuxContainerSecurity) (share : Bool) :
    buildOptionalSecurityContext security share = some (buildSecurityContext security share) := by
  unfold buildOptionalSecurityContext
  split
  · rfl
  · rename_i h
    obtain ⟨user,group,groups,privileged,readOnly,escalation,add,drop,type,path,apparmor⟩ := security
    simp only [hasSecuritySettings,Bool.or_eq_true,not_or,Bool.not_eq_true,Option.isSome_eq_false_iff,
      Option.isNone_iff_eq_none,Bool.not_eq_false',List.isEmpty_iff] at h
    obtain ⟨⟨⟨⟨⟨⟨⟨⟨rfl,rfl⟩,rfl⟩,rfl⟩,rfl⟩,rfl⟩,rfl⟩,rfl⟩,rfl⟩ := h
    rfl

end KubeAir.Cri
