import KubeAir.Adapters.PodObject

/-! # Ports of probes and hooks

A port is a number, or the name of one of the ports of the container. Probes look names up, hooks
do not; both cut numbers to 16 bits.
-/
namespace KubeAir.Adapters
open Core

/-- The number that a reference stands for, if it is a number or the name of a port. -/
def IntOrString.number (ports : List K8sContainerPort) : IntOrString → Option ℤ
  | .int n => some n
  | .string name => (ports.find? (fun p => p.name = some name)).map (·.containerPort)

/-- The port that a number stands for; zero is no port. -/
def usablePort (n : ℤ) : ℕ := if 1 ≤ n ∧ n ≤ 65535 then n.toNat else 0

/-- The port that a reference is to be resolved to. -/
def IntOrString.port (ports : List K8sContainerPort) (r : IntOrString) : ℕ := ((r.number ports).map usablePort).getD 0

/-- The reference of a probe by HTTP or TCP. -/
def K8sProbe.reference (p : K8sProbe) : Option IntOrString :=
  match p.exec,p.httpGet,p.tcpSocket with
  | some _, _, _ => none
  | none, some http, _ => some http.port
  | none, none, tcp => tcp.map (·.port)

/-- The reference of a hook by HTTP or TCP. -/
def K8sLifecycleHandler.reference (h : K8sLifecycleHandler) : Option IntOrString :=
  match h.exec,h.httpGet,h.tcpSocket with
  | some _, _, _ => none
  | none, some http, _ => some http.port
  | none, none, tcp => tcp.map (·.port)

end KubeAir.Adapters

namespace KubeAir.Core

def ProbeHandler.port : ProbeHandler → Option ℕ
  | .httpGet _ port _ _ => some port
  | .tcpSocket port _ => some port
  | _ => none

def LifecycleHandler.port : LifecycleHandler → Option ℕ
  | .httpGet _ port _ _ => some port
  | .tcpSocket port _ => some port
  | _ => none

end KubeAir.Core

namespace KubeAir.Adapters
open Core
variable {ports : List K8sContainerPort} {p : K8sProbe} {h : K8sLifecycleHandler} {n : ℤ} {r : IntOrString} {name : String}

def K8sContainer.probes (c : K8sContainer) : List K8sProbe :=
  [c.livenessProbe,c.readinessProbe,c.startupProbe].filterMap id

def K8sContainer.hooks (c : K8sContainer) : List K8sLifecycleHandler :=
  (c.lifecycle.map (fun lc => [lc.postStart,lc.preStop].filterMap id)).getD []

/-- The references of a container, each with the port in its spec. -/
def K8sContainer.resolved (c : K8sContainer) : List (Option IntOrString × Option ℕ) :=
  let spec := k8sContainerToSpec c
  [(c.livenessProbe.bind (·.reference),spec.livenessProbe.bind (·.handler.port)),
    (c.readinessProbe.bind (·.reference),spec.readinessProbe.bind (·.handler.port)),
    (c.startupProbe.bind (·.reference),spec.startupProbe.bind (·.handler.port)),
    ((c.lifecycle.bind (·.postStart)).bind (·.reference),(spec.lifecycle.bind (·.postStart)).bind (·.port)),
    ((c.lifecycle.bind (·.preStop)).bind (·.reference),(spec.lifecycle.bind (·.preStop)).bind (·.port))]

/-- Every reference of the container is resolved to its port. -/
def PortsResolved (c : K8sContainer) : Prop :=
  ∀ use ∈ c.resolved, ∀ r, use.1 = some r → use.2 = some (r.port (c.ports.getD []))

/-- Cutting the number to 16 bits makes no other port of it. -/
def Fits (n : ℤ) : Prop := (1 ≤ n ∧ n ≤ 65535) ∨ (65536 : ℤ) ∣ n

/-- The named port of a hook is the one that the hook takes for every name. -/
def NameTaken (ports : List K8sContainerPort) (h : K8sLifecycleHandler) (name : String) : Prop :=
  ((IntOrString.string name).port ports) = if h.httpGet.isSome then 80 else 0

/-- What makes the port of a hook right. -/
def HookFits (ports : List K8sContainerPort) (h : K8sLifecycleHandler) : Prop :=
  ∀ r, h.reference = some r →
    match r with
    | .int n => Fits n
    | .string name => NameTaken ports h name

theorem asU16_eq_usablePort_iff : asU16 n = usablePort n ↔ Fits n := by
  unfold asU16 usablePort Fits
  split
  · next hn => exact iff_of_true (by omega) (.inl hn)
  · next hn => rw [or_iff_right hn]; omega

/-! ## Probes -/

theorem resolveIntOrStringPort_eq (r : IntOrString) :
    resolveIntOrStringPort r (ports.map (·.toSpec)) = ((r.number ports).map asU16).getD 0 := by
  cases r with
  | int n => rfl
  | string name =>
    unfold resolveIntOrStringPort IntOrString.number
    dsimp only
    rw [List.find?_map,Option.map_map,Option.map_map]
    rfl

theorem resolveIntOrStringPort_iff :
    resolveIntOrStringPort r (ports.map (·.toSpec)) = r.port ports ↔ ∀ n, r.number ports = some n → Fits n := by
  rw [resolveIntOrStringPort_eq,IntOrString.port]
  cases r.number ports with
  | none => simp
  | some n => simp [asU16_eq_usablePort_iff]

theorem probe_port {containerPorts : List ContainerPort} (hr : p.reference = some r) :
    (k8sProbeToSpec p containerPorts).bind (·.handler.port) = some (resolveIntOrStringPort r containerPorts) := by
  unfold K8sProbe.reference at hr
  unfold k8sProbeToSpec k8sProbeHandler
  rcases p with ⟨_ | exec,_ | http,_ | tcp⟩ <;> cases hr <;> rfl

/-! ## Hooks -/

theorem hook_port (hr : h.reference = some r) : (k8sLifecycleHandlerToSpec h).bind (·.port) =
    some (lifecyclePort r (if h.httpGet.isSome then 80 else 0)) := by
  unfold K8sLifecycleHandler.reference at hr
  unfold k8sLifecycleHandlerToSpec
  rcases h with ⟨_ | exec,_ | http,_ | tcp⟩ <;> cases hr <;> rfl

theorem hook_iff : (∀ r, h.reference = some r → (k8sLifecycleHandlerToSpec h).bind (·.port) = some (r.port ports)) ↔
    HookFits ports h := by
  refine forall₂_congr fun r hr => ?_
  rw [hook_port hr,Option.some.injEq]
  cases r with
  | int n => exact asU16_eq_usablePort_iff
  | string name => exact eq_comm

theorem optional_probe_iff (o : Option K8sProbe) :
    (∀ r, o.bind (·.reference) = some r →
      (o.bind (k8sProbeToSpec · (ports.map (·.toSpec)))).bind (·.handler.port) = some (r.port ports)) ↔
        ∀ p ∈ o.toList, ∀ r, p.reference = some r → ∀ n, r.number ports = some n → Fits n := by
  cases o with
  | none => simp
  | some p =>
    rw [Option.toList_some,List.forall_mem_singleton,Option.bind_some,Option.bind_some]
    refine forall₂_congr fun r hr => ?_
    rw [probe_port hr,Option.some.injEq,resolveIntOrStringPort_iff]

theorem optional_hook_iff (o : Option K8sLifecycleHandler) :
    (∀ r, o.bind (·.reference) = some r → (o.bind k8sLifecycleHandlerToSpec).bind (·.port) = some (r.port ports)) ↔
      ∀ h ∈ o.toList, HookFits ports h := by
  cases o with
  | none => simp
  | some h =>
    rw [Option.toList_some,List.forall_mem_singleton]
    exact hook_iff

/-- The ports are right exactly if all numbers of probes and hooks fit, and every name in a hook is
that of the port which the hook takes for it. -/
theorem portsResolved_iff (c : K8sContainer) :
    PortsResolved c ↔
      (∀ p ∈ c.probes, ∀ r, p.reference = some r → ∀ n, r.number (c.ports.getD []) = some n → Fits n) ∧
        ∀ h ∈ c.hooks, HookFits (c.ports.getD []) h := by
  have hprobes : c.probes = c.livenessProbe.toList ++ (c.readinessProbe.toList ++ c.startupProbe.toList) := by
    unfold K8sContainer.probes
    cases c.livenessProbe <;> cases c.readinessProbe <;> cases c.startupProbe <;> rfl
  have hhooks : c.hooks = (c.lifecycle.bind (·.postStart)).toList ++ (c.lifecycle.bind (·.preStop)).toList := by
    unfold K8sContainer.hooks
    rcases c.lifecycle with _ | ⟨_ | postStart,_ | preStop⟩ <;> rfl
  have hpostStart : ((k8sContainerToSpec c).lifecycle.bind (·.postStart)) =
      (c.lifecycle.bind (·.postStart)).bind k8sLifecycleHandlerToSpec := by
    unfold k8sContainerToSpec
    cases c.lifecycle <;> rfl
  have hpreStop : ((k8sContainerToSpec c).lifecycle.bind (·.preStop)) =
      (c.lifecycle.bind (·.preStop)).bind k8sLifecycleHandlerToSpec := by
    unfold k8sContainerToSpec
    cases c.lifecycle <;> rfl
  unfold PortsResolved K8sContainer.resolved
  rw [hprobes,hhooks]
  simp only [hpostStart,hpreStop,List.forall_mem_cons,List.forall_mem_append,← optional_probe_iff,← optional_hook_iff]
  have hnil : ∀ use ∈ ([] : List (Option IntOrString × Option ℕ)), ∀ r, use.1 = some r →
      use.2 = some (r.port (c.ports.getD [])) := fun use hmem => by cases hmem
  constructor
  · rintro ⟨hliveness,hreadiness,hstartup,hpost,hpre,-⟩
    exact ⟨⟨hliveness,hreadiness,hstartup⟩,hpost,hpre⟩
  · rintro ⟨⟨hliveness,hreadiness,hstartup⟩,hpost,hpre⟩
    exact ⟨hliveness,hreadiness,hstartup,hpost,hpre,hnil⟩

/-! ## A named port in a hook -/

def namedPortContainer : K8sContainer where
  name := "app"
  ports := some [{ name := some "web", containerPort := 8080 }]
  readinessProbe := some { httpGet := some { port := .string "web" } }
  lifecycle := some { preStop := some { httpGet := some { port := .string "web" } } }

/-- The probe asks port 8080, the hook port 80. -/
theorem hook_port_eighty :
    (k8sContainerToSpec namedPortContainer).readinessProbe.bind (·.handler.port) = some 8080 ∧
      ((k8sContainerToSpec namedPortContainer).lifecycle.bind (·.preStop)).bind (·.port) = some 80 ∧
        ¬PortsResolved namedPortContainer := by
  refine ⟨rfl,rfl,fun h => ?_⟩
  have hport := h _ (List.mem_cons_of_mem _ (List.mem_cons_of_mem _ (List.mem_cons_of_mem _ (List.mem_cons_of_mem _
    List.mem_cons_self)))) (.string "web") rfl
  exact absurd hport (by decide)

end KubeAir.Adapters
