import KubeAir.Adapters.AdmissionCapacity
import KubeAir.Manager.HostPort

/-! # The two host-port checks

The admission controller records one UID for each port and protocol; the runtime manager also
compares host IPs. They agree on a pod exactly when a port that it shares with live pods also
has overlapping host IPs somewhere.
-/
namespace KubeAir.Manager
open Core
open Adapters.Admission (AdmissionController AdmissionResult ResourceUsage RuntimeOverheads admitWithRuntimeOverhead
  rejection rejectMaxPods rejectCpu rejectMemory rejectPorts rejectRuntimeClass rejectNodeSelector rejectTaints
  rejectClaims podHostPorts containerHostPorts allContainers protocolText foldl_addContainer lookup_foldl_insert)

/-- A port of each of the pods with the same number and protocol. -/
def PortsMeet (p q : PodSpec) (a b : ContainerPort) : Prop :=
  a ∈ podPorts p ∧ b ∈ podPorts q ∧ a.hostPort.isSome = true ∧ a.hostPort = b.hostPort ∧ a.protocol = b.protocol

/-- The pods of the list are the desired ones that are not terminal. -/
def LivePods (m : PodManager) (pods : List PodSpec) : Prop :=
  ∀ p, p ∈ pods ↔ m.get p.uid = some p ∧ isTerminalStatus m p.uid = false

/-- The usage that the pods make up. -/
def usageOf (pods : List PodSpec) (overheads : RuntimeOverheads) : ResourceUsage :=
  pods.foldl (fun u p => u.addPodWithOverhead p overheads) {}

/-- Every check but the one for ports passes. -/
structure OthersPass (a : AdmissionController) (pod : PodSpec) (usage : ResourceUsage)
    (overheads : RuntimeOverheads) (known : List String) : Prop where
  maxPods : rejectMaxPods a usage = none
  cpu : rejectCpu a pod usage overheads = none
  memory : rejectMemory a pod usage overheads = none
  runtimeClass : rejectRuntimeClass pod known = none
  nodeSelector : rejectNodeSelector a pod = none
  taints : rejectTaints a pod = none
  claims : rejectClaims pod = none

section Lemmas
variable {pods : List PodSpec} {p q pod : PodSpec} {overheads : RuntimeOverheads}

theorem lookup_addPod (u : ResourceUsage) (p : PodSpec) (key : ℕ × String) :
    ((u.addPodWithOverhead p overheads).hostPorts.lookup key).isSome = true ↔
      key ∈ podHostPorts p ∨ (u.hostPorts.lookup key).isSome = true := by
  unfold ResourceUsage.addPodWithOverhead
  rw [foldl_addContainer]
  show (((podHostPorts p).foldl (fun ports key => ports.insert key p.uid.val) u.hostPorts).lookup key).isSome = true ↔ _
  rw [lookup_foldl_insert]
  by_cases hkey : key ∈ podHostPorts p
  · simp [hkey]
  · simp [hkey]

/-- The usage knows exactly the ports of its pods. -/
theorem lookup_usageOf (pods : List PodSpec) (key : ℕ × String) :
    ((usageOf pods overheads).hostPorts.lookup key).isSome = true ↔ ∃ p ∈ pods, key ∈ podHostPorts p := by
  have hfold (u : ResourceUsage) :
      ((pods.foldl (fun u p => u.addPodWithOverhead p overheads) u).hostPorts.lookup key).isSome = true ↔
        (∃ p ∈ pods, key ∈ podHostPorts p) ∨ (u.hostPorts.lookup key).isSome = true := by
    induction pods generalizing u with
    | nil => simp
    | cons p rest ih =>
      rw [List.foldl_cons,ih,lookup_addPod]
      constructor
      · rintro (⟨q,hq,hkey⟩ | hkey | hkey)
        · exact .inl ⟨q,List.mem_cons_of_mem _ hq,hkey⟩
        · exact .inl ⟨p,List.mem_cons_self,hkey⟩
        · exact .inr hkey
      · rintro (⟨q,hq,hkey⟩ | hkey)
        · rcases List.mem_cons.mp hq with rfl | hq
          · exact .inr (.inl hkey)
          · exact .inl ⟨q,hq,hkey⟩
        · exact .inr (.inr hkey)
  unfold usageOf
  rw [hfold]
  simp

theorem protocolText_injective {a b : Protocol} (h : protocolText a = protocolText b) : a = b := by
  cases a <;> cases b <;> first | rfl | exact absurd h (by decide)

theorem mem_podHostPorts {key : ℕ × String} : key ∈ podHostPorts p ↔
    ∃ port ∈ podPorts p, ∃ hp, port.hostPort = some hp ∧ key = (hp,protocolText port.protocol) := by
  unfold podHostPorts podPorts containerHostPorts allContainers
  simp only [List.mem_flatMap,List.mem_filterMap,Option.map_eq_some_iff]
  constructor
  · rintro ⟨c,hc,port,hport,hp,hhp,rfl⟩
    exact ⟨port,⟨c,hc,hport⟩,hp,hhp,rfl⟩
  · rintro ⟨port,⟨c,hc,hport⟩,hp,hhp,rfl⟩
    exact ⟨c,hc,port,hport,hp,hhp,rfl⟩

/-- The admission check rejects a pod that meets a port of a live pod, whatever the host IPs. -/
theorem isSome_rejectPorts : (rejectPorts pod (usageOf pods overheads)).isSome = true ↔
    ∃ q ∈ pods, ∃ a b, PortsMeet pod q a b := by
  unfold rejectPorts
  rw [List.findSome?_isSome_iff]
  simp only [Option.isSome_map]
  constructor
  · rintro ⟨key,hmem,hkey⟩
    obtain ⟨q,hq,hqkey⟩ := (lookup_usageOf pods key).mp hkey
    obtain ⟨a,ha,hp,hahp,rfl⟩ := mem_podHostPorts.mp hmem
    obtain ⟨b,hb,hp',hbhp,heq⟩ := mem_podHostPorts.mp hqkey
    obtain ⟨rfl,hproto⟩ := Prod.mk.inj heq
    refine ⟨q,hq,a,b,ha,hb,?_,?_,protocolText_injective hproto⟩
    · rw [hahp]
      rfl
    · rw [hahp,hbhp]
  · rintro ⟨q,hq,a,b,ha,hb,hsome,hports,hproto⟩
    obtain ⟨hp,hahp⟩ := Option.isSome_iff_exists.mp hsome
    refine ⟨(hp,protocolText a.protocol),mem_podHostPorts.mpr ⟨a,ha,hp,hahp,rfl⟩,?_⟩
    refine (lookup_usageOf pods _).mpr ⟨q,hq,mem_podHostPorts.mpr ⟨b,hb,hp,?_,?_⟩⟩
    · rw [← hports,hahp]
    · rw [hproto]

theorem reject_iff {a : AdmissionController} {usage : ResourceUsage} {known : List String}
    (h : OthersPass a pod usage overheads known) :
    (∃ message, admitWithRuntimeOverhead a pod usage overheads known = .reject message) ↔
      (rejectPorts pod usage).isSome = true := by
  have hrejection : rejection a pod usage overheads known = rejectPorts pod usage := by
    unfold rejection
    rw [h.maxPods,h.cpu,h.memory,h.runtimeClass,h.nodeSelector,h.taints,h.claims]
    simp
  unfold admitWithRuntimeOverhead
  rw [hrejection]
  cases rejectPorts pod usage with
  | none => simp
  | some message => simp

theorem clash_iff : hostPortClash p q = true ↔
    ∃ a b, PortsMeet p q a b ∧ hostPortsOverlap a.hostIp b.hostIp = true := by
  rw [hostPortClash_iff]
  constructor
  · rintro ⟨a,ha,b,hb,hp,hahp,hbhp,hproto,hip⟩
    refine ⟨a,b,⟨ha,hb,?_,?_,hproto⟩,hip⟩
    · rw [hahp]
      rfl
    · rw [hahp,hbhp]
  · rintro ⟨a,b,⟨ha,hb,hsome,hports,hproto⟩,hip⟩
    obtain ⟨hp,hahp⟩ := Option.isSome_iff_exists.mp hsome
    exact ⟨a,ha,b,hb,hp,hahp,hports ▸ hahp,hproto,hip⟩

/-- The runtime manager reports a conflict with a live pod whose host IPs overlap as well. -/
theorem isSome_checkHostPortConflict {m : PodManager} (hpods : LivePods m pods)
    (hnew : ∀ q ∈ pods, q.uid ≠ pod.uid) : (checkHostPortConflict m pod).isSome = true ↔
      ∃ q ∈ pods, ∃ a b, PortsMeet pod q a b ∧ hostPortsOverlap a.hostIp b.hostIp = true := by
  unfold checkHostPortConflict
  rw [Option.isSome_map]
  cases hconflict : firstHostPortConflict m pod with
  | none =>
    refine iff_of_false (by simp) ?_
    rintro ⟨q,hq,hclash⟩
    obtain ⟨hget,hlive⟩ := (hpods q).mp hq
    have hfree := firstHostPortConflict_none hconflict hget (hnew q hq) hlive
    rw [clash_iff.mpr hclash] at hfree
    cases hfree
  | some found =>
    obtain ⟨q,port⟩ := found
    obtain ⟨hget,-,hlive,hclash⟩ := firstHostPortConflict_some hconflict
    exact iff_of_true rfl ⟨q,(hpods q).mpr ⟨hget,hlive⟩,clash_iff.mp hclash⟩

end Lemmas

/-- The two checks give a new pod the same verdict exactly when, if it meets a port of a live pod at all,
one of the ports that it meets has an overlapping host IP. -/
theorem hostPort_verdicts_agree_iff {m : PodManager} {pods : List PodSpec} (hpods : LivePods m pods)
    {a : AdmissionController} {pod : PodSpec} {overheads : RuntimeOverheads} {known : List String}
    (hnew : ∀ q ∈ pods, q.uid ≠ pod.uid) (hothers : OthersPass a pod (usageOf pods overheads) overheads known) :
    ((∃ message, admitWithRuntimeOverhead a pod (usageOf pods overheads) overheads known = .reject message) ↔
      (checkHostPortConflict m pod).isSome = true) ↔
    ((∃ q ∈ pods, ∃ a b, PortsMeet pod q a b) →
      ∃ q ∈ pods, ∃ a b, PortsMeet pod q a b ∧ hostPortsOverlap a.hostIp b.hostIp = true) := by
  rw [reject_iff hothers,isSome_rejectPorts,isSome_checkHostPortConflict hpods hnew]
  constructor
  · exact fun h => h.mp
  · intro h
    refine ⟨h,?_⟩
    rintro ⟨q,hq,a,b,hmeet,-⟩
    exact ⟨q,hq,a,b,hmeet⟩

/-- A pod that binds a port of one host address. -/
def boundPod (uid : String) (hostIp : Option String) : PodSpec where
  uid := ⟨uid⟩
  podRef := { ns := "default", name := uid }
  containers := [{ name := "web", image := "web", ports := [{ containerPort := 80, hostPort := some 80, hostIp }] }]

def roomyNode : AdmissionController where
  allocatable := { cpuMillicores := 1000, memoryBytes := 1000, maxPods := 110 }

def hostedPods (hostIp : Option String) : PodManager := ({} : PodManager).store (boundPod "live" hostIp)

theorem livePods_hosted (hostIp : Option String) : LivePods (hostedPods hostIp) [boundPod "live" hostIp] := by
  intro p
  rw [List.mem_singleton]
  constructor
  · rintro rfl
    exact ⟨PodManager.get_store_self _ _,rfl⟩
  · rintro ⟨hget,-⟩
    by_cases hu : p.uid = (boundPod "live" hostIp).uid
    · rw [hu] at hget
      have hself : (hostedPods hostIp).get (boundPod "live" hostIp).uid = some (boundPod "live" hostIp) :=
        PodManager.get_store_self _ _
      exact (Option.some.inj (hself.symm.trans hget)).symm
    · have hother : (hostedPods hostIp).get p.uid = ({} : PodManager).get p.uid := PodManager.get_store_ne _ _ _ hu
      rw [hother] at hget
      cases hget

theorem othersPass_roomyNode (hostIp other : Option String) :
    OthersPass roomyNode (boundPod "new" other) (usageOf [boundPod "live" hostIp] ∅) ∅ [] := by
  constructor <;> rfl

theorem uid_ne_new (hostIp other : Option String) :
    ∀ q ∈ [boundPod "live" hostIp], q.uid ≠ (boundPod "new" other).uid := by
  intro q hq
  rw [List.mem_singleton.mp hq]
  show (⟨"live"⟩ : PodUID) ≠ ⟨"new"⟩
  decide

theorem hostPort_verdicts_agree_iff_bound :
    ((∃ message, admitWithRuntimeOverhead roomyNode (boundPod "new" none)
        (usageOf [boundPod "live" (some "10.0.0.1")] ∅) ∅ [] = .reject message) ↔
      (checkHostPortConflict (hostedPods (some "10.0.0.1")) (boundPod "new" none)).isSome = true) ↔
    ((∃ q ∈ [boundPod "live" (some "10.0.0.1")], ∃ a b, PortsMeet (boundPod "new" none) q a b) →
      ∃ q ∈ [boundPod "live" (some "10.0.0.1")], ∃ a b, PortsMeet (boundPod "new" none) q a b ∧
        hostPortsOverlap a.hostIp b.hostIp = true) :=
  hostPort_verdicts_agree_iff (livePods_hosted (some "10.0.0.1")) (uid_ne_new (some "10.0.0.1") none)
    (othersPass_roomyNode (some "10.0.0.1") none)

/-- Two pods bind port 80 of two addresses: the admission check rejects the second, the runtime manager does not. -/
theorem hostPort_verdicts_differ :
    (∃ message, admitWithRuntimeOverhead roomyNode (boundPod "new" (some "10.0.0.2"))
      (usageOf [boundPod "live" (some "10.0.0.1")] ∅) ∅ [] = .reject message) ∧
    OthersPass roomyNode (boundPod "new" (some "10.0.0.2")) (usageOf [boundPod "live" (some "10.0.0.1")] ∅) ∅ [] ∧
    checkHostPortConflict (hostedPods (some "10.0.0.1")) (boundPod "new" (some "10.0.0.2")) = none :=
  ⟨⟨_,rfl⟩,othersPass_roomyNode _ _,rfl⟩

end KubeAir.Manager
