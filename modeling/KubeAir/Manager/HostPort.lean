import KubeAir.Core.PodManager

/-! # Host ports

The overlap of two host IPs, the conflict check of `handle_update` and the status it
leaves on a pod that it rejects.
-/
namespace KubeAir.Manager
open Core

/-- None, empty, `0.0.0.0` and `::` bind every address. -/
def isWildcardIp (ip : Option String) : Bool :=
  ip == none || ip == some "" || ip == some "0.0.0.0" || ip == some "::"

/-- Two host IP values would bind a common host address. -/
def hostPortsOverlap (a b : Option String) : Bool :=
  if isWildcardIp a || isWildcardIp b then true else a == b

/-- The container ports of a pod, app containers first. -/
def podPorts (pod : PodSpec) : List ContainerPort :=
  (pod.containers ++ pod.initContainers).flatMap (·.ports)

/-- The (port, protocol, host IP) triples that a pod needs on its host. -/
def neededHostPorts (pod : PodSpec) : List (ℕ × Protocol × Option String) :=
  (podPorts pod).filterMap (fun p => p.hostPort.map (fun hp => (hp,p.protocol,p.hostIp)))

/-- A port of an existing pod collides with one of the needed triples. -/
def portTaken (needed : List (ℕ × Protocol × Option String)) (port : ContainerPort) : Bool :=
  match port.hostPort with
  | some ehp => needed.any (fun (hp,proto,hostIp) =>
      hp == ehp && proto == port.protocol && hostPortsOverlap hostIp port.hostIp)
  | none => false

/-- Two pods request a common host port. -/
def hostPortClash (incoming existing : PodSpec) : Bool :=
  (podPorts existing).any (portTaken (neededHostPorts incoming))

/-- `{:?}` of a protocol. -/
def Protocol.debug : Protocol → String
  | .tcp => "TCP"
  | .udp => "UDP"
  | .sctp => "SCTP"

def isTerminalStatus (m : PodManager) (uid : PodUID) : Bool :=
  (m.status.get uid).any (fun st => st.phase == .failed || st.phase == .succeeded)

/-- The pod and port that the check trips over first. -/
def firstHostPortConflict (m : PodManager) (incoming : PodSpec) : Option (PodSpec × ContainerPort) :=
  let needed := neededHostPorts incoming
  if needed.isEmpty then none
  else m.list.findSome? (fun existing =>
    if existing.uid = incoming.uid then none
    else if isTerminalStatus m existing.uid then none
    else ((podPorts existing).find? (portTaken needed)).map (fun port => (existing,port)))

def conflictMessage (existing : PodSpec) (port : ContainerPort) : String :=
  "host port " ++ toString (port.hostPort.getD 0) ++ "/" ++ Protocol.debug port.protocol ++
    " already in use by pod " ++ existing.podRef.name ++ " (" ++ existing.uid.val ++ ")"

/-- `check_host_port_conflict`: why the pod cannot be admitted, or nothing. -/
def checkHostPortConflict (m : PodManager) (incoming : PodSpec) : Option String :=
  (firstHostPortConflict m incoming).map (fun (existing,port) => conflictMessage existing port)

/-- The status that `reject_pod_admission` stores. -/
def rejectedState (ls : PodLifecycleState) (message : String) (now : DateTime) : PodLifecycleState :=
  { ls with
    phase := .failed
    reason := some "HostPortConflict"
    conditions := ls.conditions.filter (fun c => c.conditionType != .podScheduled) ++
      [{ conditionType := .podScheduled
         status := .false
         lastTransitionTime := some now
         reason := some "Unschedulable"
         message := some message }] }

def rejectPodAdmission (m : PodManager) (pod : PodSpec) (message : String) (now : DateTime) : PodManager :=
  { m with status := m.status.set pod.uid (rejectedState ((m.status.get pod.uid).getD {}) message now) }

theorem hostPortsOverlap_comm (a b : Option String) : hostPortsOverlap a b = hostPortsOverlap b a := by
  unfold hostPortsOverlap
  rw [Bool.or_comm]
  split
  · rfl
  · exact Bool.beq_comm

/-- A clash is a pair of ports with the same number and protocol and overlapping host IPs. -/
theorem hostPortClash_iff {p q : PodSpec} : hostPortClash p q = true ↔
    ∃ a ∈ podPorts p, ∃ b ∈ podPorts q, ∃ hp, a.hostPort = some hp ∧ b.hostPort = some hp ∧
      a.protocol = b.protocol ∧ hostPortsOverlap a.hostIp b.hostIp = true := by
  unfold hostPortClash
  rw [List.any_eq_true]
  constructor
  · rintro ⟨b,hb,htaken⟩
    unfold portTaken at htaken
    split at htaken
    · next ehp hehp =>
      obtain ⟨⟨hp,proto,ip⟩,hneeded,hmatch⟩ := List.any_eq_true.mp htaken
      obtain ⟨a,ha,hmap⟩ := List.mem_filterMap.mp hneeded
      obtain ⟨hp',hport,heq⟩ := Option.map_eq_some_iff.mp hmap
      cases heq
      simp only [Bool.and_eq_true,beq_iff_eq] at hmatch
      obtain ⟨⟨rfl,hproto⟩,hip⟩ := hmatch
      exact ⟨a,ha,b,hb,_,hport,hehp,hproto,hip⟩
    · cases htaken
  · rintro ⟨a,ha,b,hb,hp,hport,hehp,hproto,hip⟩
    refine ⟨b,hb,?_⟩
    unfold portTaken
    rw [hehp]
    refine List.any_eq_true.mpr ⟨(hp,a.protocol,a.hostIp),?_,?_⟩
    · exact List.mem_filterMap.mpr ⟨a,ha,by rw [hport]; rfl⟩
    · simp [hproto,hip]

theorem hostPortClash_comm (p q : PodSpec) : hostPortClash p q = hostPortClash q p := by
  refine Bool.eq_iff_iff.mpr ?_
  rw [hostPortClash_iff,hostPortClash_iff]
  constructor
  · rintro ⟨a,ha,b,hb,hp,hport,hehp,hproto,hip⟩
    exact ⟨b,hb,a,ha,hp,hehp,hport,hproto.symm,by rwa [hostPortsOverlap_comm]⟩
  · rintro ⟨a,ha,b,hb,hp,hport,hehp,hproto,hip⟩
    exact ⟨b,hb,a,ha,hp,hehp,hport,hproto.symm,by rwa [hostPortsOverlap_comm]⟩

/-- The pod the check trips over is desired, another one, not terminal, and clashes. -/
theorem firstHostPortConflict_some {m : PodManager} {incoming existing : PodSpec} {port : ContainerPort}
    (h : firstHostPortConflict m incoming = some (existing,port)) :
    m.get existing.uid = some existing ∧ existing.uid ≠ incoming.uid ∧
      isTerminalStatus m existing.uid = false ∧ hostPortClash incoming existing = true := by
  unfold firstHostPortConflict at h
  dsimp only at h
  split at h
  · cases h
  · obtain ⟨p,hp,hsome⟩ := List.exists_of_findSome?_eq_some h
    split at hsome
    · cases hsome
    · next hne =>
      split at hsome
      · cases hsome
      · next hterm =>
        obtain ⟨q,hq,heq⟩ := Option.map_eq_some_iff.mp hsome
        cases heq
        refine ⟨(m.mem_list existing).mp hp,hne,by simpa using hterm,?_⟩
        exact List.any_eq_true.mpr ⟨port,List.mem_of_find?_eq_some hq,List.find?_some hq⟩

/-- A pod that passes the check clashes with no other desired pod that is not terminal. -/
theorem firstHostPortConflict_none {m : PodManager} {incoming existing : PodSpec}
    (h : firstHostPortConflict m incoming = none) (hget : m.get existing.uid = some existing)
    (hne : existing.uid ≠ incoming.uid) (hterm : isTerminalStatus m existing.uid = false) :
    hostPortClash incoming existing = false := by
  unfold firstHostPortConflict at h
  dsimp only at h
  unfold hostPortClash
  split at h
  · next hempty =>
    rw [List.isEmpty_iff.mp hempty]
    rw [List.any_eq_false]
    intro port _
    unfold portTaken
    cases port.hostPort <;> simp
  · have hall := List.findSome?_eq_none_iff.mp h existing ((m.mem_list existing).mpr hget)
    rw [if_neg hne,hterm] at hall
    simp only [Bool.false_eq_true,↓reduceIte,Option.map_eq_none_iff,List.find?_eq_none] at hall
    rw [List.any_eq_false]
    exact hall

end KubeAir.Manager
