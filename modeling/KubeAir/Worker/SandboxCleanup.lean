import KubeAir.Worker.Sandbox

/-! # Sandbox cleanup among live pods

Every live pod has one sandbox under its own identity. Recovery and cleanup for one of them
leave the others' sandboxes alone exactly when no other pod has its name without the node suffix.
-/
namespace KubeAir.Worker
open Core Transition

/-- The sandbox carries the identity of the pod. -/
structure Owns (pod : PodSpec) (sandbox : SandboxStatus) : Prop where
  uid : sandbox.podUid = pod.uid.val
  name : sandbox.podName = pod.podRef.name
  ns : sandbox.podNamespace = pod.podRef.ns
  nameLabel : sandbox.labels.lookup "io.kubernetes.pod.name" = some pod.podRef.name
  nsLabel : sandbox.labels.lookup "io.kubernetes.pod.namespace" = some pod.podRef.ns

/-- The live pods of a node, each with its sandbox. -/
structure HousedPods where
  pods : List (PodSpec × SandboxStatus)
  owned : ∀ e ∈ pods, Owns e.1 e.2
  uids : (pods.map (·.1.uid)).Nodup
  names : (pods.map (·.1.podRef)).Nodup
  ids : (pods.map (·.2.id)).Nodup

/-- The name of the other pod is that of the pod without the suffix of the node. -/
def BaseNameOf (worker : PodWorker) (pod other : PodSpec) : Prop :=
  stripSuffix pod.podRef.name ("-" ++ worker.nodeName) = some other.podRef.name ∧ other.podRef.ns = pod.podRef.ns

namespace HousedPods

/-- No sandbox of another pod is stopped or removed. -/
def Spares (node : HousedPods) (uid : PodUID) : Request → Prop
  | .stopPodSandbox id => ∀ e ∈ node.pods, e.2.id = id → e.1.uid = uid
  | .removePodSandbox id => ∀ e ∈ node.pods, e.2.id = id → e.1.uid = uid
  | _ => True

/-- The runtime lists the sandboxes of the pods, in some order, or fails. -/
def Tells (node : HousedPods) : (op : Request) → op.Answer → Prop
  | .listPodSandboxes, .ok sandboxes => sandboxes.Perm (node.pods.map (·.2))
  | _, _ => True

def contract (node : HousedPods) (uid : PodUID) : Contract Request Request.Answer Unit where
  drift _ _ := True
  allowed _ op := node.Spares uid op
  answers _ op ans _ := node.Tells op ans

/-- Whatever the runtime answers about these sandboxes, the program spares the other pods. -/
def Harmless {α : Type} (node : HousedPods) (uid : PodUID) (p : WorkerM α) : Prop :=
  p.Meets (node.contract uid) (fun _ _ => True) ()

/-- No other pod has the pod's name without the suffix of the node. -/
def NoBaseName (node : HousedPods) (worker : PodWorker) (pod : PodSpec) : Prop :=
  ∀ f ∈ node.pods, f.1.uid ≠ pod.uid → ¬ BaseNameOf worker pod f.1

section Lemmas
variable {node : HousedPods} {worker : PodWorker} {e f : PodSpec × SandboxStatus}

theorem eq_of_id (he : e ∈ node.pods) (hf : f ∈ node.pods) (h : e.2.id = f.2.id) : e = f :=
  List.inj_on_of_nodup_map node.ids he hf h

/-- The sandbox of another pod matches by the base name only. -/
theorem matches_other (he : e ∈ node.pods) (hf : f ∈ node.pods) (hne : f.1.uid ≠ e.1.uid) :
    sandboxMatchesPodIdentity worker e.1 f.2 = true ↔ BaseNameOf worker e.1 f.1 := by
  obtain ⟨huid,hname,hns,hnameLabel,hnsLabel⟩ := node.owned f hf
  have huid' : f.2.podUid ≠ e.1.uid.val := by
    intro h
    exact hne (PodUID.eq_of_val (huid.symm.trans h))
  have hother : ¬ (f.1.podRef.name = e.1.podRef.name ∧ f.1.podRef.ns = e.1.podRef.ns) := by
    rintro ⟨hn,hs⟩
    have href : f.1.podRef = e.1.podRef := by
      cases hfr : f.1.podRef
      cases her : e.1.podRef
      rw [hfr,her] at hn hs
      subst hn hs
      rfl
    have hfe : f = e := List.inj_on_of_nodup_map node.names hf he href
    exact hne (congrArg (fun g : PodSpec × SandboxStatus => g.1.uid) hfe)
  unfold sandboxMatchesPodIdentity BaseNameOf
  rw [hname,hns,hnameLabel,hnsLabel]
  simp only [if_neg huid']
  by_cases hs : f.1.podRef.ns = e.1.podRef.ns
  · have hn : f.1.podRef.name ≠ e.1.podRef.name := fun hn => hother ⟨hn,hs⟩
    simp [hs,hn]
  · simp [hs]

/-- Only the pod's own sandbox matches. -/
theorem spares_of_matches (he : e ∈ node.pods) (hcond : node.NoBaseName worker e.1) {sandbox : SandboxStatus}
    (hmem : sandbox ∈ node.pods.map (·.2)) (hmatch : sandboxMatchesPodIdentity worker e.1 sandbox = true) :
    ∀ g ∈ node.pods, g.2.id = sandbox.id → g.1.uid = e.1.uid := by
  obtain ⟨f,hf,rfl⟩ := List.mem_map.mp hmem
  intro g hg hid
  obtain rfl := eq_of_id hg hf hid
  by_contra hne
  exact hcond g hg hne ((matches_other he hg hne).mp hmatch)

theorem uses_cleanupSandbox {uid : PodUID} {id : String} (h : ∀ g ∈ node.pods, g.2.id = id → g.1.uid = uid) :
    (cleanupSandbox id).Uses (node.Spares uid) :=
  Program.Uses.bind (Program.Every.request h) fun _ => Program.Uses.bind (Program.Every.request h) fun _ => trivial

theorem spares_recoverFrom (pod : PodSpec) (sandboxes : List SandboxStatus)
    (h : ∀ s ∈ sandboxes, sandboxMatchesPodIdentity worker pod s = true →
      ∀ g ∈ node.pods, g.2.id = s.id → g.1.uid = pod.uid) :
    (recoverFrom worker pod sandboxes).Uses (node.Spares pod.uid) := by
  induction sandboxes with
  | nil => trivial
  | cons sandbox rest ih =>
    have hrest := ih (fun s hs => h s (List.mem_cons_of_mem _ hs))
    unfold recoverFrom
    by_cases hmatch : sandboxMatchesPodIdentity worker pod sandbox = false
    · rw [if_pos hmatch]
      exact hrest
    · rw [if_neg hmatch]
      have hclear := h sandbox List.mem_cons_self (by simpa using hmatch)
      by_cases hready : sandbox.podUid = pod.uid.val ∧ sandbox.state = .ready
      · rw [if_pos hready]
        apply Program.Uses.bind (Program.Every.request trivial)
        intro r
        cases r with
        | error e => trivial
        | ok status => trivial
      · rw [if_neg hready]
        exact Program.Uses.bind (uses_cleanupSandbox hclear) fun _ => hrest

theorem meets_of_uses {α : Type} {uid : PodUID} {p : WorkerM α} (h : p.Uses (node.Spares uid)) :
    node.Harmless uid p := by
  have hmeets : p.Meets (node.contract uid) (fun _ _ => True ∧ True) () :=
    Program.Every.meets (P := fun _ => True) h trivial (fun _ _ _ _ => trivial)
      (fun _ op _ hop => ⟨hop,fun _ _ _ => trivial⟩)
  exact hmeets.mono (fun _ _ _ => trivial)

theorem harmless_recover (he : e ∈ node.pods) (hcond : node.NoBaseName worker e.1) :
    node.Harmless e.1.uid (recoverExistingSandbox worker e.1) := by
  intro w' _
  refine ⟨trivial,?_⟩
  intro ans w'' hans
  cases ans with
  | error err => trivial
  | ok sandboxes =>
    have hperm : sandboxes.Perm (node.pods.map (·.2)) := hans
    exact meets_of_uses (spares_recoverFrom e.1 sandboxes fun s hs hmatch =>
      spares_of_matches he hcond (hperm.subset hs) hmatch)

theorem harmless_cleanup (he : e ∈ node.pods) (hcond : node.NoBaseName worker e.1) :
    node.Harmless e.1.uid (cleanupStaleSandboxesForPod worker e.1) := by
  intro w' _
  refine ⟨trivial,?_⟩
  intro ans w'' hans
  cases ans with
  | error err => trivial
  | ok sandboxes =>
    have hperm : sandboxes.Perm (node.pods.map (·.2)) := hans
    apply meets_of_uses
    apply Program.Uses.forEach
    intro s hs
    obtain ⟨hmem,hmatch⟩ := List.mem_filter.mp hs
    exact uses_cleanupSandbox (spares_of_matches he hcond (hperm.subset hmem) hmatch)

/-- The runtime may list the sandbox of any pod first. -/
theorem exists_listing_first (hf : f ∈ node.pods) : ∃ rest, (f.2 :: rest).Perm (node.pods.map (·.2)) := by
  obtain ⟨before,after,hsplit⟩ := List.append_of_mem hf
  refine ⟨(before ++ after).map (·.2),?_⟩
  rw [hsplit,List.map_append,List.map_append,List.map_cons]
  exact List.perm_middle.symm

theorem not_spares_stop {uid : PodUID} (hf : f ∈ node.pods) (hne : f.1.uid ≠ uid) :
    ¬ node.Spares uid (.stopPodSandbox f.2.id) :=
  fun h => hne (h f hf rfl)

/-- Recovery that is listed the sandbox of the base name first stops it. -/
theorem noBaseName_of_recover (he : e ∈ node.pods)
    (h : node.Harmless e.1.uid (recoverExistingSandbox worker e.1)) : node.NoBaseName worker e.1 := by
  intro f hf hne hbase
  obtain ⟨rest,hperm⟩ := exists_listing_first hf
  have hmatch := (matches_other he hf hne).mpr hbase
  have hrest : node.Harmless e.1.uid (recoverFrom worker e.1 (f.2 :: rest)) :=
    (h () trivial).2 (.ok (f.2 :: rest)) () hperm
  have huid : ¬ (f.2.podUid = e.1.uid.val ∧ f.2.state = .ready) := by
    rintro ⟨hsame,-⟩
    exact hne (PodUID.eq_of_val ((node.owned f hf).uid.symm.trans hsame))
  unfold recoverFrom at hrest
  rw [if_neg (by simpa using hmatch),if_neg huid] at hrest
  exact not_spares_stop hf hne (hrest () trivial).1

theorem noBaseName_of_cleanup (he : e ∈ node.pods)
    (h : node.Harmless e.1.uid (cleanupStaleSandboxesForPod worker e.1)) : node.NoBaseName worker e.1 := by
  intro f hf hne hbase
  obtain ⟨rest,hperm⟩ := exists_listing_first hf
  have hmatch := (matches_other he hf hne).mpr hbase
  have hrest : node.Harmless e.1.uid (Program.forEach (fun sandbox => cleanupSandbox sandbox.id)
      ((f.2 :: rest).filter (sandboxMatchesPodIdentity worker e.1))) :=
    (h () trivial).2 (.ok (f.2 :: rest)) () hperm
  rw [List.filter_cons_of_pos hmatch] at hrest
  exact not_spares_stop hf hne (hrest () trivial).1

end Lemmas

/-- Recovery and cleanup for a live pod spare the sandboxes of the others exactly when no other pod of its
namespace has its name without the node suffix. -/
theorem harmless_iff (node : HousedPods) (worker : PodWorker) {e : PodSpec × SandboxStatus} (he : e ∈ node.pods) :
    (node.Harmless e.1.uid (recoverExistingSandbox worker e.1) ↔ node.NoBaseName worker e.1) ∧
    (node.Harmless e.1.uid (cleanupStaleSandboxesForPod worker e.1) ↔ node.NoBaseName worker e.1) :=
  ⟨⟨noBaseName_of_recover he,harmless_recover he⟩,⟨noBaseName_of_cleanup he,harmless_cleanup he⟩⟩

/-- A pod in the default namespace with its sandbox. -/
def housedPod (uid name : String) : PodSpec × SandboxStatus :=
  ({ uid := ⟨uid⟩, podRef := { ns := "default", name := name } },
    { id := uid ++ "-sandbox", podUid := uid, podName := name, podNamespace := "default", state := .ready
      labels := (AList.insert "io.kubernetes.pod.name" name ∅).insert "io.kubernetes.pod.namespace" "default" })

theorem owns_housedPod (uid name : String) : Owns (housedPod uid name).1 (housedPod uid name).2 :=
  ⟨rfl,rfl,rfl,rfl,rfl⟩

/-- A pod and another one that has its name and the suffix of the node. -/
def suffixedPods : HousedPods where
  pods := [housedPod "a" "web",housedPod "b" "web-node1"]
  owned := by
    intro e he
    rcases List.mem_cons.mp he with rfl | he
    · exact owns_housedPod "a" "web"
    · rw [List.mem_singleton.mp he]
      exact owns_housedPod "b" "web-node1"
  uids := by decide
  names := by decide
  ids := by decide +kernel

def node1 : PodWorker where
  nodeName := "node1"
  podInfraContainerImage := "pause"
  nodeInternalIp := "10.0.0.1"

theorem harmless_iff_suffixed :
    (suffixedPods.Harmless ⟨"a"⟩ (recoverExistingSandbox node1 (housedPod "a" "web").1) ↔
      suffixedPods.NoBaseName node1 (housedPod "a" "web").1) ∧
    (suffixedPods.Harmless ⟨"a"⟩ (cleanupStaleSandboxesForPod node1 (housedPod "a" "web").1) ↔
      suffixedPods.NoBaseName node1 (housedPod "a" "web").1) :=
  harmless_iff suffixedPods node1 (e := housedPod "a" "web") List.mem_cons_self

/-- Both calls for the pod with the suffix stop the sandbox of the other pod. -/
theorem not_harmless_suffixed :
    ¬ suffixedPods.Harmless ⟨"b"⟩ (recoverExistingSandbox node1 (housedPod "b" "web-node1").1) ∧
    ¬ suffixedPods.Harmless ⟨"b"⟩ (cleanupStaleSandboxesForPod node1 (housedPod "b" "web-node1").1) := by
  have hmem : housedPod "b" "web-node1" ∈ suffixedPods.pods := List.mem_cons_of_mem _ List.mem_cons_self
  have hbase : ¬ suffixedPods.NoBaseName node1 (housedPod "b" "web-node1").1 := by
    intro h
    refine h (housedPod "a" "web") List.mem_cons_self (by decide) ?_
    exact ⟨by decide +kernel,rfl⟩
  exact ⟨fun h => hbase (noBaseName_of_recover hmem h),fun h => hbase (noBaseName_of_cleanup hmem h)⟩

end HousedPods
end KubeAir.Worker
