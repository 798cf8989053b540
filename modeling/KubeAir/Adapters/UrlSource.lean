import KubeAir.Adapters.PodSources

/-! # The URL source

A poll fetches a list of pods, settles a UID for each and announces it under that UID. A pod
without a UID of its own is given the UID that was committed for its namespace and name.
-/
namespace KubeAir.Adapters
open Core

/-- What the API server answers about the mirror pod of an item, if it is asked. -/
inductive MirrorLookup
  | found (uid : Option String)
  | absent
  | failed (error : KubeletError)

structure UrlItem where
  manifest : PodManifest
  mirror : MirrorLookup

/-- The outcome of a fetch. -/
inductive UrlPoll
  | fetchFailed
  | badStatus
  | notParsed
  | list (items : Option (List UrlItem))

/-- The source; `uuidV5` is `Uuid::new_v5` in the URL namespace. -/
structure UrlPodSource where
  nodeName : String
  hasKubeClient : Bool
  uuidV5 : String → String

structure UrlState where
  announced : PollState := {}
  committedUids : HashMap String String := ∅

def ManifestKeyRef.configMapSource (r : ManifestKeyRef) : EnvVarSource :=
  .configMapKeyRef r.name r.key (r.optional.getD false)

def ManifestKeyRef.secretSource (r : ManifestKeyRef) : EnvVarSource := .secretKeyRef r.name r.key (r.optional.getD false)

def ManifestResourceFieldRef.source (r : ManifestResourceFieldRef) : EnvVarSource :=
  .resourceFieldRef r.containerName r.resource

def ManifestEnvVarSource.source (vf : ManifestEnvVarSource) : Option EnvVarSource :=
  (vf.fieldRef.map .fieldRef).or <| (vf.resourceFieldRef.map (·.source)).or <|
    (vf.configMapKeyRef.map (·.configMapSource)).or <| vf.secretKeyRef.map (·.secretSource)

def parseEnvVar (e : ManifestEnvVar) : EnvVar where
  name := e.name
  value := e.value
  valueFrom := e.valueFrom.bind (·.source)

def parseCapabilities (caps : ManifestCapabilities) : Capabilities where
  add := caps.add.getD []
  drop := caps.drop.getD []

def parseSecurityContext (sc : ManifestSecurityContext) : SecurityContext where
  privileged := sc.privileged
  capabilities := sc.capabilities.map parseCapabilities
  runAsUser := sc.runAsUser
  runAsGroup := sc.runAsGroup
  runAsNonRoot := sc.runAsNonRoot
  readOnlyRootFilesystem := sc.readOnlyRootFilesystem
  allowPrivilegeEscalation := sc.allowPrivilegeEscalation

/-- The container of a manifest in the schema of the URL source. -/
def parseUrlContainer (c : ManifestContainer) : ContainerSpec :=
  { parseContainer c with
    env := (c.env.getD []).map parseEnvVar
    securityContext := c.securityContext.map parseSecurityContext }

def urlVolumeSource (v : ManifestVolume) : Option VolumeSource :=
  (v.hostPath.map (·.source)).or <| (v.emptyDir.map (·.source)).or <| (v.configMap.map (·.source)).or <|
    (v.secret.map (·.source)).or <| (v.projected.map (·.source)).or <| v.persistentVolumeClaim.map (·.source)

namespace UrlPodSource
variable (src : UrlPodSource)

def parsePod (m : PodManifest) : Option PodSpec :=
  let name := m.metadata.name.getD "unknown"
  let ns := m.metadata.ns.getD "kube-system"
  let uid := m.metadata.uid.getD (src.uuidV5 (ns ++ "/" ++ name))
  some
    { manifestPod src.nodeName parseUrlContainer urlVolumeSource m uid ns name with
      hostPid := m.spec.hostPid.getD false
      hostIpc := m.spec.hostIpc.getD false
      securityContext := none }

def podKey (m : PodManifest) : String := m.metadata.ns.getD "kube-system" ++ "/" ++ m.metadata.name.getD "unknown"

/-- The UID that an item is left with. -/
def resolvedUid (committedUids : HashMap String String) (item : UrlItem) : Option String :=
  match item.manifest.metadata.uid with
  | some uid => some uid
  | none =>
    match committedUids.lookup (podKey item.manifest) with
    | some committed => some committed
    | none =>
      if src.hasKubeClient then
        match item.mirror with
        | .found uid => uid
        | .absent => none
        | .failed _ => none
      else none

def resolved (committedUids : HashMap String String) (item : UrlItem) : PodManifest :=
  { item.manifest with
    metadata := { item.manifest.metadata with uid := src.resolvedUid committedUids item } }

def uidStr (m : PodManifest) : String := m.metadata.uid.getD (src.uuidV5 (podKey m))

/-- `committed_uids.entry(key).or_insert(uid)`. -/
def commit (committedUids : HashMap String String) (key uid : String) : HashMap String String :=
  if (committedUids.lookup key).isSome then committedUids else committedUids.insert key uid

/-- The state inside a poll, with the items met so far and the UIDs settled for them. -/
structure Visit where
  state : UrlState
  met : List (UrlItem × String) := []

def visitItem (acc : Visit) (item : UrlItem) : Visit :=
  let m := src.resolved acc.state.committedUids item
  let uid := src.uidStr m
  let committedUids := commit acc.state.committedUids (podKey item.manifest) uid
  match src.parsePod m with
  | some pod =>
    { state := { announced := acc.state.announced.announce uid pod, committedUids := committedUids }
      met := acc.met ++ [(item,uid)] }
  | none => { state := { acc.state with committedUids := committedUids }, met := acc.met ++ [(item,uid)] }

/-- The pod of a Remove event. -/
def removedPod (_key : String) (uid : PodUID) : PodSpec where
  uid := uid
  podRef := { ns := "kube-system", name := "removed" }
  nodeName := src.nodeName

def visitAll (s : UrlState) (items : List UrlItem) : Visit := items.foldl src.visitItem { state := s }

/-- `committed_uids.retain(..)`: the UIDs that the poll has met. -/
def retain (committedUids : HashMap String String) (currentUids : List String) : HashMap String String :=
  (committedUids.entries.filter fun e => currentUids.contains e.2).toAList

def poll (s : UrlState) : UrlPoll → UrlState
  | .list items =>
    let visit := src.visitAll s (items.getD [])
    let currentUids := visit.met.map (·.2)
    { announced := visit.state.announced.withdrawAbsent src.removedPod currentUids
      committedUids := retain visit.state.committedUids currentUids }
  | _ => s

def run (polls : List UrlPoll) : UrlState := polls.foldl src.poll {}

/-- The items of a list with the UIDs that the poll settles for them. -/
def settled (s : UrlState) : UrlPoll → List (UrlItem × String)
  | .list items => (src.visitAll s (items.getD [])).met
  | _ => []

/-! ## One poll -/

section Lemmas
variable {src} {s : UrlState} {acc : Visit} {items : List UrlItem} {key uid : String}

/-- Every key is the UID that is announced under it. -/
def Keyed (s : UrlState) : Prop := ∀ key uid, s.announced.known.lookup key = some uid → uid.val = key

theorem uid_parsePod (src : UrlPodSource) (committedUids : HashMap String String) (item : UrlItem) : ∃ pod,
    src.parsePod (src.resolved committedUids item) = some pod ∧
      pod.uid = ⟨src.uidStr (src.resolved committedUids item)⟩ :=
  ⟨_,rfl,rfl⟩

/-- What one round leaves. -/
theorem visitItem_spec (src : UrlPodSource) (acc : Visit) (item : UrlItem) : ∃ pod uid,
    pod.uid = ⟨uid⟩ ∧ uid = src.uidStr (src.resolved acc.state.committedUids item) ∧
      src.visitItem acc item =
        { state := { announced := acc.state.announced.announce uid pod
                     committedUids := commit acc.state.committedUids (podKey item.manifest) uid }
          met := acc.met ++ [(item,uid)] } := by
  obtain ⟨pod,hpod,huid⟩ := uid_parsePod src acc.state.committedUids item
  refine ⟨pod,_,huid,rfl,?_⟩
  unfold visitItem
  dsimp only
  rw [hpod]

/-- Inside a poll: what has been met is known and nothing is announced under another UID. -/
structure Visiting (acc : Visit) : Prop where
  balanced : Balanced acc.state.announced
  keyed : Keyed acc.state
  met : ∀ e ∈ acc.met, (acc.state.announced.known.lookup e.2).isSome = true

theorem Visiting.visitItem (h : Visiting acc) (item : UrlItem) : Visiting (src.visitItem acc item) := by
  obtain ⟨pod,uid,huid,-,hvisit⟩ := visitItem_spec src acc item
  rw [hvisit]
  refine ⟨?_,?_,?_⟩
  · apply h.balanced.announce
    intro old hold
    have hval := h.keyed uid old hold
    rw [huid]
    exact PodUID.eq_of_val hval
  · intro key uid' hlookup
    rcases HashMap.lookup_insert_eq_some.mp hlookup with ⟨hkey,huid'⟩ | ⟨-,hold⟩
    · rw [← huid',huid,hkey]
    · exact h.keyed key uid' hold
  · intro e he
    show ((acc.state.announced.known.insert uid pod.uid).lookup e.2).isSome = true
    by_cases hkey : e.2 = uid
    · rw [hkey,AList.lookup_insert]
      rfl
    · rw [AList.lookup_insert_ne hkey]
      rcases List.mem_append.mp he with he | he
      · exact h.met e he
      · rw [List.mem_singleton.mp he] at hkey
        exact absurd rfl hkey

theorem Visiting.visitAll (src : UrlPodSource) (hbalanced : Balanced s.announced) (hkeyed : Keyed s) (items : List UrlItem) :
    Visiting (src.visitAll s items) := by
  have hfold (acc : Visit) (h : Visiting acc) : Visiting (items.foldl src.visitItem acc) := by
    induction items generalizing acc with
    | nil => exact h
    | cons item rest ih => exact ih _ (h.visitItem item)
  exact hfold { state := s } ⟨hbalanced,hkeyed,fun _ he => nomatch he⟩

theorem items_met (src : UrlPodSource) (s : UrlState) (items : List UrlItem) : (src.visitAll s items).met.map (·.1) = items := by
  have hfold (acc : Visit) : (items.foldl src.visitItem acc).met.map (·.1) = acc.met.map (·.1) ++ items := by
    induction items generalizing acc with
    | nil => exact (List.append_nil _).symm
    | cons item rest ih =>
      obtain ⟨pod,uid,-,-,hvisit⟩ := visitItem_spec src acc item
      rw [List.foldl_cons,ih,hvisit]
      simp
  exact hfold { state := s }

/-- What the source has announced is exact, and stays so over a poll. -/
structure Announces (s : UrlState) : Prop where
  balanced : Balanced s.announced
  keyed : Keyed s

theorem Announces.poll (h : Announces s) (src : UrlPodSource) (r : UrlPoll) : Announces (src.poll s r) := by
  cases r with
  | list items =>
    have hvisit := Visiting.visitAll src h.balanced h.keyed (items.getD [])
    refine ⟨hvisit.balanced.withdrawAbsent (fun _ _ => rfl) _,?_⟩
    intro key uid hlookup
    have hknown : ((src.visitAll s (items.getD [])).state.announced.withdrawAbsent src.removedPod
        ((src.visitAll s (items.getD [])).met.map (·.2))).known.lookup key = some uid := hlookup
    rw [lookup_withdrawAbsent] at hknown
    exact hvisit.keyed key uid (Option.ite_none_right_eq_some.mp hknown).2
  | fetchFailed => exact h
  | badStatus => exact h
  | notParsed => exact h

theorem announces_run (polls : List UrlPoll) : Announces (src.run polls) := by
  have hfold (s : UrlState) (h : Announces s) : Announces (polls.foldl src.poll s) := by
    induction polls generalizing s with
    | nil => exact h
    | cons r rest ih => exact ih _ (h.poll src r)
  exact hfold {} ⟨balanced_empty,fun _ _ h => nomatch h⟩

/-- After a successful poll the outstanding UIDs are those of its list. -/
theorem Announces.outstanding_iff (h : Announces s) (items : Option (List UrlItem)) (uid : PodUID) :
    Outstanding (src.poll s (.list items)).announced.sent uid ↔
      uid.val ∈ (src.settled s (.list items)).map (·.2) := by
  have hvisit := Visiting.visitAll src h.balanced h.keyed (items.getD [])
  rw [(h.poll src (.list items)).balanced.outstanding_iff]
  show (∃ key, ((src.visitAll s (items.getD [])).state.announced.withdrawAbsent src.removedPod
    ((src.visitAll s (items.getD [])).met.map (·.2))).known.lookup key = some uid) ↔
      uid.val ∈ (src.visitAll s (items.getD [])).met.map (·.2)
  simp only [lookup_withdrawAbsent,Option.ite_none_right_eq_some]
  constructor
  · rintro ⟨key,hmem,hlookup⟩
    rw [hvisit.keyed key uid hlookup]
    exact hmem
  · intro hmem
    obtain ⟨e,he,huid⟩ := List.mem_map.mp hmem
    obtain ⟨u,hu⟩ := Option.isSome_iff_exists.mp (hvisit.met e he)
    rw [huid] at hu
    have hval := PodUID.eq_of_val (hvisit.keyed uid.val u hu)
    exact ⟨uid.val,hmem,hval ▸ hu⟩

/-- An item with a UID of its own keeps it. -/
theorem settled_own (s : UrlState) (items : Option (List UrlItem)) :
    ∀ e ∈ src.settled s (.list items), ∀ uid, e.1.manifest.metadata.uid = some uid → e.2 = uid := by
  have hfold (acc : Visit) (l : List UrlItem)
      (h : ∀ e ∈ acc.met, ∀ uid, e.1.manifest.metadata.uid = some uid → e.2 = uid) :
      ∀ e ∈ (l.foldl src.visitItem acc).met, ∀ uid, e.1.manifest.metadata.uid = some uid → e.2 = uid := by
    induction l generalizing acc with
    | nil => exact h
    | cons item rest ih =>
      obtain ⟨pod,uid,-,huid,hvisit⟩ := visitItem_spec src acc item
      refine ih _ ?_
      rw [hvisit]
      intro e he own hown
      rcases List.mem_append.mp he with he | he
      · exact h e he own hown
      · rw [List.mem_singleton.mp he] at hown ⊢
        rw [huid]
        unfold uidStr resolved resolvedUid
        dsimp only
        rw [hown]
        rfl
  exact hfold { state := s } (items.getD []) (fun _ he => nomatch he)

/-! ## Pods without a UID of their own -/

/-- The item leaves the UID to the source. -/
def Unnamed (key : String) (item : UrlItem) : Prop :=
  item.manifest.metadata.uid = none ∧ podKey item.manifest = key

theorem lookup_commit_of_some {committedUids : HashMap String String} (h : committedUids.lookup key = some uid)
    (key' uid' : String) : (commit committedUids key' uid').lookup key = some uid := by
  unfold commit
  split
  · exact h
  · next hnone =>
    by_cases hkey : key = key'
    · rw [← hkey,h] at hnone
      exact absurd rfl hnone
    · rw [AList.lookup_insert_ne hkey,h]

theorem lookup_commit_self (committedUids : HashMap String String) (key uid : String) :
    (commit committedUids key uid).lookup key = some ((committedUids.lookup key).getD uid) := by
  unfold commit
  cases hlookup : committedUids.lookup key with
  | none =>
    rw [if_neg (by simp)]
    exact AList.lookup_insert _
  | some committed =>
    rw [if_pos (by simp),hlookup]
    rfl

theorem uidStr_of_committed {committedUids : HashMap String String} {item : UrlItem} (hitem : Unnamed key item)
    (h : committedUids.lookup key = some uid) : src.uidStr (src.resolved committedUids item) = uid := by
  obtain ⟨hnone,rfl⟩ := hitem
  unfold uidStr resolved resolvedUid
  dsimp only
  rw [hnone,h]
  rfl

/-- Every item without a UID has met the one that is committed for it. -/
def Committed (acc : Visit) : Prop :=
  ∀ e ∈ acc.met, ∀ key, Unnamed key e.1 → acc.state.committedUids.lookup key = some e.2

theorem Committed.visitItem (h : Committed acc) (item : UrlItem) : Committed (src.visitItem acc item) := by
  obtain ⟨pod,uid,-,huid,hvisit⟩ := visitItem_spec src acc item
  rw [hvisit]
  intro e he key hitem
  show (commit acc.state.committedUids (podKey item.manifest) uid).lookup key = some e.2
  rcases List.mem_append.mp he with he | he
  · exact lookup_commit_of_some (h e he key hitem) _ _
  · rw [List.mem_singleton.mp he] at hitem ⊢
    rw [hitem.2,lookup_commit_self]
    cases hlookup : acc.state.committedUids.lookup key with
    | none => rfl
    | some committed =>
      rw [huid,uidStr_of_committed hitem hlookup]
      rfl

theorem committed_visitAll (src : UrlPodSource) (s : UrlState) (items : List UrlItem) : Committed (src.visitAll s items) := by
  have hfold (acc : Visit) (h : Committed acc) : Committed (items.foldl src.visitItem acc) := by
    induction items generalizing acc with
    | nil => exact h
    | cons item rest ih => exact ih _ (h.visitItem item)
  exact hfold { state := s } (fun _ he => nomatch he)

/-- A committed UID is not changed inside a poll. -/
theorem lookup_visitAll (h : s.committedUids.lookup key = some uid) (items : List UrlItem) :
    (src.visitAll s items).state.committedUids.lookup key = some uid := by
  have hfold (acc : Visit) (h : acc.state.committedUids.lookup key = some uid) :
      (items.foldl src.visitItem acc).state.committedUids.lookup key = some uid := by
    induction items generalizing acc with
    | nil => exact h
    | cons item rest ih =>
      obtain ⟨pod,uid',-,-,hvisit⟩ := visitItem_spec src acc item
      rw [List.foldl_cons]
      apply ih
      rw [hvisit]
      exact lookup_commit_of_some h _ _
  exact hfold { state := s } h

theorem lookup_retain {committedUids : HashMap String String} {currentUids : List String}
    (h : committedUids.lookup key = some uid) (hmem : uid ∈ currentUids) :
    (retain committedUids currentUids).lookup key = some uid := by
  unfold retain
  rw [AList.lookup_to_alist]
  have hnodup : (committedUids.entries.filter fun e => currentUids.contains e.2).NodupKeys :=
    List.NodupKeys.sublist List.filter_sublist committedUids.nodupKeys
  refine (List.mem_dlookup_iff hnodup).mpr (List.mem_filter.mpr ⟨AList.mem_lookup_iff.mp h,?_⟩)
  simpa using hmem

/-- A pod without a UID leaves the poll with the UID it was announced under committed. -/
theorem lookup_poll_of_settled {r : UrlPoll} {e : UrlItem × String} (he : e ∈ src.settled s r)
    (hitem : Unnamed key e.1) : (src.poll s r).committedUids.lookup key = some e.2 := by
  cases r with
  | list items => exact lookup_retain (committed_visitAll src s _ e he key hitem) (List.mem_map_of_mem he)
  | fetchFailed => cases he
  | badStatus => cases he
  | notParsed => cases he

theorem settled_of_committed {r : UrlPoll} {e : UrlItem × String} (h : s.committedUids.lookup key = some uid)
    (he : e ∈ src.settled s r) (hitem : Unnamed key e.1) : e.2 = uid := by
  cases r with
  | list items =>
    have hmet := committed_visitAll src s _ e he key hitem
    rw [lookup_visitAll h] at hmet
    exact (Option.some.inj hmet).symm
  | fetchFailed => cases he
  | badStatus => cases he
  | notParsed => cases he

end Lemmas

/-- The fetch fails, or the list has the pod, without a UID. -/
def Carries (key : String) : UrlPoll → Prop
  | .list items => ∃ item ∈ items.getD [], Unnamed key item
  | _ => True

theorem lookup_poll_of_carries {s : UrlState} {key uid : String} {r : UrlPoll} (hr : Carries key r)
    (h : s.committedUids.lookup key = some uid) : (src.poll s r).committedUids.lookup key = some uid := by
  cases r with
  | list items =>
    obtain ⟨item,hmem,hitem⟩ := hr
    rw [← items_met src s (items.getD [])] at hmem
    obtain ⟨e,he,rfl⟩ := List.mem_map.mp hmem
    have hsettled : e ∈ src.settled s (.list items) := he
    rw [lookup_poll_of_settled hsettled hitem,settled_of_committed h hsettled hitem]
  | fetchFailed => exact h
  | badStatus => exact h
  | notParsed => exact h

theorem lookup_polls_of_carries {s : UrlState} {key uid : String} (between : List UrlPoll)
    (hbetween : ∀ r ∈ between, Carries key r) (h : s.committedUids.lookup key = some uid) :
    (between.foldl src.poll s).committedUids.lookup key = some uid := by
  induction between generalizing s with
  | nil => exact h
  | cons r rest ih =>
    exact ih (fun r' hr' => hbetween r' (List.mem_cons_of_mem _ hr'))
      (lookup_poll_of_carries src (hbetween r List.mem_cons_self) h)

/-- After every history of polls: a successful poll settles a UID for each item of its list and leaves exactly
these outstanding, a failed one changes nothing, and a pod without a UID of its own has the UID of a poll at every
later one, as long as each poll between them fails or has the pod. -/
theorem urlSource_live (polls : List UrlPoll) (r : UrlPoll) :
    (∀ items, r = .list items →
      (src.settled (src.run polls) r).map (·.1) = items.getD [] ∧
      (∀ e ∈ src.settled (src.run polls) r, ∀ uid, e.1.manifest.metadata.uid = some uid → e.2 = uid) ∧
      ∀ uid, Outstanding (src.poll (src.run polls) r).announced.sent uid ↔
        uid.val ∈ (src.settled (src.run polls) r).map (·.2)) ∧
    ((∀ items, r ≠ .list items) → src.poll (src.run polls) r = src.run polls) ∧
    ∀ e ∈ src.settled (src.run polls) r, ∀ key, Unnamed key e.1 → ∀ between, (∀ b ∈ between, Carries key b) →
      ∀ later, ∀ e' ∈ src.settled (src.run (polls ++ r :: between)) later, Unnamed key e'.1 → e'.2 = e.2 := by
  refine ⟨?_,?_,?_⟩
  · rintro items rfl
    exact ⟨items_met src _ _,settled_own _ _,(announces_run polls).outstanding_iff items⟩
  · intro hfailed
    cases r with
    | list items => exact absurd rfl (hfailed items)
    | fetchFailed => rfl
    | badStatus => rfl
    | notParsed => rfl
  · intro e he key hitem between hbetween later e' he' hitem'
    have hrun : src.run (polls ++ r :: between) = between.foldl src.poll (src.poll (src.run polls) r) := by
      unfold run
      rw [List.foldl_append,List.foldl_cons]
    rw [hrun] at he'
    exact settled_of_committed (lookup_polls_of_carries src between hbetween (lookup_poll_of_settled he hitem)) he' hitem'

end UrlPodSource

end KubeAir.Adapters
