import KubeAir.Adapters.PodSources
import KubeAir.Transition.Runs

/-! # The file source

A poll reads a directory of manifests, announces what it can read and withdraws the paths
that it has not met. What a directory holds is told apart from what a poll has met of it.
-/
namespace KubeAir.Adapters
open Core Transition

/-! ## Paths -/

def fileName (path : String) : List Char := (path.toList.reverse.takeWhile (· ≠ '/')).reverse

/-- `rsplit_file_at_dot` of the standard library. -/
def rsplitFileAtDot (file : List Char) : Option (List Char) × Option (List Char) :=
  if file = ['.','.'] then (some file,none)
  else
    let after := (file.reverse.takeWhile (· ≠ '.')).reverse
    let before := if after.length = file.length then none else some (file.take (file.length - after.length - 1))
    if before = some [] then (some file,none) else (before,some after)

/-- `Path::file_stem`. -/
def fileStem (path : String) : Option String :=
  let (before,after) := rsplitFileAtDot (fileName path)
  (before.or after).map String.ofList

/-- `Path::extension`. -/
def extension (path : String) : Option String :=
  let (before,after) := rsplitFileAtDot (fileName path)
  (before.bind fun _ => after).map String.ofList

/-! ## The source -/

/-- The source with what its libraries do: the two decoders and `Uuid::new_v5` in the URL namespace. -/
structure FilePodSource where
  nodeName : String
  fromJson : String → Option PodManifest
  fromYaml : String → Option PodManifest
  uuidV5 : String → String

/-- A directory entry and what reading it answers. -/
structure DirEntry where
  path : String
  content : Except KubeletError String

/-- What a poll sees of the directory. A listing can end in an error of `next_entry`. -/
inductive DirRead
  | missing
  | failed (error : KubeletError)
  | listed (entries : List DirEntry) (ended : Option KubeletError)

def isManifest (path : String) : Bool := ["yaml","yml","json"].contains ((extension path).getD "")

def fileVolumeSource (v : ManifestVolume) : Option VolumeSource :=
  (v.hostPath.map (·.source)).or <| (v.emptyDir.map (·.source)).or <| (v.configMap.map (·.source)).or <|
    (v.secret.map (·.source)).or <| (v.persistentVolumeClaim.map (·.source)).or <| v.projected.map (·.source)

namespace FilePodSource
variable (src : FilePodSource)

/-- The pod of a manifest that was decoded; host PID and IPC stay off. -/
def podOf (path : String) (m : PodManifest) : PodSpec :=
  manifestPod src.nodeName parseContainer fileVolumeSource m (m.metadata.uid.getD (src.uuidV5 path))
    (m.metadata.ns.getD "default") (m.metadata.name.getD ((fileStem path).getD "unknown"))

def parseManifest (content path : String) : Option PodSpec :=
  (if extension path = some "json" then src.fromJson content else src.fromYaml content).map fun m =>
    src.podOf path m

/-- The pod of a Remove event. -/
def removedPod (path : String) (uid : PodUID) : PodSpec where
  uid := uid
  podRef := { ns := "default", name := (fileStem path).getD "unknown" ++ "-" ++ src.nodeName }
  nodeName := src.nodeName

/-- One round of the loop over the entries; the second component is `current_paths`. -/
def visitEntry (acc : PollState × List String) (entry : DirEntry) : PollState × List String :=
  if isManifest entry.path then
    match entry.content with
    | .ok content =>
      match src.parseManifest content entry.path with
      | some pod => (acc.1.announce entry.path pod,acc.2 ++ [entry.path])
      | none => (acc.1,acc.2 ++ [entry.path])
    | .error _ => (acc.1,acc.2 ++ [entry.path])
  else acc

def poll (s : PollState) : DirRead → PollState
  | .missing => s
  | .failed _ => s.withdrawAbsent src.removedPod []
  | .listed entries _ =>
    let (s,currentPaths) := entries.foldl src.visitEntry (s,[])
    s.withdrawAbsent src.removedPod currentPaths

/-! ## What the directory holds -/

/-- The manifest that an entry is read as. -/
def read (entry : DirEntry) : Option PodSpec :=
  if isManifest entry.path then entry.content.toOption.bind (src.parseManifest · entry.path) else none

/-- The UIDs of the manifests at their paths. -/
abbrev Manifests := String → Option PodUID

def readEntry (present : Manifests) (entry : DirEntry) : Manifests :=
  match src.read entry with
  | some pod => Function.update present entry.path (some pod.uid)
  | none => present

def shownPaths (entries : List DirEntry) : List String := (entries.map (·.path)).filter isManifest

/-- The manifests that are present after a directory read. A file that cannot be read keeps the manifest that was
read last, and a directory read that fails says nothing. -/
def present (before : Manifests) : DirRead → Manifests
  | .listed entries none =>
    entries.foldl src.readEntry (fun path => if path ∈ shownPaths entries then before path else none)
  | _ => before

def presentAfter (polls : List DirRead) : Manifests := polls.foldl src.present (fun _ => none)

end FilePodSource

def DirRead.Complete (r : DirRead) : Prop := ∃ entries, r = .listed entries none

def DirRead.entries : DirRead → List DirEntry
  | .listed entries _ => entries
  | _ => []

namespace FilePodSource
variable (src : FilePodSource)

/-- What a poll has to do, `before` being present before it. -/
structure Lawful (before : Manifests) (s : PollState) (r : DirRead) : Prop where
  live : ∀ uid, Outstanding (src.poll s r).sent uid ↔ ∃ path, src.present before r path = some uid
  kept : ¬ r.Complete → ∀ u ∈ (src.poll s r).sent.drop s.sent.length, u.op ≠ .remove
  replaced : ∀ e ∈ r.entries, ∀ pod old, src.read e = some pod → before e.path = some old → pod.uid ≠ old →
    ∃ u ∈ (src.poll s r).sent.drop s.sent.length, u.op = .remove ∧ u.pod.uid = old

/-- The manifests of a path have one UID, the one it is known with. -/
structure UidsKept (known : Manifests) (entries : List DirEntry) : Prop where
  known : ∀ e ∈ entries, ∀ pod old, src.read e = some pod → known e.path = some old → old = pod.uid
  agree : ∀ e ∈ entries, ∀ e' ∈ entries, e.path = e'.path → ∀ pod pod', src.read e = some pod →
    src.read e' = some pod' → pod.uid = pod'.uid

/-- A directory that cannot be read holds nothing that is known; a listing that ends in an error has shown every
known path and no other manifest; and no path changes its UID. -/
def Steady (s : PollState) : DirRead → Prop
  | .missing => True
  | .failed _ => ∀ path, s.known.lookup path = none
  | .listed entries ended => src.UidsKept (s.known.lookup ·) entries ∧
      (ended ≠ none → (∀ path, (s.known.lookup path).isSome = true → path ∈ shownPaths entries) ∧
        ∀ e ∈ entries, (src.read e).isSome = true → (s.known.lookup e.path).isSome = true)

section Lemmas
variable {src} {s : PollState} {entries : List DirEntry} {before : Manifests}

/-- The pod that an entry announces, if it is read. -/
def announceEntry (src : FilePodSource) (s : PollState) (entry : DirEntry) : PollState :=
  match src.read entry with
  | some pod => s.announce entry.path pod
  | none => s

theorem visitEntry_eq (acc : PollState × List String) (entry : DirEntry) :
    src.visitEntry acc entry = (src.announceEntry acc.1 entry,acc.2 ++ shownPaths [entry]) := by
  unfold visitEntry announceEntry read shownPaths
  by_cases hmanifest : isManifest entry.path = true
  · rw [if_pos hmanifest,if_pos hmanifest]
    cases hcontent : entry.content with
    | error e => simp [Except.toOption,hmanifest]
    | ok content =>
      cases hparse : src.parseManifest content entry.path with
      | none => simp [Except.toOption,hparse,hmanifest]
      | some pod => simp [Except.toOption,hparse,hmanifest]
  · rw [if_neg hmanifest,if_neg hmanifest]
    simp [hmanifest]

theorem foldl_visitEntry (src : FilePodSource) (entries : List DirEntry) (acc : PollState × List String) :
    entries.foldl src.visitEntry acc = (entries.foldl src.announceEntry acc.1,acc.2 ++ shownPaths entries) := by
  induction entries generalizing acc with
  | nil => simp [shownPaths]
  | cons entry rest ih =>
    have hshown : shownPaths (entry :: rest) = shownPaths [entry] ++ shownPaths rest := by
      unfold shownPaths
      rw [← List.filter_append,← List.map_append]
      rfl
    rw [List.foldl_cons,ih,visitEntry_eq,List.foldl_cons,hshown,List.append_assoc]

theorem poll_listed (s : PollState) (entries : List DirEntry) (ended : Option KubeletError) :
    src.poll s (.listed entries ended) =
      (entries.foldl src.announceEntry s).withdrawAbsent src.removedPod (shownPaths entries) := by
  have hfold := foldl_visitEntry src entries (s,[])
  unfold poll
  dsimp only
  rw [hfold]
  rfl

/-- What is known is read off the entries as what is present. -/
theorem lookup_foldl_announce (src : FilePodSource) (entries : List DirEntry) (s : PollState) :
    ((entries.foldl src.announceEntry s).known.lookup ·) = entries.foldl src.readEntry (s.known.lookup ·) := by
  induction entries generalizing s with
  | nil => rfl
  | cons entry rest ih =>
    rw [List.foldl_cons,ih,List.foldl_cons]
    congr 1
    unfold announceEntry readEntry
    cases src.read entry with
    | none => rfl
    | some pod =>
      funext path
      by_cases hpath : path = entry.path
      · rw [hpath]
        simp [PollState.announce]
      · simp [PollState.announce,hpath]

theorem read_shown {entry : DirEntry} {pod : PodSpec} (hmem : entry ∈ entries) (h : src.read entry = some pod) :
    entry.path ∈ shownPaths entries := by
  refine List.mem_filter.mpr ⟨List.mem_map_of_mem hmem,?_⟩
  by_contra hmanifest
  unfold read at h
  rw [if_neg hmanifest] at h
  cases h

/-- A path is read from its own entries only. -/
theorem foldl_readEntry_congr {present present' : Manifests} {path : String} (h : present path = present' path) :
    entries.foldl src.readEntry present path = entries.foldl src.readEntry present' path := by
  induction entries generalizing present present' with
  | nil => exact h
  | cons entry rest ih =>
    rw [List.foldl_cons,List.foldl_cons]
    apply ih
    unfold readEntry
    cases src.read entry with
    | none => exact h
    | some pod =>
      dsimp only
      by_cases hpath : path = entry.path
      · rw [hpath,Function.update_self,Function.update_self]
      · rw [Function.update_of_ne hpath,Function.update_of_ne hpath,h]

/-- A path that is not shown is not read. -/
theorem foldl_readEntry_of_notMem {present : Manifests} {path : String} (h : path ∉ shownPaths entries) :
    entries.foldl src.readEntry present path = present path := by
  have hstep (l : List DirEntry) (hl : ∀ e ∈ l, e ∈ entries) (present : Manifests) :
      l.foldl src.readEntry present path = present path := by
    induction l generalizing present with
    | nil => rfl
    | cons entry rest ih =>
      rw [List.foldl_cons,ih (fun e he => hl e (List.mem_cons_of_mem _ he))]
      unfold readEntry
      cases hread : src.read entry with
      | none => rfl
      | some pod =>
        have hshown := read_shown (hl entry List.mem_cons_self) hread
        have hpath : path ≠ entry.path := by
          rintro rfl
          exact h hshown
        exact Function.update_of_ne hpath _ _
  exact hstep entries (fun _ he => he) present

/-- Entries that are read as they are known change nothing. -/
theorem foldl_readEntry_of_known {present : Manifests}
    (h : ∀ e ∈ entries, ∀ pod, src.read e = some pod → present e.path = some pod.uid) :
    entries.foldl src.readEntry present = present := by
  induction entries with
  | nil => rfl
  | cons entry rest ih =>
    have hhead : src.readEntry present entry = present := by
      unfold readEntry
      cases hread : src.read entry with
      | none => rfl
      | some pod =>
        dsimp only
        rw [← h entry List.mem_cons_self pod hread,Function.update_eq_self]
    rw [List.foldl_cons,hhead]
    exact ih (fun e he => h e (List.mem_cons_of_mem _ he))

theorem Balanced.announceAll (h : Balanced s) (hkept : src.UidsKept (s.known.lookup ·) entries) :
    Balanced (entries.foldl src.announceEntry s) := by
  induction entries generalizing s with
  | nil => exact h
  | cons entry rest ih =>
    rw [List.foldl_cons]
    have hagree : ∀ e ∈ rest, ∀ e' ∈ rest, e.path = e'.path → ∀ pod pod', src.read e = some pod →
        src.read e' = some pod' → pod.uid = pod'.uid :=
      fun e he e' he' => hkept.agree e (List.mem_cons_of_mem _ he) e' (List.mem_cons_of_mem _ he')
    unfold announceEntry
    cases hread : src.read entry with
    | none =>
      exact ih h ⟨fun e he => hkept.known e (List.mem_cons_of_mem _ he),hagree⟩
    | some pod =>
      apply ih
      · exact h.announce (fun old hold => hkept.known entry List.mem_cons_self pod old hread hold)
      · refine ⟨?_,hagree⟩
        intro e he pod' old hread' hold
        have hlookup : (s.known.insert entry.path pod.uid).lookup e.path = some old := hold
        rcases HashMap.lookup_insert_eq_some.mp hlookup with ⟨hpath,huid⟩ | ⟨-,hbefore⟩
        · rw [← huid]
          exact hkept.agree entry List.mem_cons_self e (List.mem_cons_of_mem _ he) hpath.symm pod pod' hread hread'
        · exact hkept.known e (List.mem_cons_of_mem _ he) pod' old hread' hbefore

/-- Announcing removes nothing. -/
theorem sent_announceAll (src : FilePodSource) (entries : List DirEntry) (s : PollState) :
    ∃ new, (entries.foldl src.announceEntry s).sent = s.sent ++ new ∧ ∀ u ∈ new, u.op ≠ .remove := by
  induction entries generalizing s with
  | nil => exact ⟨[],(List.append_nil _).symm,fun _ h => nomatch h⟩
  | cons entry rest ih =>
    obtain ⟨new,hnew,hop⟩ := ih (src.announceEntry s entry)
    rw [List.foldl_cons,hnew]
    unfold announceEntry
    cases src.read entry with
    | none => exact ⟨new,rfl,hop⟩
    | some pod =>
      refine ⟨{ pod := pod, op := s.operation entry.path pod.uid } :: new,?_,?_⟩
      · simp [PollState.announce]
      · intro u hu
        rcases List.mem_cons.mp hu with rfl | hu
        · unfold PollState.operation
          dsimp only
          split
          · simp
          · split <;> simp
        · exact hop u hu

/-- The state and the manifests that are present fit together. -/
structure Tracks (s : PollState) (present : Manifests) : Prop where
  balanced : Balanced s
  known : ∀ path, s.known.lookup path = present path

theorem Tracks.outstanding_iff (h : Tracks s before) (uid : PodUID) :
    Outstanding s.sent uid ↔ ∃ path, before path = some uid := by
  rw [h.balanced.outstanding_iff]
  exact exists_congr fun path => by rw [h.known path]

/-- A partial listing that only shows what is known changes nothing. -/
theorem foldl_announce_of_shown (hkept : src.UidsKept (s.known.lookup ·) entries)
    (honly : ∀ e ∈ entries, (src.read e).isSome = true → (s.known.lookup e.path).isSome = true) :
    ((entries.foldl src.announceEntry s).known.lookup ·) = (s.known.lookup ·) := by
  rw [lookup_foldl_announce]
  apply foldl_readEntry_of_known
  intro e he pod hread
  obtain ⟨old,hold⟩ := Option.isSome_iff_exists.mp (honly e he (by rw [hread]; rfl))
  have hsame := hkept.known e he pod old hread hold
  rw [hold,hsame]

theorem Tracks.poll (h : Tracks s before) {r : DirRead} (hsteady : src.Steady s r) :
    Tracks (src.poll s r) (src.present before r) := by
  have hremoved : ∀ key uid, (src.removedPod key uid).uid = uid := fun _ _ => rfl
  cases r with
  | missing => exact h
  | failed e =>
    refine ⟨h.balanced.withdrawAbsent hremoved [],?_⟩
    intro path
    show (s.withdrawAbsent src.removedPod []).known.lookup path = before path
    have hnone := hsteady path
    rw [lookup_withdrawAbsent,if_neg (by simp),← h.known path,hnone]
  | listed entries ended =>
    obtain ⟨hkept,hended⟩ := hsteady
    rw [poll_listed]
    refine ⟨(Balanced.announceAll h.balanced hkept).withdrawAbsent hremoved _,?_⟩
    intro path
    rw [lookup_withdrawAbsent]
    have hfold := congrFun (lookup_foldl_announce src entries s) path
    have hbefore : (s.known.lookup ·) = before := funext h.known
    cases ended with
    | none =>
      show _ = entries.foldl src.readEntry _ path
      by_cases hshown : path ∈ shownPaths entries
      · rw [if_pos hshown,hfold,hbefore]
        exact foldl_readEntry_congr (if_pos hshown).symm
      · rw [if_neg hshown,foldl_readEntry_of_notMem hshown,if_neg hshown]
    | some e =>
      obtain ⟨hall,honly⟩ := hended (by simp)
      have hsame := congrFun (foldl_announce_of_shown hkept honly) path
      show _ = before path
      by_cases hshown : path ∈ shownPaths entries
      · rw [if_pos hshown]
        exact hsame.trans (h.known path)
      · rw [if_neg hshown,← h.known path]
        cases hlookup : s.known.lookup path with
        | none => rfl
        | some uid => exact absurd (hall path (by rw [hlookup]; rfl)) hshown

/-- A directory read that fails removes nothing. -/
theorem kept_of_steady {r : DirRead} (hsteady : src.Steady s r) (hfails : ¬ r.Complete) :
    ∀ u ∈ (src.poll s r).sent.drop s.sent.length, u.op ≠ .remove := by
  have hnothing : ∀ u ∈ s.sent.drop s.sent.length, u.op ≠ .remove := by
    rw [List.drop_length]
    exact fun u hu => nomatch hu
  cases r with
  | missing => exact hnothing
  | failed e =>
    have hsame : src.poll s (.failed e) = s := by
      apply withdrawAbsent_of_subset
      intro key hkey
      have hsome := AList.lookup_isSome.mpr (AList.mem_keys.mpr hkey)
      rw [hsteady key] at hsome
      cases hsome
    rw [hsame]
    exact hnothing
  | listed entries ended =>
    obtain ⟨hkept,hended⟩ := hsteady
    cases ended with
    | none => exact absurd ⟨entries,rfl⟩ hfails
    | some e =>
      obtain ⟨hall,honly⟩ := hended (by simp)
      have hsame : src.poll s (.listed entries (some e)) = entries.foldl src.announceEntry s := by
        rw [poll_listed]
        apply withdrawAbsent_of_subset
        intro key hkey
        have hsome := AList.lookup_isSome.mpr (AList.mem_keys.mpr hkey)
        have hlookup := congrFun (foldl_announce_of_shown hkept honly) key
        rw [hlookup] at hsome
        exact hall key hsome
      obtain ⟨new,hnew,hop⟩ := sent_announceAll src entries s
      rw [hsame,hnew,List.drop_left]
      exact hop

theorem lawful_of_steady (h : Tracks s before) {r : DirRead} (hsteady : src.Steady s r) : src.Lawful before s r := by
  refine ⟨(h.poll hsteady).outstanding_iff,kept_of_steady hsteady,?_⟩
  intro e he pod old hread hold hne
  cases r with
  | missing => cases he
  | failed error => cases he
  | listed entries ended =>
    have hknown : s.known.lookup e.path = some old := (h.known e.path).trans hold
    exact absurd (hsteady.1.known e he pod old hread hknown).symm hne

theorem tracks_run {polls : List DirRead} (hr : Runs (Guarded src.Steady (fun s r t => t = src.poll s r)) {} polls s) :
    Tracks s (src.presentAfter polls) := by
  have hrun (polls : List DirRead) (s₀ : PollState) (before : Manifests) (h : Tracks s₀ before)
      (hr : Runs (Guarded src.Steady (fun s r t => t = src.poll s r)) s₀ polls s) :
      Tracks s (polls.foldl src.present before) := by
    induction polls generalizing s₀ before with
    | nil =>
      cases hr
      exact h
    | cons r rest ih =>
      cases hr with
      | cons hstep hrest =>
        obtain ⟨hsteady,rfl⟩ := hstep
        exact ih _ _ (h.poll hsteady) hrest
  exact hrun polls {} (fun _ => none) ⟨balanced_empty,fun _ => rfl⟩ hr

/-- A steady poll, by going through what it sees and what is known. -/
def steadily (src : FilePodSource) (s : PollState) : DirRead → Bool
  | .missing => true
  | .failed _ => s.known.keys.isEmpty
  | .listed entries ended =>
    entries.all (fun e => (src.read e).all fun pod => (s.known.lookup e.path).all (· == pod.uid) &&
      entries.all fun e' => e.path != e'.path || (src.read e').all (pod.uid == ·.uid)) &&
    (ended.isNone || s.known.keys.all (· ∈ shownPaths entries) &&
      entries.all fun e => (src.read e).isNone || (s.known.lookup e.path).isSome)

theorem steady_of_steadily {r : DirRead} (h : src.steadily s r = true) : src.Steady s r := by
  cases r with
  | missing => trivial
  | failed error =>
    intro path
    refine AList.lookup_eq_none.mpr fun hpath => ?_
    have hkeys : path ∈ s.known.keys := AList.mem_keys.mp hpath
    rw [List.isEmpty_iff.mp h] at hkeys
    cases hkeys
  | listed entries ended =>
    obtain ⟨hkept,hended⟩ := Bool.and_eq_true_iff.mp h
    have hread : ∀ e ∈ entries, ∀ pod, src.read e = some pod → (s.known.lookup e.path).all (· == pod.uid) = true ∧
        ∀ e' ∈ entries, e.path = e'.path → ∀ pod', src.read e' = some pod' → pod.uid = pod'.uid := by
      intro e he pod hpod
      have hboth := (Option.all_eq_true _ _).mp (List.all_eq_true.mp hkept e he) pod hpod
      obtain ⟨hknown,hagree⟩ := Bool.and_eq_true_iff.mp hboth
      refine ⟨hknown,fun e' he' hpath pod' hpod' => ?_⟩
      have hpair := List.all_eq_true.mp hagree e' he'
      rw [hpath,bne_self_eq_false,Bool.false_or] at hpair
      exact eq_of_beq ((Option.all_eq_true _ _).mp hpair pod' hpod')
    refine ⟨⟨?_,?_⟩,fun hne => ?_⟩
    · intro e he pod old hpod hold
      exact eq_of_beq ((Option.all_eq_true _ _).mp (hread e he pod hpod).1 old hold)
    · intro e he e' he' hpath pod pod' hpod hpod'
      exact (hread e he pod hpod).2 e' he' hpath pod' hpod'
    · rw [Option.isNone_eq_false_iff.mpr (Option.isSome_iff_ne_none.mpr hne),Bool.false_or,Bool.and_eq_true] at hended
      constructor
      · intro path hpath
        have hkeys : path ∈ s.known.keys := AList.mem_keys.mp (AList.lookup_isSome.mp hpath)
        exact of_decide_eq_true (List.all_eq_true.mp hended.1 path hkeys)
      · intro e he hsome
        have hentry := List.all_eq_true.mp hended.2 e he
        rwa [Option.isNone_eq_false_iff.mpr hsome,Bool.false_or] at hentry

end Lemmas

/-- In every history of steady polls the next steady poll does what it has to do. -/
theorem fileSource_lawful {polls : List DirRead} {s : PollState}
    (hr : Runs (Guarded src.Steady (fun s r t => t = src.poll s r)) {} polls s) {r : DirRead}
    (hsteady : src.Steady s r) : src.Lawful (src.presentAfter polls) s r :=
  lawful_of_steady (tracks_run hr) hsteady

end FilePodSource

/-- A source whose manifests hold a UID and nothing else. -/
def uidSource : FilePodSource where
  nodeName := "node1"
  fromJson content := some { metadata := { uid := some content } }
  fromYaml content := some { metadata := { uid := some content } }
  uuidV5 := id

/-- A directory with one manifest. -/
def oneManifest (uid : String) : DirRead := .listed [⟨"/manifests/a.yaml",.ok uid⟩] none

/-- Three manifests; a listing that breaks off after it has shown them; then one is as it was, one cannot be read,
one is gone and one is new. -/
def threeManifests : DirRead := .listed [⟨"/manifests/a.yaml",.ok "u1"⟩,⟨"/manifests/b.json",.ok "u2"⟩,⟨"/manifests/c.yaml",.ok "u3"⟩] none

def brokenListing : DirRead :=
  .listed [⟨"/manifests/a.yaml",.ok "u1"⟩,⟨"/manifests/b.json",.ok "u2"⟩,⟨"/manifests/c.yaml",.error (.io "busy")⟩] (some (.io "stale"))

def changedManifests : DirRead := .listed [⟨"/manifests/a.yaml",.ok "u1"⟩,⟨"/manifests/b.json",.error (.io "denied")⟩,
  ⟨"/manifests/d.yml",.ok "u4"⟩,⟨"/manifests/notes.txt",.ok "u5"⟩] none

theorem fileSource_lawful_changed : ∃ s, s = [threeManifests,brokenListing].foldl uidSource.poll {} ∧
    uidSource.Lawful (uidSource.presentAfter [threeManifests,brokenListing]) s changedManifests ∧
    (uidSource.poll s changedManifests).sent.map (fun u => (u.op,u.pod.uid)) =
      s.sent.map (fun u => (u.op,u.pod.uid)) ++ [(.reconcile,⟨"u1"⟩),(.add,⟨"u4"⟩),(.remove,⟨"u3"⟩)] := by
  refine ⟨_,rfl,FilePodSource.fileSource_lawful uidSource (.cons ⟨?_,rfl⟩ (.cons ⟨?_,rfl⟩ (.nil _))) ?_,?_⟩
  · exact FilePodSource.steady_of_steadily (by decide +kernel)
  · exact FilePodSource.steady_of_steadily (by decide +kernel)
  · exact FilePodSource.steady_of_steadily (by decide +kernel)
  · decide +kernel

/-- The state after the first poll. -/
def oneAnnounced : PollState := uidSource.poll {} (oneManifest "u1")

/-- A directory that cannot be read removes the pod, and a manifest with a new UID leaves the old one. -/
theorem not_fileSource_lawful :
    ¬ uidSource.Lawful (uidSource.presentAfter [oneManifest "u1"]) oneAnnounced (.failed (.io "denied")) ∧
    ¬ uidSource.Lawful (uidSource.presentAfter [oneManifest "u1"]) oneAnnounced (oneManifest "u2") := by
  constructor
  · intro h
    have hops : ((uidSource.poll oneAnnounced (.failed (.io "denied"))).sent.drop
        oneAnnounced.sent.length).map (·.op) = [.remove] := by decide +kernel
    obtain ⟨u,hu,hop⟩ := List.mem_map.mp (hops ▸ List.mem_singleton_self PodOperation.remove)
    exact h.kept (fun hcomplete => by obtain ⟨entries,hentries⟩ := hcomplete; cases hentries) u hu hop
  · intro h
    have hops : ((uidSource.poll oneAnnounced (oneManifest "u2")).sent.drop
        oneAnnounced.sent.length).map (·.op) = [.update] := by decide +kernel
    obtain ⟨pod,hread,huid⟩ : ∃ pod, uidSource.read ⟨"/manifests/a.yaml",.ok "u2"⟩ = some pod ∧ pod.uid ≠ ⟨"u1"⟩ := by
      have hread : (uidSource.read ⟨"/manifests/a.yaml",.ok "u2"⟩).map (·.uid) = some ⟨"u2"⟩ := by decide +kernel
      obtain ⟨pod,hpod,huid⟩ := Option.map_eq_some_iff.mp hread
      refine ⟨pod,hpod,?_⟩
      rw [huid]
      decide
    have hbefore : uidSource.presentAfter [oneManifest "u1"] "/manifests/a.yaml" = some ⟨"u1"⟩ := by decide +kernel
    obtain ⟨u,hu,hop,-⟩ := h.replaced _ List.mem_cons_self pod ⟨"u1"⟩ hread hbefore huid
    have hmem := List.mem_map_of_mem (f := (·.op)) hu
    rw [hops,List.mem_singleton,hop] at hmem
    cases hmem

end KubeAir.Adapters
