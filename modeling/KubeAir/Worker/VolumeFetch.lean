import KubeAir.Worker.VolumeProjection

/-! # Fetches that fail

A sync does not ask why an optional ConfigMap or Secret could not be fetched. It takes it for
deleted, and sweeps away the files that were written from it earlier.
-/
namespace KubeAir.Worker.Volumes
open Core Paths Transition

/-- The fetch of an optional source with these items fails, for one reason or another. -/
inductive OptionalFetchFails (inputs : VolumeInputs) (v : VolumeSpec) (items : List KeyToPath) : Prop
  | configMap {name : String} {defaultMode : Option ℤ} {e : String}
      (source : v.source = .configMap name items true defaultMode) (fails : inputs.configMap name v.name 0 1 = .error e)
  | secret {secretName : String} {defaultMode : Option ℤ} {e : String}
      (source : v.source = .secret secretName items true defaultMode) (fails : inputs.secret secretName v.name 0 1 = .error e)
  | projectedConfigMap {sources : List ProjectedVolumeSource} {defaultMode : Option ℤ} {i : ℕ} {name : String}
      {e : KubeletError} (source : v.source = .projected sources defaultMode)
      (at' : sources[i]? = some (.configMap name items true))
      (fails : fetchRetry (configMapFailed name) (inputs.configMap name v.name i) 5 1 = .error e)
  | projectedSecret {sources : List ProjectedVolumeSource} {defaultMode : Option ℤ} {i : ℕ} {name : String}
      {e : KubeletError} (source : v.source = .projected sources defaultMode)
      (at' : sources[i]? = some (.secret name items true))
      (fails : fetchRetry (secretFailed name) (inputs.secret name v.name i) 5 1 = .error e)

/-- What the volume still shows: nothing if it is made from the one object, the other sources
if it is projected, and `none` if the sync gives up before it touches a file. -/
def remaining (inputs : VolumeInputs) (dir : Path) (tokens : ℕ → String) (v : VolumeSpec) : Option Projection :=
  match v.source with
  | .projected _ _ => currentProjection inputs dir tokens v
  | _ => some ⟨[],[]⟩

/-- The files that are there with these contents stay so. -/
def KeepsFiles (cwd : List String) (files : List (Path × Bytes)) (disk disk' : Disk Bytes) : Prop :=
  ∀ e ∈ files, disk.contents (e.1.place cwd) = some e.2 → disk'.contents (e.1.place cwd) = some e.2

/-- A file is outside of the directory, or the projection names it by plain names; and the
projection has no other contents for its place. -/
structure Spares (cwd : List String) (dir : Path) (p : Projection) (e : Path × Bytes) : Prop where
  named : ∀ names, e.1.place cwd = dir.place cwd ++ names → p.Names dir names
  same : ∀ c, overlay (fun _ => none) (placed cwd p.files) (e.1.place cwd) = some c → c = e.2

section Sync
variable {cwd : List String} {dir : Path} {w w' : VolumeWorld} {files : List (Path × Bytes)}

/-- A file that was there is kept by a sync exactly if what the sync shows spares it. -/
theorem Synced.kept_iff {p : Projection} (h : Synced cwd dir p.files (p.paths dir) w w')
    {e : Path × Bytes} (he : w.disk.contents (e.1.place cwd) = some e.2) :
    w'.disk.contents (e.1.place cwd) = some e.2 ↔ Spares cwd dir p e := by
  have hstale : Stale cwd dir (fun names => dir.below names ∈ p.paths dir) [] (e.1.place cwd) ↔
      ∃ names, e.1.place cwd = dir.place cwd ++ names ∧ ¬p.Names dir names := by
    unfold Stale
    simp only [Projection.below_mem_paths,List.nil_append]
  constructor
  · intro hkept
    have hnot := mt (h.swept _) (by rw [hkept]; exact Option.some_ne_none _)
    rw [h.kept _ hnot,overlay_eq_some_iff he] at hkept
    refine ⟨?_,hkept⟩
    intro names hplace
    by_contra hno
    exact hnot (hstale.mpr ⟨names,hplace,hno⟩)
  · rintro ⟨hnamed,hsame⟩
    have hnot := mt hstale.mp (by rintro ⟨names,hplace,hno⟩; exact hno (hnamed names hplace))
    rw [h.kept _ hnot,overlay_eq_some_iff he]
    exact hsame

theorem Synced.keepsFiles_iff {p : Projection}
    (h : Synced cwd dir p.files (p.paths dir) w w') :
    KeepsFiles cwd files w.disk w'.disk ↔
      ∀ e ∈ files, w.disk.contents (e.1.place cwd) = some e.2 → Spares cwd dir p e := by
  unfold KeepsFiles
  constructor
  · intro hk e he hc
    exact (h.kept_iff hc).mp (hk e he hc)
  · intro hs e he hc
    exact (h.kept_iff hc).mpr (hs e he hc)

/-- An optional object that is not fetched leaves nothing in the directory. -/
theorem meets_clearOrFail (inputs : VolumeInputs) (e : KubeletError) (w : VolumeWorld)
    (hw : Ready cwd dir inputs.depth w.disk) :
    (clearOrFail inputs dir true e).Meets (smooth cwd dir inputs.depth)
      (fun r w' => r = .ok () ∧ Synced cwd dir [] [] w w') w := by
  unfold clearOrFail
  rw [if_pos rfl,Program.meets_bind]
  refine (meets_clearVolumeDir inputs w hw).mono fun _ w' h => ?_
  have hstale : ∀ place, Stale cwd dir (fun names => dir.below names ∈ []) [] place ↔
      Stale cwd dir (fun _ => False) [] place := by
    intro place
    unfold Stale
    simp only [List.not_mem_nil]
  exact ⟨rfl,fun place hs => h.swept place ((hstale place).mp hs),fun place hs => h.kept place (mt (hstale place).mpr hs)⟩

/-- If a required source cannot be fetched, no file changes. -/
theorem meets_writeProjectedVolume_of_error (inputs : VolumeInputs) {volume : String}
    {sources : List ProjectedVolumeSource} {defaultMode : Option ℤ} {e : KubeletError}
    (he : fetchSources inputs volume {} 0 sources = .error e) (w : VolumeWorld) :
    (writeProjectedVolume inputs dir volume sources defaultMode).Meets (smooth cwd dir inputs.depth)
      (fun _ w' => w'.disk.contents = w.disk.contents) w := by
  refine meets_writeProjectedVolume inputs fun w' h => ?_
  unfold writeFetched
  rw [he]
  exact h.contents

end Sync

/-- What the volume still shows spares each of the files that is there. -/
def SparesFiles (inputs : VolumeInputs) (cwd : List String) (dir : Path) (v : VolumeSpec) (files : List (Path × Bytes))
    (w : VolumeWorld) : Prop :=
  ∀ p, remaining inputs dir w.tokens v = some p →
    ∀ e ∈ files, w.disk.contents (e.1.place cwd) = some e.2 → Spares cwd dir p e

/-- A sync has brought the directory to what the volume still shows, or has changed no file. -/
def Shows (inputs : VolumeInputs) (cwd : List String) (dir : Path) (v : VolumeSpec) (w w' : VolumeWorld) : Prop :=
  match remaining inputs dir w.tokens v with
  | some p => Synced cwd dir p.files (p.paths dir) w w'
  | none => w'.disk.contents = w.disk.contents

theorem meets_writeVolume_projected (inputs : VolumeInputs) (pod : PodSpec) {v : VolumeSpec} (cwd : List String)
    (w : VolumeWorld) {sources : List ProjectedVolumeSource} {defaultMode : Option ℤ}
    (hsource : v.source = .projected sources defaultMode) :
    (writeVolume inputs pod v).Meets (smooth cwd (volumeTargetPath inputs pod v.name) inputs.depth)
      (fun _ => Shows inputs cwd (volumeTargetPath inputs pod v.name) v w) w := by
  have hremaining : remaining inputs (volumeTargetPath inputs pod v.name) w.tokens v =
      currentProjection inputs (volumeTargetPath inputs pod v.name) w.tokens v := by
    unfold remaining
    rw [hsource]
  unfold Shows
  rw [hremaining]
  cases hp : currentProjection inputs (volumeTargetPath inputs pod v.name) w.tokens v with
  | some p => exact (meets_writeVolume inputs pod v cwd w hp).mono fun _ _ h => h.2
  | none =>
    have hvolume : writeVolume inputs pod v =
        writeProjectedVolume inputs (volumeTargetPath inputs pod v.name) v.name sources defaultMode := by
      unfold writeVolume
      rw [hsource]
    rw [hvolume]
    unfold currentProjection at hp
    rw [hsource] at hp
    dsimp only at hp
    cases he : fetchSources inputs v.name {} 0 sources with
    | ok fetched =>
      rw [he] at hp
      cases hp
    | error e => exact meets_writeProjectedVolume_of_error inputs he w

theorem meets_writeVolume_fails (inputs : VolumeInputs) (pod : PodSpec) (v : VolumeSpec) (cwd : List String)
    (w : VolumeWorld) {items : List KeyToPath} (hfails : OptionalFetchFails inputs v items) :
    (writeVolume inputs pod v).Meets (smooth cwd (volumeTargetPath inputs pod v.name) inputs.depth)
      (fun _ => Shows inputs cwd (volumeTargetPath inputs pod v.name) v w) w := by
  cases hfails with
  | configMap hsource hfails =>
    unfold writeVolume Shows remaining
    rw [hsource]
    dsimp only
    unfold writeConfigMapVolume
    refine meets_prepared fun w₁ h₁ => ?_
    rw [if_pos rfl,hfails]
    exact (meets_clearOrFail inputs _ w₁ h₁.ready).mono fun _ _ h => h₁.synced h.2
  | secret hsource hfails =>
    unfold writeVolume Shows remaining
    rw [hsource]
    dsimp only
    unfold writeSecretVolume
    refine meets_prepared fun w₁ h₁ => ?_
    rw [if_pos rfl,hfails]
    exact (meets_clearOrFail inputs _ w₁ h₁.ready).mono fun _ _ h => h₁.synced h.2
  | projectedConfigMap hsource hat hfails => exact meets_writeVolume_projected inputs pod cwd w hsource
  | projectedSecret hsource hat hfails => exact meets_writeVolume_projected inputs pod cwd w hsource

/-- Files that were there are kept exactly if what the volume still shows spares them. -/
theorem Shows.keepsFiles_iff {inputs : VolumeInputs} {cwd : List String} {dir : Path} {v : VolumeSpec} {w w' : VolumeWorld}
    {files : List (Path × Bytes)} (h : Shows inputs cwd dir v w w') :
    KeepsFiles cwd files w.disk w'.disk ↔ SparesFiles inputs cwd dir v files w := by
  unfold Shows at h
  unfold SparesFiles
  cases hremaining : remaining inputs dir w.tokens v with
  | some p =>
    rw [hremaining] at h
    dsimp only at h
    rw [h.keepsFiles_iff]
    constructor
    · rintro hspares _ ⟨⟩
      exact hspares
    · intro hspares
      exact hspares p rfl
  | none =>
    rw [hremaining] at h
    dsimp only at h
    constructor
    · rintro - _ ⟨⟩
    · intro _ e _ hc
      rwa [h]

/-- The files that are written where a fetch fails. -/
def remainingFiles (inputs : VolumeInputs) (dir : Path) (tokens : ℕ → String) (v : VolumeSpec) : List (Path × Bytes) :=
  ((remaining inputs dir tokens v).map (·.files)).getD []

/-- The files that an optional source contributed earlier stay as they are, whatever its fetch
fails with, if and only if what the volume still shows spares them, as long as no link is followed. -/
theorem writeVolume_keeps_iff (inputs : VolumeInputs) (pod : PodSpec) (v : VolumeSpec) (cwd : List String)
    (w : LinkedWorld) (items : List KeyToPath) (earlier : HashMap String Bytes) (hfails : OptionalFetchFails inputs v items)
    (hlinks : Unlinked cwd (volumeTargetPath inputs pod v.name)
      (remainingFiles inputs (volumeTargetPath inputs pod v.name) w.world.tokens v) w) :
    (writeVolume inputs pod v).Meets (amidLinks cwd (volumeTargetPath inputs pod v.name) inputs.depth
      (remainingFiles inputs (volumeTargetPath inputs pod v.name) w.world.tokens v)) (fun _ w' =>
        KeepsFiles cwd (dataWrites (volumeTargetPath inputs pod v.name) earlier items) w.world.disk w'.world.disk ↔
          SparesFiles inputs cwd (volumeTargetPath inputs pod v.name) v
            (dataWrites (volumeTargetPath inputs pod v.name) earlier items) w.world) w := by
  have hworld : (writeVolume inputs pod v).Meets (smooth cwd (volumeTargetPath inputs pod v.name) inputs.depth) (fun _ w' =>
      KeepsFiles cwd (dataWrites (volumeTargetPath inputs pod v.name) earlier items) w.world.disk w'.disk ↔
        SparesFiles inputs cwd (volumeTargetPath inputs pod v.name) v
          (dataWrites (volumeTargetPath inputs pod v.name) earlier items) w.world) w.world := by
    refine (meets_writeVolume_fails inputs pod v cwd w.world hfails).mono ?_
    intro _ w' h
    exact h.keepsFiles_iff
  exact hworld.guarded hlinks

/-! A ConfigMap that could not be fetched in time. -/

def lateInputs : VolumeInputs where
  rootDir := .parse "/var/lib/kubelet"
  configMap := fun _ _ _ _ => .error "ServiceError: error trying to connect: deadline has elapsed"
  secret := fun _ _ _ _ => .ok ∅
  resolveDownwardApiValue := fun _ => ""
  depth := 1

def lateVolume : VolumeSpec := ⟨"config",.configMap "settings" [] true none⟩

def latePod : PodSpec where
  uid := ⟨"1"⟩
  podRef := ⟨"default","web"⟩
  volumes := [lateVolume]

def lateDir : Path := volumeTargetPath lateInputs latePod lateVolume.name

def lateData : HashMap String Bytes := (∅ : HashMap String Bytes).insert "mode" [49]

def lateWorld : VolumeWorld := lone [] lateDir modeFile [49]

theorem writeVolume_keeps_iff_late : (writeVolume lateInputs latePod lateVolume).Meets
    (amidLinks [] lateDir lateInputs.depth []) (fun _ w' =>
      KeepsFiles [] (dataWrites lateDir lateData []) lateWorld.disk w'.world.disk ↔
        SparesFiles lateInputs [] lateDir lateVolume (dataWrites lateDir lateData []) lateWorld) remnantAmidLinks :=
  writeVolume_keeps_iff lateInputs latePod lateVolume [] remnantAmidLinks [] lateData (.configMap rfl rfl) unlinked_remnant

theorem late_swept : OptionalFetchFails lateInputs lateVolume [] ∧
    ¬(writeVolume lateInputs latePod lateVolume).Meets (smooth [] lateDir lateInputs.depth)
      (fun _ w' => KeepsFiles [] (dataWrites lateDir lateData []) lateWorld.disk w'.disk) lateWorld := by
  refine ⟨.configMap rfl rfl,?_⟩
  intro h
  have hdir : (do
      let _ ← createDirAll lateDir lateDir
      removeDanglingSymlinksInDir lateDir
      let client ← kubeClient
      if client then clearOrFail lateInputs lateDir true (configMapNotFetched "settings" "config"
        "ServiceError: error trying to connect: deadline has elapsed")
      else pure (.ok ()) : VolumeProgram (Except KubeletError Unit)).Meets (smooth [] lateDir 1)
        (fun _ w' => KeepsFiles [] (dataWrites lateDir lateData []) lateWorld.disk w'.disk)
        (lone [] lateDir modeFile [49]) := h
  have hsweep : (do
      removeDirContentsRecursive lateDir 1 lateDir
      pure (.ok ()) : VolumeProgram (Except KubeletError Unit)).Meets (smooth [] lateDir 1)
        (fun _ w' => KeepsFiles [] (dataWrites lateDir lateData []) lateWorld.disk w'.disk)
        (lone [] lateDir modeFile [49]) := of_meets_prepared (Nat.le_refl 1) hdir
  unfold removeDirContentsRecursive at hsweep
  rw [Program.meets_bind,Program.meets_bind] at hsweep
  have hremove := of_meets_op hsweep (a := some [loneEntry modeFile])
    ⟨rfl,.inl ⟨_,rfl,lone_isDir,lists_lone⟩⟩ (shallow_lone (Nat.le_refl 1))
  have hplace : (entryPath lateDir (loneEntry modeFile)).place [] = lateDir.place [] ++ [modeFile.val] := by
    have hbelow : entryPath lateDir (loneEntry modeFile) = lateDir.below [modeFile.val] := by
      simpa [Path.below_nil,loneEntry] using entryPath_below [] (loneEntry modeFile)
    rw [hbelow,Path.place_below]
  have hgone : Effect [] (.fs lateDir (.removeFile (entryPath lateDir (loneEntry modeFile)))) () lateWorld
      ⟨.dirs (lateDir.place []),lateWorld.tokens⟩ := by
    refine ⟨.inl ⟨?_,?_⟩,rfl⟩
    · rw [hplace]
      simp [lateWorld,lone,Disk.single]
    · rw [hplace]
      exact Disk.node_dirs _ _ _
  have hshallow : Shallow [] lateDir 1 (.dirs (lateDir.place [])) := by
    intro names hs
    have hbelow : lateDir.place [] ++ names <+: lateDir.place [] := by
      by_contra hno
      simp [Disk.dirs,hno] at hs
    have hlength := hbelow.length_le
    rw [List.length_append] at hlength
    omega
  have hkeeps : KeepsFiles [] (dataWrites lateDir lateData []) lateWorld.disk (.dirs (lateDir.place [])) :=
    of_meets_op hremove hgone hshallow
  have hbefore : lateWorld.disk.contents ((lateDir.join (.parse "mode")).place []) = some [49] :=
    (Disk.contents_single _ _ _).trans (if_pos hplace)
  have hafter := hkeeps (lateDir.join (.parse "mode"),[49]) (List.mem_singleton_self _) hbefore
  have hnode := Disk.contents_eq_some.mp hafter
  simp [Disk.dirs] at hnode

end KubeAir.Worker.Volumes
