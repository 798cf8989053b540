import KubeAir.Worker.VolumeSweep

/-! # What a volume shows

After a sync in which all that was asked for succeeded, the files of a volume are those that
the current data of its ConfigMaps and Secrets calls for, unless an older file lies where the
volume names a file that it has no data for.
-/
namespace KubeAir.Worker.Volumes
open Core Paths Transition

section Sync
variable {cwd : List String} {dir : Path}

/-- Files were written, and what is in the directory at no expected path was swept away. -/
structure Synced (cwd : List String) (dir : Path) (files : List (Path × Bytes)) (expected : List Path)
    (w w' : VolumeWorld) : Prop where
  swept : ∀ place, Stale cwd dir (fun names => dir.below names ∈ expected) [] place → w'.disk.contents place = none
  kept : ∀ place, ¬Stale cwd dir (fun names => dir.below names ∈ expected) [] place →
    w'.disk.contents place = overlay w.disk.contents (placed cwd files) place

theorem Wrote.synced {depth : ℕ} {files : List (Path × Bytes)} {expected : List Path} {w w' w'' : VolumeWorld}
    (h : Wrote cwd dir depth files w w')
    (h' : Sweeps (Stale cwd dir (fun names => dir.below names ∈ expected) []) w' w'') : Synced cwd dir files expected w w'' where
  swept := h'.swept
  kept place hkept := by rw [h'.kept place hkept,h.contents]

theorem Prepared.synced {depth : ℕ} {files : List (Path × Bytes)} {expected : List Path} {w w' w'' : VolumeWorld}
    (h : Prepared cwd dir depth w w') (h' : Synced cwd dir files expected w' w'') : Synced cwd dir files expected w w'' where
  swept := h'.swept
  kept place hkept := by rw [h'.kept place hkept,h.contents]

theorem meets_writeOrWarn (inputs : VolumeInputs) {files : VolumeProgram (Except KubeletError Unit)}
    {ws : List (Path × Bytes)} (hfiles : Puts cwd dir inputs.depth files ws) (expected : List Path) (w : VolumeWorld)
    (hw : Ready cwd dir inputs.depth w.disk) :
    (writeOrWarn inputs dir files expected).Meets (smooth cwd dir inputs.depth)
      (fun r w' => r = .ok () ∧ Synced cwd dir ws expected w w') w := by
  unfold writeOrWarn
  rw [Program.meets_bind]
  refine (hfiles w hw).mono ?_
  rintro _ w₁ ⟨rfl,h₁,-⟩
  dsimp only
  rw [Program.meets_bind]
  refine (meets_cleanupStaleVolumeFiles inputs expected w₁ h₁.ready).mono ?_
  intro _ w₂ h₂
  exact ⟨rfl,h₁.synced h₂⟩

theorem meets_writeFetched (inputs : VolumeInputs) {volume : String} {sources : List ProjectedVolumeSource}
    (defaultMode : Option ℤ) {fetched : Fetched} (hfetched : fetchSources inputs volume {} 0 sources = .ok fetched)
    (w : VolumeWorld) (hw : Ready cwd dir inputs.depth w.disk) :
    (writeFetched inputs dir volume sources defaultMode).Meets (smooth cwd dir inputs.depth) (fun r w' => r = .ok () ∧
      Synced cwd dir (sourcesWrites inputs dir fetched w.tokens sources)
        (sources.flatMap (expectedSourcePaths dir fetched)) w w') w := by
  unfold writeFetched Program.andThen
  rw [hfetched]
  dsimp only
  rw [Program.meets_bind]
  refine (meets_writeSources inputs defaultMode fetched sources w hw).mono ?_
  rintro _ w₁ ⟨rfl,h₁⟩
  dsimp only
  rw [Program.meets_bind]
  refine (meets_cleanupStaleVolumeFiles inputs _ w₁ h₁.ready).mono ?_
  intro _ w₂ h₂
  exact ⟨rfl,h₁.synced h₂⟩

/-- With a client, a projected volume is written from what can be fetched. -/
theorem meets_writeProjectedVolume (inputs : VolumeInputs) {volume : String} {sources : List ProjectedVolumeSource}
    {defaultMode : Option ℤ} {Q : Except KubeletError Unit → VolumeWorld → Prop} {w : VolumeWorld}
    (h : ∀ w', Prepared cwd dir inputs.depth w w' →
      (writeFetched inputs dir volume sources defaultMode).Meets (smooth cwd dir inputs.depth) Q w') :
    (writeProjectedVolume inputs dir volume sources defaultMode).Meets (smooth cwd dir inputs.depth) Q w := by
  unfold writeProjectedVolume Program.andThen orIoError
  rw [Program.meets_bind,Program.meets_bind]
  refine (meets_createVolumeDir w).mono ?_
  rintro _ w₁ ⟨rfl,h₁⟩
  dsimp only
  rw [Program.meets_pure,Program.meets_bind]
  refine (meets_removeDanglingSymlinksInDir w₁ h₁.ready).mono ?_
  intro _ w₂ h₂
  split
  · rw [Program.meets_bind]
    refine (meets_kubeClient w₂).mono ?_
    rintro _ w₃ ⟨rfl,rfl⟩
    exact h w₃ (h₁.trans h₂)
  · exact h w₂ (h₁.trans h₂)

end Sync

/-! ## The current data -/

/-- What a volume is to show: its files, each written over the ones before it, and the texts
that the volume names files by, those without data among them. -/
structure Projection where
  files : List (Path × Bytes)
  named : List String

/-- The paths of the files that the volume names. -/
def Projection.paths (p : Projection) (dir : Path) : List Path := p.named.map (fun text => dir.join (.parse text))

def namedTexts (data : HashMap String Bytes) (items : List KeyToPath) : List String :=
  if items.isEmpty then data.keys else items.map (·.path)

def namedSourceTexts (fetched : Fetched) : ProjectedVolumeSource → List String
  | .configMap name items _ => ((fetched.configmaps.lookup name).map (namedTexts · items)).getD []
  | .secret name items _ => ((fetched.secrets.lookup name).map (namedTexts · items)).getD []
  | .serviceAccountToken _ _ path => [path]
  | .downwardAPI items => items.map (·.path)

/-- What a volume is to show with the data that is fetched for it, if nothing that it needs is missing. -/
def currentProjection (inputs : VolumeInputs) (dir : Path) (tokens : ℕ → String) (v : VolumeSpec) : Option Projection :=
  match v.source with
  | .projected sources _ =>
    match fetchSources inputs v.name {} 0 sources with
    | .ok fetched => some ⟨sourcesWrites inputs dir fetched tokens sources,sources.flatMap (namedSourceTexts fetched)⟩
    | .error _ => none
  | .configMap name items _ _ =>
    match inputs.configMap name v.name 0 1 with
    | .ok cm => some ⟨dataWrites dir (configmapDataBytes cm) items,namedTexts (configmapDataBytes cm) items⟩
    | .error _ => none
  | .secret secretName items _ _ =>
    match inputs.secret secretName v.name 0 1 with
    | .ok data => some ⟨dataWrites dir data items,namedTexts data items⟩
    | .error _ => none
  | _ => none

/-- The files in the directory are those of the projection, with their contents. -/
def Exact (cwd : List String) (dir : Path) (p : Projection) (disk : Disk Bytes) : Prop :=
  ∀ names, disk.contents (dir.place cwd ++ names) = overlay (fun _ => none) (placed cwd p.files) (dir.place cwd ++ names)

/-- The volume names what lies in its directory, by plain names one below the other. -/
def Projection.Names (p : Projection) (dir : Path) (names : List String) : Prop :=
  ∃ text ∈ p.named, dir.join (.parse text) = dir.below names

theorem Projection.below_mem_paths {p : Projection} {dir : Path} {names : List String} :
    dir.below names ∈ p.paths dir ↔ p.Names dir names := by
  unfold Projection.paths Projection.Names
  rw [List.mem_map]

/-- Each file of the projection that comes to lie in the directory is one that the volume names
by plain names, and no file lies already where the volume names one that it has no data for. -/
structure Tidy (cwd : List String) (dir : Path) (p : Projection) (disk : Disk Bytes) : Prop where
  plain : ∀ e ∈ p.files, ∀ names, e.1.place cwd = dir.place cwd ++ names → p.Names dir names
  vacant : ∀ names, p.Names dir names → (∀ e ∈ p.files, e.1.place cwd ≠ dir.place cwd ++ names) →
    disk.contents (dir.place cwd ++ names) = none

theorem expectedDataPaths_eq (dir : Path) (data : HashMap String Bytes) (items : List KeyToPath) :
    expectedDataPaths dir data items = (namedTexts data items).map (fun text => dir.join (.parse text)) := by
  unfold expectedDataPaths namedTexts
  split
  · rfl
  · rw [List.map_map]
    rfl

theorem expectedSourcePaths_eq (dir : Path) (fetched : Fetched) (source : ProjectedVolumeSource) :
    expectedSourcePaths dir fetched source = (namedSourceTexts fetched source).map (fun text => dir.join (.parse text)) := by
  cases source with
  | configMap name items optional =>
    dsimp only [expectedSourcePaths,namedSourceTexts]
    cases fetched.configmaps.lookup name with
    | none => rfl
    | some data => exact expectedDataPaths_eq dir data items
  | secret name items optional =>
    dsimp only [expectedSourcePaths,namedSourceTexts]
    cases fetched.secrets.lookup name with
    | none => rfl
    | some data => exact expectedDataPaths_eq dir data items
  | downwardAPI items =>
    dsimp only [expectedSourcePaths,namedSourceTexts]
    rw [List.map_map]
    rfl
  | serviceAccountToken audience expirationSeconds path => rfl

/-- What is swept away and what is kept make the directory exact where it was tidy before. -/
theorem Synced.exact_iff {cwd : List String} {dir : Path} {p : Projection} {w w' : VolumeWorld}
    (h : Synced cwd dir p.files (p.paths dir) w w') : Exact cwd dir p w'.disk ↔ Tidy cwd dir p w.disk := by
  have hcontents : ∀ names, w'.disk.contents (dir.place cwd ++ names) =
      if dir.below names ∈ p.paths dir then
        overlay w.disk.contents (placed cwd p.files) (dir.place cwd ++ names) else none := by
    intro names
    split
    · next hkeep => exact h.kept _ (fun hstale => stale_iff.mp hstale hkeep)
    · next hkeep => exact h.swept _ (stale_iff.mpr hkeep)
  have hplaced : ∀ P : List String → Prop, (∀ e ∈ placed cwd p.files, P e.1) ↔ ∀ e ∈ p.files, P (e.1.place cwd) := by
    intro P
    exact List.forall_mem_map
  unfold Exact
  simp only [hcontents]
  rw [swept_overlay_iff]
  simp only [Projection.below_mem_paths]
  constructor
  · rintro ⟨hwritten,hvacant⟩
    refine ⟨(hplaced (fun place => ∀ names, place = dir.place cwd ++ names → p.Names dir names)).mp hwritten,?_⟩
    intro names hn hno
    exact hvacant names hn ((hplaced (· ≠ dir.place cwd ++ names)).mpr hno)
  · rintro ⟨hplain,hvacant⟩
    refine ⟨(hplaced (fun place => ∀ names, place = dir.place cwd ++ names → p.Names dir names)).mpr hplain,?_⟩
    intro names hn hno
    exact hvacant names hn ((hplaced (· ≠ dir.place cwd ++ names)).mp hno)

/-- The data of a ConfigMap or a Secret is written to a directory that was prepared. -/
theorem meets_writeData {cwd : List String} {dir : Path} (inputs : VolumeInputs) (data : HashMap String Bytes)
    (items : List KeyToPath) (keyMode : Option ℤ) (itemMode : KeyToPath → ℤ) {w w' : VolumeWorld}
    (h : Prepared cwd dir inputs.depth w w') :
    (writeOrWarn inputs dir (writeDataFiles dir data items keyMode itemMode) (expectedDataPaths dir data items)).Meets
      (smooth cwd dir inputs.depth) (fun r w'' => r = .ok () ∧
        Synced cwd dir (dataWrites dir data items) (Projection.paths ⟨dataWrites dir data items,namedTexts data items⟩ dir)
          w w'') w' := by
  rw [expectedDataPaths_eq]
  refine (meets_writeOrWarn inputs (puts_writeDataFiles data items keyMode itemMode) _ w' h.ready).mono ?_
  rintro _ w'' ⟨rfl,hsynced⟩
  exact ⟨rfl,h.synced hsynced⟩

/-- The files of a volume are written, and what is at no path that the volume names is swept away. -/
theorem meets_writeVolume (inputs : VolumeInputs) (pod : PodSpec) (v : VolumeSpec) (cwd : List String) (w : VolumeWorld)
    {p : Projection} (hp : currentProjection inputs (volumeTargetPath inputs pod v.name) w.tokens v = some p) :
    (writeVolume inputs pod v).Meets (smooth cwd (volumeTargetPath inputs pod v.name) inputs.depth) (fun r w' =>
      r = .ok () ∧ Synced cwd (volumeTargetPath inputs pod v.name) p.files
        (p.paths (volumeTargetPath inputs pod v.name)) w w') w := by
  unfold currentProjection at hp
  unfold writeVolume
  dsimp only
  cases hsource : v.source with
  | configMap name items optional defaultMode =>
    rw [hsource] at hp
    dsimp only at hp ⊢
    unfold writeConfigMapVolume
    refine meets_prepared fun w₁ h₁ => ?_
    rw [if_pos rfl]
    cases hcm : inputs.configMap name v.name 0 1 with
    | ok cm =>
      rw [hcm] at hp
      obtain rfl := Option.some.inj hp
      exact meets_writeData inputs (configmapDataBytes cm) items _ _ h₁
    | error e =>
      rw [hcm] at hp
      cases hp
  | secret secretName items optional defaultMode =>
    rw [hsource] at hp
    dsimp only at hp ⊢
    unfold writeSecretVolume
    refine meets_prepared fun w₁ h₁ => ?_
    rw [if_pos rfl]
    cases hdata : inputs.secret secretName v.name 0 1 with
    | ok data =>
      rw [hdata] at hp
      obtain rfl := Option.some.inj hp
      exact meets_writeData inputs data items _ _ h₁
    | error e =>
      rw [hdata] at hp
      cases hp
  | projected sources defaultMode =>
    rw [hsource] at hp
    dsimp only at hp ⊢
    refine meets_writeProjectedVolume inputs fun w₁ h₁ => ?_
    cases hfetched : fetchSources inputs v.name {} 0 sources with
    | ok fetched =>
      rw [hfetched] at hp
      obtain rfl := Option.some.inj hp
      refine (meets_writeFetched inputs defaultMode hfetched w₁ h₁.ready).mono fun r w₂ h₂ => ?_
      have hexpected : sources.flatMap (expectedSourcePaths (volumeTargetPath inputs pod v.name) fetched) =
          (sources.flatMap (namedSourceTexts fetched)).map
            (fun text => (volumeTargetPath inputs pod v.name).join (.parse text)) := by
        rw [List.map_flatMap]
        exact List.flatMap_congr fun source _ => expectedSourcePaths_eq _ fetched source
      rw [hexpected,h₁.tokens] at h₂
      exact ⟨h₂.1,h₁.synced h₂.2⟩
    | error e =>
      rw [hfetched] at hp
      cases hp
  | _ =>
    rw [hsource] at hp
    cases hp

/-- A sync that succeeds and follows no link leaves exactly the current files in the directory of a
volume if and only if the directory was tidy before. -/
theorem writeVolume_exact_iff (inputs : VolumeInputs) (pod : PodSpec) (v : VolumeSpec) (cwd : List String) (w : LinkedWorld)
    (p : Projection) (hp : currentProjection inputs (volumeTargetPath inputs pod v.name) w.world.tokens v = some p)
    (hlinks : Unlinked cwd (volumeTargetPath inputs pod v.name) p.files w) :
    (writeVolume inputs pod v).Meets (amidLinks cwd (volumeTargetPath inputs pod v.name) inputs.depth p.files) (fun r w' =>
      r = .ok () ∧ (Exact cwd (volumeTargetPath inputs pod v.name) p w'.world.disk ↔
        Tidy cwd (volumeTargetPath inputs pod v.name) p w.world.disk)) w := by
  have hworld : (writeVolume inputs pod v).Meets (smooth cwd (volumeTargetPath inputs pod v.name) inputs.depth) (fun r w' =>
      r = .ok () ∧ (Exact cwd (volumeTargetPath inputs pod v.name) p w'.disk ↔
        Tidy cwd (volumeTargetPath inputs pod v.name) p w.world.disk)) w.world := by
    refine (meets_writeVolume inputs pod v cwd w.world hp).mono ?_
    rintro _ w' ⟨rfl,hsynced⟩
    exact ⟨rfl,hsynced.exact_iff⟩
  exact hworld.guarded hlinks

/-! ## A directory with one file -/

section Lone
variable {cwd : List String} {dir : Path} {file : FileName} {c : Bytes}

def lone (cwd : List String) (dir : Path) (file : FileName) (c : Bytes) : VolumeWorld where
  disk := .single (dir.place cwd ++ [file.val]) c
  tokens _ := ""

def loneEntry (file : FileName) : DirEntry := ⟨file,false,true,false⟩

theorem lone_isDir : (lone cwd dir file c).disk.node (dir.place cwd) = some .dir := by
  simp [lone,Disk.single]

theorem lists_lone : Lists (lone cwd dir file c).disk (dir.place cwd) [loneEntry file] where
  complete name h := by
    refine ⟨loneEntry file,List.mem_singleton_self _,?_⟩
    by_contra hne
    have hname : name ≠ file.val := fun he => hne he.symm
    simp [lone,Disk.single,hname] at h
  sound e he := by
    rw [List.mem_singleton.mp he]
    refine ⟨.file c,?_,rfl,rfl,rfl⟩
    simp [lone,Disk.single,loneEntry]

theorem shallow_lone {depth : ℕ} (h : 1 ≤ depth) : Shallow cwd dir depth (lone cwd dir file c).disk := by
  intro names hs
  have hbelow : names <+: [file.val] := by
    by_contra hno
    have hne : names ≠ [file.val] := fun he => hno (he ▸ List.prefix_rfl)
    simp [lone,Disk.single,hne,hno] at hs
  have hlength := hbelow.length_le
  rw [List.length_singleton] at hlength
  omega

/-- What holds after a request holds for each answer that it can get. -/
theorem of_meets_op {depth : ℕ} {op : VolumeOp} {Q : VolumeAnswer op → VolumeWorld → Prop} {w w' : VolumeWorld}
    (h : (request op).Meets (smooth cwd dir depth) Q w) {a : VolumeAnswer op} (ha : Effect cwd op a w w')
    (hs : Shallow cwd dir depth w'.disk) : Q a w' :=
  (h w rfl).2 a w' ⟨ha,hs⟩

/-- The directory is found as it is, and the client is there. -/
theorem of_meets_prepared {α : Type} {depth : ℕ} (hdepth : 1 ≤ depth) {rest : Bool → VolumeProgram α}
    {Q : α → VolumeWorld → Prop}
    (h : (do
      let _ ← createDirAll dir dir
      removeDanglingSymlinksInDir dir
      let client ← kubeClient
      rest client : VolumeProgram α).Meets (smooth cwd dir depth) Q (lone cwd dir file c)) :
    (rest true).Meets (smooth cwd dir depth) Q (lone cwd dir file c) := by
  have hs : Shallow cwd dir depth (lone cwd dir file c).disk := shallow_lone hdepth
  rw [Program.meets_bind] at h
  have hlinks := of_meets_op h (a := .ok ()) ⟨rfl,fun _ => .inl rfl,lone_isDir,rfl⟩ hs
  unfold removeDanglingSymlinksInDir at hlinks
  rw [Program.meets_bind,Program.meets_bind] at hlinks
  have hclient := of_meets_op hlinks (a := some [loneEntry file]) ⟨rfl,.inl ⟨_,rfl,lone_isDir,lists_lone⟩⟩ hs
  exact of_meets_op (a := true) hclient ⟨rfl,rfl⟩ hs

end Lone

/-! A file that the volume names and that the data has lost. -/

def remnantInputs : VolumeInputs where
  rootDir := .parse "/var/lib/kubelet"
  configMap := fun _ _ _ _ => .ok ⟨∅,∅⟩
  secret := fun _ _ _ _ => .ok ∅
  resolveDownwardApiValue := fun _ => ""
  depth := 1

def remnantVolume : VolumeSpec := ⟨"config",.configMap "settings" [{ key := "mode", path := "mode" }] false none⟩

def remnantPod : PodSpec where
  uid := ⟨"1"⟩
  podRef := ⟨"default","web"⟩
  volumes := [remnantVolume]

def remnantDir : Path := volumeTargetPath remnantInputs remnantPod remnantVolume.name

def modeFile : FileName := ⟨"mode",by decide⟩

def remnantWorld : VolumeWorld := lone [] remnantDir modeFile [49]

/-- The same disk with a link elsewhere. -/
def remnantAmidLinks : LinkedWorld := ⟨remnantWorld,{["var","run"]}⟩

theorem unlinked_remnant : Unlinked [] remnantDir [] remnantAmidLinks := by
  rintro _ rfl (hbelow | ⟨before,hbefore,hlead⟩ | ⟨e,he,-⟩)
  · exact absurd hbelow (by decide)
  · have hway : ∀ before ∈ remnantDir.parts.inits, lead (remnantDir.start []) before ≠ ["var","run"] := by decide
    exact hway before ((List.mem_inits _ _).mpr hbefore) hlead
  · cases he

theorem writeVolume_exact_iff_remnant : (writeVolume remnantInputs remnantPod remnantVolume).Meets
    (amidLinks [] remnantDir remnantInputs.depth []) (fun r w' => r = .ok () ∧
      (Exact [] remnantDir ⟨[],["mode"]⟩ w'.world.disk ↔ Tidy [] remnantDir ⟨[],["mode"]⟩ remnantWorld.disk)) remnantAmidLinks :=
  writeVolume_exact_iff remnantInputs remnantPod remnantVolume [] remnantAmidLinks ⟨[],["mode"]⟩ rfl unlinked_remnant

theorem remnant_left : ∃ p, currentProjection remnantInputs remnantDir remnantWorld.tokens remnantVolume = some p ∧
    ¬(writeVolume remnantInputs remnantPod remnantVolume).Meets (smooth [] remnantDir remnantInputs.depth)
      (fun _ w' => Exact [] remnantDir p w'.disk) remnantWorld := by
  refine ⟨⟨[],["mode"]⟩,rfl,?_⟩
  intro h
  have hdir : (do
      let _ ← createDirAll remnantDir remnantDir
      removeDanglingSymlinksInDir remnantDir
      let client ← kubeClient
      if client then writeOrWarn remnantInputs remnantDir (pure (.ok ())) [remnantDir.join (.parse "mode")]
      else pure (.error (noClientForConfigMap "settings" "config")) : VolumeProgram (Except KubeletError Unit)).Meets
        (smooth [] remnantDir 1) (fun _ w' => Exact [] remnantDir ⟨[],["mode"]⟩ w'.disk) (lone [] remnantDir modeFile [49]) := h
  have hsweep : (do
      removeStaleFilesRecursive remnantDir [remnantDir.join (.parse "mode")] 1 remnantDir
      pure (.ok ()) : VolumeProgram (Except KubeletError Unit)).Meets
        (smooth [] remnantDir 1) (fun _ w' => Exact [] remnantDir ⟨[],["mode"]⟩ w'.disk) (lone [] remnantDir modeFile [49]) :=
    of_meets_prepared (Nat.le_refl 1) hdir
  unfold removeStaleFilesRecursive at hsweep
  rw [Program.meets_bind,Program.meets_bind] at hsweep
  have hentry := of_meets_op hsweep (a := some [loneEntry modeFile]) ⟨rfl,.inl ⟨_,rfl,lone_isDir,lists_lone⟩⟩
    (shallow_lone (Nat.le_refl 1))
  have hexact : Exact [] remnantDir ⟨[],["mode"]⟩ remnantWorld.disk := hentry
  have hmode := hexact ["mode"]
  cases (Disk.contents_single _ _ _).symm.trans hmode

end KubeAir.Worker.Volumes
