import KubeAir.Worker.Volumes
import KubeAir.Worker.MountConfinement

/-! # Confinement of volume paths

A sync changes only files inside the directory of the volume they belong to, exactly if every
text that it joins to that directory is contained in it; the source of a mount is inside the
volume exactly if the sub path stays there.
-/
namespace KubeAir.Worker.Volumes
open Core Paths Transition

/-- The path that an operation creates, writes or removes. -/
def FsOp.changed : FsOp → Option Path
  | .createDirAll p => some p
  | .write p _ => some p
  | .setPermissions p _ => some p
  | .removeFile p => some p
  | .removeDir p => some p
  | _ => none

/-- What is changed for a volume is inside of its directory. -/
def Confined : VolumeOp → Prop
  | .fs volume op => ∀ p, op.changed = some p → volume.Inside p
  | _ => True

theorem answerable : ∀ op, Nonempty (VolumeAnswer op)
  | .fs _ (.createDirAll _) => ⟨.ok ()⟩
  | .fs _ (.write _ _) => ⟨.ok ()⟩
  | .fs _ (.setPermissions _ _) => ⟨()⟩
  | .fs _ (.removeFile _) => ⟨()⟩
  | .fs _ (.removeDir _) => ⟨()⟩
  | .fs _ (.read _) => ⟨none⟩
  | .fs _ (.tryExists _) => ⟨false⟩
  | .fs _ (.readDir _) => ⟨none⟩
  | .fs _ (.isEmptyDir _) => ⟨false⟩
  | .kubeClient => ⟨false⟩
  | .listMountedVolumes _ => ⟨.ok []⟩
  | .mountVolumes _ => ⟨.ok ()⟩
  | .requestServiceAccountToken _ _ => ⟨none⟩

section Requests
variable {volume p : Path}

@[simp] theorem uses_createDirAll : (createDirAll volume p).Uses Confined ↔ volume.Inside p := by
  unfold createDirAll request
  rw [Program.uses_request]
  simp [Confined,FsOp.changed]

@[simp] theorem uses_write {contents : Bytes} : (write volume p contents).Uses Confined ↔ volume.Inside p := by
  unfold write request
  rw [Program.uses_request]
  simp [Confined,FsOp.changed]

@[simp] theorem uses_setPermissions {mode : ℤ} : (setPermissions volume p mode).Uses Confined ↔ volume.Inside p := by
  unfold setPermissions request
  rw [Program.uses_request]
  simp [Confined,FsOp.changed]

@[simp] theorem uses_removeFile : (removeFile volume p).Uses Confined ↔ volume.Inside p := by
  unfold removeFile request
  rw [Program.uses_request]
  simp [Confined,FsOp.changed]

@[simp] theorem uses_removeDir : (removeDir volume p).Uses Confined ↔ volume.Inside p := by
  unfold removeDir request
  rw [Program.uses_request]
  simp [Confined,FsOp.changed]

@[simp] theorem uses_read : (read volume p).Uses Confined ↔ True := by
  unfold read request
  rw [Program.uses_request]
  simp [Confined,FsOp.changed]

@[simp] theorem uses_tryExists : (tryExists volume p).Uses Confined ↔ True := by
  unfold tryExists request
  rw [Program.uses_request]
  simp [Confined,FsOp.changed]

@[simp] theorem uses_readDir : (readDir volume p).Uses Confined ↔ True := by
  unfold readDir request
  rw [Program.uses_request]
  simp [Confined,FsOp.changed]

@[simp] theorem uses_isEmptyDir : (isEmptyDir volume p).Uses Confined ↔ True := by
  unfold isEmptyDir request
  rw [Program.uses_request]
  simp [Confined,FsOp.changed]

@[simp] theorem uses_kubeClient : kubeClient.Uses Confined ↔ True := by
  unfold kubeClient request
  rw [Program.uses_request]
  simp [Confined]

end Requests

theorem returns_createDirAll (volume p : Path) : (createDirAll volume p).Returns (.ok ()) := ⟨Except.ok (),rfl⟩

theorem returns_write (volume p : Path) (contents : Bytes) : (write volume p contents).Returns (.ok ()) :=
  ⟨Except.ok (),rfl⟩

theorem returns_kubeClient (b : Bool) : kubeClient.Returns b := ⟨b,rfl⟩

/-! ## Directories -/

theorem inside_entryPath {volume dir : Path} (h : volume.Inside dir) (e : DirEntry) : volume.Inside (entryPath dir e) := by
  unfold entryPath
  rw [e.fileName.ok]
  exact h.below e.fileName.val

theorem uses_removeDanglingSymlinksInDir (dir : Path) : (removeDanglingSymlinksInDir dir).Uses Confined := by
  unfold removeDanglingSymlinksInDir
  rw [Program.uses_bind]
  refine ⟨uses_readDir.mpr trivial,?_⟩
  intro r _
  cases r with
  | none => trivial
  | some entries =>
    refine Program.Uses.forEach ?_
    intro e _
    split
    · exact uses_removeFile.mpr (inside_entryPath (Path.inside_self dir) e)
    · trivial

theorem uses_removeDirContentsRecursive {volume : Path} (depth : ℕ) {dir : Path} (h : volume.Inside dir) :
    (removeDirContentsRecursive volume depth dir).Uses Confined := by
  induction depth generalizing dir with
  | zero => trivial
  | succ depth ih =>
    unfold removeDirContentsRecursive
    rw [Program.uses_bind]
    refine ⟨uses_readDir.mpr trivial,?_⟩
    intro r _
    cases r with
    | none => trivial
    | some entries =>
      refine Program.Uses.forEach ?_
      intro e _
      have he := inside_entryPath h e
      split
      · exact Program.Uses.bind (ih he) fun _ => uses_removeDir.mpr he
      split
      · exact uses_removeFile.mpr he
      · trivial

theorem uses_removeStaleFilesRecursive {volume : Path} (expected : List Path) (depth : ℕ) {dir : Path}
    (h : volume.Inside dir) : (removeStaleFilesRecursive volume expected depth dir).Uses Confined := by
  induction depth generalizing dir with
  | zero => trivial
  | succ depth ih =>
    unfold removeStaleFilesRecursive
    rw [Program.uses_bind]
    refine ⟨uses_readDir.mpr trivial,?_⟩
    intro r _
    cases r with
    | none => trivial
    | some entries =>
      refine Program.Uses.forEach ?_
      intro e _
      have he := inside_entryPath h e
      split
      · refine Program.Uses.bind (ih he) fun _ => Program.Uses.bind (uses_isEmptyDir.mpr trivial) fun isEmpty => ?_
        split
        · exact uses_removeDir.mpr he
        · trivial
      split
      · exact uses_removeFile.mpr he
      · trivial

/-! ## Files -/

theorem returns_orIoError {p : VolumeProgram (Except String Unit)} (h : p.Returns (.ok ())) :
    (orIoError p).Returns (.ok ()) := by
  unfold orIoError
  rw [Program.returns_bind]
  exact ⟨.ok (),h,rfl⟩

theorem uses_orIoError {p : VolumeProgram (Except String Unit)} : (orIoError p).Uses Confined ↔ p.Uses Confined := by
  unfold orIoError
  rw [Program.uses_bind]
  constructor
  · intro h
    exact h.1
  · intro h
    refine ⟨h,?_⟩
    intro r _
    cases r with
    | ok u => trivial
    | error e => trivial

theorem returns_createParent (volume filePath : Path) : (createParent volume filePath).Returns (.ok ()) := by
  unfold createParent
  split
  · rfl
  · exact returns_orIoError (returns_createDirAll _ _)

theorem uses_createParent {volume filePath : Path} : (createParent volume filePath).Uses Confined ↔
    ∀ q, filePath.parent = some q → volume.Inside q := by
  unfold createParent
  split
  · next h => simp [h]
  · next parent h =>
    rw [uses_orIoError,uses_createDirAll,h]
    simp

theorem returns_writeIfChanged (volume filePath : Path) (value : Bytes) :
    (writeIfChanged volume filePath value).Returns (.ok ()) := by
  refine ⟨some value,?_⟩
  show Program.Returns (if some value = some value then _ else _) _
  rw [if_pos rfl]
  rfl

theorem uses_writeIfChanged {volume filePath : Path} {value : Bytes} :
    (writeIfChanged volume filePath value).Uses Confined ↔ volume.Inside filePath := by
  unfold writeIfChanged
  rw [Program.uses_bind]
  constructor
  · rintro ⟨-,h⟩
    have hn := h none ⟨none,rfl⟩
    rw [if_neg (by simp),uses_orIoError,uses_write] at hn
    exact hn
  · intro h
    refine ⟨uses_read.mpr trivial,?_⟩
    intro existing _
    split
    · trivial
    · exact uses_orIoError.mpr (uses_write.mpr h)

theorem returns_thenSetPermissions {p : VolumeProgram (Except KubeletError Unit)} (h : p.Returns (.ok ()))
    (volume filePath : Path) (mode : ℤ) : (thenSetPermissions p volume filePath mode).Returns (.ok ()) :=
  Program.returns_ok_andThen.mpr ⟨h,(),rfl⟩

theorem uses_thenSetPermissions {p : VolumeProgram (Except KubeletError Unit)} {volume filePath : Path} {mode : ℤ}
    (hp : p.Uses Confined ↔ volume.Inside filePath) :
    (thenSetPermissions p volume filePath mode).Uses Confined ↔ volume.Inside filePath := by
  unfold thenSetPermissions
  rw [Program.uses_andThen,hp]
  constructor
  · intro h
    exact h.1
  · intro h
    exact ⟨h,fun _ => Program.Uses.bind (uses_setPermissions.mpr h) fun _ => trivial⟩

/-- A file is confined with the directory that is made for it exactly if its text is contained. -/
theorem uses_file {dir : Path} {text : String} {p : VolumeProgram (Except KubeletError Unit)}
    (hp : p.Uses Confined ↔ dir.Inside (dir.join (.parse text))) :
    (Program.andThen (createParent dir (dir.join (.parse text))) p).Uses Confined ↔ dir.Contained (.parse text) := by
  rw [Program.uses_andThen,uses_createParent,hp,Path.contained_iff]
  constructor
  · rintro ⟨hparent,hf⟩
    exact ⟨hf (returns_createParent _ _),hparent⟩
  · rintro ⟨hf,hparent⟩
    exact ⟨hparent,fun _ => hf⟩

theorem uses_writeDataFile {dir : Path} {text : String} {value : Bytes} {mode : Option ℤ} :
    (writeDataFile dir text value mode).Uses Confined ↔ dir.Contained (.parse text) := by
  unfold writeDataFile
  refine uses_file ?_
  cases mode with
  | none => exact uses_writeIfChanged
  | some mode => exact uses_thenSetPermissions uses_writeIfChanged

theorem returns_writeDataFile (dir : Path) (text : String) (value : Bytes) (mode : Option ℤ) :
    (writeDataFile dir text value mode).Returns (.ok ()) := by
  unfold writeDataFile
  refine Program.returns_ok_andThen.mpr ⟨returns_createParent _ _,?_⟩
  cases mode with
  | none => exact returns_writeIfChanged _ _ _
  | some mode => exact returns_thenSetPermissions (returns_writeIfChanged _ _ _) _ _ _

/-- The texts that name the files of a ConfigMap or a Secret. -/
def dataTexts (data : HashMap String Bytes) (items : List KeyToPath) : List String :=
  if items.isEmpty then data.keys else (items.filter (fun item => (data.lookup item.key).isSome)).map (·.path)

theorem returns_writeDataFiles (dir : Path) (data : HashMap String Bytes) (items : List KeyToPath)
    (keyMode : Option ℤ) (itemMode : KeyToPath → ℤ) :
    (writeDataFiles dir data items keyMode itemMode).Returns (.ok ()) := by
  unfold writeDataFiles
  split
  · exact Program.returns_ok_forUntil.mpr fun e _ => returns_writeDataFile _ _ _ _
  · refine Program.returns_ok_forUntil.mpr ?_
    intro item _
    split
    · exact returns_writeDataFile _ _ _ _
    · rfl

theorem uses_writeDataFiles {dir : Path} {data : HashMap String Bytes} {items : List KeyToPath}
    {keyMode : Option ℤ} {itemMode : KeyToPath → ℤ} :
    (writeDataFiles dir data items keyMode itemMode).Uses Confined ↔
      ∀ text ∈ dataTexts data items, dir.Contained (.parse text) := by
  unfold writeDataFiles dataTexts
  split
  · rw [Program.uses_forUntil_of_returns fun e _ => returns_writeDataFile _ _ _ _]
    simp only [uses_writeDataFile]
    constructor
    · intro h text ht
      obtain ⟨e,he,rfl⟩ := List.mem_map.mp ht
      exact h e he
    · intro h e he
      exact h e.1 (List.mem_map.mpr ⟨e,he,rfl⟩)
  · rw [Program.uses_forUntil_of_returns]
    · constructor
      · intro h text ht
        obtain ⟨item,hitem,rfl⟩ := List.mem_map.mp ht
        obtain ⟨hmem,hsome⟩ := List.mem_filter.mp hitem
        obtain ⟨value,hv⟩ := Option.isSome_iff_exists.mp hsome
        have hu := h item hmem
        rw [hv] at hu
        exact uses_writeDataFile.mp hu
      · intro h item hmem
        cases hv : data.lookup item.key with
        | none => trivial
        | some value =>
          refine uses_writeDataFile.mpr (h item.path (List.mem_map.mpr ⟨item,List.mem_filter.mpr ⟨hmem,?_⟩,rfl⟩))
          rw [hv]
          rfl
    · intro item _
      split
      · exact returns_writeDataFile _ _ _ _
      · rfl

/-- The texts that name the files of downward API items. -/
def itemTexts (inputs : VolumeInputs) (items : List DownwardAPIVolumeFile) : List String :=
  (items.filter (fun item => !skipsItem inputs item)).map (·.path)

theorem forall_itemTexts {inputs : VolumeInputs} {items : List DownwardAPIVolumeFile} {P : String → Prop} :
    (∀ text ∈ itemTexts inputs items, P text) ↔ ∀ item ∈ items, skipsItem inputs item = false → P item.path := by
  unfold itemTexts
  rw [List.forall_mem_map]
  simp

theorem uses_writeDownwardFile {inputs : VolumeInputs} {dir : Path} {defaultMode : Option ℤ}
    {item : DownwardAPIVolumeFile} : (writeDownwardFile inputs dir defaultMode item).Uses Confined ↔
      (skipsItem inputs item = false → dir.Contained (.parse item.path)) := by
  unfold writeDownwardFile
  cases skipsItem inputs item with
  | true => simp
  | false =>
    simp only [Bool.false_eq_true,↓reduceIte,forall_const]
    rw [Program.uses_bind_of_forall answerable,Program.uses_bind_of_forall answerable,uses_createParent,uses_write,
      uses_setPermissions,Path.contained_iff]
    tauto

theorem uses_writeDownwardVolume {inputs : VolumeInputs} {dir : Path} {items : List DownwardAPIVolumeFile}
    {defaultMode : Option ℤ} : (writeDownwardVolume inputs dir items defaultMode).Uses Confined ↔
      ∀ text ∈ itemTexts inputs items, dir.Contained (.parse text) := by
  unfold writeDownwardVolume
  rw [Program.uses_bind_of_forall answerable,uses_createDirAll,Program.uses_forEach answerable,forall_itemTexts]
  simp only [uses_writeDownwardFile]
  exact and_iff_right (Path.inside_self dir)

theorem returns_writeProjectedItem (inputs : VolumeInputs) (dir : Path) (defaultMode : Option ℤ)
    (item : DownwardAPIVolumeFile) : (writeProjectedItem inputs dir defaultMode item).Returns (.ok ()) := by
  unfold writeProjectedItem
  split
  · rfl
  · exact Program.returns_ok_andThen.mpr
      ⟨returns_createParent _ _,returns_thenSetPermissions (returns_orIoError (returns_write _ _ _)) _ _ _⟩

theorem uses_writeProjectedItem {inputs : VolumeInputs} {dir : Path} {defaultMode : Option ℤ}
    {item : DownwardAPIVolumeFile} : (writeProjectedItem inputs dir defaultMode item).Uses Confined ↔
      (skipsItem inputs item = false → dir.Contained (.parse item.path)) := by
  unfold writeProjectedItem
  cases skipsItem inputs item with
  | true => simp
  | false =>
    simp only [Bool.false_eq_true,↓reduceIte,forall_const]
    exact uses_file (uses_thenSetPermissions (uses_orIoError.trans uses_write))

theorem returns_writeToken (dir tokenPath : Path) (defaultMode : Option ℤ) (audience : Option String)
    (expirationSeconds : Option ℕ) : (writeToken dir tokenPath defaultMode audience expirationSeconds).Returns (.ok ()) :=
  ⟨true,none,false,rfl⟩

theorem uses_writeToken {dir tokenPath : Path} {defaultMode : Option ℤ} {audience : Option String}
    {expirationSeconds : Option ℕ} : (writeToken dir tokenPath defaultMode audience expirationSeconds).Uses Confined ↔
      dir.Inside tokenPath := by
  unfold writeToken request
  rw [Program.uses_bind_of_forall answerable,uses_kubeClient,Program.uses_request_bind]
  constructor
  · rintro ⟨-,-,h⟩
    exact (uses_thenSetPermissions uses_writeIfChanged).mp (h (some ""))
  · intro h
    refine ⟨trivial,trivial,?_⟩
    intro token
    cases token with
    | none => exact Program.Uses.bind (uses_tryExists.mpr trivial) fun _ => trivial
    | some token => exact (uses_thenSetPermissions uses_writeIfChanged).mpr h

/-- The texts that a source of a projected volume names its files by. -/
def sourceTexts (inputs : VolumeInputs) (fetched : Fetched) : ProjectedVolumeSource → List String
  | .configMap name items _ => ((fetched.configmaps.lookup name).map (dataTexts · items)).getD []
  | .secret name items _ => ((fetched.secrets.lookup name).map (dataTexts · items)).getD []
  | .downwardAPI items => itemTexts inputs items
  | .serviceAccountToken _ _ path => [path]

theorem returns_writeSource (inputs : VolumeInputs) (dir : Path) (defaultMode : Option ℤ) (fetched : Fetched)
    (source : ProjectedVolumeSource) : (writeSource inputs dir defaultMode fetched source).Returns (.ok ()) := by
  cases source with
  | configMap name items optional =>
    unfold writeSource
    dsimp only
    split
    · exact returns_writeDataFiles _ _ _ _ _
    · rfl
  | secret name items optional =>
    unfold writeSource
    dsimp only
    split
    · exact returns_writeDataFiles _ _ _ _ _
    · rfl
  | downwardAPI items => exact Program.returns_ok_forUntil.mpr fun item _ => returns_writeProjectedItem _ _ _ _
  | serviceAccountToken audience expirationSeconds path =>
    exact Program.returns_ok_andThen.mpr ⟨returns_createParent _ _,returns_writeToken _ _ _ _ _⟩

theorem uses_writeSource {inputs : VolumeInputs} {dir : Path} {defaultMode : Option ℤ} {fetched : Fetched}
    {source : ProjectedVolumeSource} : (writeSource inputs dir defaultMode fetched source).Uses Confined ↔
      ∀ text ∈ sourceTexts inputs fetched source, dir.Contained (.parse text) := by
  cases source with
  | configMap name items optional =>
    unfold writeSource sourceTexts
    dsimp only
    cases fetched.configmaps.lookup name with
    | none => simp
    | some cmData => exact uses_writeDataFiles
  | secret name items optional =>
    unfold writeSource sourceTexts
    dsimp only
    cases fetched.secrets.lookup name with
    | none => simp
    | some secretData => exact uses_writeDataFiles
  | downwardAPI items =>
    unfold writeSource sourceTexts
    rw [Program.uses_forUntil_of_returns fun item _ => returns_writeProjectedItem _ _ _ _,forall_itemTexts]
    simp only [uses_writeProjectedItem]
  | serviceAccountToken audience expirationSeconds path =>
    unfold writeSource sourceTexts writeTokenFile
    rw [List.forall_mem_singleton]
    exact uses_file uses_writeToken

/-! ## Volumes -/

/-- The texts that the files of a volume are named by. -/
def volumeTexts (inputs : VolumeInputs) (v : VolumeSpec) : List String :=
  match v.source with
  | .projected sources _ =>
    match fetchSources inputs v.name {} 0 sources with
    | .ok fetched => sources.flatMap (sourceTexts inputs fetched)
    | .error _ => []
  | .configMap name items _ _ =>
    match inputs.configMap name v.name 0 1 with
    | .ok cm => dataTexts (configmapDataBytes cm) items
    | .error _ => []
  | .secret secretName items _ _ =>
    match inputs.secret secretName v.name 0 1 with
    | .ok data => dataTexts data items
    | .error _ => []
  | .downwardAPI items _ => itemTexts inputs items
  | _ => []

/-- What the volume needs from the API server is there, or not required. -/
def Fetchable (inputs : VolumeInputs) (v : VolumeSpec) : Prop :=
  match v.source with
  | .projected sources _ => (∃ fetched, fetchSources inputs v.name {} 0 sources = .ok fetched) ∨
      (sources.any needsClient = true ∧ sources.all isOptional = true)
  | .configMap name _ optional _ => (∃ cm, inputs.configMap name v.name 0 1 = .ok cm) ∨ optional = true
  | .secret secretName _ optional _ => (∃ data, inputs.secret secretName v.name 0 1 = .ok data) ∨ optional = true
  | _ => True

theorem uses_cleanupStaleVolumeFiles (inputs : VolumeInputs) (dir : Path) (expected : List Path) :
    (cleanupStaleVolumeFiles inputs dir expected).Uses Confined :=
  uses_removeStaleFilesRecursive expected inputs.depth (Path.inside_self dir)

theorem uses_clearVolumeDir (inputs : VolumeInputs) (dir : Path) : (clearVolumeDir inputs dir).Uses Confined :=
  uses_removeDirContentsRecursive inputs.depth (Path.inside_self dir)

theorem uses_writeFetched {inputs : VolumeInputs} {dir : Path} {volume : String} {sources : List ProjectedVolumeSource}
    {defaultMode : Option ℤ} : (writeFetched inputs dir volume sources defaultMode).Uses Confined ↔
      ∀ fetched, fetchSources inputs volume {} 0 sources = .ok fetched →
        ∀ text ∈ sources.flatMap (sourceTexts inputs fetched), dir.Contained (.parse text) := by
  unfold writeFetched
  cases fetchSources inputs volume {} 0 sources with
  | error e => simp
  | ok fetched =>
    dsimp only
    rw [Program.uses_andThen,Program.uses_forUntil_of_returns fun s _ => returns_writeSource _ _ _ _ _]
    simp only [uses_writeSource]
    constructor
    · rintro ⟨h,-⟩ f hf text ht
      cases hf
      obtain ⟨source,hs,ht⟩ := List.mem_flatMap.mp ht
      exact h source hs text ht
    · intro h
      refine ⟨?_,fun _ => Program.Uses.bind (uses_cleanupStaleVolumeFiles _ _ _) fun _ => trivial⟩
      intro source hs text ht
      exact h fetched rfl text (List.mem_flatMap.mpr ⟨source,hs,ht⟩)

theorem returns_writeFetched {inputs : VolumeInputs} {dir : Path} {volume : String} {sources : List ProjectedVolumeSource}
    {defaultMode : Option ℤ} : (writeFetched inputs dir volume sources defaultMode).Returns (.ok ()) ↔
      ∃ fetched, fetchSources inputs volume {} 0 sources = .ok fetched := by
  unfold writeFetched
  cases fetchSources inputs volume {} 0 sources with
  | error e => simp
  | ok fetched =>
    dsimp only
    rw [Program.returns_ok_andThen]
    constructor
    · intro _
      exact ⟨fetched,rfl⟩
    · intro _
      refine ⟨Program.returns_ok_forUntil.mpr fun s _ => returns_writeSource _ _ _ _ _,?_⟩
      obtain ⟨u,hu⟩ := Program.exists_returns answerable (cleanupStaleVolumeFiles inputs dir
        (sources.flatMap (expectedSourcePaths dir fetched)))
      exact Program.returns_bind.mpr ⟨u,hu,rfl⟩

theorem uses_writeProjectedVolume {inputs : VolumeInputs} {dir : Path} {volume : String}
    {sources : List ProjectedVolumeSource} {defaultMode : Option ℤ} :
    (writeProjectedVolume inputs dir volume sources defaultMode).Uses Confined ↔
      (writeFetched inputs dir volume sources defaultMode).Uses Confined := by
  unfold writeProjectedVolume
  rw [Program.uses_andThen,uses_orIoError,uses_createDirAll,Program.uses_bind_of_forall answerable]
  have hr := returns_orIoError (returns_createDirAll dir dir)
  simp only [Path.inside_self,uses_removeDanglingSymlinksInDir,hr,true_and,forall_const]
  split
  · rw [Program.uses_bind]
    constructor
    · rintro ⟨-,h⟩
      exact h true (returns_kubeClient true)
    · intro h
      refine ⟨uses_kubeClient.mpr trivial,?_⟩
      intro client _
      split
      · exact h
      split
      · trivial
      · trivial
  · rfl

theorem returns_writeProjectedVolume {inputs : VolumeInputs} {dir : Path} {volume : String}
    {sources : List ProjectedVolumeSource} {defaultMode : Option ℤ} :
    (writeProjectedVolume inputs dir volume sources defaultMode).Returns (.ok ()) ↔
      (writeFetched inputs dir volume sources defaultMode).Returns (.ok ()) ∨
        (sources.any needsClient = true ∧ sources.all isOptional = true) := by
  unfold writeProjectedVolume
  rw [Program.returns_ok_andThen,Program.returns_bind]
  have hr := returns_orIoError (returns_createDirAll dir dir)
  obtain ⟨u,hu⟩ := Program.exists_returns answerable (removeDanglingSymlinksInDir dir)
  constructor
  · rintro ⟨-,_,-,h⟩
    split at h
    · next hneeds =>
      obtain ⟨client,-,h⟩ := Program.returns_bind.mp h
      split at h
      · exact .inl h
      split at h
      · next hall => exact .inr ⟨hneeds,hall⟩
      · cases h
    · exact .inl h
  · rintro (h | ⟨hneeds,hall⟩)
    · refine ⟨hr,u,hu,?_⟩
      split
      · exact Program.returns_bind.mpr ⟨true,returns_kubeClient true,h⟩
      · exact h
    · refine ⟨hr,u,hu,?_⟩
      rw [if_pos hneeds]
      refine Program.returns_bind.mpr ⟨false,returns_kubeClient false,?_⟩
      rw [if_neg Bool.false_ne_true,if_pos hall]
      rfl

theorem returns_writeOrWarn {inputs : VolumeInputs} {dir : Path} {files : VolumeProgram (Except KubeletError Unit)}
    {expected : List Path} (h : files.Returns (.ok ())) : (writeOrWarn inputs dir files expected).Returns (.ok ()) := by
  unfold writeOrWarn
  obtain ⟨u,hu⟩ := Program.exists_returns answerable (cleanupStaleVolumeFiles inputs dir expected)
  exact Program.returns_bind.mpr ⟨.ok (),h,Program.returns_bind.mpr ⟨u,hu,rfl⟩⟩

theorem uses_writeOrWarn {inputs : VolumeInputs} {dir : Path} {files : VolumeProgram (Except KubeletError Unit)}
    {expected : List Path} : (writeOrWarn inputs dir files expected).Uses Confined ↔ files.Uses Confined := by
  unfold writeOrWarn
  rw [Program.uses_bind]
  constructor
  · intro h
    exact h.1
  · intro h
    refine ⟨h,?_⟩
    intro r _
    cases r with
    | ok u => exact Program.Uses.bind (uses_cleanupStaleVolumeFiles _ _ _) fun _ => trivial
    | error e => trivial

theorem uses_clearOrFail (inputs : VolumeInputs) (dir : Path) (optional : Bool) (e : KubeletError) :
    (clearOrFail inputs dir optional e).Uses Confined := by
  unfold clearOrFail
  split
  · exact Program.Uses.bind (uses_clearVolumeDir _ _) fun _ => trivial
  · trivial

theorem returns_clearOrFail {inputs : VolumeInputs} {dir : Path} {optional : Bool} {e : KubeletError} :
    (clearOrFail inputs dir optional e).Returns (.ok ()) ↔ optional = true := by
  unfold clearOrFail
  split
  · next h =>
    obtain ⟨u,hu⟩ := Program.exists_returns answerable (clearVolumeDir inputs dir)
    exact ⟨fun _ => h,fun _ => Program.returns_bind.mpr ⟨u,hu,rfl⟩⟩
  · next h =>
    constructor
    · intro he
      cases he
    · intro ho
      exact absurd ho h

section Standalone
variable {inputs : VolumeInputs} {dir : Path} {volume name : String} {items : List KeyToPath} {optional : Bool}
  {defaultMode : Option ℤ}

/-- Up to the question for a client, both kinds of volumes stay inside their directory. -/
theorem uses_prepared {rest : Bool → VolumeProgram (Except KubeletError Unit)} :
    (do
      let _ ← createDirAll dir dir
      removeDanglingSymlinksInDir dir
      let client ← kubeClient
      rest client).Uses Confined ↔ ∀ client, (rest client).Uses Confined := by
  rw [Program.uses_bind_of_forall answerable,Program.uses_bind_of_forall answerable,uses_createDirAll,Program.uses_bind]
  constructor
  · rintro ⟨-,-,-,h⟩ client
    exact h client (returns_kubeClient client)
  · intro h
    exact ⟨Path.inside_self dir,uses_removeDanglingSymlinksInDir dir,uses_kubeClient.mpr trivial,fun client _ => h client⟩

theorem uses_writeConfigMapVolume : (writeConfigMapVolume inputs dir volume name items optional defaultMode).Uses Confined ↔
    ∀ cm, inputs.configMap name volume 0 1 = .ok cm →
      ∀ text ∈ dataTexts (configmapDataBytes cm) items, dir.Contained (.parse text) := by
  unfold writeConfigMapVolume
  rw [uses_prepared]
  constructor
  · intro h cm hcm
    have ht := h true
    rw [if_pos rfl,hcm] at ht
    exact uses_writeDataFiles.mp (uses_writeOrWarn.mp ht)
  · intro h client
    split
    · cases hcm : inputs.configMap name volume 0 1 with
      | ok cm => exact uses_writeOrWarn.mpr (uses_writeDataFiles.mpr (h cm hcm))
      | error e => exact uses_clearOrFail _ _ _ _
    split
    · trivial
    · trivial

theorem uses_writeSecretVolume : (writeSecretVolume inputs dir volume name items optional defaultMode).Uses Confined ↔
    ∀ data, inputs.secret name volume 0 1 = .ok data → ∀ text ∈ dataTexts data items, dir.Contained (.parse text) := by
  unfold writeSecretVolume
  rw [uses_prepared]
  constructor
  · intro h data hdata
    have ht := h true
    rw [if_pos rfl,hdata] at ht
    exact uses_writeDataFiles.mp (uses_writeOrWarn.mp ht)
  · intro h client
    split
    · cases hdata : inputs.secret name volume 0 1 with
      | ok data => exact uses_writeOrWarn.mpr (uses_writeDataFiles.mpr (h data hdata))
      | error e => exact uses_clearOrFail _ _ _ _
    · trivial

/-- Both kinds of volumes begin by making their directory and asking for a client. -/
theorem returns_prepared {rest : Bool → VolumeProgram (Except KubeletError Unit)} :
    (do
      let _ ← createDirAll dir dir
      removeDanglingSymlinksInDir dir
      let client ← kubeClient
      rest client).Returns (.ok ()) ↔ (rest true).Returns (.ok ()) ∨ (rest false).Returns (.ok ()) := by
  obtain ⟨u,hu⟩ := Program.exists_returns answerable (removeDanglingSymlinksInDir dir)
  constructor
  · intro h
    obtain ⟨_,-,h⟩ := Program.returns_bind.mp h
    obtain ⟨_,-,h⟩ := Program.returns_bind.mp h
    obtain ⟨client,-,h⟩ := Program.returns_bind.mp h
    cases client with
    | true => exact .inl h
    | false => exact .inr h
  · intro h
    refine Program.returns_bind.mpr ⟨.ok (),returns_createDirAll _ _,Program.returns_bind.mpr ⟨u,hu,?_⟩⟩
    rcases h with h | h
    · exact Program.returns_bind.mpr ⟨true,returns_kubeClient true,h⟩
    · exact Program.returns_bind.mpr ⟨false,returns_kubeClient false,h⟩

theorem returns_writeConfigMapVolume :
    (writeConfigMapVolume inputs dir volume name items optional defaultMode).Returns (.ok ()) ↔
      (∃ cm, inputs.configMap name volume 0 1 = .ok cm) ∨ optional = true := by
  unfold writeConfigMapVolume
  rw [returns_prepared,if_pos rfl,if_neg Bool.false_ne_true]
  cases inputs.configMap name volume 0 1 with
  | ok cm =>
    have hok := returns_writeDataFiles dir (configmapDataBytes cm) items (some (defaultMode.getD 0o644))
      (fun item => ((item.mode <|> some (defaultMode.getD 0o644)).getD 0o644))
    exact ⟨fun _ => .inl ⟨cm,rfl⟩,fun _ => .inl (returns_writeOrWarn hok)⟩
  | error e =>
    dsimp only
    rw [returns_clearOrFail]
    constructor
    · rintro (h | h)
      · exact .inr h
      · split at h
        · next ho => exact .inr ho
        · cases h
    · rintro (⟨cm,h⟩ | h)
      · cases h
      · exact .inl h

theorem returns_writeSecretVolume :
    (writeSecretVolume inputs dir volume name items optional defaultMode).Returns (.ok ()) ↔
      (∃ data, inputs.secret name volume 0 1 = .ok data) ∨ optional = true := by
  unfold writeSecretVolume
  rw [returns_prepared,if_pos rfl,if_neg Bool.false_ne_true]
  cases inputs.secret name volume 0 1 with
  | ok data =>
    have hok := returns_writeDataFiles dir data items (some ((some (defaultMode.getD 0o644)).getD 0o600))
      (fun item => ((item.mode <|> some (defaultMode.getD 0o644)).getD 0o600))
    exact ⟨fun _ => .inl ⟨data,rfl⟩,fun _ => .inl (returns_writeOrWarn hok)⟩
  | error e =>
    dsimp only
    rw [returns_clearOrFail]
    constructor
    · rintro (h | h)
      · exact .inr h
      · cases h
    · rintro (⟨data,h⟩ | h)
      · cases h
      · exact .inl h

end Standalone

/-! ## A sync of all volumes -/

/-- The texts of a volume lead to files in its directory. -/
def TextsContained (inputs : VolumeInputs) (pod : PodSpec) (v : VolumeSpec) : Prop :=
  ∀ text ∈ volumeTexts inputs v, (volumeTargetPath inputs pod v.name).Contained (.parse text)

theorem uses_writeVolume {inputs : VolumeInputs} {pod : PodSpec} {v : VolumeSpec} (hv : VolumeSpec.isDownwardAPI v = false) :
    (writeVolume inputs pod v).Uses Confined ↔ TextsContained inputs pod v := by
  unfold writeVolume TextsContained volumeTexts
  unfold VolumeSpec.isDownwardAPI at hv
  cases hs : v.source with
  | projected sources defaultMode =>
    rw [uses_writeProjectedVolume,uses_writeFetched]
    cases hf : fetchSources inputs v.name {} 0 sources with
    | ok fetched => simp [hf]
    | error e => simp [hf]
  | configMap name items optional defaultMode =>
    rw [uses_writeConfigMapVolume]
    cases hcm : inputs.configMap name v.name 0 1 with
    | ok cm => simp [hcm]
    | error e => simp [hcm]
  | secret secretName items optional defaultMode =>
    rw [uses_writeSecretVolume]
    cases hdata : inputs.secret secretName v.name 0 1 with
    | ok data => simp [hdata]
    | error e => simp [hdata]
  | downwardAPI items defaultMode =>
    rw [hs] at hv
    cases hv
  | _ => simp

theorem returns_writeVolume {inputs : VolumeInputs} {pod : PodSpec} {v : VolumeSpec} :
    (writeVolume inputs pod v).Returns (.ok ()) ↔ Fetchable inputs v := by
  unfold writeVolume Fetchable
  cases v.source with
  | projected sources defaultMode => rw [returns_writeProjectedVolume,returns_writeFetched]
  | configMap name items optional defaultMode => exact returns_writeConfigMapVolume
  | secret secretName items optional defaultMode => exact returns_writeSecretVolume
  | _ => simp

theorem uses_refreshDownward {inputs : VolumeInputs} {pod : PodSpec} {v : VolumeSpec}
    (hv : VolumeSpec.isDownwardAPI v = true) : (refreshDownward inputs pod v).Uses Confined ↔ TextsContained inputs pod v := by
  unfold VolumeSpec.isDownwardAPI at hv
  split at hv
  · next items defaultMode hsource =>
    unfold refreshDownward TextsContained volumeTexts
    rw [hsource]
    exact uses_writeDownwardVolume
  · cases hv

theorem uses_mountMissing (inputs : VolumeInputs) (pod : PodSpec) : (mountMissing inputs pod).Uses Confined := by
  unfold mountMissing request
  rw [Program.uses_request_bind]
  refine ⟨trivial,?_⟩
  intro listed
  cases listed with
  | error e => trivial
  | ok alreadyMounted =>
    dsimp only
    split
    · trivial
    · exact Program.uses_request_bind.mpr ⟨trivial,fun _ => trivial⟩

theorem returns_mountMissing (inputs : VolumeInputs) (pod : PodSpec) : (mountMissing inputs pod).Returns (.ok ()) := by
  refine ⟨Except.ok [],?_⟩
  show Program.Returns (if _ then _ else _) _
  split
  · rfl
  · exact ⟨Except.ok (),rfl⟩

/-- The volumes that are written one after the other until one fails. -/
def writtenVolumes (pod : PodSpec) : List VolumeSpec :=
  pod.volumes.filter VolumeSpec.isProjected ++
    (pod.volumes.filter VolumeSpec.isConfigMap ++ pod.volumes.filter VolumeSpec.isSecret)

/-- A sync gets to the files of the volume: nothing stops it at a volume before. -/
def Reached (inputs : VolumeInputs) (pod : PodSpec) (v : VolumeSpec) : Prop :=
  pod.podRef.name ≠ "" ∧ (v ∈ pod.volumes.filter VolumeSpec.isDownwardAPI ∨
    ∃ pre post, writtenVolumes pod = pre ++ v :: post ∧ ∀ w ∈ pre, Fetchable inputs w)

theorem not_isDownwardAPI_of_mem (pod : PodSpec) {v : VolumeSpec} (h : v ∈ writtenVolumes pod) :
    VolumeSpec.isDownwardAPI v = false := by
  unfold writtenVolumes at h
  rw [List.mem_append,List.mem_append,List.mem_filter,List.mem_filter,List.mem_filter] at h
  unfold VolumeSpec.isDownwardAPI
  rcases h with ⟨-,h⟩ | ⟨-,h⟩ | ⟨-,h⟩
  · unfold VolumeSpec.isProjected at h
    split at h
    · next hs => rw [hs]
    · cases h
  · unfold VolumeSpec.isConfigMap at h
    split at h
    · next hs => rw [hs]
    · cases h
  · unfold VolumeSpec.isSecret at h
    split at h
    · next hs => rw [hs]
    · cases h

/-- What a sync changes is inside of the volumes exactly if the texts of every volume that it
gets to are contained. -/
theorem uses_ensurePodVolumes {inputs : VolumeInputs} {pod : PodSpec} :
    (ensurePodVolumes inputs pod).Uses Confined ↔ ∀ v, Reached inputs pod v → TextsContained inputs pod v := by
  have hloops : (Program.andThen (Program.forUntil (writeVolume inputs pod) (pod.volumes.filter VolumeSpec.isProjected)) <|
      Program.andThen (Program.forUntil (writeVolume inputs pod) (pod.volumes.filter VolumeSpec.isConfigMap)) <|
        Program.forUntil (writeVolume inputs pod) (pod.volumes.filter VolumeSpec.isSecret)).Uses Confined ↔
      ∀ pre v post, writtenVolumes pod = pre ++ v :: post → (∀ w ∈ pre, Fetchable inputs w) →
        TextsContained inputs pod v := by
    rw [← Program.forUntil_append,← Program.forUntil_append,Program.uses_forUntil]
    refine forall_congr' fun pre => forall_congr' fun v => forall_congr' fun post => ?_
    refine forall_congr' fun h => ?_
    simp only [returns_writeVolume]
    refine imp_congr_right fun _ => uses_writeVolume (not_isDownwardAPI_of_mem pod ?_)
    unfold writtenVolumes
    rw [h]
    exact List.mem_append_right pre List.mem_cons_self
  have hdownward : (Program.forEach (refreshDownward inputs pod) (pod.volumes.filter VolumeSpec.isDownwardAPI)).Uses Confined ↔
      ∀ v ∈ pod.volumes.filter VolumeSpec.isDownwardAPI, TextsContained inputs pod v := by
    rw [Program.uses_forEach answerable]
    exact forall₂_congr fun v hv => uses_refreshDownward (List.mem_filter.mp hv).2
  unfold ensurePodVolumes
  split
  · next hempty =>
    have hnil : pod.volumes = [] := List.isEmpty_iff.mp hempty
    simp [Reached,writtenVolumes,hnil]
  split
  · next hname => simp [Reached,hname]
  · next hname =>
    rw [Program.uses_andThen,Program.uses_bind_of_forall answerable,hdownward,hloops]
    simp only [uses_mountMissing,returns_mountMissing,forall_const,true_and]
    constructor
    · rintro ⟨hd,hw⟩ v ⟨-,hv⟩
      rcases hv with hv | ⟨pre,post,he,hpre⟩
      · exact hd v hv
      · exact hw pre v post he hpre
    · intro h
      refine ⟨fun v hv => h v ⟨hname,.inl hv⟩,?_⟩
      intro pre v post he hpre
      exact h v ⟨hname,.inr ⟨pre,post,he,hpre⟩⟩

section Claim
open VolumeMounts

/-- The paths that a sync changes for the volumes of a pod are inside of the volumes, and so
are the host paths of the mounts of a container, exactly if the texts that name files of the
volumes it gets to are contained and the sub paths that are joined stay in their volumes. -/
theorem host_paths_confined_iff (inputs : VolumeInputs) (pod : PodSpec) (ctr : ContainerSpec)
    (env : HashMap String String) (mountedVolumes : HashMap String Path) :
    ((ensurePodVolumes inputs pod).Uses Confined ↔ ∀ v, Reached inputs pod v → TextsContained inputs pod v) ∧
    ((∀ ms, resolveVolumeMounts ctr.name env mountedVolumes ctr.volumeMounts = .ok ms →
        ∀ m ∈ ms, m.base.Inside m.source) ↔
      ((∀ vm ∈ ctr.volumeMounts, Resolvable env mountedVolumes vm) →
        ∀ vm ∈ ctr.volumeMounts, ∀ base, mountedVolumes.lookup vm.name = some base → SubPathStays base vm)) :=
  ⟨uses_ensurePodVolumes,sources_inside_iff⟩

/-! A pod whose texts leave their directories. -/

def leavingInputs : VolumeInputs where
  rootDir := .parse "/var/lib/kubelet"
  configMap := fun _ _ _ _ => .ok ⟨∅,∅⟩
  secret := fun _ _ _ _ => .ok ∅
  resolveDownwardApiValue := fun _ => "web"
  depth := 8

def leavingVolume : VolumeSpec :=
  ⟨"info",.downwardAPI [{ path := "../../../../../../../../etc/cron.d/job", fieldRef := some "metadata.name" }] none⟩

def leavingContainer : ContainerSpec where
  name := "app"
  volumeMounts := [{ name := "info", mountPath := "/data", subPath := some "../../../../../../../../etc" }]

def leavingPod : PodSpec where
  uid := ⟨"1"⟩
  podRef := ⟨"default","web"⟩
  containers := [leavingContainer]
  volumes := [leavingVolume]

def leavingMounted : HashMap String Path :=
  (∅ : HashMap String Path).insert "info" (volumeTargetPath leavingInputs leavingPod "info")

theorem leaving_paths : ¬(ensurePodVolumes leavingInputs leavingPod).Uses Confined ∧
    ∃ ms, resolveVolumeMounts leavingContainer.name ∅ leavingMounted leavingContainer.volumeMounts = .ok ms ∧
      ∃ m ∈ ms, ¬m.base.Inside m.source := by
  constructor
  · rw [uses_ensurePodVolumes]
    intro h
    have hreached : Reached leavingInputs leavingPod leavingVolume := ⟨by decide,.inl List.mem_cons_self⟩
    have hc := h leavingVolume hreached "../../../../../../../../etc/cron.d/job" (by decide)
    exact absurd hc.1 (by decide)
  · refine ⟨_,rfl,_,List.mem_cons_self,?_⟩
    decide

end Claim
end KubeAir.Worker.Volumes
