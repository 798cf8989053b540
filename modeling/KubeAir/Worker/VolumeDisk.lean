import KubeAir.Paths.MakeDirs
import KubeAir.Worker.Volumes

/-! # Volumes on a disk

What the file operations of a sync do to the regular files of a disk when they succeed, and how
the files that are written for a volume add up.
-/
namespace KubeAir.Worker.Volumes
open Core Paths Transition

/-- The disk, and the tokens that the API server is going to issue. -/
structure VolumeWorld where
  disk : Disk Bytes
  tokens : ℕ → String

/-- The node that an entry is for. -/
def DirEntry.Describes (e : DirEntry) : DiskNode Bytes → Prop
  | .file _ => e.isDir = false ∧ e.isFile = true ∧ e.dangling = false
  | .dir => e.isDir = true ∧ e.isFile = false ∧ e.dangling = false
  | .other dangling => e.isDir = false ∧ e.isFile = false ∧ e.dangling = dangling

/-- The entries of a directory. -/
structure Lists (disk : Disk Bytes) (place : List String) (entries : List DirEntry) : Prop where
  complete : ∀ name, (disk.node (place ++ [name])).isSome → ∃ e ∈ entries, e.fileName.val = name
  sound : ∀ e ∈ entries, ∃ node, disk.node (place ++ [e.fileName.val]) = some node ∧ e.Describes node

/-- Directories were made, and nothing else has changed. -/
def Grows (disk disk' : Disk Bytes) : Prop :=
  ∀ place, disk'.node place = disk.node place ∨ disk.node place = none ∧ disk'.node place = some .dir

/-- Directories were removed, and nothing else has changed. -/
def Shrinks (disk disk' : Disk Bytes) : Prop :=
  ∀ place, disk'.node place = disk.node place ∨ disk.node place = some .dir ∧ disk'.node place = none

/-- What an operation that succeeds does, and how it is answered. -/
def Effect (cwd : List String) : (op : VolumeOp) → VolumeAnswer op → VolumeWorld → VolumeWorld → Prop
  | .fs _ (.createDirAll p) => fun a w w' =>
    a = .ok () ∧ Grows w.disk w'.disk ∧ w'.disk.node (p.place cwd) = some .dir ∧ w'.tokens = w.tokens
  | .fs _ (.write p c) => fun a w w' =>
    a = .ok () ∧ (w.disk.node (p.place cwd) = none ∨ (w.disk.contents (p.place cwd)).isSome) ∧
      w'.disk.node = Function.update w.disk.node (p.place cwd) (some (.file c)) ∧ w'.tokens = w.tokens
  | .fs _ (.setPermissions _ _) => fun _ w w' => w' = w
  | .fs _ (.removeFile p) => fun _ w w' =>
    (w.disk.node (p.place cwd) ≠ some .dir ∧ w'.disk.node = Function.update w.disk.node (p.place cwd) none ∨
      w.disk.node (p.place cwd) = some .dir ∧ w'.disk = w.disk) ∧ w'.tokens = w.tokens
  | .fs _ (.removeDir _) => fun _ w w' => Shrinks w.disk w'.disk ∧ w'.tokens = w.tokens
  | .fs _ (.read p) => fun a w w' => w' = w ∧ a = w.disk.contents (p.place cwd)
  | .fs _ (.tryExists p) => fun a w w' => w' = w ∧ a = (w.disk.node (p.place cwd)).isSome
  | .fs _ (.readDir p) => fun a w w' => w' = w ∧
    ((∃ entries, a = some entries ∧ w.disk.node (p.place cwd) = some .dir ∧ Lists w.disk (p.place cwd) entries) ∨
      a = none ∧ w.disk.node (p.place cwd) ≠ some .dir)
  | .fs _ (.isEmptyDir _) => fun _ w w' => w' = w
  | .kubeClient => fun a w w' => w' = w ∧ a = true
  | .listMountedVolumes _ => fun _ w w' => w' = w
  | .mountVolumes _ => fun _ w w' => w' = w
  | .requestServiceAccountToken _ _ => fun a w w' =>
    a = some (w.tokens 0) ∧ w'.disk = w.disk ∧ w'.tokens = fun n => w.tokens (n + 1)

/-- Below the directory nothing is deeper than `depth`. -/
def Shallow (cwd : List String) (dir : Path) (depth : ℕ) (disk : Disk Bytes) : Prop :=
  ∀ names, (disk.node (dir.place cwd ++ names)).isSome → names.length ≤ depth

/-- A sync by itself in which all that it asks for succeeds. -/
def smooth (cwd : List String) (dir : Path) (depth : ℕ) : Contract VolumeOp VolumeAnswer VolumeWorld where
  drift w w' := w = w'
  allowed _ _ := True
  answers w op a w' := Effect cwd op a w w' ∧ Shallow cwd dir depth w'.disk

/-- A disk with the places of its links that lead on. Nothing else is told at such a place: what is reached
through it lies where the link leads to. -/
structure LinkedWorld where
  world : VolumeWorld
  links : Set (List String)

/-- The places that a pass comes by: those in the directory, and those that lead to it and to the files that
are written. -/
def OnWay (cwd : List String) (dir : Path) (files : List (Path × Bytes)) (place : List String) : Prop :=
  dir.place cwd <+: place ∨ dir.Passes cwd place ∨ ∃ e ∈ files, e.1.Passes cwd place

/-- The pass follows no link. -/
def Unlinked (cwd : List String) (dir : Path) (files : List (Path × Bytes)) (w : LinkedWorld) : Prop :=
  ∀ place ∈ w.links, ¬OnWay cwd dir files place

/-- A sync in which all that it asks for succeeds. Where it would follow a link anything may happen. -/
def amidLinks (cwd : List String) (dir : Path) (depth : ℕ) (files : List (Path × Bytes)) :
    Contract VolumeOp VolumeAnswer LinkedWorld :=
  (smooth cwd dir depth).guarded LinkedWorld.world (Unlinked cwd dir files)

def placed (cwd : List String) (ws : List (Path × Bytes)) : List (List String × Bytes) :=
  ws.map (fun e => (e.1.place cwd,e.2))

section Writes
variable {cwd : List String} {dir : Path} {depth : ℕ}

/-- The volume is a directory, and nothing in it is deeper than `depth`. -/
structure Ready (cwd : List String) (dir : Path) (depth : ℕ) (disk : Disk Bytes) : Prop where
  shallow : Shallow cwd dir depth disk
  isDir : disk.node (dir.place cwd) = some .dir

/-- Files were written one after another, as far as regular files are concerned. -/
structure Wrote (cwd : List String) (dir : Path) (depth : ℕ) (ws : List (Path × Bytes)) (w w' : VolumeWorld) : Prop where
  ready : Ready cwd dir depth w'.disk
  contents : w'.disk.contents = overlay w.disk.contents (placed cwd ws)

/-- A program that writes files. -/
def Puts (cwd : List String) (dir : Path) (depth : ℕ) (p : VolumeProgram (Except KubeletError Unit))
    (ws : List (Path × Bytes)) : Prop :=
  ∀ w, Ready cwd dir depth w.disk → p.Meets (smooth cwd dir depth)
    (fun r w' => r = .ok () ∧ Wrote cwd dir depth ws w w' ∧ w'.tokens = w.tokens) w

theorem contents_of_grows {disk disk' : Disk Bytes} (h : Grows disk disk') : disk'.contents = disk.contents := by
  funext place
  unfold Disk.contents
  rcases h place with hp | ⟨hn,hd⟩
  · rw [hp]
  · rw [hn,hd]

theorem contents_of_shrinks {disk disk' : Disk Bytes} (h : Shrinks disk disk') : disk'.contents = disk.contents := by
  funext place
  unfold Disk.contents
  rcases h place with hp | ⟨hd,hn⟩
  · rw [hp]
  · rw [hn,hd]

theorem contents_of_write {disk disk' : Disk Bytes} {place : List String} {c : Bytes}
    (h : disk'.node = Function.update disk.node place (some (.file c))) :
    disk'.contents = Function.update disk.contents place (some c) := by
  funext place'
  unfold Disk.contents
  rw [h]
  by_cases hp : place' = place
  · subst hp
    rw [Function.update_self,Function.update_self]
  · rw [Function.update_of_ne hp,Function.update_of_ne hp]

/-- A request is met by what its operation does. -/
theorem meets_op {op : VolumeOp} {Q : VolumeAnswer op → VolumeWorld → Prop} {w : VolumeWorld}
    (h : ∀ a w', Effect cwd op a w w' → Shallow cwd dir depth w'.disk → Q a w') :
    (request op).Meets (smooth cwd dir depth) Q w := by
  rintro _ rfl
  exact ⟨trivial,fun a w' hw => h a w' hw.1 hw.2⟩

theorem placed_append (ws ws' : List (Path × Bytes)) : placed cwd (ws ++ ws') = placed cwd ws ++ placed cwd ws' :=
  List.map_append

theorem Wrote.refl {w : VolumeWorld} (h : Ready cwd dir depth w.disk) : Wrote cwd dir depth [] w w := ⟨h,rfl⟩

theorem Wrote.trans {ws ws' : List (Path × Bytes)} {w w' w'' : VolumeWorld} (h : Wrote cwd dir depth ws w w')
    (h' : Wrote cwd dir depth ws' w' w'') : Wrote cwd dir depth (ws ++ ws') w w'' :=
  ⟨h'.ready,by rw [h'.contents,h.contents,placed_append,overlay_append]⟩

theorem puts_pure : Puts cwd dir depth (pure (.ok ())) [] := fun _ hw => ⟨rfl,.refl hw,rfl⟩

theorem Puts.andThen {p q : VolumeProgram (Except KubeletError Unit)} {ws ws' : List (Path × Bytes)}
    (hp : Puts cwd dir depth p ws) (hq : Puts cwd dir depth q ws') :
    Puts cwd dir depth (Program.andThen p q) (ws ++ ws') := by
  intro w hw
  unfold Program.andThen
  rw [Program.meets_bind]
  refine (hp w hw).mono ?_
  rintro _ w₁ ⟨rfl,h₁,ht⟩
  refine (hq w₁ h₁.ready).mono ?_
  rintro _ w₂ ⟨rfl,h₂,ht'⟩
  exact ⟨rfl,h₁.trans h₂,ht'.trans ht⟩

theorem Puts.forUntil {ι : Type} {body : ι → VolumeProgram (Except KubeletError Unit)} {f : ι → List (Path × Bytes)}
    {l : List ι} (h : ∀ x ∈ l, Puts cwd dir depth (body x) (f x)) :
    Puts cwd dir depth (Program.forUntil body l) (l.flatMap f) := by
  induction l with
  | nil => exact puts_pure
  | cons x xs ih =>
    rw [List.flatMap_cons]
    exact (h x List.mem_cons_self).andThen (ih (fun y hy => h y (List.mem_cons_of_mem _ hy)))

theorem puts_createParent (volume filePath : Path) : Puts cwd dir depth (createParent volume filePath) [] := by
  intro w hw
  unfold createParent
  split
  · exact ⟨rfl,.refl hw,rfl⟩
  · unfold orIoError createDirAll
    rw [Program.meets_bind]
    refine meets_op ?_
    rintro _ w' ⟨rfl,hgrows,-,ht⟩ hshallow
    refine ⟨rfl,⟨⟨hshallow,?_⟩,contents_of_grows hgrows⟩,ht⟩
    rcases hgrows (dir.place cwd) with hp | ⟨hn,-⟩
    · rw [hp,hw.isDir]
    · cases hw.isDir.symm.trans hn

theorem puts_write (volume filePath : Path) (value : Bytes) :
    Puts cwd dir depth (orIoError (write volume filePath value)) [(filePath,value)] := by
  intro w hw
  unfold orIoError write
  rw [Program.meets_bind]
  refine meets_op ?_
  rintro _ w' ⟨rfl,hfree,hnode,ht⟩ hshallow
  refine ⟨rfl,⟨⟨hshallow,?_⟩,contents_of_write hnode⟩,ht⟩
  have hne : dir.place cwd ≠ filePath.place cwd := by
    intro heq
    rw [← heq] at hfree
    unfold Disk.contents at hfree
    rw [hw.isDir] at hfree
    rcases hfree with hf | hf
    · cases hf
    · cases hf
  rw [hnode,Function.update_of_ne hne,hw.isDir]

theorem puts_writeIfChanged (volume filePath : Path) (value : Bytes) :
    Puts cwd dir depth (writeIfChanged volume filePath value) [(filePath,value)] := by
  intro w hw
  unfold writeIfChanged read
  rw [Program.meets_bind]
  refine meets_op ?_
  rintro _ w' ⟨rfl,rfl⟩ -
  split
  · next hsame => exact ⟨rfl,⟨hw,(Function.update_eq_self_iff.mpr hsame.symm).symm⟩,rfl⟩
  · exact puts_write volume filePath value w' hw

theorem Puts.thenSetPermissions {p : VolumeProgram (Except KubeletError Unit)} {ws : List (Path × Bytes)}
    (hp : Puts cwd dir depth p ws) (volume filePath : Path) (mode : ℤ) :
    Puts cwd dir depth (Volumes.thenSetPermissions p volume filePath mode) ws := by
  have hperm : Puts cwd dir depth (do
      setPermissions volume filePath mode
      pure (.ok ())) [] := by
    intro w hw
    rw [Program.meets_bind]
    refine meets_op ?_
    rintro _ w' rfl -
    exact ⟨rfl,.refl hw,rfl⟩
  have h := hp.andThen hperm
  rwa [List.append_nil] at h

/-! ## Files of a ConfigMap or a Secret -/

/-- All keys, or the items whose key is there. -/
def dataWrites (dir : Path) (data : HashMap String Bytes) (items : List KeyToPath) : List (Path × Bytes) :=
  if items.isEmpty then data.entries.map (fun e => (dir.join (.parse e.1),e.2))
  else items.filterMap (fun item => (data.lookup item.key).map (fun value => (dir.join (.parse item.path),value)))

theorem puts_writeDataFile (text : String) (value : Bytes) (mode : Option ℤ) :
    Puts cwd dir depth (writeDataFile dir text value mode) [(dir.join (.parse text),value)] := by
  unfold writeDataFile
  have hparent : Puts cwd dir depth (createParent dir (dir.join (.parse text))) [] := puts_createParent dir _
  have hwrite : Puts cwd dir depth (writeIfChanged dir (dir.join (.parse text)) value) [(dir.join (.parse text),value)] :=
    puts_writeIfChanged dir _ value
  cases mode with
  | none => exact hparent.andThen hwrite
  | some mode => exact hparent.andThen (hwrite.thenSetPermissions dir _ mode)

theorem puts_writeDataFiles (data : HashMap String Bytes) (items : List KeyToPath) (keyMode : Option ℤ)
    (itemMode : KeyToPath → ℤ) :
    Puts cwd dir depth (writeDataFiles dir data items keyMode itemMode) (dataWrites dir data items) := by
  unfold writeDataFiles dataWrites
  split
  · have hkey : ∀ e ∈ data.entries, Puts cwd dir depth (writeDataFile dir e.1 e.2 keyMode) [(dir.join (.parse e.1),e.2)] :=
      fun e _ => puts_writeDataFile e.1 e.2 keyMode
    have h := Puts.forUntil hkey
    rwa [← List.map_eq_flatMap] at h
  · rw [List.filterMap_eq_flatMap_toList]
    refine Puts.forUntil ?_
    intro item _
    cases data.lookup item.key with
    | none => exact puts_pure
    | some value => exact puts_writeDataFile item.path value _

/-! ## Files of the sources of a projected volume -/

def takesToken : ProjectedVolumeSource → Bool
  | .serviceAccountToken .. => true
  | _ => false

def itemWrites (inputs : VolumeInputs) (dir : Path) (item : DownwardAPIVolumeFile) : List (Path × Bytes) :=
  if skipsItem inputs item then []
  else [(dir.join (.parse item.path),(inputs.resolveDownwardApiValue item).toUTF8.data.toList)]

def sourceWrites (inputs : VolumeInputs) (dir : Path) (fetched : Fetched) (token : String) :
    ProjectedVolumeSource → List (Path × Bytes)
  | .configMap name items _ => ((fetched.configmaps.lookup name).map (dataWrites dir · items)).getD []
  | .secret name items _ => ((fetched.secrets.lookup name).map (dataWrites dir · items)).getD []
  | .downwardAPI items => items.flatMap (itemWrites inputs dir)
  | .serviceAccountToken _ _ path => [(dir.join (.parse path),token.toUTF8.data.toList)]

/-- The sources one after another, each with the token that is issued for it. -/
def sourcesWrites (inputs : VolumeInputs) (dir : Path) (fetched : Fetched) :
    (ℕ → String) → List ProjectedVolumeSource → List (Path × Bytes)
  | _, [] => []
  | tokens, s :: rest => sourceWrites inputs dir fetched (tokens 0) s ++
      sourcesWrites inputs dir fetched (if takesToken s then fun n => tokens (n + 1) else tokens) rest

theorem puts_writeProjectedItem (inputs : VolumeInputs) (defaultMode : Option ℤ) (item : DownwardAPIVolumeFile) :
    Puts cwd dir depth (writeProjectedItem inputs dir defaultMode item) (itemWrites inputs dir item) := by
  unfold writeProjectedItem itemWrites
  split
  · exact puts_pure
  · exact (puts_createParent dir _).andThen ((puts_write dir _ _).thenSetPermissions dir _ _)

theorem puts_writeSource (inputs : VolumeInputs) (defaultMode : Option ℤ) (fetched : Fetched) (token : String)
    {source : ProjectedVolumeSource} (h : takesToken source = false) :
    Puts cwd dir depth (writeSource inputs dir defaultMode fetched source) (sourceWrites inputs dir fetched token source) := by
  cases source with
  | configMap name items optional =>
    dsimp only [writeSource,sourceWrites]
    cases fetched.configmaps.lookup name with
    | none => exact puts_pure
    | some data => exact puts_writeDataFiles data items _ _
  | secret name items optional =>
    dsimp only [writeSource,sourceWrites]
    cases fetched.secrets.lookup name with
    | none => exact puts_pure
    | some data => exact puts_writeDataFiles data items _ _
  | downwardAPI items => exact .forUntil fun item _ => puts_writeProjectedItem inputs defaultMode item
  | serviceAccountToken audience expirationSeconds path => cases h

/-- The token that is issued for a source is written. -/
theorem meets_writeTokenFile (defaultMode : Option ℤ) (audience : Option String) (expirationSeconds : Option ℕ)
    (path : String) (w : VolumeWorld) (hw : Ready cwd dir depth w.disk) :
    (writeTokenFile dir defaultMode audience expirationSeconds path).Meets (smooth cwd dir depth) (fun r w' => r = .ok () ∧
      Wrote cwd dir depth [(dir.join (.parse path),(w.tokens 0).toUTF8.data.toList)] w w' ∧
      w'.tokens = fun n => w.tokens (n + 1)) w := by
  unfold writeTokenFile Program.andThen
  rw [Program.meets_bind]
  refine (puts_createParent dir _ w hw).mono ?_
  rintro _ w₁ ⟨rfl,h₁,ht⟩
  dsimp only
  unfold writeToken kubeClient
  rw [Program.meets_bind]
  refine meets_op ?_
  rintro _ w₂ ⟨rfl,-⟩ -
  rw [Program.meets_bind]
  refine meets_op ?_
  rintro _ w₃ ⟨rfl,hdisk,htokens⟩ -
  refine ((puts_writeIfChanged dir _ _).thenSetPermissions dir _ _ w₃ (hdisk ▸ h₁.ready)).mono ?_
  rintro r w₄ ⟨rfl,h₄,ht'⟩
  have h₃ : Wrote cwd dir depth [] w w₃ := ⟨hdisk ▸ h₁.ready,by rw [hdisk,h₁.contents]⟩
  refine ⟨rfl,?_,?_⟩
  · rw [← ht]
    exact h₃.trans h₄
  · rw [ht',htokens,ht]

theorem meets_writeSource (inputs : VolumeInputs) (defaultMode : Option ℤ) (fetched : Fetched)
    (source : ProjectedVolumeSource) (w : VolumeWorld) (hw : Ready cwd dir depth w.disk) :
    (writeSource inputs dir defaultMode fetched source).Meets (smooth cwd dir depth) (fun r w' => r = .ok () ∧
      Wrote cwd dir depth (sourceWrites inputs dir fetched (w.tokens 0) source) w w' ∧
      w'.tokens = if takesToken source then fun n => w.tokens (n + 1) else w.tokens) w := by
  cases h : takesToken source with
  | false => exact puts_writeSource inputs defaultMode fetched (w.tokens 0) h w hw
  | true =>
    cases source with
    | serviceAccountToken audience expirationSeconds path =>
      exact meets_writeTokenFile defaultMode audience expirationSeconds path w hw
    | configMap name items optional => cases h
    | secret name items optional => cases h
    | downwardAPI items => cases h

/-- The sources of a projected volume are written one after another. -/
theorem meets_writeSources (inputs : VolumeInputs) (defaultMode : Option ℤ) (fetched : Fetched)
    (sources : List ProjectedVolumeSource) (w : VolumeWorld) (hw : Ready cwd dir depth w.disk) :
    (Program.forUntil (writeSource inputs dir defaultMode fetched) sources).Meets (smooth cwd dir depth) (fun r w' =>
      r = .ok () ∧ Wrote cwd dir depth (sourcesWrites inputs dir fetched w.tokens sources) w w') w := by
  induction sources generalizing w with
  | nil => exact ⟨rfl,.refl hw⟩
  | cons source rest ih =>
    unfold Program.forUntil Program.andThen
    rw [Program.meets_bind]
    refine (meets_writeSource inputs defaultMode fetched source w hw).mono ?_
    rintro _ w₁ ⟨rfl,h₁,ht⟩
    refine (ih w₁ h₁.ready).mono ?_
    rintro _ w₂ ⟨rfl,h₂⟩
    rw [ht] at h₂
    exact ⟨rfl,h₁.trans h₂⟩

end Writes

end KubeAir.Worker.Volumes
