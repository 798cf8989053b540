import KubeAir.Worker.VolumeDisk

/-! # Volumes that are swept

A sweep walks through the directory of a volume and takes away the files that are not at an
expected path. Files that are deeper than the walk goes do not exist.
-/
namespace KubeAir.Worker.Volumes
open Core Paths Transition

/-- Nodes were removed, and nothing else has changed. -/
def Thins (disk disk' : Disk Bytes) : Prop := ∀ place, disk'.node place = disk.node place ∨ disk'.node place = none

/-- The files at some places are gone, and all others are left. -/
structure Sweeps (gone : List String → Prop) (w w' : VolumeWorld) : Prop where
  thins : Thins w.disk w'.disk
  swept : ∀ place, gone place → w'.disk.contents place = none
  kept : ∀ place, ¬gone place → w'.disk.contents place = w.disk.contents place

theorem Thins.trans {disk disk' disk'' : Disk Bytes} (h : Thins disk disk') (h' : Thins disk' disk'') : Thins disk disk'' := by
  intro place
  rcases h' place with hp | hp
  · rw [hp]
    exact h place
  · exact .inr hp

theorem Thins.contents_eq_none {disk disk' : Disk Bytes} (h : Thins disk disk') {place : List String}
    (hnone : disk.contents place = none) : disk'.contents place = none := by
  unfold Disk.contents at hnone ⊢
  rcases h place with hp | hp
  · rwa [hp]
  · rw [hp]

theorem Sweeps.refl {w : VolumeWorld} : Sweeps (fun _ => False) w w := ⟨fun _ => .inl rfl,fun _ => False.elim,fun _ _ => rfl⟩

theorem Sweeps.trans {gone gone' : List String → Prop} {w w' w'' : VolumeWorld} (h : Sweeps gone w w')
    (h' : Sweeps gone' w' w'') : Sweeps (fun place => gone place ∨ gone' place) w w'' where
  thins := h.thins.trans h'.thins
  swept place hg := by
    by_cases hg' : gone' place
    · exact h'.swept place hg'
    · rw [h'.kept place hg']
      exact h.swept place (hg.resolve_right hg')
  kept place hg := by
    rw [h'.kept place (fun hg' => hg (.inr hg')),h.kept place (fun hg' => hg (.inl hg'))]

/-- It does not matter whether a place without a file is swept. -/
theorem Sweeps.congr {gone gone' : List String → Prop} {w w' : VolumeWorld} (h : Sweeps gone w w')
    (hgone : ∀ place, w.disk.contents place ≠ none → (gone place ↔ gone' place)) : Sweeps gone' w w' where
  thins := h.thins
  swept place hg := by
    by_cases hc : w.disk.contents place = none
    · exact h.thins.contents_eq_none hc
    · exact h.swept place ((hgone place hc).mpr hg)
  kept place hg := by
    by_cases hc : w.disk.contents place = none
    · rw [h.thins.contents_eq_none hc,hc]
    · exact h.kept place (fun hg' => hg ((hgone place hc).mp hg'))

section Sweeping
variable {cwd : List String} {dir : Path} {depth : ℕ}

/-- The places below a part of the directory that are not to be kept. -/
def Stale (cwd : List String) (dir : Path) (keep : List String → Prop) (start : List String) (place : List String) : Prop :=
  ∃ names, place = dir.place cwd ++ (start ++ names) ∧ ¬keep (start ++ names)

theorem Shallow.of_thins {disk disk' : Disk Bytes} (h : Shallow cwd dir depth disk) (ht : Thins disk disk') :
    Shallow cwd dir depth disk' := by
  intro names hs
  rcases ht (dir.place cwd ++ names) with hp | hp
  · exact h names (hp ▸ hs)
  · rw [hp] at hs
    cases hs

theorem entryPath_below (start : List String) (e : DirEntry) :
    entryPath (dir.below start) e = dir.below (start ++ [e.fileName.val]) := by
  unfold entryPath
  rw [e.fileName.ok,← Path.below_append]
  rfl

theorem thins_of_remove {disk disk' : Disk Bytes} {place : List String}
    (h : disk'.node = Function.update disk.node place none) : Thins disk disk' := by
  intro place'
  rw [h]
  by_cases hp : place' = place
  · exact .inr (hp ▸ Function.update_self _ _ _)
  · exact .inl (Function.update_of_ne hp _ _)

theorem contents_of_remove {disk disk' : Disk Bytes} {place : List String}
    (h : disk'.node = Function.update disk.node place none) : disk'.contents = Function.update disk.contents place none := by
  funext place'
  unfold Disk.contents
  rw [h]
  by_cases hp : place' = place
  · subst hp
    rw [Function.update_self,Function.update_self]
  · rw [Function.update_of_ne hp,Function.update_of_ne hp]

/-- A removal of a file sweeps its place. -/
theorem meets_removeFile (volume p : Path) {w : VolumeWorld} (hnode : w.disk.node (p.place cwd) ≠ some .dir) :
    (removeFile volume p).Meets (smooth cwd dir depth) (fun _ w' => Sweeps (· = p.place cwd) w w') w := by
  unfold removeFile
  refine meets_op ?_
  rintro _ w' ⟨⟨-,hremoved⟩ | ⟨hdir,-⟩,-⟩ -
  · have hcontents := contents_of_remove hremoved
    refine ⟨thins_of_remove hremoved,?_,fun place hne => ?_⟩
    · rintro place rfl
      rw [hcontents,Function.update_self]
    · rw [hcontents,Function.update_of_ne hne]
  · exact absurd hdir hnode

theorem meets_removeDir (volume p : Path) (w : VolumeWorld) :
    (removeDir volume p).Meets (smooth cwd dir depth) (fun _ w' => Sweeps (fun _ => False) w w') w := by
  unfold removeDir
  refine meets_op ?_
  rintro _ w' ⟨hshrinks,-⟩ -
  refine ⟨fun place => (hshrinks place).imp_right And.right,fun _ => False.elim,fun place _ => ?_⟩
  rw [contents_of_shrinks hshrinks]

/-- A loop over the entries of a directory sweeps the directory if each round sweeps its entry. -/
theorem meets_sweepEntries {keep : List String → Prop} {start : List String} {entries : List DirEntry}
    {body : DirEntry → VolumeProgram Unit} {w₀ : VolumeWorld}
    (hbody : ∀ e ∈ entries, ∀ w, Thins w₀.disk w.disk → (body e).Meets (smooth cwd dir depth)
      (fun _ w' => Sweeps (Stale cwd dir keep (start ++ [e.fileName.val])) w w') w)
    (w : VolumeWorld) (hw : Thins w₀.disk w.disk) :
    (Program.forEach body entries).Meets (smooth cwd dir depth) (fun _ w' =>
      Sweeps (fun place => ∃ e ∈ entries, Stale cwd dir keep (start ++ [e.fileName.val]) place) w w') w := by
  induction entries generalizing w with
  | nil =>
    refine Sweeps.refl.congr fun place _ => ?_
    simp only [List.not_mem_nil,false_and,exists_false]
  | cons e rest ih =>
    unfold Program.forEach
    rw [Program.meets_bind]
    refine (hbody e List.mem_cons_self w hw).mono fun _ w₁ h₁ => ?_
    refine (ih (fun e' he' => hbody e' (List.mem_cons_of_mem _ he')) w₁ (hw.trans h₁.thins)).mono fun _ w₂ h₂ => ?_
    refine (h₁.trans h₂).congr fun place _ => ?_
    simp only [List.mem_cons,or_and_right,exists_or,exists_eq_left]

/-- A directory is swept if a loop over its entries sweeps each of them. -/
theorem meets_sweepDir {keep : List String → Prop} {start : List String} {body : DirEntry → VolumeProgram Unit}
    {w : VolumeWorld} (volume : Path) (hnone : w.disk.contents (dir.place cwd ++ start) = none)
    (hbody : ∀ entries, Lists w.disk (dir.place cwd ++ start) entries → ∀ e ∈ entries, ∀ w', Thins w.disk w'.disk →
      (body e).Meets (smooth cwd dir depth)
        (fun _ w'' => Sweeps (Stale cwd dir keep (start ++ [e.fileName.val])) w' w'') w') :
    (do
      match ← readDir volume (dir.below start) with
      | none => pure ()
      | some entries => Program.forEach body entries : VolumeProgram Unit).Meets (smooth cwd dir depth)
        (fun _ w' => Sweeps (Stale cwd dir keep start) w w') w := by
  unfold readDir
  rw [Program.meets_bind]
  refine meets_op ?_
  rintro _ w' ⟨rfl,hanswer⟩ -
  rw [Path.place_below] at hanswer
  rcases hanswer with ⟨entries,rfl,hdir,hlists⟩ | ⟨rfl,hdir⟩
  · refine (meets_sweepEntries (hbody entries hlists) w' fun _ => .inl rfl).mono fun _ w'' h => h.congr fun place hc => ?_
    constructor
    · rintro ⟨e,-,names,rfl,hkeep⟩
      exact ⟨e.fileName.val :: names,by simp,by simpa using hkeep⟩
    · rintro ⟨names,rfl,hkeep⟩
      cases names with
      | nil => exact absurd (by rwa [List.append_nil]) hc
      | cons name names =>
        have hname : (w'.disk.node (dir.place cwd ++ start ++ [name])).isSome := by
          by_contra hno
          have hn : w'.disk.node (dir.place cwd ++ start ++ [name]) = none := by simpa using hno
          apply hc
          unfold Disk.contents
          cases names with
          | nil => rw [← List.append_assoc,hn]
          | cons x xs =>
            have hbelow := Disk.node_append_eq_none (d := w'.disk) (h := by rw [hn]; exact nofun) (List.cons_ne_nil x xs)
            rw [List.append_assoc,List.append_assoc] at hbelow
            rw [show name :: x :: xs = [name] ++ (x :: xs) from rfl,hbelow]
        obtain ⟨e,he,rfl⟩ := hlists.complete name hname
        exact ⟨e,he,names,by simp,by simpa using hkeep⟩
  · refine Sweeps.refl.congr fun place hc => ?_
    constructor
    · exact False.elim
    · rintro ⟨names,rfl,-⟩
      apply hc
      cases names with
      | nil => rwa [List.append_nil]
      | cons x xs =>
        unfold Disk.contents
        rw [← List.append_assoc,Disk.node_append_eq_none hdir (List.cons_ne_nil x xs)]

/-- Nothing is deep enough to be left when the fuel is used up. -/
theorem sweeps_of_shallow {keep : List String → Prop} {start : List String} {w : VolumeWorld}
    (hshallow : Shallow cwd dir depth w.disk) (hstart : depth ≤ start.length)
    (hnone : w.disk.contents (dir.place cwd ++ start) = none) : Sweeps (Stale cwd dir keep start) w w := by
  refine Sweeps.refl.congr fun place hc => ⟨False.elim,?_⟩
  rintro ⟨names,rfl,-⟩
  apply hc
  cases names with
  | nil => rwa [List.append_nil]
  | cons x xs =>
    by_contra hsome
    obtain ⟨c,hc'⟩ := Option.ne_none_iff_exists'.mp hsome
    have hlen := hshallow (start ++ x :: xs) (by rw [Disk.contents_eq_some.mp hc']; rfl)
    simp only [List.length_append,List.length_cons] at hlen
    omega

/-- An entry that is not a directory has nothing below it. -/
theorem stale_congr_of_not_dir {keep : List String → Prop} {start : List String} {disk : Disk Bytes}
    (hdir : disk.node (dir.place cwd ++ start) ≠ some .dir) {place : List String} (hc : disk.contents place ≠ none) :
    Stale cwd dir keep start place ↔ place = dir.place cwd ++ start ∧ ¬keep start := by
  constructor
  · rintro ⟨names,rfl,hkeep⟩
    cases names with
    | nil =>
      rw [List.append_nil] at hkeep ⊢
      exact ⟨rfl,hkeep⟩
    | cons x xs =>
      refine absurd ?_ hc
      unfold Disk.contents
      rw [← List.append_assoc,Disk.node_append_eq_none hdir (List.cons_ne_nil x xs)]
  · rintro ⟨rfl,hkeep⟩
    exact ⟨[],by rw [List.append_nil],by rwa [List.append_nil]⟩

/-- What an entry says about its node while nodes are removed. -/
theorem Lists.node_later {disk disk' : Disk Bytes} {place : List String} {entries : List DirEntry}
    (h : Lists disk place entries) (ht : Thins disk disk') {e : DirEntry} (he : e ∈ entries) :
    (e.isDir = true → disk'.contents (place ++ [e.fileName.val]) = none) ∧
      (e.isDir = false → disk'.node (place ++ [e.fileName.val]) ≠ some .dir) ∧
      (disk'.contents (place ++ [e.fileName.val]) ≠ none → e.isFile = true) := by
  obtain ⟨node,hnode,hdescribes⟩ := h.sound e he
  have hlater := ht (place ++ [e.fileName.val])
  rw [hnode] at hlater
  unfold Disk.contents
  rcases hlater with hsame | hgone
  · rw [hsame]
    cases node with
    | file c =>
      obtain ⟨hdir,hfile,-⟩ := hdescribes
      simp [hdir,hfile]
    | dir =>
      obtain ⟨hdir,-,-⟩ := hdescribes
      simp [hdir]
    | other dangling => simp
  · simp [hgone]

/-- A round for an entry that is not a directory: it is removed, or a file that is there is to be kept. -/
theorem meets_sweepFile {keep : List String → Prop} {start : List String} {remove : Bool} {w : VolumeWorld} (volume : Path)
    (hdir : w.disk.node (dir.place cwd ++ start) ≠ some .dir) (hremove : remove = true → ¬keep start)
    (hkeep : w.disk.contents (dir.place cwd ++ start) ≠ none → remove = false → keep start) :
    (if remove then removeFile volume (dir.below start) else pure () : VolumeProgram Unit).Meets (smooth cwd dir depth)
      (fun _ w' => Sweeps (Stale cwd dir keep start) w w') w := by
  cases remove with
  | true =>
    rw [if_pos rfl]
    refine (meets_removeFile volume _ (by rwa [Path.place_below])).mono fun _ w' h => h.congr fun place hc => ?_
    rw [Path.place_below,stale_congr_of_not_dir hdir hc]
    exact (and_iff_left (hremove rfl)).symm
  | false =>
    refine Sweeps.refl.congr fun place hc => ?_
    rw [stale_congr_of_not_dir hdir hc,false_iff]
    rintro ⟨rfl,hno⟩
    exact hno (hkeep hc rfl)

/-- A cleanup sweeps what is not at an expected path, as paths are spelled from the directory. -/
theorem meets_removeStaleFilesRecursive (volume : Path) (expected : List Path) (fuel : ℕ) (start : List String)
    (w : VolumeWorld) (hfuel : depth ≤ start.length + fuel) (hshallow : Shallow cwd dir depth w.disk)
    (hnone : w.disk.contents (dir.place cwd ++ start) = none) :
    (removeStaleFilesRecursive volume expected fuel (dir.below start)).Meets (smooth cwd dir depth)
      (fun _ w' => Sweeps (Stale cwd dir (fun names => dir.below names ∈ expected) start) w w') w := by
  induction fuel generalizing start w with
  | zero => exact sweeps_of_shallow hshallow hfuel hnone
  | succ fuel ih =>
    unfold removeStaleFilesRecursive
    refine meets_sweepDir volume hnone fun entries hlists e he w' ht => ?_
    obtain ⟨hdir,hnotDir,hfile⟩ := hlists.node_later ht he
    rw [List.append_assoc] at hdir hnotDir hfile
    rw [entryPath_below]
    split
    · next hd =>
      rw [Program.meets_bind]
      refine (ih (start ++ [e.fileName.val]) w' ?_ (hshallow.of_thins ht) (hdir hd)).mono fun _ w₁ h₁ => ?_
      · rw [List.length_append,List.length_singleton]
        omega
      · unfold isEmptyDir
        rw [Program.meets_bind]
        refine meets_op ?_
        rintro isEmpty _ rfl -
        split
        · exact (meets_removeDir _ _ _).mono fun _ w₂ h₂ => (h₁.trans h₂).congr fun place _ => by rw [or_false]
        · exact h₁
    · next hd =>
      refine meets_sweepFile volume (hnotDir (by simpa using hd)) ?_ ?_
      · intro hstale
        rw [Bool.and_eq_true,decide_eq_true_eq] at hstale
        exact hstale.2
      · intro hc hfresh
        rw [hfile hc,Bool.true_and,decide_eq_false_iff_not,not_not] at hfresh
        exact hfresh

/-- A directory that is cleared is swept. -/
theorem meets_removeDirContentsRecursive (volume : Path) (fuel : ℕ) (start : List String) (w : VolumeWorld)
    (hfuel : depth ≤ start.length + fuel) (hshallow : Shallow cwd dir depth w.disk)
    (hnone : w.disk.contents (dir.place cwd ++ start) = none) :
    (removeDirContentsRecursive volume fuel (dir.below start)).Meets (smooth cwd dir depth)
      (fun _ w' => Sweeps (Stale cwd dir (fun _ => False) start) w w') w := by
  induction fuel generalizing start w with
  | zero => exact sweeps_of_shallow hshallow hfuel hnone
  | succ fuel ih =>
    unfold removeDirContentsRecursive
    refine meets_sweepDir volume hnone fun entries hlists e he w' ht => ?_
    obtain ⟨hdir,hnotDir,hfile⟩ := hlists.node_later ht he
    rw [List.append_assoc] at hdir hnotDir hfile
    rw [entryPath_below]
    split
    · next hd =>
      rw [Program.meets_bind]
      refine (ih (start ++ [e.fileName.val]) w' ?_ (hshallow.of_thins ht) (hdir hd)).mono fun _ w₁ h₁ => ?_
      · rw [List.length_append,List.length_singleton]
        omega
      · exact (meets_removeDir _ _ _).mono fun _ w₂ h₂ => (h₁.trans h₂).congr fun place _ => by rw [or_false]
    · next hd =>
      refine meets_sweepFile volume (hnotDir (by simpa using hd)) (fun _ => id) ?_
      intro hc hother
      cases (hfile hc).symm.trans hother

/-! ## Before the files are written -/

/-- The directory of the volume is there, and its files are what they were. -/
structure Prepared (cwd : List String) (dir : Path) (depth : ℕ) (w w' : VolumeWorld) : Prop where
  ready : Ready cwd dir depth w'.disk
  contents : w'.disk.contents = w.disk.contents
  tokens : w'.tokens = w.tokens

theorem Prepared.trans {w w' w'' : VolumeWorld} (h : Prepared cwd dir depth w w') (h' : Prepared cwd dir depth w' w'') :
    Prepared cwd dir depth w w'' :=
  ⟨h'.ready,h'.contents.trans h.contents,h'.tokens.trans h.tokens⟩

theorem meets_createVolumeDir (w : VolumeWorld) : (createDirAll dir dir).Meets (smooth cwd dir depth)
    (fun a w' => a = .ok () ∧ Prepared cwd dir depth w w') w := by
  unfold createDirAll
  refine meets_op ?_
  rintro a w' ⟨rfl,hgrows,hdir,ht⟩ hshallow
  exact ⟨rfl,⟨hshallow,hdir⟩,contents_of_grows hgrows,ht⟩

/-- A link whose target is gone is not a regular file. -/
theorem meets_removeDangling {w w₁ : VolumeWorld} {entries : List DirEntry} (hlists : Lists w.disk (dir.place cwd) entries)
    {e : DirEntry} (he : e ∈ entries) (h : Prepared cwd dir depth w w₁) (ht : Thins w.disk w₁.disk) :
    (if e.dangling then removeFile dir (entryPath dir e) else pure () : VolumeProgram Unit).Meets (smooth cwd dir depth)
      (fun _ w' => Prepared cwd dir depth w w' ∧ Thins w.disk w'.disk) w₁ := by
  split
  · next hdangling =>
    have hplace : (entryPath dir e).place cwd = dir.place cwd ++ [e.fileName.val] := by
      have hbelow : entryPath dir e = dir.below [e.fileName.val] := by
        simpa [Path.below_nil] using entryPath_below [] e
      rw [hbelow,Path.place_below]
    have hlink : w.disk.node (dir.place cwd ++ [e.fileName.val]) = some (.other true) := by
      obtain ⟨node,hnode,hdescribes⟩ := hlists.sound e he
      cases node with
      | file c => cases hdescribes.2.2.symm.trans hdangling
      | dir => cases hdescribes.2.2.symm.trans hdangling
      | other dangling => rw [hnode,← hdescribes.2.2,hdangling]
    have hnone : w₁.disk.contents (dir.place cwd ++ [e.fileName.val]) = none := by
      refine ht.contents_eq_none ?_
      unfold Disk.contents
      rw [hlink]
    unfold removeFile
    refine meets_op ?_
    rintro _ w' ⟨hremoved,htokens⟩ hshallow
    rw [hplace] at hremoved
    rcases hremoved with ⟨-,hnode⟩ | ⟨-,hsame⟩
    · have hdir : w'.disk.node (dir.place cwd) = some .dir := by
        rw [hnode,Function.update_of_ne (by simp),h.ready.isDir]
      have hcontents : w'.disk.contents = w₁.disk.contents := by
        rw [contents_of_remove hnode,Function.update_eq_self_iff,hnone]
      exact ⟨h.trans ⟨⟨hshallow,hdir⟩,hcontents,htokens⟩,ht.trans (thins_of_remove hnode)⟩
    · have hready : Ready cwd dir depth w'.disk := hsame ▸ h.ready
      have hcontents : w'.disk.contents = w₁.disk.contents := by rw [hsame]
      exact ⟨h.trans ⟨hready,hcontents,htokens⟩,hsame ▸ ht⟩
  · exact ⟨h,ht⟩

theorem meets_removeDanglingSymlinksInDir (w : VolumeWorld) (hw : Ready cwd dir depth w.disk) :
    (removeDanglingSymlinksInDir dir).Meets (smooth cwd dir depth) (fun _ => Prepared cwd dir depth w) w := by
  have hstart : Prepared cwd dir depth w w := ⟨hw,rfl,rfl⟩
  unfold removeDanglingSymlinksInDir readDir
  rw [Program.meets_bind]
  refine meets_op ?_
  rintro _ w' ⟨rfl,hanswer⟩ -
  rcases hanswer with ⟨entries,rfl,-,hlists⟩ | ⟨rfl,-⟩
  · have hround : ∀ e ∈ entries, ∀ w₁, Prepared cwd dir depth w' w₁ ∧ Thins w'.disk w₁.disk →
        (if e.dangling then removeFile dir (entryPath dir e) else pure () : VolumeProgram Unit).Meets (smooth cwd dir depth)
          (fun _ w₂ => Prepared cwd dir depth w' w₂ ∧ Thins w'.disk w₂.disk) w₁ :=
      fun e he w₁ h => meets_removeDangling hlists he h.1 h.2
    exact (Program.Meets.forEach hround ⟨hstart,fun _ => .inl rfl⟩).mono fun _ _ h => h.1
  · exact hstart

theorem meets_kubeClient (w : VolumeWorld) : kubeClient.Meets (smooth cwd dir depth) (fun a w' => a = true ∧ w' = w) w := by
  unfold kubeClient
  refine meets_op ?_
  rintro _ w' ⟨rfl,rfl⟩ -
  exact ⟨rfl,rfl⟩

/-- What is done with the client starts in a directory that is prepared. -/
theorem meets_prepared {α : Type} {rest : Bool → VolumeProgram α} {Q : α → VolumeWorld → Prop} {w : VolumeWorld}
    (h : ∀ w', Prepared cwd dir depth w w' → (rest true).Meets (smooth cwd dir depth) Q w') :
    (do
      let _ ← createDirAll dir dir
      removeDanglingSymlinksInDir dir
      let client ← kubeClient
      rest client : VolumeProgram α).Meets (smooth cwd dir depth) Q w := by
  rw [Program.meets_bind]
  refine (meets_createVolumeDir w).mono ?_
  rintro _ w₁ ⟨-,h₁⟩
  rw [Program.meets_bind]
  refine (meets_removeDanglingSymlinksInDir w₁ h₁.ready).mono ?_
  rintro _ w₂ h₂
  rw [Program.meets_bind]
  refine (meets_kubeClient w₂).mono ?_
  rintro _ w₃ ⟨rfl,rfl⟩
  exact h w₃ (h₁.trans h₂)

/-! ## The whole directory -/

theorem stale_iff {keep : List String → Prop} {names : List String} :
    Stale cwd dir keep [] (dir.place cwd ++ names) ↔ ¬keep names := by
  constructor
  · rintro ⟨names',hplace,hkeep⟩
    rw [List.nil_append] at hplace hkeep
    rwa [List.append_cancel_left hplace]
  · intro hkeep
    exact ⟨names,rfl,hkeep⟩

theorem Ready.contents_eq_none {disk : Disk Bytes} (h : Ready cwd dir depth disk) :
    disk.contents (dir.place cwd ++ []) = none := by
  unfold Disk.contents
  rw [List.append_nil,h.isDir]

theorem meets_cleanupStaleVolumeFiles (inputs : VolumeInputs) (expected : List Path) (w : VolumeWorld)
    (hw : Ready cwd dir inputs.depth w.disk) :
    (cleanupStaleVolumeFiles inputs dir expected).Meets (smooth cwd dir inputs.depth)
      (fun _ w' => Sweeps (Stale cwd dir (fun names => dir.below names ∈ expected) []) w w') w := by
  have h := meets_removeStaleFilesRecursive dir expected inputs.depth [] w (by simp) hw.shallow hw.contents_eq_none
  rwa [Path.below_nil] at h

theorem meets_clearVolumeDir (inputs : VolumeInputs) (w : VolumeWorld) (hw : Ready cwd dir inputs.depth w.disk) :
    (clearVolumeDir inputs dir).Meets (smooth cwd dir inputs.depth)
      (fun _ w' => Sweeps (Stale cwd dir (fun _ => False) []) w w') w := by
  have h := meets_removeDirContentsRecursive dir inputs.depth [] w (by simp) hw.shallow hw.contents_eq_none
  rwa [Path.below_nil] at h

end Sweeping
end KubeAir.Worker.Volumes
