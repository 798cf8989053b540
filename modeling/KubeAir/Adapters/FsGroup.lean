import KubeAir.Core.Pod

/-! # The group of a volume

Before containers start, the files of a volume are given to the group of the pod, one after another
down the tree. A link inside a volume is given to the group itself and never followed, so nothing
but the volume changes, however far the walk gets.
-/
namespace KubeAir.Adapters.FsGroup
open Core

inductive FsGroupPolicy
  | none
  | file
  | readWriteOnceWithFsType
deriving DecidableEq, Repr

structure FileMeta where
  gid : ℕ
  mode : UInt32
deriving DecidableEq, Repr

/-- The owners and modes of all inodes of a host. -/
abbrev Inodes := ℕ → FileMeta

mutual

/-- What a path leads to. The type of an entry may be unknown, and the target of a link is what the
link leads to in the end. -/
inductive FsTree
  | file (inode : ℕ)
  | dir (inode : ℕ) (readable : Bool) (entries : FsEntries)
  | link (inode : ℕ) (typeKnown : Bool) (target : FsTree)
  | danglingLink (inode : ℕ) (typeKnown : Bool)

/-- The entries of a directory that can be read. -/
inductive FsEntries
  | nil
  | cons (name : String) (tree : FsTree) (rest : FsEntries)

end

/-- The inode that the path itself names. -/
def FsTree.inode : FsTree → ℕ
  | .file inode => inode
  | .dir inode _ _ => inode
  | .link inode _ _ => inode
  | .danglingLink inode _ => inode

/-- `entry.file_type().map(|t| t.is_symlink()).unwrap_or(false)` -/
def FsTree.isSymlink : FsTree → Bool
  | .link _ typeKnown _ => typeKnown
  | .danglingLink _ typeKnown => typeKnown
  | _ => false

/-- Which inodes are directories, and what the host answers to a call: nothing, or why it refuses. -/
structure Host where
  isDir : ℕ → Bool
  lchown : ℕ → Option String
  stat : ℕ → Option String
  chmod : ℕ → Option String

/-- A call, with the path that it is made with. -/
inductive FsCall
  | chownGid (inode : ℕ) (path : String)
  | stat (inode : ℕ) (path : String)
  | statDangling (path : String)
  | setgid (inode : ℕ) (path : String)
deriving DecidableEq, Repr

def setgidBit : UInt32 := 0o2000

/-- A change of the owner takes the setuid bit from a file, and the setgid bit if its group may execute it. -/
def killPrivileges (mode : UInt32) : UInt32 :=
  let mode := mode &&& ~~~0o4000
  if mode &&& 0o10 ≠ 0 then mode &&& ~~~setgidBit else mode

section Walk
variable (host : Host) (gid : ℕ)

/-- The error of a call that is refused. -/
def refused : FsCall → Option String
  | .chownGid inode path => (host.lchown inode).map fun err => "lchown " ++ path ++ " to gid " ++ toString gid ++ ": " ++ err
  | .stat inode path => (host.stat inode).map fun err => "stat " ++ path ++ ": " ++ err
  | .statDangling path => some ("stat " ++ path ++ ": No such file or directory (os error 2)")
  | .setgid inode _ => (host.chmod inode).map fun err => "chmod setgid: " ++ err

/-- What a call that is granted changes. -/
def effect (inodes : Inodes) : FsCall → Inodes
  | .chownGid inode _ =>
    let mode := (inodes inode).mode
    Function.update inodes inode { gid := gid, mode := if host.isDir inode then mode else killPrivileges mode }
  | .setgid inode _ => Function.update inodes inode { inodes inode with mode := (inodes inode).mode ||| setgidBit }
  | .stat .. => inodes
  | .statDangling _ => inodes

def call (c : FsCall) (inodes : Inodes) : Except String Unit × Inodes :=
  match refused host gid c with
  | some err => (.error err,inodes)
  | none => (.ok (),effect host gid inodes c)

/-- The `?` between two steps. -/
def andThen (first next : Inodes → Except String Unit × Inodes) (inodes : Inodes) : Except String Unit × Inodes :=
  match first inodes with
  | (.ok (),inodes') => next inodes'
  | (.error err,inodes') => (.error err,inodes')

def done (inodes : Inodes) : Except String Unit × Inodes := (.ok (),inodes)

mutual

/-- `apply_fs_group_recursive` once the entry itself has its group. -/
def enter : FsTree → String → Inodes → Except String Unit × Inodes
  | .file inode, path => call host gid (.stat inode path)
  | .dir inode readable entries, path =>
    andThen (call host gid (.stat inode path))
      (andThen (call host gid (.setgid inode path)) (if readable then enterAll entries path else done))
  | .link _ _ target, path => enter target path
  | .danglingLink _ _, path => call host gid (.statDangling path)

/-- The loop over the entries of a directory. -/
def enterAll : FsEntries → String → Inodes → Except String Unit × Inodes
  | .nil, _ => done
  | .cons name tree rest, path =>
    let childPath := path ++ "/" ++ name
    andThen
      (if tree.isSymlink then call host gid (.chownGid tree.inode childPath)
      else andThen (call host gid (.chownGid tree.inode childPath)) (enter tree childPath))
      (enterAll rest path)

end

def applyFsGroupRecursive (tree : FsTree) (path : String) : Inodes → Except String Unit × Inodes :=
  andThen (call host gid (.chownGid tree.inode path)) (enter host gid tree path)

/-- `path.exists()` follows links. -/
def pathExists : FsTree → Bool
  | .danglingLink _ _ => false
  | .link _ _ target => pathExists target
  | _ => true

/-- `apply_fs_group`; there may be nothing at the path. -/
def applyFsGroup (root : Option FsTree) (path : String) (policy : FsGroupPolicy) : Inodes → Except String Unit × Inodes :=
  if policy = .none then done
  else
    match root with
    | some tree => if pathExists tree then applyFsGroupRecursive host gid tree path else done
    | none => done

/-- The policy for the `fs_group_change_policy` of a pod. -/
def policyFor : Option String → FsGroupPolicy
  | some "OnRootMismatch" => .readWriteOnceWithFsType
  | some "Always" => .file
  | none => .file
  | _ => .file

/-- The loop over the volumes of a pod: an error is logged, and the next volume is taken. -/
def applyAll (policy : FsGroupPolicy) (volumes : List (Option FsTree × String)) (inodes : Inodes) : Inodes :=
  volumes.foldl (fun inodes v => (applyFsGroup host gid v.1 v.2 policy inodes).2) inodes

/-- What starting a pod does to its volumes once they are mounted. -/
def applyToPod (host : Host) (fsGroup : Option ℕ) (changePolicy : Option String) (volumes : List (Option FsTree × String))
    (inodes : Inodes) : Inodes :=
  match fsGroup with
  | some gid => applyAll host gid (policyFor changePolicy) volumes inodes
  | none => inodes

end Walk

/-! ## The calls of a walk -/

mutual

/-- The calls that a walk makes if none is refused. -/
def calls : FsTree → String → List FsCall
  | .file inode, path => [.stat inode path]
  | .dir inode readable entries, path => .stat inode path :: .setgid inode path :: (if readable then callsAll entries path else [])
  | .link _ _ target, path => calls target path
  | .danglingLink _ _, path => [.statDangling path]

def callsAll : FsEntries → String → List FsCall
  | .nil, _ => []
  | .cons name tree rest, path =>
    let childPath := path ++ "/" ++ name
    (.chownGid tree.inode childPath :: (if tree.isSymlink then [] else calls tree childPath)) ++ callsAll rest path

end

/-- Calls one after another up to the first that is refused. -/
def callAll (host : Host) (gid : ℕ) : List FsCall → Inodes → Except String Unit × Inodes
  | [] => done
  | c :: cs => andThen (call host gid c) (callAll host gid cs)

section Calls
variable {host : Host} {gid : ℕ}

theorem andThen_assoc (f g h : Inodes → Except String Unit × Inodes) : andThen (andThen f g) h = andThen f (andThen g h) := by
  funext inodes
  simp only [andThen]
  rcases f inodes with ⟨_ | _,_⟩ <;> rfl

@[simp] theorem andThen_done (f : Inodes → Except String Unit × Inodes) : andThen f done = f := by
  funext inodes
  simp only [andThen,done]
  rcases f inodes with ⟨_ | _,_⟩ <;> rfl

theorem callAll_append (cs ds : List FsCall) : callAll host gid (cs ++ ds) = andThen (callAll host gid cs) (callAll host gid ds) := by
  induction cs with
  | nil => rfl
  | cons c cs ih => rw [List.cons_append,callAll,callAll,ih,andThen_assoc]

mutual

theorem enter_eq (tree : FsTree) (path : String) : enter host gid tree path = callAll host gid (calls tree path) := by
  cases tree with
  | file inode => simp [enter,calls,callAll]
  | dir inode readable entries =>
    simp only [enter,calls,callAll]
    cases readable with
    | true => rw [if_pos rfl,if_pos rfl,enterAll_eq entries path]
    | false => rfl
  | link inode typeKnown target =>
    simp only [enter,calls]
    exact enter_eq target path
  | danglingLink inode typeKnown => simp [enter,calls,callAll]

theorem enterAll_eq (entries : FsEntries) (path : String) : enterAll host gid entries path = callAll host gid (callsAll entries path) := by
  cases entries with
  | nil => rfl
  | cons name tree rest =>
    simp only [enterAll,callsAll,callAll_append,enterAll_eq rest path]
    split
    · simp [callAll]
    · rw [enter_eq tree (path ++ "/" ++ name),callAll]

end

theorem applyFsGroupRecursive_eq (tree : FsTree) (path : String) :
    applyFsGroupRecursive host gid tree path = callAll host gid (.chownGid tree.inode path :: calls tree path) := by
  rw [applyFsGroupRecursive,enter_eq,callAll]

end Calls

/-! ## What a walk changes -/

mutual

/-- The inodes of a volume: what is there without following a link. -/
def inside : FsTree → List ℕ
  | .dir inode _ entries => inode :: insideAll entries
  | tree => [tree.inode]

def insideAll : FsEntries → List ℕ
  | .nil => []
  | .cons _ tree rest => inside tree ++ insideAll rest

end

mutual

def directories : FsTree → List ℕ
  | .dir inode _ entries => inode :: directoriesAll entries
  | _ => []

def directoriesAll : FsEntries → List ℕ
  | .nil => []
  | .cons _ tree rest => directories tree ++ directoriesAll rest

end

mutual

/-- Whether the walk goes through a link: one that the path names, or an entry whose type is unknown. -/
def follows : FsTree → Bool
  | .dir _ _ entries => followsAll entries
  | .link .. => true
  | _ => false

def followsAll : FsEntries → Bool
  | .nil => false
  | .cons _ tree rest => (!tree.isSymlink && follows tree) || followsAll rest

end

mutual

/-- Whether every directory can be read. -/
def allReadable : FsTree → Bool
  | .dir _ readable entries => readable && allReadableAll entries
  | _ => true

def allReadableAll : FsEntries → Bool
  | .nil => true
  | .cons _ tree rest => allReadable tree && allReadableAll rest

end

/-- The inode that a call changes. -/
def changed : FsCall → Option ℕ
  | .chownGid inode _ => some inode
  | .setgid inode _ => some inode
  | _ => none

/-- The setgid bit is set, and stays so. -/
def HasSetgid (m : FileMeta) : Prop := m.mode ||| setgidBit = m.mode

/-- What calls may do to an inode: its group can only become this one, and the mode of a directory
can only gain the setgid bit. -/
structure Widened (host : Host) (gid i : ℕ) (before after : FileMeta) : Prop where
  gid : after.gid = before.gid ∨ after.gid = gid
  mode : host.isDir i = true → after.mode = before.mode ∨ after.mode = before.mode ||| setgidBit

section Effects
variable {host : Host} {gid : ℕ} {inodes : Inodes} {i : ℕ} {cs : List FsCall} {c : FsCall}

theorem effect_of_ne (h : changed c ≠ some i) : effect host gid inodes c i = inodes i := by
  cases c with
  | chownGid inode path => exact Function.update_of_ne (fun heq => h (congrArg some heq.symm)) _ _
  | setgid inode path => exact Function.update_of_ne (fun heq => h (congrArg some heq.symm)) _ _
  | _ => rfl

theorem Widened.refl (host : Host) (gid i : ℕ) (m : FileMeta) : Widened host gid i m m := ⟨.inl rfl,fun _ => .inl rfl⟩

theorem Widened.trans {a b c : FileMeta} (h : Widened host gid i a b) (h' : Widened host gid i b c) : Widened host gid i a c := by
  constructor
  · rcases h'.gid with heq | heq
    · rw [heq]
      exact h.gid
    · exact .inr heq
  · intro hdir
    rcases h'.mode hdir with heq | heq <;> rcases h.mode hdir with heq' | heq' <;> simp [heq,heq',UInt32.or_assoc]

theorem Widened.keeps_gid {a b : FileMeta} (h : Widened host gid i a b) (ha : a.gid = gid) : b.gid = gid := by
  rcases h.gid with heq | heq
  · rw [heq,ha]
  · exact heq

theorem Widened.keeps_setgid {a b : FileMeta} (h : Widened host gid i a b) (hdir : host.isDir i = true) (ha : HasSetgid a) :
    HasSetgid b := by
  simp only [HasSetgid] at ha ⊢
  rcases h.mode hdir with heq | heq <;> simp [heq,ha]

theorem widened_effect (inodes : Inodes) (c : FsCall) (i : ℕ) : Widened host gid i (inodes i) (effect host gid inodes c i) := by
  by_cases hi : changed c = some i
  · cases c with
    | chownGid inode path =>
      obtain rfl := Option.some.inj hi
      exact ⟨.inr (by simp [effect]),fun hdir => .inl (by simp [effect,hdir])⟩
    | setgid inode path =>
      obtain rfl := Option.some.inj hi
      exact ⟨.inl (by simp [effect]),fun _ => .inr (by simp [effect])⟩
    | _ => cases hi
  · rw [effect_of_ne hi]
    exact .refl host gid i _

variable (host gid) in
theorem call_snd (c : FsCall) (inodes : Inodes) :
    (call host gid c inodes).2 = inodes ∨ (call host gid c inodes).2 = effect host gid inodes c := by
  simp only [call]
  split
  · exact .inl rfl
  · exact .inr rfl

variable (host gid) in
theorem callAll_cons_snd (c : FsCall) (cs : List FsCall) (inodes : Inodes) :
    (callAll host gid (c :: cs) inodes).2 = (call host gid c inodes).2 ∨
      (callAll host gid (c :: cs) inodes).2 = (callAll host gid cs (call host gid c inodes).2).2 := by
  simp only [callAll,andThen]
  rcases call host gid c inodes with ⟨_ | _,_⟩
  · exact .inl rfl
  · exact .inr rfl

variable (host gid) in
/-- Wherever the walk stops, it has only widened inodes. -/
theorem widened_callAll (cs : List FsCall) (inodes : Inodes) (i : ℕ) :
    Widened host gid i (inodes i) ((callAll host gid cs inodes).2 i) := by
  induction cs generalizing inodes with
  | nil => exact .refl host gid i _
  | cons c cs ih =>
    have hcall : Widened host gid i (inodes i) ((call host gid c inodes).2 i) := by
      rcases call_snd host gid c inodes with heq | heq <;> rw [heq]
      · exact .refl host gid i _
      · exact widened_effect inodes c i
    rcases callAll_cons_snd host gid c cs inodes with heq | heq <;> rw [heq]
    · exact hcall
    · exact hcall.trans (ih _)

/-- Wherever the walk stops, it has changed nothing but what its calls are for. -/
theorem callAll_of_ne (h : ∀ c ∈ cs, changed c ≠ some i) (inodes : Inodes) : (callAll host gid cs inodes).2 i = inodes i := by
  induction cs generalizing inodes with
  | nil => rfl
  | cons c cs ih =>
    have hcall : (call host gid c inodes).2 i = inodes i := by
      rcases call_snd host gid c inodes with heq | heq <;> rw [heq]
      exact effect_of_ne (h c List.mem_cons_self)
    rcases callAll_cons_snd host gid c cs inodes with heq | heq <;> rw [heq]
    · exact hcall
    · rw [ih (fun d hd => h d (List.mem_cons_of_mem c hd)),hcall]

theorem callAll_cons_granted (h : refused host gid c = none) (inodes : Inodes) :
    callAll host gid (c :: cs) inodes = callAll host gid cs (effect host gid inodes c) := by
  simp only [callAll,andThen,call,h]

/-- A walk without a refusal has made all its calls. -/
theorem granted (h : ∀ c ∈ cs, refused host gid c = none) (inodes : Inodes) : (callAll host gid cs inodes).1 = .ok () ∧
    (∀ path, .chownGid i path ∈ cs → ((callAll host gid cs inodes).2 i).gid = gid) ∧
    ∀ path, .setgid i path ∈ cs → host.isDir i = true → HasSetgid ((callAll host gid cs inodes).2 i) := by
  induction cs generalizing inodes with
  | nil => exact ⟨rfl,fun path hmem => absurd hmem List.not_mem_nil,fun path hmem _ => absurd hmem List.not_mem_nil⟩
  | cons c cs ih =>
    obtain ⟨hok,hgid,hsetgid⟩ := ih (fun d hd => h d (List.mem_cons_of_mem c hd)) (effect host gid inodes c)
    rw [callAll_cons_granted (h c List.mem_cons_self)]
    refine ⟨hok,fun path hmem => ?_,fun path hmem hdir => ?_⟩
    · rcases List.mem_cons.mp hmem with rfl | hmem
      · exact (widened_callAll host gid cs _ i).keeps_gid (by simp [effect])
      · exact hgid path hmem
    · rcases List.mem_cons.mp hmem with rfl | hmem
      · exact (widened_callAll host gid cs _ i).keeps_setgid hdir (by simp [HasSetgid,effect,UInt32.or_assoc])
      · exact hsetgid path hmem hdir

end Effects

section Trees
variable {c : FsCall} {i inode : ℕ} {readable : Bool} {tree : FsTree} {entries rest : FsEntries} {name path : String}

theorem mem_calls_dir : c ∈ calls (.dir inode readable entries) path ↔
    c = .stat inode path ∨ c = .setgid inode path ∨ readable = true ∧ c ∈ callsAll entries path := by
  cases readable <;> simp [calls]

theorem mem_callsAll_cons : c ∈ callsAll (.cons name tree rest) path ↔
    c = .chownGid tree.inode (path ++ "/" ++ name) ∨ tree.isSymlink = false ∧ c ∈ calls tree (path ++ "/" ++ name) ∨
      c ∈ callsAll rest path := by
  cases hlink : tree.isSymlink <;> simp [callsAll,hlink]

theorem mem_inside_dir : i ∈ inside (.dir inode readable entries) ↔ i = inode ∨ i ∈ insideAll entries := by
  simp [inside]

theorem mem_insideAll_cons : i ∈ insideAll (.cons name tree rest) ↔ i ∈ inside tree ∨ i ∈ insideAll rest := by
  simp [insideAll]

theorem mem_directories_dir : i ∈ directories (.dir inode readable entries) ↔ i = inode ∨ i ∈ directoriesAll entries := by
  simp [directories]

theorem mem_directoriesAll_cons : i ∈ directoriesAll (.cons name tree rest) ↔ i ∈ directories tree ∨ i ∈ directoriesAll rest := by
  simp [directoriesAll]

theorem inode_mem_inside (tree : FsTree) : tree.inode ∈ inside tree := by
  cases tree <;> simp [inside,FsTree.inode]

theorem followsAll_cons : followsAll (.cons name tree rest) = false ↔
    (tree.isSymlink = true ∨ follows tree = false) ∧ followsAll rest = false := by
  cases hlink : tree.isSymlink <;> simp [followsAll,hlink]

theorem allReadable_dir : allReadable (.dir inode readable entries) = true ↔ readable = true ∧ allReadableAll entries = true := by
  simp [allReadable]

theorem allReadableAll_cons : allReadableAll (.cons name tree rest) = true ↔
    allReadable tree = true ∧ allReadableAll rest = true := by
  simp [allReadableAll]

/-- Inside a link there is nothing but the link. -/
theorem inside_of_isSymlink (h : tree.isSymlink = true) : inside tree = [tree.inode] ∧ directories tree = [] := by
  cases tree with
  | link inode typeKnown target => exact ⟨rfl,rfl⟩
  | danglingLink inode typeKnown => exact ⟨rfl,rfl⟩
  | _ => cases h

mutual

/-- A walk that follows no link stays inside. -/
theorem inside_of_calls (tree : FsTree) (path : String) (hfollows : follows tree = false) (hc : c ∈ calls tree path)
    (hi : changed c = some i) : i ∈ inside tree := by
  cases tree with
  | file inode =>
    obtain rfl := List.mem_singleton.mp hc
    cases hi
  | dir inode readable entries =>
    rcases mem_calls_dir.mp hc with rfl | rfl | ⟨-,hc⟩
    · cases hi
    · exact mem_inside_dir.mpr (.inl (Option.some.inj hi).symm)
    · exact mem_inside_dir.mpr (.inr (insideAll_of_calls entries path hfollows hc hi))
  | link inode typeKnown target => cases hfollows
  | danglingLink inode typeKnown =>
    obtain rfl := List.mem_singleton.mp hc
    cases hi

theorem insideAll_of_calls (entries : FsEntries) (path : String) (hfollows : followsAll entries = false)
    (hc : c ∈ callsAll entries path) (hi : changed c = some i) : i ∈ insideAll entries := by
  cases entries with
  | nil => cases hc
  | cons name tree rest =>
    obtain ⟨htree,hrest⟩ := followsAll_cons.mp hfollows
    rcases mem_callsAll_cons.mp hc with rfl | ⟨hlink,hc⟩ | hc
    · obtain rfl := Option.some.inj hi
      exact mem_insideAll_cons.mpr (.inl (inode_mem_inside tree))
    · have hwalked : follows tree = false := htree.resolve_left (Bool.eq_false_iff.mp hlink)
      exact mem_insideAll_cons.mpr (.inl (inside_of_calls tree (path ++ "/" ++ name) hwalked hc hi))
    · exact mem_insideAll_cons.mpr (.inr (insideAll_of_calls rest path hrest hc hi))

end

mutual

/-- A walk that can read every directory comes to all that is inside. -/
theorem calls_of_inside (tree : FsTree) (path : String) (hreadable : allReadable tree = true) :
    (∀ i ∈ inside tree, i = tree.inode ∨ ∃ p, .chownGid i p ∈ calls tree path) ∧
      ∀ i ∈ directories tree, ∃ p, .setgid i p ∈ calls tree path := by
  cases tree with
  | dir inode readable entries =>
    obtain ⟨hread,hentries⟩ := allReadable_dir.mp hreadable
    obtain ⟨hinside,hdirectories⟩ := callsAll_of_inside entries path hentries
    constructor
    · intro i hi
      rcases mem_inside_dir.mp hi with heq | hi
      · exact .inl heq
      · obtain ⟨p,hp⟩ := hinside i hi
        exact .inr ⟨p,mem_calls_dir.mpr (.inr (.inr ⟨hread,hp⟩))⟩
    · intro i hi
      rcases mem_directories_dir.mp hi with rfl | hi
      · exact ⟨path,mem_calls_dir.mpr (.inr (.inl rfl))⟩
      · obtain ⟨p,hp⟩ := hdirectories i hi
        exact ⟨p,mem_calls_dir.mpr (.inr (.inr ⟨hread,hp⟩))⟩
  | file inode => exact ⟨fun i hi => .inl (List.mem_singleton.mp hi),fun i hi => absurd hi List.not_mem_nil⟩
  | link inode typeKnown target => exact ⟨fun i hi => .inl (List.mem_singleton.mp hi),fun i hi => absurd hi List.not_mem_nil⟩
  | danglingLink inode typeKnown => exact ⟨fun i hi => .inl (List.mem_singleton.mp hi),fun i hi => absurd hi List.not_mem_nil⟩

theorem callsAll_of_inside (entries : FsEntries) (path : String) (hreadable : allReadableAll entries = true) :
    (∀ i ∈ insideAll entries, ∃ p, .chownGid i p ∈ callsAll entries path) ∧
      ∀ i ∈ directoriesAll entries, ∃ p, .setgid i p ∈ callsAll entries path := by
  cases entries with
  | nil => exact ⟨fun i hi => absurd hi List.not_mem_nil,fun i hi => absurd hi List.not_mem_nil⟩
  | cons name tree rest =>
    obtain ⟨htree,hrest⟩ := allReadableAll_cons.mp hreadable
    obtain ⟨hinside,hdirectories⟩ := calls_of_inside tree (path ++ "/" ++ name) htree
    obtain ⟨hinsideRest,hdirectoriesRest⟩ := callsAll_of_inside rest path hrest
    constructor
    · intro i hi
      rcases mem_insideAll_cons.mp hi with hi | hi
      · cases hlink : tree.isSymlink with
        | true =>
          rw [(inside_of_isSymlink hlink).1] at hi
          obtain rfl := List.mem_singleton.mp hi
          exact ⟨path ++ "/" ++ name,mem_callsAll_cons.mpr (.inl rfl)⟩
        | false =>
          rcases hinside i hi with rfl | ⟨p,hp⟩
          · exact ⟨path ++ "/" ++ name,mem_callsAll_cons.mpr (.inl rfl)⟩
          · exact ⟨p,mem_callsAll_cons.mpr (.inr (.inl ⟨hlink,hp⟩))⟩
      · obtain ⟨p,hp⟩ := hinsideRest i hi
        exact ⟨p,mem_callsAll_cons.mpr (.inr (.inr hp))⟩
    · intro i hi
      rcases mem_directoriesAll_cons.mp hi with hi | hi
      · cases hlink : tree.isSymlink with
        | true =>
          rw [(inside_of_isSymlink hlink).2] at hi
          cases hi
        | false =>
          obtain ⟨p,hp⟩ := hdirectories i hi
          exact ⟨p,mem_callsAll_cons.mpr (.inr (.inl ⟨hlink,hp⟩))⟩
      · obtain ⟨p,hp⟩ := hdirectoriesRest i hi
        exact ⟨p,mem_callsAll_cons.mpr (.inr (.inr hp))⟩

end

end Trees

/-! ## The volumes of a pod -/

/-- The calls for a volume. -/
def volumeCalls (policy : FsGroupPolicy) (v : Option FsTree × String) : List FsCall :=
  if policy = .none then []
  else
    match v.1 with
    | some tree => if pathExists tree then .chownGid tree.inode v.2 :: calls tree v.2 else []
    | none => []

section Volumes
variable {host : Host} {gid : ℕ} {policy : FsGroupPolicy} {volumes : List (Option FsTree × String)} {v : Option FsTree × String}
  {tree : FsTree} {c : FsCall} {i : ℕ}

theorem applyFsGroup_eq (v : Option FsTree × String) :
    applyFsGroup host gid v.1 v.2 policy = callAll host gid (volumeCalls policy v) := by
  simp only [applyFsGroup,volumeCalls]
  split
  · rfl
  · split
    · split
      · exact applyFsGroupRecursive_eq _ _
      · rfl
    · rfl

theorem inside_of_volumeCalls (hfollows : ∀ tree ∈ v.1, follows tree = false) (hc : c ∈ volumeCalls policy v)
    (hi : changed c = some i) : ∃ tree ∈ v.1, i ∈ inside tree := by
  simp only [volumeCalls] at hc
  split at hc
  · cases hc
  · split at hc
    · next tree htree =>
      split at hc
      · refine ⟨tree,htree,?_⟩
        rcases List.mem_cons.mp hc with rfl | hc
        · obtain rfl := Option.some.inj hi
          exact inode_mem_inside tree
        · exact inside_of_calls tree v.2 (hfollows tree htree) hc hi
      · cases hc
    · cases hc

variable (host gid policy) in
theorem widened_applyAll (volumes : List (Option FsTree × String)) (inodes : Inodes) (i : ℕ) :
    Widened host gid i (inodes i) (applyAll host gid policy volumes inodes i) := by
  induction volumes generalizing inodes with
  | nil => exact .refl host gid i _
  | cons v volumes ih =>
    have hfirst := widened_callAll host gid (volumeCalls policy v) inodes i
    rw [← applyFsGroup_eq v] at hfirst
    exact hfirst.trans (ih _)

theorem applyAll_of_outside (hfollows : ∀ v ∈ volumes, ∀ tree ∈ v.1, follows tree = false)
    (houtside : ∀ v ∈ volumes, ∀ tree ∈ v.1, i ∉ inside tree) (inodes : Inodes) :
    applyAll host gid policy volumes inodes i = inodes i := by
  induction volumes generalizing inodes with
  | nil => rfl
  | cons v volumes ih =>
    have hfirst : (applyFsGroup host gid v.1 v.2 policy inodes).2 i = inodes i := by
      rw [applyFsGroup_eq]
      refine callAll_of_ne (fun c hc hi => ?_) inodes
      obtain ⟨tree,htree,hin⟩ := inside_of_volumeCalls (hfollows v List.mem_cons_self) hc hi
      exact houtside v List.mem_cons_self tree htree hin
    rw [← hfirst]
    exact ih (fun u hu => hfollows u (List.mem_cons_of_mem v hu)) (fun u hu => houtside u (List.mem_cons_of_mem v hu)) _

/-- A volume that is walked without a refusal has its group afterwards. -/
theorem grouped_applyFsGroup (hpolicy : policy ≠ .none) (hfollows : follows tree = false) (hreadable : allReadable tree = true)
    {path : String} (hgranted : ∀ c ∈ FsCall.chownGid tree.inode path :: calls tree path, refused host gid c = none)
    (hi : i ∈ inside tree) (inodes : Inodes) :
    ((applyFsGroup host gid (some tree) path policy inodes).2 i).gid = gid ∧
      (i ∈ directories tree → host.isDir i = true → HasSetgid ((applyFsGroup host gid (some tree) path policy inodes).2 i)) := by
  have hexists : pathExists tree = true := by
    cases tree with
    | danglingLink inode typeKnown =>
      have hrefused := hgranted (.statDangling path) (List.mem_cons_of_mem _ List.mem_cons_self)
      cases hrefused
    | link inode typeKnown target => cases hfollows
    | _ => rfl
  have hcalls : volumeCalls policy (some tree,path) = .chownGid tree.inode path :: calls tree path := by
    simp [volumeCalls,hpolicy,hexists]
  obtain ⟨-,hgid,hsetgid⟩ := granted (i := i) hgranted inodes
  obtain ⟨hinside,hdirectories⟩ := calls_of_inside tree path hreadable
  rw [applyFsGroup_eq (some tree,path),hcalls]
  constructor
  · rcases hinside i hi with rfl | ⟨p,hp⟩
    · exact hgid path List.mem_cons_self
    · exact hgid p (List.mem_cons_of_mem _ hp)
  · intro hmem hdir
    obtain ⟨p,hp⟩ := hdirectories i hmem
    exact hsetgid p (List.mem_cons_of_mem _ hp) hdir

/-- The policy that does nothing is for no pod. -/
theorem policyFor_ne_none (changePolicy : Option String) : policyFor changePolicy ≠ .none := by
  simp only [policyFor]
  split <;> simp

end Volumes

/-- Giving the volumes of a pod to its group changes nothing outside them, whatever the links inside lead
to and whichever calls are refused, as long as no type is; inside, groups only become that of the pod and
directories only gain the setgid bit. A volume that is walked without a refusal belongs to the group
throughout, and its directories hand the group on. -/
theorem fsGroup_confined (host : Host) (gid : ℕ) (changePolicy : Option String) {volumes : List (Option FsTree × String)}
    (hfollows : ∀ v ∈ volumes, ∀ tree ∈ v.1, follows tree = false) (inodes : Inodes) (i : ℕ) :
    ((∀ v ∈ volumes, ∀ tree ∈ v.1, i ∉ inside tree) → applyToPod host (some gid) changePolicy volumes inodes i = inodes i) ∧
      Widened host gid i (inodes i) (applyToPod host (some gid) changePolicy volumes inodes i) ∧
      ∀ tree path, (some tree,path) ∈ volumes → allReadable tree = true →
        (∀ c ∈ FsCall.chownGid tree.inode path :: calls tree path, refused host gid c = none) → i ∈ inside tree →
        (applyToPod host (some gid) changePolicy volumes inodes i).gid = gid ∧
          (i ∈ directories tree → host.isDir i = true →
            HasSetgid (applyToPod host (some gid) changePolicy volumes inodes i)) := by
  simp only [applyToPod]
  refine ⟨fun houtside => applyAll_of_outside hfollows houtside inodes,widened_applyAll host gid _ volumes inodes i,?_⟩
  intro tree path hmem hreadable hgranted hi
  obtain ⟨before,after,rfl⟩ := List.append_of_mem hmem
  have hfollow := hfollows _ hmem tree rfl
  have hpolicy := policyFor_ne_none changePolicy
  generalize policyFor changePolicy = policy at hpolicy
  have hsplit : applyAll host gid policy (before ++ (some tree,path) :: after) inodes =
      applyAll host gid policy after (applyFsGroup host gid (some tree) path policy (applyAll host gid policy before inodes)).2 := by
    simp [applyAll]
  obtain ⟨hgid,hsetgid⟩ := grouped_applyFsGroup hpolicy hfollow hreadable hgranted hi (applyAll host gid policy before inodes)
  have hafter := widened_applyAll host gid policy after
    (applyFsGroup host gid (some tree) path policy (applyAll host gid policy before inodes)).2 i
  rw [hsplit]
  exact ⟨hafter.keeps_gid hgid,fun hmem hdir => hafter.keeps_setgid hdir (hsetgid hmem hdir)⟩

/-- A directory with a file and with a link to a directory of the host. -/
def volume : FsTree :=
  .dir 1 true (.cons "data" (.file 2) (.cons "host" (.link 3 true (.dir 10 true (.cons "passwd" (.file 11) .nil))) .nil))

def everythingGranted : Host := ⟨fun i => i = 1 ∨ i = 10,fun _ => none,fun _ => none,fun _ => none⟩

theorem fsGroup_confined_volume :
    applyToPod everythingGranted (some 2000) none [(some volume,"/volume")] (fun _ => ⟨0,0o755⟩) 11 = ⟨0,0o755⟩ ∧
      (applyToPod everythingGranted (some 2000) none [(some volume,"/volume")] (fun _ => ⟨0,0o755⟩) 2).gid = 2000 := by
  have hfollows : ∀ v ∈ [(some volume,"/volume")], ∀ tree ∈ v.1, follows tree = false := by simp [volume,follows,followsAll,FsTree.isSymlink]
  constructor
  · exact (fsGroup_confined everythingGranted 2000 none hfollows _ 11).1 (by simp [volume,inside,insideAll,FsTree.inode])
  · have hgranted : ∀ c ∈ FsCall.chownGid volume.inode "/volume" :: calls volume "/volume", refused everythingGranted 2000 c = none := by
      simp [volume,calls,callsAll,FsTree.isSymlink,FsTree.inode,refused,everythingGranted]
    exact ((fsGroup_confined everythingGranted 2000 none hfollows _ 2).2.2 volume "/volume" List.mem_cons_self rfl hgranted
      (by simp [volume,inside,insideAll,FsTree.inode])).1

end KubeAir.Adapters.FsGroup
