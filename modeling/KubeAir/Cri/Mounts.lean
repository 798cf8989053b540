import KubeAir.Core.Pod
import KubeAir.Paths.MakeDirs
import Mathlib.Data.List.DropRight

/-! # Mounts and mountpoints

The mounts of a container as the runtime gets them, and the directories that are made for those
that are mounted below others.
-/
namespace KubeAir.Cri
open Core Paths

structure Mount where
  containerPath : String
  hostPath : String
  readonly : Bool
  deriving DecidableEq

def mountOf (m : VolumeMount) : Mount where
  containerPath := m.mountPath
  hostPath := m.subPath.getD ""
  readonly := m.readOnly

def trimEndSlashes (s : String) : List Char := s.toList.rdropWhile (· = '/')

/-- The rest of the container path of a mount that is below another one. -/
def nestedIn (parent child : Mount) : Option String :=
  let start := trimEndSlashes parent.containerPath ++ ['/']
  if start <+: trimEndSlashes child.containerPath then
    some (String.ofList ((trimEndSlashes child.containerPath).drop start.length))
  else none

/-- The mountpoint below the host path of the enclosing mount. -/
def mountpoint (parent : Mount) (relative : String) : Paths.Path := (Paths.Path.parse parent.hostPath).join (.parse relative)

/-- How many names the container path has. -/
def depth (m : Mount) : ℕ := ((m.containerPath.toList.splitOn '/').filter (· ≠ [])).length

variable {C : Type} (cwd : List String)

/-- The body of the loop over the pairs of mounts. -/
def prepareMountpoint (d : Disk C) (pair : Mount × Mount) : Disk C :=
  match nestedIn pair.1 pair.2 with
  | none => d
  | some relative =>
    let subdir := mountpoint pair.1 relative
    if d.pathExists (subdir.start cwd) subdir.parts then d else d.createDirAll (subdir.start cwd) subdir.parts

/-- The pairs of two different entries, in the order of the loop. -/
def mountPairs (mounts : List Mount) : List (Mount × Mount) :=
  mounts.zipIdx.flatMap fun a => (mounts.zipIdx.filter (fun b => b.2 ≠ a.2)).map fun b => (a.1,b.1)

/-- `spec_to_cri_mounts`: the mounts in the order in which they are passed on, and the disk after it. -/
def specToCriMounts (spec : ContainerSpec) (d : Disk C) : List Mount × Disk C :=
  let mounts := spec.volumeMounts.map mountOf
  (mounts.mergeSort (fun a b => depth b ≤ depth a),(mountPairs mounts).foldl (prepareMountpoint cwd) d)

/-- Where the host path of a mount leads. -/
def hostPlace (m : Mount) : List String := (Paths.Path.parse m.hostPath).place cwd

/-- Both are directories, or both are files. -/
def SameKind (a b : Option (DiskNode C)) : Prop :=
  (a = some .dir ∧ b = some .dir) ∨ ∃ c c', a = some (.file c) ∧ b = some (.file c')

/-- What a turn of the loop may do to the disk: it makes directories below the host path of the
enclosing mount only, and the mountpoint, if it makes it, is what the source of the mount is. -/
structure TurnLawful (source : Option (DiskNode C)) (parent child : Mount) (before after : Disk C) : Prop where
  inside : ∀ p, before.node p = none → after.node p ≠ none → hostPlace cwd parent <+: p
  sameKind : ∀ relative, nestedIn parent child = some relative →
    before.node ((mountpoint parent relative).place cwd) = none →
      after.node ((mountpoint parent relative).place cwd) ≠ none →
        SameKind (after.node ((mountpoint parent relative).place cwd)) source

/-- The mounts are passed on with the deepest first, and every turn of the loop is lawful. -/
structure Prepared (spec : ContainerSpec) (d : Disk C) : Prop where
  perm : (specToCriMounts cwd spec d).1.Perm (spec.volumeMounts.map mountOf)
  sorted : (specToCriMounts cwd spec d).1.Pairwise fun a b => depth b ≤ depth a
  turns : ∀ earlier parent child later, mountPairs (spec.volumeMounts.map mountOf) = earlier ++ (parent,child) :: later →
    let before := earlier.foldl (prepareMountpoint cwd) d
    TurnLawful cwd (d.node (hostPlace cwd child)) parent child before (prepareMountpoint cwd before (parent,child))

/-- On the way to a nested mountpoint only directories below the enclosing mount are missing, and the
mountpoint itself only for a directory. -/
def Clean (source : Option (DiskNode C)) (parent child : Mount) (before : Disk C) : Prop :=
  ∀ relative, nestedIn parent child = some relative →
    let subdir := mountpoint parent relative
    (∀ p, before.Missing (subdir.start cwd) subdir.parts p → hostPlace cwd parent <+: p) ∧
      (before.Missing (subdir.start cwd) subdir.parts (subdir.place cwd) → source = some .dir)

section turns
variable {cwd} {d before : Disk C} {parent child : Mount} {relative : String} {source : Option (DiskNode C)}
  {p : List String} {spec : ContainerSpec}

/-- What a turn makes. -/
theorem node_prepareMountpoint (cwd : List String) (before : Disk C) (h : nestedIn parent child = some relative)
    (p : List String) :
    let subdir := mountpoint parent relative
    (before.Missing (subdir.start cwd) subdir.parts p → (prepareMountpoint cwd before (parent,child)).node p = some .dir) ∧
      (¬before.Missing (subdir.start cwd) subdir.parts p →
        (prepareMountpoint cwd before (parent,child)).node p = before.node p) := by
  unfold prepareMountpoint
  dsimp only
  rw [h]
  dsimp only
  split
  · rename_i hexists
    exact ⟨fun hmissing => absurd hmissing (Disk.not_missing_of_pathExists hexists),fun _ => rfl⟩
  · exact Disk.node_createDirAll before _ _ p

/-- A turn for two mounts that are not nested does nothing. -/
theorem prepareMountpoint_of_none (h : nestedIn parent child = none) : prepareMountpoint cwd before (parent,child) = before := by
  unfold prepareMountpoint
  dsimp only
  rw [h]

/-- What is there stays there. -/
theorem node_prepareMountpoint_of_some {node : DiskNode C} (h : before.node p = some node) (pair : Mount × Mount) :
    (prepareMountpoint cwd before pair).node p = some node := by
  obtain ⟨parent,child⟩ := pair
  cases hnested : nestedIn parent child with
  | none =>
    rw [prepareMountpoint_of_none hnested]
    exact h
  | some relative =>
    have hnot : ¬before.Missing ((mountpoint parent relative).start cwd) (mountpoint parent relative).parts p := by
      rintro ⟨-,hnone,-⟩
      rw [h] at hnone
      cases hnone
    rw [(node_prepareMountpoint cwd before hnested p).2 hnot]
    exact h

theorem node_turns_of_some {node : DiskNode C} (pairs : List (Mount × Mount)) (h : d.node p = some node) :
    (pairs.foldl (prepareMountpoint cwd) d).node p = some node := by
  induction pairs generalizing d with
  | nil => exact h
  | cons pair pairs ih => exact ih (node_prepareMountpoint_of_some h pair)

/-- A turn makes exactly what is missing. -/
theorem new_iff (h : nestedIn parent child = some relative) (p : List String) :
    before.node p = none ∧ (prepareMountpoint cwd before (parent,child)).node p ≠ none ↔
      before.Missing ((mountpoint parent relative).start cwd) (mountpoint parent relative).parts p := by
  obtain ⟨hmade,hkept⟩ := node_prepareMountpoint cwd before h p
  constructor
  · rintro ⟨hnone,hsome⟩
    by_contra hnot
    exact hsome ((hkept hnot).trans hnone)
  · intro hmissing
    refine ⟨hmissing.2.1,?_⟩
    rw [hmade hmissing]
    exact Option.some_ne_none _

theorem turnLawful_iff : TurnLawful cwd source parent child before (prepareMountpoint cwd before (parent,child)) ↔
    Clean cwd source parent child before := by
  constructor
  · intro h relative hnested
    refine ⟨fun p hp => ?_,fun hp => ?_⟩
    · obtain ⟨hnone,hsome⟩ := (new_iff hnested p).mpr hp
      exact h.inside p hnone hsome
    · obtain ⟨hnone,hsome⟩ := (new_iff hnested _).mpr hp
      have hkind := h.sameKind relative hnested hnone hsome
      rw [(node_prepareMountpoint cwd before hnested _).1 hp] at hkind
      rcases hkind with ⟨-,hdir⟩ | ⟨c,c',hfile,-⟩
      · exact hdir
      · cases hfile
  · intro h
    refine ⟨fun p hnone hsome => ?_,fun relative hnested hnone hsome => ?_⟩
    · cases hnested : nestedIn parent child with
      | none =>
        rw [prepareMountpoint_of_none hnested] at hsome
        exact absurd hnone hsome
      | some relative => exact (h relative hnested).1 p ((new_iff hnested p).mp ⟨hnone,hsome⟩)
    · have hmissing := (new_iff hnested _).mp ⟨hnone,hsome⟩
      rw [(node_prepareMountpoint cwd before hnested _).1 hmissing]
      exact Or.inl ⟨rfl,(h relative hnested).2 hmissing⟩

/-- The deepest mounts come first. -/
theorem sorted_mounts (mounts : List Mount) :
    (mounts.mergeSort (fun a b => depth b ≤ depth a)).Pairwise fun a b => depth b ≤ depth a := by
  have htrans : ∀ a b c : Mount, decide (depth b ≤ depth a) = true → decide (depth c ≤ depth b) = true →
      decide (depth c ≤ depth a) = true := by
    intro a b c hab hbc
    rw [decide_eq_true_eq] at hab hbc ⊢
    exact hbc.trans hab
  have htotal : ∀ a b : Mount, (decide (depth b ≤ depth a) || decide (depth a ≤ depth b)) = true := by
    intro a b
    rw [Bool.or_eq_true,decide_eq_true_eq,decide_eq_true_eq]
    exact Nat.le_total _ _
  exact (List.pairwise_mergeSort htrans htotal mounts).imp fun h => of_decide_eq_true h

theorem prepared_of_clean (h : ∀ earlier parent child later,
    mountPairs (spec.volumeMounts.map mountOf) = earlier ++ (parent,child) :: later →
      Clean cwd (d.node (hostPlace cwd child)) parent child (earlier.foldl (prepareMountpoint cwd) d)) : Prepared cwd spec d :=
  ⟨List.mergeSort_perm _ _,sorted_mounts _,fun earlier parent child later hsplit =>
    turnLawful_iff.mpr (h earlier parent child later hsplit)⟩

/-- The mountpoints are prepared as they should be exactly where every turn of the loop finds it clean. -/
theorem prepared_iff (cwd : List String) (spec : ContainerSpec) (d : Disk C) : Prepared cwd spec d ↔
    ∀ earlier parent child later, mountPairs (spec.volumeMounts.map mountOf) = earlier ++ (parent,child) :: later →
      Clean cwd (d.node (hostPlace cwd child)) parent child (earlier.foldl (prepareMountpoint cwd) d) := by
  constructor
  · intro h earlier parent child later hsplit
    exact turnLawful_iff.mp (h.turns earlier parent child later hsplit)
  · exact prepared_of_clean

/-! ## A file below a volume -/

theorem mem_of_mem_mountPairs {mounts : List Mount} (h : (parent,child) ∈ mountPairs mounts) : parent ∈ mounts ∧ child ∈ mounts := by
  obtain ⟨⟨a,i⟩,ha,hmem⟩ := List.mem_flatMap.mp h
  obtain ⟨⟨b,j⟩,hb,heq⟩ := List.mem_map.mp hmem
  obtain ⟨rfl,rfl⟩ := Prod.mk.inj heq
  exact ⟨List.fst_mem_of_mem_zipIdx ha,List.fst_mem_of_mem_zipIdx (List.mem_filter.mp hb).1⟩

/-- Volumes that are directories, under paths that are written without steps up and double slashes, are
prepared as they should be. -/
theorem prepared_of_plain
    (hhost : ∀ m ∈ spec.volumeMounts.map mountOf, Part.up ∉ (Paths.Path.parse m.hostPath).parts ∧ d.node (hostPlace cwd m) = some .dir)
    (hrel : ∀ m ∈ spec.volumeMounts.map mountOf, ∀ m' ∈ spec.volumeMounts.map mountOf, ∀ relative, nestedIn m m' = some relative →
      (Paths.Path.parse relative).absolute = false ∧ Part.up ∉ (Paths.Path.parse relative).parts) : Prepared cwd spec d := by
  refine prepared_of_clean fun earlier parent child later hsplit relative hnested => ?_
  obtain ⟨hparent,hchild⟩ := mem_of_mem_mountPairs (by
    rw [hsplit]
    exact List.mem_append_right _ List.mem_cons_self)
  obtain ⟨hup,hdir⟩ := hhost parent hparent
  obtain ⟨habsolute,hdown⟩ := hrel parent hparent child hchild relative hnested
  refine ⟨fun p hp => ?_,fun _ => (hhost child hchild).2⟩
  exact hp.below hup habsolute hdown (Option.isSome_iff_exists.mpr ⟨_,node_turns_of_some earlier hdir⟩)

end turns

/-- A volume at `/etc`, and the hosts file that is mounted below it. -/
def hostsContainer : ContainerSpec where
  name := "app"
  volumeMounts := [{ name := "config", mountPath := "/etc", subPath := some "/pods/config" },
    { name := "k8s-managed-etc-hosts", mountPath := "/etc/hosts", subPath := some "/pods/hosts" }]

def hostsDisk : Disk Unit := (Disk.single ["pods","hosts"] ()).mkdir ["pods"] "config" rfl

/-- The file gets a directory as its mountpoint. -/
theorem hosts_mountpoint : (specToCriMounts [] hostsContainer hostsDisk).2.node ["pods","config","hosts"] = some .dir ∧
    hostsDisk.node ["pods","hosts"] = some (.file ()) ∧ ¬Prepared [] hostsContainer hostsDisk := by
  have hpairs : mountPairs (hostsContainer.volumeMounts.map mountOf) =
      [(⟨"/etc","/pods/config",false⟩,⟨"/etc/hosts","/pods/hosts",false⟩),
        (⟨"/etc/hosts","/pods/hosts",false⟩,⟨"/etc","/pods/config",false⟩)] := rfl
  have hnested : nestedIn ⟨"/etc","/pods/config",false⟩ ⟨"/etc/hosts","/pods/hosts",false⟩ = some "hosts" := by decide
  have hback : nestedIn ⟨"/etc/hosts","/pods/hosts",false⟩ ⟨"/etc","/pods/config",false⟩ = none := by decide
  have hpoint : mountpoint ⟨"/etc","/pods/config",false⟩ "hosts" = ⟨true,[.name "pods",.name "config",.name "hosts"]⟩ := by
    decide
  have hsource : hostPlace [] ⟨"/etc/hosts","/pods/hosts",false⟩ = ["pods","hosts"] := by decide
  have hafter : (prepareMountpoint [] hostsDisk (⟨"/etc","/pods/config",false⟩,⟨"/etc/hosts","/pods/hosts",false⟩)).node
      ["pods","config","hosts"] = some .dir := by
    unfold prepareMountpoint
    dsimp only
    rw [hnested]
    dsimp only
    rw [hpoint]
    rfl
  have hplace : (⟨true,[.name "pods",.name "config",.name "hosts"]⟩ : Paths.Path).place [] = ["pods","config","hosts"] := by
    decide
  have hfile : hostsDisk.node ["pods","hosts"] = some (.file ()) := rfl
  refine ⟨?_,hfile,fun h => ?_⟩
  · unfold specToCriMounts
    dsimp only
    rw [hpairs,List.foldl_cons,List.foldl_cons,List.foldl_nil,prepareMountpoint_of_none hback]
    exact hafter
  · have hturn := (h.turns [] _ _ _ hpairs).sameKind "hosts" hnested
    rw [hpoint,hplace,hsource] at hturn
    change hostsDisk.node _ = none → (prepareMountpoint [] hostsDisk _).node _ ≠ none →
      SameKind ((prepareMountpoint [] hostsDisk _).node _) _ at hturn
    rw [hafter,hfile] at hturn
    rcases hturn rfl (Option.some_ne_none _) with ⟨-,hdir⟩ | ⟨c,c',hdir,-⟩
    · cases hdir
    · cases hdir

end KubeAir.Cri
