import KubeAir.Adapters.Admission
import KubeAir.Paths.Lexical

/-! # Volume mounts

The host paths that are handed to the container runtime. A `subPathExpr` is expanded with the
environment of the container and checked; a `subPath` is joined as it is.
-/
namespace KubeAir.Worker.VolumeMounts
open Core Paths

/-- The text after a `$`: what is read, whether it names a variable, and the rest. A cut inside
of a character of several bytes panics. -/
def tryReadVariableName : List Char → Option (List Char × Bool × List Char)
  | [] => none
  | '$' :: rest => some (['$'],false,rest)
  | '(' :: rest =>
    if ')' ∈ rest then some (rest.takeWhile (· ≠ ')'),true,(rest.dropWhile (· ≠ ')')).drop 1)
    else some (['$','('],false,rest)
  | c :: rest => if c.toNat < 128 then some ([c],false,rest) else none

theorem tryReadVariableName_length {cs read rest : List Char} {isVar : Bool}
    (h : tryReadVariableName cs = some (read,isVar,rest)) : rest.length < cs.length := by
  unfold tryReadVariableName at h
  split at h
  · cases h
  · cases h
    simp
  · rename_i tail
    split at h
    · cases h
      have hd := (List.dropWhile_sublist (fun c => decide (c ≠ ')')) (l := tail)).length_le
      rw [List.length_drop,List.length_cons]
      omega
    · cases h
      simp
  · split at h
    · cases h
      simp
    · cases h

/-- `expand_env_value`; a panic is `none`. -/
def expandChars (env : HashMap String String) : List Char → Option (List Char)
  | [] => some []
  | '$' :: [] => some ['$']
  | '$' :: c :: cs =>
    match h : tryReadVariableName (c :: cs) with
    | none => none
    | some (read,isVar,rest) =>
      have : rest.length < (c :: cs).length := tryReadVariableName_length h
      (expandChars env rest).map fun tail =>
        if isVar then
          match env.lookup (String.ofList read) with
          | some value => value.toList ++ tail
          | none => '$' :: '(' :: read ++ ')' :: tail
        else if read ≠ ['$'] then '$' :: read ++ tail
        else read ++ tail
  | c :: cs => (expandChars env cs).map (c :: ·)
termination_by cs => cs.length
decreasing_by
  · simp only [List.length_cons] at this ⊢
    omega
  · simp

def expandEnvValue (input : String) (env : HashMap String String) : Option String :=
  (expandChars env input.toList).map String.ofList

/-- Why no mounts come out: an error, a path that is no good, or a panic. -/
inductive MountStop
  | failed (e : KubeletError)
  | configError (msg : String)
  | panicked

structure ResolvedMount where
  mount : VolumeMount
  /-- where the volume is mounted on the host -/
  base : Path
  /-- the host path that the runtime gets -/
  source : Path

def emptyMountPath (ctrName vmName : String) : KubeletError :=
  .runtime ("container '" ++ ctrName ++ "' has volumeMount '" ++ vmName ++ "' with empty mount_path")

def unknownVolumeMount (ctrName vmName : String) (mounted : List String) : KubeletError :=
  .runtime ("container '" ++ ctrName ++ "' references unknown volumeMount '" ++ vmName ++ "' (mounted volumes: [" ++
    String.intercalate ", " (mounted.map (fun k => "\"" ++ k ++ "\"")) ++ "])")

def emptySourcePath (ctrName vmName : String) : KubeletError :=
  .runtime ("container '" ++ ctrName ++ "' has volumeMount '" ++ vmName ++ "' resolved to empty source path")

/-- An expanded `subPathExpr` must be relative, without steps up and without null bytes. -/
def invalidSubPath (expanded : String) : Bool :=
  expanded.toList.head? = some '/' || expanded.toList.contains (Char.ofNat 0) || (Path.parse expanded).parts.contains .up

/-- The sub path that is in effect: the expression takes precedence. -/
def effectiveSubPath (env : HashMap String String) (vm : VolumeMount) : Except MountStop (Option String) :=
  match vm.subPathExpr with
  | some expr =>
    if expr = "" then .ok none
    else
      match expandEnvValue expr env with
      | none => .error .panicked
      | some expanded =>
        if invalidSubPath expanded then
          .error (.configError ("invalid subPathExpr: \"" ++ expr ++ "\" expanded to invalid path \"" ++ expanded ++ "\""))
        else .ok (some expanded)
  | none => .ok vm.subPath

/-- The host path of a mount. -/
def mountSource (base : Path) : Option String → Path
  | some p => if p = "" then base else base.join (.parse p)
  | none => base

def resolveMount (ctrName : String) (env : HashMap String String) (mountedVolumes : HashMap String Path)
    (vm : VolumeMount) : Except MountStop ResolvedMount :=
  if Adapters.Admission.trim vm.mountPath = "" then .error (.failed (emptyMountPath ctrName vm.name))
  else
    match mountedVolumes.lookup vm.name with
    | none => .error (.failed (unknownVolumeMount ctrName vm.name mountedVolumes.keys))
    | some base =>
      match effectiveSubPath env vm with
      | .error stop => .error stop
      | .ok subPath =>
        let source := mountSource base subPath
        if source = ⟨false,[]⟩ then .error (.failed (emptySourcePath ctrName vm.name)) else .ok ⟨vm,base,source⟩

/-- The loop over the volume mounts of a container. -/
def resolveVolumeMounts (ctrName : String) (env : HashMap String String) (mountedVolumes : HashMap String Path) :
    List VolumeMount → Except MountStop (List ResolvedMount)
  | [] => .ok []
  | vm :: rest =>
    match resolveMount ctrName env mountedVolumes vm with
    | .error stop => .error stop
    | .ok m =>
      match resolveVolumeMounts ctrName env mountedVolumes rest with
      | .error stop => .error stop
      | .ok ms => .ok (m :: ms)

end KubeAir.Worker.VolumeMounts
