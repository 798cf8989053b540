import KubeAir.Core.Pod
import KubeAir.Paths.Lexical
import KubeAir.Transition.Coverage

/-! # Pod volumes

The files that a sync writes for the ConfigMap, Secret, Projected and DownwardAPI volumes of
a pod. The texts that name these files (keys, item paths, the path of a token) are joined to
the directory of the volume.
-/
namespace KubeAir.Worker.Volumes
open Core Paths Transition

abbrev Bytes := List UInt8

/-- The name of a directory entry. -/
structure FileName where
  val : String
  ok : Path.parse val = ⟨false,[.name val]⟩

structure DirEntry where
  fileName : FileName
  isDir : Bool
  isFile : Bool
  /-- a symbolic link whose target is gone -/
  dangling : Bool

inductive FsOp
  | createDirAll (p : Path)
  | write (p : Path) (contents : Bytes)
  | setPermissions (p : Path) (mode : ℤ)
  | removeFile (p : Path)
  | removeDir (p : Path)
  | read (p : Path)
  | tryExists (p : Path)
  | readDir (p : Path)
  | isEmptyDir (p : Path)

structure MountRequest where
  podUid : PodUID
  podNamespace : String
  volumeName : String
  mountPath : Path
  readOnly : Bool

/-- What a sync asks for: an operation on files, made for the volume with the given directory,
and the calls to the API server and to the volume manager. -/
inductive VolumeOp
  | fs (volume : Path) (op : FsOp)
  | kubeClient
  | listMountedVolumes (podUid : PodUID)
  | mountVolumes (requests : List MountRequest)
  | requestServiceAccountToken (audience : Option String) (expirationSeconds : Option ℕ)

abbrev VolumeAnswer : VolumeOp → Type
  | .fs _ (.createDirAll _) => Except String Unit
  | .fs _ (.write _ _) => Except String Unit
  | .fs _ (.setPermissions _ _) => Unit
  | .fs _ (.removeFile _) => Unit
  | .fs _ (.removeDir _) => Unit
  | .fs _ (.read _) => Option Bytes
  | .fs _ (.tryExists _) => Bool
  | .fs _ (.readDir _) => Option (List DirEntry)
  | .fs _ (.isEmptyDir _) => Bool
  | .kubeClient => Bool
  | .listMountedVolumes _ => Except KubeletError (List String)
  | .mountVolumes _ => Except KubeletError Unit
  | .requestServiceAccountToken _ _ => Option String

abbrev VolumeProgram (α : Type) : Type := Program VolumeOp VolumeAnswer α

def request (op : VolumeOp) : VolumeProgram (VolumeAnswer op) := Program.request op

def createDirAll (volume p : Path) : VolumeProgram (Except String Unit) := request (.fs volume (.createDirAll p))

def write (volume p : Path) (contents : Bytes) : VolumeProgram (Except String Unit) :=
  request (.fs volume (.write p contents))

def setPermissions (volume p : Path) (mode : ℤ) : VolumeProgram Unit := request (.fs volume (.setPermissions p mode))

def removeFile (volume p : Path) : VolumeProgram Unit := request (.fs volume (.removeFile p))

def removeDir (volume p : Path) : VolumeProgram Unit := request (.fs volume (.removeDir p))

def read (volume p : Path) : VolumeProgram (Option Bytes) := request (.fs volume (.read p))

def tryExists (volume p : Path) : VolumeProgram Bool := request (.fs volume (.tryExists p))

def readDir (volume p : Path) : VolumeProgram (Option (List DirEntry)) := request (.fs volume (.readDir p))

def isEmptyDir (volume p : Path) : VolumeProgram Bool := request (.fs volume (.isEmptyDir p))

def kubeClient : VolumeProgram Bool := request .kubeClient

structure ConfigMap where
  data : HashMap String String
  binaryData : HashMap String Bytes

/-- What a sync reads besides the pod: the answers of the API server to each attempt to fetch the
object of that name for a source of a volume, and the values of downward API items. -/
structure VolumeInputs where
  rootDir : Path
  configMap : (name volume : String) → (source attempt : ℕ) → Except String ConfigMap
  secret : (name volume : String) → (source attempt : ℕ) → Except String (HashMap String Bytes)
  resolveDownwardApiValue : DownwardAPIVolumeFile → String
  /-- how deep directories are nested -/
  depth : ℕ

/-! ## Directories -/

def volumeSourceSubdir : VolumeSource → String
  | .emptyDir .. => "kubernetes.io~empty-dir"
  | .configMap .. => "kubernetes.io~configmap"
  | .secret .. => "kubernetes.io~secret"
  | .projected .. => "kubernetes.io~projected"
  | .downwardAPI .. => "kubernetes.io~downward-api"
  | _ => "kubernetes.io~projected"

def volumeTargetPath (inputs : VolumeInputs) (pod : PodSpec) (volumeName : String) : Path :=
  let subdir := ((pod.volumes.find? (fun v => v.name = volumeName)).map (fun v => volumeSourceSubdir v.source)).getD
    "kubernetes.io~projected"
  ((((inputs.rootDir.join (.parse "pods")).join (.parse pod.uid.val)).join (.parse "volumes")).join (.parse subdir)).join
    (.parse volumeName)

/-- The path of a directory entry. -/
def entryPath (dir : Path) (e : DirEntry) : Path := dir.join (.parse e.fileName.val)

def removeDanglingSymlinksInDir (dir : Path) : VolumeProgram Unit := do
  match ← readDir dir dir with
  | none => pure ()
  | some entries => Program.forEach (fun e => if e.dangling then removeFile dir (entryPath dir e) else pure ()) entries

def removeDirContentsRecursive (volume : Path) : ℕ → Path → VolumeProgram Unit
  | 0, _ => pure ()
  | depth + 1, dir => do
    match ← readDir volume dir with
    | none => pure ()
    | some entries =>
      Program.forEach (fun e => do
        if e.isDir then
          removeDirContentsRecursive volume depth (entryPath dir e)
          removeDir volume (entryPath dir e)
        else if e.isFile then removeFile volume (entryPath dir e)
        else pure ()) entries

def removeStaleFilesRecursive (volume : Path) (expected : List Path) : ℕ → Path → VolumeProgram Unit
  | 0, _ => pure ()
  | depth + 1, dir => do
    match ← readDir volume dir with
    | none => pure ()
    | some entries =>
      Program.forEach (fun e => do
        if e.isDir then
          removeStaleFilesRecursive volume expected depth (entryPath dir e)
          let isEmpty ← isEmptyDir volume (entryPath dir e)
          if isEmpty then removeDir volume (entryPath dir e) else pure ()
        else if e.isFile && entryPath dir e ∉ expected then removeFile volume (entryPath dir e)
        else pure ()) entries

def clearVolumeDir (inputs : VolumeInputs) (dir : Path) : VolumeProgram Unit :=
  removeDirContentsRecursive dir inputs.depth dir

def cleanupStaleVolumeFiles (inputs : VolumeInputs) (dir : Path) (expected : List Path) : VolumeProgram Unit :=
  removeStaleFilesRecursive dir expected inputs.depth dir

/-! ## Files -/

/-- The error of a file operation as one of the kubelet. -/
def orIoError (p : VolumeProgram (Except String Unit)) : VolumeProgram (Except KubeletError Unit) := do
  match ← p with
  | .ok () => pure (.ok ())
  | .error e => pure (.error (.io e))

/-- `create_dir_all` of the parent directory, where there is one. -/
def createParent (volume filePath : Path) : VolumeProgram (Except KubeletError Unit) :=
  match filePath.parent with
  | none => pure (.ok ())
  | some parent => orIoError (createDirAll volume parent)

def writeIfChanged (volume filePath : Path) (value : Bytes) : VolumeProgram (Except KubeletError Unit) := do
  let existing ← read volume filePath
  if existing = some value then pure (.ok ()) else orIoError (write volume filePath value)

/-- Permissions are set if the operation succeeded; whether that works is not looked at. -/
def thenSetPermissions (p : VolumeProgram (Except KubeletError Unit)) (volume filePath : Path) (mode : ℤ) :
    VolumeProgram (Except KubeletError Unit) :=
  Program.andThen p do
    setPermissions volume filePath mode
    pure (.ok ())

/-- A file of a ConfigMap or a Secret: its directory, its contents, its mode. -/
def writeDataFile (dir : Path) (text : String) (value : Bytes) (mode : Option ℤ) :
    VolumeProgram (Except KubeletError Unit) :=
  let filePath := dir.join (.parse text)
  Program.andThen (createParent dir filePath) <|
    match mode with
    | none => writeIfChanged dir filePath value
    | some mode => thenSetPermissions (writeIfChanged dir filePath value) dir filePath mode

/-- All keys, or the items that are asked for and are there. -/
def writeDataFiles (dir : Path) (data : HashMap String Bytes) (items : List KeyToPath)
    (keyMode : Option ℤ) (itemMode : KeyToPath → ℤ) : VolumeProgram (Except KubeletError Unit) :=
  if items.isEmpty then Program.forUntil (fun e => writeDataFile dir e.1 e.2 keyMode) data.entries
  else Program.forUntil (fun item => match data.lookup item.key with
    | some value => writeDataFile dir item.path value (some (itemMode item))
    | none => pure (.ok ())) items

def writeProjectedConfigmapFiles (dir : Path) (cmData : HashMap String Bytes) (items : List KeyToPath)
    (defaultMode : Option ℤ) : VolumeProgram (Except KubeletError Unit) :=
  writeDataFiles dir cmData items defaultMode (fun item => ((item.mode <|> defaultMode).getD 0o644))

def writeProjectedSecretFiles (dir : Path) (secretData : HashMap String Bytes) (items : List KeyToPath)
    (defaultMode : Option ℤ) : VolumeProgram (Except KubeletError Unit) :=
  writeDataFiles dir secretData items (some (defaultMode.getD 0o600)) (fun item => ((item.mode <|> defaultMode).getD 0o600))

/-- The paths that the files of a ConfigMap or a Secret are expected at. -/
def expectedDataPaths (dir : Path) (data : HashMap String Bytes) (items : List KeyToPath) : List Path :=
  if items.isEmpty then data.keys.map (fun k => dir.join (.parse k)) else items.map (fun item => dir.join (.parse item.path))

def expectedConfigmapPaths (dir : Path) (cmData : HashMap String Bytes) (items : List KeyToPath) : List Path :=
  expectedDataPaths dir cmData items

def expectedSecretPaths (dir : Path) (secretData : HashMap String Bytes) (items : List KeyToPath) : List Path :=
  expectedDataPaths dir secretData items

def configmapDataBytes (cm : ConfigMap) : HashMap String Bytes :=
  cm.binaryData ∪ cm.data.mapValues (fun v => v.toUTF8.data.toList)

/-! ## Volumes of each kind -/

/-- A field that is not known yet has an empty value; its file is left alone. -/
def skipsItem (inputs : VolumeInputs) (item : DownwardAPIVolumeFile) : Bool :=
  inputs.resolveDownwardApiValue item = "" && item.fieldRef.isSome

def itemMode (item : DownwardAPIVolumeFile) (defaultMode : Option ℤ) : ℤ := (item.mode <|> defaultMode).getD 0o644

/-- A file of a DownwardAPI volume. Errors are ignored. -/
def writeDownwardFile (inputs : VolumeInputs) (dir : Path) (defaultMode : Option ℤ) (item : DownwardAPIVolumeFile) :
    VolumeProgram Unit :=
  if skipsItem inputs item then pure ()
  else do
    let itemPath := dir.join (.parse item.path)
    let _ ← createParent dir itemPath
    let _ ← write dir itemPath (inputs.resolveDownwardApiValue item).toUTF8.data.toList
    setPermissions dir itemPath (itemMode item defaultMode)

def writeDownwardVolume (inputs : VolumeInputs) (dir : Path) (items : List DownwardAPIVolumeFile)
    (defaultMode : Option ℤ) : VolumeProgram Unit := do
  let _ ← createDirAll dir dir
  Program.forEach (writeDownwardFile inputs dir defaultMode) items

def containsText (s text : String) : Bool := text.toList <:+: s.toList

def isNodeAuthzTransientError : KubeletError → Bool
  | .runtime msg =>
    containsText msg.toLower "no relationship found between node" &&
      (containsText msg.toLower "forbidden" || containsText msg.toLower "403")
  | _ => false

/-- Fetching an object for a projected volume, at most five times in all. -/
def fetchRetry {D : Type} (failed : String → KubeletError) (fetch : ℕ → Except String D) : ℕ → ℕ → Except KubeletError D
  | 0, attempt => .error (failed (toString attempt))
  | left + 1, attempt =>
    match fetch attempt with
    | .ok d => .ok d
    | .error e =>
      if isNodeAuthzTransientError (failed e) && left ≠ 0 then fetchRetry failed fetch left (attempt + 1)
      else .error (failed e)

/-- The ConfigMaps and Secrets of a projected volume by name. -/
structure Fetched where
  configmaps : HashMap String (HashMap String Bytes) := ∅
  secrets : HashMap String (HashMap String Bytes) := ∅

def configMapFailed (name e : String) : KubeletError :=
  .runtime ("failed to fetch ConfigMap '" ++ name ++ "' for projected volume: " ++ e)

def secretFailed (name e : String) : KubeletError :=
  .runtime ("failed to fetch Secret '" ++ name ++ "' for projected volume: " ++ e)

/-- One round of the loop that fetches, for the source with the given index. -/
def fetchSource (inputs : VolumeInputs) (volume : String) (acc : Fetched) (source : ℕ) :
    ProjectedVolumeSource → Except KubeletError Fetched
  | .configMap name _ optional =>
    if (acc.configmaps.lookup name).isSome then .ok acc
    else
      match fetchRetry (configMapFailed name) (inputs.configMap name volume source) 5 1 with
      | .ok cm => .ok { acc with configmaps := acc.configmaps.insert name (configmapDataBytes cm) }
      | .error e => if optional then .ok acc else .error e
  | .secret name _ optional =>
    if (acc.secrets.lookup name).isSome then .ok acc
    else
      match fetchRetry (secretFailed name) (inputs.secret name volume source) 5 1 with
      | .ok data => .ok { acc with secrets := acc.secrets.insert name data }
      | .error e => if optional then .ok acc else .error e
  | _ => .ok acc

def fetchSources (inputs : VolumeInputs) (volume : String) (acc : Fetched) (source : ℕ) :
    List ProjectedVolumeSource → Except KubeletError Fetched
  | [] => .ok acc
  | s :: rest =>
    match fetchSource inputs volume acc source s with
    | .ok acc => fetchSources inputs volume acc (source + 1) rest
    | .error e => .error e

/-- A file of a downward API source. -/
def writeProjectedItem (inputs : VolumeInputs) (dir : Path) (defaultMode : Option ℤ) (item : DownwardAPIVolumeFile) :
    VolumeProgram (Except KubeletError Unit) :=
  if skipsItem inputs item then pure (.ok ())
  else
    let itemPath := dir.join (.parse item.path)
    Program.andThen (createParent dir itemPath) <|
      thenSetPermissions (orIoError (write dir itemPath (inputs.resolveDownwardApiValue item).toUTF8.data.toList))
        dir itemPath (itemMode item defaultMode)

/-- A token is written if there is one. Without a new token an old file is kept. -/
def writeToken (dir tokenPath : Path) (defaultMode : Option ℤ) (audience : Option String)
    (expirationSeconds : Option ℕ) : VolumeProgram (Except KubeletError Unit) := do
  let _ ← kubeClient
  let token : Option String ← request (.requestServiceAccountToken audience expirationSeconds)
  match token with
  | none => do
    let _ ← tryExists dir tokenPath
    pure (.ok ())
  | some token =>
    thenSetPermissions (writeIfChanged dir tokenPath token.toUTF8.data.toList) dir tokenPath (defaultMode.getD 0o600)

/-- The file of a service account token. -/
def writeTokenFile (dir : Path) (defaultMode : Option ℤ) (audience : Option String) (expirationSeconds : Option ℕ)
    (path : String) : VolumeProgram (Except KubeletError Unit) :=
  let tokenPath := dir.join (.parse path)
  Program.andThen (createParent dir tokenPath) (writeToken dir tokenPath defaultMode audience expirationSeconds)

def writeSource (inputs : VolumeInputs) (dir : Path) (defaultMode : Option ℤ) (fetched : Fetched) :
    ProjectedVolumeSource → VolumeProgram (Except KubeletError Unit)
  | .configMap name items _ =>
    match fetched.configmaps.lookup name with
    | some cmData => writeProjectedConfigmapFiles dir cmData items defaultMode
    | none => pure (.ok ())
  | .secret name items _ =>
    match fetched.secrets.lookup name with
    | some secretData => writeProjectedSecretFiles dir secretData items defaultMode
    | none => pure (.ok ())
  | .downwardAPI items => Program.forUntil (writeProjectedItem inputs dir defaultMode) items
  | .serviceAccountToken audience expirationSeconds path =>
    writeTokenFile dir defaultMode audience expirationSeconds path

def expectedSourcePaths (dir : Path) (fetched : Fetched) : ProjectedVolumeSource → List Path
  | .configMap name items _ => ((fetched.configmaps.lookup name).map (expectedConfigmapPaths dir · items)).getD []
  | .secret name items _ => ((fetched.secrets.lookup name).map (expectedSecretPaths dir · items)).getD []
  | .serviceAccountToken _ _ path => [dir.join (.parse path)]
  | .downwardAPI items => items.map (fun item => dir.join (.parse item.path))

def needsClient : ProjectedVolumeSource → Bool
  | .configMap .. => true
  | .secret .. => true
  | _ => false

def isOptional : ProjectedVolumeSource → Bool
  | .configMap _ _ optional => optional
  | .secret _ _ optional => optional
  | _ => true

def noClientForProjected : KubeletError :=
  .runtime "failed to create kube client for projected volume: no client available"

/-- The part of `write_projected_volume` that follows once the client is there. -/
def writeFetched (inputs : VolumeInputs) (dir : Path) (volume : String) (sources : List ProjectedVolumeSource)
    (defaultMode : Option ℤ) : VolumeProgram (Except KubeletError Unit) :=
  match fetchSources inputs volume {} 0 sources with
  | .error e => pure (.error e)
  | .ok fetched =>
    Program.andThen (Program.forUntil (writeSource inputs dir defaultMode fetched) sources) do
      cleanupStaleVolumeFiles inputs dir (sources.flatMap (expectedSourcePaths dir fetched))
      pure (.ok ())

def writeProjectedVolume (inputs : VolumeInputs) (dir : Path) (volume : String) (sources : List ProjectedVolumeSource)
    (defaultMode : Option ℤ) : VolumeProgram (Except KubeletError Unit) :=
  Program.andThen (orIoError (createDirAll dir dir)) do
    removeDanglingSymlinksInDir dir
    if sources.any needsClient then
      let client ← kubeClient
      if client then writeFetched inputs dir volume sources defaultMode
      else if sources.all isOptional then pure (.ok ())
      else pure (.error noClientForProjected)
    else writeFetched inputs dir volume sources defaultMode

/-- The files of a standalone volume; an error is only logged. -/
def writeOrWarn (inputs : VolumeInputs) (dir : Path) (files : VolumeProgram (Except KubeletError Unit))
    (expected : List Path) : VolumeProgram (Except KubeletError Unit) := do
  match ← files with
  | .error _ => pure (.ok ())
  | .ok () => do
    cleanupStaleVolumeFiles inputs dir expected
    pure (.ok ())

/-- An object that is not there: the volume is cleared if it is optional. -/
def clearOrFail (inputs : VolumeInputs) (dir : Path) (optional : Bool) (e : KubeletError) :
    VolumeProgram (Except KubeletError Unit) :=
  if optional then do
    clearVolumeDir inputs dir
    pure (.ok ())
  else pure (.error e)

def configMapNotFetched (name volume e : String) : KubeletError :=
  .runtime ("Failed to fetch ConfigMap '" ++ name ++ "' for non-optional volume '" ++ volume ++ "': " ++ e)

def noClientForConfigMap (name volume : String) : KubeletError :=
  .runtime ("No kube client available to fetch ConfigMap '" ++ name ++ "' for volume '" ++ volume ++ "'")

def secretNotFetched (secretName volume e : String) : KubeletError :=
  .runtime ("Failed to fetch Secret '" ++ secretName ++ "' for non-optional volume '" ++ volume ++ "': " ++ e)

def noClientForSecret (secretName volume : String) : KubeletError :=
  .runtime ("No kube client available to fetch Secret '" ++ secretName ++ "' for volume '" ++ volume ++ "'")

def writeConfigMapVolume (inputs : VolumeInputs) (dir : Path) (volume name : String) (items : List KeyToPath)
    (optional : Bool) (defaultMode : Option ℤ) : VolumeProgram (Except KubeletError Unit) := do
  let _ ← createDirAll dir dir
  removeDanglingSymlinksInDir dir
  let client ← kubeClient
  if client then
    match inputs.configMap name volume 0 1 with
    | .ok cm =>
      let data := configmapDataBytes cm
      writeOrWarn inputs dir (writeProjectedConfigmapFiles dir data items (some (defaultMode.getD 0o644)))
        (expectedConfigmapPaths dir data items)
    | .error e => clearOrFail inputs dir optional (configMapNotFetched name volume e)
  else if optional then pure (.ok ())
  else pure (.error (noClientForConfigMap name volume))

/-- Without a client even an optional Secret is an error. -/
def writeSecretVolume (inputs : VolumeInputs) (dir : Path) (volume secretName : String) (items : List KeyToPath)
    (optional : Bool) (defaultMode : Option ℤ) : VolumeProgram (Except KubeletError Unit) := do
  let _ ← createDirAll dir dir
  removeDanglingSymlinksInDir dir
  let client ← kubeClient
  if client then
    match inputs.secret secretName volume 0 1 with
    | .ok data =>
      writeOrWarn inputs dir (writeProjectedSecretFiles dir data items (some (defaultMode.getD 0o644)))
        (expectedSecretPaths dir data items)
    | .error e => clearOrFail inputs dir optional (secretNotFetched secretName volume e)
  else pure (.error (noClientForSecret secretName volume))

/-! ## All volumes -/

def VolumeSpec.isDownwardAPI (v : VolumeSpec) : Bool := match v.source with
  | .downwardAPI .. => true
  | _ => false

def VolumeSpec.isProjected (v : VolumeSpec) : Bool := match v.source with
  | .projected .. => true
  | _ => false

def VolumeSpec.isConfigMap (v : VolumeSpec) : Bool := match v.source with
  | .configMap .. => true
  | _ => false

def VolumeSpec.isSecret (v : VolumeSpec) : Bool := match v.source with
  | .secret .. => true
  | _ => false

/-- The bodies of the loops over the Projected, the ConfigMap and the Secret volumes. -/
def writeVolume (inputs : VolumeInputs) (pod : PodSpec) (v : VolumeSpec) : VolumeProgram (Except KubeletError Unit) :=
  let dir := volumeTargetPath inputs pod v.name
  match v.source with
  | .projected sources defaultMode => writeProjectedVolume inputs dir v.name sources defaultMode
  | .configMap name items optional defaultMode => writeConfigMapVolume inputs dir v.name name items optional defaultMode
  | .secret secretName items optional defaultMode =>
    writeSecretVolume inputs dir v.name secretName items optional defaultMode
  | _ => pure (.ok ())

/-- The body of the loop over the DownwardAPI volumes. -/
def refreshDownward (inputs : VolumeInputs) (pod : PodSpec) (v : VolumeSpec) : VolumeProgram Unit :=
  match v.source with
  | .downwardAPI items defaultMode => writeDownwardVolume inputs (volumeTargetPath inputs pod v.name) items defaultMode
  | _ => pure ()

def mountRequest (inputs : VolumeInputs) (pod : PodSpec) (v : VolumeSpec) : MountRequest where
  podUid := pod.uid
  podNamespace := pod.podRef.ns
  volumeName := v.name
  mountPath := volumeTargetPath inputs pod v.name
  readOnly := match v.source with
    | .persistentVolumeClaim _ readOnly => readOnly
    | _ => false

/-- The volumes that are not mounted yet are mounted by the volume manager. -/
def mountMissing (inputs : VolumeInputs) (pod : PodSpec) : VolumeProgram (Except KubeletError Unit) := do
  let listed : Except KubeletError (List String) ← request (.listMountedVolumes pod.uid)
  match listed with
  | .error e => pure (.error e)
  | .ok alreadyMounted =>
    let missing := pod.volumes.filter (fun v => v.name ∉ alreadyMounted)
    if missing.isEmpty then pure (.ok ())
    else do
      let mounted : Except KubeletError Unit ← request (.mountVolumes (missing.map (mountRequest inputs pod)))
      pure mounted

def emptyPodName : KubeletError :=
  .runtime "pod name is empty; cannot resolve DownwardAPI fieldRefs — will retry"

def ensurePodVolumes (inputs : VolumeInputs) (pod : PodSpec) : VolumeProgram (Except KubeletError Unit) :=
  if pod.volumes.isEmpty then pure (.ok ())
  else if pod.podRef.name = "" then pure (.error emptyPodName)
  else
    Program.andThen (mountMissing inputs pod) do
      Program.forEach (refreshDownward inputs pod) (pod.volumes.filter VolumeSpec.isDownwardAPI)
      Program.andThen (Program.forUntil (writeVolume inputs pod) (pod.volumes.filter VolumeSpec.isProjected)) <|
        Program.andThen (Program.forUntil (writeVolume inputs pod) (pod.volumes.filter VolumeSpec.isConfigMap)) <|
          Program.forUntil (writeVolume inputs pod) (pod.volumes.filter VolumeSpec.isSecret)

end KubeAir.Worker.Volumes
