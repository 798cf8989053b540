import KubeAir.Adapters.Admission
import KubeAir.Adapters.Csi
import KubeAir.Adapters.LogEntry
import KubeAir.Transition.Program

/-! # The composite volume manager

Volumes that are backed by a CSI driver go to the CSI manager, all others to the local one.
A call is a program whose calls are the sections between two locks.
-/
namespace KubeAir.Adapters
open Core Paths Transition

structure MountRequest where
  podUid : String
  podNamespace : String
  volumeName : String
  source : VolumeSource
  mountPath : Path
  readOnly : Bool

structure UnmountRequest where
  podUid : String
  volumeName : String
deriving DecidableEq

structure MountedVolume where
  podUid : String
  volumeName : String
  mountPath : Path
  /-- the text of the path, which is the volume id -/
  devicePath : Option String
  readOnly : Bool
deriving DecidableEq

/-- A record of the CSI table. -/
structure CsiVolume where
  val : MountedVolume
  device : val.devicePath.isSome
deriving DecidableEq

namespace CsiVolume

def volumeId (v : CsiVolume) : String := v.val.devicePath.get v.device

def ofMounted (podUid volumeName : String) (mountPath : Path) (volumeId : String) (readOnly : Bool) : CsiVolume :=
  ⟨⟨podUid,volumeName,mountPath,some volumeId,readOnly⟩,rfl⟩

end CsiVolume

def UnmountRequest.names (req : UnmountRequest) (v : CsiVolume) : Bool := v.val.volumeName = req.volumeName

/-- What a persistent volume says about where it comes from. -/
structure PersistentVolume where
  localPath : Option String := none
  /-- the driver and the handle -/
  csi : Option (String × String) := none
  /-- the path and its type -/
  hostPath : Option (String × Option String) := none

/-- The state behind the locks, with the calls that the plugins have answered with `Ok` and the
records of local volumes that were unmounted. -/
structure CompositeVolumeManager where
  rootDir : Path
  csi : CsiVolumeManager
  csiMounted : HashMap String (List CsiVolume) := ∅
  localMounted : HashMap String (List MountedVolume) := ∅
  log : List Rpc := []
  localUnmounted : List MountedVolume := []

/-! ## Calls as programs -/

inductive VolumeSection
  | defaultDriver
  | resolvePvcToPv (ns claimName : String)
  /-- a scan, the stage and the publish under one lock -/
  | stageAndPublish (ctx : CsiVolumeContext)
  | pushCsiMounted (v : CsiVolume)
  | takeCsiMounted (req : UnmountRequest)
  | unpublishVolume (volumeId : String) (targetPath : Path)
  | mountLocal (req : MountRequest)
  | unmountLocal (requests : List UnmountRequest)

abbrev VolumeSection.Answer : VolumeSection → Type
  | .defaultDriver => Option String
  | .resolvePvcToPv _ _ => Option PersistentVolume
  | .stageAndPublish _ => Except VolumeError Unit
  | .pushCsiMounted _ => Unit
  | .takeCsiMounted _ => Option CsiVolume
  | .unpublishVolume _ _ => Except VolumeError Unit
  | .mountLocal _ => Except VolumeError Path
  | .unmountLocal _ => Unit

namespace CompositeVolumeManager

abbrev VolumeProgram (α : Type) : Type := Program VolumeSection VolumeSection.Answer α

def ask (op : VolumeSection) : VolumeProgram op.Answer := Program.request op

def invalidClaim (claimName : String) : VolumeError :=
  .volumeMount ("invalid CSI claim name '" ++ claimName ++ "': expected csi://<driver>/<volume-id>")

def noDriverMapping (claimName : String) : VolumeError :=
  .volumeMount ("PVC '" ++ claimName ++
    "' requires CSI driver mapping: use csi://<driver>/<volume-id> or set KUBELET_CSI_DEFAULT_DRIVER")

/-- `defaultDriver` is the variable `KUBELET_CSI_DEFAULT_DRIVER`. -/
def csiDriverAndVolumeId (defaultDriver : Option String) (claimName : String) : Except VolumeError (String × String) :=
  match "csi://".toList.isPrefixOf? claimName.toList with
  | some rest =>
    match splitOnce '/' rest with
    | some (driver,volumeId) =>
      if driver ≠ [] ∧ volumeId ≠ [] then .ok (String.ofList driver,String.ofList volumeId) else .error (invalidClaim claimName)
    | none => .error (invalidClaim claimName)
  | none =>
    match defaultDriver with
    | some driver => if Admission.trim driver ≠ "" then .ok (driver,claimName) else .error (noDriverMapping claimName)
    | none => .error (noDriverMapping claimName)

def csiStagingPath (rootDir : Path) (req : MountRequest) : Path :=
  (((((rootDir.join (.parse "pods")).join (.parse req.podUid)).join (.parse "volumes")).join (.parse "csi")).join
    (.parse "staging")).join (.parse req.volumeName)

def csiContext (rootDir : Path) (req : MountRequest) (driver volumeId : String) : CsiVolumeContext where
  volumeId := volumeId
  volumeAttributes := AList.insert "csi.storage.k8s.io/driver" driver ∅
  targetPath := req.mountPath
  stagingTargetPath := some (csiStagingPath rootDir req)
  readOnly := req.readOnly

def mountCsiPvc (rootDir : Path) (req : MountRequest) (claimName : String) :
    VolumeProgram (Except VolumeError Path) := do
  match csiDriverAndVolumeId (← ask .defaultDriver) claimName with
  | .error e => pure (.error e)
  | .ok (driver,volumeId) =>
    let published : Except VolumeError Unit ← ask (.stageAndPublish (csiContext rootDir req driver volumeId))
    match published with
    | .error e => pure (.error e)
    | .ok () => do
      let _ ← ask (.pushCsiMounted (.ofMounted req.podUid req.volumeName req.mountPath volumeId req.readOnly))
      pure (.ok req.mountPath)

/-- A request is mounted through CSI or handed on to the local manager. -/
abbrev Routed := Path ⊕ MountRequest

/-- The body of the loop over the requests. -/
def mountRequest (rootDir : Path) (req : MountRequest) : VolumeProgram (Except VolumeError Routed) :=
  match req.source with
  | .persistentVolumeClaim claimName readOnly => do
    let pv : Option PersistentVolume ← ask (.resolvePvcToPv req.podNamespace claimName)
    match pv with
    | some pv =>
      match pv.localPath,pv.csi,pv.hostPath with
      | some path, _, _ =>
        pure (.ok (.inr { req with source := .hostPath path (some "Directory"), readOnly := readOnly }))
      | none, some (driver,volumeHandle), _ => do
        let path ← mountCsiPvc rootDir req ("csi://" ++ driver ++ "/" ++ volumeHandle)
        pure (path.map .inl)
      | none, none, some (path,pathType) =>
        pure (.ok (.inr { req with source := .hostPath path pathType, readOnly := readOnly }))
      | none, none, none => do
        let path ← mountCsiPvc rootDir req claimName
        pure (path.map .inl)
    | none => do
      let path ← mountCsiPvc rootDir req claimName
      pure (path.map .inl)
  | _ => pure (.ok (.inr req))

/-- A loop that stops at an error and collects results otherwise. -/
def collect {ι β : Type} (body : ι → VolumeProgram (Except VolumeError β)) : List ι → VolumeProgram (Except VolumeError (List β))
  | [] => pure (.ok [])
  | x :: xs => do
    match ← body x with
    | .error e => pure (.error e)
    | .ok b => do
      let rest ← collect body xs
      pure (rest.map (b :: ·))

def mountVolumes (rootDir : Path) (requests : List MountRequest) : VolumeProgram (Except VolumeError (List Path)) := do
  match ← collect (mountRequest rootDir) requests with
  | .error e => pure (.error e)
  | .ok routed => do
    let paths ← collect (fun req => ask (.mountLocal req)) (routed.filterMap Sum.getRight?)
    pure (paths.map (routed.filterMap Sum.getLeft? ++ ·))

/-- The body of the loop over the requests: a request without a record in the CSI table is
handed on. -/
def unmountRequest (req : UnmountRequest) : VolumeProgram (Except VolumeError (Option UnmountRequest)) := do
  let entry : Option CsiVolume ← ask (.takeCsiMounted req)
  match entry with
  | some v => do
    let unpublished : Except VolumeError Unit ← ask (.unpublishVolume v.volumeId v.val.mountPath)
    pure (unpublished.map fun _ => none)
  | none => pure (.ok (some req))

def unmountVolumes (requests : List UnmountRequest) : VolumeProgram (Except VolumeError Unit) := do
  match ← collect unmountRequest requests with
  | .error e => pure (.error e)
  | .ok handedOn =>
    if (handedOn.filterMap id).isEmpty then pure (.ok ())
    else do
      let _ ← ask (.unmountLocal (handedOn.filterMap id))
      pure (.ok ())

/-! ## Sections -/

/-- What a section leaves to the environment: the directories with a `csi.sock`, the order of a
hash map, what the file system, the API server and the variables of the process answer. -/
structure Choice where
  found : List String := []
  listing : Listing := ⟨id,fun _ => .refl _⟩
  stageDir : Except String Unit := .ok ()
  publishDir : Except String Unit := .ok ()
  defaultDriver : Option String := none
  resolved : Option PersistentVolume := none
  prepared : Except VolumeError Unit := .ok ()

variable (s : CompositeVolumeManager)

def stageAndPublish (ctx : CsiVolumeContext) (choice : Choice) : Except VolumeError Unit × CompositeVolumeManager :=
  let csi := { s.csi with registry := s.csi.registry.scan choice.found }
  match csi.stageVolume ctx choice.stageDir with
  | .error e => (.error e,{ s with csi := csi })
  | .ok (csi,staged) =>
    match csi.publishVolume ctx choice.publishDir with
    | .error e => (.error e,{ s with csi := csi, log := s.log ++ [staged] })
    | .ok (csi,published) => (.ok (),{ s with csi := csi, log := s.log ++ [staged,published] })

def csiVolumes (podUid : String) : List CsiVolume := (s.csiMounted.lookup podUid).getD []

def localVolumes (podUid : String) : List MountedVolume := (s.localMounted.lookup podUid).getD []

def pushCsiMounted (v : CsiVolume) : CompositeVolumeManager :=
  { s with csiMounted := s.csiMounted.insert v.val.podUid (s.csiVolumes v.val.podUid ++ [v]) }

/-- The first record with the name leaves the table, and a pod without records with it. -/
def takeCsiMounted (req : UnmountRequest) : Option CsiVolume × CompositeVolumeManager :=
  let rest := (s.csiVolumes req.podUid).eraseP (req.names)
  ((s.csiVolumes req.podUid).find? (req.names),
    { s with csiMounted := s.csiMounted.setEntry req.podUid (if rest = [] then none else some rest) })

/-- The socket that an unpublish is sent to after the scan that it begins with. -/
def unpublishSocket (choice : Choice) : Path :=
  CsiVolumeManager.unpublishSocket { s.csi with registry := s.csi.registry.scan choice.found } choice.listing

def unpublishVolume (client : Unpublisher) (volumeId : String) (targetPath : Path) (choice : Choice) :
    Except VolumeError Unit × CompositeVolumeManager :=
  match s.csi.unpublishVolume client volumeId targetPath choice.found choice.listing with
  | (csi,rpc,.ok ()) => (.ok (),{ s with csi := csi, log := s.log ++ [rpc] })
  | (csi,_,.error e) => (.error e,{ s with csi := csi })

/-- Where the local manager mounts a volume. -/
def localPath (req : MountRequest) : Except VolumeError Path :=
  let dir := ((s.rootDir.join (.parse "pods")).join (.parse req.podUid)).join (.parse "volumes")
  match req.source with
  | .emptyDir .. => .ok ((dir.join (.parse "kubernetes.io~empty-dir")).join (.parse req.volumeName))
  | .hostPath path _ => .ok (.parse path)
  | .configMap .. => .ok ((dir.join (.parse "kubernetes.io~configmap")).join (.parse req.volumeName))
  | .secret .. => .ok ((dir.join (.parse "kubernetes.io~secret")).join (.parse req.volumeName))
  | .projected .. => .ok ((dir.join (.parse "kubernetes.io~projected")).join (.parse req.volumeName))
  | .downwardAPI .. => .ok ((dir.join (.parse "kubernetes.io~downward-api")).join (.parse req.volumeName))
  | _ => .error (.volumeMount ("Unsupported volume type for '" ++ req.volumeName ++ "'"))

def pushLocal (v : MountedVolume) : CompositeVolumeManager :=
  { s with localMounted := s.localMounted.insert v.podUid (s.localVolumes v.podUid ++ [v]) }

def mountLocal (req : MountRequest) (choice : Choice) : Except VolumeError Path × CompositeVolumeManager :=
  match s.localPath req,choice.prepared with
  | .error e, _ => (.error e,s)
  | .ok _, .error e => (.error e,s)
  | .ok path, .ok () => (.ok path,s.pushLocal ⟨req.podUid,req.volumeName,path,none,req.readOnly⟩)

/-- The records with the name leave the table. The mount of an `emptyDir` in memory goes as
well, and the status of that is dropped. -/
def unmountLocalRequest (req : UnmountRequest) : CompositeVolumeManager :=
  { s with
    localMounted := s.localMounted.insert req.podUid
      ((s.localVolumes req.podUid).filter (fun v => v.volumeName ≠ req.volumeName))
    localUnmounted := s.localUnmounted ++ (s.localVolumes req.podUid).filter (fun v => v.volumeName = req.volumeName) }

def unmountLocal (requests : List UnmountRequest) : CompositeVolumeManager := requests.foldl unmountLocalRequest s

def listMountedVolumes (podUid : String) : List MountedVolume :=
  s.localVolumes podUid ++ (s.csiVolumes podUid).map (·.val)

/-- The answer of a section and the state after it. -/
def perform (client : Unpublisher) (choice : Choice) (s : CompositeVolumeManager) :
    (op : VolumeSection) → op.Answer × CompositeVolumeManager
  | .defaultDriver => (choice.defaultDriver,s)
  | .resolvePvcToPv _ _ => (choice.resolved,s)
  | .stageAndPublish ctx => s.stageAndPublish ctx choice
  | .pushCsiMounted v => ((),s.pushCsiMounted v)
  | .takeCsiMounted req => s.takeCsiMounted req
  | .unpublishVolume volumeId targetPath => s.unpublishVolume client volumeId targetPath choice
  | .mountLocal req => s.mountLocal req choice
  | .unmountLocal requests => ((),s.unmountLocal requests)

/-- A fresh manager has scanned for plugins. -/
def new (rootDir pluginDir : Path) (found : List String) : CompositeVolumeManager where
  rootDir := rootDir
  csi := { registry := CsiPluginRegistry.scan { pluginDir := pluginDir } found }

/-! ## Laws of the sections -/

section Laws
variable {s : CompositeVolumeManager} {podUid : String}

theorem csiVolumes_pushCsiMounted (v : CsiVolume) : (s.pushCsiMounted v).csiVolumes podUid =
    if podUid = v.val.podUid then s.csiVolumes podUid ++ [v] else s.csiVolumes podUid := by
  unfold csiVolumes pushCsiMounted
  split
  · next h =>
    subst h
    rw [AList.lookup_insert]
    rfl
  · next h => rw [AList.lookup_insert_ne h]

theorem csiVolumes_takeCsiMounted (req : UnmountRequest) : (s.takeCsiMounted req).2.csiVolumes podUid =
    if podUid = req.podUid then (s.csiVolumes podUid).eraseP req.names else s.csiVolumes podUid := by
  unfold csiVolumes takeCsiMounted
  split
  · next h =>
    subst h
    rw [HashMap.lookup_setEntry]
    split
    · next hrest => exact hrest.symm
    · rfl
  · next h => rw [HashMap.lookup_setEntry_ne _ h]

/-- A mount that comes to the plugins stages the volume, and publishes it unless that fails. -/
theorem stageAndPublish_cases (ctx : CsiVolumeContext) (choice : Choice) :
    (∃ e csi, s.stageAndPublish ctx choice = (.error e,{ s with csi := csi }) ∧ csi.published = s.csi.published) ∨
    ∃ csi socket req, req.volumeId = ctx.volumeId ∧
      ((∃ e, s.stageAndPublish ctx choice =
          (.error e,{ s with csi := csi, log := s.log ++ [.nodeStageVolume socket req] }) ∧
          csi.published = s.csi.published) ∨
        ∃ socket' req', req'.volumeId = ctx.volumeId ∧ req'.targetPath = ctx.targetPath ∧
          s.stageAndPublish ctx choice = (.ok (),{ s with
            csi := csi
            log := s.log ++ [.nodeStageVolume socket req,.nodePublishVolume socket' req'] }) ∧
          csi.published = s.csi.published.insert ctx.volumeId ctx.targetPath) := by
  unfold stageAndPublish
  dsimp only
  cases hs : CsiVolumeManager.stageVolume { s.csi with registry := s.csi.registry.scan choice.found } ctx choice.stageDir with
  | error e => exact .inl ⟨e,_,rfl,rfl⟩
  | ok staged =>
    obtain ⟨csi,r⟩ := staged
    obtain ⟨hpub,socket,req,rfl,hid⟩ := CsiVolumeManager.stageVolume_eq_ok hs
    right
    dsimp only
    cases hp : csi.publishVolume ctx choice.publishDir with
    | error e => exact ⟨csi,socket,req,hid,.inl ⟨e,rfl,hpub⟩⟩
    | ok published =>
      obtain ⟨csi',r'⟩ := published
      obtain ⟨hpub',socket',req',rfl,hid',htarget⟩ := CsiVolumeManager.publishVolume_eq_ok hp
      exact ⟨csi',socket,req,hid,.inr ⟨socket',req',hid',htarget,rfl,by rw [hpub',hpub]⟩⟩

/-- An unpublish is refused, or the volume is no longer published. -/
theorem unpublishVolume_cases (client : Unpublisher) (volumeId : String) (targetPath : Path) (choice : Choice) :
    (∃ e csi, s.unpublishVolume client volumeId targetPath choice = (.error e,{ s with csi := csi })) ∨
    ∃ csi socket, s.unpublishVolume client volumeId targetPath choice =
      (.ok (),{ s with csi := csi, log := s.log ++ [.nodeUnpublishVolume socket ⟨volumeId,targetPath⟩] }) ∧
      csi.published = s.csi.published.erase volumeId := by
  unfold unpublishVolume CsiVolumeManager.unpublishVolume
  dsimp only
  split
  · next heq =>
    split at heq
    · obtain ⟨rfl,rfl,-⟩ := heq
      exact .inr ⟨_,_,rfl,rfl⟩
    · cases heq
  · exact .inl ⟨_,_,rfl⟩

/-- The local manager works on tables of its own. -/
theorem unmountLocal_frame (requests : List UnmountRequest) : (s.unmountLocal requests).csi = s.csi ∧
    (s.unmountLocal requests).csiMounted = s.csiMounted ∧ (s.unmountLocal requests).log = s.log := by
  unfold unmountLocal
  induction requests generalizing s with
  | nil => exact ⟨rfl,rfl,rfl⟩
  | cons req requests ih => exact ih

theorem mountLocal_frame (req : MountRequest) (choice : Choice) : (s.mountLocal req choice).2.csi = s.csi ∧
    (s.mountLocal req choice).2.csiMounted = s.csiMounted ∧ (s.mountLocal req choice).2.log = s.log := by
  unfold mountLocal
  split
  · exact ⟨rfl,rfl,rfl⟩
  · exact ⟨rfl,rfl,rfl⟩
  · exact ⟨rfl,rfl,rfl⟩

end Laws
end CompositeVolumeManager

end KubeAir.Adapters
