import KubeAir.Core.Pod
import KubeAir.Paths.Lexical

/-! # CSI volumes

The plugins that are registered on a node, and the manager that stages, publishes and
unpublishes volumes through their sockets. The client does not make live calls: it answers
from the file system.
-/
namespace KubeAir.Adapters
open Core Paths

/-- The errors that volume managers answer with. -/
inductive VolumeError
  | storage (msg : String)
  | volumeMount (msg : String)
  | io (msg : String)
deriving DecidableEq, Repr

structure CsiPlugin where
  name : String
  socketPath : Path
deriving DecidableEq

structure CsiPluginRegistry where
  plugins : HashMap String CsiPlugin := ∅
  pluginDir : Path

namespace CsiPluginRegistry

def get (r : CsiPluginRegistry) (driverName : String) : Option CsiPlugin := r.plugins.lookup driverName

def values (r : CsiPluginRegistry) : List CsiPlugin := r.plugins.entries.map (fun e => e.2)

/-- The plugin that a scan registers for a directory with a `csi.sock`. -/
def discovered (r : CsiPluginRegistry) (driverName : String) : CsiPlugin :=
  ⟨driverName,(r.pluginDir.join (.parse driverName)).join (.parse "csi.sock")⟩

/-- `found` are the directories with a `csi.sock`. -/
def scan (r : CsiPluginRegistry) (found : List String) : CsiPluginRegistry :=
  { r with plugins := found.foldl (fun plugins driverName =>
      if driverName = "" ∨ (plugins.lookup driverName).isSome then plugins
      else plugins.insert driverName (r.discovered driverName)) r.plugins }

variable {r : CsiPluginRegistry} {found found' : List String}

theorem scan_scan : (r.scan found).scan found' = r.scan (found ++ found') := by
  unfold scan
  rw [List.foldl_append]
  rfl

/-- A directory whose driver is registered is passed over. -/
theorem scan_eq_self (h : ∀ driverName ∈ found, driverName = "" ∨ (r.get driverName).isSome = true) : r.scan found = r := by
  induction found with
  | nil => rfl
  | cons driverName found ih =>
    have hknown := h driverName List.mem_cons_self
    unfold get at hknown
    have hhead : r.scan (driverName :: found) = r.scan found := by
      unfold scan
      rw [List.foldl_cons,if_pos hknown]
    rw [hhead]
    exact ih fun d hd => h d (List.mem_cons_of_mem driverName hd)

theorem get_scan_of_get {driverName : String} (h : (r.get driverName).isSome = true) :
    ((r.scan found).get driverName).isSome = true := by
  induction found generalizing r with
  | nil => exact h
  | cons d found ih =>
    change ((r.scan ([d] ++ found)).get driverName).isSome = true
    rw [← scan_scan]
    refine ih ?_
    unfold scan get
    rw [List.foldl_cons,List.foldl_nil]
    dsimp only
    split
    · exact h
    · next hnew =>
      by_cases hd : driverName = d
      · rw [hd,AList.lookup_insert]
        rfl
      · rw [AList.lookup_insert_ne hd]
        exact h

/-- What a scan has found is registered. -/
theorem get_scan {driverName : String} (h : driverName ∈ found) (hne : driverName ≠ "") :
    ((r.scan found).get driverName).isSome = true := by
  induction found generalizing r with
  | nil => cases h
  | cons d found ih =>
    change ((r.scan ([d] ++ found)).get driverName).isSome = true
    rw [← scan_scan]
    rcases List.mem_cons.mp h with rfl | h
    · refine get_scan_of_get ?_
      unfold scan get
      rw [List.foldl_cons,List.foldl_nil]
      dsimp only
      split
      · next hknown => exact hknown.resolve_left hne
      · rw [AList.lookup_insert]
        rfl
    · exact ih h

/-- A second look at the same directories finds nothing. -/
theorem scan_again : (r.scan found).scan found = r.scan found :=
  scan_eq_self fun _ hd => or_iff_not_imp_left.mpr fun hne => get_scan hd hne

end CsiPluginRegistry

/-- An order in which the entries of a hash map are visited. -/
structure Listing where
  order : List CsiPlugin → List CsiPlugin
  perm : ∀ l, (order l).Perm l

def CsiPluginRegistry.list (r : CsiPluginRegistry) (listing : Listing) : List CsiPlugin := listing.order r.values

structure CsiVolumeContext where
  volumeId : String
  volumeAttributes : HashMap String String
  targetPath : Path
  stagingTargetPath : Option Path
  readOnly : Bool

structure NodeStageVolumeRequest where
  volumeId : String
  stagingTargetPath : Path
  volumeContext : HashMap String String

structure NodePublishVolumeRequest where
  volumeId : String
  stagingTargetPath : Path
  targetPath : Path
  readonly : Bool
  volumeContext : HashMap String String

structure NodeUnpublishVolumeRequest where
  volumeId : String
  targetPath : Path
deriving DecidableEq

structure NodeUnstageVolumeRequest where
  volumeId : String
  stagingTargetPath : Path
deriving DecidableEq

/-- The calls that a client can make, with the socket of the plugin. -/
inductive Rpc
  | nodeStageVolume (socket : Path) (req : NodeStageVolumeRequest)
  | nodePublishVolume (socket : Path) (req : NodePublishVolumeRequest)
  | nodeUnpublishVolume (socket : Path) (req : NodeUnpublishVolumeRequest)
  | nodeUnstageVolume (socket : Path) (req : NodeUnstageVolumeRequest)

/-- The answer to an unpublish. -/
abbrev Unpublisher := (socket : Path) → NodeUnpublishVolumeRequest → Except VolumeError Unit

namespace CsiClient

/-- `dir` is the outcome of creating the parent of the staging directory. -/
def nodeStageVolume (dir : Except String Unit) : Except VolumeError Unit :=
  dir.mapError (fun e => .storage ("stage dir: " ++ e))

/-- `dir` is the outcome of creating the target directory. -/
def nodePublishVolume (dir : Except String Unit) : Except VolumeError Unit :=
  dir.mapError (fun e => .storage ("publish dir: " ++ e))

/-- The target directory is removed if it is empty, and the outcome is dropped. -/
def nodeUnpublishVolume : Unpublisher := fun _ _ => .ok ()

end CsiClient

structure CsiVolumeManager where
  registry : CsiPluginRegistry
  published : HashMap String Path := ∅
  staged : HashMap String Path := ∅

namespace CsiVolumeManager

def driverName (ctx : CsiVolumeContext) : Option String := ctx.volumeAttributes.lookup "csi.storage.k8s.io/driver"

def missingDriver : VolumeError := .storage "missing csi.storage.k8s.io/driver attribute"

/-- `PathBuf::from("/tmp/fake-csi.sock")`. -/
def fakeSocket : Path := .parse "/tmp/fake-csi.sock"

/-- The manager after a call, and the call. -/
def stageVolume (s : CsiVolumeManager) (ctx : CsiVolumeContext) (dir : Except String Unit) :
    Except VolumeError (CsiVolumeManager × Rpc) :=
  match driverName ctx with
  | none => .error missingDriver
  | some driver =>
    match s.registry.get driver with
    | none => .error (.storage ("no CSI plugin registered for driver '" ++ driver ++ "'"))
    | some plugin =>
      let staging := ctx.stagingTargetPath.getD (.parse "")
      (CsiClient.nodeStageVolume dir).map fun _ => ({ s with staged := s.staged.insert ctx.volumeId staging },
        .nodeStageVolume plugin.socketPath ⟨ctx.volumeId,staging,ctx.volumeAttributes⟩)

def publishVolume (s : CsiVolumeManager) (ctx : CsiVolumeContext) (dir : Except String Unit) :
    Except VolumeError (CsiVolumeManager × Rpc) :=
  match driverName ctx with
  | none => .error missingDriver
  | some driver =>
    let socketPath := ((s.registry.get driver).map (·.socketPath)).getD fakeSocket
    let staging := (s.staged.lookup ctx.volumeId).getD (ctx.stagingTargetPath.getD (.parse "/var/lib/kubelet/plugins"))
    (CsiClient.nodePublishVolume dir).map fun _ =>
      ({ s with published := s.published.insert ctx.volumeId ctx.targetPath },
        .nodePublishVolume socketPath ⟨ctx.volumeId,staging,ctx.targetPath,ctx.readOnly,ctx.volumeAttributes⟩)

/-- The socket that an unpublish is sent to. -/
def unpublishSocket (s : CsiVolumeManager) (listing : Listing) : Path :=
  ((s.registry.list listing).head?.map (·.socketPath)).getD fakeSocket

/-- The manager after a call, the call, and its answer. -/
def unpublishVolume (client : Unpublisher) (s : CsiVolumeManager) (volumeId : String) (targetPath : Path)
    (found : List String) (listing : Listing) : CsiVolumeManager × Rpc × Except VolumeError Unit :=
  let s := { s with registry := s.registry.scan found }
  let socketPath := s.unpublishSocket listing
  let req := ⟨volumeId,targetPath⟩
  match client socketPath req with
  | .ok () => ({ s with published := s.published.erase volumeId },.nodeUnpublishVolume socketPath req,.ok ())
  | .error e => (s,.nodeUnpublishVolume socketPath req,.error e)

def isPublished (s : CsiVolumeManager) (volumeId : String) : Bool := (s.published.lookup volumeId).isSome

def isStaged (s : CsiVolumeManager) (volumeId : String) : Bool := (s.staged.lookup volumeId).isSome

section Laws
variable {s s' : CsiVolumeManager} {ctx : CsiVolumeContext} {dir : Except String Unit} {r : Rpc}

theorem stageVolume_eq_ok (h : s.stageVolume ctx dir = .ok (s',r)) : s'.published = s.published ∧
    ∃ socket req, r = .nodeStageVolume socket req ∧ req.volumeId = ctx.volumeId := by
  unfold stageVolume at h
  split at h
  · cases h
  · split at h
    · cases h
    · cases dir with
      | error e => cases h
      | ok _ =>
        obtain ⟨rfl,rfl⟩ := Prod.mk.inj (Except.ok.inj h)
        exact ⟨rfl,_,_,rfl,rfl⟩

theorem publishVolume_eq_ok (h : s.publishVolume ctx dir = .ok (s',r)) :
    s'.published = s.published.insert ctx.volumeId ctx.targetPath ∧ ∃ socket req,
      r = .nodePublishVolume socket req ∧ req.volumeId = ctx.volumeId ∧ req.targetPath = ctx.targetPath := by
  unfold publishVolume at h
  split at h
  · cases h
  · cases dir with
    | error e => cases h
    | ok _ =>
      obtain ⟨rfl,rfl⟩ := Prod.mk.inj (Except.ok.inj h)
      exact ⟨rfl,_,_,rfl,rfl,rfl⟩

end Laws
end CsiVolumeManager
end KubeAir.Adapters
