import KubeAir.Core.Pod
import KubeAir.Transition.Ranking
import Mathlib.Data.Finset.Insert
import Mathlib.Data.List.Sort
import Mathlib.Data.UInt

/-! # Image garbage collection

The manager keeps the images of the last listing with the time of their last use, and the IDs
that are in use. When the disk fills up it plans to delete the images that were used longest ago.
-/
namespace KubeAir.Adapters.ImageGc
open Core Transition

structure ImageInfo where
  id : String
  repoTags : List String := []
  repoDigests : List String := []
  sizeBytes : UInt64
deriving DecidableEq, Repr

structure TrackedImage where
  info : ImageInfo
  lastUsed : DateTime
  inUse : Bool
deriving DecidableEq, Repr

structure ImageGcConfig where
  /-- disk usage that triggers a collection, between 0 and 1 -/
  highThreshold : Float := 0.85
  /-- disk usage after it -/
  lowThreshold : Float := 0.80
  /-- in nanoseconds -/
  minAge : ℤ := 120 * 10 ^ 9

structure GcPlan where
  toDelete : List String
  bytesToFree : UInt64

structure ImageGcManager where
  config : ImageGcConfig
  images : HashMap String TrackedImage := ∅
  pinned : Finset String := ∅

namespace ImageGcManager

/-- An image that is tracked already keeps its entry. -/
def trackImage (m : ImageGcManager) (info : ImageInfo) (now : DateTime) : ImageGcManager :=
  match m.images.lookup info.id with
  | some _ => m
  | none => { m with images := m.images.insert info.id ⟨info,now,false⟩ }

def markInUse (m : ImageGcManager) (imageId : String) (now : DateTime) : ImageGcManager :=
  { m with
    pinned := insert imageId m.pinned
    images :=
      match m.images.lookup imageId with
      | some img => m.images.insert imageId { img with lastUsed := now, inUse := true }
      | none => m.images }

def markNotInUse (m : ImageGcManager) (imageId : String) : ImageGcManager :=
  { m with
    pinned := m.pinned.erase imageId
    images :=
      match m.images.lookup imageId with
      | some img => m.images.insert imageId { img with inUse := false }
      | none => m.images }

def removeImage (m : ImageGcManager) (imageId : String) : ImageGcManager :=
  { m with
    images := m.images.erase imageId
    pinned := m.pinned.erase imageId }

/-- Images that are no longer there are dropped, new ones are tracked at the time that the clock
shows for them. -/
def sync (m : ImageGcManager) (available : List ImageInfo) (clock : String → DateTime) : ImageGcManager :=
  available.foldl (fun m img => m.trackImage img (clock img.id))
    { m with
      images := m.images.filterMapValues (fun id img => if id ∈ available.map (·.id) then some img else none) }

/-- The images that may be deleted, those that were used longest ago first. `walk` is the order in
which the map is iterated; the sort is stable. -/
def eligible (m : ImageGcManager) (walk : List TrackedImage → List TrackedImage) (now : DateTime) :
    List TrackedImage :=
  ((walk (m.images.entries.map (·.2))).filter
    (fun img => img.info.id ∉ m.pinned ∧ m.config.minAge < now - img.lastUsed)).insertionSort
      (fun a b => a.lastUsed ≤ b.lastUsed)

/-- `used as f64 / total as f64 <= high_threshold`. -/
def belowHighThreshold (m : ImageGcManager) (used total : UInt64) : Prop :=
  used.toFloat / total.toFloat ≤ m.config.highThreshold

instance (m : ImageGcManager) (used total : UInt64) : Decidable (m.belowHighThreshold used total) :=
  inferInstanceAs (Decidable (_ ≤ _))

def bytesToFree (m : ImageGcManager) (used total : UInt64) : UInt64 :=
  (max (used.toFloat - m.config.lowThreshold * total.toFloat) 0.0).toUInt64

def gcCandidates (m : ImageGcManager) (walk : List TrackedImage → List TrackedImage) (now : DateTime)
    (used total : UInt64) : GcPlan :=
  if m.belowHighThreshold used total then ⟨[],0⟩
  else
    { toDelete :=
        (takeUpTo (·.info.sizeBytes) (m.bytesToFree used total) 0 (m.eligible walk now)).map (·.info.id)
      bytesToFree := m.bytesToFree used total }

variable {m : ImageGcManager} {walk : List TrackedImage → List TrackedImage} {now : DateTime} {used total : UInt64}
variable {id imageId : String}

theorem mem_pinned_markInUse : id ∈ (m.markInUse imageId now).pinned ↔ id = imageId ∨ id ∈ m.pinned :=
  Finset.mem_insert

theorem mem_pinned_markNotInUse : id ∈ (m.markNotInUse imageId).pinned ↔ id ≠ imageId ∧ id ∈ m.pinned :=
  Finset.mem_erase

theorem mem_eligible (hwalk : ∀ l, (walk l).Perm l) {img : TrackedImage} : img ∈ m.eligible walk now ↔
    img ∈ m.images.entries.map (·.2) ∧ img.info.id ∉ m.pinned ∧ m.config.minAge < now - img.lastUsed := by
  unfold eligible
  rw [(List.perm_insertionSort _ _).mem_iff,List.mem_filter,(hwalk _).mem_iff,decide_eq_true_iff]

/-- An image is to be deleted when it may be, and those used before it do not free enough. -/
theorem mem_toDelete_iff : id ∈ (m.gcCandidates walk now used total).toDelete ↔
    ¬m.belowHighThreshold used total ∧
      ∃ img, Reached (·.info.sizeBytes) (m.bytesToFree used total) 0 (m.eligible walk now) img ∧ img.info.id = id := by
  unfold gcCandidates
  split
  · next h => exact iff_of_false List.not_mem_nil (fun h' => h'.1 h)
  · next h => simp only [List.mem_map,mem_takeUpTo_iff,h,not_false_eq_true,true_and]

end ImageGcManager
end KubeAir.Adapters.ImageGc
