import KubeAir.Accounting.Word
import KubeAir.Adapters.ImageGc
import KubeAir.Adapters.Pressure
import KubeAir.Transition.Stamps

/-! # The image collection loop

The rounds of `run_image_gc_loop`. A round spares the desired pods when no image that it deletes
is one that a reference of theirs resolves to.
-/
namespace KubeAir.Manager.ImageGcLoop
open Core Transition Accounting Adapters Adapters.ImageGc

/-- The clock readings of a round: when an image is tracked, when it is marked, and when the plan
is made. -/
structure GcClock where
  trackedAt : String → DateTime
  markedAt : String → DateTime
  plannedAt : DateTime

/-- What a round meets. A listing is `none` when the call fails. -/
structure GcRound where
  available : Option (List ImageInfo)
  desired : List PodSpec
  availableImgs : Option (List ImageInfo)
  signals : Pressure.ResourceSignals
  clock : GcClock
  /-- the order in which the map of the images is walked -/
  walk : List TrackedImage → List TrackedImage := id
  walk_perm : ∀ images, (walk images).Perm images := by exact fun _ => List.Perm.refl _
  /-- whether the runtime removes the image -/
  removed : String → Bool := fun _ => true

/-- The thresholds are configured in percent. -/
def gcConfig (highThresholdPercent lowThresholdPercent : UInt8) : ImageGcConfig where
  highThreshold := highThresholdPercent.toFloat / 100.0
  lowThreshold := lowThresholdPercent.toFloat / 100.0
  minAge := 120 * 10 ^ 9

/-- The references of the desired pods. -/
def desiredImages (pods : List PodSpec) : List String :=
  pods.flatMap (fun p => (p.containers ++ p.initContainers ++ p.ephemeralContainers).map (·.image))

/-- A tag or a digest of the image is literally a desired reference. -/
def inUse (desired : List String) (img : ImageInfo) : Bool :=
  img.repoTags.any (· ∈ desired) || img.repoDigests.any (· ∈ desired)

/-- One image of the second listing. -/
def mark (desired : List String) (clock : GcClock) (m : ImageGcManager) (img : ImageInfo) : ImageGcManager :=
  if inUse desired img then m.markInUse img.id (clock.markedAt img.id) else m.markNotInUse img.id

namespace GcRound

def used (r : GcRound) : UInt64 := saturatingSub r.signals.imagefsTotalBytes r.signals.imagefsAvailableBytes

def total (r : GcRound) : UInt64 := r.signals.imagefsTotalBytes

end GcRound

/-- The manager once the image is tracked and marked, if both listings come. -/
def marked (m : ImageGcManager) (r : GcRound) : Option ImageGcManager :=
  match r.available, r.availableImgs with
  | some available, some availableImgs =>
    some (availableImgs.foldl (mark (desiredImages r.desired) r.clock) (m.sync available r.clock.trackedAt))
  | _, _ => none

/-- The IDs that the round asks the runtime to remove. -/
def planned (m : ImageGcManager) (r : GcRound) : List String :=
  match marked m r with
  | some m => if r.total = 0 then [] else (m.gcCandidates r.walk r.clock.plannedAt r.used r.total).toDelete
  | none => []

/-- What is removed is forgotten. -/
def step (m : ImageGcManager) (r : GcRound) : ImageGcManager :=
  match r.available with
  | none => m
  | some available =>
    match marked m r with
    | none => m.sync available r.clock.trackedAt
    | some marked => (planned m r).foldl (fun m id => if r.removed id then m.removeImage id else m) marked

/-! ## What a round spares -/

section Law
-- the qualified form that the runtime gives a reference
variable (qualified : String → String)

/-- The reference resolves to the image. -/
def Denotes (ref : String) (img : ImageInfo) : Prop :=
  qualified ref ∈ img.repoTags ∨ qualified ref ∈ img.repoDigests ∨ ref = img.id

/-- A desired pod has a reference that resolves to the image of this ID. -/
def Referenced (r : GcRound) (id : String) : Prop :=
  ∃ img ∈ r.availableImgs.getD [], img.id = id ∧ ∃ ref ∈ desiredImages r.desired, Denotes qualified ref img

def SparesDesired (m : ImageGcManager) (r : GcRound) : Prop := ∀ id ∈ planned m r, ¬Referenced qualified r id

/-- The last entry of the ID in the second listing has a desired reference, spelled as it is, among
its tags and digests. -/
def Named (r : GcRound) (id : String) : Prop :=
  ((r.availableImgs.getD []).reverse.find? (·.id = id)).any (inUse (desiredImages r.desired)) = true

/-- When the disk is full, a tracked image that a desired reference resolves to is named by one, or
it was used lately, or the images that may go and were used before it free enough. -/
def Spared (m : ImageGcManager) (r : GcRound) : Prop :=
  ∀ before, marked m r = some before → r.total ≠ 0 → ¬before.belowHighThreshold r.used r.total →
    ∀ img ∈ before.images.entries.map (·.2), Referenced qualified r img.info.id →
      Named r img.info.id ∨ r.clock.plannedAt - img.lastUsed ≤ before.config.minAge ∨
        EnoughAhead (·.info.sizeBytes) (before.bytesToFree r.used r.total) 0
          (before.eligible r.walk r.clock.plannedAt) img

end Law

variable {qualified : String → String} {m before : ImageGcManager} {r : GcRound} {id : String}

theorem mem_pinned_mark_self {desired : List String} {clock : GcClock} {img : ImageInfo} :
    img.id ∈ (mark desired clock m img).pinned ↔ inUse desired img = true := by
  unfold mark
  split
  · next h => exact iff_of_true (ImageGcManager.mem_pinned_markInUse.mpr (.inl rfl)) h
  · next h => exact iff_of_false (fun hmem => (ImageGcManager.mem_pinned_markNotInUse.mp hmem).1 rfl) h

theorem mem_pinned_mark_ne {desired : List String} {clock : GcClock} {img : ImageInfo} (h : img.id ≠ id) :
    id ∈ (mark desired clock m img).pinned ↔ id ∈ m.pinned := by
  unfold mark
  split
  · rw [ImageGcManager.mem_pinned_markInUse,or_iff_right (Ne.symm h)]
  · rw [ImageGcManager.mem_pinned_markNotInUse,and_iff_right (Ne.symm h)]

/-- The last entry of an image decides whether it is pinned. -/
theorem mem_pinned_foldl_mark {desired : List String} {clock : GcClock} (l : List ImageInfo) :
    id ∈ (l.foldl (mark desired clock) m).pinned ↔
      (l.reverse.find? (·.id = id)).elim (id ∈ m.pinned) (fun img => inUse desired img = true) := by
  induction l using List.reverseRecOn with
  | nil => exact Iff.rfl
  | append_singleton l img ih =>
    rw [List.foldl_concat,List.reverse_concat,List.find?_cons]
    by_cases hid : img.id = id
    · subst hid
      rw [decide_eq_true rfl]
      exact mem_pinned_mark_self
    · rw [decide_eq_false hid]
      exact (mem_pinned_mark_ne hid).trans ih

theorem marked_eq_some : marked m r = some before ↔ ∃ available availableImgs, r.available = some available ∧
    r.availableImgs = some availableImgs ∧
      availableImgs.foldl (mark (desiredImages r.desired) r.clock) (m.sync available r.clock.trackedAt) = before := by
  unfold marked
  cases r.available with
  | none => simp
  | some available => cases r.availableImgs <;> simp

/-- An image of the second listing is pinned when it is named. -/
theorem mem_pinned_marked (h : marked m r = some before) (hid : Referenced qualified r id) :
    id ∈ before.pinned ↔ Named r id := by
  obtain ⟨available,availableImgs,-,hlisted,rfl⟩ := marked_eq_some.mp h
  obtain ⟨img,himg,rfl,-⟩ := hid
  rw [hlisted,Option.getD_some] at himg
  unfold Named
  rw [mem_pinned_foldl_mark,hlisted,Option.getD_some]
  cases hfind : availableImgs.reverse.find? (·.id = img.id) with
  | none =>
    have hne := List.find?_eq_none.mp hfind img (List.mem_reverse.mpr himg)
    exact (hne (decide_eq_true rfl)).elim
  | some last => exact Iff.rfl

theorem mem_planned_iff : id ∈ planned m r ↔ ∃ before, marked m r = some before ∧ r.total ≠ 0 ∧
    id ∈ (before.gcCandidates r.walk r.clock.plannedAt r.used r.total).toDelete := by
  unfold planned
  cases marked m r with
  | none => simp
  | some before => by_cases htotal : r.total = 0 <;> simp [htotal]

theorem sparesDesired_iff : SparesDesired qualified m r ↔ Spared qualified m r := by
  constructor
  · intro h before hbefore htotal hfull img himg hid
    by_contra hnot
    push Not at hnot
    obtain ⟨hunnamed,hold,hroom⟩ := hnot
    have hmay : img ∈ before.eligible r.walk r.clock.plannedAt :=
      (ImageGcManager.mem_eligible r.walk_perm).mpr ⟨himg,fun hpinned => hunnamed ((mem_pinned_marked hbefore hid).mp hpinned),hold⟩
    have hplanned : img.info.id ∈ planned m r :=
      mem_planned_iff.mpr ⟨before,hbefore,htotal,
        ImageGcManager.mem_toDelete_iff.mpr ⟨hfull,img,reached_iff_ahead.mpr ⟨hmay,hroom⟩,rfl⟩⟩
    exact h _ hplanned hid
  · intro h id hplanned hid
    obtain ⟨before,hbefore,htotal,hdelete⟩ := mem_planned_iff.mp hplanned
    obtain ⟨hfull,img,hreached,rfl⟩ := ImageGcManager.mem_toDelete_iff.mp hdelete
    obtain ⟨hmay,hroom⟩ := reached_iff_ahead.mp hreached
    obtain ⟨himg,hpinned,hage⟩ := (ImageGcManager.mem_eligible r.walk_perm).mp hmay
    rcases h before hbefore htotal hfull img himg hid with hnamed | hyoung | henough
    · exact hpinned ((mem_pinned_marked hbefore hid).mpr hnamed)
    · exact absurd hage (not_lt.mpr hyoung)
    · exact hroom henough

/-- In every run, the rounds spare the images that desired pods refer to exactly when each round
finds them named, lately used, or behind enough others. -/
theorem rounds_spare_iff (qualified : String → String) (m : ImageGcManager) (rounds : List GcRound) :
    EachStep step (SparesDesired qualified) m rounds ↔ EachStep step (Spared qualified) m rounds :=
  eachStep_congr (fun _ _ => sparesDesired_iff)

/-- A reference is completed by the registry, the path prefix and the tag that it leaves out. -/
def qualifiedName (ref : String) : String :=
  let chars := ref.toList
  let first := chars.takeWhile (· ≠ '/')
  let last := chars.reverse.takeWhile (· ≠ '/')
  let isPath := first.length < chars.length
  let path :=
    if isPath && (first.contains '.' || first.contains ':' || first == "localhost".toList) then ref
    else if isPath then "docker.io/" ++ ref
    else "docker.io/library/" ++ ref
  if last.contains ':' || last.contains '@' then path else path ++ ":latest"

def nginxImage : ImageInfo where
  id := "sha256:4f06"
  repoTags := ["docker.io/library/nginx:latest"]
  sizeBytes := 20

/-- A desired pod runs `nginx` while 90 of 100 bytes are used. -/
def nginxRound (now : DateTime) : GcRound where
  available := some [nginxImage]
  desired := [{ uid := ⟨"uid-a"⟩, podRef := ⟨"default","web"⟩, containers := [{ name := "app", image := "nginx" }] }]
  availableImgs := some [nginxImage]
  signals := ⟨0,0,0,10,0,0,100⟩
  clock := ⟨fun _ => now,fun _ => now,now⟩

/-- An image that a desired pod names by its short name is deleted five minutes after it came. -/
theorem short_name_deleted : ¬∀ (m : ImageGcManager) (rounds : List GcRound),
    EachStep step (SparesDesired qualifiedName) m rounds := by
  intro h
  have hspares := (h { config := gcConfig 85 80 } [nginxRound 0,nginxRound (300 * 10 ^ 9)]).2.1
  have hplanned : nginxImage.id ∈ planned (step { config := gcConfig 85 80 } (nginxRound 0)) (nginxRound (300 * 10 ^ 9)) := by
    decide +kernel
  have hname : qualifiedName "nginx" ∈ nginxImage.repoTags := by decide +kernel
  have hdesired : "nginx" ∈ desiredImages (nginxRound (300 * 10 ^ 9)).desired := List.mem_cons_self
  exact hspares _ hplanned ⟨nginxImage,List.mem_cons_self,rfl,"nginx",hdesired,.inl hname⟩

end KubeAir.Manager.ImageGcLoop
