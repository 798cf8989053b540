import KubeAir.Accounting.Word
import KubeAir.Adapters.ImageGc
import KubeAir.Wire.Binary64

/-! # The plan of an image collection

What a plan should delete, by the exact numbers of bytes, and when the plan that is made in doubles
and words does so.
-/
namespace KubeAir.Adapters.ImageGc
open Core Transition Accounting Wire.Binary64

/-- The thresholds of a configuration, as the numbers that they are. -/
structure Thresholds where
  high : ℚ
  low : ℚ
  low_lt : low < high

/-- An order in which the map of the images is walked. -/
abbrev Walk := { order : List TrackedImage → List TrackedImage // ∀ images, (order images).Perm images }

/-! ## Rounded plans -/

/-- `disk_used_bytes as f64 / disk_total_bytes as f64`. -/
def usedFraction (used total : UInt64) : ℚ := toF64 (toF64 used.toNat / toF64 total.toNat)

/-- `current_usage - target_usage`. -/
def Thresholds.difference (th : Thresholds) (used total : UInt64) : ℚ :=
  toF64 (toF64 used.toNat - toF64 (th.low * toF64 total.toNat))

/-- `.max(0.0) as u64`, which drops the fraction and stops at the largest word. -/
def Thresholds.bytesToFree (th : Thresholds) (used total : UInt64) : UInt64 :=
  UInt64.ofNat (min ⌊max (th.difference used total) 0⌋₊ (2 ^ 64 - 1))

/-- The plan once it is known whether the usage is low enough and what is to be freed. -/
def planFor (below : Prop) [Decidable below] (bytesToFree : UInt64) (eligible : List TrackedImage) : GcPlan :=
  if below then ⟨[],0⟩
  else
    { toDelete := (takeUpTo (·.info.sizeBytes) bytesToFree 0 eligible).map (·.info.id)
      bytesToFree := bytesToFree }

def Thresholds.gcCandidates (th : Thresholds) (m : ImageGcManager) (walk : Walk) (now : DateTime) (used total : UInt64) :
    GcPlan :=
  planFor (usedFraction used total ≤ th.high) (th.bytesToFree used total) (m.eligible walk now)

/-- Either kind of arithmetic makes the plan in one way. -/
theorem ImageGcManager.gcCandidates_eq_planFor (m : ImageGcManager) (walk : Walk) (now : DateTime) (used total : UInt64) :
    m.gcCandidates walk now used total =
      planFor (m.belowHighThreshold used total) (m.bytesToFree used total) (m.eligible walk now) := rfl

/-! ## Histories -/

inductive Call
  | sync (available : List ImageInfo) (clock : String → DateTime)
  | markInUse (imageId : String) (now : DateTime)
  | markNotInUse (imageId : String)
  | removeImage (imageId : String)

def Call.apply (m : ImageGcManager) : Call → ImageGcManager
  | sync available clock => m.sync available clock
  | markInUse imageId now => m.markInUse imageId now
  | markNotInUse imageId => m.markNotInUse imageId
  | removeImage imageId => m.removeImage imageId

/-- The manager after some calls. -/
def after (config : ImageGcConfig) (calls : List Call) : ImageGcManager := calls.foldl Call.apply { config := config }

/-- Images are kept by their own IDs. -/
def Keyed (m : ImageGcManager) : Prop := ∀ id img, m.images.lookup id = some img → img.info.id = id

variable {m : ImageGcManager} {config : ImageGcConfig} {now : DateTime} {imageId : String}

/-- An image that is written under its own ID. -/
theorem Keyed.of_insert (h : Keyed m) {new img : TrackedImage} {id : String}
    (himg : (m.images.insert imageId new).lookup id = some img) (hnew : new.info.id = imageId) : img.info.id = id := by
  rcases HashMap.lookup_insert_eq_some.mp himg with ⟨rfl,rfl⟩ | ⟨-,hold⟩
  · exact hnew
  · exact h id img hold

theorem Keyed.trackImage (h : Keyed m) (info : ImageInfo) (now : DateTime) : Keyed (m.trackImage info now) := by
  intro id img himg
  unfold ImageGcManager.trackImage at himg
  split at himg
  · exact h id img himg
  · exact h.of_insert himg rfl

theorem Keyed.markInUse (h : Keyed m) : Keyed (m.markInUse imageId now) := by
  intro id img himg
  unfold ImageGcManager.markInUse at himg
  dsimp only at himg
  split at himg
  · next old hold => exact h.of_insert himg (h imageId old hold)
  · exact h id img himg

theorem Keyed.markNotInUse (h : Keyed m) : Keyed (m.markNotInUse imageId) := by
  intro id img himg
  unfold ImageGcManager.markNotInUse at himg
  dsimp only at himg
  split at himg
  · next old hold => exact h.of_insert himg (h imageId old hold)
  · exact h id img himg

theorem Keyed.removeImage (h : Keyed m) : Keyed (m.removeImage imageId) := by
  intro id img himg
  exact h id img (HashMap.lookup_erase_eq_some.mp himg).2

theorem Keyed.foldl_trackImage (h : Keyed m) (available : List ImageInfo) (clock : String → DateTime) :
    Keyed (available.foldl (fun m img => m.trackImage img (clock img.id)) m) := by
  induction available generalizing m with
  | nil => exact h
  | cons info rest ih => exact ih (h.trackImage info (clock info.id))

theorem Keyed.sync (h : Keyed m) (available : List ImageInfo) (clock : String → DateTime) : Keyed (m.sync available clock) := by
  unfold ImageGcManager.sync
  refine Keyed.foldl_trackImage ?_ available clock
  intro id img himg
  rw [HashMap.lookup_filterMapValues] at himg
  obtain ⟨old,hold,hif⟩ := Option.bind_eq_some_iff.mp himg
  split at hif
  · cases hif
    exact h id _ hold
  · cases hif

theorem Keyed.apply (h : Keyed m) (call : Call) : Keyed (call.apply m) := by
  cases call with
  | sync available clock => exact h.sync available clock
  | markInUse imageId now => exact h.markInUse
  | markNotInUse imageId => exact h.markNotInUse
  | removeImage imageId => exact h.removeImage

theorem keyed_after (config : ImageGcConfig) (calls : List Call) : Keyed (after config calls) := by
  have hfold : ∀ m, Keyed m → Keyed (calls.foldl Call.apply m) := by
    intro m h
    induction calls generalizing m with
    | nil => exact h
    | cons call calls ih => exact ih _ (h.apply call)
  exact hfold _ fun id img himg => by cases himg

/-! ## What a plan should delete -/

/-- The image may be deleted. -/
def Eligible (m : ImageGcManager) (now : DateTime) (img : TrackedImage) : Prop :=
  m.images.lookup img.info.id = some img ∧ img.info.id ∉ m.pinned ∧ m.config.minAge < now - img.lastUsed

/-- The images that may be deleted, those that were used longest ago first. -/
structure Ranks (m : ImageGcManager) (now : DateTime) (ranked : List TrackedImage) : Prop where
  nodup : ranked.Nodup
  mem_iff : ∀ img, img ∈ ranked ↔ Eligible m now img
  sorted : ranked.Pairwise (fun a b => a.lastUsed ≤ b.lastUsed)

def bytes (images : List TrackedImage) : ℕ := exactSum (·.info.sizeBytes) images

/-- The bytes above the low threshold. -/
def Thresholds.need (th : Thresholds) (used total : UInt64) : ℚ := used.toNat - th.low * total.toNat

/-- The IDs are those of the fewest images that free so much, or of all if they do not. -/
structure IsPlan (m : ImageGcManager) (now : DateTime) (need : ℚ) (ids : List String) : Prop where
  nodup : ids.Nodup
  unpinned : ∀ id ∈ ids, id ∉ m.pinned
  old : ∀ id ∈ ids, ∀ img, m.images.lookup id = some img → m.config.minAge < now - img.lastUsed
  shortest : ∃ ranked chosen, Ranks m now ranked ∧ ShortestPrefix (fun p => need ≤ bytes p) ranked chosen ∧
    ids = chosen.map (·.info.id)

/-- Nothing is deleted up to the high threshold, and above it what should be. -/
structure PlansRight (th : Thresholds) (m : ImageGcManager) (walk : Walk) (now : DateTime) (used total : UInt64) : Prop where
  below : (used.toNat : ℚ) / total.toNat ≤ th.high → (th.gcCandidates m walk now used total).toDelete = []
  above : th.high < (used.toNat : ℚ) / total.toNat →
    IsPlan m now (th.need used total) (th.gcCandidates m walk now used total).toDelete

variable {walk : Walk} {need : ℚ} {ids : List String} {chosen : List TrackedImage}

theorem mem_images_iff (h : Keyed m) {img : TrackedImage} :
    img ∈ m.images.entries.map (·.2) ↔ m.images.lookup img.info.id = some img := by
  constructor
  · intro hmem
    obtain ⟨e,he,rfl⟩ := List.mem_map.mp hmem
    have hlookup : m.images.lookup e.1 = some e.2 := AList.mem_lookup_iff.mpr he
    rwa [h e.1 e.2 hlookup]
  · intro hlookup
    exact List.mem_map.mpr ⟨_,AList.mem_lookup_iff.mp (show img ∈ m.images.lookup img.info.id from hlookup),rfl⟩

theorem nodup_images (h : Keyed m) : ((m.images.entries.map (·.2)).map (·.info.id)).Nodup := by
  have hkeys : (m.images.entries.map (·.2)).map (·.info.id) = m.images.entries.map (·.1) := by
    rw [List.map_map]
    refine List.map_congr_left fun e he => ?_
    exact h e.1 e.2 (AList.mem_lookup_iff.mpr he)
  rw [hkeys]
  exact m.images.nodupKeys

theorem nodup_ids_eligible (h : Keyed m) : ((m.eligible walk now).map (·.info.id)).Nodup := by
  unfold ImageGcManager.eligible
  have hperm := (List.perm_insertionSort (fun a b : TrackedImage => a.lastUsed ≤ b.lastUsed)
    ((walk.val (m.images.entries.map (·.2))).filter
      (fun img => img.info.id ∉ m.pinned ∧ m.config.minAge < now - img.lastUsed))).map (·.info.id)
  rw [hperm.nodup_iff]
  have hwalked := ((walk.property (m.images.entries.map (·.2))).map (·.info.id)).nodup_iff.mpr (nodup_images h)
  exact hwalked.sublist (List.filter_sublist.map _)

/-- The images that the code lists rank those that may be deleted. -/
theorem ranks_eligible (h : Keyed m) : Ranks m now (m.eligible walk now) where
  nodup := (nodup_ids_eligible h).of_map
  mem_iff img := by rw [ImageGcManager.mem_eligible walk.property,mem_images_iff h,Eligible]
  sorted := List.pairwise_insertionSort _ _

/-- The IDs tell the images apart. -/
theorem eq_of_ids {chosen' : List TrackedImage} (h : ∀ img ∈ chosen, Eligible m now img)
    (h' : ∀ img ∈ chosen', Eligible m now img) (hids : chosen.map (·.info.id) = chosen'.map (·.info.id)) :
    chosen = chosen' := by
  have hlookup : ∀ l : List TrackedImage, (∀ img ∈ l, Eligible m now img) →
      (l.map (·.info.id)).map m.images.lookup = l.map some := by
    intro l hl
    rw [List.map_map]
    exact List.map_congr_left fun img himg => (hl img himg).1
  refine List.map_injective_iff.mpr (Option.some_injective _) ?_
  rw [← hlookup chosen h,← hlookup chosen' h',hids]

/-- The first images of the code's list make a plan exactly if they are the fewest. -/
theorem isPlan_iff (hkeyed : Keyed m) (hchosen : chosen <+: m.eligible walk now) :
    IsPlan m now need (chosen.map (·.info.id)) ↔ ShortestPrefix (fun p => need ≤ bytes p) (m.eligible walk now) chosen := by
  have hranks : Ranks m now (m.eligible walk now) := ranks_eligible hkeyed
  have heligible : ∀ img ∈ chosen, Eligible m now img := fun img himg => (hranks.mem_iff img).mp (hchosen.subset himg)
  constructor
  · rintro ⟨-,-,-,ranked,chosen',hranked,hshortest,hids⟩
    have hsame : chosen = chosen' := by
      refine eq_of_ids heligible (fun img himg => ?_) hids
      exact (hranked.mem_iff img).mp (hshortest.begins.subset himg)
    subst hsame
    refine ⟨hchosen,hshortest.enough_or_all.imp_right fun hall => ?_,hshortest.minimal⟩
    have hperm : ranked.Perm (m.eligible walk now) :=
      (List.perm_ext_iff_of_nodup hranked.nodup hranks.nodup).mpr fun img =>
        (hranked.mem_iff img).trans (hranks.mem_iff img).symm
    exact hchosen.eq_of_length (by rw [hall,hperm.length_eq])
  · intro hshortest
    refine ⟨(nodup_ids_eligible hkeyed).sublist (hchosen.sublist.map _),?_,?_,_,chosen,hranks,hshortest,rfl⟩
    · intro id hid
      obtain ⟨img,himg,rfl⟩ := List.mem_map.mp hid
      exact (heligible img himg).2.1
    · intro id hid img hlookup
      obtain ⟨img',himg',rfl⟩ := List.mem_map.mp hid
      have hsame := (heligible img' himg').1.symm.trans hlookup
      cases hsame
      exact (heligible _ himg').2.2

/-! ## Rounding and wrapping -/

/-- The wrapped sum reaches the difference that doubles give, but for the fraction dropped. -/
def Thresholds.Suffices (th : Thresholds) (used total : UInt64) (sum : ℕ) : Prop :=
  th.difference used total < (sum % 2 ^ 64 : ℕ) + 1 ∨ sum % 2 ^ 64 = 2 ^ 64 - 1

/-- Doubles are on the right side of the high threshold, and of the need at every sum up to the
first that reaches it. -/
structure PlansExactly (th : Thresholds) (m : ImageGcManager) (walk : Walk) (now : DateTime) (used total : UInt64) : Prop where
  below : (used.toNat : ℚ) / total.toNat ≤ th.high →
    usedFraction used total ≤ th.high ∨ m.eligible walk now = [] ∨ th.difference used total < 1
  above : th.high < (used.toNat : ℚ) / total.toNat → m.eligible walk now = [] ∨ th.high < usedFraction used total ∧
    ∀ q, q <+: m.eligible walk now → q ≠ m.eligible walk now →
      (∀ r, r <+: q → r ≠ q → ¬th.need used total ≤ bytes r) →
        (th.Suffices used total (bytes q) ↔ th.need used total ≤ bytes q)

variable {th : Thresholds} {used total : UInt64}

theorem bytesToFree_le_iff {n : UInt64} : th.bytesToFree used total ≤ n ↔
    th.difference used total < n.toNat + 1 ∨ n.toNat = 2 ^ 64 - 1 := by
  have hlt := n.toNat_lt
  have hword : (th.bytesToFree used total).toNat = min ⌊max (th.difference used total) 0⌋₊ (2 ^ 64 - 1) := by
    unfold Thresholds.bytesToFree
    rw [UInt64.toNat_ofNat']
    exact Nat.mod_eq_of_lt (by omega)
  have hfloor : ⌊max (th.difference used total) 0⌋₊ ≤ n.toNat ↔ th.difference used total < n.toNat + 1 := by
    rw [← Nat.lt_succ_iff,Nat.floor_lt (le_max_right _ _),max_lt_iff]
    push_cast
    exact and_iff_left (by positivity)
  rw [UInt64.le_iff_toNat_le,hword,min_le_iff,hfloor]
  exact or_congr_right (by omega)

theorem toNat_foldl_bytes (l : List TrackedImage) :
    (l.foldl (fun n (img : TrackedImage) => n + img.info.sizeBytes) 0).toNat = bytes l % 2 ^ 64 := by
  rw [toNat_foldl_add_mod,UInt64.toNat_zero,Nat.zero_add]
  rfl

/-- What the loop takes are the fewest images whose wrapped sum suffices. -/
theorem takeUpTo_suffices (l : List TrackedImage) :
    ShortestPrefix (fun p => th.Suffices used total (bytes p)) l
      (takeUpTo (·.info.sizeBytes) (th.bytesToFree used total) 0 l) := by
  have h := takeUpTo_shortest (·.info.sizeBytes) (th.bytesToFree used total) 0 l
  have hsame : (fun p : List TrackedImage => th.bytesToFree used total ≤
      p.foldl (fun n (img : TrackedImage) => n + img.info.sizeBytes) 0) = fun p => th.Suffices used total (bytes p) := by
    funext p
    rw [bytesToFree_le_iff,toNat_foldl_bytes,Thresholds.Suffices]
  rwa [hsame] at h

theorem suffices_nil_iff : th.Suffices used total (bytes []) ↔ th.difference used total < 1 := by
  have hzero : bytes [] % 2 ^ 64 = 0 := rfl
  rw [Thresholds.Suffices,hzero,Nat.cast_zero,zero_add]
  exact or_iff_left (by norm_num)

theorem toDelete_of_below (h : usedFraction used total ≤ th.high) :
    (th.gcCandidates m walk now used total).toDelete = ([] : List TrackedImage).map (·.info.id) :=
  congrArg GcPlan.toDelete (if_pos h)

theorem toDelete_of_above (h : ¬usedFraction used total ≤ th.high) : (th.gcCandidates m walk now used total).toDelete =
    (takeUpTo (·.info.sizeBytes) (th.bytesToFree used total) 0 (m.eligible walk now)).map (·.info.id) :=
  congrArg GcPlan.toDelete (if_neg h)

/-- Above the high threshold there is something to free. -/
theorem need_pos (htotal : 0 < total) (h : th.high < (used.toNat : ℚ) / total.toNat) : 0 < th.need used total := by
  have hpos : (0 : ℚ) < total.toNat := Nat.cast_pos.mpr (UInt64.lt_iff_toNat_lt.mp htotal)
  have hlow := (lt_div_iff₀ hpos).mp (th.low_lt.trans h)
  exact sub_pos.mpr hlow

/-- A plan is right just when neither rounding nor wrapping changes a decision. -/
theorem plansRight_iff (th : Thresholds) (config : ImageGcConfig) (calls : List Call) (walk : Walk) (now : DateTime)
    (used total : UInt64) (htotal : 0 < total) :
    PlansRight th (after config calls) walk now used total ↔ PlansExactly th (after config calls) walk now used total := by
  have hkeyed := keyed_after config calls
  have htaken : ShortestPrefix (fun p => th.Suffices used total (bytes p)) _ _ :=
    takeUpTo_suffices ((after config calls).eligible walk now)
  have hnone : ∀ husage : th.high < (used.toNat : ℚ) / total.toNat, ¬th.need used total ≤ bytes [] := fun husage hle =>
    absurd (need_pos htotal husage) (not_lt.mpr (hle.trans_eq Nat.cast_zero))
  by_cases hbelow : usedFraction used total ≤ th.high
  · have hdelete : (th.gcCandidates (after config calls) walk now used total).toDelete = _ := toDelete_of_below hbelow
    constructor
    · rintro ⟨-,habove⟩
      refine ⟨fun _ => .inl hbelow,fun husage => .inl ?_⟩
      have hplan := habove husage
      rw [hdelete,isPlan_iff hkeyed List.nil_prefix,shortestPrefix_nil_iff] at hplan
      exact hplan.resolve_left (hnone husage)
    · rintro ⟨-,habove⟩
      refine ⟨fun _ => hdelete,fun husage => ?_⟩
      rw [hdelete,isPlan_iff hkeyed List.nil_prefix,shortestPrefix_nil_iff]
      exact .inr ((habove husage).resolve_right fun h => absurd hbelow (not_le.mpr h.1))
  · have hdelete : (th.gcCandidates (after config calls) walk now used total).toDelete = _ := toDelete_of_above hbelow
    constructor
    · rintro ⟨hempty,habove⟩
      refine ⟨fun husage => .inr ?_,fun husage => .inr ⟨not_le.mp hbelow,?_⟩⟩
      · have hids := hempty husage
        rw [hdelete,List.map_eq_nil_iff,htaken.eq_nil_iff,suffices_nil_iff] at hids
        exact hids.symm
      · have hplan := habove husage
        rw [hdelete,isPlan_iff hkeyed htaken.begins] at hplan
        exact htaken.iff_agree.mp hplan
    · rintro ⟨hempty,habove⟩
      refine ⟨fun husage => ?_,fun husage => ?_⟩
      · have hstop := (hempty husage).resolve_left hbelow
        rw [hdelete,List.map_eq_nil_iff,htaken.eq_nil_iff,suffices_nil_iff]
        exact hstop.symm
      · rw [hdelete,isPlan_iff hkeyed htaken.begins,htaken.iff_agree]
        rcases habove husage with hnil | ⟨-,hagree⟩
        · intro q hq hne
          rw [hnil] at hq hne
          exact absurd (List.prefix_nil.mp hq) hne
        · exact hagree

def halves : Thresholds where
  high := 3 / 4
  low := 1 / 2
  low_lt := by norm_num

/-- The map is walked as it is listed. -/
theorem perm_id (images : List TrackedImage) : (id images).Perm images := .refl _

def asListed : Walk := ⟨id,perm_id⟩

/-- Five images are listed, one is used by a container, one was and is no longer, and one goes. -/
def fiveImages : List Call :=
  [.sync [{ id := "base", sizeBytes := 300 },{ id := "new", sizeBytes := 100 },{ id := "old", sizeBytes := 250 },
      { id := "mid", sizeBytes := 50 },{ id := "gone", sizeBytes := 400 }]
      (fun id => if id = "new" then 4 else if id = "mid" then 2 else 1),
    .markInUse "base" 2,.markInUse "mid" 3,.markNotInUse "mid",.removeImage "gone",
    .sync [{ id := "base", sizeBytes := 300 },{ id := "new", sizeBytes := 100 },{ id := "old", sizeBytes := 250 },
      { id := "mid", sizeBytes := 50 },{ id := "young", sizeBytes := 500 },{ id := "next", sizeBytes := 200 }]
      (fun id => if id = "young" then 9 else 3)]

/-- The images that are not in use and have not just come, those used longest ago first. -/
def idleImages : List TrackedImage :=
  [⟨{ id := "old", sizeBytes := 250 },1,false⟩,⟨{ id := "next", sizeBytes := 200 },3,false⟩,
    ⟨{ id := "mid", sizeBytes := 50 },3,false⟩,⟨{ id := "new", sizeBytes := 100 },4,false⟩]

theorem eligible_fiveImages : (after { minAge := 5 } fiveImages).eligible asListed 10 = idleImages := by
  decide

/-- A whole difference and a sum that is no more than a word are compared as they are. -/
theorem suffices_iff_of_whole {n sum : ℕ} (hwhole : th.difference used total = n) (hfit : sum < 2 ^ 64 - 1) :
    th.Suffices used total sum ↔ n ≤ sum := by
  have hmod : sum % 2 ^ 64 = sum := Nat.mod_eq_of_lt (by omega)
  rw [Thresholds.Suffices,hwhole,hmod,or_iff_left hfit.ne]
  exact_mod_cast Nat.lt_succ_iff

theorem difference_halves : halves.difference 900 1000 = (400 : ℕ) := by
  have hused : toF64 (900 : ℕ) = (900 : ℕ) := toF64_natCast (by norm_num)
  have htotal : toF64 (1000 : ℕ) = (1000 : ℕ) := toF64_natCast (by norm_num)
  have hlow : toF64 (500 : ℕ) = (500 : ℕ) := toF64_natCast (by norm_num)
  have hrest : toF64 (400 : ℕ) = (400 : ℕ) := toF64_natCast (by norm_num)
  have hhalf : (1 / 2 * (1000 : ℕ) : ℚ) = (500 : ℕ) := by norm_num
  have hsub : ((900 : ℕ) - (500 : ℕ) : ℚ) = (400 : ℕ) := by norm_num
  have hwords : UInt64.toNat 900 = 900 ∧ UInt64.toNat 1000 = 1000 := by decide
  unfold Thresholds.difference halves
  dsimp only
  rw [hwords.1,hwords.2,hused,htotal,hhalf,hlow,hsub,hrest]

theorem high_lt_usedFraction : halves.high < usedFraction 900 1000 := by
  have hused : toF64 (900 : ℕ) = (900 : ℕ) := toF64_natCast (by norm_num)
  have htotal : toF64 (1000 : ℕ) = (1000 : ℕ) := toF64_natCast (by norm_num)
  have hwords : UInt64.toNat 900 = 900 ∧ UInt64.toNat 1000 = 1000 := by decide
  have herr : |toF64 ((900 : ℕ) / (1000 : ℕ)) - (900 : ℕ) / (1000 : ℕ)| ≤ 2 ^ (-53 : ℤ) / 2 :=
    toF64_error_of_lt (by norm_num [abs_of_pos])
  have hlow := (abs_le.mp herr).1
  unfold usedFraction
  rw [hwords.1,hwords.2,hused,htotal,halves]
  norm_num at hlow ⊢
  linarith

/-- Two of the four images free enough, and one of the other two is as old as the second. -/
theorem plansRight_fiveImages :
    PlansRight halves (after { minAge := 5 } fiveImages) asListed 10 900 1000 ∧
      (halves.gcCandidates (after { minAge := 5 } fiveImages) asListed 10 900 1000).toDelete = ["old","next"] := by
  have hwords : UInt64.toNat 900 = 900 ∧ UInt64.toNat 1000 = 1000 := by decide
  constructor
  · refine (plansRight_iff halves { minAge := 5 } fiveImages asListed 10 900 1000 (by decide)).mpr ⟨fun husage => ?_,
      fun _ => .inr ⟨high_lt_usedFraction,fun q hq _ _ => ?_⟩⟩
    · rw [hwords.1,hwords.2,halves] at husage
      norm_num at husage
    · rw [eligible_fiveImages] at hq
      have hle : bytes q ≤ bytes idleImages := (hq.sublist.map _).sum_le_sum (fun _ _ => Nat.zero_le _)
      have hall : bytes idleImages = 600 := by decide
      rw [suffices_iff_of_whole difference_halves (by omega),Thresholds.need,hwords.1,hwords.2,halves]
      norm_num
  · have hfree : ∀ n : UInt64, n.toNat < 2 ^ 64 - 1 → (halves.bytesToFree 900 1000 ≤ n ↔ 400 ≤ n.toNat) := fun n hn =>
      bytesToFree_le_iff.trans ((or_iff_left hn.ne).trans (by
        rw [difference_halves]
        exact_mod_cast Nat.lt_succ_iff))
    have hzero : ¬halves.bytesToFree 900 1000 ≤ 0 := by
      rw [hfree 0 (by decide)]
      decide
    have hone : ¬halves.bytesToFree 900 1000 ≤ 0 + 250 := by
      rw [hfree (0 + 250) (by decide)]
      decide
    have htwo : halves.bytesToFree 900 1000 ≤ 0 + 250 + 200 := by
      rw [hfree (0 + 250 + 200) (by decide)]
      decide
    rw [toDelete_of_above (not_le.mpr high_lt_usedFraction),eligible_fiveImages,idleImages,takeUpTo,if_neg hzero,takeUpTo,
      if_neg hone,takeUpTo,if_pos htwo]
    rfl

/-! ## Half a byte -/

/-- Two images, of which the larger one was used first. -/
def twoImages : List Call :=
  [.sync [{ id := "old", sizeBytes := 50 * 2 ^ 30 },{ id := "new", sizeBytes := 1 }] (fun id => if id = "old" then 1 else 2)]

def oldImage : TrackedImage := ⟨{ id := "old", sizeBytes := 50 * 2 ^ 30 },1,false⟩

def newImage : TrackedImage := ⟨{ id := "new", sizeBytes := 1 },2,false⟩

theorem eligible_twoImages : (after { minAge := 0 } twoImages).eligible asListed 10 = [oldImage,newImage] := by
  decide

/-- A full disk with an odd number of bytes. -/
def fullDisk : UInt64 := 100 * 2 ^ 30 + 1

theorem toF64_fullDisk : toF64 fullDisk.toNat = 100 * 2 ^ 30 + 1 := by
  have hword : fullDisk.toNat = 100 * 2 ^ 30 + 1 := by decide
  rw [hword,toF64_natCast (by norm_num)]
  norm_num

theorem difference_fullDisk : halves.difference fullDisk fullDisk = 50 * 2 ^ 30 + 1 / 2 := by
  have hhalf : toF64 (1 / 2 * (100 * 2 ^ 30 + 1)) = 1 / 2 * (100 * 2 ^ 30 + 1) :=
    toF64_of_lt (n := 100 * 2 ^ 30 + 1) (k := -1) (by norm_num) (by norm_num)
  have hrest : toF64 (50 * 2 ^ 30 + 1 / 2) = 50 * 2 ^ 30 + 1 / 2 :=
    toF64_of_lt (n := 100 * 2 ^ 30 + 1) (k := -1) (by norm_num) (by norm_num)
  have hsub : (100 * 2 ^ 30 + 1 - 1 / 2 * (100 * 2 ^ 30 + 1) : ℚ) = 50 * 2 ^ 30 + 1 / 2 := by norm_num
  unfold Thresholds.difference halves
  dsimp only
  rw [toF64_fullDisk,hhalf,hsub,hrest]

theorem taken_fullDisk :
    takeUpTo (fun img : TrackedImage => img.info.sizeBytes) (halves.bytesToFree fullDisk fullDisk) 0 [oldImage,newImage] =
      [oldImage] := by
  have hfirst : ¬halves.bytesToFree fullDisk fullDisk ≤ 0 := by
    rw [bytesToFree_le_iff,difference_fullDisk,UInt64.toNat_zero]
    norm_num
  have hsize : (0 + oldImage.info.sizeBytes).toNat = 50 * 2 ^ 30 := by decide
  have hsecond : halves.bytesToFree fullDisk fullDisk ≤ 0 + oldImage.info.sizeBytes := by
    rw [bytesToFree_le_iff,difference_fullDisk,hsize]
    refine .inl ?_
    norm_num
  rw [takeUpTo,if_neg hfirst,takeUpTo,if_pos hsecond]

/-- The image that is deleted leaves half a byte too much. -/
theorem half_byte_left :
    (halves.gcCandidates (after { minAge := 0 } twoImages) asListed 10 fullDisk fullDisk).toDelete = ["old"] ∧
      ¬PlansRight halves (after { minAge := 0 } twoImages) asListed 10 fullDisk fullDisk := by
  have hbelow : ¬usedFraction fullDisk fullDisk ≤ halves.high := by
    have hone : toF64 1 = 1 := by exact_mod_cast toF64_natCast (k := 1) (by norm_num)
    rw [usedFraction,div_self (by rw [toF64_fullDisk]; norm_num),hone,halves]
    norm_num
  have hdelete : (halves.gcCandidates (after { minAge := 0 } twoImages) asListed 10 fullDisk fullDisk).toDelete =
      [oldImage].map (·.info.id) := by
    rw [toDelete_of_above hbelow,eligible_twoImages,taken_fullDisk]
  refine ⟨hdelete,fun h => ?_⟩
  have husage : halves.high < (fullDisk.toNat : ℚ) / fullDisk.toNat := by
    have hword : fullDisk.toNat = 100 * 2 ^ 30 + 1 := by decide
    rw [hword,div_self (by norm_num),halves]
    norm_num
  have hplan := h.above husage
  have hbegins : [oldImage] <+: (after { minAge := 0 } twoImages).eligible asListed 10 := by
    rw [eligible_twoImages]
    exact ⟨[newImage],rfl⟩
  rw [hdelete,isPlan_iff (keyed_after _ _) hbegins] at hplan
  rcases hplan.enough_or_all with henough | hall
  · have hbytes : bytes [oldImage] = 50 * 2 ^ 30 := by decide
    have hword : fullDisk.toNat = 100 * 2 ^ 30 + 1 := by decide
    rw [hbytes,Thresholds.need,hword,halves] at henough
    norm_num at henough
  · rw [eligible_twoImages] at hall
    exact absurd hall (by decide)

end KubeAir.Adapters.ImageGc
