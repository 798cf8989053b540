import KubeAir.Adapters.ResourceManager

/-! # Atomicity of resource allocation

A failing allocation leaves everything as it was exactly if the step that fails is the
first one that would have changed anything, and takes back nothing but its own reservation.
-/
namespace KubeAir.Adapters
open Core

namespace DeviceManager

/-- What the endpoint of a resource has allocated under a key. -/
def allocationOf (m : DeviceManager) (resource key : String) : Option (List String) :=
  (m.plugins.lookup resource).bind (·.allocations.lookup key)

/-- What is recorded for the cleanup of a pod. -/
def podAllocationOf (m : DeviceManager) (uid containerName resource : String) : Option (List String) :=
  ((m.podAllocations.lookup uid).bind (·.lookup containerName)).bind (·.lookup resource)

/-- Both tables say the same about a resource. -/
def SameOn (resource : String) (m n : DeviceManager) : Prop :=
  (∀ key, n.allocationOf resource key = m.allocationOf resource key) ∧
    ∀ uid containerName, n.podAllocationOf uid containerName resource = m.podAllocationOf uid containerName resource

/-- Besides, the plugin of the resource is the same. -/
def AgreeOn (resource : String) (m n : DeviceManager) : Prop :=
  n.plugins.lookup resource = m.plugins.lookup resource ∧
    ∀ uid containerName, n.podAllocationOf uid containerName resource = m.podAllocationOf uid containerName resource

section Condition
variable (rpc : PluginRpc) (podUid : PodUID) (containerName : String) (m : DeviceManager) (d : String × ℕ)

/-- There is no plugin for the resource, it has not enough devices, or it fails. -/
def AllocationFails : Prop :=
  ∀ ep ids, m.plugins.lookup d.1 = some ep → ep.allocateDevices d.2 = some ids →
    ∃ e, rpc d.1 ep.socketPath ids = .error e

/-- The container has, of this resource, no devices recorded, and asks for none. -/
def AllocatesNothing : Prop :=
  d.2 = 0 ∧ m.allocationOf d.1 (allocationKey podUid containerName) = some [] ∧
    (m.podAllocationOf podUid.val containerName d.1).isSome = true

/-- A failing plugin takes back what was recorded for the container before. -/
def DropsRecord : Prop :=
  (m.allocationOf d.1 (allocationKey podUid containerName)).isSome = true ∧
    ∃ ep ids, m.plugins.lookup d.1 = some ep ∧ ep.allocateDevices d.2 = some ids

end Condition

section Frame
variable {m n k : DeviceManager} {resource : String}

theorem AgreeOn.refl (resource : String) (m : DeviceManager) : AgreeOn resource m m := ⟨rfl,fun _ _ => rfl⟩

theorem AgreeOn.sameOn (h : AgreeOn resource m n) : SameOn resource m n := by
  refine ⟨fun key => ?_,h.2⟩
  unfold allocationOf
  rw [h.1]

theorem AgreeOn.trans (h : AgreeOn resource m n) (h' : AgreeOn resource n k) : AgreeOn resource m k :=
  ⟨h'.1.trans h.1,fun uid containerName => (h'.2 uid containerName).trans (h.2 uid containerName)⟩

theorem SameOn.symm (h : SameOn resource m n) : SameOn resource n m :=
  ⟨fun key => (h.1 key).symm,fun uid containerName => (h.2 uid containerName).symm⟩

theorem SameOn.trans (h : SameOn resource m n) (h' : SameOn resource n k) : SameOn resource m k :=
  ⟨fun key => (h'.1 key).trans (h.1 key),fun uid containerName => (h'.2 uid containerName).trans (h.2 uid containerName)⟩

variable {rpc : PluginRpc} {podUid : PodUID} {containerName : String} {d : String × ℕ}

theorem allocationOf_congr (h : AgreeOn resource m n) (key : String) :
    n.allocationOf resource key = m.allocationOf resource key := h.sameOn.1 key

theorem allocationFails_congr (h : AgreeOn d.1 m n) : AllocationFails rpc n d ↔ AllocationFails rpc m d := by
  unfold AllocationFails
  rw [h.1]

theorem allocatesNothing_congr (h : AgreeOn d.1 m n) :
    AllocatesNothing podUid containerName n d ↔ AllocatesNothing podUid containerName m d := by
  unfold AllocatesNothing
  rw [allocationOf_congr h,h.2]

theorem dropsRecord_congr (h : AgreeOn d.1 m n) :
    DropsRecord podUid containerName n d ↔ DropsRecord podUid containerName m d := by
  unfold DropsRecord
  rw [allocationOf_congr h,h.1]

end Frame

/-! ## One resource -/

theorem length_allocateDevices {ep : PluginEndpoint} {count : ℕ} {ids : List String}
    (h : ep.allocateDevices count = some ids) : ids.length = count := by
  unfold PluginEndpoint.allocateDevices at h
  dsimp only at h
  split at h
  · cases h
  · next hlt =>
    obtain rfl := Option.some.inj h
    rw [List.length_map,List.length_take] at hlt ⊢
    omega

/-- The outcomes of `allocate`. -/
inductive Allocates (m : DeviceManager) (rpc : PluginRpc) (podUid : PodUID) (containerName : String)
    (d : String × ℕ) : Except KubeletError AllocateResponse × DeviceManager → Prop
  | refused (e : KubeletError) (hfails : ∀ ep, m.plugins.lookup d.1 = some ep → ep.allocateDevices d.2 = none) :
      Allocates m rpc podUid containerName d (.error e,m)
  | failed {ep : PluginEndpoint} {ids : List String} {e : KubeletError} (hep : m.plugins.lookup d.1 = some ep)
      (hids : ep.allocateDevices d.2 = some ids) (hrpc : rpc d.1 ep.socketPath ids = .error e) :
      Allocates m rpc podUid containerName d
        (.error e,(m.reserveIn ep (allocationKey podUid containerName) d.1 ids).dropReservation podUid containerName d.1)
  | allocated {ep : PluginEndpoint} {ids : List String} {response : AllocateResponse}
      (hep : m.plugins.lookup d.1 = some ep) (hids : ep.allocateDevices d.2 = some ids)
      (hrpc : rpc d.1 ep.socketPath ids = .ok response) :
      Allocates m rpc podUid containerName d
        (.ok response,(m.reserveIn ep (allocationKey podUid containerName) d.1 ids).record podUid containerName d.1 ids)

theorem allocates (m : DeviceManager) (rpc : PluginRpc) (podUid : PodUID) (containerName : String) (d : String × ℕ) :
    m.Allocates rpc podUid containerName d (m.allocate rpc podUid containerName d.1 d.2) := by
  unfold allocate reserve
  cases hep : m.plugins.lookup d.1 with
  | none => exact .refused _ fun ep h => by rw [hep] at h; cases h
  | some ep =>
    dsimp only
    cases hids : ep.allocateDevices d.2 with
    | none =>
      refine .refused _ fun ep' h => ?_
      rw [hep] at h
      obtain rfl := Option.some.inj h
      exact hids
    | some ids =>
      dsimp only
      cases hrpc : rpc d.1 ep.socketPath ids with
      | ok response => exact .allocated hep hids hrpc
      | error e => exact .failed hep hids hrpc

section One
variable {m : DeviceManager} {rpc : PluginRpc} {podUid : PodUID} {containerName : String} {d : String × ℕ}

theorem podAllocationOf_record (m : DeviceManager) (podUid : PodUID) (containerName resource : String)
    (ids : List String) (uid name r : String) :
    (m.record podUid containerName resource ids).podAllocationOf uid name r =
      if uid = podUid.val ∧ name = containerName ∧ r = resource then
        some ((m.podAllocationOf uid name r).getD [] ++ ids)
      else m.podAllocationOf uid name r := by
  unfold record podAllocationOf
  dsimp only
  by_cases hu : uid = podUid.val
  · subst hu
    rw [AList.lookup_insert,Option.bind_some]
    by_cases hn : name = containerName
    · subst hn
      rw [AList.lookup_insert,Option.bind_some]
      by_cases hr : r = resource
      · subst hr
        rw [AList.lookup_insert,if_pos ⟨rfl,rfl,rfl⟩]
        cases m.podAllocations.lookup podUid.val with
        | none => rfl
        | some containers => cases hc : containers.lookup name <;> simp [hc]
      · rw [AList.lookup_insert_ne hr,if_neg (fun h => hr h.2.2)]
        cases m.podAllocations.lookup podUid.val with
        | none => simp
        | some containers => cases hc : containers.lookup name <;> simp [hc]
    · rw [AList.lookup_insert_ne hn,if_neg (fun h => hn h.2.1)]
      cases m.podAllocations.lookup podUid.val with
      | none => simp
      | some containers => rfl
  · rw [AList.lookup_insert_ne hu,if_neg (fun h => hu h.1)]

theorem plugins_dropReservation {ep : PluginEndpoint} {resource : String} {ids : List String} (r : String) :
    ((m.reserveIn ep (allocationKey podUid containerName) resource ids).dropReservation podUid containerName
      resource).plugins.lookup r =
      if r = resource then
        some
          { ep with
            allocations :=
              (ep.allocations.insert (allocationKey podUid containerName) ids).erase (allocationKey podUid containerName) }
      else m.plugins.lookup r := by
  unfold dropReservation reserveIn
  dsimp only
  rw [AList.lookup_insert]
  dsimp only
  by_cases hr : r = resource
  · subst hr
    rw [AList.lookup_insert,if_pos rfl]
  · rw [AList.lookup_insert_ne hr,AList.lookup_insert_ne hr,if_neg hr]

/-- What a failed plugin call leaves of the resource: the key of the container is gone. -/
theorem allocationOf_dropReservation {ep : PluginEndpoint} {resource : String} {ids : List String}
    (hep : m.plugins.lookup resource = some ep) (key : String) :
    ((m.reserveIn ep (allocationKey podUid containerName) resource ids).dropReservation podUid containerName
      resource).allocationOf resource key =
      if key = allocationKey podUid containerName then none else m.allocationOf resource key := by
  unfold allocationOf
  rw [plugins_dropReservation,if_pos rfl,Option.bind_some,hep,Option.bind_some]
  dsimp only
  by_cases hkey : key = allocationKey podUid containerName
  · rw [if_pos hkey,hkey,AList.lookup_erase]
  · rw [if_neg hkey,AList.lookup_erase_ne hkey,AList.lookup_insert_ne hkey]

theorem allocationOf_record {ep : PluginEndpoint} {resource : String} {ids : List String}
    (hep : m.plugins.lookup resource = some ep) (key : String) :
    ((m.reserveIn ep (allocationKey podUid containerName) resource ids).record podUid containerName resource
      ids).allocationOf resource key =
      if key = allocationKey podUid containerName then some ids else m.allocationOf resource key := by
  unfold allocationOf record reserveIn
  dsimp only
  rw [AList.lookup_insert,Option.bind_some,hep,Option.bind_some]
  by_cases hkey : key = allocationKey podUid containerName
  · rw [if_pos hkey,hkey,AList.lookup_insert]
  · rw [if_neg hkey,AList.lookup_insert_ne hkey]

/-- An allocation only touches the tables of its own resource. -/
theorem agreeOn_allocate {r : String} (hr : r ≠ d.1) : AgreeOn r m (m.allocate rpc podUid containerName d.1 d.2).2 := by
  have hcases := m.allocates rpc podUid containerName d
  generalize m.allocate rpc podUid containerName d.1 d.2 = result at hcases
  cases hcases with
  | refused => exact .refl r m
  | failed =>
    refine ⟨?_,fun uid name => ?_⟩
    · rw [plugins_dropReservation,if_neg hr]
    · unfold dropReservation
      split <;> rfl
  | allocated =>
    refine ⟨?_,fun uid name => ?_⟩
    · exact AList.lookup_insert_ne hr
    · rw [podAllocationOf_record,if_neg (fun h => hr h.2.2)]
      rfl

theorem allocate_error_iff :
    (∃ e, (m.allocate rpc podUid containerName d.1 d.2).1 = .error e) ↔ AllocationFails rpc m d := by
  have hcases := m.allocates rpc podUid containerName d
  generalize m.allocate rpc podUid containerName d.1 d.2 = result at hcases
  cases hcases with
  | refused e hfails =>
    refine iff_of_true ⟨e,rfl⟩ ?_
    intro ep ids hep hids
    rw [hfails ep hep] at hids
    cases hids
  | @failed ep ids e hep hids hrpc =>
    refine iff_of_true ⟨e,rfl⟩ ?_
    intro ep' ids' hep' hids'
    rw [hep] at hep'
    obtain rfl := Option.some.inj hep'
    rw [hids] at hids'
    obtain rfl := Option.some.inj hids'
    exact ⟨e,hrpc⟩
  | @allocated ep ids response hep hids hrpc =>
    refine iff_of_false ?_ ?_
    · rintro ⟨e,h⟩
      cases h
    · intro h
      obtain ⟨e,he⟩ := h ep ids hep hids
      rw [hrpc] at he
      cases he

/-- A failing allocation changes its resource exactly if it drops an older record. -/
theorem sameOn_allocate_failed (h : AllocationFails rpc m d) :
    SameOn d.1 m (m.allocate rpc podUid containerName d.1 d.2).2 ↔ ¬ DropsRecord podUid containerName m d := by
  have hcases := m.allocates rpc podUid containerName d
  generalize m.allocate rpc podUid containerName d.1 d.2 = result at hcases
  cases hcases with
  | refused e hfails =>
    refine iff_of_true (AgreeOn.refl _ m).sameOn ?_
    rintro ⟨-,ep,ids,hep,hids⟩
    rw [hfails ep hep] at hids
    cases hids
  | @failed ep ids e hep hids hrpc =>
    constructor
    · rintro hsame ⟨hsome,-⟩
      have hkey := hsame.1 (allocationKey podUid containerName)
      rw [allocationOf_dropReservation hep,if_pos rfl] at hkey
      rw [← hkey] at hsome
      cases hsome
    · intro hnot
      refine ⟨fun key => ?_,fun uid name => ?_⟩
      · rw [allocationOf_dropReservation hep]
        by_cases hkey : key = allocationKey podUid containerName
        · rw [if_pos hkey,hkey]
          cases hnone : m.allocationOf d.1 (allocationKey podUid containerName) with
          | none => rfl
          | some old =>
            refine (hnot ⟨?_,ep,ids,hep,hids⟩).elim
            rw [hnone]
            rfl
        · rw [if_neg hkey]
      · unfold dropReservation
        split <;> rfl
  | @allocated ep ids response hep hids hrpc =>
    obtain ⟨e,he⟩ := h ep ids hep hids
    rw [hrpc] at he
    cases he

/-- A successful allocation leaves its resource as it was only if it allocates nothing. -/
theorem sameOn_allocate_succeeded (h : ¬ AllocationFails rpc m d) :
    SameOn d.1 m (m.allocate rpc podUid containerName d.1 d.2).2 ↔ AllocatesNothing podUid containerName m d := by
  have hfails : ¬ ∃ e, (m.allocate rpc podUid containerName d.1 d.2).1 = .error e :=
    fun he => h (allocate_error_iff.mp he)
  have hcases := m.allocates rpc podUid containerName d
  generalize m.allocate rpc podUid containerName d.1 d.2 = result at hfails hcases
  cases hcases with
  | refused e => exact (hfails ⟨e,rfl⟩).elim
  | failed => exact (hfails ⟨_,rfl⟩).elim
  | @allocated ep ids response hep hids hrpc =>
    have hlength := length_allocateDevices hids
    have hpods (uid name : String) : ((m.reserveIn ep (allocationKey podUid containerName) d.1 ids).record podUid
        containerName d.1 ids).podAllocationOf uid name d.1 =
        if uid = podUid.val ∧ name = containerName then some ((m.podAllocationOf uid name d.1).getD [] ++ ids)
        else m.podAllocationOf uid name d.1 := by
      rw [podAllocationOf_record]
      simp only [and_true]
      rfl
    constructor
    · rintro ⟨hkeys,huids⟩
      have hkey := hkeys (allocationKey podUid containerName)
      have hpod := huids podUid.val containerName
      rw [allocationOf_record hep,if_pos rfl] at hkey
      rw [hpods,if_pos ⟨rfl,rfl⟩] at hpod
      have hnil : ids = [] := by
        rw [← hpod,Option.getD_some] at hpod
        have hlen := congrArg List.length (Option.some.inj hpod)
        rw [List.length_append,List.length_append] at hlen
        exact List.length_eq_zero_iff.mp (by omega)
      refine ⟨by rw [← hlength,hnil]; rfl,by rw [← hkey,hnil],by rw [← hpod]; rfl⟩
    · rintro ⟨hcount,hnone,hsome⟩
      have hnil : ids = [] := List.length_eq_zero_iff.mp (hlength.trans hcount)
      refine ⟨fun key => ?_,fun uid name => ?_⟩
      · rw [allocationOf_record hep]
        split
        · next hkey => rw [hkey,hnone,hnil]
        · rfl
      · rw [hpods]
        split
        · next hboth =>
          obtain ⟨rfl,rfl⟩ := hboth
          obtain ⟨old,hold⟩ := Option.isSome_iff_exists.mp hsome
          rw [hold,hnil,Option.getD_some,List.append_nil]
        · rfl

end One

/-! ## The loop over the resources -/

section Loop
variable {rpc : PluginRpc} {podUid : PodUID} {containerName : String}

theorem allocateAll_of_fails {m : DeviceManager} {d : String × ℕ} (h : AllocationFails rpc m d)
    (acc : ContainerResources) (ds : List (String × ℕ)) : ∃ e, m.allocateAll rpc podUid containerName acc (d :: ds) =
      (.error e,(m.allocate rpc podUid containerName d.1 d.2).2) := by
  obtain ⟨e,he⟩ := (allocate_error_iff).mpr h
  unfold allocateAll
  split
  · next response m' heq =>
    rw [heq] at he
    cases he
  · next e' m' heq =>
    rw [heq]
    exact ⟨e',rfl⟩

theorem allocateAll_of_succeeds {m : DeviceManager} {d : String × ℕ} (h : ¬ AllocationFails rpc m d)
    (acc : ContainerResources) (ds : List (String × ℕ)) :
    ∃ acc', m.allocateAll rpc podUid containerName acc (d :: ds) =
      (m.allocate rpc podUid containerName d.1 d.2).2.allocateAll rpc podUid containerName acc' ds := by
  have hfails : ¬ ∃ e, (m.allocate rpc podUid containerName d.1 d.2).1 = .error e :=
    fun he => h (allocate_error_iff.mp he)
  rw [allocateAll]
  split
  · next response m' heq =>
    rw [heq]
    exact ⟨_,rfl⟩
  · next e' m' heq => exact (hfails ⟨e',by rw [heq]⟩).elim

/-- The loop touches no resource but those of its list. -/
theorem agreeOn_allocateAll {r : String} (m : DeviceManager) (acc : ContainerResources) (ds : List (String × ℕ))
    (hr : r ∉ ds.map (·.1)) : AgreeOn r m (m.allocateAll rpc podUid containerName acc ds).2 := by
  induction ds generalizing m acc with
  | nil => exact .refl r m
  | cons d ds ih =>
    rw [List.map_cons,List.mem_cons,not_or] at hr
    have hone : AgreeOn r m (m.allocate rpc podUid containerName d.1 d.2).2 := agreeOn_allocate hr.1
    by_cases hfails : AllocationFails rpc m d
    · obtain ⟨e,he⟩ := allocateAll_of_fails hfails acc ds
      rw [he]
      exact hone
    · obtain ⟨acc',he⟩ := allocateAll_of_succeeds hfails acc ds
      rw [he]
      exact hone.trans (ih _ acc' hr.2)

theorem ne_of_nodup_cons {d p : String × ℕ} {ds : List (String × ℕ)} (hnodup : ((d :: ds).map (·.1)).Nodup)
    (hp : p ∈ ds) : p.1 ≠ d.1 := by
  rw [List.map_cons,List.nodup_cons] at hnodup
  intro heq
  exact hnodup.1 (List.mem_map.mpr ⟨p,hp,heq⟩)

/-- The loop fails if the allocation of some resource fails. -/
theorem allocateAll_error_iff (m : DeviceManager) (acc : ContainerResources) {ds : List (String × ℕ)}
    (hnodup : (ds.map (·.1)).Nodup) :
    (∃ e, (m.allocateAll rpc podUid containerName acc ds).1 = .error e) ↔ ∃ d ∈ ds, AllocationFails rpc m d := by
  induction ds generalizing m acc with
  | nil => simp [allocateAll]
  | cons d ds ih =>
    rw [List.exists_mem_cons_iff]
    by_cases hfails : AllocationFails rpc m d
    · obtain ⟨e,he⟩ := allocateAll_of_fails hfails acc ds
      exact iff_of_true ⟨e,by rw [he]⟩ (.inl hfails)
    · obtain ⟨acc',he⟩ := allocateAll_of_succeeds hfails acc ds
      have hrest : (ds.map (·.1)).Nodup := (List.nodup_cons.mp hnodup).2
      rw [he,ih _ acc' hrest,or_iff_right hfails]
      refine exists_congr fun p => and_congr_right fun hp => ?_
      exact allocationFails_congr (agreeOn_allocate (ne_of_nodup_cons hnodup hp))

/-- A failing loop leaves both tables alone exactly if the allocations before the failing one
allocate nothing and that one drops no older record. -/
theorem sameOn_allocateAll_iff (m : DeviceManager) (acc : ContainerResources) {pre post : List (String × ℕ)}
    {d : String × ℕ} (hnodup : ((pre ++ d :: post).map (·.1)).Nodup)
    (hpre : ∀ p ∈ pre, ¬ AllocationFails rpc m p) (hfails : AllocationFails rpc m d) :
    (∀ r, SameOn r m (m.allocateAll rpc podUid containerName acc (pre ++ d :: post)).2) ↔
      (∀ p ∈ pre, AllocatesNothing podUid containerName m p) ∧ ¬ DropsRecord podUid containerName m d := by
  induction pre generalizing m acc with
  | nil =>
    obtain ⟨e,he⟩ := allocateAll_of_fails hfails acc post
    rw [List.nil_append,he,← sameOn_allocate_failed hfails]
    constructor
    · intro h
      exact ⟨fun p hp => absurd hp List.not_mem_nil,h d.1⟩
    · rintro ⟨-,hsame⟩ r
      by_cases hr : r = d.1
      · rw [hr]
        exact hsame
      · exact (agreeOn_allocate hr).sameOn
  | cons p pre ih =>
    obtain ⟨hp,hpre⟩ := List.forall_mem_cons.mp hpre
    obtain ⟨acc',he⟩ :=
      allocateAll_of_succeeds hp acc (pre ++ d :: post)
    have hrest : ((pre ++ d :: post).map (·.1)).Nodup := (List.nodup_cons.mp hnodup).2
    have hone {q : String × ℕ} (hq : q ∈ pre ++ d :: post) :
        AgreeOn q.1 m (m.allocate rpc podUid containerName p.1 p.2).2 :=
      agreeOn_allocate (ne_of_nodup_cons hnodup hq)
    have hd : d ∈ pre ++ d :: post := List.mem_append_right _ List.mem_cons_self
    have hfree : p.1 ∉ (pre ++ d :: post).map (·.1) := (List.nodup_cons.mp hnodup).1
    have hih := ih (m.allocate rpc podUid containerName p.1 p.2).2 acc' hrest
      (fun q hq => (allocationFails_congr (hone (List.mem_append_left _ hq))).not.mpr (hpre q hq))
      ((allocationFails_congr (hone hd)).mpr hfails)
    have hlast : SameOn p.1 (m.allocate rpc podUid containerName p.1 p.2).2
        ((m.allocate rpc podUid containerName p.1 p.2).2.allocateAll rpc podUid containerName acc'
          (pre ++ d :: post)).2 := (agreeOn_allocateAll _ acc' _ hfree).sameOn
    rw [List.cons_append,he,List.forall_mem_cons,← sameOn_allocate_succeeded hp,and_assoc]
    rw [dropsRecord_congr (hone hd)] at hih
    constructor
    · intro hall
      have hfirst : SameOn p.1 m (m.allocate rpc podUid containerName p.1 p.2).2 := (hall p.1).trans hlast.symm
      refine ⟨hfirst,?_⟩
      have hothers := hih.mp fun r => by
        by_cases hr : r = p.1
        · rw [hr]
          exact hlast
        · exact (agreeOn_allocate hr).sameOn.symm.trans (hall r)
      exact ⟨fun q hq => (allocatesNothing_congr (hone (List.mem_append_left _ hq))).mp (hothers.1 q hq),hothers.2⟩
    · rintro ⟨hfirst,hnothing,hdrops⟩ r
      have hothers := hih.mpr
        ⟨fun q hq => (allocatesNothing_congr (hone (List.mem_append_left _ hq))).mpr (hnothing q hq),hdrops⟩
      by_cases hr : r = p.1
      · rw [hr]
        exact hfirst.trans hlast
      · exact (agreeOn_allocate hr).sameOn.trans (hothers r)

end Loop
end DeviceManager

theorem nodup_extendedResources (limits : HashMap String ResourceQuantity) :
    ((extendedResources limits).map (·.1)).Nodup := by
  have hkeys : (limits.entries.map (·.1)).Nodup := limits.nodupKeys
  unfold extendedResources
  rw [List.map_map]
  exact hkeys.sublist (List.filter_sublist.map _)

/-- Where some element has a property there is a first one. -/
theorem exists_first {α : Type*} {P : α → Prop} {l : List α} (h : ∃ a ∈ l, P a) :
    ∃ pre a post, l = pre ++ a :: post ∧ (∀ b ∈ pre, ¬ P b) ∧ P a := by
  induction l with
  | nil =>
    obtain ⟨a,ha,-⟩ := h
    cases ha
  | cons b l ih =>
    by_cases hb : P b
    · exact ⟨[],b,l,rfl,fun c hc => absurd hc List.not_mem_nil,hb⟩
    · rw [List.exists_mem_cons_iff,or_iff_right hb] at h
      obtain ⟨pre,a,post,rfl,hpre,ha⟩ := ih h
      exact ⟨b :: pre,a,post,rfl,List.forall_mem_cons.mpr ⟨hb,hpre⟩,ha⟩

/-- A loop that fails leaves both tables alone, and something else holds besides, exactly if
this is so for the first allocation that fails. -/
theorem DeviceManager.allocateAll_sameOn_iff {rpc : PluginRpc} {podUid : PodUID} {containerName : String}
    (m : DeviceManager) (acc : ContainerResources) {ds : List (String × ℕ)} (hnodup : (ds.map (·.1)).Nodup)
    (C : Prop) :
    (∀ e, (m.allocateAll rpc podUid containerName acc ds).1 = .error e →
      C ∧ ∀ r, SameOn r m (m.allocateAll rpc podUid containerName acc ds).2) ↔
    ∀ pre d post, ds = pre ++ d :: post → (∀ p ∈ pre, ¬ AllocationFails rpc m p) → AllocationFails rpc m d →
      C ∧ (∀ p ∈ pre, AllocatesNothing podUid containerName m p) ∧ ¬ DropsRecord podUid containerName m d := by
  constructor
  · rintro h pre d post rfl hpre hd
    have herror : ∃ e, (m.allocateAll rpc podUid containerName acc (pre ++ d :: post)).1 = .error e :=
      (allocateAll_error_iff m acc hnodup).mpr ⟨d,List.mem_append_right _ List.mem_cons_self,hd⟩
    obtain ⟨e,he⟩ := herror
    obtain ⟨hC,hsame⟩ := h e he
    exact ⟨hC,(sameOn_allocateAll_iff m acc hnodup hpre hd).mp hsame⟩
  · intro h e he
    obtain ⟨pre,d,post,rfl,hpre,hd⟩ := exists_first ((allocateAll_error_iff m acc hnodup).mp ⟨e,he⟩)
    obtain ⟨hC,hnothing⟩ := h pre d post rfl hpre hd
    exact ⟨hC,(sameOn_allocateAll_iff m acc hnodup hpre hd).mpr hnothing⟩

/-! ## The whole call -/

namespace ResourceManager

/-- Pool and assignments of CPUs, nodes and assignments of memory, and both tables of
devices are as before. -/
structure Unchanged (s t : ResourceManager) : Prop where
  availableCpus : t.cpu.availableCpus = s.cpu.availableCpus
  cpuAssignments : ∀ key, t.cpu.assignments.lookup key = s.cpu.assignments.lookup key
  numaNodes : t.memory.numaNodes = s.memory.numaNodes
  memoryAssignments : ∀ key, t.memory.assignments.lookup key = s.memory.assignments.lookup key
  devices : ∀ resource, DeviceManager.SameOn resource s.devices t.devices

section Condition
variable (rpc : PluginRpc) (s : ResourceManager) (pod : PodSpec) (container : ContainerSpec)

/-- The container is to get CPUs of its own and has none yet. -/
def WantsCpus : Prop :=
  s.cpu.policy = .static ∧ s.cpu.assignments.lookup (pod.uid.val,container.name) = none ∧
    computeQosClass pod = .guaranteed ∧ 1000 ∣ cpuRequest container

def CpusSuffice : Prop := cpuRequest container / 1000 ≤ s.cpu.availableCpus.card

/-- The container is to be pinned to a node and is not yet. -/
def WantsMemory : Prop :=
  s.memory.policy = .static ∧ s.memory.assignments.lookup (pod.uid.val,container.name) = none ∧
    computeQosClass pod = .guaranteed

def MemorySuffices : Prop := ∃ n ∈ s.memory.numaNodes, memRequest container ≤ n.freeBytes

/-- Nothing fails after something has been assigned, and no plugin failure drops a record
that the container had before. -/
structure FailsCleanly : Prop where
  memory : (WantsCpus s pod container → CpusSuffice s container) → WantsMemory s pod container →
    ¬ MemorySuffices s container → ¬ WantsCpus s pod container
  devices : (WantsCpus s pod container → CpusSuffice s container) →
    (WantsMemory s pod container → MemorySuffices s container) → ∀ pre d post,
    extendedResources container.resources.limits = pre ++ d :: post →
    (∀ p ∈ pre, ¬ DeviceManager.AllocationFails rpc s.devices p) → DeviceManager.AllocationFails rpc s.devices d →
    ¬ WantsCpus s pod container ∧ ¬ WantsMemory s pod container ∧
      (∀ p ∈ pre, DeviceManager.AllocatesNothing pod.uid container.name s.devices p) ∧
      ¬ DeviceManager.DropsRecord pod.uid container.name s.devices d

end Condition

/-- The step changes nothing but the CPUs it assigns, if it assigns any. -/
inductive CpuStep (s : ResourceManager) (pod : PodSpec) (container : ContainerSpec) :
    Except KubeletError CpuSet × CpuManager → Prop
  | kept (cpus : CpuSet) (h : ¬ WantsCpus s pod container) : CpuStep s pod container (.ok cpus,s.cpu)
  | refused (e : KubeletError) (h : WantsCpus s pod container) (hfull : ¬ CpusSuffice s container) :
      CpuStep s pod container (.error e,s.cpu)
  | taken (cpus : CpuSet) {m : CpuManager} {a : CpuAssignment} (h : WantsCpus s pod container)
      (hcard : CpusSuffice s container) (hassigned : m.assignments.lookup (pod.uid.val,container.name) = some a) :
      CpuStep s pod container (.ok cpus,m)

theorem cpuStep (s : ResourceManager) (pod : PodSpec) (container : ContainerSpec) : CpuStep s pod container
    (s.cpu.assign pod.uid container.name (computeQosClass pod) (cpuRequest container)) := by
  have hcases := s.cpu.assigns pod.uid container.name (computeQosClass pod) (cpuRequest container)
  generalize s.cpu.assign pod.uid container.name (computeQosClass pod) (cpuRequest container) = r at hcases
  cases hcases with
  | unmanaged hpolicy => exact .kept _ fun h => by rw [h.1] at hpolicy; cases hpolicy
  | repeated _ hkey => exact .kept _ fun h => by rw [h.2.1] at hkey; cases hkey
  | shared _ _ hrequest => exact .kept _ fun h => hrequest h.2.2
  | refused hpolicy hkey hrequest hcard => exact .refused _ ⟨hpolicy,hkey,hrequest⟩ (Nat.not_le_of_lt hcard)
  | exclusive hpolicy hkey hrequest hcard => exact .taken _ ⟨hpolicy,hkey,hrequest⟩ hcard (AList.lookup_insert _)

inductive MemoryStep (s : ResourceManager) (pod : PodSpec) (container : ContainerSpec) :
    Except KubeletError String × MemoryManager → Prop
  | kept (mems : String) (h : ¬ WantsMemory s pod container) : MemoryStep s pod container (.ok mems,s.memory)
  | refused (e : KubeletError) (h : WantsMemory s pod container) (hfull : ¬ MemorySuffices s container) :
      MemoryStep s pod container (.error e,s.memory)
  | pinned (mems : String) {m : MemoryManager} {a : MemoryAssignment} (h : WantsMemory s pod container)
      (hfree : MemorySuffices s container)
      (hassigned : m.assignments.lookup (pod.uid.val,container.name) = some a) :
      MemoryStep s pod container (.ok mems,m)

theorem memoryStep (utilization : NumaNode → ℕ) (s : ResourceManager) (pod : PodSpec) (container : ContainerSpec) :
    MemoryStep s pod container
      (s.memory.assign utilization pod.uid container.name (computeQosClass pod) (memRequest container)) := by
  have hcases := s.memory.assigns utilization pod.uid container.name (computeQosClass pod) (memRequest container)
  generalize s.memory.assign utilization pod.uid container.name (computeQosClass pod) (memRequest container) = r
    at hcases
  cases hcases with
  | unmanaged hpolicy => exact .kept _ fun h => by rw [h.1] at hpolicy; cases hpolicy
  | repeated _ hkey => exact .kept _ fun h => by rw [h.2.1] at hkey; cases hkey
  | unpinned _ _ hqos => exact .kept _ fun h => hqos h.2.2
  | refused hpolicy hkey hqos hfull =>
    exact .refused _ ⟨hpolicy,hkey,hqos⟩ fun ⟨n,hn,hfree⟩ => hfull n hn hfree
  | pinned hpolicy hkey hqos hnode hfree =>
    exact .pinned _ ⟨hpolicy,hkey,hqos⟩ ⟨_,hnode,hfree⟩ (AList.lookup_insert _)

/-- A manager that has made an assignment for the container is not what it was. -/
theorem unchanged_iff {s : ResourceManager} {pod : PodSpec} {container : ContainerSpec} {m : CpuManager}
    {n : MemoryManager} {d : DeviceManager}
    (hcpu : m = s.cpu ∧ ¬ WantsCpus s pod container ∨
      WantsCpus s pod container ∧ ∃ a, m.assignments.lookup (pod.uid.val,container.name) = some a)
    (hmemory : n = s.memory ∧ ¬ WantsMemory s pod container ∨
      WantsMemory s pod container ∧ ∃ a, n.assignments.lookup (pod.uid.val,container.name) = some a) :
    Unchanged s { cpu := m, memory := n, devices := d } ↔
      (¬ WantsCpus s pod container ∧ ¬ WantsMemory s pod container) ∧ ∀ r, DeviceManager.SameOn r s.devices d := by
  constructor
  · intro h
    refine ⟨⟨?_,?_⟩,h.devices⟩
    · rcases hcpu with ⟨-,hnot⟩ | ⟨hwants,a,ha⟩
      · exact hnot
      · have hsame := h.cpuAssignments (pod.uid.val,container.name)
        rw [hwants.2.1] at hsame
        rw [ha] at hsame
        cases hsame
    · rcases hmemory with ⟨-,hnot⟩ | ⟨hwants,a,ha⟩
      · exact hnot
      · have hsame := h.memoryAssignments (pod.uid.val,container.name)
        rw [hwants.2.1] at hsame
        rw [ha] at hsame
        cases hsame
  · rintro ⟨⟨hnocpu,hnomemory⟩,hdevices⟩
    obtain rfl : m = s.cpu := hcpu.elim (·.1) fun h => (hnocpu h.1).elim
    obtain rfl : n = s.memory := hmemory.elim (·.1) fun h => (hnomemory h.1).elim
    exact ⟨rfl,fun _ => rfl,rfl,fun _ => rfl,hdevices⟩

/-- The devices come last: whether their failure is clean depends on what was wanted before. -/
theorem failsCleanly_iff {rpc : PluginRpc} {s : ResourceManager} {pod : PodSpec} {container : ContainerSpec}
    (hcpu : WantsCpus s pod container → CpusSuffice s container)
    (hmemory : WantsMemory s pod container → MemorySuffices s container) :
    FailsCleanly rpc s pod container ↔ ∀ pre d post,
      extendedResources container.resources.limits = pre ++ d :: post →
      (∀ p ∈ pre, ¬ DeviceManager.AllocationFails rpc s.devices p) → DeviceManager.AllocationFails rpc s.devices d →
      (¬ WantsCpus s pod container ∧ ¬ WantsMemory s pod container) ∧
        (∀ p ∈ pre, DeviceManager.AllocatesNothing pod.uid container.name s.devices p) ∧
        ¬ DeviceManager.DropsRecord pod.uid container.name s.devices d := by
  constructor
  · intro h pre d post heq hpre hd
    obtain ⟨hnocpu,hnomemory,hnothing⟩ := h.devices hcpu hmemory pre d post heq hpre hd
    exact ⟨⟨hnocpu,hnomemory⟩,hnothing⟩
  · intro h
    refine ⟨fun _ hpins hfull => (hfull (hmemory hpins)).elim,?_⟩
    intro _ _ pre d post heq hpre hd
    obtain ⟨⟨hnocpu,hnomemory⟩,hnothing⟩ := h pre d post heq hpre hd
    exact ⟨hnocpu,hnomemory,hnothing⟩

/-- Once CPUs and memory are settled, a clean failure is one of the devices. -/
theorem unchanged_of_devices_iff {rpc : PluginRpc} {s : ResourceManager} {pod : PodSpec} {container : ContainerSpec}
    {m : CpuManager} {n : MemoryManager}
    (hcpu : m = s.cpu ∧ ¬ WantsCpus s pod container ∨
      WantsCpus s pod container ∧ ∃ a, m.assignments.lookup (pod.uid.val,container.name) = some a)
    (hmemory : n = s.memory ∧ ¬ WantsMemory s pod container ∨
      WantsMemory s pod container ∧ ∃ a, n.assignments.lookup (pod.uid.val,container.name) = some a)
    (hcpus : WantsCpus s pod container → CpusSuffice s container)
    (hnodes : WantsMemory s pod container → MemorySuffices s container) (acc : ContainerResources) :
    (∀ e, (s.devices.allocateAll rpc pod.uid container.name acc (extendedResources container.resources.limits)).1 =
        .error e →
      Unchanged s
        { cpu := m
          memory := n
          devices := (s.devices.allocateAll rpc pod.uid container.name acc
            (extendedResources container.resources.limits)).2 }) ↔
      FailsCleanly rpc s pod container := by
  rw [failsCleanly_iff hcpus hnodes]
  simp only [unchanged_iff hcpu hmemory]
  exact DeviceManager.allocateAll_sameOn_iff s.devices acc (nodup_extendedResources _) _

/-- An allocation that fails leaves everything as it was if and only if it fails cleanly. -/
theorem allocate_atomic_iff (utilization : NumaNode → ℕ) (rpc : PluginRpc) (s : ResourceManager) (pod : PodSpec)
    (container : ContainerSpec) :
    (∀ e, (s.allocate utilization rpc pod container).1 = .error e →
      Unchanged s (s.allocate utilization rpc pod container).2) ↔ FailsCleanly rpc s pod container := by
  have hcpu := cpuStep s pod container
  have hmemory := memoryStep utilization s pod container
  unfold allocate
  dsimp only
  generalize s.cpu.assign pod.uid container.name (computeQosClass pod) (cpuRequest container) = cpu at hcpu
  generalize s.memory.assign utilization pod.uid container.name (computeQosClass pod) (memRequest container) = memory
    at hmemory
  cases hcpu with
  | refused e hwants hfull =>
    refine iff_of_true ?_ ⟨fun h => (hfull (h hwants)).elim,fun h => (hfull (h hwants)).elim⟩
    intro _ _
    exact ⟨rfl,fun _ => rfl,rfl,fun _ => rfl,fun r => (DeviceManager.AgreeOn.refl r _).sameOn⟩
  | kept cpus hwants =>
    cases hmemory with
    | refused e hpins hfull =>
      refine iff_of_true ?_ ⟨fun _ _ _ => hwants,fun _ h => (hfull (h hpins)).elim⟩
      intro _ _
      exact ⟨rfl,fun _ => rfl,rfl,fun _ => rfl,fun r => (DeviceManager.AgreeOn.refl r _).sameOn⟩
    | kept mems hpins =>
      exact unchanged_of_devices_iff (.inl ⟨rfl,hwants⟩) (.inl ⟨rfl,hpins⟩) (fun h => (hwants h).elim)
        (fun h => (hpins h).elim) _
    | pinned mems hpins hfree hassigned =>
      exact unchanged_of_devices_iff (.inl ⟨rfl,hwants⟩) (.inr ⟨hpins,_,hassigned⟩) (fun h => (hwants h).elim)
        (fun _ => hfree) _
  | taken cpus hwants hcard hassigned =>
    cases hmemory with
    | refused e hpins hfull =>
      refine iff_of_false ?_ fun h => h.memory (fun _ => hcard) hpins hfull hwants
      intro h
      have hsame := (h e rfl).cpuAssignments (pod.uid.val,container.name)
      rw [hwants.2.1] at hsame
      rw [hassigned] at hsame
      cases hsame
    | kept mems hpins =>
      exact unchanged_of_devices_iff (.inr ⟨hwants,_,hassigned⟩) (.inl ⟨rfl,hpins⟩) (fun _ => hcard)
        (fun h => (hpins h).elim) _
    | pinned mems hpins hfree hpinned =>
      exact unchanged_of_devices_iff (.inr ⟨hwants,_,hassigned⟩) (.inr ⟨hpins,_,hpinned⟩) (fun _ => hcard)
        (fun _ => hfree) _

/-- A node with two CPUs left, and no memory. -/
def fullNode : ResourceManager where
  cpu := .new "static" {0,1} ∅
  memory := .new "Static" [⟨0,8192,0⟩]
  devices := {}

def wholeCpu : ContainerSpec where
  name := "app"
  resources :=
    { requests := (AList.insert "cpu" ⟨1000,.millicores⟩ ∅).insert "memory" ⟨1024,.bytes⟩
      limits := (AList.insert "cpu" ⟨1000,.millicores⟩ ∅).insert "memory" ⟨1024,.bytes⟩ }

def guaranteedPod : PodSpec where
  uid := ⟨"a"⟩
  podRef := ⟨"default","web"⟩
  containers := [wholeCpu]

def answers : PluginRpc := fun _ _ _ => .ok {}

/-- The memory manager refuses, and the CPU that was assigned before stays assigned. -/
theorem not_allocate_atomic :
    ¬ ∀ e, (fullNode.allocate MemoryManager.utilizationOf answers guaranteedPod wholeCpu).1 = .error e →
      Unchanged fullNode (fullNode.allocate MemoryManager.utilizationOf answers guaranteedPod wholeCpu).2 := by
  intro h
  have hcpus : (fullNode.allocate MemoryManager.utilizationOf answers guaranteedPod wholeCpu).2.cpu.availableCpus =
      {1} := by
    decide +kernel
  cases hr : (fullNode.allocate MemoryManager.utilizationOf answers guaranteedPod wholeCpu).1 with
  | error e =>
    have hpool := (h e hr).availableCpus
    rw [hcpus] at hpool
    exact absurd hpool (by decide)
  | ok r =>
    have herror : (fullNode.allocate MemoryManager.utilizationOf answers guaranteedPod wholeCpu).1.toOption.isSome =
        false := by
      decide +kernel
    rw [hr] at herror
    cases herror

end ResourceManager
end KubeAir.Adapters
