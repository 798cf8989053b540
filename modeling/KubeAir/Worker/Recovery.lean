import KubeAir.Worker.CreatedConfig
import KubeAir.Worker.KnownContainers
import Mathlib.Data.List.MinMax

/-! # Recovery and attempt numbers

What the recovery step of a pass takes over from a listing: the container of each name and the
number of the attempt that comes next.
-/
namespace KubeAir.Worker.Recovery
open Core Transition Program Routine

/-- The state after the recovery step of a pass that started from nothing. -/
def recovered (pod : PodSpec) (sandboxId : String) (sandboxIp : Option String) (listing : List RuntimeContainer) :
    PodRuntimeState :=
  recoverContainers pod { sandboxId := some sandboxId, sandboxIp := sandboxIp } listing

variable (pod : PodSpec) (name : String)

def isAttempt (c : RuntimeContainer) : Bool := c.podUid == pod.uid.val && c.name == name

/-- The attempts of a container of the pod. -/
def attemptsOf (listing : List RuntimeContainer) : List RuntimeContainer := listing.filter (isAttempt pod name)

/-- The attempts that recovery may take over. -/
def recoverable (listing : List RuntimeContainer) : List RuntimeContainer :=
  (attemptsOf pod name listing).filter (shouldRecover pod)

/-- The entries up to the first one that satisfies `p`. -/
def throughFirst {α : Type} (p : α → Bool) : List α → List α
  | [] => []
  | a :: l => if p a then [a] else a :: throughFirst p l

/-- The attempts that recovery looks at: those up to the one that it takes over. -/
def considered (listing : List RuntimeContainer) : List RuntimeContainer :=
  throughFirst (shouldRecover pod) (attemptsOf pod name listing)

/-- The entry has the highest attempt of a list. -/
def Highest (l : List RuntimeContainer) (c : RuntimeContainer) : Prop := c ∈ l ∧ ∀ d ∈ l, d.attempt ≤ c.attempt

/-- A call that creates a container does so under the given attempt. -/
def PassesAttempt (attempt : ℕ) : Request → Prop
  | .createContainer config => config.attempt = attempt
  | _ => True

/-- What recovery should take over for a name. -/
structure Resumed (st : PodRuntimeState) (listing : List RuntimeContainer) : Prop where
  adopted : ∀ id, st.containerIds.lookup name = some id → ∃ c, Highest (recoverable pod name listing) c ∧ c.id = id
  missing : st.containerIds.lookup name = none → recoverable pod name listing = []
  counted : ∀ c, Highest (attemptsOf pod name listing) c → st.restartCounts.lookup name = some (c.attempt + 1)
  fresh : ∀ (ctr : ContainerSpec) sandboxId (st' : PodRuntimeState), ctr.name = name →
    st'.restartCounts.lookup name = st.restartCounts.lookup name → ∃ attempt,
      (startContainer pod ctr sandboxId st').Uses (PassesAttempt attempt) ∧
        ∀ c ∈ attemptsOf pod name listing, c.attempt < attempt

/-- The listing shows the right entry of a name first: the first one that can be taken over has
the ID of the highest of these, the highest attempt stands no later, and it can be counted. -/
structure NewestFirst (listing : List RuntimeContainer) : Prop where
  first : ∀ c, (attemptsOf pod name listing).find? (shouldRecover pod) = some c →
    ∃ d, Highest (recoverable pod name listing) d ∧ d.id = c.id
  seen : ∀ c, Highest (attemptsOf pod name listing) c →
    (∃ d ∈ considered pod name listing, d.attempt = c.attempt) ∧ c.attempt < 2 ^ 32 - 1

variable {pod : PodSpec} {name : String} {listing l : List RuntimeContainer}

/-! ## The attempt that is passed on -/

section Attempts
variable {ctr : ContainerSpec} {sandboxId : String} {st : PodRuntimeState}

/-- The attempt is the restart count that the state holds when the container is created. -/
theorem uses_startContainer : (startContainer pod ctr sandboxId st).Uses
    (PassesAttempt ((st.restartCounts.lookup ctr.name).getD 0)) := by
  have hcreates : (startContainer pod ctr sandboxId st).Uses
      (Request.Creates fun config => config.attempt = (st.restartCounts.lookup ctr.name).getD 0) :=
    creates_startContainer fun _ => rfl
  refine hcreates.mono (fun op hop => ?_) (fun _ h => h)
  cases op with
  | createContainer config => exact hop
  | _ => trivial

end Attempts

/-! ## The first entry and the highest attempt -/

theorem throughFirst_subset {α : Type} {p : α → Bool} {l : List α} : throughFirst p l ⊆ l := by
  induction l with
  | nil => exact List.Subset.refl _
  | cons a l ih =>
    unfold throughFirst
    split
    · exact List.cons_subset_cons a (List.nil_subset l)
    · exact List.cons_subset_cons a ih

theorem throughFirst_eq_nil {α : Type} {p : α → Bool} {l : List α} (h : throughFirst p l = []) : l = [] := by
  cases l with
  | nil => rfl
  | cons a l =>
    unfold throughFirst at h
    split at h
    · cases h
    · cases h

theorem exists_highest (h : l ≠ []) : ∃ c, Highest l c := by
  obtain ⟨c,hc⟩ : ∃ c, l.argmax RuntimeContainer.attempt = some c :=
    Option.ne_none_iff_exists'.mp (fun hnone => h (List.argmax_eq_none.mp hnone))
  exact ⟨c,List.argmax_mem hc,fun d hd => List.le_of_mem_argmax hd hc⟩

/-! ## What recovery stores -/

theorem saturatingSucc_mono {m n : ℕ} (h : m ≤ n) : saturatingSucc m ≤ saturatingSucc n :=
  min_le_min_right _ (Nat.succ_le_succ h)

/-- The restart count of a name after one of its attempts has been looked at. -/
def count (o : Option ℕ) (c : RuntimeContainer) : Option ℕ := some (max (saturatingSucc c.attempt) (o.getD 0))

theorem foldl_count {c : RuntimeContainer} {o : Option ℕ} (hmax : ∀ d ∈ l, d.attempt ≤ c.attempt)
    (ho : o.getD 0 ≤ saturatingSucc c.attempt) (hc : c ∈ l ∨ o = some (saturatingSucc c.attempt)) :
    l.foldl count o = some (saturatingSucc c.attempt) := by
  induction l generalizing o with
  | nil => exact hc.resolve_left List.not_mem_nil
  | cons d l ih =>
    have hd : saturatingSucc d.attempt ≤ saturatingSucc c.attempt := saturatingSucc_mono (hmax d List.mem_cons_self)
    refine ih (fun e he => hmax e (List.mem_cons_of_mem d he)) (max_le hd ho) ?_
    rcases hc with hc | rfl
    · rcases List.mem_cons.mp hc with rfl | hc
      · exact .inr (congrArg some (max_eq_left ho))
      · exact .inl hc
    · exact .inr (congrArg some (max_eq_right hd))

/-- A container changes nothing under another name, and nothing where it is not recovered. -/
theorem recoverContainer_frame (st : PodRuntimeState) {c : RuntimeContainer}
    (h : ¬(c.name = name ∧ c.podUid = pod.uid.val ∧ st.containerIds.lookup c.name = none)) :
    (recoverContainer pod st c).containerIds.lookup name = st.containerIds.lookup name ∧
      (recoverContainer pod st c).restartCounts.lookup name = st.restartCounts.lookup name := by
  unfold recoverContainer
  split
  · next hfree =>
    have hne : name ≠ c.name := fun hname => h ⟨hname.symm,hfree⟩
    dsimp only
    rw [AList.lookup_insert_ne hne]
    split
    · rw [AList.lookup_insert_ne hne]
      exact ⟨rfl,rfl⟩
    · exact ⟨rfl,rfl⟩
  · exact ⟨rfl,rfl⟩

theorem recoverContainer_taken (pod : PodSpec) {st : PodRuntimeState} (c : RuntimeContainer) {id : String}
    (h : st.containerIds.lookup name = some id) :
    (recoverContainer pod st c).containerIds.lookup name = some id ∧
      (recoverContainer pod st c).restartCounts.lookup name = st.restartCounts.lookup name := by
  have htaken : ¬(c.name = name ∧ c.podUid = pod.uid.val ∧ st.containerIds.lookup c.name = none) := by
    rintro ⟨rfl,-,hfree⟩
    rw [h] at hfree
    cases hfree
  obtain ⟨hid,hcount⟩ := recoverContainer_frame st htaken
  exact ⟨hid.trans h,hcount⟩

/-- Once a name has a container, its later attempts are not looked at. -/
theorem restartCounts_taken {st : PodRuntimeState} {id : String} (h : st.containerIds.lookup name = some id) :
    (recoverContainers pod st l).restartCounts.lookup name = st.restartCounts.lookup name := by
  induction l generalizing st with
  | nil => rfl
  | cons c l ih =>
    obtain ⟨hid,hcount⟩ := recoverContainer_taken pod c h
    exact (ih hid).trans hcount

theorem recoverContainer_other (st : PodRuntimeState) {c : RuntimeContainer}
    (h : ¬isAttempt pod name c = true) :
    (recoverContainer pod st c).containerIds.lookup name = st.containerIds.lookup name ∧
      (recoverContainer pod st c).restartCounts.lookup name = st.restartCounts.lookup name := by
  refine recoverContainer_frame st ?_
  rintro ⟨rfl,huid,-⟩
  apply h
  rw [isAttempt,huid,beq_self_eq_true,beq_self_eq_true]
  rfl

theorem recoverContainer_own {st : PodRuntimeState} {c : RuntimeContainer}
    (h : isAttempt pod name c = true) (hfree : st.containerIds.lookup name = none) :
    (recoverContainer pod st c).containerIds.lookup name = (if shouldRecover pod c then some c.id else none) ∧
      (recoverContainer pod st c).restartCounts.lookup name = count (st.restartCounts.lookup name) c := by
  rw [isAttempt,Bool.and_eq_true,beq_iff_eq,beq_iff_eq] at h
  obtain ⟨huid,rfl⟩ := h
  unfold recoverContainer
  rw [if_pos ⟨huid,hfree⟩]
  dsimp only
  rw [AList.lookup_insert]
  split
  · exact ⟨AList.lookup_insert _,rfl⟩
  · exact ⟨hfree,rfl⟩

theorem restartCounts_recoverContainers {st : PodRuntimeState} (h : st.containerIds.lookup name = none) :
    (recoverContainers pod st l).restartCounts.lookup name =
      (considered pod name l).foldl count (st.restartCounts.lookup name) := by
  induction l generalizing st with
  | nil => rfl
  | cons c l ih =>
    change (recoverContainers pod (recoverContainer pod st c) l).restartCounts.lookup name = _
    unfold considered attemptsOf
    by_cases hown : isAttempt pod name c = true
    · obtain ⟨hid,hcount⟩ := recoverContainer_own hown h
      rw [List.filter_cons_of_pos hown,throughFirst]
      by_cases hrec : shouldRecover pod c = true
      · rw [if_pos hrec] at hid ⊢
        rw [restartCounts_taken hid,hcount]
        rfl
      · rw [if_neg hrec] at hid ⊢
        rw [ih hid,hcount]
        rfl
    · obtain ⟨hid,hcount⟩ := recoverContainer_other st hown
      rw [List.filter_cons_of_neg hown,ih (hid.trans h),hcount]
      rfl

theorem containerIds_recovered {sandboxId : String} {sandboxIp : Option String} :
    (recovered pod sandboxId sandboxIp listing).containerIds.lookup name =
      ((attemptsOf pod name listing).find? (shouldRecover pod)).map (·.id) := by
  unfold recovered attemptsOf
  rw [lookup_recoverContainers,AList.lookup_empty,Option.none_or,List.find?_filter]
  congr 2
  funext c
  unfold isAttempt
  rw [Bool.eq_iff_iff,decide_eq_true_iff,Bool.and_eq_true]

theorem restartCounts_recovered {sandboxId : String} {sandboxIp : Option String} {c : RuntimeContainer}
    (hc : Highest (considered pod name listing) c) :
    (recovered pod sandboxId sandboxIp listing).restartCounts.lookup name = some (saturatingSucc c.attempt) := by
  unfold recovered
  rw [restartCounts_recoverContainers (AList.lookup_empty _)]
  exact foldl_count hc.2 (Nat.zero_le _) (.inl hc.1)

/-! ## Newest first -/

theorem highest_considered {c d : RuntimeContainer} (hc : Highest (attemptsOf pod name listing) c)
    (hd : Highest (considered pod name listing) d) :
    saturatingSucc d.attempt = c.attempt + 1 ↔
      (∃ e ∈ considered pod name listing, e.attempt = c.attempt) ∧ c.attempt < 2 ^ 32 - 1 := by
  have hle : d.attempt ≤ c.attempt := hc.2 d (throughFirst_subset hd.1)
  unfold saturatingSucc
  constructor
  · intro h
    exact ⟨⟨d,hd.1,by omega⟩,by omega⟩
  · rintro ⟨⟨e,he,hec⟩,hlt⟩
    have hed : e.attempt ≤ d.attempt := hd.2 e he
    omega

theorem exists_highest_considered {c : RuntimeContainer} (hc : Highest (attemptsOf pod name listing) c) :
    ∃ d, Highest (considered pod name listing) d := by
  apply exists_highest
  intro hnil
  have hempty : attemptsOf pod name listing = [] := throughFirst_eq_nil hnil
  have hmem := hc.1
  rw [hempty] at hmem
  exact absurd hmem List.not_mem_nil

/-- Recovery takes over the newest container of a name and goes on after its last attempt exactly
when the listing shows it in time. -/
theorem recovered_resumes_iff (pod : PodSpec) (name sandboxId : String) (sandboxIp : Option String)
    (listing : List RuntimeContainer) :
    Resumed pod name (recovered pod sandboxId sandboxIp listing) listing ↔ NewestFirst pod name listing := by
  constructor
  · intro h
    constructor
    · intro c hc
      exact h.adopted c.id (by rw [containerIds_recovered,hc,Option.map_some])
    · intro c hc
      obtain ⟨d,hd⟩ := exists_highest_considered hc
      have hcount := h.counted c hc
      rw [restartCounts_recovered hd] at hcount
      exact (highest_considered hc hd).mp (Option.some.inj hcount)
  · intro h
    have hcounted : ∀ c, Highest (attemptsOf pod name listing) c →
        (recovered pod sandboxId sandboxIp listing).restartCounts.lookup name = some (c.attempt + 1) := by
      intro c hc
      obtain ⟨d,hd⟩ := exists_highest_considered hc
      rw [restartCounts_recovered hd,(highest_considered hc hd).mpr (h.seen c hc)]
    refine ⟨?_,?_,hcounted,?_⟩
    · intro id hid
      rw [containerIds_recovered] at hid
      obtain ⟨c,hc,rfl⟩ := Option.map_eq_some_iff.mp hid
      exact h.first c hc
    · intro hnone
      rw [containerIds_recovered,Option.map_eq_none_iff,List.find?_eq_none] at hnone
      exact List.filter_eq_nil_iff.mpr hnone
    · intro ctr sandboxId' st' hname hst
      refine ⟨_,uses_startContainer,fun c hc => ?_⟩
      obtain ⟨d,hd⟩ := exists_highest (List.ne_nil_of_mem hc)
      rw [hname,hst,hcounted d hd]
      exact Nat.lt_succ_of_le (hd.2 c hc)

/-! ## Two attempts of an init container -/

def initPod : PodSpec :=
  { uid := ⟨"u"⟩
    podRef := ⟨"default","web"⟩
    initContainers := [{ name := "migrate" }] }

/-- An attempt of the init container that has exited. -/
def exitedAttempt (id : String) (attempt : ℕ) : RuntimeContainer :=
  { id := id
    podUid := "u"
    name := "migrate"
    state := .exited
    attempt := attempt }

/-- The older attempt is listed first: it is taken over, and the number of the newer one is used
again. -/
theorem older_attempt_adopted :
    (recovered initPod "s" none [exitedAttempt "c0" 0,exitedAttempt "c1" 1]).containerIds.lookup "migrate" = some "c0" ∧
      (recovered initPod "s" none [exitedAttempt "c0" 0,exitedAttempt "c1" 1]).restartCounts.lookup "migrate" = some 1 ∧
      ¬Resumed initPod "migrate" (recovered initPod "s" none [exitedAttempt "c0" 0,exitedAttempt "c1" 1])
        [exitedAttempt "c0" 0,exitedAttempt "c1" 1] := by
  refine ⟨by decide,by decide,fun h => ?_⟩
  have hattempts : attemptsOf initPod "migrate" [exitedAttempt "c0" 0,exitedAttempt "c1" 1] =
      [exitedAttempt "c0" 0,exitedAttempt "c1" 1] := rfl
  have hhighest : Highest (attemptsOf initPod "migrate" [exitedAttempt "c0" 0,exitedAttempt "c1" 1])
      (exitedAttempt "c1" 1) := by
    rw [hattempts]
    exact ⟨List.mem_cons_of_mem _ List.mem_cons_self,List.forall_mem_cons.mpr ⟨by decide,
      List.forall_mem_singleton.mpr (Nat.le_refl _)⟩⟩
  exact absurd (h.counted _ hhighest) (by decide)

end KubeAir.Worker.Recovery
