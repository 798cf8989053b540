import KubeAir.Adapters.Admission
import KubeAir.Adapters.EvictionManager
import KubeAir.Core.Lifecycle
import KubeAir.Transition.Ranking

/-! # The order of eviction

The manager is to evict the pods of the lower classes first, and within a class those that use
most memory above their request. It goes by the whole usage and leaves out the pods that are
never restarted, so the ranking is the one that is meant only as far as these come to the same.
-/
namespace KubeAir.Adapters.Eviction
open Core Transition

section Ranking
variable (request : PodSpec → ℕ) (usage : HashMap PodUID PodResourceUsage) (phase : PodUID → PodPhase)
variable (pods : List PodSpec)

def memoryBytes (p : PodSpec) : UInt64 := ((usage.lookup p.uid).map (·.memoryBytes)).getD 0

def memoryUsage (p : PodSpec) : ℕ := (memoryBytes usage p).toNat

/-- The usage above the request, zero below it. -/
def memoryExcess (p : PodSpec) : ℕ := memoryUsage usage p - request p

/-- Lower classes first, and within a class the higher amount. -/
def evictedBefore (amount : PodSpec → ℕ) (p q : PodSpec) : Prop :=
  qosEvictionPriority (computeQosClass p) < qosEvictionPriority (computeQosClass q) ∨
    qosEvictionPriority (computeQosClass p) = qosEvictionPriority (computeQosClass q) ∧ amount q ≤ amount p

def rankedEntry (p : PodSpec) : Ranked := (p.uid,computeQosClass p,memoryBytes usage p)

/-- The ranking has the pods that are not finished, in the order that is meant. -/
def RanksByExcess : Prop :=
  ∃ ranked,
    StablyRanked (evictedBefore (memoryExcess request usage)) (pods.filter (fun p => ¬(phase p.uid).IsTerminal)) ranked ∧
      rankForMemory pods usage = ranked.map (rankedEntry usage)

section Order
variable (amount amount' : PodSpec → ℕ)

instance : DecidableRel (evictedBefore amount) := fun _ _ => inferInstanceAs (Decidable (_ ∨ _))

instance : Std.Total (evictedBefore amount) where
  total p q := by
    unfold evictedBefore
    rcases lt_trichotomy (qosEvictionPriority (computeQosClass p)) (qosEvictionPriority (computeQosClass q)) with
      h | h | h
    · exact .inl (.inl h)
    · exact (le_total (amount q) (amount p)).imp (fun hle => .inr ⟨h,hle⟩) (fun hle => .inr ⟨h.symm,hle⟩)
    · exact .inr (.inl h)

instance : IsTrans PodSpec (evictedBefore amount) where
  trans p q r hpq hqr := by
    unfold evictedBefore at *
    rcases hpq with hpq | ⟨hpq,hle⟩
    · exact .inl (hqr.elim hpq.trans (fun h => hpq.trans_eq h.1))
    · rcases hqr with hqr | ⟨hqr,hle'⟩
      · exact .inl (hpq.trans_lt hqr)
      · exact .inr ⟨hpq.trans hqr,hle'.trans hle⟩

theorem qosEvictionPriority_inj {c d : QosClass} : qosEvictionPriority c = qosEvictionPriority d ↔ c = d := by
  cases c <;> cases d <;> decide

/-- Two amounts order the pods alike when they do so within each class. -/
theorem evictedBefore_congr_iff {p q : PodSpec} :
    (evictedBefore amount p q ↔ evictedBefore amount' p q) ↔
      (computeQosClass p = computeQosClass q → (amount q ≤ amount p ↔ amount' q ≤ amount' p)) := by
  unfold evictedBefore
  rw [qosEvictionPriority_inj]
  by_cases hclass : computeQosClass p = computeQosClass q
  · rw [hclass]
    simp only [lt_irrefl,false_or,true_and,forall_const]
  · simp only [hclass,false_and,or_false,false_imp_iff]

end Order

/-- The ranking of the code, as one of pods. -/
theorem rankForMemory_eq : rankForMemory pods usage =
    ((pods.filter (fun p : PodSpec => p.restartPolicy ≠ .never)).insertionSort (evictedBefore (memoryUsage usage))).map
      (rankedEntry usage) :=
  (List.map_insertionSort (evictedBefore (memoryUsage usage)) rankedBefore (rankedEntry usage) _
    (fun _ _ _ _ => Iff.rfl)).symm

variable {pods} {phase} {request} {usage}

theorem eq_of_map_uid_eq (hnodup : (pods.map (·.uid)).Nodup) {l l' : List PodSpec} (hl : l ⊆ pods) (hl' : l' ⊆ pods)
    (h : l.map (·.uid) = l'.map (·.uid)) : l = l' := by
  induction l generalizing l' with
  | nil => exact (List.map_eq_nil_iff.mp h.symm).symm
  | cons p l ih =>
    obtain ⟨q,l',rfl,hq,htail⟩ := List.map_eq_cons_iff.mp h.symm
    rw [List.inj_on_of_nodup_map hnodup (hl' List.mem_cons_self) (hl List.mem_cons_self) hq,
      ih (fun x hx => hl (List.mem_cons_of_mem p hx)) (fun x hx => hl' (List.mem_cons_of_mem q hx)) htail.symm]

/-- The pods that are ranked, as long as those that are never restarted are the finished ones. -/
theorem filter_unfinished (h : ∀ p ∈ pods, p.restartPolicy = .never ↔ (phase p.uid).IsTerminal) :
    pods.filter (fun p => ¬(phase p.uid).IsTerminal) = pods.filter (fun p => p.restartPolicy ≠ .never) :=
  List.filter_congr fun p hp => decide_eq_decide.mpr (not_congr (h p hp).symm)

theorem pair_sublist_filter_iff {p q : PodSpec} :
    List.Sublist [p,q] (pods.filter (fun p => p.restartPolicy ≠ .never)) ↔
      List.Sublist [p,q] pods ∧ p.restartPolicy ≠ .never ∧ q.restartPolicy ≠ .never := by
  constructor
  · intro h
    have hkept : ∀ x ∈ [p,q], x.restartPolicy ≠ .never := fun x hx =>
      of_decide_eq_true (List.mem_filter.mp (h.subset hx)).2
    exact ⟨h.trans List.filter_sublist,hkept p List.mem_cons_self,hkept q (List.mem_cons_of_mem p List.mem_cons_self)⟩
  · rintro ⟨h,hp,hq⟩
    have hkept := h.filter (fun p => p.restartPolicy ≠ .never)
    rwa [List.filter_cons_of_pos (by simpa using hp),List.filter_cons_of_pos (by simpa using hq),List.filter_nil] at hkept

/-- The ranking is the meant one exactly if the pods that are never restarted are the finished ones,
and within each class usage and usage above request order the pods alike. -/
theorem ranksByExcess_iff (hnodup : (pods.map (·.uid)).Nodup) :
    RanksByExcess request usage phase pods ↔
      (∀ p ∈ pods, p.restartPolicy = .never ↔ (phase p.uid).IsTerminal) ∧
        ∀ p q, List.Sublist [p,q] pods → p.restartPolicy ≠ .never → q.restartPolicy ≠ .never →
          computeQosClass p = computeQosClass q →
            (memoryUsage usage q ≤ memoryUsage usage p ↔
              memoryExcess request usage q ≤ memoryExcess request usage p) := by
  have hsorted : StablyRanked (evictedBefore (memoryUsage usage))
      (pods.filter (fun p : PodSpec => p.restartPolicy ≠ .never)) _ := stablyRanked_insertionSort _
  have hkept : (pods.filter (fun p : PodSpec => p.restartPolicy ≠ .never)).Nodup := (List.Nodup.of_map _ hnodup).filter _
  have hagree : (∀ p q, List.Sublist [p,q] (pods.filter (fun p : PodSpec => p.restartPolicy ≠ .never)) →
      (evictedBefore (memoryUsage usage) p q ↔ evictedBefore (memoryExcess request usage) p q)) ↔
        ∀ p q, List.Sublist [p,q] pods → p.restartPolicy ≠ .never → q.restartPolicy ≠ .never →
          computeQosClass p = computeQosClass q →
            (memoryUsage usage q ≤ memoryUsage usage p ↔
              memoryExcess request usage q ≤ memoryExcess request usage p) := by
    simp only [pair_sublist_filter_iff,evictedBefore_congr_iff,and_imp]
  constructor
  · rintro ⟨ranked,hranked,heq⟩
    have huids : ranked.map (·.uid) =
        ((pods.filter (fun p : PodSpec => p.restartPolicy ≠ .never)).insertionSort
          (evictedBefore (memoryUsage usage))).map (·.uid) := by
      have h := congrArg (List.map Prod.fst) (heq.symm.trans (rankForMemory_eq usage pods))
      rwa [List.map_map,List.map_map] at h
    obtain rfl := eq_of_map_uid_eq hnodup (fun p hp => List.mem_of_mem_filter (hranked.perm.mem_iff.mp hp))
      (fun p hp => List.mem_of_mem_filter (hsorted.perm.mem_iff.mp hp)) huids
    have hphase : ∀ p ∈ pods, p.restartPolicy = .never ↔ (phase p.uid).IsTerminal := by
      intro p hp
      have hmem := (hsorted.perm.symm.trans hranked.perm).mem_iff (a := p)
      rw [List.mem_filter,List.mem_filter,and_iff_right hp,and_iff_right hp,decide_eq_true_iff,decide_eq_true_iff] at hmem
      exact not_iff_not.mp hmem
    rw [filter_unfinished hphase] at hranked
    exact ⟨hphase,hagree.mp ((hsorted.iff_agree hkept).mp hranked)⟩
  · rintro ⟨hphase,horder⟩
    refine ⟨_,?_,rankForMemory_eq usage pods⟩
    rw [filter_unfinished hphase]
    exact (hsorted.iff_agree hkept).mpr (hagree.mpr horder)

end Ranking

/-! ## A large request -/

def requestingContainer (name : String) (bytes : ℤ) : ContainerSpec where
  name := name
  resources := { requests := (∅ : HashMap String ResourceQuantity).insert "memory" ⟨bytes,.bytes⟩ }

def requestingPod (name : String) (bytes : ℤ) : PodSpec where
  uid := ⟨name⟩
  podRef := ⟨"default",name⟩
  containers := [requestingContainer "app" bytes]

/-- A database within its request, and a small pod that is far above its own. -/
def crowdedPods : List PodSpec := [requestingPod "db" 1000,requestingPod "leaky" 10]

def crowdedUsage : HashMap PodUID PodResourceUsage :=
  ((∅ : HashMap PodUID PodResourceUsage).insert ⟨"db"⟩ { memoryBytes := 900 }).insert ⟨"leaky"⟩ { memoryBytes := 500 }

/-- Two pods above their requests, one that asks for nothing, and one that is never restarted. -/
def rankedPods : List PodSpec :=
  [requestingPod "cache" 200,{ requestingPod "report" 50 with restartPolicy := .never },requestingPod "web" 100,
    { requestingPod "batch" 0 with containers := [{ name := "app" }] }]

def rankedUsage : HashMap PodUID PodResourceUsage :=
  (((crowdedUsage.insert ⟨"cache"⟩ { memoryBytes := 700 }).insert ⟨"web"⟩ { memoryBytes := 900 }).insert ⟨"batch"⟩
    { memoryBytes := 50 }).insert ⟨"report"⟩ { memoryBytes := 2000 }

/-- Only the pod that is never restarted has come to its end. -/
def reportDone (uid : PodUID) : PodPhase := if uid = ⟨"report"⟩ then .succeeded else .running

/-- The pods of one class with usage and excess in one order, behind the pod of the lower class. -/
theorem ranksByExcess_classes :
    RanksByExcess (fun p => (Admission.podMemoryBytes p).toNat) rankedUsage reportDone rankedPods ∧
      rankForMemory rankedPods rankedUsage =
        [(⟨"batch"⟩,.bestEffort,50),(⟨"web"⟩,.burstable,900),(⟨"cache"⟩,.burstable,700)] := by
  have horder : ∀ p ∈ rankedPods, ∀ q ∈ rankedPods, p.restartPolicy ≠ .never → q.restartPolicy ≠ .never →
      computeQosClass p = computeQosClass q →
        (memoryUsage rankedUsage q ≤ memoryUsage rankedUsage p ↔
          memoryExcess (fun p => (Admission.podMemoryBytes p).toNat) rankedUsage q ≤
            memoryExcess (fun p => (Admission.podMemoryBytes p).toNat) rankedUsage p) := by decide
  refine ⟨(ranksByExcess_iff (by decide)).mpr ⟨by decide,fun p q hpair => ?_⟩,by decide⟩
  exact horder p (hpair.subset List.mem_cons_self) q (hpair.subset (List.mem_cons_of_mem p List.mem_cons_self))

/-- The pod within its request is ranked ahead of the one above its request. -/
theorem within_request_first :
    rankForMemory crowdedPods crowdedUsage = [(⟨"db"⟩,.burstable,900),(⟨"leaky"⟩,.burstable,500)] ∧
      ¬RanksByExcess (fun p => (Admission.podMemoryBytes p).toNat) crowdedUsage (fun _ => .running) crowdedPods := by
  have hrank : rankForMemory crowdedPods crowdedUsage = [(⟨"db"⟩,.burstable,900),(⟨"leaky"⟩,.burstable,500)] := by decide
  refine ⟨hrank,?_⟩
  rintro ⟨ranked,hranked,heq⟩
  have huids : ranked.map (·.uid) = crowdedPods.map (·.uid) := by
    have h := congrArg (List.map Prod.fst) (heq.symm.trans hrank)
    rwa [List.map_map] at h
  obtain rfl := eq_of_map_uid_eq (by decide) (fun p hp => List.mem_of_mem_filter (hranked.perm.mem_iff.mp hp))
    (fun p hp => hp) huids
  exact absurd (List.pairwise_pair.mp hranked.sorted) (by decide)

end KubeAir.Adapters.Eviction
