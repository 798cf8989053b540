import KubeAir.Adapters.CompositeVolumes
import KubeAir.Transition.Interleaving

/-! # Release of CSI volumes

What the calls to the plugins say about a volume, compared with what the manager keeps of it,
while the sections of any number of calls take turns.
-/
namespace KubeAir.Adapters
open Core Paths Transition

/-! ## What a log says -/

namespace Rpc

def stages (volumeId : String) : Rpc → Bool
  | .nodeStageVolume _ req => req.volumeId = volumeId
  | _ => false

def unstages (volumeId : String) : Rpc → Bool
  | .nodeUnstageVolume _ req => req.volumeId = volumeId
  | _ => false

def publishes (volumeId : String) (target : Path) : Rpc → Bool
  | .nodePublishVolume _ req => req.volumeId = volumeId ∧ req.targetPath = target
  | _ => false

def unpublishes (volumeId : String) (target : Path) : Rpc → Bool
  | .nodeUnpublishVolume _ req => req.volumeId = volumeId ∧ req.targetPath = target
  | _ => false

def socket : Rpc → Path
  | .nodeStageVolume socket _ => socket
  | .nodePublishVolume socket _ => socket
  | .nodeUnpublishVolume socket _ => socket
  | .nodeUnstageVolume socket _ => socket

end Rpc

/-- Something is switched on and off by calls. -/
def switched (on off : Rpc → Bool) (log : List Rpc) : Bool := log.foldl (fun b r => (b || on r) && !off r) false

/-- A target that is published and has not been unpublished. -/
def isLive (log : List Rpc) (volumeId : String) (target : Path) : Bool :=
  switched (Rpc.publishes volumeId target) (Rpc.unpublishes volumeId target) log

/-- A volume that is staged and has not been unstaged. -/
def staysStaged (log : List Rpc) (volumeId : String) : Bool := switched (Rpc.stages volumeId) (Rpc.unstages volumeId) log

/-- The socket of the driver that published a volume at a target, the last time. -/
def publisher (log : List Rpc) (volumeId : String) (target : Path) : Option Path :=
  (log.reverse.find? (Rpc.publishes volumeId target)).map Rpc.socket

/-- An unpublish is sent to the driver that published the volume at the target. -/
def SentToDriver (log : List Rpc) : Prop :=
  ∀ before socket req after, log = before ++ .nodeUnpublishVolume socket req :: after →
    publisher before req.volumeId req.targetPath = some socket

/-- The manager knows the volumes that have a published target. -/
def KnowsPublished (s : CompositeVolumeManager) : Prop :=
  ∀ volumeId, s.csi.isPublished volumeId = true ↔ ∃ target, isLive s.log volumeId target = true

/-- A staged volume is unstaged once its last target is unpublished. -/
def UnstagesLast (log : List Rpc) : Prop :=
  ∀ before socket req after, log = before ++ .nodeUnpublishVolume socket req :: after →
    staysStaged before req.volumeId = true →
    (∀ target, isLive (before ++ [.nodeUnpublishVolume socket req]) req.volumeId target = false) →
    ∃ r ∈ after, r.unstages req.volumeId = true

/-- CSI volumes are released by their own driver. -/
structure Released (s : CompositeVolumeManager) : Prop where
  driver : SentToDriver s.log
  published : KnowsPublished s
  unstaged : UnstagesLast s.log

section Log
variable {on off : Rpc → Bool} {log : List Rpc} {r : Rpc}

theorem switched_concat : switched on off (log ++ [r]) = ((switched on off log || on r) && !off r) := by
  unfold switched
  rw [List.foldl_append,List.foldl_cons,List.foldl_nil]

/-- What is never switched off is on once it was switched on. -/
theorem switched_of_never_off (h : ∀ r ∈ log, off r = false) : switched on off log = true ↔ ∃ r ∈ log, on r = true := by
  induction log using List.reverseRecOn with
  | nil => simp [switched]
  | append_singleton log r ih =>
    have hlog := ih (fun r' hr => h r' (List.mem_append_left _ hr))
    have hr : off r = false := h r (List.mem_append_right _ (List.mem_singleton_self r))
    rw [switched_concat,hr,Bool.not_false,Bool.and_true,Bool.or_eq_true,hlog]
    simp only [List.mem_append,List.mem_singleton,or_and_right,exists_or,exists_eq_left]

section Live
variable {volumeId : String} {target socket : Path}

theorem isLive_stage {req : NodeStageVolumeRequest} :
    isLive (log ++ [.nodeStageVolume socket req]) volumeId target = isLive log volumeId target := by
  unfold isLive
  rw [switched_concat]
  simp [Rpc.publishes,Rpc.unpublishes]

theorem isLive_publish {req : NodePublishVolumeRequest} :
    isLive (log ++ [.nodePublishVolume socket req]) volumeId target = true ↔
      isLive log volumeId target = true ∨ req.volumeId = volumeId ∧ req.targetPath = target := by
  unfold isLive
  rw [switched_concat]
  simp [Rpc.publishes,Rpc.unpublishes]

theorem isLive_unpublish {req : NodeUnpublishVolumeRequest} :
    isLive (log ++ [.nodeUnpublishVolume socket req]) volumeId target = true ↔
      isLive log volumeId target = true ∧ ¬(req.volumeId = volumeId ∧ req.targetPath = target) := by
  unfold isLive
  rw [switched_concat]
  simp only [Rpc.publishes,Rpc.unpublishes,Bool.or_false,Bool.and_eq_true,Bool.not_eq_true',decide_eq_false_iff_not]

end Live

/-- A call in a log is the last one or one of those before. -/
theorem concat_eq_append_cons {before after : List Rpc} {u : Rpc} : log ++ [r] = before ++ u :: after ↔
    (after = [] ∧ log = before ∧ r = u) ∨ ∃ after', after = after' ++ [r] ∧ log = before ++ u :: after' := by
  constructor
  · intro h
    rcases List.eq_nil_or_concat' after with rfl | ⟨after',x,rfl⟩
    · obtain ⟨hlog,hr⟩ := List.append_inj' h rfl
      exact .inl ⟨rfl,hlog,List.singleton_inj.mp hr⟩
    · rw [← List.cons_append,← List.append_assoc] at h
      obtain ⟨hlog,hr⟩ := List.append_inj' h rfl
      exact .inr ⟨after',by rw [hr],hlog⟩
  · rintro (⟨rfl,rfl,rfl⟩ | ⟨after',rfl,rfl⟩)
    · rfl
    · rw [List.append_assoc,List.cons_append]

theorem sentToDriver_concat : SentToDriver (log ++ [r]) ↔ SentToDriver log ∧
    ∀ socket req, r = .nodeUnpublishVolume socket req → publisher log req.volumeId req.targetPath = some socket := by
  constructor
  · intro h
    refine ⟨fun before socket req after heq => ?_,fun socket req heq => ?_⟩
    · exact h before socket req (after ++ [r]) (concat_eq_append_cons.mpr (.inr ⟨after,rfl,heq⟩))
    · exact h log socket req [] (concat_eq_append_cons.mpr (.inl ⟨rfl,rfl,heq⟩))
  · rintro ⟨hlog,hr⟩ before socket req after heq
    rcases concat_eq_append_cons.mp heq with ⟨rfl,rfl,hu⟩ | ⟨after',rfl,hlog'⟩
    · exact hr socket req hu
    · exact hlog before socket req after' hlog'

/-- Calls other than unstages leave a staged volume to have a target left. -/
theorem unstagesLast_concat (hr : ∀ volumeId, r.unstages volumeId = false) : UnstagesLast (log ++ [r]) ↔ UnstagesLast log ∧
    ∀ socket req, r = .nodeUnpublishVolume socket req → staysStaged log req.volumeId = true →
      ∃ target, isLive (log ++ [r]) req.volumeId target = true := by
  constructor
  · intro h
    refine ⟨fun before socket req after heq hstaged hnone => ?_,fun socket req heq hstaged => ?_⟩
    · obtain ⟨r',hr',hu⟩ := h before socket req (after ++ [r]) (concat_eq_append_cons.mpr (.inr ⟨after,rfl,heq⟩)) hstaged hnone
      rcases List.mem_append.mp hr' with hr' | hr'
      · exact ⟨r',hr',hu⟩
      · rw [List.mem_singleton.mp hr',hr] at hu
        cases hu
    · by_contra hlive
      have hnone : ∀ target, isLive (log ++ [r]) req.volumeId target = false :=
        fun target => Bool.eq_false_iff.mpr (fun ht => hlive ⟨target,ht⟩)
      subst heq
      obtain ⟨r',hr',-⟩ := h log socket req [] rfl hstaged hnone
      exact absurd hr' List.not_mem_nil
  · rintro ⟨hlog,hlast⟩ before socket req after heq hstaged hnone
    rcases concat_eq_append_cons.mp heq with ⟨rfl,rfl,rfl⟩ | ⟨after',rfl,hlog'⟩
    · obtain ⟨target,ht⟩ := hlast socket req rfl hstaged
      rw [hnone target] at ht
      cases ht
    · obtain ⟨r',hr',hu⟩ := hlog before socket req after' hlog' hstaged hnone
      exact ⟨r',List.mem_append_left _ hr',hu⟩

end Log

/-! ## Every record is of a staged volume -/

def WasStaged (log : List Rpc) (volumeId : String) : Prop := ∃ r ∈ log, r.stages volumeId = true

theorem WasStaged.mono {log log' : List Rpc} {volumeId : String} (h : WasStaged log volumeId) (hlog : log <+: log') :
    WasStaged log' volumeId := by
  obtain ⟨r,hr,hs⟩ := h
  exact ⟨r,hlog.subset hr,hs⟩

namespace CompositeVolumeManager

/-- What a call learns from an answer: the record that it adds or takes is of a staged volume. -/
def Learned (s : CompositeVolumeManager) : (op : VolumeSection) → op.Answer → Prop
  | .stageAndPublish ctx => fun answer => answer = .ok () → WasStaged s.log ctx.volumeId
  | .takeCsiMounted _ => fun answer => ∀ v, answer = some v → WasStaged s.log v.volumeId
  | _ => fun _ => True

/-- Calls are only added to the log, and a call handles records of volumes that were staged. -/
def ledger : Contract VolumeSection VolumeSection.Answer CompositeVolumeManager where
  drift s s' := s.log <+: s'.log
  allowed s := fun
    | .pushCsiMounted v => WasStaged s.log v.volumeId
    | .unpublishVolume volumeId _ => WasStaged s.log volumeId
    | _ => True
  answers s op a s' := s.log <+: s'.log ∧ Learned s' op a

structure Recorded (s : CompositeVolumeManager) : Prop where
  table : ∀ podUid, ∀ v ∈ s.csiVolumes podUid, WasStaged s.log v.volumeId
  noUnstage : ∀ r ∈ s.log, ∀ volumeId, r.unstages volumeId = false

section Sections
variable {s s' : CompositeVolumeManager}

theorem csiVolumes_congr (h : s'.csiMounted = s.csiMounted) (podUid : String) : s'.csiVolumes podUid = s.csiVolumes podUid := by
  unfold csiVolumes
  rw [h]

/-- The table keeps its records while calls other than unstages are made. -/
theorem Recorded.append (h : Recorded s) {rs : List Rpc} (htable : s'.csiMounted = s.csiMounted)
    (hlog : s'.log = s.log ++ rs) (hrs : ∀ r ∈ rs, ∀ volumeId, r.unstages volumeId = false) : Recorded s' where
  table podUid v hv := by
    rw [csiVolumes_congr htable] at hv
    exact (h.table podUid v hv).mono ⟨rs,hlog.symm⟩
  noUnstage r hr := by
    rw [hlog] at hr
    rcases List.mem_append.mp hr with hr | hr
    · exact h.noUnstage r hr
    · exact hrs r hr

theorem Recorded.congr (h : Recorded s) (htable : s'.csiMounted = s.csiMounted) (hlog : s'.log = s.log) : Recorded s' :=
  h.append htable (hlog.trans (List.append_nil s.log).symm) (fun _ hr => absurd hr List.not_mem_nil)

theorem Recorded.push (h : Recorded s) {v : CsiVolume} (hv : WasStaged s.log v.volumeId) : Recorded (s.pushCsiMounted v) where
  table podUid v' hv' := by
    rw [csiVolumes_pushCsiMounted] at hv'
    split at hv'
    · rcases List.mem_append.mp hv' with hv' | hv'
      · exact h.table podUid v' hv'
      · rwa [List.mem_singleton.mp hv']
    · exact h.table podUid v' hv'
  noUnstage := h.noUnstage

theorem Recorded.take (h : Recorded s) (req : UnmountRequest) : Recorded (s.takeCsiMounted req).2 where
  table podUid v hv := by
    rw [csiVolumes_takeCsiMounted] at hv
    split at hv
    · exact h.table podUid v (List.mem_of_mem_eraseP hv)
    · exact h.table podUid v hv
  noUnstage := h.noUnstage

/-- Every section keeps to the ledger. -/
theorem perform_ledger (h : Recorded s) (client : Unpublisher) (choice : Choice) (op : VolumeSection)
    (hop : ledger.allowed s op) : ledger.drift s (perform client choice s op).2 ∧
      ledger.answers s op (perform client choice s op).1 (perform client choice s op).2 ∧
      Recorded (perform client choice s op).2 := by
  cases op with
  | defaultDriver => exact ⟨List.prefix_rfl,⟨List.prefix_rfl,trivial⟩,h⟩
  | resolvePvcToPv ns claimName => exact ⟨List.prefix_rfl,⟨List.prefix_rfl,trivial⟩,h⟩
  | stageAndPublish ctx =>
    dsimp only [perform]
    rcases stageAndPublish_cases (s := s) ctx choice with ⟨e,csi,heq,-⟩ |
      ⟨csi,socket,req,hid,⟨e,heq,-⟩ | ⟨socket',req',-,-,heq,-⟩⟩
    · rw [heq]
      exact ⟨List.prefix_rfl,⟨List.prefix_rfl,nofun⟩,h.congr rfl rfl⟩
    · rw [heq]
      refine ⟨List.prefix_append _ _,⟨List.prefix_append _ _,nofun⟩,h.append rfl rfl ?_⟩
      intro r hr volumeId
      rw [List.mem_singleton.mp hr]
      rfl
    · rw [heq]
      refine ⟨List.prefix_append _ _,⟨List.prefix_append _ _,fun _ => ?_⟩,h.append rfl rfl ?_⟩
      · refine ⟨.nodeStageVolume socket req,List.mem_append_right _ List.mem_cons_self,?_⟩
        simp only [Rpc.stages,hid,decide_true]
      · intro r hr volumeId
        rcases List.mem_pair.mp hr with rfl | rfl
        · rfl
        · rfl
  | pushCsiMounted v => exact ⟨List.prefix_rfl,⟨List.prefix_rfl,trivial⟩,h.push hop⟩
  | takeCsiMounted req =>
    refine ⟨List.prefix_rfl,⟨List.prefix_rfl,fun v hv => ?_⟩,h.take req⟩
    exact h.table req.podUid v (List.mem_of_find?_eq_some hv)
  | unpublishVolume volumeId targetPath =>
    dsimp only [perform]
    rcases unpublishVolume_cases (s := s) client volumeId targetPath choice with ⟨e,csi,heq⟩ | ⟨csi,socket,heq,-⟩
    · rw [heq]
      exact ⟨List.prefix_rfl,⟨List.prefix_rfl,trivial⟩,h.congr rfl rfl⟩
    · rw [heq]
      refine ⟨List.prefix_append _ _,⟨List.prefix_append _ _,trivial⟩,h.append rfl rfl ?_⟩
      intro r hr volumeId
      rw [List.mem_singleton.mp hr]
      rfl
  | mountLocal req =>
    obtain ⟨-,htable,hlog⟩ := mountLocal_frame (s := s) req choice
    have hp : s.log <+: (s.mountLocal req choice).2.log := by rw [hlog]
    exact ⟨hp,⟨hp,trivial⟩,h.congr htable hlog⟩
  | unmountLocal requests =>
    obtain ⟨-,htable,hlog⟩ := unmountLocal_frame (s := s) requests
    have hp : s.log <+: (s.unmountLocal requests).log := by rw [hlog]
    exact ⟨hp,⟨hp,trivial⟩,h.congr htable hlog⟩

/-! ## What a section does to the laws -/

theorem knowsPublished_congr (hcsi : s'.csi.published = s.csi.published) (hlog : s'.log = s.log) (h : KnowsPublished s) :
    KnowsPublished s' := by
  intro volumeId
  unfold CsiVolumeManager.isPublished
  rw [hcsi,hlog]
  exact h volumeId

/-- A section other than an unpublish adds a stage, or a stage and a publish that the manager
keeps, to the log, or nothing. -/
theorem perform_log (client : Unpublisher) (choice : Choice) {op : VolumeSection}
    (hop : ∀ volumeId target, op ≠ .unpublishVolume volumeId target) :
    ((perform client choice s op).2.log = s.log ∧
      (perform client choice s op).2.csi.published = s.csi.published) ∨
    ∃ socket req, ((perform client choice s op).2.log = s.log ++ [.nodeStageVolume socket req] ∧
        (perform client choice s op).2.csi.published = s.csi.published) ∨
      ∃ socket' req', (perform client choice s op).2.log =
          s.log ++ [.nodeStageVolume socket req] ++ [.nodePublishVolume socket' req'] ∧
        (perform client choice s op).2.csi.published = s.csi.published.insert req'.volumeId req'.targetPath := by
  cases op with
  | defaultDriver => exact .inl ⟨rfl,rfl⟩
  | resolvePvcToPv ns claimName => exact .inl ⟨rfl,rfl⟩
  | stageAndPublish ctx =>
    dsimp only [CompositeVolumeManager.perform]
    rcases stageAndPublish_cases (s := s) ctx choice with ⟨e,csi,heq,hpub⟩ |
      ⟨csi,socket,req,-,⟨e,heq,hpub⟩ | ⟨socket',req',hid',htarget,heq,hpub⟩⟩
    · rw [heq]
      exact .inl ⟨rfl,hpub⟩
    · rw [heq]
      exact .inr ⟨socket,req,.inl ⟨rfl,hpub⟩⟩
    · rw [heq]
      exact .inr ⟨socket,req,.inr ⟨socket',req',by rw [List.append_assoc]; rfl,by rw [hid',htarget,hpub]⟩⟩
  | pushCsiMounted v => exact .inl ⟨rfl,rfl⟩
  | takeCsiMounted req => exact .inl ⟨rfl,rfl⟩
  | unpublishVolume volumeId target => exact absurd rfl (hop volumeId target)
  | mountLocal req =>
    obtain ⟨hcsi,-,hlog⟩ := mountLocal_frame (s := s) req choice
    exact .inl ⟨hlog,congrArg _ hcsi⟩
  | unmountLocal requests =>
    obtain ⟨hcsi,-,hlog⟩ := unmountLocal_frame (s := s) requests
    exact .inl ⟨hlog,congrArg _ hcsi⟩

/-- What staging and publishing leave true of the log stays true in every other section. -/
theorem perform_log_keeps {P : List Rpc → Prop} (hstage : ∀ log socket req, P log → P (log ++ [.nodeStageVolume socket req]))
    (hpublish : ∀ log socket req, P log → P (log ++ [.nodePublishVolume socket req])) (client : Unpublisher) (choice : Choice)
    {op : VolumeSection} (hop : ∀ volumeId target, op ≠ .unpublishVolume volumeId target) (h : P s.log) :
    P (perform client choice s op).2.log := by
  rcases perform_log (s := s) client choice hop with ⟨hlog,-⟩ | ⟨socket,req,⟨hlog,-⟩ | ⟨socket',req',hlog,-⟩⟩
  · rwa [hlog]
  · rw [hlog]
    exact hstage _ _ _ h
  · rw [hlog]
    exact hpublish _ _ _ (hstage _ _ _ h)

/-- What a law has to say about the sections, and when an unpublish keeps it. -/
structure Lawful (L : CompositeVolumeManager → Prop) (ok : CompositeVolumeManager → Choice → String → Path → Prop) :
    Prop where
  initial : ∀ rootDir pluginDir found, L (.new rootDir pluginDir found)
  other : ∀ s choice op, L s → (∀ volumeId target, op ≠ .unpublishVolume volumeId target) →
    L (perform CsiClient.nodeUnpublishVolume choice s op).2
  unpublish : ∀ s choice volumeId target, Recorded s → WasStaged s.log volumeId → L s →
    (L (s.unpublishVolume CsiClient.nodeUnpublishVolume volumeId target choice).2 ↔ ok s choice volumeId target)

theorem lawful_sentToDriver : Lawful (fun s => SentToDriver s.log)
    (fun s choice volumeId target => publisher s.log volumeId target = some (s.unpublishSocket choice)) where
  initial _ _ _ := fun before _ _ _ heq => by
    cases before with
    | nil => cases heq
    | cons _ _ => cases heq
  other s choice op h hop := perform_log_keeps (fun _ _ _ h => sentToDriver_concat.mpr ⟨h,nofun⟩)
    (fun _ _ _ h => sentToDriver_concat.mpr ⟨h,nofun⟩) CsiClient.nodeUnpublishVolume choice hop h
  unpublish s choice volumeId target _ _ h := by
    change SentToDriver (s.log ++ [.nodeUnpublishVolume (s.unpublishSocket choice) ⟨volumeId,target⟩]) ↔ _
    rw [sentToDriver_concat]
    constructor
    · exact fun hr => hr.2 _ _ rfl
    · intro hr
      refine ⟨h,fun socket req heq => ?_⟩
      obtain ⟨rfl,rfl⟩ := Rpc.nodeUnpublishVolume.inj heq
      exact hr

theorem lawful_knowsPublished : Lawful KnowsPublished
    (fun s _ volumeId target => ∀ target', target' ≠ target → isLive s.log volumeId target' = false) where
  initial _ _ _ := fun volumeId => by
    constructor
    · intro h
      cases h
    · rintro ⟨target,h⟩
      cases h
  other s choice op h hop := by
    rcases perform_log (s := s) CsiClient.nodeUnpublishVolume choice hop with
      ⟨hlog,hpub⟩ | ⟨socket,req,⟨hlog,hpub⟩ | ⟨socket',req',hlog,hpub⟩⟩
    · exact knowsPublished_congr hpub hlog h
    · intro volumeId
      unfold CsiVolumeManager.isPublished
      simp only [hlog,hpub,isLive_stage]
      exact h volumeId
    · intro volumeId
      unfold CsiVolumeManager.isPublished
      simp only [hlog,hpub,isLive_publish,isLive_stage,exists_or]
      by_cases hv : volumeId = req'.volumeId
      · subst hv
        simp
      · rw [AList.lookup_insert_ne hv]
        have hne : ¬∃ target, req'.volumeId = volumeId ∧ req'.targetPath = target := fun ⟨_,he,_⟩ => hv he.symm
        rw [or_iff_left hne]
        exact h volumeId
  unpublish s choice volumeId target _ _ h := by
    have hpub : (s.unpublishVolume CsiClient.nodeUnpublishVolume volumeId target choice).2.csi.published =
      s.csi.published.erase volumeId := rfl
    have hlog : (s.unpublishVolume CsiClient.nodeUnpublishVolume volumeId target choice).2.log =
      s.log ++ [.nodeUnpublishVolume (s.unpublishSocket choice) ⟨volumeId,target⟩] := rfl
    constructor
    · intro hk target' hne
      by_contra hlive
      have hleft := (hk volumeId).mpr ⟨target',by
        rw [hlog,isLive_unpublish]
        exact ⟨Bool.not_eq_false _ ▸ hlive,fun hn => hne hn.2.symm⟩⟩
      unfold CsiVolumeManager.isPublished at hleft
      rw [hpub,AList.lookup_erase] at hleft
      cases hleft
    · intro hnone volumeId'
      unfold CsiVolumeManager.isPublished
      rw [hpub]
      simp only [hlog,isLive_unpublish]
      by_cases hv : volumeId' = volumeId
      · subst hv
        rw [AList.lookup_erase]
        simp only [Option.isSome_none,Bool.false_eq_true,false_iff,not_exists,not_and,true_and,not_not]
        intro target' hlive
        by_contra hne
        rw [hnone target' (Ne.symm hne)] at hlive
        cases hlive
      · rw [AList.lookup_erase_ne hv]
        simp only [Ne.symm hv,false_and,not_false_eq_true,and_true]
        exact h volumeId'

theorem lawful_unstagesLast : Lawful (fun s => UnstagesLast s.log)
    (fun s _ volumeId target => ∃ target', target' ≠ target ∧ isLive s.log volumeId target' = true) where
  initial _ _ _ := fun before _ _ _ heq => by
    cases before with
    | nil => cases heq
    | cons _ _ => cases heq
  other s choice op h hop := perform_log_keeps (fun _ _ _ h => (unstagesLast_concat fun _ => rfl).mpr ⟨h,nofun⟩)
    (fun _ _ _ h => (unstagesLast_concat fun _ => rfl).mpr ⟨h,nofun⟩) CsiClient.nodeUnpublishVolume choice hop h
  unpublish s choice volumeId target hrec hstaged h := by
    change UnstagesLast (s.log ++ [.nodeUnpublishVolume (s.unpublishSocket choice) ⟨volumeId,target⟩]) ↔ _
    have hstays : staysStaged s.log volumeId = true :=
      (switched_of_never_off (fun r hr => hrec.noUnstage r hr volumeId)).mpr hstaged
    rw [unstagesLast_concat fun _ => rfl]
    constructor
    · rintro ⟨-,hr⟩
      obtain ⟨target',hlive⟩ := hr _ _ rfl hstays
      obtain ⟨hlive,hne⟩ := isLive_unpublish.mp hlive
      exact ⟨target',fun he => hne ⟨rfl,he.symm⟩,hlive⟩
    · rintro ⟨target',hne,hlive⟩
      refine ⟨h,fun socket req heq _ => ?_⟩
      obtain ⟨rfl,rfl⟩ := Rpc.nodeUnpublishVolume.inj heq
      exact ⟨target',isLive_unpublish.mpr ⟨hlive,fun hn => hne hn.2.symm⟩⟩

/-! ## A call keeps to the ledger -/

/-- A call that is allowed whatever is added to the log, and what comes after it. -/
theorem meets_ask_bind {α : Type} {op : VolumeSection} {f : op.Answer → VolumeProgram α}
    (hop : ∀ s', s.log <+: s'.log → ledger.allowed s' op)
    (hf : ∀ answer s', Learned s' op answer → (f answer).Meets ledger (fun _ _ => True) s') :
    (ask op >>= f).Meets ledger (fun _ _ => True) s :=
  fun s' hs' => ⟨hop s' hs',fun answer s'' hs'' => hf answer s'' hs''.2⟩

theorem meets_collect {ι β : Type} {body : ι → VolumeProgram (Except VolumeError β)} {l : List ι}
    (hbody : ∀ x ∈ l, ∀ s, (body x).Meets ledger (fun _ _ => True) s) :
    (collect body l).Meets ledger (fun _ _ => True) s := by
  induction l generalizing s with
  | nil => trivial
  | cons x xs ih =>
    unfold collect
    rw [Program.meets_bind]
    refine (hbody x List.mem_cons_self s).mono ?_
    rintro r s -
    cases r with
    | error e => trivial
    | ok b =>
      rw [Program.meets_bind]
      exact (ih (fun y hy => hbody y (List.mem_cons_of_mem _ hy))).mono (fun _ _ _ => trivial)

theorem meets_mountCsiPvc (rootDir : Path) (req : MountRequest) (claimName : String) (s : CompositeVolumeManager) :
    (mountCsiPvc rootDir req claimName).Meets ledger (fun _ _ => True) s := by
  unfold mountCsiPvc
  refine meets_ask_bind (fun _ _ => trivial) fun defaultDriver s₁ _ => ?_
  split
  · trivial
  · refine meets_ask_bind (fun _ _ => trivial) fun published s₂ hs₂ => ?_
    cases published with
    | error e => trivial
    | ok _ => exact meets_ask_bind (fun s₃ hs₃ => WasStaged.mono (hs₂ rfl) hs₃) (fun _ _ _ => trivial)

theorem meets_mountRequest (rootDir : Path) (req : MountRequest) (s : CompositeVolumeManager) :
    (mountRequest rootDir req).Meets ledger (fun _ _ => True) s := by
  have hcsi : ∀ claimName s, (do
      let path ← mountCsiPvc rootDir req claimName
      pure (path.map (Sum.inl : Path → Routed)) : VolumeProgram (Except VolumeError Routed)).Meets ledger (fun _ _ => True) s := by
    intro claimName s
    rw [Program.meets_bind]
    exact (meets_mountCsiPvc rootDir req claimName s).mono (fun _ _ _ => trivial)
  unfold mountRequest
  split
  · refine meets_ask_bind (fun _ _ => trivial) fun pv s₂ _ => ?_
    cases pv with
    | none => exact hcsi _ s₂
    | some pv =>
      dsimp only
      split
      · trivial
      · exact hcsi _ s₂
      · trivial
      · exact hcsi _ s₂
  · trivial

theorem meets_mountVolumes (rootDir : Path) (requests : List MountRequest) (s : CompositeVolumeManager) :
    (mountVolumes rootDir requests).Meets ledger (fun _ _ => True) s := by
  unfold mountVolumes
  rw [Program.meets_bind]
  refine (meets_collect (fun req _ => meets_mountRequest rootDir req)).mono ?_
  rintro r s -
  cases r with
  | error e => trivial
  | ok routed =>
    rw [Program.meets_bind]
    refine (meets_collect ?_).mono (fun _ _ _ => trivial)
    exact fun req _ s₁ s₂ _ => ⟨trivial,fun _ _ _ => trivial⟩

theorem meets_unmountRequest (req : UnmountRequest) (s : CompositeVolumeManager) :
    (unmountRequest req).Meets ledger (fun _ _ => True) s := by
  unfold unmountRequest
  refine meets_ask_bind (fun _ _ => trivial) fun entry s₁ hs₁ => ?_
  cases entry with
  | none => trivial
  | some v => exact meets_ask_bind (fun s₂ hs₂ => WasStaged.mono (hs₁ v rfl) hs₂) (fun _ _ _ => trivial)

theorem meets_unmountVolumes (requests : List UnmountRequest) (s : CompositeVolumeManager) :
    (unmountVolumes requests).Meets ledger (fun _ _ => True) s := by
  unfold unmountVolumes
  rw [Program.meets_bind]
  refine (meets_collect (fun req _ => meets_unmountRequest req)).mono ?_
  rintro r s -
  cases r with
  | error e => trivial
  | ok handedOn =>
    dsimp only
    split
    · trivial
    · exact meets_ask_bind (fun _ _ => trivial) (fun _ _ _ => trivial)

end Sections
end CompositeVolumeManager

/-! ## Calls that take turns -/

inductive VolumeCall
  | mount (requests : List MountRequest)
  | unmount (requests : List UnmountRequest)

open CompositeVolumeManager in
def VolumeCall.program (rootDir : Path) : VolumeCall → VolumeProgram Unit
  | .mount requests => do
    let _ ← mountVolumes rootDir requests
    pure ()
  | .unmount requests => do
    let _ ← unmountVolumes requests
    pure ()

/-- A fresh manager and the calls that are under way on it. -/
abbrev VolumeCalls := Threads VolumeSection VolumeSection.Answer Unit CompositeVolumeManager

namespace VolumeCalls
open CompositeVolumeManager
variable (rootDir pluginDir : Path) (found : List String)

/-- The manager and the calls under way after some turns. -/
def after (turns : List (Turn VolumeCall Choice)) : VolumeCalls :=
  Threads.run (VolumeCall.program rootDir) (perform CsiClient.nodeUnpublishVolume)
    { world := .new rootDir pluginDir found } turns

/-- The call that gets its turn is about to unpublish a volume. -/
def Unpublishes (s : VolumeCalls) (t : Turn VolumeCall Choice) (volumeId : String) (target : Path) : Prop :=
  s.due t = some (.unpublishVolume volumeId target)

variable {rootDir pluginDir found}

theorem meets_program (c : VolumeCall) (s : CompositeVolumeManager) :
    (c.program rootDir).Meets ledger (fun _ _ => True) s := by
  cases c with
  | mount requests =>
    unfold VolumeCall.program
    rw [Program.meets_bind]
    exact (meets_mountVolumes rootDir requests s).mono (fun _ _ _ => trivial)
  | unmount requests =>
    unfold VolumeCall.program
    rw [Program.meets_bind]
    exact (meets_unmountVolumes requests s).mono (fun _ _ _ => trivial)

variable (rootDir pluginDir found) in
/-- A turn performs the section that is due. -/
theorem world_concat (turns : List (Turn VolumeCall Choice)) (t : Turn VolumeCall Choice) :
    ((after rootDir pluginDir found turns).due t = none ∧
      (after rootDir pluginDir found (turns ++ [t])).world = (after rootDir pluginDir found turns).world) ∨
    ∃ i choice op, t = .resume i choice ∧ (after rootDir pluginDir found turns).due t = some op ∧
      (after rootDir pluginDir found (turns ++ [t])).world =
        (perform CsiClient.nodeUnpublishVolume choice (after rootDir pluginDir found turns).world op).2 := by
  have hconcat : after rootDir pluginDir found (turns ++ [t]) = Threads.step (VolumeCall.program rootDir)
      (perform CsiClient.nodeUnpublishVolume) (after rootDir pluginDir found turns) t := Threads.run_concat turns
  rw [hconcat]
  cases hdue : (after rootDir pluginDir found turns).due t with
  | none => exact .inl ⟨rfl,(Threads.step_of_due_eq_none _ _ hdue).1⟩
  | some op =>
    obtain ⟨i,choice,next,ht,-,hstep⟩ := Threads.step_of_due (VolumeCall.program rootDir)
      (perform CsiClient.nodeUnpublishVolume) hdue
    exact .inr ⟨i,choice,op,ht,rfl,congrArg Threads.world hstep⟩

variable (rootDir pluginDir found) in
/-- What holds after every turn: the calls keep to the ledger and the table to what was staged. -/
theorem sound_after (turns : List (Turn VolumeCall Choice)) :
    (after rootDir pluginDir found turns).Sound ledger ∧
      CompositeVolumeManager.Recorded (after rootDir pluginDir found turns).world := by
  induction turns using List.reverseRecOn with
  | nil => exact ⟨fun _ hp => absurd hp List.not_mem_nil,⟨fun _ _ hv => absurd hv List.not_mem_nil,
      fun _ hr => absurd hr List.not_mem_nil⟩⟩
  | append_singleton turns t ih =>
    obtain ⟨hsound,hrec⟩ := ih
    have hrefl : ∀ s, ledger.drift s s := fun s => List.prefix_rfl
    constructor
    · unfold after
      rw [Threads.run_concat]
      refine hsound.step hrefl (fun _ _ _ => List.IsPrefix.trans) (fun c => meets_program c _) fun choice op hop => ?_
      obtain ⟨hdrift,hanswers,-⟩ := perform_ledger hrec CsiClient.nodeUnpublishVolume choice op hop
      exact ⟨hdrift,hanswers⟩
    · rcases world_concat rootDir pluginDir found turns t with ⟨-,hw⟩ | ⟨i,choice,op,-,hdue,hw⟩
      · rwa [hw]
      · rw [hw]
        exact (perform_ledger hrec _ choice op (hsound.allowed hrefl hdue)).2.2

/-- A law holds after every turn, exactly if every unpublish that is made keeps it. -/
theorem lawful_after_iff {L : CompositeVolumeManager → Prop} {ok : CompositeVolumeManager → Choice → String → Path → Prop}
    (hL : Lawful L ok) (turns : List (Turn VolumeCall Choice)) :
    (∀ done, done <+: turns → L (after rootDir pluginDir found done).world) ↔
      ∀ done i choice rest, turns = done ++ .resume i choice :: rest → ∀ volumeId target,
        (after rootDir pluginDir found done).Unpublishes (.resume i choice) volumeId target →
          ok (after rootDir pluginDir found done).world choice volumeId target := by
  constructor
  · rintro h done i choice rest rfl volumeId target hdue
    obtain ⟨hsound,hrec⟩ := sound_after rootDir pluginDir found done
    have hstaged : WasStaged _ volumeId := hsound.allowed (fun _ => List.prefix_rfl) hdue
    have hafter := h (done ++ [.resume i choice]) ⟨rest,by rw [List.append_assoc,List.cons_append,List.nil_append]⟩
    rcases world_concat rootDir pluginDir found done (.resume i choice) with ⟨hnone,-⟩ | ⟨i',choice',op,heq,hsome,hw⟩
    · cases hnone.symm.trans hdue
    · obtain ⟨rfl,rfl⟩ := Turn.resume.inj heq
      obtain rfl := Option.some.inj (hsome.symm.trans hdue)
      rw [hw] at hafter
      exact (hL.unpublish _ choice volumeId target hrec hstaged (h done (List.prefix_append _ _))).mp hafter
  · intro h done hdone
    induction done using List.reverseRecOn with
    | nil => exact hL.initial rootDir pluginDir found
    | append_singleton done t ih =>
      obtain ⟨rest,rfl⟩ := hdone
      have hbefore := ih ⟨t :: rest,by rw [List.append_assoc,List.cons_append,List.nil_append]⟩
      obtain ⟨hsound,hrec⟩ := sound_after rootDir pluginDir found done
      rcases world_concat rootDir pluginDir found done t with ⟨-,hw⟩ | ⟨i,choice,op,rfl,hdue,hw⟩
      · rwa [hw]
      · rw [hw]
        by_cases hop : ∃ volumeId target, op = .unpublishVolume volumeId target
        · obtain ⟨volumeId,target,rfl⟩ := hop
          have hstaged : WasStaged _ volumeId := hsound.allowed (fun _ => List.prefix_rfl) hdue
          refine (hL.unpublish _ choice volumeId target hrec hstaged hbefore).mpr ?_
          exact h done i choice rest (by rw [List.append_assoc,List.cons_append,List.nil_append]) volumeId target hdue
        · exact hL.other _ choice op hbefore (fun volumeId target heq => hop ⟨volumeId,target,heq⟩)

/-- CSI volumes are released by their own driver after every turn, exactly if no call comes to
an unpublish: one that leaves no target is not followed by an unstage, and after one that
leaves a target the manager no longer knows the volume. -/
theorem released_iff (rootDir pluginDir : Path) (found : List String) (turns : List (Turn VolumeCall Choice)) :
    (∀ done, done <+: turns → Released (after rootDir pluginDir found done).world) ↔
      ∀ done i choice rest, turns = done ++ .resume i choice :: rest → ∀ volumeId target,
        ¬(after rootDir pluginDir found done).Unpublishes (.resume i choice) volumeId target := by
  constructor
  · intro h done i choice rest heq volumeId target hdue
    have hnone := (lawful_after_iff lawful_knowsPublished turns).mp (fun done hd => (h done hd).published)
      done i choice rest heq volumeId target hdue
    obtain ⟨target',hne,hlive⟩ := (lawful_after_iff lawful_unstagesLast turns).mp (fun done hd => (h done hd).unstaged)
      done i choice rest heq volumeId target hdue
    rw [hnone target' hne] at hlive
    cases hlive
  · intro h done hdone
    have hall : ∀ {L ok}, Lawful L ok → L (after rootDir pluginDir found done).world := fun hL =>
      (lawful_after_iff hL turns).mpr (fun before i choice rest heq volumeId target hdue =>
        absurd hdue (h before i choice rest heq volumeId target)) done hdone
    exact ⟨hall lawful_sentToDriver,hall lawful_knowsPublished,hall lawful_unstagesLast⟩

/-! A volume of one driver on a node with two. -/

def ebsRequest : MountRequest where
  podUid := "uid-1"
  podNamespace := "default"
  volumeName := "data"
  source := .persistentVolumeClaim "csi://ebs/vol-1" false
  mountPath := .parse "/mnt/data"
  readOnly := false

/-- The volume is mounted and unmounted, and no other call is under way. -/
def ebsTurns : List (Turn VolumeCall Choice) :=
  [.start (.mount [ebsRequest]),.resume 0 {},.resume 0 {},.resume 0 {},.resume 0 {},
    .start (.unmount [⟨"uid-1","data"⟩]),.resume 1 {},.resume 1 {}]

theorem ebs_sent_to_nfs : ¬∀ done, done <+: ebsTurns →
    Released (after (.parse "/var/lib/kubelet") (.parse "/plugins") ["ebs","nfs"] done).world := by
  intro h
  have hlog := (h ebsTurns List.prefix_rfl).driver
  have hsocket := hlog [_,_] (.parse "/plugins/nfs/csi.sock") ⟨"vol-1",.parse "/mnt/data"⟩ [] rfl
  exact absurd hsocket (by decide)

end VolumeCalls
end KubeAir.Adapters
