import KubeAir.Adapters.CompositeVolumes

/-! # What becomes of the volumes of an unmount

Whatever a driver answers, a volume that was listed before a call is unmounted by the call or
listed after it, except for a volume whose driver refused the unpublish. The client of the
source never refuses one.
-/
namespace KubeAir.Adapters
open Core Paths Transition

namespace CompositeVolumeManager

/-- The calls of a program, one after another, with all that the environment may choose. -/
def sections (client : Unpublisher) : Contract VolumeSection VolumeSection.Answer CompositeVolumeManager where
  drift s s' := s = s'
  allowed _ _ := True
  answers s op a s' := ∃ choice, perform client choice s op = (a,s')

/-- Between two states an unpublish of the volume was answered with `Ok`, or its record left
the local table. -/
def Unmounted (s s' : CompositeVolumeManager) (v : MountedVolume) : Prop :=
  (∃ volumeId socket, v.devicePath = some volumeId ∧
    .nodeUnpublishVolume socket ⟨volumeId,v.mountPath⟩ ∈ s'.log.drop s.log.length) ∨
  v ∈ s'.localUnmounted.drop s.localUnmounted.length

/-- The driver may refuse to unpublish the volume. -/
def Refused (client : Unpublisher) (v : MountedVolume) : Prop :=
  ∃ volumeId socket e, v.devicePath = some volumeId ∧ client socket ⟨volumeId,v.mountPath⟩ = .error e

section Laws
variable {client : Unpublisher} {s : CompositeVolumeManager}

/-- The state after a call, as far as records are concerned: what was listed is listed, or was
unmounted, or satisfies `P`. -/
structure Accounts (P : MountedVolume → Prop) (s s' : CompositeVolumeManager) : Prop where
  log : s.log <+: s'.log
  localUnmounted : s.localUnmounted <+: s'.localUnmounted
  records : ∀ podUid, ∀ v ∈ s.listMountedVolumes podUid, v ∈ s'.listMountedVolumes podUid ∨ Unmounted s s' v ∨ P v

theorem Unmounted.mono {s s' s'' : CompositeVolumeManager} {v : MountedVolume} (h : Unmounted s s' v)
    (hlog : s'.log <+: s''.log) (hlocal : s'.localUnmounted <+: s''.localUnmounted) : Unmounted s s'' v := by
  rcases h with ⟨volumeId,socket,hd,hr⟩ | h
  · exact .inl ⟨volumeId,socket,hd,(hlog.drop _).subset hr⟩
  · exact .inr ((hlocal.drop _).subset h)

theorem Unmounted.of_later {s s' s'' : CompositeVolumeManager} {v : MountedVolume} (h : Unmounted s' s'' v)
    (hlog : s.log <+: s'.log) (hlocal : s.localUnmounted <+: s'.localUnmounted) : Unmounted s s'' v := by
  rcases h with ⟨volumeId,socket,hd,hr⟩ | h
  · exact .inl ⟨volumeId,socket,hd,List.drop_subset_drop_left _ hlog.length_le hr⟩
  · exact .inr (List.drop_subset_drop_left _ hlocal.length_le h)

theorem Accounts.refl {P : MountedVolume → Prop} : Accounts P s s := ⟨List.prefix_rfl,List.prefix_rfl,fun _ _ hv => .inl hv⟩

theorem Accounts.mono {P Q : MountedVolume → Prop} {s' : CompositeVolumeManager} (h : Accounts P s s') (hPQ : ∀ v, P v → Q v) :
    Accounts Q s s' :=
  ⟨h.log,h.localUnmounted,fun podUid v hv => (h.records podUid v hv).imp_right (Or.imp_right (hPQ v))⟩

/-- What the first part leaves open is settled in the second. -/
theorem Accounts.settle {P Q : MountedVolume → Prop} {s' s'' : CompositeVolumeManager} (h : Accounts P s s')
    (h' : Accounts Q s' s'') (hP : ∀ v, P v → Unmounted s' s'' v ∨ Q v) : Accounts Q s s'' where
  log := h.log.trans h'.log
  localUnmounted := h.localUnmounted.trans h'.localUnmounted
  records podUid v hv := by
    have hlater : Unmounted s' s'' v → Unmounted s s'' v := fun hu => hu.of_later h.log h.localUnmounted
    rcases h.records podUid v hv with hl | hu | hv
    · exact (h'.records podUid v hl).imp_right (Or.imp_left hlater)
    · exact .inr (.inl (hu.mono h'.log h'.localUnmounted))
    · exact .inr ((hP v hv).imp_left hlater)

/-! ## One section after another -/

theorem sections_ask_bind {α : Type} {op : VolumeSection} {f : op.Answer → VolumeProgram α}
    {Q : α → CompositeVolumeManager → Prop}
    (h : ∀ choice, (f (perform client choice s op).1).Meets (sections client) Q (perform client choice s op).2) :
    (ask op >>= f).Meets (sections client) Q s := by
  rintro _ rfl
  refine ⟨trivial,fun answer s' hanswer => ?_⟩
  obtain ⟨choice,heq⟩ := hanswer
  have hchoice := h choice
  rw [heq] at hchoice
  exact hchoice

theorem mem_listMountedVolumes {podUid : String} {v : MountedVolume} : v ∈ s.listMountedVolumes podUid ↔
    v ∈ s.localVolumes podUid ∨ ∃ w ∈ s.csiVolumes podUid, w.val = v := by
  unfold listMountedVolumes
  rw [List.mem_append,List.mem_map]

theorem find?_or_mem_eraseP {l : List CsiVolume} {w : CsiVolume} (p : CsiVolume → Bool) (h : w ∈ l) :
    l.find? p = some w ∨ w ∈ l.eraseP p := by
  induction l with
  | nil => cases h
  | cons x l ih =>
    by_cases hx : p x = true
    · rcases List.mem_cons.mp h with rfl | h
      · exact .inl (List.find?_cons_of_pos hx)
      · rw [List.eraseP_cons_of_pos hx]
        exact .inr h
    · rw [List.find?_cons_of_neg hx,List.eraseP_cons_of_neg hx]
      rcases List.mem_cons.mp h with rfl | h
      · exact .inr List.mem_cons_self
      · exact (ih h).imp_right (List.mem_cons_of_mem x)

/-- A record leaves the CSI table only to be unpublished. -/
theorem accounts_takeCsiMounted (req : UnmountRequest) :
    Accounts (fun v => ∃ w, (s.takeCsiMounted req).1 = some w ∧ w.val = v) s (s.takeCsiMounted req).2 where
  log := List.prefix_rfl
  localUnmounted := List.prefix_rfl
  records podUid v hv := by
    rcases mem_listMountedVolumes.mp hv with hv | ⟨w,hw,rfl⟩
    · exact .inl (mem_listMountedVolumes.mpr (.inl hv))
    · by_cases hpod : podUid = req.podUid
      · subst hpod
        rcases find?_or_mem_eraseP req.names hw with hfound | hrest
        · exact .inr (.inr ⟨w,hfound,rfl⟩)
        · refine .inl (mem_listMountedVolumes.mpr (.inr ⟨w,?_,rfl⟩))
          rwa [csiVolumes_takeCsiMounted,if_pos rfl]
      · refine .inl (mem_listMountedVolumes.mpr (.inr ⟨w,?_,rfl⟩))
        rwa [csiVolumes_takeCsiMounted,if_neg hpod]

theorem accounts_unpublishVolume (v : CsiVolume) (choice : Choice) {s' : CompositeVolumeManager} {a : Except VolumeError Unit}
    (h : s.unpublishVolume client v.volumeId v.val.mountPath choice = (a,s')) :
    Accounts (fun _ => False) s s' ∧ (a = .ok () → Unmounted s s' v.val) ∧ (∀ e, a = .error e → Refused client v.val) := by
  have hdevice : v.val.devicePath = some v.volumeId := (Option.some_get v.device).symm
  unfold unpublishVolume CsiVolumeManager.unpublishVolume at h
  dsimp only at h
  cases hclient : client _ _ with
  | ok _ =>
    rw [hclient] at h
    obtain ⟨rfl,rfl⟩ := h
    refine ⟨⟨List.prefix_append _ _,List.prefix_rfl,fun _ _ hv => .inl hv⟩,fun _ => ?_,nofun⟩
    have hcall : ∀ r : Rpc, r ∈ (s.log ++ [r]).drop s.log.length := fun r => by
      rw [List.drop_left]
      exact List.mem_singleton_self r
    exact .inl ⟨v.volumeId,_,hdevice,hcall _⟩
  | error e =>
    rw [hclient] at h
    obtain ⟨rfl,rfl⟩ := h
    refine ⟨⟨List.prefix_rfl,List.prefix_rfl,fun _ _ hv => .inl hv⟩,nofun,fun _ _ => ?_⟩
    exact ⟨v.volumeId,_,e,hdevice,hclient⟩

theorem accounts_unmountLocalRequest (req : UnmountRequest) : Accounts (fun _ => False) s (s.unmountLocalRequest req) where
  log := List.prefix_rfl
  localUnmounted := List.prefix_append _ _
  records podUid v hv := by
    rcases mem_listMountedVolumes.mp hv with hv | hw
    · by_cases hpod : podUid = req.podUid
      · subst hpod
        by_cases hname : v.volumeName = req.volumeName
        · right
          left
          right
          unfold unmountLocalRequest
          dsimp only
          rw [List.drop_left]
          exact List.mem_filter.mpr ⟨hv,decide_eq_true hname⟩
        · refine .inl (mem_listMountedVolumes.mpr (.inl ?_))
          unfold unmountLocalRequest localVolumes
          dsimp only
          rw [AList.lookup_insert]
          exact List.mem_filter.mpr ⟨hv,decide_eq_true hname⟩
      · refine .inl (mem_listMountedVolumes.mpr (.inl ?_))
        unfold unmountLocalRequest localVolumes
        dsimp only
        rw [AList.lookup_insert_ne hpod]
        exact hv
    · exact .inl (mem_listMountedVolumes.mpr (.inr hw))

theorem accounts_unmountLocal (requests : List UnmountRequest) : Accounts (fun _ => False) s (s.unmountLocal requests) := by
  unfold unmountLocal
  induction requests generalizing s with
  | nil => exact .refl
  | cons req requests ih => exact (accounts_unmountLocalRequest req).settle ih (fun _ => False.elim)

/-! ## Loops -/

/-- The records that the result of a call gives up. -/
def GivenUp {α : Type} (client : Unpublisher) (result : Except VolumeError α) (v : MountedVolume) : Prop :=
  ∃ e, result = .error e ∧ Refused client v

theorem meets_unmountRequest_accounts (req : UnmountRequest) (s : CompositeVolumeManager) :
    (unmountRequest req).Meets (sections client) (fun r s' => Accounts (GivenUp client r) s s') s := by
  unfold unmountRequest
  refine sections_ask_bind fun choice => ?_
  have htake := accounts_takeCsiMounted (s := s) req
  dsimp only [perform]
  cases hentry : (s.takeCsiMounted req).1 with
  | none =>
    refine htake.mono fun v hv => ?_
    obtain ⟨w,hw,-⟩ := hv
    rw [hentry] at hw
    cases hw
  | some w =>
    refine sections_ask_bind fun choice' => ?_
    dsimp only [perform]
    obtain ⟨hrest,hok,herror⟩ := accounts_unpublishVolume w choice' (Prod.eta
      ((s.takeCsiMounted req).2.unpublishVolume client w.volumeId w.val.mountPath choice')).symm
    cases hanswer : ((s.takeCsiMounted req).2.unpublishVolume client w.volumeId w.val.mountPath choice').1 with
    | ok _ =>
      refine htake.settle (hrest.mono (fun _ => False.elim)) ?_
      rintro v ⟨w',hw',rfl⟩
      obtain rfl := Option.some.inj (hentry.symm.trans hw')
      exact .inl (hok hanswer)
    | error e =>
      refine htake.settle (hrest.mono (fun _ => False.elim)) ?_
      rintro v ⟨w',hw',rfl⟩
      obtain rfl := Option.some.inj (hentry.symm.trans hw')
      exact .inr ⟨e,rfl,herror e hanswer⟩

theorem meets_collect_accounts {ι β : Type} {body : ι → VolumeProgram (Except VolumeError β)} {l : List ι}
    (hbody : ∀ x s, (body x).Meets (sections client) (fun r s' => Accounts (GivenUp client r) s s') s) (s : CompositeVolumeManager) :
    (collect body l).Meets (sections client) (fun r s' => Accounts (GivenUp client r) s s') s := by
  induction l generalizing s with
  | nil => exact .refl
  | cons x xs ih =>
    unfold collect
    rw [Program.meets_bind]
    refine (hbody x s).mono fun r s' hr => ?_
    cases r with
    | error e => exact hr.mono (fun v ⟨e',_,hv⟩ => ⟨e,rfl,hv⟩)
    | ok b =>
      rw [Program.meets_bind]
      refine (ih s').mono fun rest s'' hrest => ?_
      refine hr.settle (hrest.mono ?_) ?_
      · rintro v ⟨e,rfl,hv⟩
        exact ⟨e,rfl,hv⟩
      · rintro v ⟨e,he,-⟩
        cases he

/-- After a call every volume that was listed is listed, or was unmounted, or its driver has
refused the unpublish and the call returns the error. -/
theorem unmountVolumes_accounts (client : Unpublisher) (requests : List UnmountRequest) (s : CompositeVolumeManager) :
    (unmountVolumes requests).Meets (sections client) (fun r s' => Accounts (GivenUp client r) s s') s := by
  unfold unmountVolumes
  rw [Program.meets_bind]
  refine (meets_collect_accounts meets_unmountRequest_accounts s).mono fun r s' hr => ?_
  cases r with
  | error e => exact hr.mono (fun v ⟨e',_,hv⟩ => ⟨e,rfl,hv⟩)
  | ok handedOn =>
    have hkept : Accounts (GivenUp client (Except.ok () : Except VolumeError Unit)) s s' :=
      hr.mono (fun v ⟨e,he,_⟩ => nomatch he)
    dsimp only
    split
    · exact hkept
    · refine sections_ask_bind fun choice => ?_
      refine hkept.settle ((accounts_unmountLocal _).mono (fun _ => False.elim)) ?_
      rintro v ⟨e,he,-⟩
      cases he

/-! ## Calls that fail -/

/-- When a call fails, a volume that it was asked to unmount, that was listed and has not been unmounted
is still listed, and the same call unmounts it once the drivers answer. -/
def Retryable (requests : List UnmountRequest) (s : CompositeVolumeManager) (result : Except VolumeError Unit)
    (s' : CompositeVolumeManager) : Prop :=
  ∀ e, result = .error e → ∀ req ∈ requests, ∀ v ∈ s.listMountedVolumes req.podUid,
    v.volumeName = req.volumeName → ¬Unmounted s s' v → v ∈ s'.listMountedVolumes req.podUid ∧
      (unmountVolumes requests).Meets (sections CsiClient.nodeUnpublishVolume) (fun _ s'' => Unmounted s' s'' v) s'

/-- No driver that may be asked refuses to unpublish a volume that the list names. -/
def Obliging (client : Unpublisher) (requests : List UnmountRequest) (s : CompositeVolumeManager) : Prop :=
  ∀ req ∈ requests, ∀ w ∈ s.csiVolumes req.podUid, req.names w = true → ∀ choice,
    client (s.unpublishSocket choice) ⟨w.volumeId,w.val.mountPath⟩ = .ok ()

/-- No volume is recorded twice, and no two are published under one ID at one path. -/
structure Distinct (s : CompositeVolumeManager) : Prop where
  names : ∀ podUid, ((s.listMountedVolumes podUid).map (·.volumeName)).Nodup
  targets : ∀ podUid podUid', ∀ w ∈ s.csiVolumes podUid, ∀ w' ∈ s.csiVolumes podUid',
    w.volumeId = w'.volumeId → w.val.mountPath = w'.val.mountPath → podUid = podUid' ∧ w = w'

/-! ## Obliging drivers -/

/-- What a call has left of the tables and what its scans have found. -/
structure Since (s₀ s : CompositeVolumeManager) : Prop where
  records : ∀ podUid, s.csiVolumes podUid ⊆ s₀.csiVolumes podUid
  registry : ∃ found, s.csi.registry = s₀.csi.registry.scan found

theorem Since.unpublishSocket {s₀ : CompositeVolumeManager} (h : Since s₀ s) (choice : Choice) :
    ∃ choice', s.unpublishSocket choice = s₀.unpublishSocket choice' := by
  obtain ⟨found,hfound⟩ := h.registry
  refine ⟨{ choice with found := found ++ choice.found },?_⟩
  unfold CompositeVolumeManager.unpublishSocket CsiVolumeManager.unpublishSocket
  dsimp only
  rw [hfound,CsiPluginRegistry.scan_scan]

theorem csiVolumes_takeCsiMounted_sublist (req : UnmountRequest) (podUid : String) :
    List.Sublist ((s.takeCsiMounted req).2.csiVolumes podUid) (s.csiVolumes podUid) := by
  rw [csiVolumes_takeCsiMounted]
  split
  · exact List.eraseP_sublist
  · exact List.Sublist.refl _

theorem unpublishVolume_of_ok (s : CompositeVolumeManager) {volumeId : String} {targetPath : Path} (choice : Choice)
    (h : client (s.unpublishSocket choice) ⟨volumeId,targetPath⟩ = .ok ()) :
    s.unpublishVolume client volumeId targetPath choice = (.ok (),{ s with
      csi := { s.csi with
        registry := s.csi.registry.scan choice.found
        published := s.csi.published.erase volumeId }
      log := s.log ++ [.nodeUnpublishVolume (s.unpublishSocket choice) ⟨volumeId,targetPath⟩] }) := by
  unfold unpublishVolume CsiVolumeManager.unpublishVolume
  dsimp only
  unfold CompositeVolumeManager.unpublishSocket at h
  rw [h]
  rfl

theorem unpublishVolume_of_error {volumeId : String} {targetPath : Path} {choice : Choice} {e : VolumeError}
    (h : client (s.unpublishSocket choice) ⟨volumeId,targetPath⟩ = .error e) :
    s.unpublishVolume client volumeId targetPath choice =
      (.error e,{ s with csi := { s.csi with registry := s.csi.registry.scan choice.found } }) := by
  unfold unpublishVolume CsiVolumeManager.unpublishVolume
  dsimp only
  unfold CompositeVolumeManager.unpublishSocket at h
  rw [h]

theorem collect_ok {ι β : Type} {body : ι → VolumeProgram (Except VolumeError β)} {l : List ι}
    {I : CompositeVolumeManager → Prop} (hbody : ∀ x ∈ l, ∀ s, I s →
      (body x).Meets (sections client) (fun r s' => (∃ b, r = .ok b) ∧ I s') s) (hs : I s) :
    (collect body l).Meets (sections client) (fun r s' => (∃ bs, r = .ok bs) ∧ I s') s := by
  induction l generalizing s with
  | nil => exact ⟨⟨[],rfl⟩,hs⟩
  | cons x xs ih =>
    unfold collect
    rw [Program.meets_bind]
    refine (hbody x List.mem_cons_self s hs).mono ?_
    rintro _ s' ⟨⟨b,rfl⟩,hs'⟩
    rw [Program.meets_bind]
    refine (ih (fun y hy => hbody y (List.mem_cons_of_mem x hy)) hs').mono ?_
    rintro _ s'' ⟨⟨bs,rfl⟩,hs''⟩
    exact ⟨⟨b :: bs,rfl⟩,hs''⟩

theorem unmountRequest_ok {s₀ : CompositeVolumeManager} {requests : List UnmountRequest} (h : Obliging client requests s₀)
    {req : UnmountRequest} (hreq : req ∈ requests) (hs : Since s₀ s) :
    (unmountRequest req).Meets (sections client) (fun r s' => (∃ b, r = .ok b) ∧ Since s₀ s') s := by
  have htaken : Since s₀ (s.takeCsiMounted req).2 :=
    ⟨fun podUid => List.Subset.trans (csiVolumes_takeCsiMounted_sublist req podUid).subset (hs.records podUid),hs.registry⟩
  unfold unmountRequest
  refine sections_ask_bind fun choice => ?_
  dsimp only [perform]
  cases hentry : (s.takeCsiMounted req).1 with
  | none => exact ⟨⟨some req,rfl⟩,htaken⟩
  | some w =>
    refine sections_ask_bind fun choice' => ?_
    have hname : req.names w = true := List.find?_some hentry
    have hmem : w ∈ s₀.csiVolumes req.podUid := hs.records _ (List.mem_of_find?_eq_some hentry)
    obtain ⟨choice'',hsocket⟩ := htaken.unpublishSocket choice'
    have hok : client ((s.takeCsiMounted req).2.unpublishSocket choice') ⟨w.volumeId,w.val.mountPath⟩ = .ok () := by
      rw [hsocket]
      exact h req hreq w hmem hname choice''
    dsimp only [perform]
    rw [unpublishVolume_of_ok _ choice' hok]
    obtain ⟨found,hfound⟩ := htaken.registry
    refine ⟨⟨none,rfl⟩,htaken.records,found ++ choice'.found,?_⟩
    dsimp only
    rw [hfound,CsiPluginRegistry.scan_scan]

/-- A call fails only if a driver refuses. -/
theorem unmountVolumes_ok {requests : List UnmountRequest} (h : Obliging client requests s) :
    (unmountVolumes requests).Meets (sections client) (fun r _ => r = .ok ()) s := by
  have hs : Since s s := ⟨fun _ => List.Subset.refl _,[],rfl⟩
  unfold unmountVolumes
  rw [Program.meets_bind]
  refine (collect_ok (fun req hreq t ht => unmountRequest_ok h hreq ht) hs).mono ?_
  rintro _ s' ⟨⟨handedOn,rfl⟩,-⟩
  dsimp only
  split
  · rfl
  · exact sections_ask_bind fun choice => rfl

/-- The client of the source answers for every driver, and so hides the failures. -/
theorem obliging_nodeUnpublishVolume (requests : List UnmountRequest) (s : CompositeVolumeManager) :
    Obliging CsiClient.nodeUnpublishVolume requests s := fun _ _ _ _ _ _ => rfl

/-! ## A driver that refuses -/

section Refused
variable {choice : Choice} {req : UnmountRequest} {w : CsiVolume}

theorem run_collect_cons {ι β : Type} (body : ι → VolumeProgram (Except VolumeError β)) (x : ι) (xs : List ι)
    (answer : CompositeVolumeManager → (op : VolumeSection) → op.Answer × CompositeVolumeManager) :
    (collect body (x :: xs)).run answer s =
      match (body x).run answer s with
      | (.error e,t) => (.error e,t)
      | (.ok b,t) => (((collect body xs).run answer t).1.map (b :: ·),((collect body xs).run answer t).2) := by
  conv_lhs => unfold collect
  rw [Program.run_bind]
  generalize (body x).run answer s = r
  obtain ⟨r,t⟩ := r
  cases r with
  | error e => rfl
  | ok b => exact Program.run_bind answer (collect body xs) _ t

theorem run_unmountRequest_none (h : (s.takeCsiMounted req).1 = none) :
    (unmountRequest req).run (perform client choice) s = (.ok (some req),(s.takeCsiMounted req).2) := by
  have htaken : (ask (.takeCsiMounted req)).run (perform client choice) s = (none,(s.takeCsiMounted req).2) := Prod.ext h rfl
  unfold unmountRequest
  rw [Program.run_bind,htaken]
  rfl

theorem run_unmountRequest_some (h : (s.takeCsiMounted req).1 = some w) :
    (unmountRequest req).run (perform client choice) s =
      (((s.takeCsiMounted req).2.unpublishVolume client w.volumeId w.val.mountPath choice).1.map (fun _ => none),
        ((s.takeCsiMounted req).2.unpublishVolume client w.volumeId w.val.mountPath choice).2) := by
  have htaken : (ask (.takeCsiMounted req)).run (perform client choice) s = (some w,(s.takeCsiMounted req).2) := Prod.ext h rfl
  unfold unmountRequest
  rw [Program.run_bind,htaken]
  rfl

theorem listMountedVolumes_takeCsiMounted_sublist (req : UnmountRequest) (podUid : String) :
    List.Sublist ((s.takeCsiMounted req).2.listMountedVolumes podUid) (s.listMountedVolumes podUid) :=
  (List.Sublist.refl _).append ((csiVolumes_takeCsiMounted_sublist req podUid).map _)

theorem Distinct.takeCsiMounted (h : Distinct s) (req : UnmountRequest) : Distinct (s.takeCsiMounted req).2 where
  names podUid := (h.names podUid).sublist ((listMountedVolumes_takeCsiMounted_sublist req podUid).map _)
  targets podUid podUid' w hw w' hw' := h.targets podUid podUid' w ((csiVolumes_takeCsiMounted_sublist req podUid).subset hw) w'
    ((csiVolumes_takeCsiMounted_sublist req podUid').subset hw')

/-- The record that a request takes was the only one of its name. -/
theorem Distinct.not_listed (h : Distinct s) (hw : (s.takeCsiMounted req).1 = some w) :
    ∀ v ∈ (s.takeCsiMounted req).2.listMountedVolumes req.podUid, v.volumeName ≠ req.volumeName := by
  have hnames := h.names req.podUid
  unfold listMountedVolumes at hnames
  rw [List.map_append,List.map_map,List.nodup_append] at hnames
  obtain ⟨-,hcsi,hapart⟩ := hnames
  have hfind : (s.csiVolumes req.podUid).find? req.names = some w := hw
  have hnamed : req.names w = true := List.find?_some hfind
  have hname : w.val.volumeName = req.volumeName := of_decide_eq_true hnamed
  intro v hv heq
  rcases mem_listMountedVolumes.mp hv with hv | ⟨u,hu,rfl⟩
  · exact hapart _ (List.mem_map.mpr ⟨v,hv,heq⟩) _ (List.mem_map.mpr ⟨w,List.mem_of_find?_eq_some hfind,hname⟩) rfl
  · obtain ⟨-,before,behind,hsplit,hbefore⟩ := List.find?_eq_some_iff_append.mp hfind
    have hnot : ∀ u ∈ before, ¬req.names u = true := fun u hu => by simpa using hbefore u hu
    rw [csiVolumes_takeCsiMounted,if_pos rfl,hsplit,List.eraseP_append_right _ hnot,List.eraseP_cons_of_pos hnamed] at hu
    rw [hsplit,List.map_append,List.map_cons,List.nodup_middle,List.nodup_cons] at hcsi
    refine hcsi.1 ?_
    rw [← List.map_append]
    exact List.mem_map.mpr ⟨u,hu,heq.trans hname.symm⟩

/-- The scans of a call that always finds the same ask one driver. -/
theorem unpublishSocket_scan {s' : CompositeVolumeManager} (h : s'.csi.registry = s.csi.registry.scan choice.found) :
    s'.unpublishSocket choice = s.unpublishSocket choice := by
  unfold CompositeVolumeManager.unpublishSocket CsiVolumeManager.unpublishSocket
  dsimp only
  rw [h,CsiPluginRegistry.scan_again]

/-- A record of the volume that a request names is no longer listed, and the volume is still mounted. -/
structure Lost (s s' : CompositeVolumeManager) (req : UnmountRequest) (w : CsiVolume) : Prop where
  mem : w ∈ s.csiVolumes req.podUid
  named : req.names w = true
  unlisted : w.val ∉ s'.listMountedVolumes req.podUid
  mounted : ¬Unmounted s s' w.val

theorem not_unmounted_of_same {s' : CompositeVolumeManager} {v : MountedVolume} (hlog : s'.log = s.log)
    (hlocal : s'.localUnmounted = s.localUnmounted) : ¬Unmounted s s' v := by
  rintro (⟨volumeId,socket,-,hmem⟩ | hmem)
  · rw [hlog,List.drop_length] at hmem
    cases hmem
  · rw [hlocal,List.drop_length] at hmem
    cases hmem

/-- The record whose unpublish is refused is lost. -/
theorem lost_of_error (h : Distinct s) (hw : (s.takeCsiMounted req).1 = some w) {e : VolumeError}
    (herror : client (s.unpublishSocket choice) ⟨w.volumeId,w.val.mountPath⟩ = .error e) :
    (unmountRequest req).run (perform client choice) s = (.error e,{ (s.takeCsiMounted req).2 with
      csi := { s.csi with registry := s.csi.registry.scan choice.found } }) ∧
      Lost s { (s.takeCsiMounted req).2 with csi := { s.csi with registry := s.csi.registry.scan choice.found } } req w := by
  have hfind : (s.csiVolumes req.podUid).find? req.names = some w := hw
  have hnamed : req.names w = true := List.find?_some hfind
  refine ⟨?_,List.mem_of_find?_eq_some hfind,hnamed,fun hlisted => h.not_listed hw w.val hlisted (of_decide_eq_true hnamed),?_⟩
  · rw [run_unmountRequest_some hw,unpublishVolume_of_error (s := (s.takeCsiMounted req).2) herror]
    rfl
  · exact not_unmounted_of_same rfl rfl

theorem Unmounted.not_of_other {s' s'' : CompositeVolumeManager} {v : MountedVolume} {r : Rpc} (h : ¬Unmounted s' s'' v)
    (hlog : s'.log = s.log ++ [r]) (hlocal : s'.localUnmounted = s.localUnmounted) (hpre : s'.log <+: s''.log)
    (hr : ∀ volumeId socket, v.devicePath = some volumeId → r ≠ .nodeUnpublishVolume socket ⟨volumeId,v.mountPath⟩) :
    ¬Unmounted s s'' v := by
  obtain ⟨later,hlater⟩ := hpre
  rintro (⟨volumeId,socket,hdevice,hmem⟩ | hmem)
  · rw [← hlater,hlog,List.append_assoc,List.drop_left] at hmem
    rcases List.mem_append.mp hmem with hmem | hmem
    · exact hr volumeId socket hdevice (List.mem_singleton.mp hmem).symm
    · refine h (.inl ⟨volumeId,socket,hdevice,?_⟩)
      rwa [← hlater,List.drop_left]
  · rw [← hlocal] at hmem
    exact h (.inr hmem)

theorem csiVolumes_takeCsiMounted_none {podUid : String} (h : (s.takeCsiMounted req).1 = none) :
    (s.takeCsiMounted req).2.csiVolumes podUid = s.csiVolumes podUid := by
  have hnone : (s.csiVolumes req.podUid).find? req.names = none := h
  rw [csiVolumes_takeCsiMounted]
  split
  · next hpod =>
    subst hpod
    exact List.eraseP_of_forall_not (List.find?_eq_none.mp hnone)
  · rfl

/-- A request takes no other record than the one it names. -/
theorem mem_csiVolumes_takeCsiMounted {podUid : String} {u : CsiVolume} (h : (s.takeCsiMounted req).1 = some u)
    (hw : w ∈ s.csiVolumes podUid) (hne : w ≠ u) : w ∈ (s.takeCsiMounted req).2.csiVolumes podUid := by
  have hfind : (s.csiVolumes req.podUid).find? req.names = some u := h
  rw [csiVolumes_takeCsiMounted]
  split
  · next hpod =>
    subst hpod
    rcases find?_or_mem_eraseP req.names hw with hfound | hrest
    · exact absurd (Option.some.inj (hfound.symm.trans hfind)) hne
    · exact hrest
  · exact hw

theorem log_prefix_collect (requests : List UnmountRequest) :
    s.log <+: ((collect unmountRequest requests).run (perform client choice) s).2.log := by
  have hmeets : (collect unmountRequest requests).Meets (sections client) (fun r s' => Accounts (GivenUp client r) s s') s :=
    meets_collect_accounts meets_unmountRequest_accounts s
  exact (hmeets.run (perform client choice) (fun _ => rfl) (fun _ _ => ⟨choice,rfl⟩)).log

/-- What is lost after another volume was unpublished was lost from the start. -/
theorem Lost.of_unpublished {t s' : CompositeVolumeManager} {x : UnmountRequest} {u : CsiVolume} {socket : Path}
    (hlost : Lost t s' req w) (h : Distinct s) (htaken : (s.takeCsiMounted x).1 = some u)
    (hcsi : ∀ podUid, t.csiVolumes podUid = (s.takeCsiMounted x).2.csiVolumes podUid)
    (hlog : t.log = s.log ++ [.nodeUnpublishVolume socket ⟨u.volumeId,u.val.mountPath⟩])
    (hlocal : t.localUnmounted = s.localUnmounted) (hpre : t.log <+: s'.log) : Lost s s' req w := by
  have hfind : (s.csiVolumes x.podUid).find? x.names = some u := htaken
  have hrecord : w ∈ (s.takeCsiMounted x).2.csiVolumes req.podUid := by
    rw [← hcsi]
    exact hlost.mem
  have hmem : w ∈ s.csiVolumes req.podUid := (csiVolumes_takeCsiMounted_sublist x req.podUid).subset hrecord
  refine ⟨hmem,hlost.named,hlost.unlisted,Unmounted.not_of_other hlost.mounted hlog hlocal hpre ?_⟩
  -- the call was about another volume: the table has one record for an ID and a target
  rintro volumeId socket' hdevice hrpc
  obtain ⟨-,hrequest⟩ := Rpc.nodeUnpublishVolume.inj hrpc
  obtain ⟨hid,hpath⟩ := NodeUnpublishVolumeRequest.mk.inj hrequest
  have hvolume : u.volumeId = w.volumeId := by
    refine hid.trans (Option.some.inj (hdevice.symm.trans ?_))
    exact (Option.some_get w.device).symm
  obtain ⟨hpod,rfl⟩ := h.targets x.podUid req.podUid u (List.mem_of_find?_eq_some hfind) w hmem hvolume hpath
  rw [← hpod] at hrecord
  have hnamed : x.names u = true := List.find?_some hfind
  exact h.not_listed htaken u.val (mem_listMountedVolumes.mpr (.inr ⟨u,hrecord,rfl⟩)) (of_decide_eq_true hnamed)

/-- While every scan finds the same, the first record whose driver refuses is lost. -/
theorem exists_lost {requests : List UnmountRequest} (h : Distinct s) (hreq : req ∈ requests) (hw : w ∈ s.csiVolumes req.podUid)
    (hnamed : req.names w = true) (herror : client (s.unpublishSocket choice) ⟨w.volumeId,w.val.mountPath⟩ ≠ .ok ()) :
    ∃ e s', (collect unmountRequest requests).run (perform client choice) s = (.error e,s') ∧
      ∃ req' ∈ requests, ∃ w', Lost s s' req' w' := by
  induction requests generalizing s with
  | nil => cases hreq
  | cons x xs ih =>
    rw [run_collect_cons]
    cases htaken : (s.takeCsiMounted x).1 with
    | none =>
      have hsame : ∀ podUid, (s.takeCsiMounted x).2.csiVolumes podUid = s.csiVolumes podUid := fun _ =>
        csiVolumes_takeCsiMounted_none htaken
      have hrest : req ∈ xs := by
        rcases List.mem_cons.mp hreq with rfl | hrest
        · exact absurd hnamed (List.find?_eq_none.mp htaken w hw)
        · exact hrest
      obtain ⟨e,s',hrun,req',hreq',w',hlost⟩ := ih (h.takeCsiMounted x) hrest (by rwa [hsame]) herror
      rw [run_unmountRequest_none htaken]
      dsimp only
      rw [hrun]
      exact ⟨e,s',rfl,req',List.mem_cons_of_mem x hreq',w',by rw [← hsame]; exact hlost.mem,hlost.named,hlost.unlisted,hlost.mounted⟩
    | some u =>
      cases hanswer : client (s.unpublishSocket choice) ⟨u.volumeId,u.val.mountPath⟩ with
      | error e =>
        obtain ⟨hrun,hlost⟩ := lost_of_error h htaken hanswer
        rw [hrun]
        exact ⟨e,_,rfl,x,List.mem_cons_self,u,hlost⟩
      | ok _ =>
        have hne : w ≠ u := by
          rintro rfl
          exact herror hanswer
        have hkept := mem_csiVolumes_takeCsiMounted htaken hw hne
        have hrest : req ∈ xs := by
          rcases List.mem_cons.mp hreq with rfl | hrest
          · refine absurd (of_decide_eq_true hnamed) (h.not_listed htaken w.val ?_)
            exact mem_listMountedVolumes.mpr (.inr ⟨w,hkept,rfl⟩)
          · exact hrest
        rw [run_unmountRequest_some htaken,(s.takeCsiMounted x).2.unpublishVolume_of_ok choice hanswer]
        dsimp only [Except.map]
        set t : CompositeVolumeManager := { (s.takeCsiMounted x).2 with
          csi := { (s.takeCsiMounted x).2.csi with
            registry := (s.takeCsiMounted x).2.csi.registry.scan choice.found
            published := (s.takeCsiMounted x).2.csi.published.erase u.volumeId }
          log := (s.takeCsiMounted x).2.log ++
            [.nodeUnpublishVolume ((s.takeCsiMounted x).2.unpublishSocket choice) ⟨u.volumeId,u.val.mountPath⟩] }
        have hlog : t.log = s.log ++ [.nodeUnpublishVolume ((s.takeCsiMounted x).2.unpublishSocket choice) ⟨u.volumeId,u.val.mountPath⟩] :=
          rfl
        have hdistinct : Distinct t := ⟨(h.takeCsiMounted x).names,(h.takeCsiMounted x).targets⟩
        have hsocket : t.unpublishSocket choice = s.unpublishSocket choice := unpublishSocket_scan rfl
        obtain ⟨e,s',hrun,req',hreq',w',hlost⟩ := ih hdistinct hrest hkept (by rwa [hsocket])
        have hpre : t.log <+: ((collect unmountRequest xs).run (perform client choice) t).2.log := log_prefix_collect xs
        rw [hrun] at hpre ⊢
        have hlost' : Lost s s' req' w' := hlost.of_unpublished h htaken (fun _ => rfl) hlog rfl hpre
        exact ⟨e,s',rfl,req',List.mem_cons_of_mem x hreq',w',hlost'⟩

end Refused

/-- Where no volume is recorded twice, a driver that may refuse makes a call lose a volume. -/
theorem obliging_of_retryable {requests : List UnmountRequest} (hs : Distinct s)
    (h : (unmountVolumes requests).Meets (sections client) (Retryable requests s) s) : Obliging client requests s := by
  intro req hreq w hw hnamed choice
  by_contra herror
  obtain ⟨e,s',hrun,req',hreq',w',hlost⟩ := exists_lost hs hreq hw hnamed herror
  have hresult : (unmountVolumes requests).run (perform client choice) s = (.error e,s') := by
    unfold unmountVolumes
    rw [Program.run_bind,hrun]
    rfl
  have hretryable := h.run (perform client choice) (fun _ => rfl) (fun _ _ => ⟨choice,rfl⟩)
  rw [hresult] at hretryable
  have hlisted : w'.val ∈ s.listMountedVolumes req'.podUid := mem_listMountedVolumes.mpr (.inr ⟨w',hlost.mem,rfl⟩)
  exact hlost.unlisted (hretryable e rfl req' hreq' w'.val hlisted (of_decide_eq_true hlost.named) hlost.mounted).1

/-- A failed call leaves what is not unmounted to be retried, as long as no driver refuses an unpublish,
and only then if no volume is recorded twice: the record that is refused is lost. -/
theorem unmountVolumes_retryable_iff (client : Unpublisher) (requests : List UnmountRequest) (s : CompositeVolumeManager) :
    (Obliging client requests s → (unmountVolumes requests).Meets (sections client) (Retryable requests s) s) ∧
      (Distinct s → ((unmountVolumes requests).Meets (sections client) (Retryable requests s) s ↔ Obliging client requests s)) := by
  have hobliging : Obliging client requests s → (unmountVolumes requests).Meets (sections client) (Retryable requests s) s := by
    intro h
    refine (unmountVolumes_ok h).mono ?_
    rintro _ s' rfl e he
    cases he
  exact ⟨hobliging,fun hs => ⟨obliging_of_retryable hs,hobliging⟩⟩

/-! A driver that is down. -/

def dataVolume : CsiVolume := .ofMounted "uid-1" "data" (.parse "/mnt/data") "vol-1" false

def dataMounted : CompositeVolumeManager where
  rootDir := .parse "/var/lib/kubelet"
  csi := { registry := { pluginDir := .parse "/plugins" }, published := (∅ : HashMap String Path).insert "vol-1" (.parse "/mnt/data") }
  csiMounted := (∅ : HashMap String (List CsiVolume)).insert "uid-1" [dataVolume]

def downClient : Unpublisher := fun _ _ => .error (.storage "CSI connect: connection refused")

/-- The call fails, and the volume that is still mounted is no longer listed. -/
theorem refused_volume_lost :
    ((unmountVolumes [⟨"uid-1","data"⟩]).run (perform downClient {}) dataMounted).1 =
        .error (.storage "CSI connect: connection refused") ∧
      ((unmountVolumes [⟨"uid-1","data"⟩]).run (perform downClient {}) dataMounted).2.listMountedVolumes "uid-1" = [] ∧
      ¬(unmountVolumes [⟨"uid-1","data"⟩]).Meets (sections downClient) (Retryable [⟨"uid-1","data"⟩] dataMounted) dataMounted := by
  have hresult : ((unmountVolumes [⟨"uid-1","data"⟩]).run (perform downClient {}) dataMounted).1 =
      .error (.storage "CSI connect: connection refused") := rfl
  have hempty : ((unmountVolumes [⟨"uid-1","data"⟩]).run (perform downClient {}) dataMounted).2.listMountedVolumes "uid-1" = [] := by
    decide
  refine ⟨hresult,hempty,fun h => ?_⟩
  have hretryable := h.run (perform downClient {}) (fun _ => rfl) (fun _ _ => ⟨{},rfl⟩)
  have hlisted := (hretryable _ hresult ⟨"uid-1","data"⟩ (List.mem_singleton_self _) dataVolume.val (by decide) rfl ?_).1
  · rw [hempty] at hlisted
    cases hlisted
  · exact not_unmounted_of_same rfl rfl

end Laws
end CompositeVolumeManager
end KubeAir.Adapters
