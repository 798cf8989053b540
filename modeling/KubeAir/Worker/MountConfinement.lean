import KubeAir.Worker.VolumeMounts

/-! # Confinement of mount sources

The host path of a volume mount is inside of its volume exactly if the sub path that is
joined stays there. An expanded expression always does: it is checked.
-/
namespace KubeAir.Worker.VolumeMounts
open Core Paths

/-- Nothing about the mount stops the container. -/
def Resolvable (env : HashMap String String) (mountedVolumes : HashMap String Path) (vm : VolumeMount) : Prop :=
  Adapters.Admission.trim vm.mountPath ≠ "" ∧ ∃ base, mountedVolumes.lookup vm.name = some base ∧
    ∃ subPath, effectiveSubPath env vm = .ok subPath ∧ mountSource base subPath ≠ ⟨false,[]⟩

variable {ctrName : String} {env : HashMap String String} {mountedVolumes : HashMap String Path}

theorem resolveMount_ok_iff {vm : VolumeMount} {m : ResolvedMount} :
    resolveMount ctrName env mountedVolumes vm = .ok m ↔ Adapters.Admission.trim vm.mountPath ≠ "" ∧
      ∃ base, mountedVolumes.lookup vm.name = some base ∧ ∃ subPath, effectiveSubPath env vm = .ok subPath ∧
        mountSource base subPath ≠ ⟨false,[]⟩ ∧ m = ⟨vm,base,mountSource base subPath⟩ := by
  unfold resolveMount
  by_cases ht : Adapters.Admission.trim vm.mountPath = ""
  · simp [ht]
  · rw [if_neg ht]
    cases mountedVolumes.lookup vm.name with
    | none => simp
    | some base =>
      dsimp only
      cases effectiveSubPath env vm with
      | error stop => simp
      | ok subPath =>
        dsimp only
        by_cases hs : mountSource base subPath = ⟨false,[]⟩
        · simp [hs]
        · simp only [hs,if_false,Except.ok.injEq,Option.some.injEq,exists_eq_left',ne_eq,ht,not_false_eq_true,true_and]
          exact eq_comm

theorem parse_absolute_iff {s : String} : (Path.parse s).absolute = true ↔ s.toList.head? = some '/' := by
  unfold Path.parse
  exact decide_eq_true_iff

/-- An expression that is accepted stays below the volume. -/
theorem stays_of_valid {base : Path} {expanded : String} (h : invalidSubPath expanded = false) :
    base.Stays (.parse expanded) := by
  unfold invalidSubPath at h
  rw [Bool.or_eq_false_iff,Bool.or_eq_false_iff] at h
  obtain ⟨⟨habs,-⟩,hup⟩ := h
  refine Path.stays_of_notMem_up ?_ ?_
  · rw [Bool.eq_false_iff]
    intro ha
    exact of_decide_eq_false habs (parse_absolute_iff.mp ha)
  · intro hmem
    rw [List.contains_iff_mem.mpr hmem] at hup
    cases hup

/-- A sub path without expression that is joined stays below the volume. -/
def SubPathStays (base : Path) (vm : VolumeMount) : Prop :=
  vm.subPathExpr = none → ∀ p, vm.subPath = some p → p ≠ "" → base.Stays (.parse p)

theorem inside_mountSource_iff {base : Path} {vm : VolumeMount} {subPath : Option String}
    (h : effectiveSubPath env vm = .ok subPath) : base.Inside (mountSource base subPath) ↔ SubPathStays base vm := by
  unfold effectiveSubPath at h
  unfold SubPathStays
  cases he : vm.subPathExpr with
  | none =>
    rw [he] at h
    cases h
    cases hp : vm.subPath with
    | none => simp [mountSource,Path.inside_self]
    | some p =>
      unfold mountSource
      dsimp only
      split
      · next hempty => simp [hempty,Path.inside_self]
      · next hne => simp [hne,Path.inside_join_iff]
  | some expr =>
    have hinside : base.Inside (mountSource base subPath) := by
      rw [he] at h
      dsimp only at h
      split at h
      · cases h
        exact Path.inside_self base
      split at h
      · cases h
      split at h
      · cases h
      · next expanded _ hvalid =>
        cases h
        unfold mountSource
        dsimp only
        split
        · exact Path.inside_self base
        · exact Path.inside_join_iff.mpr (stays_of_valid (Bool.eq_false_iff.mpr hvalid))
    exact ⟨(by rintro _ ⟨⟩),fun _ => hinside⟩

theorem resolveVolumeMounts_cons_ok_iff {vm : VolumeMount} {vms : List VolumeMount} {ms : List ResolvedMount} :
    resolveVolumeMounts ctrName env mountedVolumes (vm :: vms) = .ok ms ↔
      ∃ m rest, resolveMount ctrName env mountedVolumes vm = .ok m ∧
        resolveVolumeMounts ctrName env mountedVolumes vms = .ok rest ∧ ms = m :: rest := by
  rw [resolveVolumeMounts]
  cases resolveMount ctrName env mountedVolumes vm with
  | error stop => simp
  | ok m =>
    dsimp only
    cases resolveVolumeMounts ctrName env mountedVolumes vms with
    | error stop => simp
    | ok rest => simp [eq_comm]

theorem exists_resolveVolumeMounts {vms : List VolumeMount}
    (h : ∀ vm ∈ vms, ∃ m, resolveMount ctrName env mountedVolumes vm = .ok m) :
    ∃ ms, resolveVolumeMounts ctrName env mountedVolumes vms = .ok ms := by
  induction vms with
  | nil => exact ⟨[],rfl⟩
  | cons vm vms ih =>
    obtain ⟨m,hm⟩ := h vm List.mem_cons_self
    obtain ⟨rest,hrest⟩ := ih fun w hw => h w (List.mem_cons_of_mem vm hw)
    exact ⟨m :: rest,resolveVolumeMounts_cons_ok_iff.mpr ⟨m,rest,hm,hrest,rfl⟩⟩

/-- The mounts that come out are the ones that went in. -/
theorem exists_mem_of_resolveVolumeMounts {vms : List VolumeMount} {ms : List ResolvedMount}
    (h : resolveVolumeMounts ctrName env mountedVolumes vms = .ok ms) :
    (∀ vm ∈ vms, ∃ m ∈ ms, resolveMount ctrName env mountedVolumes vm = .ok m) ∧
      ∀ m ∈ ms, ∃ vm ∈ vms, resolveMount ctrName env mountedVolumes vm = .ok m := by
  induction vms generalizing ms with
  | nil =>
    cases h
    exact ⟨nofun,nofun⟩
  | cons vm vms ih =>
    obtain ⟨m,rest,hm,hrest,rfl⟩ := resolveVolumeMounts_cons_ok_iff.mp h
    obtain ⟨hto,hfrom⟩ := ih hrest
    refine ⟨List.forall_mem_cons.mpr ⟨⟨m,List.mem_cons_self,hm⟩,?_⟩,
      List.forall_mem_cons.mpr ⟨⟨vm,List.mem_cons_self,hm⟩,?_⟩⟩
    · intro w hw
      obtain ⟨n,hn,hwn⟩ := hto w hw
      exact ⟨n,List.mem_cons_of_mem m hn,hwn⟩
    · intro n hn
      obtain ⟨w,hw,hwn⟩ := hfrom n hn
      exact ⟨w,List.mem_cons_of_mem vm hw,hwn⟩

/-- The sources of the mounts are inside of their volumes exactly if the sub paths stay there. -/
theorem sources_inside_iff {vms : List VolumeMount} :
    (∀ ms, resolveVolumeMounts ctrName env mountedVolumes vms = .ok ms → ∀ m ∈ ms, m.base.Inside m.source) ↔
      ((∀ vm ∈ vms, Resolvable env mountedVolumes vm) →
        ∀ vm ∈ vms, ∀ base, mountedVolumes.lookup vm.name = some base → SubPathStays base vm) := by
  constructor
  · intro h hres vm hvm base hbase
    have hok : ∀ vm ∈ vms, ∃ m, resolveMount ctrName env mountedVolumes vm = .ok m := by
      intro vm hvm
      obtain ⟨ht,base,hbase,subPath,hsub,hne⟩ := hres vm hvm
      exact ⟨_,resolveMount_ok_iff.mpr ⟨ht,base,hbase,subPath,hsub,hne,rfl⟩⟩
    obtain ⟨ms,hms⟩ := exists_resolveVolumeMounts hok
    obtain ⟨m,hm,hvmm⟩ := (exists_mem_of_resolveVolumeMounts hms).1 vm hvm
    obtain ⟨-,base',hbase',subPath,hsub,-,rfl⟩ := resolveMount_ok_iff.mp hvmm
    rw [hbase] at hbase'
    cases hbase'
    exact (inside_mountSource_iff hsub).mp (h ms hms _ hm)
  · intro h ms hms m hm
    have hres : ∀ vm ∈ vms, Resolvable env mountedVolumes vm := by
      intro vm hvm
      obtain ⟨_,-,hvmm⟩ := (exists_mem_of_resolveVolumeMounts hms).1 vm hvm
      obtain ⟨ht,base,hbase,subPath,hsub,hne,-⟩ := resolveMount_ok_iff.mp hvmm
      exact ⟨ht,base,hbase,subPath,hsub,hne⟩
    obtain ⟨vm,hvm,hvmm⟩ := (exists_mem_of_resolveVolumeMounts hms).2 m hm
    obtain ⟨-,base,hbase,subPath,hsub,-,rfl⟩ := resolveMount_ok_iff.mp hvmm
    exact (inside_mountSource_iff hsub).mpr (h hres vm hvm base hbase)

end KubeAir.Worker.VolumeMounts
