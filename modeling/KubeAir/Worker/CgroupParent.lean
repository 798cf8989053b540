import KubeAir.Adapters.Cgroup

/-! # The cgroup parent of a sandbox

The parent that a sync passes to the runtime, and the cgroup it denotes, beside the directory in
which the cgroup manager writes.
-/
namespace KubeAir.Worker.CgroupParent
open Core Paths Adapters.Cgroup

/-- `sandbox_cgroup_parent`. -/
def sandboxCgroupParent (cgroupDriver : String) (pod : PodSpec) : String :=
  if cgroupDriver = "systemd" then
    match computeQosClass pod with
    | .guaranteed => "kubepods-guaranteed-pod" ++ safeUid pod.uid ++ ".slice"
    | .burstable => "kubepods-burstable-pod" ++ safeUid pod.uid ++ ".slice"
    | .bestEffort => "kubepods-besteffort-pod" ++ safeUid pod.uid ++ ".slice"
  else
    let qosPath := match computeQosClass pod with
      | .guaranteed => "guaranteed"
      | .burstable => "burstable"
      | .bestEffort => "besteffort"
    "/kubepods/" ++ qosPath ++ "/pod" ++ pod.uid.val

/-! ## What a parent denotes -/

/-- The slices around a slice and the slice itself: its name up to each dash, and whole. -/
def sliceChain (slice : String) : List String :=
  let stem := ((stripSuffix slice ".slice").getD slice).toList
  (stem.splitOn '-').inits.tail.map (fun pieces => String.ofList (['-'].intercalate pieces) ++ ".slice")

/-- The cgroup of a slice of systemd. -/
def systemdCgroup (root : Path) (slice : String) : Path :=
  (sliceChain slice).foldl (fun p s => p.join (Path.parse s)) root

/-- The cgroup of a path, which starts at the root of the hierarchy. -/
def cgroupfsCgroup (root : Path) (parent : String) : Path := root.join ⟨false,(Path.parse parent).parts⟩

def denoted (cgroupDriver : String) (root : Path) (parent : String) : Path :=
  if cgroupDriver = "systemd" then systemdCgroup root parent else cgroupfsCgroup root parent

/-! ## Slices -/

variable {root : Path} {uid : PodUID}

theorem dash_notMem_safeUid (uid : PodUID) : '-' ∉ (safeUid uid).toList := by
  unfold safeUid
  rw [String.toList_ofList]
  intro h
  obtain ⟨c,-,hc⟩ := List.mem_map.mp h
  by_cases hdash : c = '-'
  · rw [if_pos hdash] at hc
    exact absurd hc (by decide)
  · rw [if_neg hdash] at hc
    exact hdash hc

theorem stripSuffix_append_self (s suffix : String) : stripSuffix (s ++ suffix) suffix = some s := by
  unfold stripSuffix
  rw [String.toList_append,if_pos (List.suffix_append _ _),List.length_append,Nat.add_sub_cancel,List.take_left',
    String.ofList_toList]
  rfl

/-- The chain of a slice below `kubepods.slice` and a class. -/
theorem sliceChain_pod {q u : String} (hq : '-' ∉ q.toList) (hu : '-' ∉ u.toList) :
    sliceChain ("kubepods-" ++ q ++ "-pod" ++ u ++ ".slice") =
      ["kubepods" ++ ".slice","kubepods-" ++ q ++ ".slice","kubepods-" ++ q ++ "-pod" ++ u ++ ".slice"] := by
  have hstem : ("kubepods-" ++ q ++ "-pod" ++ u).toList =
      ['-'].intercalate ["kubepods".toList,q.toList,"pod".toList ++ u.toList] := by
    simp [List.intercalate,List.intersperse]
  have hclass : ("kubepods-" ++ q).toList = ['-'].intercalate ["kubepods".toList,q.toList] := by
    simp [List.intercalate,List.intersperse]
  have hpieces : ∀ piece ∈ ["kubepods".toList,q.toList,"pod".toList ++ u.toList], '-' ∉ piece := by
    intro piece hp
    rcases List.mem_cons.mp hp with rfl | hp
    · decide
    · rcases List.mem_cons.mp hp with rfl | hp
      · exact hq
      · rw [List.mem_singleton.mp hp,List.mem_append,not_or]
        exact ⟨by decide,hu⟩
  unfold sliceChain
  dsimp only
  rw [stripSuffix_append_self,Option.getD_some,hstem,List.splitOn_intercalate '-' hpieces (List.cons_ne_nil _ _)]
  change [String.ofList (['-'].intercalate ["kubepods".toList]) ++ ".slice",
    String.ofList (['-'].intercalate ["kubepods".toList,q.toList]) ++ ".slice",
    String.ofList (['-'].intercalate ["kubepods".toList,q.toList,"pod".toList ++ u.toList]) ++ ".slice"] = _
  rw [← hstem,← hclass,String.ofList_toList,String.ofList_toList]
  rfl

/-- The cgroup of a pod's slice, with the names of its class written in one piece. -/
theorem systemdCgroup_pod (root : Path) {q u slice prefixed : String} (hq : '-' ∉ q.toList) (hu : '-' ∉ u.toList)
    (hslice : "kubepods-" ++ q ++ ".slice" = slice) (hprefixed : "kubepods-" ++ q ++ "-pod" = prefixed) :
    systemdCgroup root (prefixed ++ u ++ ".slice") =
      ((root.join (Path.parse "kubepods.slice")).join (Path.parse slice)).join
        (Path.parse (prefixed ++ u ++ ".slice")) := by
  have htop : "kubepods" ++ ".slice" = "kubepods.slice" := by decide
  unfold systemdCgroup
  rw [← hprefixed,sliceChain_pod hq hu,hslice,htop]
  rfl

/-- Under the systemd driver the slice that is passed on is the one that is written to. -/
theorem systemd_agrees (root : Path) (pod : PodSpec) :
    systemdCgroup root (sandboxCgroupParent "systemd" pod) = (CgroupPath.mk root).podSlice (computeQosClass pod) pod.uid := by
  unfold sandboxCgroupParent CgroupPath.podSlice CgroupPath.qosSlice CgroupPath.kubepods
  have hu := dash_notMem_safeUid pod.uid
  rw [if_pos rfl]
  cases computeQosClass pod with
  | guaranteed => exact systemdCgroup_pod root (q := "guaranteed") (by decide) hu (by decide) (by decide)
  | burstable => exact systemdCgroup_pod root (q := "burstable") (by decide) hu (by decide) (by decide)
  | bestEffort => exact systemdCgroup_pod root (q := "besteffort") (by decide) hu (by decide) (by decide)

/-! ## Paths of one shape -/

/-- Two lists of parts that step up at the same places. -/
def SameShape (l m : List Part) : Prop := List.Forall₂ (fun a b => a = Part.up ↔ b = Part.up) l m

theorem walk_length {v w : ℕ × List String} {a b : Part} (hvw : v.2.length = w.2.length)
    (hab : a = Part.up ↔ b = Part.up) : (Path.walk v a).2.length = (Path.walk w b).2.length := by
  cases a with
  | up =>
    rw [hab.mp rfl]
    have hempty : v.2 = [] ↔ w.2 = [] := by rw [← List.length_eq_zero_iff,hvw,List.length_eq_zero_iff]
    unfold Path.walk
    dsimp only
    by_cases hv : v.2 = []
    · rw [if_pos hv,if_pos (hempty.mp hv)]
    · rw [if_neg hv,if_neg (fun h => hv (hempty.mpr h))]
      change v.2.dropLast.length = w.2.dropLast.length
      rw [List.length_dropLast,List.length_dropLast,hvw]
  | name s =>
    cases b with
    | up => exact absurd (hab.mpr rfl) Paths.Part.noConfusion
    | name t =>
      change (v.2 ++ [s]).length = (w.2 ++ [t]).length
      rw [List.length_append,List.length_append,hvw]
      rfl

theorem SameShape.length_climb {l m : List Part} (h : SameShape l m) :
    (Path.climb l).2.length = (Path.climb m).2.length := by
  have hfold : ∀ v w : ℕ × List String, v.2.length = w.2.length →
      (l.foldl Path.walk v).2.length = (m.foldl Path.walk w).2.length := by
    induction h with
    | nil => exact fun v w hvw => hvw
    | cons hab _ ih => exact fun v w hvw => ih _ _ (walk_length hvw hab)
  exact hfold _ _ rfl

/-- A last name that only one of two paths of one shape has keeps them apart. -/
theorem climb_ne {l m : List Part} (h : SameShape l m) {last : Option Part} {c : String}
    (hc : ∀ s, last = some (Part.name s) → s ≠ c) :
    (Path.climb (l ++ last.toList)).2 ≠ (Path.climb (m ++ [Part.name c])).2 := by
  intro heq
  have hlen := h.length_climb
  rw [Path.climb_concat] at heq
  change _ = (Path.climb m).2 ++ [c] at heq
  cases last with
  | none =>
    have := congrArg List.length heq
    rw [Option.toList_none,List.append_nil,List.length_append,List.length_singleton] at this
    omega
  | some part =>
    rw [Option.toList_some,Path.climb_concat] at heq
    cases part with
    | up =>
      unfold Path.walk at heq
      have hlast := congrArg List.length heq
      by_cases hl : (Path.climb l).2 = []
      · dsimp only at hlast
        rw [if_pos hl,List.length_append] at hlast
        simp at hlast
      · dsimp only at hlast
        rw [if_neg hl,List.length_append,List.length_singleton] at hlast
        change (Path.climb l).2.dropLast.length = _ at hlast
        rw [List.length_dropLast] at hlast
        omega
    | name s =>
      change (Path.climb l).2 ++ [s] = _ at heq
      exact hc s rfl (List.append_inj_right' heq rfl |> List.singleton_inj.mp)

/-! ## Pieces of a path -/

/-- The parts that a text spells. -/
def partsOf (cs : List Char) : List Part := (cs.splitOn '/').filterMap Path.partOf

theorem parse_parts (s : String) : (Path.parse s).parts = partsOf s.toList := rfl

theorem partsOf_append_slash (as bs : List Char) : partsOf (as ++ '/' :: bs) = partsOf as ++ partsOf bs := by
  unfold partsOf
  rw [List.splitOn_append_cons_self,List.filterMap_append]

theorem partsOf_piece {cs : List Char} (h : '/' ∉ cs) : partsOf cs = (Path.partOf cs).toList := by
  unfold partsOf
  rw [List.splitOn_eq_singleton h]
  cases hp : Path.partOf cs with
  | none => exact List.filterMap_cons_none hp
  | some part => exact List.filterMap_cons_some hp

/-- A piece that is longer than two characters is a name. -/
theorem partOf_long {cs : List Char} (h : 2 < cs.length) : Path.partOf cs = some (.name (String.ofList cs)) := by
  unfold Path.partOf
  rw [if_neg,if_neg]
  · rintro rfl
    exact absurd h (by decide)
  · rintro (rfl | rfl) <;> exact absurd h (by decide)

/-- Characters with their dashes replaced. -/
def undash (cs : List Char) : List Char := cs.map (fun c => if c = '-' then '_' else c)

theorem undash_eq_iff {cs ds : List Char} (hds : '-' ∉ ds ∧ '_' ∉ ds) : undash cs = ds ↔ cs = ds := by
  induction cs generalizing ds with
  | nil => exact Iff.rfl
  | cons c cs ih =>
    cases ds with
    | nil => exact iff_of_false (List.cons_ne_nil _ _) (List.cons_ne_nil _ _)
    | cons d ds =>
      rw [List.mem_cons,List.mem_cons,not_or,not_or] at hds
      change (if c = '-' then '_' else c) :: undash cs = d :: ds ↔ _
      rw [List.cons_eq_cons,List.cons_eq_cons,ih ⟨hds.1.2,hds.2.2⟩]
      refine and_congr ?_ Iff.rfl
      by_cases hc : c = '-'
      · rw [if_pos hc,hc]
        exact iff_of_false hds.2.1 hds.1.1
      · rw [if_neg hc]

/-- Replacing dashes keeps what kind of part a piece is. -/
theorem partOf_undash (cs : List Char) :
    (Path.partOf cs = none ↔ Path.partOf (undash cs) = none) ∧
      (Path.partOf cs = some .up ↔ Path.partOf (undash cs) = some .up) := by
  have h0 : undash cs = [] ↔ cs = [] := undash_eq_iff ⟨List.not_mem_nil,List.not_mem_nil⟩
  have h1 : undash cs = ['.'] ↔ cs = ['.'] := undash_eq_iff ⟨by decide,by decide⟩
  have h2 : undash cs = ['.','.'] ↔ cs = ['.','.'] := undash_eq_iff ⟨by decide,by decide⟩
  unfold Path.partOf
  simp only [h0,h1,h2]
  by_cases hblank : cs = [] ∨ cs = ['.']
  · rw [if_pos hblank,if_pos hblank]
    exact ⟨Iff.rfl,Iff.rfl⟩
  · rw [if_neg hblank,if_neg hblank]
    by_cases hup : cs = ['.','.']
    · rw [if_pos hup,if_pos hup]
      exact ⟨Iff.rfl,Iff.rfl⟩
    · rw [if_neg hup,if_neg hup]
      refine ⟨iff_of_false (Option.some_ne_none _) (Option.some_ne_none _),?_⟩
      exact iff_of_false (fun h => Paths.Part.noConfusion (Option.some.inj h)) (fun h => Paths.Part.noConfusion (Option.some.inj h))

theorem splitOn_undash (cs : List Char) : (undash cs).splitOn '/' = (cs.splitOn '/').map undash := by
  induction cs with
  | nil => rfl
  | cons c cs ih =>
    change ((if c = '-' then '_' else c) :: undash cs).splitOn '/' = _
    rw [List.splitOn_cons_eq_if_modifyHead,List.splitOn_cons_eq_if_modifyHead,ih]
    by_cases hslash : c = '/'
    · subst hslash
      rfl
    · have hkept : ((if c = '-' then '_' else c) == '/') = false := by
        by_cases hdash : c = '-'
        · rw [if_pos hdash]
          rfl
        · rw [if_neg hdash]
          exact beq_false_of_ne hslash
      have hc : (c == '/') = false := beq_false_of_ne hslash
      rw [hkept,hc,if_neg Bool.false_ne_true,if_neg Bool.false_ne_true]
      cases cs.splitOn '/' <;> rfl

/-- A text put in front of pieces joins the first one. -/
theorem splitOn_append {as : List Char} (h : '/' ∉ as) (cs : List Char) :
    (as ++ cs).splitOn '/' = (cs.splitOn '/').modifyHead (as ++ ·) := by
  induction as with
  | nil =>
    rw [List.nil_append]
    cases cs.splitOn '/' <;> rfl
  | cons a as ih =>
    rw [List.mem_cons,not_or] at h
    have ha : (a == '/') = false := beq_false_of_ne (Ne.symm h.1)
    rw [List.cons_append,List.splitOn_cons_eq_if_modifyHead,ha,if_neg Bool.false_ne_true,ih h.2]
    cases cs.splitOn '/' <;> rfl

theorem sameShape_filterMap (pieces : List (List Char)) :
    SameShape (pieces.filterMap Path.partOf) ((pieces.map undash).filterMap Path.partOf) := by
  induction pieces with
  | nil => exact .nil
  | cons piece pieces ih =>
    obtain ⟨hnone,hup⟩ := partOf_undash piece
    rw [List.map_cons]
    cases hp : Path.partOf piece with
    | none =>
      rw [List.filterMap_cons_none hp,List.filterMap_cons_none (hnone.mp hp)]
      exact ih
    | some part =>
      obtain ⟨part',hp'⟩ := Option.ne_none_iff_exists'.mp (fun h => Option.some_ne_none part (hp ▸ hnone.mpr h))
      rw [List.filterMap_cons_some hp,List.filterMap_cons_some hp']
      refine .cons ?_ ih
      rw [hp,hp',Option.some_inj,Option.some_inj] at hup
      exact hup

/-- What is behind two long prefixes has one shape, with dashes or without. -/
theorem sameShape_prefixed {as bs : List Char} (ha : '/' ∉ as) (hb : '/' ∉ bs) (hla : 2 < as.length)
    (hlb : 2 < bs.length) (cs : List Char) : SameShape (partsOf (as ++ cs)) (partsOf (bs ++ undash cs)) := by
  unfold partsOf
  rw [splitOn_append ha,splitOn_append hb,splitOn_undash]
  obtain ⟨piece,pieces,hp⟩ := List.exists_cons_of_ne_nil (List.splitOn_ne_nil '/' cs)
  have hpa : Path.partOf (as ++ piece) = some (.name (String.ofList (as ++ piece))) :=
    partOf_long (by rw [List.length_append]; omega)
  have hpb : Path.partOf (bs ++ undash piece) = some (.name (String.ofList (bs ++ undash piece))) :=
    partOf_long (by rw [List.length_append]; omega)
  rw [hp]
  change SameShape (((as ++ piece) :: pieces).filterMap Path.partOf)
    (((bs ++ undash piece) :: pieces.map undash).filterMap Path.partOf)
  rw [List.filterMap_cons_some hpa,List.filterMap_cons_some hpb]
  exact .cons (iff_of_false Paths.Part.noConfusion Paths.Part.noConfusion) (sameShape_filterMap pieces)

theorem exists_last_slash {cs : List Char} (h : '/' ∈ cs) : ∃ as bs, cs = as ++ '/' :: bs ∧ '/' ∉ bs := by
  obtain ⟨as,bs,hcs,has⟩ := List.eq_append_cons_of_mem (List.mem_reverse.mpr h)
  refine ⟨bs.reverse,as.reverse,?_,fun hm => has (List.mem_reverse.mp hm)⟩
  calc
    cs = cs.reverse.reverse := (List.reverse_reverse cs).symm
    _ = bs.reverse ++ '/' :: as.reverse := by rw [hcs,List.reverse_append,List.reverse_cons,List.append_assoc]; rfl

theorem slash_notMem_undash {cs : List Char} (h : '/' ∉ cs) : '/' ∉ undash cs := by
  intro hmem
  obtain ⟨c,hc,heq⟩ := List.mem_map.mp hmem
  by_cases hdash : c = '-'
  · rw [if_pos hdash] at heq
    exact absurd heq (by decide)
  · rw [if_neg hdash] at heq
    exact h (heq ▸ hc)

theorem partOf_eq_name {cs : List Char} {s : String} (h : Path.partOf cs = some (.name s)) : s = String.ofList cs := by
  unfold Path.partOf at h
  split at h
  · cases h
  · split at h
    · cases h
    · exact (Part.name.inj (Option.some.inj h)).symm

theorem ofList_ne {cs ds : List Char} (h : cs.length < ds.length) : String.ofList cs ≠ String.ofList ds := by
  intro heq
  rw [String.ofList_injective heq] at h
  omega

/-- A text behind one prefix, and the text without dashes behind another and with a suffix, lead
apart. -/
theorem suffixed_ne {as bs suffix : List Char} {l m : List Part} (hlm : SameShape l m) (ha : '/' ∉ as)
    (hb : '/' ∉ bs) (hs : '/' ∉ suffix) (hla : 2 < as.length) (hab : as.length ≤ bs.length)
    (hls : 2 < suffix.length) (cs : List Char) :
    (Path.climb (l ++ partsOf (as ++ cs))).2 ≠ (Path.climb (m ++ partsOf (bs ++ undash cs ++ suffix))).2 := by
  by_cases hslash : '/' ∈ cs
  · obtain ⟨xs,ys,rfl,hys⟩ := exists_last_slash hslash
    have hun : undash (xs ++ '/' :: ys) = undash xs ++ '/' :: undash ys := List.map_append
    have hysu : '/' ∉ undash ys ++ suffix := fun h => (List.mem_append.mp h).elim (slash_notMem_undash hys) hs
    have hlast : Path.partOf (undash ys ++ suffix) = some (.name (String.ofList (undash ys ++ suffix))) :=
      partOf_long (by rw [List.length_append]; omega)
    have hfirst : partsOf (as ++ (xs ++ '/' :: ys)) = partsOf (as ++ xs) ++ (Path.partOf ys).toList := by
      rw [← List.append_assoc,partsOf_append_slash,partsOf_piece hys]
    have hsecond : partsOf (bs ++ undash (xs ++ '/' :: ys) ++ suffix) =
        partsOf (bs ++ undash xs) ++ [Part.name (String.ofList (undash ys ++ suffix))] := by
      rw [hun,← List.append_assoc,List.append_assoc _ _ suffix,List.cons_append,partsOf_append_slash,
        partsOf_piece hysu,hlast]
      rfl
    rw [hfirst,hsecond,← List.append_assoc,← List.append_assoc]
    refine climb_ne (List.rel_append hlm (sameShape_prefixed ha hb hla (by omega) xs)) (fun s hname => ?_)
    rw [partOf_eq_name hname]
    exact ofList_ne (by rw [List.length_append,undash,List.length_map]; omega)
  · have hfirst : partsOf (as ++ cs) = [Part.name (String.ofList (as ++ cs))] := by
      rw [partsOf_piece (fun h => (List.mem_append.mp h).elim ha hslash),
        partOf_long (by rw [List.length_append]; omega)]
      rfl
    have hsecond : partsOf (bs ++ undash cs ++ suffix) = [Part.name (String.ofList (bs ++ undash cs ++ suffix))] := by
      have hplain : '/' ∉ bs ++ undash cs ++ suffix := by
        intro h
        rcases List.mem_append.mp h with h | h
        · exact (List.mem_append.mp h).elim hb (slash_notMem_undash hslash)
        · exact hs h
      rw [partsOf_piece hplain,partOf_long (by rw [List.length_append]; omega)]
      rfl
    rw [hfirst,hsecond]
    have hname : ∀ s, some (Part.name (String.ofList (as ++ cs))) = some (Part.name s) →
        s ≠ String.ofList (bs ++ undash cs ++ suffix) := by
      intro s hs
      rw [← Part.name.inj (Option.some.inj hs)]
      exact ofList_ne (by rw [List.length_append,List.length_append,List.length_append,undash,List.length_map]; omega)
    exact climb_ne hlm hname

/-! ## Agreement -/

/-- The word for a class in the names of cgroups. -/
def qosWord : QosClass → String
  | .guaranteed => "guaranteed"
  | .burstable => "burstable"
  | .bestEffort => "besteffort"

theorem join_text (base : Path) {c : Char} {rest : List Char} {pre t : String} (hpre : pre.toList = c :: rest)
    (hc : c ≠ '/') : base.join (Path.parse (pre ++ t)) = ⟨base.absolute,base.parts ++ partsOf (pre ++ t).toList⟩ := by
  have habsolute : (Path.parse (pre ++ t)).absolute = false := by
    change decide ((pre ++ t).toList.head? = some '/') = false
    rw [String.toList_append,hpre]
    exact decide_eq_false (fun h => hc (Option.some.inj h))
  unfold Path.join
  rw [if_neg (by rw [habsolute]; exact Bool.false_ne_true),parse_parts]

theorem podSlice_eq (root : Path) (qos : QosClass) (uid : PodUID) :
    (CgroupPath.mk root).podSlice qos uid =
      ⟨root.absolute,root.parts ++ [.name "kubepods.slice",.name ("kubepods-" ++ qosWord qos ++ ".slice")] ++
        partsOf (("kubepods-" ++ qosWord qos ++ "-pod").toList ++ undash uid.val.toList ++ ".slice".toList)⟩ := by
  have hsafe : (safeUid uid).toList = undash uid.val.toList := String.toList_ofList
  have hsliced : ∀ base : Path, ∀ pre : String, (∃ rest, pre.toList = 'k' :: rest) →
      base.join (Path.parse (pre ++ safeUid uid ++ ".slice")) =
        ⟨base.absolute,base.parts ++ partsOf (pre.toList ++ undash uid.val.toList ++ ".slice".toList)⟩ := by
    rintro base pre ⟨rest,hpre⟩
    rw [String.append_assoc,join_text base hpre (by decide),String.toList_append,String.toList_append,hsafe,
      List.append_assoc]
  unfold CgroupPath.podSlice
  have hqos : (CgroupPath.mk root).qosSlice qos = ⟨root.absolute,root.parts ++
      [.name "kubepods.slice",.name ("kubepods-" ++ qosWord qos ++ ".slice")]⟩ := by
    have htwo : ∀ a b : String, Path.parse a = ⟨false,[.name a]⟩ → Path.parse b = ⟨false,[.name b]⟩ →
        (root.join (Path.parse a)).join (Path.parse b) = ⟨root.absolute,root.parts ++ [.name a,.name b]⟩ := by
      intro a b ha hb
      rw [ha,hb]
      exact congrArg (Paths.Path.mk root.absolute) (List.append_assoc root.parts [.name a] [.name b])
    unfold CgroupPath.qosSlice CgroupPath.kubepods
    cases qos <;> exact htwo _ _ (by decide) (by decide)
  rw [hqos]
  cases qos <;> exact hsliced _ _ ⟨_,rfl⟩

theorem cgroupfs_eq (root : Path) {cgroupDriver : String} (h : cgroupDriver ≠ "systemd") (pod : PodSpec) :
    cgroupfsCgroup root (sandboxCgroupParent cgroupDriver pod) =
      ⟨root.absolute,root.parts ++ [.name "kubepods",.name (qosWord (computeQosClass pod))] ++
        partsOf ("pod".toList ++ pod.uid.val.toList)⟩ := by
  have hparts : ∀ w : String, partsOf w.toList = [.name w] → partsOf ("/kubepods/" ++ w ++ "/pod" ++ pod.uid.val).toList =
      [.name "kubepods",.name w] ++ partsOf ("pod".toList ++ pod.uid.val.toList) := by
    intro w hw
    have hchars : ("/kubepods/" ++ w ++ "/pod" ++ pod.uid.val).toList =
        "/kubepods".toList ++ '/' :: (w.toList ++ '/' :: ("pod".toList ++ pod.uid.val.toList)) := by
      simp only [String.toList_append]
      change ("/kubepods".toList ++ ['/'] ++ w.toList ++ '/' :: "pod".toList) ++ pod.uid.val.toList = _
      simp only [List.append_assoc,List.cons_append,List.nil_append]
    have hfirst : partsOf "/kubepods".toList = [.name "kubepods"] := by decide
    rw [hchars,partsOf_append_slash,partsOf_append_slash,hw,hfirst]
    rfl
  have hword : partsOf (qosWord (computeQosClass pod)).toList = [.name (qosWord (computeQosClass pod))] := by
    cases computeQosClass pod <;> decide
  have hparent : sandboxCgroupParent cgroupDriver pod =
      "/kubepods/" ++ qosWord (computeQosClass pod) ++ "/pod" ++ pod.uid.val := by
    unfold sandboxCgroupParent
    rw [if_neg h]
    cases computeQosClass pod <;> rfl
  unfold cgroupfsCgroup
  rw [hparent,parse_parts,hparts _ hword]
  exact congrArg (Paths.Path.mk root.absolute) (List.append_assoc _ _ _).symm

/-- The cgroup that is written to is the one that the runtime is given exactly under the systemd
driver. -/
theorem denoted_sandboxCgroupParent_iff (cgroupDriver : String) (root : Path) (pod : PodSpec) :
    ((CgroupPath.mk root).podSlice (computeQosClass pod) pod.uid).resolve =
        (denoted cgroupDriver root (sandboxCgroupParent cgroupDriver pod)).resolve ↔
      cgroupDriver = "systemd" := by
  unfold denoted
  by_cases hdriver : cgroupDriver = "systemd"
  · subst hdriver
    rw [if_pos rfl,systemd_agrees]
    exact iff_of_true rfl rfl
  · rw [if_neg hdriver,podSlice_eq,cgroupfs_eq root hdriver]
    refine iff_of_false (fun heq => ?_) hdriver
    have hnames := (congrArg Prod.snd heq).symm
    have hshape : SameShape (root.parts ++ [.name "kubepods",.name (qosWord (computeQosClass pod))])
        (root.parts ++ [.name "kubepods.slice",.name ("kubepods-" ++ qosWord (computeQosClass pod) ++ ".slice")]) := by
      have hroot : SameShape root.parts root.parts := List.forall₂_same.mpr (fun _ _ => Iff.rfl)
      exact List.rel_append hroot (.cons (iff_of_false Paths.Part.noConfusion Paths.Part.noConfusion)
        (.cons (iff_of_false Paths.Part.noConfusion Paths.Part.noConfusion) .nil))
    have hword : '/' ∉ ("kubepods-" ++ qosWord (computeQosClass pod) ++ "-pod").toList ∧
        "pod".toList.length ≤ ("kubepods-" ++ qosWord (computeQosClass pod) ++ "-pod").toList.length := by
      cases computeQosClass pod <;> decide
    exact suffixed_ne hshape (by decide) hword.1 (by decide) (by decide) hword.2 (by decide) pod.uid.val.toList hnames

/-- Under the cgroupfs driver a pod's cap is written next to its cgroup. -/
theorem cgroupfs_apart :
    (CgroupPath.mk (Path.parse "/sys/fs/cgroup")).podSlice .bestEffort ⟨"u"⟩ =
        Path.parse "/sys/fs/cgroup/kubepods.slice/kubepods-besteffort.slice/kubepods-besteffort-podu.slice" ∧
      denoted "cgroupfs" (Path.parse "/sys/fs/cgroup")
          (sandboxCgroupParent "cgroupfs" { uid := ⟨"u"⟩, podRef := ⟨"default","web"⟩ }) =
        Path.parse "/sys/fs/cgroup/kubepods/besteffort/podu" ∧
      ((CgroupPath.mk (Path.parse "/sys/fs/cgroup")).podSlice .bestEffort ⟨"u"⟩).resolve ≠
        (denoted "cgroupfs" (Path.parse "/sys/fs/cgroup")
          (sandboxCgroupParent "cgroupfs" { uid := ⟨"u"⟩, podRef := ⟨"default","web"⟩ })).resolve := by
  have hslice : (CgroupPath.mk (Path.parse "/sys/fs/cgroup")).podSlice .bestEffort ⟨"u"⟩ =
      Path.parse "/sys/fs/cgroup/kubepods.slice/kubepods-besteffort.slice/kubepods-besteffort-podu.slice" := by
    rw [podSlice_eq]
    decide +kernel
  have hparent : denoted "cgroupfs" (Path.parse "/sys/fs/cgroup")
      (sandboxCgroupParent "cgroupfs" { uid := ⟨"u"⟩, podRef := ⟨"default","web"⟩ }) =
        Path.parse "/sys/fs/cgroup/kubepods/besteffort/podu" := by
    decide +kernel
  refine ⟨hslice,hparent,?_⟩
  rw [hslice,hparent]
  decide +kernel

end KubeAir.Worker.CgroupParent
