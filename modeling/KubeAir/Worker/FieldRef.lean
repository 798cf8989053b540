import KubeAir.Core.Pod
import KubeAir.Wire.KeyValue
import Mathlib.Data.String.Basic
import Mathlib.Data.List.Sort

/-! # Fields of a pod in variables and files

The text of a `fieldRef`. A whole map of labels or annotations becomes one line for each entry,
in the order of the keys.
-/
namespace KubeAir.Worker.FieldRef
open Core Wire

/-- What the resolvers read of the machine. -/
structure HostView where
  /-- `detect_node_internal_ip` -/
  internalIp : String
  /-- `num_cpus::get` -/
  cpus : ℕ
  /-- the kibibytes after `MemTotal:` -/
  memTotal : Option ℤ := none

/-- The key between `start` and a closing `']`. -/
def bracketed (field start : String) : Option String :=
  if start.toList <+: field.toList then stripSuffix (String.ofList (field.toList.drop start.toList.length)) "']" else none

/-- The entries of a map in the order of the keys. -/
def sortedPairs (m : HashMap String String) : List (String × String) :=
  (m.entries.map fun e => (e.1,e.2)).insertionSort fun p q => p.1 ≤ q.1

/-- One line `key="value"` for each entry. -/
def keyValueLines (m : HashMap String String) : String :=
  String.join ((sortedPairs m).map fun p => p.1 ++ "=\"" ++ p.2 ++ "\"\n")

def resolveFieldRefWithPodIp (host : HostView) (pod : PodSpec) (field : String) (podIp : Option String) : String :=
  match bracketed field "metadata.labels['" with
  | some key => (pod.labels.lookup key).getD ""
  | none =>
    match bracketed field "metadata.annotations['" with
    | some key => (pod.annotations.lookup key).getD ""
    | none =>
      match field with
      | "metadata.labels" => keyValueLines pod.labels
      | "metadata.annotations" => keyValueLines pod.annotations
      | "metadata.name" => pod.podRef.name
      | "metadata.namespace" => pod.podRef.ns
      | "metadata.uid" => pod.uid.val
      | "spec.nodeName" => pod.nodeName
      | "spec.serviceAccountName" => pod.serviceAccountName
      | "status.hostIP" => host.internalIp
      | "status.podIP" | "status.podIPs" =>
        -- pods of the host network have the address of the node
        (podIp.filter (· ≠ "")).getD (if pod.hostNetwork then host.internalIp else "")
      | _ => ""

def resolveFieldRef (host : HostView) (pod : PodSpec) (field : String) : String :=
  resolveFieldRefWithPodIp host pod field none

/-! ## The lines of a map -/

section lines
variable {m m' : HashMap String String}

/-- Two maps have the same entries. -/
def SameMap (m m' : HashMap String String) : Prop := ∀ k, m.lookup k = m'.lookup k

def chars (p : String × String) : List Char × List Char := (p.1.toList,p.2.toList)

theorem toList_keyValueLines (m : HashMap String String) :
    (keyValueLines m).toList = KeyValue.text ((sortedPairs m).map chars) := by
  unfold keyValueLines KeyValue.text
  rw [String.toList_join,List.flatMap_map,List.flatMap_map]
  refine congrArg (fun f => (sortedPairs m).flatMap f) (funext fun p => ?_)
  simp [KeyValue.line,chars]

theorem mem_sortedPairs {k v : String} : (k,v) ∈ sortedPairs m ↔ m.lookup k = some v := by
  unfold sortedPairs
  rw [(List.perm_insertionSort _ _).mem_iff,List.mem_map]
  constructor
  · rintro ⟨⟨a,b⟩,he,heq⟩
    cases heq
    exact AList.mem_lookup_iff.mpr he
  · intro h
    exact ⟨⟨k,v⟩,AList.mem_lookup_iff.mp h,rfl⟩

theorem pairwise_sortedPairs (m : HashMap String String) : (sortedPairs m).Pairwise (fun p q => p.1 < q.1) := by
  have hle : (sortedPairs m).Pairwise (fun p q => p.1 ≤ q.1) := List.pairwise_insertionSort _ _
  have hne : (sortedPairs m).Pairwise (fun p q => p.1 ≠ q.1) := by
    have hkeys : (m.entries.map fun e => (e.1,e.2)).Pairwise (fun p q => p.1 ≠ q.1) :=
      List.pairwise_map.mpr m.nodupKeys.pairwise_ne
    exact (List.perm_insertionSort (fun p q : String × String => p.1 ≤ q.1) _).symm.pairwise hkeys (fun h => h.symm)
  exact (hle.and hne).imp fun h => lt_of_le_of_ne h.1 h.2

/-- The order of the keys and the entries determine the list. -/
theorem sortedPairs_eq {l : List (String × String)} (hl : l.Pairwise (fun p q => p.1 < q.1))
    (h : ∀ k v, (k,v) ∈ l ↔ m.lookup k = some v) : sortedPairs m = l := by
  have : Std.Antisymm (fun p q : String × String => p.1 < q.1) := ⟨fun p q hpq hqp => absurd hqp hpq.not_gt⟩
  have : Std.Irrefl (fun p q : String × String => p.1 < q.1) := ⟨fun p => lt_irrefl p.1⟩
  refine List.Subset.antisymm_of_pairwise (pairwise_sortedPairs m) hl ?_ ?_
  · rintro ⟨k,v⟩ hm
    exact (h k v).mpr (mem_sortedPairs.mp hm)
  · rintro ⟨k,v⟩ hm
    exact mem_sortedPairs.mpr ((h k v).mp hm)

theorem sameMap_iff : SameMap m m' ↔ sortedPairs m = sortedPairs m' := by
  constructor
  · intro h
    refine sortedPairs_eq (pairwise_sortedPairs m') fun k v => ?_
    rw [mem_sortedPairs,h k]
  · intro h k
    refine Option.ext fun v => ?_
    rw [← mem_sortedPairs,h,mem_sortedPairs]

/-- Every sorted list of entries is that of a map. -/
theorem exists_sortedPairs {l : List (String × String)} (hl : l.Pairwise (fun p q => p.1 < q.1)) :
    ∃ m, sortedPairs m = l := by
  have hnodup : (l.map fun p => (⟨p.1,p.2⟩ : Sigma fun _ : String => String)).NodupKeys := by
    unfold List.NodupKeys List.keys
    rw [List.map_map]
    exact List.pairwise_map.mpr (hl.imp fun h => ne_of_lt h)
  refine ⟨⟨_,hnodup⟩,sortedPairs_eq hl fun k v => ?_⟩
  rw [← Option.mem_def,AList.mem_lookup_iff,List.mem_map]
  constructor
  · intro h
    exact ⟨(k,v),h,rfl⟩
  · rintro ⟨⟨a,b⟩,hp,heq⟩
    cases heq
    exact hp

end lines

/-! ## Reading a file back -/

/-- A key without equals sign, quote and newline. -/
def ValidKey (k : String) : Prop := ∀ c ∈ ['=','"','\n'], c ∉ k.toList

def ValidKeys (m : HashMap String String) : Prop := ∀ k ∈ m.keys, ValidKey k

/-- What ends the line of a value and begins that of a key. -/
def joint (k : String) : String := "\"\n" ++ k ++ "=\""

/-- A map with at most one entry, whose value does not look like the end of its own line followed
by the line of a later key. -/
def Unforged (m : HashMap String String) : Prop :=
  (∀ k ∈ m.keys, ∀ k' ∈ m.keys, k = k') ∧
    ∀ k v, m.lookup k = some v → ∀ k', ValidKey k' → k < k' → ¬(joint k').toList <:+: v.toList

section recovery
variable {m m' : HashMap String String}

theorem ValidKey.notMem {k : String} (h : ValidKey k) : '=' ∉ k.toList := h '=' (by decide)

theorem mem_keys_iff {k : String} : k ∈ m.keys ↔ ∃ v, (k,v) ∈ sortedPairs m := by
  simp only [mem_sortedPairs]
  exact AList.lookup_isSome.symm.trans Option.isSome_iff_exists

theorem ValidKeys.chars (h : ValidKeys m) : ∀ p ∈ (sortedPairs m).map chars, '=' ∉ p.1 := by
  intro p hp
  obtain ⟨⟨k,v⟩,hmem,rfl⟩ := List.mem_map.mp hp
  exact (h k (mem_keys_iff.mpr ⟨v,hmem⟩)).notMem

theorem chars_injective : Function.Injective chars := by
  rintro ⟨a,b⟩ ⟨a',b'⟩ h
  rw [chars,chars,Prod.mk.injEq] at h
  exact Prod.ext (String.toList_inj.mp h.1) (String.toList_inj.mp h.2)

theorem toList_joint (k : String) : (joint k).toList = KeyValue.joint k.toList := by
  simp [joint,KeyValue.joint]

/-- Maps whose values have no quote before a newline are told apart by their lines. -/
theorem sameMap_of_plain (hkeys : ValidKeys m) (hkeys' : ValidKeys m')
    (hplain : ∀ k v, m.lookup k = some v → ¬['"','\n'] <:+: v.toList)
    (hplain' : ∀ k v, m'.lookup k = some v → ¬['"','\n'] <:+: v.toList)
    (h : keyValueLines m' = keyValueLines m) : SameMap m m' := by
  have hpairs : ∀ {n : HashMap String String}, ValidKeys n → (∀ k v, n.lookup k = some v → ¬['"','\n'] <:+: v.toList) →
      ∀ p ∈ (sortedPairs n).map FieldRef.chars, '=' ∉ p.1 ∧ ¬['"','\n'] <:+: p.2 := by
    intro n hk hv p hp
    refine ⟨hk.chars p hp,?_⟩
    obtain ⟨⟨k,v⟩,hmem,rfl⟩ := List.mem_map.mp hp
    exact hv k v (mem_sortedPairs.mp hmem)
  have htext := congrArg String.toList h
  rw [toList_keyValueLines,toList_keyValueLines] at htext
  have hchars := KeyValue.text_injective (hpairs hkeys' hplain') (hpairs hkeys hplain) htext
  exact sameMap_iff.mpr ((List.map_injective_iff.mpr chars_injective) hchars).symm

/-- A map that is not forged is the only one with its lines. -/
theorem sameMap_of_unforged (hm : Unforged m) (hkeys : ValidKeys m) (hkeys' : ValidKeys m')
    (h : keyValueLines m' = keyValueLines m) : SameMap m m' := by
  have htext := congrArg String.toList h
  rw [toList_keyValueLines,toList_keyValueLines] at htext
  rw [sameMap_iff]
  cases hs : sortedPairs m with
  | nil =>
    cases hs' : sortedPairs m' with
    | nil => rfl
    | cons p ps =>
      rw [hs,hs'] at htext
      exact absurd (List.append_eq_nil_iff.mp htext).1 (KeyValue.line_ne_nil _)
  | cons p ps =>
    obtain ⟨k,v⟩ := p
    have hk : (k,v) ∈ sortedPairs m := hs ▸ List.mem_cons_self
    have hps : ps = [] := by
      rcases ps with _ | ⟨⟨k',v'⟩,ps⟩
      · rfl
      · have hsorted := pairwise_sortedPairs m
        rw [hs] at hsorted
        have hlt : k < k' := (List.pairwise_cons.mp hsorted).1 (k',v') List.mem_cons_self
        have hk' : (k',v') ∈ sortedPairs m := by rw [hs]; simp
        exact absurd (hm.1 k (mem_keys_iff.mpr ⟨v,hk⟩) k' (mem_keys_iff.mpr ⟨v',hk'⟩)) (ne_of_lt hlt)
    rw [hs,hps,List.map_singleton,KeyValue.text_cons,KeyValue.text_nil,List.append_nil] at htext
    rcases KeyValue.text_eq_line (hkeys k (mem_keys_iff.mpr ⟨v,hk⟩)).notMem hkeys'.chars htext with
      hone | ⟨a,p,qs,hsplit,hjoint⟩
    · rw [hps]
      exact ((List.map_injective_iff.mpr chars_injective) (hone.trans (List.map_singleton).symm)).symm
    · obtain ⟨⟨k₁,v₁⟩,l,hs',hfirst,hl⟩ := List.map_eq_cons_iff.mp hsplit
      obtain ⟨⟨k₂,v₂⟩,l,rfl,rfl,-⟩ := List.map_eq_cons_iff.mp hl
      have hk₁ : k₁ = k := String.toList_inj.mp (congrArg Prod.fst hfirst)
      have hmem : (k₂,v₂) ∈ sortedPairs m' := by rw [hs']; simp
      have hsorted := pairwise_sortedPairs m'
      rw [hs',hk₁] at hsorted
      have hlt : k < k₂ := (List.pairwise_cons.mp hsorted).1 (k₂,v₂) List.mem_cons_self
      refine absurd ?_ (hm.2 k v (mem_sortedPairs.mp hk) k₂ (hkeys' k₂ (mem_keys_iff.mpr ⟨v₂,hmem⟩)) hlt)
      rw [toList_joint]
      exact hjoint

/-- Another list of entries with the same text is that of another map. -/
theorem exists_of_text {l : List (String × String)} (hl : l.Pairwise (fun p q => p.1 < q.1))
    (hvalid : ∀ p ∈ l, ValidKey p.1) (htext : KeyValue.text (l.map chars) = KeyValue.text ((sortedPairs m).map chars))
    (hlen : l.length ≠ (sortedPairs m).length) :
    ∃ m', ValidKeys m' ∧ keyValueLines m' = keyValueLines m ∧ ¬SameMap m m' := by
  obtain ⟨m',hm'⟩ := exists_sortedPairs hl
  refine ⟨m',fun k hk => ?_,?_,fun hsame => ?_⟩
  · obtain ⟨v,hv⟩ := mem_keys_iff.mp hk
    exact hvalid (k,v) (hm' ▸ hv)
  · rw [← String.toList_inj,toList_keyValueLines,toList_keyValueLines,hm',htext]
  · rw [sameMap_iff,hm'] at hsame
    exact hlen (congrArg List.length hsame.symm)

/-- Two entries can be read as one. -/
theorem exists_of_two (hkeys : ValidKeys m) {p q : String × String} {ps : List (String × String)}
    (hs : sortedPairs m = p :: q :: ps) : ∃ m', ValidKeys m' ∧ keyValueLines m' = keyValueLines m ∧ ¬SameMap m m' := by
  obtain ⟨k,v⟩ := p
  obtain ⟨k₂,v₂⟩ := q
  have hvalid : ∀ p ∈ sortedPairs m, ValidKey p.1 := fun p hp => hkeys p.1 (mem_keys_iff.mpr ⟨p.2,hp⟩)
  have hsorted := pairwise_sortedPairs m
  rw [hs] at hsorted hvalid
  obtain ⟨hfirst,hrest⟩ := List.pairwise_cons.mp hsorted
  obtain ⟨hk,hvalid⟩ := List.forall_mem_cons.mp hvalid
  refine exists_of_text (l := (k,v ++ joint k₂ ++ v₂) :: ps)
    (List.pairwise_cons.mpr ⟨fun r hr => hfirst r (List.mem_cons_of_mem _ hr),(List.pairwise_cons.mp hrest).2⟩)
    (List.forall_mem_cons.mpr ⟨hk,(List.forall_mem_cons.mp hvalid).2⟩) ?_ (by rw [hs]; simp)
  rw [hs]
  simp only [List.map_cons,chars,String.toList_append,toList_joint]
  exact KeyValue.text_merge

/-- A forged entry can be read as two. -/
theorem exists_of_forged (hkeys : ValidKeys m) {k v k' : String} (hs : sortedPairs m = [(k,v)]) (hk' : ValidKey k')
    (hlt : k < k') (hforged : (joint k').toList <:+: v.toList) :
    ∃ m', ValidKeys m' ∧ keyValueLines m' = keyValueLines m ∧ ¬SameMap m m' := by
  obtain ⟨a,b,hv⟩ := hforged
  have hk : ValidKey k := hkeys k (mem_keys_iff.mpr ⟨v,by rw [hs]; exact List.mem_singleton_self _⟩)
  refine exists_of_text (l := [(k,String.ofList a),(k',String.ofList b)]) (by simpa using hlt)
    (List.forall_mem_cons.mpr ⟨hk,by simpa using hk'⟩) ?_ (by rw [hs]; simp)
  rw [hs]
  simp only [List.map_cons,List.map_nil,chars,String.toList_ofList]
  rw [← hv,toList_joint]
  exact KeyValue.text_merge.symm

/-- A map that is not unforged shares its lines with another one. -/
theorem exists_of_not_unforged (hkeys : ValidKeys m) (hm : ¬Unforged m) :
    ∃ m', ValidKeys m' ∧ keyValueLines m' = keyValueLines m ∧ ¬SameMap m m' := by
  by_cases hone : ∀ k ∈ m.keys, ∀ k' ∈ m.keys, k = k'
  · have hforged : ¬∀ k v, m.lookup k = some v → ∀ k', ValidKey k' → k < k' → ¬(joint k').toList <:+: v.toList :=
      fun h => hm ⟨hone,h⟩
    push Not at hforged
    obtain ⟨k,v,hv,k',hk',hlt,hin⟩ := hforged
    refine exists_of_forged hkeys (sortedPairs_eq (List.pairwise_singleton _ _) fun a b => ?_) hk' hlt hin
    rw [List.mem_singleton,Prod.mk.injEq]
    constructor
    · rintro ⟨rfl,rfl⟩
      exact hv
    · intro hb
      obtain rfl := hone a (mem_keys_iff.mpr ⟨b,mem_sortedPairs.mpr hb⟩) k (mem_keys_iff.mpr ⟨v,mem_sortedPairs.mpr hv⟩)
      exact ⟨rfl,Option.some.inj (hb.symm.trans hv)⟩
  · push Not at hone
    obtain ⟨k,hk,k',hk',hne⟩ := hone
    obtain ⟨v,hv⟩ := mem_keys_iff.mp hk
    obtain ⟨v',hv'⟩ := mem_keys_iff.mp hk'
    match hs : sortedPairs m with
    | [] =>
      rw [hs] at hv
      cases hv
    | [p] =>
      rw [hs,List.mem_singleton] at hv hv'
      exact absurd (congrArg Prod.fst (hv.trans hv'.symm)) hne
    | p :: q :: ps => exact exists_of_two hkeys hs

end recovery

/-! ## The files -/

/-- The two maps that can be asked for as a whole. -/
inductive MapField
  | labels
  | annotations

namespace MapField

def path : MapField → String
  | labels => "metadata.labels"
  | annotations => "metadata.annotations"

def get : MapField → PodSpec → HashMap String String
  | labels, pod => pod.labels
  | annotations, pod => pod.annotations

def set : MapField → PodSpec → HashMap String String → PodSpec
  | labels, pod, m => { pod with labels := m }
  | annotations, pod, m => { pod with annotations := m }

@[simp] theorem get_set (f : MapField) (pod : PodSpec) (m : HashMap String String) : f.get (f.set pod m) = m := by
  cases f <;> rfl

end MapField

variable (host : HostView) (podIp : Option String)

theorem resolve_mapField (f : MapField) (pod : PodSpec) :
    resolveFieldRefWithPodIp host pod f.path podIp = keyValueLines (f.get pod) := by
  have hlabels : bracketed f.path "metadata.labels['" = none := by cases f <;> decide
  have hannotations : bracketed f.path "metadata.annotations['" = none := by cases f <;> decide
  unfold resolveFieldRefWithPodIp
  rw [hlabels,hannotations]
  cases f <;> rfl

/-- The text of the map belongs to this pod's map alone. -/
def Recoverable (f : MapField) (pod : PodSpec) : Prop :=
  ∀ pod', ValidKeys (f.get pod') →
    resolveFieldRefWithPodIp host pod' f.path podIp = resolveFieldRefWithPodIp host pod f.path podIp →
      SameMap (f.get pod) (f.get pod')

/-- The map can be read back exactly if it has at most one entry, whose value forges no other one. -/
theorem recoverable_iff (f : MapField) (pod : PodSpec) (hkeys : ValidKeys (f.get pod)) :
    Recoverable host podIp f pod ↔ Unforged (f.get pod) := by
  unfold Recoverable
  simp only [resolve_mapField]
  constructor
  · intro h
    by_contra hm
    obtain ⟨m',hvalid,htext,hne⟩ := exists_of_not_unforged hkeys hm
    refine hne ?_
    have hsame := h (f.set pod m') (by rw [MapField.get_set]; exact hvalid) (by rw [MapField.get_set]; exact htext)
    rwa [MapField.get_set] at hsame
  · intro hm pod' hvalid htext
    exact sameMap_of_unforged hm hkeys hvalid htext

/-- Without a quote before a newline in any value, two pods with the same text have the same map. -/
theorem recoverable_among_plain (f : MapField) (pod pod' : PodSpec) (hkeys : ValidKeys (f.get pod))
    (hkeys' : ValidKeys (f.get pod')) (hplain : ∀ k v, (f.get pod).lookup k = some v → ¬['"','\n'] <:+: v.toList)
    (hplain' : ∀ k v, (f.get pod').lookup k = some v → ¬['"','\n'] <:+: v.toList)
    (h : resolveFieldRefWithPodIp host pod' f.path podIp = resolveFieldRefWithPodIp host pod f.path podIp) :
    SameMap (f.get pod) (f.get pod') := by
  rw [resolve_mapField,resolve_mapField] at h
  exact sameMap_of_plain hkeys hkeys' hplain hplain' h

def annotatedPod (m : HashMap String String) : PodSpec where
  uid := ⟨"uid-a"⟩
  podRef := ⟨"default","web"⟩
  annotations := m

/-- One annotation whose value forges a second one. -/
def forgedMap : HashMap String String := (∅ : HashMap String String).insert "a" "x\"\nb=\"y"

def honestMap : HashMap String String := ((∅ : HashMap String String).insert "b" "y").insert "a" "x"

theorem validKeys_of_letters {m : HashMap String String} (h : m.keys = ["a","b"] ∨ m.keys = ["a"]) : ValidKeys m := by
  intro k hk
  have hk : k = "a" ∨ k = "b" := by
    rcases h with h | h <;> rw [h] at hk
    · simpa using hk
    · exact Or.inl (by simpa using hk)
  rcases hk with rfl | rfl <;> simp [ValidKey]

theorem unforged_single : Unforged ((∅ : HashMap String String).insert "a" "x") := by
  have hkeys : ((∅ : HashMap String String).insert "a" "x").keys = ["a"] := by decide
  refine ⟨fun k hk k' hk' => ?_,fun k v hv k' _ _ hin => ?_⟩
  · rw [hkeys,List.mem_singleton] at hk hk'
    rw [hk,hk']
  · have hx : v = "x" := by
      rcases HashMap.lookup_insert_eq_some.mp hv with ⟨-,hv⟩ | ⟨-,hv⟩
      · exact hv.symm
      · cases hv
    have hlen := hin.length_le
    rw [toList_joint,hx] at hlen
    simp [KeyValue.joint] at hlen

theorem recoverable_single :
    Recoverable ⟨"10.0.0.1",4,none⟩ none .annotations (annotatedPod ((∅ : HashMap String String).insert "a" "x")) :=
  (recoverable_iff ⟨"10.0.0.1",4,none⟩ none .annotations (annotatedPod ((∅ : HashMap String String).insert "a" "x"))
    (validKeys_of_letters (Or.inr (by decide)))).mpr unforged_single

/-- The file of a pod whose one annotation is forged is that of a pod with two annotations. -/
theorem forged_annotation :
    ValidKeys forgedMap ∧ ValidKeys honestMap ∧ ¬SameMap forgedMap honestMap ∧
      resolveFieldRefWithPodIp ⟨"10.0.0.1",4,none⟩ (annotatedPod forgedMap) "metadata.annotations" none =
        resolveFieldRefWithPodIp ⟨"10.0.0.1",4,none⟩ (annotatedPod honestMap) "metadata.annotations" none := by
  refine ⟨validKeys_of_letters (Or.inr (by decide)),validKeys_of_letters (Or.inl (by decide)),fun h => ?_,?_⟩
  · exact absurd (h "b") (by decide)
  · have htext : keyValueLines forgedMap = keyValueLines honestMap := by decide
    exact (resolve_mapField ⟨"10.0.0.1",4,none⟩ none .annotations (annotatedPod forgedMap)).trans
      (htext.trans (resolve_mapField ⟨"10.0.0.1",4,none⟩ none .annotations (annotatedPod honestMap)).symm)

end KubeAir.Worker.FieldRef
