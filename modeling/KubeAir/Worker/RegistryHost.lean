import KubeAir.Adapters.Admission
import KubeAir.Adapters.LogEntry
import KubeAir.Wire.ImageReference

/-! # The registry of an image

Which registry an image is pulled from, and which credentials are for it. The host is read off the
text before the first slash, also where there is no slash and that is the name itself.
-/
namespace KubeAir.Worker.Registry
open Adapters Wire.ImageReference
open Adapters.Admission (isWhitespace trim)

/-- `str::to_lowercase`, of which only what becomes of ASCII is used. -/
structure CaseMap where
  toLowercase : String → String
  ascii : ∀ s, (∀ c ∈ s.toList, c.toNat < 128) → toLowercase s = s.toLower

/-- `str::trim_start_matches`. -/
def trimStartMatches (pat s : List Char) : List Char :=
  if _h : pat ≠ [] ∧ pat <+: s then trimStartMatches pat (s.drop pat.length) else s
termination_by s.length
decreasing_by
  have hpos := List.length_pos_iff.mpr _h.1
  have hle := _h.2.length_le
  rw [List.length_drop]
  omega

def normalizeRegistryHost (cm : CaseMap) (raw : String) : String :=
  let trimmed := trimStartMatches "http://".toList (trimStartMatches "https://".toList (trim raw).toList)
  cm.toLowercase (String.ofList (trimmed.takeWhile (· ≠ '/')))

/-- A colon, and behind the first one only digits. -/
def portLike (cs : List Char) : Bool :=
  (splitOnce ':' cs).any (fun x => !x.2.isEmpty && x.2.all Char.isDigit)

def isRegistry (first : List Char) : Bool := first.contains '.' || first = "localhost".toList || portLike first

def imageRegistryHost (cm : CaseMap) (image : String) : String :=
  let first := image.toList.takeWhile (· ≠ '/')
  if isRegistry first then normalizeRegistryHost cm (String.ofList first) else "docker.io"

def hostMatchesRegistry (cm : CaseMap) (authHost imageRegistry : String) : Bool :=
  let auth := normalizeRegistryHost cm authHost
  let image := normalizeRegistryHost cm imageRegistry
  auth = image || (auth = "index.docker.io" && image = "docker.io") || (auth = "docker.io" && image = "index.docker.io")

/-! ## The registry of a reference -/

def LooksLikeHost (first : List Char) : Prop := '.' ∈ first ∨ ':' ∈ first ∨ first = "localhost".toList

instance (first : List Char) : Decidable (LooksLikeHost first) := by
  unfold LooksLikeHost
  infer_instance

/-- The domain before the first slash, or that of the default registry. -/
def registryOf (text : List Char) : String :=
  if '/' ∈ text ∧ LooksLikeHost (text.takeWhile (· ≠ '/')) then
    String.ofList ((text.takeWhile (· ≠ '/')).map Char.toLower)
  else "docker.io"

/-- The default registry has two names. -/
def canonical (host : String) : String := if host = "index.docker.io" then "docker.io" else host

def SameRegistry (a b : String) : Prop := canonical a = canonical b

/-- The registry is that of the reference, and the credentials for it are the ones that match. -/
def SelectsRegistry (cm : CaseMap) (r : Reference) : Prop :=
  imageRegistryHost cm (String.ofList r.chars) = registryOf r.chars ∧
    ∀ auth, hostMatchesRegistry cm auth (imageRegistryHost cm (String.ofList r.chars)) = true ↔
      SameRegistry (normalizeRegistryHost cm auth) (registryOf r.chars)

/-- The text behind the first colon of a single component is a number. -/
def NumericEnd (r : Reference) : Prop :=
  match r.tag,r.digest with
  | some t, none => ∀ c ∈ t.chars, c.isDigit = true
  | none, some d => ∀ c ∈ d.hex.chars, c.isDigit = true
  | _, _ => False

/-- No address in brackets, and no single component that looks like a host. -/
structure HostRecognized (r : Reference) : Prop where
  address : ∀ d ∈ r.domain, ∀ a, d.host = .ipv6 a → ':' ∉ a.chars
  bare : r.Bare → r.chars = "docker.io".toList ∨ '.' ∉ r.chars ∧ r.chars ≠ "localhost".toList ∧ ¬NumericEnd r

/-! ## Normal hosts -/

variable {cm : CaseMap} {cs pre post : List Char} {r : Reference} {d : Domain}

theorem not_isWhitespace_of_plain {c : Char} (h : plain c = true) : isWhitespace c = false := by
  simp only [plain,Bool.and_eq_true,decide_eq_true_eq] at h
  refine Bool.eq_false_iff.mpr fun hspace => ?_
  simp only [isWhitespace,Bool.or_eq_true,Bool.and_eq_true,decide_eq_true_eq,List.contains_iff_mem,List.mem_cons,
    List.not_mem_nil,or_false] at hspace
  omega

theorem trim_of_plain (h : ∀ c ∈ cs, plain c = true) : (trim (String.ofList cs)).toList = cs := by
  have hspace : ∀ c ∈ (String.ofList cs).toList, isWhitespace c = false := by
    intro c hc
    rw [String.toList_ofList] at hc
    exact not_isWhitespace_of_plain (h c hc)
  rw [Adapters.Admission.trim_of_none_blank hspace,String.toList_ofList]

theorem trimStartMatches_of_not {pat : List Char} (h : ¬pat <+: cs) : trimStartMatches pat cs = cs := by
  unfold trimStartMatches
  rw [dif_neg fun hpat => h hpat.2]

theorem slash_notMem_of_plain (h : ∀ c ∈ cs, plain c = true) : '/' ∉ cs := by
  intro hmem
  exact absurd (h '/' hmem) (by decide)

/-- A plain text is its own host, in lower case. -/
theorem normalizeRegistryHost_of_plain (h : ∀ c ∈ cs, plain c = true) :
    normalizeRegistryHost cm (String.ofList cs) = String.ofList (cs.map Char.toLower) := by
  have hslash := slash_notMem_of_plain h
  have hhttps : ¬"https://".toList <+: cs := fun hpre => hslash (hpre.subset (by decide))
  have hhttp : ¬"http://".toList <+: cs := fun hpre => hslash (hpre.subset (by decide))
  have hwhole : cs.takeWhile (· ≠ '/') = cs :=
    List.takeWhile_eq_self_iff.mpr fun c hc => decide_eq_true fun heq => hslash (heq ▸ hc)
  have hascii : ∀ c ∈ (String.ofList cs).toList, c.toNat < 128 := by
    intro c hc
    rw [String.toList_ofList] at hc
    have hplain := h c hc
    simp only [plain,Bool.and_eq_true,decide_eq_true_eq] at hplain
    omega
  unfold normalizeRegistryHost
  rw [trim_of_plain h,trimStartMatches_of_not hhttps,trimStartMatches_of_not hhttp]
  dsimp only
  rw [hwhole,cm.ascii _ hascii]
  apply String.toList_inj.mp
  unfold String.toLower
  rw [String.toList_map,String.toList_ofList,String.toList_ofList]

theorem toLower_eq {c : Char} (h : c.isUpper = false) : c.toLower = c := by
  unfold Char.isUpper at h
  unfold Char.toLower
  rw [dif_neg (of_decide_eq_false h)]

theorem toNat_toLower {c : Char} (h : c.isUpper = true) :
    65 ≤ c.toNat ∧ c.toNat ≤ 90 ∧ c.toLower.toNat = c.toNat + 32 := by
  unfold Char.isUpper at h
  have hbounds := of_decide_eq_true h
  have hlow : 65 ≤ c.val.toNat := hbounds.1
  have hhigh : c.val.toNat ≤ 90 := hbounds.2
  refine ⟨hlow,hhigh,?_⟩
  unfold Char.toLower
  rw [dif_pos hbounds]
  show (c.val + ('a'.val - 'A'.val)).toNat = c.val.toNat + 32
  rw [UInt32.toNat_add]
  have : ('a'.val - 'A'.val).toNat = 32 := rfl
  omega

theorem isUpper_toLower (c : Char) : c.toLower.isUpper = false := by
  cases hc : c.isUpper with
  | false => rw [toLower_eq hc,hc]
  | true =>
    obtain ⟨hlow,-,hnat⟩ := toNat_toLower hc
    refine Bool.eq_false_iff.mpr fun hupper => ?_
    have hhigh := (toNat_toLower hupper).2.1
    omega

theorem plain_toLower {c : Char} (h : plain c = true) : plain c.toLower = true := by
  cases hc : c.isUpper with
  | false =>
    rw [toLower_eq hc]
    exact h
  | true =>
    obtain ⟨hlow,hhigh,hnat⟩ := toNat_toLower hc
    refine plain_of_toNat ?_ ?_ ?_ <;> omega

theorem plain_map_toLower (h : ∀ c ∈ cs, plain c = true) : ∀ c ∈ cs.map Char.toLower, plain c = true := by
  intro c hc
  obtain ⟨a,ha,rfl⟩ := List.mem_map.mp hc
  exact plain_toLower (h a ha)

/-- A host in lower case is left as it is. -/
theorem normalizeRegistryHost_lower (h : ∀ c ∈ cs, plain c = true) :
    normalizeRegistryHost cm (String.ofList (cs.map Char.toLower)) = String.ofList (cs.map Char.toLower) := by
  rw [normalizeRegistryHost_of_plain (plain_map_toLower h),List.map_map]
  exact congrArg String.ofList (List.map_congr_left fun c _ => toLower_eq (isUpper_toLower c))

/-! ## First components -/

theorem takeWhile_slash (h : '/' ∉ pre) : (pre ++ '/' :: post).takeWhile (· ≠ '/') = pre := by
  have hpre : ∀ c ∈ pre, decide (c ≠ '/') = true := by
    intro c hc
    refine decide_eq_true ?_
    rintro rfl
    exact h hc
  rw [List.takeWhile_append_of_pos hpre]
  simp

theorem plain_first {c : Char} (h : c ∈ r.chars.takeWhile (· ≠ '/')) : plain c = true := by
  have hdecide := List.mem_takeWhile_imp h
  have hne : c ≠ '/' := of_decide_eq_true hdecide
  exact (Reference.plain_or_slash ((List.takeWhile_prefix _).subset h)).resolve_right hne

theorem imageRegistryHost_eq : imageRegistryHost cm (String.ofList r.chars) =
    if isRegistry (r.chars.takeWhile (· ≠ '/')) then String.ofList ((r.chars.takeWhile (· ≠ '/')).map Char.toLower)
    else "docker.io" := by
  unfold imageRegistryHost
  rw [String.toList_ofList]
  dsimp only
  rw [normalizeRegistryHost_of_plain fun c hc => plain_first hc]

theorem portLike_append (h : ':' ∉ pre) : portLike (pre ++ ':' :: post) = (!post.isEmpty && post.all Char.isDigit) := by
  rw [portLike,splitOnce_append h,Option.any_some]

theorem portLike_of_notMem (h : ':' ∉ cs) : portLike cs = false := by
  rw [portLike,splitOnce_of_notMem h]
  rfl

theorem isRegistry_iff : isRegistry cs = true ↔ '.' ∈ cs ∨ cs = "localhost".toList ∨ portLike cs = true := by
  unfold isRegistry
  rw [Bool.or_eq_true,Bool.or_eq_true,List.contains_iff_mem,decide_eq_true_iff,or_assoc]

/-- Where a colon is followed by a port, a host is what looks like one. -/
theorem isRegistry_iff_looksLikeHost (h : ':' ∈ cs → portLike cs = true) : isRegistry cs = true ↔ LooksLikeHost cs := by
  rw [isRegistry_iff]
  constructor
  · rintro (hdot | hlocal | hport)
    · exact .inl hdot
    · exact .inr (.inr hlocal)
    · refine .inr (.inl ?_)
      by_contra hcolon
      rw [portLike_of_notMem hcolon] at hport
      cases hport
  · rintro (hdot | hcolon | hlocal)
    · exact .inl hdot
    · exact .inr (.inr (h hcolon))
    · exact .inr (.inl hlocal)

theorem colon_notMem_host (h : ∀ a, d.host = .ipv6 a → ':' ∉ a.chars) : ':' ∉ d.host.chars := by
  intro hmem
  cases hd : d.host with
  | name first rest =>
    rw [hd] at hmem
    exact ne_of_token (Host.token_of_name hmem) (by decide) rfl
  | ipv6 a =>
    have ha := h a hd
    rw [hd] at hmem
    simp only [Host.chars,List.mem_cons,List.mem_append,List.not_mem_nil,or_false] at hmem
    rcases hmem with hc | hc | hc
    · exact absurd hc (by decide)
    · exact ha hc
    · exact absurd hc (by decide)

theorem portLike_domain (h : ∀ a, d.host = .ipv6 a → ':' ∉ a.chars) (hcolon : ':' ∈ d.chars) : portLike d.chars = true := by
  have hhost := colon_notMem_host h
  unfold Domain.chars at hcolon ⊢
  cases hp : d.port with
  | none =>
    rw [hp,Option.elim_none,List.append_nil] at hcolon
    exact absurd hcolon hhost
  | some p =>
    rw [Option.elim_some,portLike_append hhost,Bool.and_eq_true,Bool.not_eq_true',List.isEmpty_eq_false_iff]
    exact ⟨p.nonempty,List.all_eq_true.mpr p.ofClass⟩

/-- An address in brackets is not recognized. -/
theorem isRegistry_ipv6 {a : Run ipv6Char} (hd : d.host = .ipv6 a) (hcolon : ':' ∈ a.chars) : isRegistry d.chars = false := by
  obtain ⟨before,after,ha,hbefore⟩ := List.eq_append_cons_of_mem hcolon
  have hchars : d.chars = ('[' :: before) ++ ':' :: (after ++ ']' :: d.port.elim [] (fun p => ':' :: p.chars)) := by
    rw [Domain.chars,hd,Host.chars,ha]
    simp
  refine Bool.eq_false_iff.mpr fun hregistry => ?_
  rcases isRegistry_iff.mp hregistry with hdot | hlocal | hport
  · rcases List.mem_append.mp hdot with hhost | hport
    · rw [hd,Host.chars] at hhost
      simp only [List.mem_cons,List.mem_append,List.not_mem_nil,or_false] at hhost
      rcases hhost with hc | hc | hc
      · exact absurd hc (by decide)
      · exact absurd (a.ofClass _ hc) (by decide)
      · exact absurd hc (by decide)
    · cases hp : d.port with
      | none =>
        rw [hp] at hport
        cases hport
      | some p =>
        rw [hp] at hport
        rcases List.mem_cons.mp hport with hc | hc
        · exact absurd hc (by decide)
        · exact absurd (p.ofClass _ hc) (by decide)
  · rw [hchars] at hlocal
    exact absurd (Option.some.inj (congrArg List.head? hlocal)) (by decide)
  · have hopen : ':' ∉ '[' :: before := by
      simp only [List.mem_cons,not_or]
      exact ⟨by decide,hbefore⟩
    rw [hchars,portLike_append hopen,Bool.and_eq_true,List.all_eq_true] at hport
    exact absurd (hport.2 ']' (List.mem_append_right _ List.mem_cons_self)) (by decide)

/-! ## Single components -/

/-- Behind the first colon of a single component comes a port only where its end is a number. -/
theorem portLike_bare (h : r.Bare) : portLike r.chars = true ↔ NumericEnd r := by
  have hfirst : ':' ∉ r.first.chars := fun hc => ne_of_token (PathComponent.mem_chars hc).1 (by decide) rfl
  rw [Reference.chars_of_bare h,Reference.suffix]
  unfold NumericEnd
  cases ht : r.tag with
  | none =>
    cases hd : r.digest with
    | none =>
      rw [Option.elim_none,Option.elim_none,List.append_nil,List.append_nil,portLike_of_notMem hfirst]
      exact iff_of_false Bool.false_ne_true id
    | some d =>
      have halgorithm : ':' ∉ r.first.chars ++ '@' :: d.algorithm := by
        simp only [List.mem_append,List.mem_cons,not_or]
        exact ⟨hfirst,by decide,fun hc => ne_of_token (Digest.token_of_algorithm hc) (by decide) rfl⟩
      have hchars : r.first.chars ++ ([] ++ '@' :: d.chars) = (r.first.chars ++ '@' :: d.algorithm) ++ ':' :: d.hex.chars := by
        simp [Digest.chars]
      rw [Option.elim_none,Option.elim_some,hchars,portLike_append halgorithm,Bool.and_eq_true,Bool.not_eq_true',
        List.isEmpty_eq_false_iff,List.all_eq_true]
      exact ⟨And.right,fun hall => ⟨d.hex.nonempty,hall⟩⟩
  | some t =>
    cases hd : r.digest with
    | none =>
      rw [Option.elim_none,Option.elim_some,List.append_nil,portLike_append hfirst,Bool.and_eq_true,List.all_eq_true]
      exact ⟨And.right,fun hall => ⟨rfl,hall⟩⟩
    | some d =>
      rw [Option.elim_some,Option.elim_some,List.cons_append,portLike_append hfirst,Bool.and_eq_true,List.all_eq_true]
      exact iff_of_false (fun hport => absurd (hport.2 '@' (by simp)) (by decide)) id

theorem slash_notMem_bare (h : r.Bare) : '/' ∉ r.chars := by
  rw [Reference.chars_of_bare h]
  intro hmem
  rcases List.mem_append.mp hmem with hfirst | hsuffix
  · exact slash_notMem_of_plain (fun c hc => PathComponent.plain hc) hfirst
  · exact slash_notMem_of_plain (fun c hc => Reference.plain_of_suffix hc) hsuffix

/-- Only the name of the registry itself becomes it in lower case. -/
theorem lower_bare_iff (h : r.Bare) :
    r.chars.map Char.toLower = "docker.io".toList ↔ r.chars = "docker.io".toList := by
  rw [Reference.chars_of_bare h,Reference.suffix]
  have hlower : r.first.chars.map Char.toLower = r.first.chars :=
    (List.map_congr_left fun c hc => toLower_eq (PathComponent.mem_chars hc).2).trans (List.map_id _)
  have hsign : ∀ c : Char, c ∉ "docker.io".toList → c.toLower = c → ∀ before after : List Char,
      (before ++ c :: after).map Char.toLower ≠ "docker.io".toList := by
    intro c hc hsame before after heq
    refine hc (heq ▸ ?_)
    rw [List.map_append,List.map_cons,hsame]
    exact List.mem_append_right _ List.mem_cons_self
  constructor
  · intro heq
    cases ht : r.tag with
    | some t =>
      rw [ht,Option.elim_some,List.cons_append] at heq
      exact absurd heq (hsign ':' (by decide) (by decide) _ _)
    | none =>
      cases hd : r.digest with
      | some d =>
        rw [ht,hd,Option.elim_none,Option.elim_some,List.nil_append] at heq
        exact absurd heq (hsign '@' (by decide) (by decide) _ _)
      | none =>
        rw [ht,hd,Option.elim_none,Option.elim_none,List.append_nil,List.append_nil,hlower] at heq
        rw [Option.elim_none,Option.elim_none,List.append_nil,List.append_nil]
        exact heq
  · intro heq
    rw [heq]
    decide

/-! ## Credentials -/

theorem normalizeRegistryHost_default : normalizeRegistryHost cm "docker.io" = "docker.io" := by
  have hplain : ∀ c ∈ "docker.io".toList, plain c = true := List.all_eq_true.mp (by decide)
  have hlower : String.ofList ("docker.io".toList.map Char.toLower) = "docker.io" := by decide
  have h := @normalizeRegistryHost_lower cm _ hplain
  rwa [hlower] at h

/-- The registry of a reference is a host in lower case. -/
theorem normalizeRegistryHost_registryOf : normalizeRegistryHost cm (registryOf r.chars) = registryOf r.chars := by
  unfold registryOf
  split
  · exact normalizeRegistryHost_lower fun c hc => plain_first hc
  · exact normalizeRegistryHost_default

/-- Credentials match the registries that are the same but for the two names of the default one. -/
theorem hostMatchesRegistry_iff {auth image : String} (h : normalizeRegistryHost cm image = image) :
    hostMatchesRegistry cm auth image = true ↔ SameRegistry (normalizeRegistryHost cm auth) image := by
  unfold hostMatchesRegistry SameRegistry canonical
  dsimp only
  rw [h]
  simp only [Bool.or_eq_true,Bool.and_eq_true,decide_eq_true_eq]
  by_cases hauth : normalizeRegistryHost cm auth = "index.docker.io"
  · by_cases himage : image = "index.docker.io"
    · simp [hauth,himage]
    · simp [hauth,himage,eq_comm]
  · by_cases himage : image = "index.docker.io"
    · simp [hauth,himage]
    · simp [hauth,himage]

theorem selectsRegistry_iff_eq :
    SelectsRegistry cm r ↔ imageRegistryHost cm (String.ofList r.chars) = registryOf r.chars := by
  refine ⟨And.left,fun heq => ⟨heq,fun auth => ?_⟩⟩
  rw [heq]
  exact hostMatchesRegistry_iff normalizeRegistryHost_registryOf

/-! ## Recognized hosts -/

theorem imageRegistryHost_of_looks (hslash : '/' ∈ r.chars)
    (h : isRegistry (r.chars.takeWhile (· ≠ '/')) = true ↔ LooksLikeHost (r.chars.takeWhile (· ≠ '/'))) :
    imageRegistryHost cm (String.ofList r.chars) = registryOf r.chars := by
  rw [imageRegistryHost_eq]
  unfold registryOf
  by_cases hregistry : isRegistry (r.chars.takeWhile (· ≠ '/')) = true
  · rw [if_pos hregistry,if_pos ⟨hslash,h.mp hregistry⟩]
  · rw [if_neg hregistry,if_neg fun hlooks => hregistry (h.mpr hlooks.2)]

/-- Before a slash everything is recognized but addresses in brackets. -/
theorem imageRegistryHost_domain_iff (hd : r.domain = some d) :
    imageRegistryHost cm (String.ofList r.chars) = registryOf r.chars ↔ ∀ a, d.host = .ipv6 a → ':' ∉ a.chars := by
  have hchars : r.chars = d.chars ++ '/' :: r.tail := by rw [Reference.chars,hd,Option.elim_some]
  have hfirst : r.chars.takeWhile (· ≠ '/') = d.chars := by
    rw [hchars]
    exact takeWhile_slash (slash_notMem_of_plain fun c hc => Domain.plain hc)
  have hslash : '/' ∈ r.chars := by
    rw [hchars]
    exact List.mem_append_right _ List.mem_cons_self
  constructor
  · intro heq a ha hcolon
    have hlooks : LooksLikeHost d.chars := by
      refine .inr (.inl ?_)
      rw [Domain.chars,ha,Host.chars]
      simp [hcolon]
    have hof : registryOf r.chars = String.ofList (d.chars.map Char.toLower) := by
      rw [registryOf,hfirst]
      exact if_pos ⟨hslash,hlooks⟩
    rw [imageRegistryHost_eq,hfirst,isRegistry_ipv6 ha hcolon,if_neg Bool.false_ne_true,hof] at heq
    have htext := (congrArg String.toList heq).trans String.toList_ofList
    rw [Domain.chars,ha,Host.chars] at htext
    exact absurd (Option.some.inj (congrArg List.head? htext)) (by decide)
  · intro haddress
    exact imageRegistryHost_of_looks hslash (by rw [hfirst]; exact isRegistry_iff_looksLikeHost (portLike_domain haddress))

theorem imageRegistryHost_path {o : PathComponent} {os : List PathComponent} (hd : r.domain = none)
    (ho : r.others = o :: os) : imageRegistryHost cm (String.ofList r.chars) = registryOf r.chars := by
  obtain ⟨rest,hchars⟩ := Reference.chars_of_others hd ho
  have hfirst : r.chars.takeWhile (· ≠ '/') = r.first.chars := by
    rw [hchars]
    exact takeWhile_slash (slash_notMem_of_plain fun c hc => PathComponent.plain hc)
  have hslash : '/' ∈ r.chars := by
    rw [hchars]
    exact List.mem_append_right _ List.mem_cons_self
  have hcolon : ':' ∉ r.first.chars := fun hc => ne_of_token (PathComponent.mem_chars hc).1 (by decide) rfl
  have hiff := @isRegistry_iff_looksLikeHost r.first.chars (fun hc => absurd hc hcolon)
  exact imageRegistryHost_of_looks hslash (by rw [hfirst]; exact hiff)

/-- Without a slash the name itself is taken for a host wherever it looks like one. -/
theorem imageRegistryHost_bare_iff (h : r.Bare) :
    imageRegistryHost cm (String.ofList r.chars) = registryOf r.chars ↔
      r.chars = "docker.io".toList ∨ '.' ∉ r.chars ∧ r.chars ≠ "localhost".toList ∧ ¬NumericEnd r := by
  have hslash := slash_notMem_bare h
  have hfirst : r.chars.takeWhile (· ≠ '/') = r.chars :=
    List.takeWhile_eq_self_iff.mpr fun c hc => decide_eq_true fun heq => hslash (heq ▸ hc)
  have hof : registryOf r.chars = "docker.io" := if_neg fun hlooks => hslash hlooks.1
  rw [imageRegistryHost_eq,hof,hfirst,← not_or,← not_or,← portLike_bare h,← isRegistry_iff,← lower_bare_iff h]
  by_cases hregistry : isRegistry r.chars = true
  · rw [if_pos hregistry]
    constructor
    · intro heq
      have htext := congrArg String.toList heq
      rw [String.toList_ofList] at htext
      exact .inl htext
    · rintro (heq | hno)
      · rw [heq]
        rfl
      · exact absurd hregistry hno
  · rw [if_neg hregistry]
    exact iff_of_true rfl (.inr hregistry)

/-- The registry and its credentials are chosen right just where the host is recognized. -/
theorem selectsRegistry_iff (cm : CaseMap) (r : Reference) : SelectsRegistry cm r ↔ HostRecognized r := by
  rw [selectsRegistry_iff_eq]
  cases hd : r.domain with
  | some d =>
    rw [imageRegistryHost_domain_iff hd]
    constructor
    · intro haddress
      refine ⟨fun d' hd' => ?_,fun hbare => ?_⟩
      · cases hd.symm.trans hd'
        exact haddress
      · cases hd.symm.trans hbare.1
    · exact fun h => h.address d hd
  | none =>
    have haddress : ∀ d ∈ r.domain, ∀ a, d.host = .ipv6 a → ':' ∉ a.chars := by
      intro d hmem
      cases hd.symm.trans hmem
    cases ho : r.others with
    | cons o os =>
      refine iff_of_true (imageRegistryHost_path hd ho) ⟨haddress,fun hbare => ?_⟩
      cases ho.symm.trans hbare.2
    | nil =>
      rw [imageRegistryHost_bare_iff ⟨hd,ho⟩]
      exact ⟨fun h => ⟨haddress,fun _ => h⟩,fun h => h.bare ⟨hd,ho⟩⟩

/-! ## A version that is taken for a host -/

def asciiCase : CaseMap where
  toLowercase := String.toLower
  ascii := fun _ _ => rfl

/-- A name without a domain, with the version as its tag. -/
def versioned : Reference where
  first := ⟨⟨"nginx".toList,by decide,List.all_eq_true.mp (by decide)⟩,[]⟩
  tag := some ⟨'1',".25".toList,by decide,List.all_eq_true.mp (by decide),by decide⟩

theorem version_taken_for_host : imageRegistryHost asciiCase "nginx:1.25" = "nginx:1.25" ∧
    hostMatchesRegistry asciiCase "docker.io" (imageRegistryHost asciiCase "nginx:1.25") = false ∧
    ¬SelectsRegistry asciiCase versioned := by
  have htext : String.ofList versioned.chars = "nginx:1.25" := by decide
  have hhost : imageRegistryHost asciiCase "nginx:1.25" = "nginx:1.25" := by
    rw [← htext,imageRegistryHost_eq]
    decide
  have hplain : ∀ c ∈ "nginx:1.25".toList, plain c = true := List.all_eq_true.mp (by decide)
  refine ⟨hhost,?_,?_⟩
  · have hlower : String.ofList ("nginx:1.25".toList.map Char.toLower) = "nginx:1.25" := by decide
    have hself := @normalizeRegistryHost_lower asciiCase _ hplain
    rw [hlower] at hself
    rw [hhost,hostMatchesRegistry,hself,normalizeRegistryHost_default]
    decide
  · rintro ⟨heq,-⟩
    rw [htext,hhost] at heq
    exact absurd heq (by decide)

end KubeAir.Worker.Registry
