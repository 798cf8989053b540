import Mathlib.Data.List.Basic

/-! # Image references

The names of container images, `[domain/]path[:tag][@digest]`: what they are made of, and which
characters each part has.
-/
namespace KubeAir.Wire.ImageReference

/-- A nonempty run of characters of one class. -/
structure Run (p : Char → Bool) where
  chars : List Char
  nonempty : chars ≠ []
  ofClass : ∀ c ∈ chars, p c = true

/-! ## Paths -/

def lowerAlnum (c : Char) : Bool := c.isLower || c.isDigit

inductive Separator
  | dot
  | underscore
  | underscores
  | hyphens (more : ℕ)

def Separator.chars : Separator → List Char
  | dot => ['.']
  | underscore => ['_']
  | underscores => ['_','_']
  | hyphens more => '-' :: List.replicate more '-'

structure PathComponent where
  first : Run lowerAlnum
  rest : List (Separator × Run lowerAlnum)

def PathComponent.chars (p : PathComponent) : List Char :=
  p.first.chars ++ p.rest.flatMap (fun x => x.1.chars ++ x.2.chars)

/-! ## Domains -/

def domainChar (c : Char) : Bool := c.isAlphanum || c = '-'

structure DomainComponent extends Run domainChar where
  starts : chars.head? ≠ some '-'
  ends : chars.getLast? ≠ some '-'

def ipv6Char (c : Char) : Bool := c.isDigit || ('a' ≤ c && c ≤ 'f') || ('A' ≤ c && c ≤ 'F') || c = ':'

inductive Host
  | name (first : DomainComponent) (rest : List DomainComponent)
  | ipv6 (address : Run ipv6Char)

def Host.chars : Host → List Char
  | name first rest => first.chars ++ rest.flatMap (fun d => '.' :: d.chars)
  | ipv6 address => '[' :: (address.chars ++ [']'])

structure Domain where
  host : Host
  port : Option (Run Char.isDigit) := none

def Domain.chars (d : Domain) : List Char := d.host.chars ++ d.port.elim [] (fun p => ':' :: p.chars)

/-! ## Tags and digests -/

def wordChar (c : Char) : Bool := c.isAlphanum || c = '_'

def tagChar (c : Char) : Bool := wordChar c || c = '.' || c = '-'

structure Tag where
  first : Char
  rest : List Char
  first_word : wordChar first = true
  rest_tag : ∀ c ∈ rest, tagChar c = true
  short : rest.length ≤ 127

def Tag.chars (t : Tag) : List Char := t.first :: t.rest

structure AlgorithmComponent extends Run Char.isAlphanum where
  starts : ∀ c ∈ chars.head?, c.isAlpha = true

def algorithmSeparator (c : Char) : Bool := c = '+' || c = '.' || c = '-' || c = '_'

def hexChar (c : Char) : Bool := c.isDigit || ('a' ≤ c && c ≤ 'f') || ('A' ≤ c && c ≤ 'F')

structure Digest where
  first : AlgorithmComponent
  rest : List ({ c : Char // algorithmSeparator c = true } × AlgorithmComponent)
  hex : Run hexChar
  long : 32 ≤ hex.chars.length

def Digest.algorithm (d : Digest) : List Char := d.first.chars ++ d.rest.flatMap (fun x => x.1.val :: x.2.chars)

def Digest.chars (d : Digest) : List Char := d.algorithm ++ ':' :: d.hex.chars

/-! ## References -/

structure Reference where
  domain : Option Domain := none
  first : PathComponent
  others : List PathComponent := []
  tag : Option Tag := none
  digest : Option Digest := none

namespace Reference

/-- What follows the name. -/
def suffix (r : Reference) : List Char :=
  r.tag.elim [] (fun t => ':' :: t.chars) ++ r.digest.elim [] (fun d => '@' :: d.chars)

/-- The first component of the path and what follows. -/
def tail (r : Reference) : List Char := r.first.chars ++ (r.others.flatMap (fun p => '/' :: p.chars) ++ r.suffix)

def chars (r : Reference) : List Char := r.domain.elim r.tail (fun d => d.chars ++ '/' :: r.tail)

/-- A reference that is a single component has no slash. -/
def Bare (r : Reference) : Prop := r.domain = none ∧ r.others = []

end Reference

/-! ## The characters of the parts -/

/-- Characters of the parts between slashes. -/
def plain (c : Char) : Bool := 33 ≤ c.toNat && c.toNat < 127 && c ≠ '/'

/-- What the parts are made of, but for addresses and the signs between the parts. -/
def tokenChar (c : Char) : Bool := c.isAlphanum || c = '.' || c = '-' || c = '_' || c = '+'

variable {c : Char}

theorem toNat_of_isAlphanum (h : c.isAlphanum = true) :
    48 ≤ c.toNat ∧ c.toNat ≤ 57 ∨ 65 ≤ c.toNat ∧ c.toNat ≤ 90 ∨ 97 ≤ c.toNat ∧ c.toNat ≤ 122 := by
  unfold Char.isAlphanum Char.isAlpha Char.isUpper Char.isLower Char.isDigit at h
  simp only [Bool.or_eq_true,Bool.and_eq_true,decide_eq_true_eq,UInt32.le_iff_toNat_le,ge_iff_le] at h
  rcases h with (h | h) | h
  · exact .inr (.inl h)
  · exact .inr (.inr h)
  · exact .inl h

theorem tokenChar_of_isAlphanum (h : c.isAlphanum = true) : tokenChar c = true := by
  unfold tokenChar
  rw [h]
  rfl

theorem plain_of_toNat (hlow : 33 ≤ c.toNat) (hhigh : c.toNat < 127) (hslash : c.toNat ≠ 47) : plain c = true := by
  simp only [plain,Bool.and_eq_true,decide_eq_true_eq,decide_not,Bool.not_eq_true',decide_eq_false_iff_not]
  exact ⟨⟨hlow,hhigh⟩,fun hc => hslash (congrArg Char.toNat hc)⟩

theorem plain_of_token (h : tokenChar c = true) : plain c = true := by
  have hnat : 33 ≤ c.toNat ∧ c.toNat < 127 ∧ c.toNat ≠ 47 := by
    simp only [tokenChar,Bool.or_eq_true,decide_eq_true_eq] at h
    rcases h with (((h | rfl) | rfl) | rfl) | rfl
    · have := toNat_of_isAlphanum h
      omega
    all_goals decide
  exact plain_of_toNat hnat.1 hnat.2.1 hnat.2.2

theorem isAlphanum_of_lowerAlnum (h : lowerAlnum c = true) : c.isAlphanum = true := by
  simp only [lowerAlnum,Bool.or_eq_true] at h
  unfold Char.isAlphanum Char.isAlpha
  simp only [Bool.or_eq_true]
  exact h.imp_left .inr

theorem isAlphanum_of_hexChar (h : hexChar c = true) : c.isAlphanum = true := by
  simp only [hexChar,Bool.or_eq_true,Bool.and_eq_true,decide_eq_true_eq] at h
  unfold Char.isAlphanum Char.isAlpha Char.isUpper Char.isLower
  simp only [Bool.or_eq_true,Bool.and_eq_true,decide_eq_true_eq]
  rcases h with (h | ⟨hlow,hhigh⟩) | ⟨hlow,hhigh⟩
  · exact .inr h
  · exact .inl (.inr ⟨hlow,Char.le_trans hhigh (by decide)⟩)
  · exact .inl (.inl ⟨hlow,Char.le_trans hhigh (by decide)⟩)

theorem tokenChar_of_domainChar (h : domainChar c = true) : tokenChar c = true := by
  simp only [domainChar,Bool.or_eq_true,decide_eq_true_eq] at h
  rcases h with h | rfl
  · exact tokenChar_of_isAlphanum h
  · decide

theorem tokenChar_of_wordChar (h : wordChar c = true) : tokenChar c = true := by
  simp only [wordChar,Bool.or_eq_true,decide_eq_true_eq] at h
  rcases h with h | rfl
  · exact tokenChar_of_isAlphanum h
  · decide

theorem tokenChar_of_tagChar (h : tagChar c = true) : tokenChar c = true := by
  simp only [tagChar,Bool.or_eq_true,decide_eq_true_eq] at h
  rcases h with (h | rfl) | rfl
  · exact tokenChar_of_wordChar h
  · decide
  · decide

theorem Separator.mem_chars {s : Separator} (h : c ∈ s.chars) : tokenChar c = true ∧ c.isUpper = false := by
  cases s with
  | dot =>
    obtain rfl := List.mem_singleton.mp h
    decide
  | underscore =>
    obtain rfl := List.mem_singleton.mp h
    decide
  | underscores =>
    simp only [chars,List.mem_cons,List.not_mem_nil,or_false,or_self] at h
    subst h
    decide
  | hyphens more =>
    have hc : c = '-' := by
      rcases List.mem_cons.mp h with rfl | h
      · rfl
      · exact (List.mem_replicate.mp h).2
    subst hc
    decide

theorem not_upper_of_lowerAlnum (h : lowerAlnum c = true) : c.isUpper = false := by
  unfold lowerAlnum Char.isLower Char.isDigit at h
  simp only [Bool.or_eq_true,Bool.and_eq_true,decide_eq_true_eq,UInt32.le_iff_toNat_le,ge_iff_le] at h
  have hbounds : 'A'.val.toNat = 65 ∧ 'Z'.val.toNat = 90 ∧ 'a'.val.toNat = 97 ∧ '9'.val.toNat = 57 := ⟨rfl,rfl,rfl,rfl⟩
  refine Bool.eq_false_iff.mpr fun hupper => ?_
  unfold Char.isUpper at hupper
  simp only [decide_eq_true_eq,UInt32.le_iff_toNat_le,ge_iff_le] at hupper
  omega

theorem PathComponent.mem_chars {p : PathComponent} (h : c ∈ p.chars) : tokenChar c = true ∧ c.isUpper = false := by
  have hrun : ∀ r : Run lowerAlnum, c ∈ r.chars → tokenChar c = true ∧ c.isUpper = false := fun r hr =>
    ⟨tokenChar_of_isAlphanum (isAlphanum_of_lowerAlnum (r.ofClass c hr)),not_upper_of_lowerAlnum (r.ofClass c hr)⟩
  rcases List.mem_append.mp h with hfirst | hrest
  · exact hrun p.first hfirst
  · obtain ⟨x,-,hx⟩ := List.mem_flatMap.mp hrest
    rcases List.mem_append.mp hx with hsep | hnext
    · exact Separator.mem_chars hsep
    · exact hrun x.2 hnext

theorem Host.token_of_name {first : DomainComponent} {rest : List DomainComponent}
    (h : c ∈ (Host.name first rest).chars) : tokenChar c = true := by
  rcases List.mem_append.mp h with hfirst | hrest
  · exact tokenChar_of_domainChar (first.ofClass c hfirst)
  · obtain ⟨d,-,hd⟩ := List.mem_flatMap.mp hrest
    rcases List.mem_cons.mp hd with rfl | hd
    · decide
    · exact tokenChar_of_domainChar (d.ofClass c hd)

theorem Tag.token {t : Tag} (h : c ∈ t.chars) : tokenChar c = true := by
  rcases List.mem_cons.mp h with rfl | hrest
  · exact tokenChar_of_wordChar t.first_word
  · exact tokenChar_of_tagChar (t.rest_tag c hrest)

theorem Digest.token_of_algorithm {d : Digest} (h : c ∈ d.algorithm) : tokenChar c = true := by
  rcases List.mem_append.mp h with hfirst | hrest
  · exact tokenChar_of_isAlphanum (d.first.ofClass c hfirst)
  · obtain ⟨x,-,hx⟩ := List.mem_flatMap.mp hrest
    rcases List.mem_cons.mp hx with rfl | hx
    · have hsep := x.1.property
      simp only [algorithmSeparator,Bool.or_eq_true,decide_eq_true_eq] at hsep
      rcases hsep with ((h | h) | h) | h <;> rw [h] <;> decide
    · exact tokenChar_of_isAlphanum (x.2.ofClass c hx)

theorem Digest.token_of_hex {d : Digest} (h : c ∈ d.hex.chars) : tokenChar c = true :=
  tokenChar_of_isAlphanum (isAlphanum_of_hexChar (d.hex.ofClass c h))

theorem Domain.plain {d : Domain} (h : c ∈ d.chars) : plain c = true := by
  rcases List.mem_append.mp h with hhost | hport
  · cases hd : d.host with
    | name first rest =>
      rw [hd] at hhost
      exact plain_of_token (Host.token_of_name hhost)
    | ipv6 address =>
      rw [hd] at hhost
      simp only [Host.chars,List.mem_cons,List.mem_append,List.not_mem_nil,or_false] at hhost
      rcases hhost with rfl | haddress | rfl
      · decide
      · have hclass := address.ofClass c haddress
        have hcases : hexChar c = true ∨ c = ':' := by
          simpa only [ipv6Char,Bool.or_eq_true,decide_eq_true_eq,hexChar] using hclass
        rcases hcases with hhex | rfl
        · exact plain_of_token (tokenChar_of_isAlphanum (isAlphanum_of_hexChar hhex))
        · decide
      · decide
  · cases hp : d.port with
    | none =>
      rw [hp] at hport
      cases hport
    | some p =>
      rw [hp] at hport
      rcases List.mem_cons.mp hport with rfl | hdigit
      · decide
      · refine plain_of_token (tokenChar_of_isAlphanum ?_)
        unfold Char.isAlphanum
        rw [p.ofClass c hdigit,Bool.or_true]

theorem PathComponent.plain {p : PathComponent} (h : c ∈ p.chars) : plain c = true := plain_of_token (mem_chars h).1

/-- The sign between the parts is no part of them. -/
theorem ne_of_token {sign : Char} (h : tokenChar c = true) (hsign : tokenChar sign = false) : sign ≠ c := by
  rintro rfl
  rw [hsign] at h
  cases h

namespace Reference
variable {r : Reference}

theorem plain_of_suffix (h : c ∈ r.suffix) : plain c = true := by
  rcases List.mem_append.mp h with htag | hdigest
  · cases ht : r.tag with
    | none =>
      rw [ht] at htag
      cases htag
    | some t =>
      rw [ht] at htag
      rcases List.mem_cons.mp htag with rfl | hc
      · decide
      · exact plain_of_token (Tag.token hc)
  · cases hd : r.digest with
    | none =>
      rw [hd] at hdigest
      cases hdigest
    | some d =>
      rw [hd] at hdigest
      rcases List.mem_cons.mp hdigest with rfl | hc
      · decide
      · rcases List.mem_append.mp hc with halgorithm | hrest
        · exact plain_of_token (Digest.token_of_algorithm halgorithm)
        · rcases List.mem_cons.mp hrest with rfl | hhex
          · decide
          · exact plain_of_token (Digest.token_of_hex hhex)

theorem plain_or_slash_of_tail (h : c ∈ r.tail) : plain c = true ∨ c = '/' := by
  rcases List.mem_append.mp h with hfirst | hrest
  · exact .inl (PathComponent.plain hfirst)
  · rcases List.mem_append.mp hrest with hothers | hsuffix
    · obtain ⟨p,-,hp⟩ := List.mem_flatMap.mp hothers
      rcases List.mem_cons.mp hp with rfl | hc
      · exact .inr rfl
      · exact .inl (PathComponent.plain hc)
    · exact .inl (plain_of_suffix hsuffix)

/-- Between the slashes a reference is plain. -/
theorem plain_or_slash (h : c ∈ r.chars) : plain c = true ∨ c = '/' := by
  unfold chars at h
  cases hd : r.domain with
  | none =>
    rw [hd] at h
    exact plain_or_slash_of_tail h
  | some d =>
    rw [hd] at h
    rcases List.mem_append.mp h with hdomain | hrest
    · exact .inl (Domain.plain hdomain)
    · rcases List.mem_cons.mp hrest with rfl | htail
      · exact .inr rfl
      · exact plain_or_slash_of_tail htail

/-- A reference of several components begins with one of them and a slash. -/
theorem chars_of_others {o : PathComponent} {os : List PathComponent} (hd : r.domain = none) (ho : r.others = o :: os) :
    ∃ rest, r.chars = r.first.chars ++ '/' :: rest := by
  refine ⟨o.chars ++ (os.flatMap (fun p => '/' :: p.chars) ++ r.suffix),?_⟩
  rw [chars,hd,Option.elim_none,tail,ho,List.flatMap_cons,List.cons_append,List.cons_append,List.append_assoc]

theorem chars_of_bare (h : r.Bare) : r.chars = r.first.chars ++ r.suffix := by
  rw [chars,h.1,Option.elim_none,tail,h.2]
  rfl

end Reference
end KubeAir.Wire.ImageReference
