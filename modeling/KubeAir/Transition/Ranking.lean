import Mathlib.Data.List.Sort

/-! # Choosing from a ranking

The first entry of a list that may be chosen, and when such a choice spares what should not be
chosen. Taking entries until they are enough. Rankings by an order that keep the order of the list
where they may.
-/
namespace KubeAir.Transition
variable {α : Type*} {bad free free' : α → Prop} {l : List α} {u v : α}

/-- The entry may be chosen, and nothing ahead of it may. -/
def Foremost (free : α → Prop) (l : List α) (u : α) : Prop :=
  free u ∧ ∃ pre suf, l = pre ++ u :: suf ∧ ∀ v ∈ pre, ¬free v

/-- What should not be chosen but may be stands behind something else that may be. -/
def Spares (bad free : α → Prop) (l : List α) : Prop :=
  ∀ pre u suf, l = pre ++ u :: suf → bad u → free u → ∃ v ∈ pre, free v

theorem find?_eq_some_iff_foremost {p : α → Bool} : l.find? p = some u ↔ Foremost (fun v => p v = true) l u := by
  rw [List.find?_eq_some_iff_append]
  simp only [Foremost,Bool.not_eq_true',Bool.not_eq_true]

theorem foremost_congr (h : ∀ v, free v ↔ free' v) : Foremost free l u ↔ Foremost free' l u := by
  obtain rfl : free = free' := funext (fun v => propext (h v))
  exact Iff.rfl

theorem mem_of_foremost (h : Foremost free l u) : u ∈ l := by
  obtain ⟨-,pre,suf,rfl,-⟩ := h
  exact List.mem_append_right pre List.mem_cons_self

/-- The choice is never a wrong one exactly when all of these are spared. -/
theorem spares_iff : Spares bad free l ↔ ∀ u, Foremost free l u → ¬bad u := by
  constructor
  · intro h u hu hbad
    obtain ⟨hfree,pre,suf,hl,hpre⟩ := hu
    obtain ⟨v,hv,hvfree⟩ := h pre u suf hl hbad hfree
    exact hpre v hv hvfree
  · intro h pre u suf hl hbad hfree
    by_contra hnone
    have hpre : ∀ v ∈ pre, ¬free v := fun v hv hvfree => hnone ⟨v,hv,hvfree⟩
    exact h u ⟨hfree,pre,suf,hl,hpre⟩ hbad

/-! ## Taking until enough -/

section Taking
variable {N : Type*} [Add N] [LE N] {size : α → N} {limit n : N} {x : α}

/-- The sizes of what stands ahead of the entry never reach the limit. -/
def Reached (size : α → N) (limit n : N) (l : List α) (x : α) : Prop :=
  ∃ pre suf, l = pre ++ x :: suf ∧ ∀ p, p <+: pre → ¬limit ≤ p.foldl (fun n y => n + size y) n

theorem reached_cons {y : α} : Reached size limit n (y :: l) x ↔
    ¬limit ≤ n ∧ (x = y ∨ Reached size limit (n + size y) l x) := by
  constructor
  · rintro ⟨pre,suf,hl,hpre⟩
    refine ⟨hpre [] List.nil_prefix,?_⟩
    cases pre with
    | nil => exact .inl (List.cons.inj hl).1.symm
    | cons z pre =>
      obtain ⟨rfl,rfl⟩ := List.cons.inj hl
      exact .inr ⟨pre,suf,rfl,fun p hp => hpre (y :: p) (List.cons_prefix_cons.mpr ⟨rfl,hp⟩)⟩
  · rintro ⟨hn,rfl | ⟨pre,suf,rfl,hpre⟩⟩
    · refine ⟨[],l,rfl,fun p hp => ?_⟩
      rw [List.prefix_nil.mp hp]
      exact hn
    · refine ⟨y :: pre,suf,rfl,fun p hp => ?_⟩
      cases p with
      | nil => exact hn
      | cons z p =>
        obtain ⟨rfl,hp'⟩ := List.cons_prefix_cons.mp hp
        exact hpre p hp'

/-- The sizes of some of the first entries, none of them this one, reach the limit. -/
def EnoughAhead [DecidableEq α] (size : α → N) (limit n : N) (l : List α) (x : α) : Prop :=
  ∃ p, p <+: l.takeWhile (· ≠ x) ∧ limit ≤ p.foldl (fun n y => n + size y) n

theorem enoughAhead_cons [DecidableEq α] {y : α} : EnoughAhead size limit n (y :: l) x ↔
    limit ≤ n ∨ y ≠ x ∧ EnoughAhead size limit (n + size y) l x := by
  unfold EnoughAhead
  constructor
  · rintro ⟨p,hp,henough⟩
    cases p with
    | nil => exact .inl henough
    | cons z p =>
      by_cases hy : y = x
      · rw [List.takeWhile_cons_of_neg (by simpa using hy)] at hp
        cases List.prefix_nil.mp hp
      · rw [List.takeWhile_cons_of_pos (by simpa using hy)] at hp
        obtain ⟨rfl,hp'⟩ := List.cons_prefix_cons.mp hp
        exact .inr ⟨hy,p,hp',henough⟩
  · rintro (henough | ⟨hy,p,hp,henough⟩)
    · exact ⟨[],List.nil_prefix,henough⟩
    · refine ⟨y :: p,?_,henough⟩
      rw [List.takeWhile_cons_of_pos (by simpa using hy)]
      exact List.cons_prefix_cons.mpr ⟨rfl,hp⟩

theorem reached_iff_ahead [DecidableEq α] : Reached size limit n l x ↔ x ∈ l ∧ ¬EnoughAhead size limit n l x := by
  induction l generalizing n with
  | nil =>
    refine iff_of_false ?_ fun h => List.not_mem_nil h.1
    rintro ⟨pre,suf,hl,-⟩
    cases pre <;> cases hl
  | cons y l ih =>
    rw [reached_cons,enoughAhead_cons,ih,List.mem_cons]
    by_cases hx : x = y
    · subst hx
      simp
    · simp [hx,Ne.symm hx]
      tauto

variable [DecidableLE N]

/-- Entries are taken from the front until their sizes reach the limit. -/
def takeUpTo (size : α → N) (limit : N) : N → List α → List α
  | _, [] => []
  | n, x :: l => if limit ≤ n then [] else x :: takeUpTo size limit (n + size x) l

/-- An entry is taken when the sizes ahead of it leave room. -/
theorem mem_takeUpTo_iff : x ∈ takeUpTo size limit n l ↔ Reached size limit n l x := by
  induction l generalizing n with
  | nil =>
    refine iff_of_false List.not_mem_nil ?_
    rintro ⟨pre,suf,hl,-⟩
    cases pre <;> cases hl
  | cons y l ih =>
    unfold takeUpTo
    rw [reached_cons]
    split
    · next h => exact iff_of_false List.not_mem_nil (fun h' => h'.1 h)
    · next h => rw [List.mem_cons,ih,and_iff_right h]

end Taking

/-! ## Shortest prefixes -/

section Shortest
variable {enough enough' : List α → Prop} {p : List α}

/-- The first entries of a list that are enough, or the whole list if no such are. -/
structure ShortestPrefix (enough : List α → Prop) (l p : List α) : Prop where
  begins : p <+: l
  enough_or_all : enough p ∨ p = l
  minimal : ∀ q, q <+: p → q ≠ p → ¬enough q

theorem shortestPrefix_nil_iff : ShortestPrefix enough l [] ↔ enough [] ∨ l = [] := by
  constructor
  · exact fun h => h.enough_or_all.imp_right Eq.symm
  · exact fun h => ⟨List.nil_prefix,h.imp_right Eq.symm,fun q hq hne => absurd (List.prefix_nil.mp hq) hne⟩

theorem ShortestPrefix.eq_nil_iff (h : ShortestPrefix enough l p) : p = [] ↔ enough [] ∨ l = [] := by
  constructor
  · rintro rfl
    exact shortestPrefix_nil_iff.mp h
  · rintro (henough | rfl)
    · by_contra hne
      exact h.minimal [] List.nil_prefix (Ne.symm hne) henough
    · exact List.prefix_nil.mp h.begins

theorem ShortestPrefix.unique {p' : List α} (h : ShortestPrefix enough l p) (h' : ShortestPrefix enough l p') : p = p' := by
  by_contra hne
  rcases List.prefix_or_prefix_of_prefix h.begins h'.begins with hle | hle
  · rcases h.enough_or_all with henough | rfl
    · exact h'.minimal p hle hne henough
    · exact hne (hle.eq_of_length_le h'.begins.length_le)
  · rcases h'.enough_or_all with henough | rfl
    · exact h.minimal p' hle (Ne.symm hne) henough
    · exact hne (hle.eq_of_length_le h.begins.length_le).symm

/-- What is taken until the sizes reach the limit are the first entries whose sizes do. -/
theorem takeUpTo_shortest {N : Type*} [Add N] [LE N] [DecidableLE N] (size : α → N) (limit n : N) (l : List α) :
    ShortestPrefix (fun p => limit ≤ p.foldl (fun n y => n + size y) n) l (takeUpTo size limit n l) := by
  induction l generalizing n with
  | nil => exact shortestPrefix_nil_iff.mpr (.inr rfl)
  | cons x l ih =>
    unfold takeUpTo
    split
    · next h => exact shortestPrefix_nil_iff.mpr (.inl h)
    · next h =>
      have hrest := ih (n + size x)
      refine ⟨List.cons_prefix_cons.mpr ⟨rfl,hrest.begins⟩,hrest.enough_or_all.imp_right (congrArg (x :: ·)),?_⟩
      intro q hq hne
      cases q with
      | nil => exact h
      | cons y q =>
        obtain ⟨rfl,hq'⟩ := List.cons_prefix_cons.mp hq
        exact hrest.minimal q hq' (fun heq => hne (congrArg (y :: ·) heq))

/-- The same entries are the first ones that are enough in another way exactly when the two agree
on all initial parts but the whole list, up to the first that is enough. -/
theorem ShortestPrefix.iff_agree (h : ShortestPrefix enough l p) : ShortestPrefix enough' l p ↔
    ∀ q, q <+: l → q ≠ l → (∀ r, r <+: q → r ≠ q → ¬enough' r) → (enough q ↔ enough' q) := by
  constructor
  · intro h' q hq hne hfirst
    rcases List.prefix_or_prefix_of_prefix hq h.begins with hqp | hpq
    · by_cases heq : q = p
      · subst heq
        exact iff_of_true (h.enough_or_all.resolve_right hne) (h'.enough_or_all.resolve_right hne)
      · exact iff_of_false (h.minimal q hqp heq) (h'.minimal q hqp heq)
    · by_cases heq : p = q
      · subst heq
        exact iff_of_true (h.enough_or_all.resolve_right hne) (h'.enough_or_all.resolve_right hne)
      · -- the taken entries would have been enough before
        refine absurd (h'.enough_or_all.resolve_right ?_) (hfirst p hpq heq)
        rintro rfl
        exact heq (hpq.eq_of_length_le hq.length_le)
  · intro hagree
    have hproper : ∀ q, q <+: p → q ≠ p → q <+: l ∧ q ≠ l := by
      intro q hq hne
      refine ⟨hq.trans h.begins,?_⟩
      rintro rfl
      exact hne (hq.eq_of_length_le h.begins.length_le)
    have hminimal : ∀ n q, q.length = n → q <+: p → q ≠ p → ¬enough' q := by
      intro n
      induction n using Nat.strong_induction_on with
      | _ n ih =>
        intro q hn hq hne
        obtain ⟨hql,hnel⟩ := hproper q hq hne
        have hfirst : ∀ r, r <+: q → r ≠ q → ¬enough' r := by
          intro r hr hrq
          have hlt : r.length < q.length := lt_of_le_of_ne hr.length_le fun heq => hrq (hr.eq_of_length heq)
          refine ih r.length (hn ▸ hlt) r rfl (hr.trans hq) ?_
          rintro rfl
          exact absurd hq.length_le (Nat.not_le.mpr hlt)
        exact (not_congr (hagree q hql hnel hfirst)).mp (h.minimal q hq hne)
    refine ⟨h.begins,?_,fun q => hminimal q.length q rfl⟩
    by_cases hall : p = l
    · exact .inr hall
    · refine .inl ((hagree p h.begins hall fun r hr hne => hminimal r.length r rfl hr hne).mp ?_)
      exact h.enough_or_all.resolve_right hall

end Shortest

/-! ## Stable rankings -/

section Stable
variable {ranked : List α} {before before' : α → α → Prop} {a b : α}

/-- The entries of a list in an order, those that may keep their order as they stood. -/
structure StablyRanked (before : α → α → Prop) (l ranked : List α) : Prop where
  perm : ranked.Perm l
  sorted : ranked.Pairwise before
  stable : ∀ a b, List.Sublist [a,b] l → before a b → List.Sublist [a,b] ranked

theorem stablyRanked_insertionSort [DecidableRel before] [Std.Total before] [IsTrans α before] (l : List α) :
    StablyRanked before l (l.insertionSort before) where
  perm := List.perm_insertionSort before l
  sorted := List.pairwise_insertionSort before l
  stable _ _ h hab := List.pair_sublist_insertionSort hab h

theorem pair_sublist_of_mem (ha : a ∈ l) (hb : b ∈ l) (hne : a ≠ b) :
    List.Sublist [a,b] l ∨ List.Sublist [b,a] l := by
  induction l with
  | nil => cases ha
  | cons x l ih =>
    rcases List.mem_cons.mp ha with rfl | ha'
    · rcases List.mem_cons.mp hb with rfl | hb'
      · exact absurd rfl hne
      · exact .inl ((List.singleton_sublist.mpr hb').cons_cons a)
    · rcases List.mem_cons.mp hb with rfl | hb'
      · exact .inr ((List.singleton_sublist.mpr ha').cons_cons b)
      · rcases ih ha' hb' with h | h
        · exact .inl (h.cons x)
        · exact .inr (h.cons x)

theorem not_pair_sublist_swap (hnodup : l.Nodup) (h : List.Sublist [a,b] l) : ¬List.Sublist [b,a] l := by
  induction l with
  | nil => cases h
  | cons x l ih =>
    obtain ⟨hx,hnodup⟩ := List.nodup_cons.mp hnodup
    intro h'
    cases h with
    | cons _ h =>
      cases h' with
      | cons _ h' => exact ih hnodup h h'
      | cons_cons _ h' => exact hx (h.subset (List.mem_cons_of_mem _ List.mem_cons_self))
    | cons_cons _ h =>
      cases h' with
      | cons _ h' => exact hx (h'.subset (List.mem_cons_of_mem _ List.mem_cons_self))
      | cons_cons _ h' => exact hx (h.subset List.mem_cons_self)

/-- In which order two entries are ranked. -/
theorem StablyRanked.pair_iff (h : StablyRanked before l ranked) (hab : List.Sublist [a,b] l) :
    List.Sublist [a,b] ranked ↔ before a b :=
  ⟨fun hr => List.pairwise_pair.mp (h.sorted.sublist hr),h.stable a b hab⟩

/-- A ranking by one order is one by another exactly when the two agree on the pairs as they stand. -/
theorem StablyRanked.iff_agree [Std.Total before'] (h : StablyRanked before l ranked) (hnodup : l.Nodup) :
    StablyRanked before' l ranked ↔ ∀ a b, List.Sublist [a,b] l → (before a b ↔ before' a b) := by
  constructor
  · intro h' a b hab
    exact (h.pair_iff hab).symm.trans (h'.pair_iff hab)
  · intro hagree
    refine ⟨h.perm,?_,fun a b hab hbefore => h.stable a b hab ((hagree a b hab).mpr hbefore)⟩
    have hranked : ranked.Nodup := h.perm.nodup_iff.mpr hnodup
    rw [List.pairwise_iff_forall_sublist]
    intro a b hr
    have ha : a ∈ l := h.perm.mem_iff.mp (hr.subset List.mem_cons_self)
    have hb : b ∈ l := h.perm.mem_iff.mp (hr.subset (List.mem_cons_of_mem _ List.mem_cons_self))
    have hne : a ≠ b := by
      rintro rfl
      exact not_pair_sublist_swap hranked hr hr
    rcases pair_sublist_of_mem ha hb hne with hab | hba
    · exact (hagree a b hab).mp ((h.pair_iff hab).mp hr)
    · -- the other way round they would have kept their order
      have hnot : ¬before' b a := fun hbefore =>
        not_pair_sublist_swap hranked hr (h.stable b a hba ((hagree b a hba).mpr hbefore))
      exact (Std.Total.total a b).resolve_right hnot

end Stable

end KubeAir.Transition
