import KubeAir.Streaming.ContainerLogs
import KubeAir.Wire.Utf8

/-! # The limits of a log query

A query takes the entries that are recent enough, the last of these, and of their text the last
bytes. A time too far back and a limit inside a character are panics.
-/
namespace KubeAir.Streaming.ContainerLogs
open Adapters Core HeaderBlock Wire.Utf8
variable {src : LogSource} {query : LogQuery} {n : ℤ} {body s : String} {limitBytes : Option ℤ}

/-! ## What a query selects -/

/-- The time before which nothing is shown. -/
def oldest (src : LogSource) (query : LogQuery) : Option DateTime :=
  match query.sinceTime with
  | some raw => src.parseFromRfc3339 raw
  | none => query.sinceSeconds.map (fun secs => src.now - max secs 0 * 10 ^ 9)

/-- An entry that is not known to be too old. -/
def Recent (src : LogSource) (query : LogQuery) (e : LogEntry) : Prop :=
  ∀ first ∈ oldest src query, ∀ ts ∈ src.parseFromRfc3339 e.time, first ≤ ts

instance (e : LogEntry) : Decidable (Recent src query e) := by
  unfold Recent
  infer_instance

def entryText (withTimestamps : Bool) (e : LogEntry) : List Char :=
  if withTimestamps then e.time.toList ++ ' ' :: e.log.toList else e.log.toList

/-- The text of the last recent entries. -/
def shown (src : LogSource) (query : LogQuery) (entries : List LogEntry) : List Char :=
  (tail query.tailLines (entries.filter (Recent src query))).flatMap (entryText (query.timestamps.getD false))

/-- The seconds that count lead to a time. -/
def SinceInRange (src : LogSource) (query : LogQuery) : Prop :=
  query.sinceTime = none → ∀ secs ∈ query.sinceSeconds,
    max secs 0 ≤ maxSeconds ∧ minUtc ≤ src.now - max secs 0 * 10 ^ 9

/-- A limit below the length of a text leaves whole characters. -/
def LimitOnBoundary (limitBytes : Option ℤ) (text : List Char) : Prop :=
  ∀ n ∈ limitBytes, n.toNat < size text → ∃ pre rest, text = pre ++ rest ∧ size rest = n.toNat

/-- The body exists, is no longer than the limit, and is a piece of the body without limit. -/
def SafeLimits (src : LogSource) (query : LogQuery) (entries : List LogEntry) : Prop :=
  ∃ body, sliceBody src query entries = .ok body ∧ (∀ n ∈ query.limitBytes, 0 ≤ n → (size body.toList : ℤ) ≤ n) ∧
    ∃ whole, sliceBody src { query with limitBytes := none } entries = .ok whole ∧ body.toList <:+: whole.toList

/-! ## The steps -/

theorem sinceCutoff_eq_ok (h : SinceInRange src query) : sinceCutoff src query = .ok (oldest src query) := by
  unfold sinceCutoff oldest
  cases htime : query.sinceTime with
  | some raw => rfl
  | none =>
    cases hsecs : query.sinceSeconds with
    | none => rfl
    | some secs =>
      dsimp only
      rw [secondsAgo,if_pos (h htime secs hsecs)]
      rfl

theorem SinceInRange.of_ok {cutoff : Option DateTime} (h : sinceCutoff src query = .ok cutoff) :
    SinceInRange src query := by
  intro htime secs hsecs
  unfold sinceCutoff at h
  rw [htime,Option.mem_def.mp hsecs] at h
  dsimp only at h
  by_contra hout
  rw [secondsAgo,if_neg hout] at h
  cases h

theorem sinceFilter_oldest (entries : List LogEntry) :
    sinceFilter src.parseFromRfc3339 (oldest src query) entries = entries.filter (Recent src query) := by
  unfold sinceFilter
  cases hfirst : oldest src query with
  | none =>
    refine (List.filter_eq_self.mpr fun e _ => decide_eq_true ?_).symm
    intro first hmem
    rw [hfirst] at hmem
    cases hmem
  | some first =>
    refine List.filter_congr fun e _ => ?_
    have hrecent : Recent src query e ↔ ∀ ts ∈ src.parseFromRfc3339 e.time, first ≤ ts := by
      unfold Recent
      rw [hfirst]
      simp
    cases hts : src.parseFromRfc3339 e.time with
    | none =>
      refine (decide_eq_true (hrecent.mpr fun ts hmem => ?_)).symm
      rw [hts] at hmem
      cases hmem
    | some ts =>
      refine decide_eq_decide.mpr ⟨fun h => hrecent.mpr fun t ht => ?_,fun h => hrecent.mp h ts hts⟩
      rw [hts] at ht
      cases ht
      exact h

theorem toList_bodyOf (withTimestamps : Bool) (entries : List LogEntry) :
    (bodyOf withTimestamps entries).toList = entries.flatMap (entryText withTimestamps) := by
  unfold bodyOf
  rw [String.toList_join,List.flatMap_map]
  refine List.flatMap_congr fun e _ => ?_
  unfold entryText
  cases withTimestamps with
  | false => rfl
  | true => simp

theorem length_asBytes (s : String) : (asBytes s).length = size s.toList := HeaderBlock.length_asBytes s

/-- A limit that leaves whole characters gives them. -/
theorem limit_cut {pre rest : List Char} (hbody : body.toList = pre ++ rest) (hrest : size rest = n.toNat)
    (hlt : n.toNat < size body.toList) : limit (some n) body = .ok (String.ofList rest) := by
  have hdrop : (asBytes body).drop ((asBytes body).length - n.toNat) = asBytes (String.ofList rest) := by
    have hpre : (asBytes body).length - n.toNat = (utf8 pre).length := by
      rw [length_asBytes,hbody,size_append,length_utf8]
      omega
    have hbytes : asBytes body = utf8 pre ++ utf8 rest := (congrArg utf8 hbody).trans utf8_append
    rw [hpre,hbytes,List.drop_left,asBytes,String.toList_ofList]
    rfl
  unfold limit
  dsimp only
  rw [length_asBytes,if_pos hlt,← length_asBytes,hdrop,fromUtf8_asBytes]

theorem limit_eq_self (h : ∀ n ∈ limitBytes, size body.toList ≤ n.toNat) : limit limitBytes body = .ok body := by
  unfold limit
  cases limitBytes with
  | none => rfl
  | some n =>
    dsimp only
    rw [length_asBytes,if_neg (Nat.not_lt.mpr (h n rfl))]

/-- A limit that gives a text leaves whole characters. -/
theorem LimitOnBoundary.of_ok (h : limit limitBytes body = .ok s) : LimitOnBoundary limitBytes body.toList := by
  rintro n hn hlt
  obtain rfl := Option.mem_def.mp hn
  unfold limit at h
  dsimp only at h
  rw [length_asBytes,if_pos hlt] at h
  split at h
  · next t ht =>
    have hdrop := fromUtf8_eq_some.mp ht
    obtain ⟨pre,rest,htext,hpre⟩ := exists_of_drop_utf8 (Nat.sub_le _ _) hdrop
    refine ⟨pre,rest,htext,?_⟩
    rw [htext,size_append] at hpre hlt
    omega
  · cases h

/-- What a limit gives is short enough and the end of the text. -/
theorem LimitOnBoundary.limit_eq (h : LimitOnBoundary limitBytes body.toList) :
    ∃ s, limit limitBytes body = .ok s ∧ (∀ n ∈ limitBytes, 0 ≤ n → (size s.toList : ℤ) ≤ n) ∧
      s.toList <:+ body.toList := by
  by_cases hfits : ∀ n ∈ limitBytes, size body.toList ≤ n.toNat
  · refine ⟨body,limit_eq_self hfits,fun n hn hpos => ?_,List.suffix_refl _⟩
    have hsize := hfits n hn
    omega
  · push Not at hfits
    obtain ⟨n,hn,hlt⟩ := hfits
    obtain ⟨pre,rest,htext,hrest⟩ := h n hn hlt
    obtain rfl := Option.mem_def.mp hn
    refine ⟨String.ofList rest,limit_cut htext hrest hlt,fun m hm hpos => ?_,?_⟩
    · cases hm
      rw [String.toList_ofList]
      omega
    · rw [String.toList_ofList,htext]
      exact List.suffix_append pre rest

/-- Within range the body is the text of the selected entries, up to the limit. -/
theorem sliceBody_eq (h : SinceInRange src query) (entries : List LogEntry) :
    ∃ whole : String, whole.toList = shown src query entries ∧
      sliceBody src query entries = limit query.limitBytes whole := by
  refine ⟨_,?_,by rw [sliceBody,sinceCutoff_eq_ok h]⟩
  rw [toList_bodyOf,sinceFilter_oldest]
  rfl

/-! ## Safe limits -/

/-- A query is answered within its limit just when its seconds lead to a time and its limit leaves
whole characters. -/
theorem safeLimits_iff (src : LogSource) (query : LogQuery) (entries : List LogEntry) :
    SafeLimits src query entries ↔
      SinceInRange src query ∧ LimitOnBoundary query.limitBytes (shown src query entries) := by
  constructor
  · rintro ⟨body,hbody,-⟩
    have hrange : SinceInRange src query := by
      unfold sliceBody at hbody
      split at hbody
      · cases hbody
      · next cutoff hcutoff => exact .of_ok hcutoff
    obtain ⟨whole,hwhole,heq⟩ := sliceBody_eq hrange entries
    rw [heq] at hbody
    rw [← hwhole]
    exact ⟨hrange,.of_ok hbody⟩
  · rintro ⟨hrange,hlimit⟩
    obtain ⟨whole,hwhole,heq⟩ := sliceBody_eq hrange entries
    rw [← hwhole] at hlimit
    obtain ⟨body,hbody,hshort,hsuffix⟩ := hlimit.limit_eq
    refine ⟨body,heq.trans hbody,hshort,?_⟩
    have hopen : SinceInRange src { query with limitBytes := none } := hrange
    obtain ⟨all,hall,hslice⟩ := sliceBody_eq hopen entries
    have hsame : all.toList = whole.toList := hall.trans hwhole.symm
    exact ⟨all,hslice,by rw [hsame]; exact hsuffix.isInfix⟩

/-! ## A limit inside a character -/

def quietSource : LogSource where
  json := splitSource.json
  parseFromRfc3339 := nineSeconds
  now := 1767225610000000000
  dirs := fun _ => []

theorem limit_splits_character :
    sliceBody quietSource { limitBytes := some 2 } [⟨"é\n","stdout","2026-01-01T00:00:09Z"⟩] = .error .notCharBoundary ∧
    sliceBody quietSource { sinceSeconds := some (2 ^ 63 - 1) } [] = .error .outOfRange ∧
    ¬SafeLimits quietSource { limitBytes := some 2 } [⟨"é\n","stdout","2026-01-01T00:00:09Z"⟩] := by
  have hpanic : sliceBody quietSource { limitBytes := some 2 } [⟨"é\n","stdout","2026-01-01T00:00:09Z"⟩]
      = .error .notCharBoundary := by
    decide
  refine ⟨hpanic,by decide,?_⟩
  rintro ⟨body,hbody,-⟩
  rw [hpanic] at hbody
  cases hbody

end KubeAir.Streaming.ContainerLogs
