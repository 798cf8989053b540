import KubeAir.Adapters.LogEntry
import KubeAir.Core.Pod
import KubeAir.Transition.Runs
import Mathlib.Data.List.Infix
import Mathlib.Data.List.Perm.Subperm

/-! # Rotation of container logs

A log manager appends the lines of a container to a numbered file. A file that would grow too
large is closed for one with the next number, and one old file is removed then.
-/
namespace KubeAir.Adapters
open Core Streaming.HeaderBlock Transition

/-- The manager with the directory that it alone writes to, by the numbers of the files. -/
structure ContainerLogManager where
  maxSizeBytes : UInt64
  maxFiles : UInt32
  currentIndex : UInt32 := 0
  /-- whether there is a handle -/
  currentFile : Bool := true
  currentSize : UInt64 := 0
  logDir : HashMap ℕ (List UInt8) := AList.insert 0 [] ∅

inductive LogCall
  /-- a file that is opened on the way may fail to, and a write may fail after some bytes -/
  | write (entry : LogEntry) (opened : Except String Unit) (wrote : Except (ℕ × String) Unit)
  | rotate (opened : Except String Unit)

namespace ContainerLogManager

def toJsonLine (toString : LogEntry → String) (entry : LogEntry) : List UInt8 := asBytes (toString entry ++ "\n")

def rotate (s : ContainerLogManager) (opened : Except String Unit) : ContainerLogManager × Except String Unit :=
  let idx := s.currentIndex + 1
  let dir := if s.maxFiles ≤ idx then s.logDir.erase (idx - s.maxFiles).toNat else s.logDir
  match opened with
  | .ok () => ({ s with currentIndex := idx, currentSize := 0, currentFile := true, logDir := dir.insert idx.toNat [] },.ok ())
  | .error e => ({ s with currentIndex := idx, currentSize := 0, currentFile := false, logDir := dir },
      .error ("open rotated log: " ++ e))

def content (s : ContainerLogManager) (i : ℕ) : List UInt8 := (s.logDir.lookup i).getD []

/-- The write to the handle, if there is one. -/
def append (s : ContainerLogManager) (line : List UInt8) (wrote : Except (ℕ × String) Unit) :
    ContainerLogManager × Except String Unit :=
  if s.currentFile then
    match wrote with
    | .ok () => ({ s with
        logDir := s.logDir.insert s.currentIndex.toNat (s.content s.currentIndex.toNat ++ line)
        currentSize := s.currentSize + UInt64.ofNat line.length },.ok ())
    | .error (n,e) => ({ s with logDir := s.logDir.insert s.currentIndex.toNat (s.content s.currentIndex.toNat ++ line.take n) },
        .error ("write log: " ++ e))
  else (s,.ok ())

/-- The line does not fit into the current file. -/
def Rotates (s : ContainerLogManager) (line : List UInt8) : Prop := s.maxSizeBytes < s.currentSize + UInt64.ofNat line.length

instance (s : ContainerLogManager) (line : List UInt8) : Decidable (s.Rotates line) := inferInstanceAs (Decidable (_ < _))

def write (s : ContainerLogManager) (line : List UInt8) (opened : Except String Unit) (wrote : Except (ℕ × String) Unit) :
    ContainerLogManager × Except String Unit :=
  if s.Rotates line then
    match s.rotate opened with
    | (s',.ok ()) => s'.append line wrote
    | (s',.error e) => (s',.error e)
  else s.append line wrote

def firstRetained (s : ContainerLogManager) : ℕ := s.currentIndex.toNat - (s.maxFiles.toNat - 1)

def logFiles (s : ContainerLogManager) : List ℕ :=
  (List.range' s.firstRetained (s.currentIndex.toNat + 1 - s.firstRetained)).filter (fun i => (s.logDir.lookup i).isSome)

end ContainerLogManager

/-- A manager and the lines whose writes it has answered with `Ok`. -/
structure LogRun where
  manager : ContainerLogManager
  accepted : List (List UInt8) := []

namespace LogRun
open ContainerLogManager
variable (toString : LogEntry → String)

def start (maxSizeBytes : UInt64) (maxFiles : UInt32) : LogRun := ⟨{ maxSizeBytes := maxSizeBytes, maxFiles := maxFiles },[]⟩

def call (s : LogRun) : LogCall → LogRun × Except String Unit
  | .write entry opened wrote =>
    match s.manager.write (toJsonLine toString entry) opened wrote with
    | (m,.ok ()) => (⟨m,s.accepted ++ [toJsonLine toString entry]⟩,.ok ())
    | (m,.error e) => (⟨m,s.accepted⟩,.error e)
  | .rotate opened => (⟨(s.manager.rotate opened).1,s.accepted⟩,(s.manager.rotate opened).2)

def step (s : LogRun) (c : LogCall) (t : LogRun) : Prop := (s.call toString c).1 = t

/-- A rotation has a next number, a write that does not rotate has a file, and a write that fails
leaves nothing behind. -/
def Sound (s : LogRun) : LogCall → Prop
  | .write entry _ wrote =>
    (s.manager.Rotates (toJsonLine toString entry) → s.manager.currentIndex.toNat + 1 < 2 ^ 32) ∧
      (¬s.manager.Rotates (toJsonLine toString entry) → s.manager.currentFile = true) ∧ ∀ n e, wrote = .error (n,e) → n = 0
  | .rotate _ => s.manager.currentIndex.toNat + 1 < 2 ^ 32

/-- No more files than there may be, and in them the last of the accepted lines. -/
structure Retained (s : LogRun) : Prop where
  count : s.manager.logDir.entries.length ≤ s.manager.maxFiles.toNat
  suffix : ∃ lines, lines <:+ s.accepted ∧ s.manager.logFiles.flatMap s.manager.content = lines.flatten

/-- An accepted line is the last one of the current file. -/
def Ends (s : LogRun) (c : LogCall) : Prop :=
  ∀ entry opened wrote, c = .write entry opened wrote → (s.call toString c).2 = .ok () →
    ∃ bytes, (s.call toString c).1.manager.logDir.lookup (s.call toString c).1.manager.currentIndex.toNat =
      some (bytes ++ toJsonLine toString entry)

/-! ## Segments -/

/-- Every file holds whole lines, and the files of the window those that were accepted last. -/
structure Segments (m : ContainerLogManager) (accepted : List (List UInt8)) (segs : ℕ → List (List UInt8)) : Prop where
  file : ∀ i c, m.logDir.lookup i = some c → m.firstRetained ≤ i ∧ i ≤ m.currentIndex.toNat ∧ c = (segs i).flatten
  missing : ∀ i, m.logDir.lookup i = none → segs i = []
  window : (List.range' m.firstRetained (m.currentIndex.toNat + 1 - m.firstRetained)).flatMap segs <:+ accepted
  handle : m.currentFile = true → ∃ c, m.logDir.lookup m.currentIndex.toNat = some c

section Segments
variable {m : ContainerLogManager} {accepted : List (List UInt8)} {segs : ℕ → List (List UInt8)}

theorem Segments.content_eq (h : Segments m accepted segs) (i : ℕ) : m.content i = (segs i).flatten := by
  unfold content
  cases hlookup : m.logDir.lookup i with
  | none =>
    rw [h.missing i hlookup]
    rfl
  | some c => exact (h.file i c hlookup).2.2

theorem Segments.count (h : Segments m accepted segs) (hmax : 1 ≤ m.maxFiles.toNat) :
    m.logDir.entries.length ≤ m.maxFiles.toNat := by
  have hsub : m.logDir.keys ⊆ List.range' m.firstRetained (m.currentIndex.toNat + 1 - m.firstRetained) := by
    intro i hi
    obtain ⟨c,hlookup⟩ := Option.isSome_iff_exists.mp (AList.lookup_isSome.mpr (AList.mem_keys.mpr hi))
    obtain ⟨hle,hge,-⟩ := h.file i c hlookup
    rw [List.mem_range'_1]
    omega
  have hlength := (List.subperm_of_subset m.logDir.keys_nodup hsub).length_le
  rw [List.length_range'] at hlength
  have hkeys : m.logDir.keys.length = m.logDir.entries.length := List.length_map _
  unfold firstRetained at hlength
  omega

theorem Segments.contents (h : Segments m accepted segs) : m.logFiles.flatMap m.content =
    ((List.range' m.firstRetained (m.currentIndex.toNat + 1 - m.firstRetained)).flatMap segs).flatten := by
  unfold logFiles
  generalize List.range' m.firstRetained (m.currentIndex.toNat + 1 - m.firstRetained) = l
  induction l with
  | nil => rfl
  | cons i l ih =>
    rw [List.flatMap_cons,List.flatten_append,← ih,← h.content_eq i]
    cases hlookup : m.logDir.lookup i with
    | none =>
      rw [List.filter_cons_of_neg (by rw [hlookup]; exact Bool.false_ne_true)]
      unfold content
      rw [hlookup]
      rfl
    | some c => rw [List.filter_cons_of_pos (by rw [hlookup]; rfl),List.flatMap_cons]

theorem Segments.retained (h : Segments m accepted segs) (hmax : 1 ≤ m.maxFiles.toNat) : Retained ⟨m,accepted⟩ :=
  ⟨h.count hmax,_,h.window,h.contents⟩

/-! ## Rotating -/

/-- The directory without the file that a rotation removes. -/
def aged (m : ContainerLogManager) : HashMap ℕ (List UInt8) :=
  if m.maxFiles ≤ m.currentIndex + 1 then m.logDir.erase (m.currentIndex + 1 - m.maxFiles).toNat else m.logDir

/-- The file that a rotation removes has this number. -/
def Aged (m : ContainerLogManager) (i : ℕ) : Prop :=
  m.maxFiles.toNat ≤ m.currentIndex.toNat + 1 ∧ i = m.currentIndex.toNat + 1 - m.maxFiles.toNat

instance (m : ContainerLogManager) (i : ℕ) : Decidable (Aged m i) := inferInstanceAs (Decidable (_ ∧ _))

theorem toNat_next (h : m.currentIndex.toNat + 1 < 2 ^ 32) : (m.currentIndex + 1).toNat = m.currentIndex.toNat + 1 := by
  rw [UInt32.toNat_add]
  exact Nat.mod_eq_of_lt h

theorem lookup_aged (h : m.currentIndex.toNat + 1 < 2 ^ 32) (i : ℕ) :
    (aged m).lookup i = if Aged m i then none else m.logDir.lookup i := by
  unfold aged
  have hle : m.maxFiles ≤ m.currentIndex + 1 ↔ m.maxFiles.toNat ≤ m.currentIndex.toNat + 1 := by
    rw [UInt32.le_iff_toNat_le,toNat_next h]
  by_cases hmax : m.maxFiles ≤ m.currentIndex + 1
  · rw [if_pos hmax,UInt32.toNat_sub_of_le _ _ hmax,toNat_next h]
    by_cases hi : i = m.currentIndex.toNat + 1 - m.maxFiles.toNat
    · have haged : Aged m i := ⟨hle.mp hmax,hi⟩
      rw [if_pos haged,hi,AList.lookup_erase]
    · rw [AList.lookup_erase_ne hi,if_neg fun hand => hi hand.2]
  · rw [if_neg hmax,if_neg fun hand => hmax (hle.mpr hand.1)]

/-- What the numbers from `first` to `last` give, with the last one apart. -/
theorem flatMap_range'_last {α : Type} {first last : ℕ} (h : first ≤ last) (f : ℕ → List α) :
    (List.range' first (last + 1 - first)).flatMap f = (List.range' first (last - first)).flatMap f ++ f last := by
  rw [Nat.sub_add_comm h,List.range'_concat,Nat.one_mul,Nat.add_sub_cancel' h,List.flatMap_append,List.flatMap_singleton]

theorem flatMap_range'_congr {α : Type} {first last : ℕ} {f g : ℕ → List α}
    (h : ∀ i, first ≤ i → i < last → f i = g i) :
    (List.range' first (last - first)).flatMap f = (List.range' first (last - first)).flatMap g := by
  refine List.flatMap_congr fun i hi => ?_
  rw [List.mem_range'_1] at hi
  exact h i hi.1 (by omega)

theorem range'_suffix {lo lo' n : ℕ} (hle : lo ≤ lo') (hn : lo' ≤ n) :
    List.range' lo' (n - lo') <:+ List.range' lo (n - lo) := by
  have hsplit := List.range'_append_1 (s := lo) (m := lo' - lo) (n := n - lo')
  rw [Nat.add_sub_cancel' hle] at hsplit
  have hlength : lo' - lo + (n - lo') = n - lo := by omega
  rw [hlength] at hsplit
  exact ⟨_,hsplit⟩

/-- The manager on its way to the next file, whatever becomes of that one. -/
theorem Segments.next (h : Segments m accepted segs) (hmax : 1 ≤ m.maxFiles.toNat) (hidx : m.currentIndex.toNat + 1 < 2 ^ 32)
    {m' : ContainerLogManager} (hfiles : m'.maxFiles = m.maxFiles) (hindex : m'.currentIndex = m.currentIndex + 1)
    (hdir : ∀ i, m'.logDir.lookup i = (aged m).lookup i ∨ i = m.currentIndex.toNat + 1 ∧ m'.logDir.lookup i = some [])
    (hhandle : m'.currentFile = true → m'.logDir.lookup (m.currentIndex.toNat + 1) = some []) :
    Segments m' accepted (fun i => if Aged m i then [] else segs i) := by
  have htoNat : m'.currentIndex.toNat = m.currentIndex.toNat + 1 := by rw [hindex,toNat_next hidx]
  have hnew : segs (m.currentIndex.toNat + 1) = [] := by
    refine h.missing _ ?_
    cases hlookup : m.logDir.lookup (m.currentIndex.toNat + 1) with
    | none => rfl
    | some c =>
      have hle := (h.file _ c hlookup).2.1
      omega
  have hnotAged : ¬Aged m (m.currentIndex.toNat + 1) := by
    unfold Aged
    omega
  have hfirst : m'.firstRetained = m.currentIndex.toNat + 1 - (m.maxFiles.toNat - 1) := by
    unfold firstRetained
    rw [htoNat,hfiles]
  refine ⟨?_,?_,?_,?_⟩
  · intro i c hlookup
    rw [hfirst,htoNat]
    rcases hdir i with hsame | ⟨rfl,hempty⟩
    · rw [hsame,lookup_aged hidx] at hlookup
      split at hlookup
      · cases hlookup
      next hnot =>
      obtain ⟨hlo,hhi,hc⟩ := h.file i c hlookup
      rw [if_neg hnot]
      unfold firstRetained at hlo
      unfold Aged at hnot
      exact ⟨by omega,by omega,hc⟩
    · rw [hempty] at hlookup
      obtain rfl := Option.some.inj hlookup
      rw [if_neg hnotAged,hnew]
      exact ⟨Nat.sub_le _ _,le_rfl,rfl⟩
  · intro i hlookup
    split
    · rfl
    next hnot =>
    rcases hdir i with hsame | ⟨-,hempty⟩
    · rw [hsame,lookup_aged hidx,if_neg hnot] at hlookup
      exact h.missing i hlookup
    · rw [hempty] at hlookup
      cases hlookup
  · rw [hfirst,htoNat]
    have hkept : ∀ i, m.currentIndex.toNat + 1 - (m.maxFiles.toNat - 1) ≤ i → i < m.currentIndex.toNat + 1 →
        (if Aged m i then [] else segs i) = segs i := by
      intro i hlo hhi
      refine if_neg ?_
      unfold Aged
      omega
    rw [flatMap_range'_last (Nat.sub_le _ _),flatMap_range'_congr hkept,if_neg hnotAged,hnew,List.append_nil]
    have hlater : m.firstRetained ≤ m.currentIndex.toNat + 1 - (m.maxFiles.toNat - 1) := by
      unfold firstRetained
      omega
    obtain ⟨dropped,hdropped⟩ := range'_suffix hlater (Nat.sub_le _ _)
    have hwindow := h.window
    rw [← hdropped,List.flatMap_append] at hwindow
    exact (List.suffix_append _ _).trans hwindow
  · intro hfile
    rw [htoNat]
    exact ⟨[],hhandle hfile⟩

theorem Segments.rotate (h : Segments m accepted segs) (hmax : 1 ≤ m.maxFiles.toNat) (hidx : m.currentIndex.toNat + 1 < 2 ^ 32)
    (opened : Except String Unit) :
    ∃ segs, Segments (m.rotate opened).1 accepted segs ∧ (m.rotate opened).1.maxFiles = m.maxFiles ∧
      ((m.rotate opened).2 = .ok () → (m.rotate opened).1.currentFile = true) := by
  refine ⟨fun i => if Aged m i then [] else segs i,?_⟩
  have hnext := toNat_next hidx
  cases opened with
  | ok =>
    refine ⟨h.next hmax hidx rfl rfl ?_ ?_,rfl,fun _ => rfl⟩
    · intro i
      show ((aged m).insert (m.currentIndex + 1).toNat []).lookup i = _ ∨ _ ∧ ((aged m).insert (m.currentIndex + 1).toNat []).lookup i = _
      rw [hnext]
      by_cases hi : i = m.currentIndex.toNat + 1
      · subst hi
        exact .inr ⟨rfl,AList.lookup_insert _⟩
      · exact .inl (AList.lookup_insert_ne hi)
    · intro _
      show ((aged m).insert (m.currentIndex + 1).toNat []).lookup _ = _
      rw [hnext]
      exact AList.lookup_insert _
  | error e =>
    refine ⟨h.next hmax hidx rfl rfl (fun _ => .inl rfl) ?_,rfl,fun hok => nomatch hok⟩
    exact fun hfile => absurd hfile Bool.false_ne_true

/-- A write has put its line at the end of the current file, or has not begun to. -/
def Answered (accepted : List (List UInt8)) (line : List UInt8) (r : ContainerLogManager × Except String Unit) : Prop :=
  (r.2 = .ok () ∧ (∃ segs, Segments r.1 (accepted ++ [line]) segs) ∧
    ∃ bytes, r.1.logDir.lookup r.1.currentIndex.toNat = some (bytes ++ line)) ∨
  (∃ e, r.2 = .error e) ∧ ∃ segs, Segments r.1 accepted segs

theorem Segments.append (h : Segments m accepted segs) (hfile : m.currentFile = true) (line : List UInt8)
    {wrote : Except (ℕ × String) Unit} (hwrote : ∀ n e, wrote = .error (n,e) → n = 0) :
    (m.append line wrote).1.maxFiles = m.maxFiles ∧ Answered accepted line (m.append line wrote) := by
  unfold ContainerLogManager.append
  rw [if_pos hfile]
  cases wrote with
  | ok =>
    refine ⟨rfl,.inl ⟨rfl,⟨fun i => if i = m.currentIndex.toNat then segs i ++ [line] else segs i,?_,?_,?_,?_⟩,_,AList.lookup_insert _⟩⟩
    · intro i c hlookup
      rcases HashMap.lookup_insert_eq_some.mp hlookup with ⟨rfl,rfl⟩ | ⟨hi,hlookup⟩
      · rw [if_pos rfl,List.flatten_append,List.flatten_singleton,h.content_eq]
        exact ⟨Nat.sub_le _ _,le_rfl,rfl⟩
      · rw [if_neg hi]
        exact h.file i c hlookup
    · intro i hlookup
      by_cases hi : i = m.currentIndex.toNat
      · rw [hi] at hlookup
        exact absurd (hlookup.symm.trans (AList.lookup_insert _)) nofun
      · rw [if_neg hi]
        exact h.missing i ((AList.lookup_insert_ne hi).symm.trans hlookup)
    · show (List.range' m.firstRetained (m.currentIndex.toNat + 1 - m.firstRetained)).flatMap _ <:+ _
      have hfirst : m.firstRetained ≤ m.currentIndex.toNat := Nat.sub_le _ _
      have hother : ∀ i, m.firstRetained ≤ i → i < m.currentIndex.toNat →
          (if i = m.currentIndex.toNat then segs i ++ [line] else segs i) = segs i := by
        intro i _ hi
        exact if_neg (Nat.ne_of_lt hi)
      obtain ⟨dropped,hdropped⟩ := h.window
      rw [flatMap_range'_last hfirst] at hdropped
      rw [flatMap_range'_last hfirst,flatMap_range'_congr hother,if_pos rfl]
      refine ⟨dropped,?_⟩
      rw [← hdropped,List.append_assoc,List.append_assoc]
    · intro _
      exact ⟨_,AList.lookup_insert _⟩
  | error failure =>
    obtain ⟨n,e⟩ := failure
    obtain rfl := hwrote n e rfl
    obtain ⟨c,hc⟩ := h.handle hfile
    have hcontent : m.content m.currentIndex.toNat ++ line.take 0 = c := by
      unfold content
      rw [hc,List.take_zero,List.append_nil]
      rfl
    have hsame : ∀ i, (m.logDir.insert m.currentIndex.toNat c).lookup i = m.logDir.lookup i := by
      intro i
      by_cases hi : i = m.currentIndex.toNat
      · rw [hi,AList.lookup_insert,hc]
      · exact AList.lookup_insert_ne hi
    refine ⟨rfl,.inr ⟨⟨_,rfl⟩,segs,?_⟩⟩
    dsimp only
    rw [hcontent]
    refine ⟨?_,?_,h.window,?_⟩
    · exact fun i c hlookup => h.file i c ((hsame i).symm.trans hlookup)
    · exact fun i hlookup => h.missing i ((hsame i).symm.trans hlookup)
    · exact fun _ => ⟨c,AList.lookup_insert _⟩

end Segments

section Runs
variable {toString : LogEntry → String} {s t : LogRun} {c : LogCall}

/-- What holds between the calls of a run. -/
structure Whole (s : LogRun) : Prop where
  max : 1 ≤ s.manager.maxFiles.toNat
  segments : ∃ segs, Segments s.manager s.accepted segs

theorem Whole.write (h : Whole s) {entry : LogEntry} {opened : Except String Unit} {wrote : Except (ℕ × String) Unit}
    (hsound : Sound toString s (.write entry opened wrote)) :
    (s.manager.write (toJsonLine toString entry) opened wrote).1.maxFiles = s.manager.maxFiles ∧
      Answered s.accepted (toJsonLine toString entry) (s.manager.write (toJsonLine toString entry) opened wrote) := by
  obtain ⟨hrotates,hopen,hwrote⟩ := hsound
  obtain ⟨segs,hsegs⟩ := h.segments
  unfold ContainerLogManager.write
  by_cases hfull : s.manager.Rotates (toJsonLine toString entry)
  · rw [if_pos hfull]
    obtain ⟨segs',hsegs',hfiles,hhandle⟩ := hsegs.rotate h.max (hrotates hfull) opened
    generalize s.manager.rotate opened = r at hsegs' hfiles hhandle
    obtain ⟨m,result⟩ := r
    cases result with
    | error e => exact ⟨hfiles,.inr ⟨⟨e,rfl⟩,segs',hsegs'⟩⟩
    | ok =>
      obtain ⟨hmax,hanswered⟩ := hsegs'.append (hhandle rfl) (toJsonLine toString entry) hwrote
      exact ⟨hmax.trans hfiles,hanswered⟩
  · rw [if_neg hfull]
    exact hsegs.append (hopen hfull) (toJsonLine toString entry) hwrote

/-- A sound call leaves whole segments, and a line that it accepts at the end of the current file. -/
theorem Whole.call (h : Whole s) (hsound : Sound toString s c) : Whole (s.call toString c).1 ∧ Ends toString s c := by
  cases c with
  | rotate opened =>
    obtain ⟨segs,hsegs⟩ := h.segments
    obtain ⟨segs',hsegs',hfiles,-⟩ := hsegs.rotate h.max hsound opened
    refine ⟨⟨?_,segs',hsegs'⟩,?_⟩
    · show 1 ≤ (s.manager.rotate opened).1.maxFiles.toNat
      rw [hfiles]
      exact h.max
    · rintro entry opened' wrote ⟨⟩
  | write entry opened wrote =>
    obtain ⟨hfiles,hanswered⟩ := h.write hsound
    have hmax := h.max
    rw [← hfiles] at hmax
    have hcall : s.call toString (.write entry opened wrote) =
        match s.manager.write (toJsonLine toString entry) opened wrote with
        | (m,.ok ()) => (⟨m,s.accepted ++ [toJsonLine toString entry]⟩,.ok ())
        | (m,.error e) => (⟨m,s.accepted⟩,.error e) := rfl
    unfold Ends
    rw [hcall]
    generalize s.manager.write (toJsonLine toString entry) opened wrote = r at hmax hanswered
    obtain ⟨m,result⟩ := r
    rcases hanswered with ⟨hok,hsegs,hlast⟩ | ⟨⟨e,herror⟩,hsegs⟩
    · obtain rfl : result = .ok () := hok
      refine ⟨⟨hmax,hsegs⟩,?_⟩
      rintro entry' opened' wrote' ⟨⟩ _
      exact hlast
    · obtain rfl : result = .error e := herror
      refine ⟨⟨hmax,hsegs⟩,?_⟩
      rintro entry' opened' wrote' ⟨⟩ hok
      cases hok

theorem whole_start (maxSizeBytes : UInt64) {maxFiles : UInt32} (hmax : 1 ≤ maxFiles.toNat) : Whole (start maxSizeBytes maxFiles) := by
  refine ⟨hmax,fun _ => [],?_,fun _ _ => rfl,?_,fun _ => ⟨[],rfl⟩⟩
  · intro i c hlookup
    rcases HashMap.lookup_insert_eq_some.mp hlookup with ⟨rfl,rfl⟩ | ⟨-,hlookup⟩
    · exact ⟨Nat.sub_le _ _,le_rfl,rfl⟩
    · cases hlookup
  · rw [List.flatMap_eq_nil_iff.mpr fun _ _ => rfl]
    exact List.nil_suffix

/-- As long as every call is sound, there are no more files than there may be, they hold the lines
accepted last, and an accepted line is the last one of the current file. -/
theorem retained_of_sound {maxSizeBytes : UInt64} {maxFiles : UInt32} (hmax : 1 ≤ maxFiles.toNat) {calls : List LogCall}
    (hr : Runs (Guarded (Sound toString) (step toString)) (start maxSizeBytes maxFiles) calls s) :
    Retained s ∧ ∀ c, Sound toString s c → Ends toString s c := by
  have hwhole : Whole s := hr.invariant (fun s c t h hs => hs.2 ▸ (h.call hs.1).1) (whole_start maxSizeBytes hmax)
  obtain ⟨segs,hsegs⟩ := hwhole.segments
  exact ⟨hsegs.retained hwhole.max,fun c hsound => (hwhole.call hsound).2⟩

end Runs

/-- The text of an entry without characters to escape. -/
def plainText (e : LogEntry) : String :=
  "\x7b\"log\":\"" ++ e.log ++ "\",\"stream\":\"" ++ e.stream ++ "\",\"time\":\"" ++ e.time ++ "\"\x7d"

def twoLines : List LogCall :=
  [.write ⟨"a","stdout",""⟩ (.ok ()) (.ok ()),.rotate (.ok ()),.write ⟨"b","stdout",""⟩ (.ok ()) (.ok ())]

theorem retained_of_twoLines : ∃ s, Runs (Guarded (Sound plainText) (step plainText)) (start 100 1) twoLines s ∧
    Retained s ∧ ∀ c, Sound plainText s c → Ends plainText s c := by
  have hfirst : Sound plainText (start 100 1) (.write ⟨"a","stdout",""⟩ (.ok ()) (.ok ())) :=
    ⟨fun _ => by decide,fun _ => rfl,fun _ _ h => nomatch h⟩
  have hr : Runs (Guarded (Sound plainText) (step plainText)) (start 100 1) twoLines _ :=
    .cons ⟨hfirst,rfl⟩ (.cons ⟨by unfold Sound; decide +kernel,rfl⟩ (.cons ⟨⟨fun _ => by decide +kernel,fun _ => rfl,fun _ _ h => nomatch h⟩,rfl⟩ (.nil _)))
  exact ⟨_,hr,retained_of_sound (by decide) hr⟩

/-- The file for the second line cannot be opened. -/
def lostLine : List LogCall :=
  [.write ⟨"a","stdout",""⟩ (.ok ()) (.ok ()),.rotate (.error "No space left on device"),
    .write ⟨"b","stdout",""⟩ (.ok ()) (.ok ())]

theorem not_retained : ∃ s, Runs (step plainText) (start 100 5) lostLine s ∧ ¬Retained s := by
  refine ⟨_,.cons rfl (.cons rfl (.cons rfl (.nil _))),?_⟩
  rintro ⟨-,lines,hsuffix,hcontents⟩
  have hnone : ∀ lines ∈ [toJsonLine plainText ⟨"a","stdout",""⟩,toJsonLine plainText ⟨"b","stdout",""⟩].tails,
      toJsonLine plainText ⟨"a","stdout",""⟩ ≠ lines.flatten := by
    decide +kernel
  exact hnone lines ((List.mem_tails lines _).mpr hsuffix) hcontents

end LogRun
end KubeAir.Adapters
