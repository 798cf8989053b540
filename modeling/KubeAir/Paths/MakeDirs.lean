import KubeAir.Paths.Disk

/-! # Making directories

Making all the directories that lead along a path, which is followed part by part: a step up is
one from where the path has led so far, and a file on the way ends it.
-/
namespace KubeAir.Paths
variable {C : Type}

/-- Where one part leads. -/
def Part.onto (place : List String) : Part → List String
  | .name s => place ++ [s]
  | .up => place.dropLast

/-- Where parts lead, one after the other. -/
def lead (start : List String) (parts : List Part) : List String := parts.foldl Part.onto start

theorem lead_append (start : List String) (l m : List Part) : lead start (l ++ m) = lead (lead start l) m :=
  List.foldl_append

theorem lead_names (start names : List String) : lead start (names.map Part.name) = start ++ names := by
  induction names generalizing start with
  | nil => exact (List.append_nil start).symm
  | cons s names ih =>
    change lead (start ++ [s]) (names.map Part.name) = _
    rw [ih,List.append_assoc]
    rfl

theorem climb_snd (parts : List Part) : (Path.climb parts).2 = lead [] parts := by
  induction parts using List.reverseRecOn with
  | nil => rfl
  | append_singleton parts x ih =>
    rw [Path.climb_concat,lead_append,← ih]
    cases x with
    | name s => rfl
    | up =>
      unfold Path.walk
      dsimp only
      split
      · rename_i h
        rw [h]
        rfl
      · rfl

/-- Where a path starts. -/
def Path.start (cwd : List String) (p : Path) : List String := if p.absolute then [] else cwd

theorem Path.place_eq (cwd : List String) (p : Path) : p.place cwd = lead (p.start cwd) p.parts := by
  unfold place start
  split
  · rw [climb_snd]
  · rw [climb_snd,lead_append,lead_names,List.nil_append]

/-- The path comes by a place on its way. -/
def Path.Passes (cwd : List String) (p : Path) (place : List String) : Prop :=
  ∃ before, before <+: p.parts ∧ lead (p.start cwd) before = place

namespace Disk

/-- The disk with a new directory. -/
def mkdir (d : Disk C) (place : List String) (name : String) (h : d.node place = some .dir) : Disk C where
  node := Function.update d.node (place ++ [name]) (some .dir)
  parent p n hp := by
    by_cases hself : p = place ++ [name]
    · rw [hself,Function.update_self]
    · rw [Function.update_of_ne hself]
      by_cases hbelow : p ++ [n] = place ++ [name]
      · rw [(List.append_inj' hbelow rfl).1]
        exact h
      · rw [Function.update_of_ne hbelow] at hp
        exact d.parent p n hp

/-- `Path::exists`: every part but the last leads to a directory, and the last one to something. -/
def pathExists (d : Disk C) : List String → List Part → Bool
  | place, [] =>
    match d.node place with
    | none | some (.other true) => false
    | _ => true
  | place, x :: parts =>
    match d.node place with
    | some .dir => d.pathExists (x.onto place) parts
    | _ => false

/-- `create_dir_all`. What has been made stays where it fails. -/
def createDirAll (d : Disk C) : List String → List Part → Disk C
  | _, [] => d
  | place, x :: parts =>
    match h : d.node place with
    | some .dir =>
      match x with
      | .up => d.createDirAll place.dropLast parts
      | .name s =>
        match d.node (place ++ [s]) with
        | none => (d.mkdir place s h).createDirAll (place ++ [s]) parts
        | some _ => d.createDirAll (place ++ [s]) parts
    | _ => d

/-- A directory or nothing, which can become one. -/
def Open (d : Disk C) (place : List String) : Prop := d.node place = none ∨ d.node place = some .dir

/-- A place to which a name on the way leads, where nothing is yet and nothing blocks the way. -/
def Ahead (d : Disk C) (start : List String) (parts : List Part) (p : List String) : Prop :=
  d.node p = none ∧ ∃ before s, before ++ [.name s] <+: parts ∧ lead start (before ++ [.name s]) = p ∧
    ∀ q, q <+: before → d.Open (lead start q)

/-- A place on the way from a directory along a path that is missing, up to where the way is blocked. -/
def Missing (d : Disk C) (start : List String) (parts : List Part) (p : List String) : Prop :=
  d.node start = some .dir ∧ d.Ahead start parts p

section ahead
variable {d : Disk C} {start place p : List String} {parts : List Part} {x : Part} {name : String}

theorem not_ahead_nil : ¬d.Ahead start [] p := by
  rintro ⟨-,before,s,hway,-⟩
  have hlength := hway.length_le
  rw [List.length_append,List.length_singleton,List.length_nil] at hlength
  omega

theorem Ahead.isOpen (h : d.Ahead start parts p) : d.Open start := by
  obtain ⟨-,before,s,-,-,hall⟩ := h
  exact hall [] List.nil_prefix

theorem ahead_cons (h : d.Open start) : d.Ahead start (x :: parts) p ↔
    (∃ s, x = .name s ∧ p = start ++ [s] ∧ d.node p = none) ∨ d.Ahead (x.onto start) parts p := by
  constructor
  · rintro ⟨hnone,before,s,hway,hlead,hall⟩
    cases before with
    | nil =>
      obtain ⟨rfl,-⟩ := List.cons_prefix_cons.mp hway
      exact Or.inl ⟨s,rfl,hlead.symm,hnone⟩
    | cons y before =>
      obtain ⟨rfl,htail⟩ := List.cons_prefix_cons.mp hway
      refine Or.inr ⟨hnone,before,s,htail,hlead,fun q hq => ?_⟩
      exact hall (y :: q) (List.cons_prefix_cons.mpr ⟨rfl,hq⟩)
  · rintro (⟨s,rfl,rfl,hnone⟩ | ⟨hnone,before,s,hway,hlead,hall⟩)
    · refine ⟨hnone,[],s,List.cons_prefix_cons.mpr ⟨rfl,List.nil_prefix⟩,rfl,fun q hq => ?_⟩
      rw [List.prefix_nil.mp hq]
      exact h
    · refine ⟨hnone,x :: before,s,List.cons_prefix_cons.mpr ⟨rfl,hway⟩,hlead,fun q hq => ?_⟩
      cases q with
      | nil => exact h
      | cons y q =>
        obtain ⟨rfl,htail⟩ := List.cons_prefix_cons.mp hq
        exact hall q htail

theorem node_mkdir_self {h : d.node place = some .dir} : (d.mkdir place name h).node (place ++ [name]) = some .dir :=
  Function.update_self _ _ _

theorem node_mkdir_of_ne {h : d.node place = some .dir} (hne : p ≠ place ++ [name]) :
    (d.mkdir place name h).node p = d.node p :=
  Function.update_of_ne hne _ _

theorem open_mkdir {h : d.node place = some .dir} (hnone : d.node (place ++ [name]) = none) :
    (d.mkdir place name h).Open p ↔ d.Open p := by
  unfold Open
  by_cases hp : p = place ++ [name]
  · rw [hp,node_mkdir_self,hnone]
    exact iff_of_true (Or.inr rfl) (Or.inl rfl)
  · rw [node_mkdir_of_ne hp]

/-- A new directory is no longer missing. -/
theorem ahead_mkdir {h : d.node place = some .dir} (hnone : d.node (place ++ [name]) = none) :
    (d.mkdir place name h).Ahead start parts p ↔ p ≠ place ++ [name] ∧ d.Ahead start parts p := by
  unfold Ahead
  simp only [open_mkdir hnone]
  rw [← and_assoc]
  refine and_congr_left fun _ => ?_
  by_cases hp : p = place ++ [name]
  · rw [hp,node_mkdir_self]
    exact iff_of_false (Option.some_ne_none _) (fun hne => hne.1 rfl)
  · rw [node_mkdir_of_ne hp]
    exact (and_iff_right hp).symm

theorem dir_dropLast (h : d.node place = some .dir) : d.node place.dropLast = some .dir := by
  cases hplace : place using List.reverseRecOn with
  | nil =>
    rw [hplace] at h
    exact h
  | append_singleton l s =>
    rw [hplace] at h
    rw [List.dropLast_concat]
    exact d.parent l s (by rw [h]; rfl)

end ahead

section making
variable {d : Disk C} {start p : List String} {parts : List Part} {x : Part} {s : String}

theorem createDirAll_of_ne (h : d.node start ≠ some .dir) : d.createDirAll start (x :: parts) = d := by
  unfold createDirAll
  split
  · rename_i hdir
    exact absurd hdir h
  · rfl

theorem createDirAll_up (h : d.node start = some .dir) :
    d.createDirAll start (.up :: parts) = d.createDirAll start.dropLast parts := by
  rw [createDirAll]
  split
  · rfl
  · rename_i hne
    exact absurd h hne

theorem createDirAll_new (h : d.node start = some .dir) (hnone : d.node (start ++ [s]) = none) :
    d.createDirAll start (.name s :: parts) = (d.mkdir start s h).createDirAll (start ++ [s]) parts := by
  rw [createDirAll]
  split
  · dsimp only
    rw [hnone]
  · rename_i hne
    exact absurd h hne

theorem createDirAll_old {node : DiskNode C} (h : d.node start = some .dir) (hsome : d.node (start ++ [s]) = some node) :
    d.createDirAll start (.name s :: parts) = d.createDirAll (start ++ [s]) parts := by
  rw [createDirAll]
  split
  · dsimp only
    rw [hsome]
  · rename_i hne
    exact absurd h hne

theorem missing_up (h : d.node start = some .dir) : d.Missing start (.up :: parts) p ↔ d.Missing start.dropLast parts p := by
  unfold Missing
  rw [ahead_cons (Or.inr h)]
  constructor
  · rintro ⟨-,⟨s,hs,-⟩ | hahead⟩
    · cases hs
    · exact ⟨dir_dropLast h,hahead⟩
  · rintro ⟨-,hahead⟩
    exact ⟨h,Or.inr hahead⟩

theorem missing_new (h : d.node start = some .dir) (hnone : d.node (start ++ [s]) = none) :
    d.Missing start (.name s :: parts) p ↔ p = start ++ [s] ∨ (d.mkdir start s h).Missing (start ++ [s]) parts p := by
  unfold Missing
  rw [ahead_cons (Or.inr h),ahead_mkdir hnone]
  constructor
  · rintro ⟨-,⟨_,hs,rfl,-⟩ | hahead⟩
    · obtain rfl := Part.name.inj hs
      exact Or.inl rfl
    · by_cases hp : p = start ++ [s]
      · exact Or.inl hp
      · exact Or.inr ⟨node_mkdir_self,hp,hahead⟩
  · rintro (rfl | ⟨-,-,hahead⟩)
    · exact ⟨h,Or.inl ⟨s,rfl,rfl,hnone⟩⟩
    · exact ⟨h,Or.inr hahead⟩

theorem missing_old {node : DiskNode C} (h : d.node start = some .dir) (hsome : d.node (start ++ [s]) = some node) :
    d.Missing start (.name s :: parts) p ↔ d.Missing (start ++ [s]) parts p := by
  unfold Missing
  rw [ahead_cons (Or.inr h)]
  constructor
  · rintro ⟨-,⟨_,hs,rfl,hnone⟩ | hahead⟩
    · obtain rfl := Part.name.inj hs
      rw [hsome] at hnone
      cases hnone
    · rcases hahead.isOpen with hnone | hdir
      · change d.node (start ++ [s]) = none at hnone
        rw [hsome] at hnone
        cases hnone
      · exact ⟨hdir,hahead⟩
  · rintro ⟨-,hahead⟩
    exact ⟨h,Or.inr hahead⟩

end making

/-- What is missing on the way becomes a directory, and everything else is as before. -/
theorem node_createDirAll (d : Disk C) (start : List String) (parts : List Part) (p : List String) :
    (d.Missing start parts p → (d.createDirAll start parts).node p = some .dir) ∧
      (¬d.Missing start parts p → (d.createDirAll start parts).node p = d.node p) := by
  induction parts generalizing d start with
  | nil => exact ⟨fun h => absurd h.2 not_ahead_nil,fun _ => rfl⟩
  | cons x parts ih =>
    by_cases hdir : d.node start = some .dir
    · cases x with
      | up =>
        rw [createDirAll_up hdir,missing_up hdir]
        exact ih d start.dropLast
      | name s =>
        cases hnode : d.node (start ++ [s]) with
        | none =>
          rw [createDirAll_new hdir hnode,missing_new hdir hnode]
          obtain ⟨hmade,hkept⟩ := ih (d.mkdir start s hdir) (start ++ [s])
          constructor
          · rintro (rfl | hmissing)
            · rw [hkept (fun hm => absurd hm.2.1 (by rw [node_mkdir_self]; exact Option.some_ne_none _)),node_mkdir_self]
            · exact hmade hmissing
          · intro hnot
            obtain ⟨hne,hmissing⟩ := not_or.mp hnot
            rw [hkept hmissing,node_mkdir_of_ne hne]
        | some node =>
          rw [createDirAll_old hdir hnode,missing_old hdir hnode]
          exact ih d (start ++ [s])
    · rw [createDirAll_of_ne hdir]
      exact ⟨fun h => absurd h.1 hdir,fun _ => rfl⟩

theorem not_missing_of_pathExists {d : Disk C} {start p : List String} {parts : List Part}
    (h : d.pathExists start parts = true) : ¬d.Missing start parts p := by
  induction parts generalizing start with
  | nil => exact fun hmissing => not_ahead_nil hmissing.2
  | cons x parts ih =>
    unfold pathExists at h
    split at h
    · rename_i hdir
      cases x with
      | up =>
        rw [missing_up hdir]
        exact ih h
      | name s =>
        cases hnode : d.node (start ++ [s]) with
        | none =>
          have hnone : d.pathExists (start ++ [s]) parts = false := by
            cases parts with
            | nil => rw [pathExists,hnode]
            | cons y parts => rw [pathExists,hnode]
          exact absurd (h.symm.trans hnone) (by decide)
        | some node =>
          rw [missing_old hdir hnode]
          exact ih h
    · cases h

/-- Along a path without steps up, below a directory that is there, only what is below it is missing. -/
theorem Missing.below {d : Disk C} {cwd p : List String} {base rel : Path} (h : d.Missing ((base.join rel).start cwd) (base.join rel).parts p)
    (hbase : Part.up ∉ base.parts) (hrel : rel.absolute = false) (hup : Part.up ∉ rel.parts)
    (hsome : (d.node (base.place cwd)).isSome = true) : base.place cwd <+: p := by
  obtain ⟨-,hnone,before,s,hway,hlead,-⟩ := h
  have hparts : (base.join rel).parts = base.parts ++ rel.parts := by
    unfold Path.join
    rw [hrel]
    rfl
  have hstart : (base.join rel).start cwd = base.start cwd := by
    unfold Path.join
    rw [hrel]
    rfl
  rw [hparts] at hway
  rw [hstart] at hlead
  rw [Path.place_eq] at hsome ⊢
  rcases List.prefix_or_prefix_of_prefix hway (List.prefix_append base.parts rel.parts) with hshort | ⟨rest,hrest⟩
  · obtain ⟨rest,hrest⟩ := hshort
    obtain ⟨names,rfl⟩ := Path.exists_names (fun hm => hbase (by rw [← hrest]; exact List.mem_append_right _ hm))
    rw [← hrest,lead_append,hlead,lead_names] at hsome
    by_cases hnames : names = []
    · rw [hnames,List.append_nil,hnone] at hsome
      cases hsome
    · rw [node_append_eq_none (by rw [hnone]; exact (Option.some_ne_none _).symm) hnames] at hsome
      cases hsome
  · rw [← hrest] at hway
    have hnames : Part.up ∉ rest := fun hm => hup (((List.prefix_append_right_inj _).mp hway).subset hm)
    obtain ⟨names,rfl⟩ := Path.exists_names hnames
    rw [← hlead,← hrest,lead_append,lead_names]
    exact List.prefix_append _ _

end Disk
end KubeAir.Paths
