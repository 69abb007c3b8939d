import Mathlib.Data.List.Induction
import Protoschema.Files.Disk
import Protoschema.Proofs.Paths
/-!
What writing files changes in a tree of files. A path leads to the same place on every disk on which
it leads anywhere. Writing a file into a directory that is there changes this file and no other, and
makes no directory; so what is read elsewhere stays, and so do all entries of a directory but the
new ones.
-/

namespace Protoschema.Disk

/-! ### Places -/

/-- The names that a path leads to where all directories on the way are there. -/
def placeOf (path : Path) : Names :=
  path.steps.foldl step []

theorem follow_eq_ok_iff {disk : Disk} {names next : Names} {component : Component} :
    disk.follow names component = .ok next ↔
      disk.hasDirectory names = true ∧ next = step names component := by
  unfold follow
  split
  next directory => simp [directory, eq_comm]
  next absent =>
    split <;> simp [absent]

theorem foldl_of_foldlM {disk : Disk} {steps : List Component} {names next : Names}
    (walked : steps.foldlM disk.follow names = .ok next) : next = steps.foldl step names := by
  induction steps generalizing names with
  | nil =>
    cases walked
    rfl
  | cons component rest induction =>
    rw [List.foldlM_cons] at walked
    cases first : disk.follow names component with
    | error error => simp [first, bind, Except.bind] at walked
    | ok middle =>
      obtain ⟨_, rfl⟩ := follow_eq_ok_iff.mp first
      rw [first] at walked
      exact induction walked

theorem placeOf_of_resolve {disk : Disk} {path : Path} {names : Names}
    (found : disk.resolve path = .ok names) : names = placeOf path := by
  unfold resolve at found
  split at found
  · cases found
  · exact foldl_of_foldlM found

theorem placeOf_join (directory : Path) {name : String} (named : Path.IsFileName name) :
    placeOf (directory.join name) = placeOf directory ++ [name] := by
  rw [placeOf, directory.steps_join named.slash, named.stepOf_eq, List.foldl_append]
  rfl

/-- What lies in a directory is reached through it. -/
theorem resolve_join {disk : Disk} {directory : Path} {home : Names}
    (found : disk.resolve directory = .ok home) (isDirectory : disk.hasDirectory home = true)
    {piece : String} (slash : '/' ∉ piece.toList) {component : Component}
    (walked : Path.stepOf piece = some component) :
    disk.resolve (directory.join piece) = .ok (step home component) := by
  unfold resolve at found ⊢
  split at found
  · cases found
  next written =>
    have joined : directory.join piece ≠ "" := by
      intro same
      have steps := directory.steps_join slash
      rw [same, walked] at steps
      have none : Path.steps "" = [] := rfl
      simp [none] at steps
    rw [if_neg joined, directory.steps_join slash, walked, List.foldlM_append, found]
    change List.foldlM disk.follow home [component] = _
    rw [List.foldlM_cons, follow_eq_ok_iff.mpr ⟨isDirectory, rfl⟩]
    rfl

/-! ### Directories -/

theorem leadsThrough_iff {names through : Names} :
    leadsThrough names through = true ↔ through <+: names ∧ through.length < names.length := by
  simp [leadsThrough]

theorem hasDirectory_iff {disk : Disk} {names : Names} :
    disk.hasDirectory names = true ↔
      areAbove names = true ∨ names ∈ disk.directories ∨
        ∃ other, (other ∈ disk.files.map Prod.fst ∨ other ∈ disk.directories) ∧
          names <+: other ∧ names.length < other.length := by
  simp only [hasDirectory, Bool.or_eq_true, List.contains_iff_mem, List.any_eq_true,
    List.mem_append, leadsThrough_iff, or_assoc]

theorem areAbove_of_start {names through : Names} (above : areAbove names = true)
    (start : through <+: names) : areAbove through = true := by
  unfold areAbove at above ⊢
  rw [Bool.or_eq_true, List.all_eq_true, beq_iff_eq] at above ⊢
  rcases above with ups | rfl
  · exact .inl fun name member => ups name (start.subset member)
  · rcases List.prefix_cons_iff.mp start with rfl | ⟨rest, rfl, empty⟩
    · simp
    · simp [List.prefix_nil.mp empty]

/-- What leads to a directory leads through directories. -/
theorem hasDirectory_of_start {disk : Disk} {names through : Names}
    (directory : disk.hasDirectory names = true) (start : through <+: names) :
    disk.hasDirectory through = true := by
  rw [hasDirectory_iff] at directory ⊢
  rcases directory with above | made | ⟨other, listed, onward, shorter⟩
  · exact .inl (areAbove_of_start above start)
  · -- a directory that was made is led through, unless it is this one
    by_cases same : through = names
    · exact .inr (.inl (same ▸ made))
    · have less : through.length < names.length :=
        Nat.lt_of_le_of_ne start.length_le fun length => same (start.eq_of_length length)
      exact .inr (.inr ⟨names, .inr made, start, less⟩)
  · have less := Nat.lt_of_le_of_lt start.length_le shorter
    exact .inr (.inr ⟨other, listed, start.trans onward, less⟩)

/-- The directory above a directory is there. -/
theorem hasDirectory_up {disk : Disk} {home : Names} (directory : disk.hasDirectory home = true) :
    disk.hasDirectory (step home .up) = true := by
  simp only [step]
  split
  · exact directory
  · split
    next noRoot above =>
      have ups : home.all (· == "..") = true := by
        simpa [areAbove, noRoot] using above
      have higher : areAbove (home ++ [".."]) = true := by
        simp only [areAbove, List.all_append, ups]
        rfl
      simp [hasDirectory, higher]
    · rw [List.dropLast_eq_take]
      exact hasDirectory_of_start directory (List.take_prefix _ home)

/-! ### One file -/

theorem lookup_replaced (files : List (Names × Content)) (names other : Names) (content : Content) :
    (files.map fun file => if file.1 = names then (names, content) else file).lookup other
      = if other = names then (files.lookup names).map fun _ => content
        else files.lookup other := by
  induction files with
  | nil => simp
  | cons file rest induction =>
    obtain ⟨first, old⟩ := file
    by_cases replaced : first = names
    · subst replaced
      by_cases asked : other = first
      · subst asked
        simp
      · simp [List.lookup_cons, beq_false_of_ne asked, asked, induction]
    · by_cases asked : other = names
      · subst asked
        simp [List.lookup_cons, beq_false_of_ne (Ne.symm replaced), replaced, induction]
      · simp [List.lookup_cons, replaced, asked, induction]

theorem file?_put (disk : Disk) (names other : Names) (content : Content) :
    (disk.put names content).file? other
      = if other = names then some content else disk.file? other := by
  unfold put
  split
  next present =>
    obtain ⟨old, found⟩ := Option.isSome_iff_exists.mp present
    unfold file? at found ⊢
    rw [lookup_replaced, found]
    rfl
  next absent =>
    have missing : disk.files.lookup names = none := Option.not_isSome_iff_eq_none.mp absent
    unfold file?
    rw [List.lookup_append]
    by_cases asked : other = names
    · subst asked
      simp [missing]
    · simp [List.lookup_cons, beq_false_of_ne asked, asked]

theorem directories_put (disk : Disk) (names : Names) (content : Content) :
    (disk.put names content).directories = disk.directories := by
  unfold put
  split <;> rfl

/-- A file that was there keeps its place in the list, and a new one comes last. -/
theorem exists_added_put (disk : Disk) (names : Names) (content : Content) :
    ∃ added ⊆ [names],
      (disk.put names content).files.map Prod.fst = disk.files.map Prod.fst ++ added := by
  unfold put
  split
  · refine ⟨[], by simp, ?_⟩
    simp only [List.map_map, List.append_nil]
    apply List.map_congr_left
    intro file _
    by_cases same : file.1 = names <;> simp [same]
  · exact ⟨[names], by simp, by simp⟩

/-! ### Some files -/

/-- The files under some names are written, and nothing else is done. -/
structure WritesOnly (written : List Names) (before after : Disk) : Prop where
  directories : after.directories = before.directories
  hasDirectory : ∀ names, after.hasDirectory names = before.hasDirectory names
  file? : ∀ names, names ∉ written → after.file? names = before.file? names
  added : ∃ added ⊆ written, after.files.map Prod.fst = before.files.map Prod.fst ++ added

namespace WritesOnly

theorem refl (disk : Disk) : WritesOnly [] disk disk :=
  ⟨rfl, fun _ => rfl, fun _ _ => rfl, [], by simp, by simp⟩

theorem trans {written written' : List Names} {first second third : Disk}
    (before : WritesOnly written first second) (after : WritesOnly written' second third) :
    WritesOnly (written ++ written') first third := by
  obtain ⟨added, within, listed⟩ := before.added
  obtain ⟨added', within', listed'⟩ := after.added
  refine ⟨after.directories.trans before.directories, ?_, ?_, added ++ added', ?_, ?_⟩
  · intro names
    rw [after.hasDirectory, before.hasDirectory]
  · intro names outside
    rw [List.mem_append, not_or] at outside
    rw [after.file? names outside.2, before.file? names outside.1]
  · exact List.append_subset.mpr ⟨List.subset_append_of_subset_left _ within,
      List.subset_append_of_subset_right _ within'⟩
  · rw [listed', listed, List.append_assoc]

/-- A file that is put into a directory makes no directory: all that lead to it are there. -/
theorem put {disk : Disk} {home : Names} (directory : disk.hasDirectory home = true)
    (name : String) (content : Content) :
    WritesOnly [home ++ [name]] disk (disk.put (home ++ [name]) content) := by
  obtain ⟨added, within, listed⟩ := disk.exists_added_put (home ++ [name]) content
  have kept := disk.directories_put (home ++ [name]) content
  refine ⟨kept, ?_, ?_, added, within, listed⟩
  · intro names
    rw [Bool.eq_iff_iff, hasDirectory_iff, kept, listed]
    constructor
    · rintro (above | made | ⟨other, place, start, shorter⟩)
      · exact hasDirectory_iff.mpr (.inl above)
      · exact hasDirectory_iff.mpr (.inr (.inl made))
      · rw [List.mem_append, or_assoc, or_left_comm] at place
        rcases place with new | old
        · obtain rfl : other = home ++ [name] := by simpa using within new
          rw [List.length_append, List.length_singleton] at shorter
          have inHome : names <+: home :=
            List.prefix_of_prefix_length_le start (List.prefix_append home [name]) (by omega)
          exact hasDirectory_of_start directory inHome
        · exact hasDirectory_iff.mpr (.inr (.inr ⟨other, old, start, shorter⟩))
    · intro there
      rcases hasDirectory_iff.mp there with above | made | ⟨other, place, start⟩
      · exact .inl above
      · exact .inr (.inl made)
      · exact .inr (.inr ⟨other, place.imp_left (List.mem_append_left _), start⟩)
  · intro names outside
    rw [file?_put, if_neg (by simpa using outside)]

section

variable {written : List Names} {before after : Disk} {path : Path} {names : Names}

theorem resolve (writes : WritesOnly written before after)
    (found : before.resolve path = .ok names) : after.resolve path = .ok names := by
  -- what is followed to the end was followed through directories, which are the same
  have walk (steps : List Component) (start : Names)
      (walked : steps.foldlM before.follow start = .ok names) :
      steps.foldlM after.follow start = .ok names := by
    induction steps generalizing start with
    | nil => exact walked
    | cons component rest induction =>
      rw [List.foldlM_cons] at walked ⊢
      cases first : before.follow start component with
      | error error => simp [first, bind, Except.bind] at walked
      | ok next =>
        obtain ⟨directory, rfl⟩ := follow_eq_ok_iff.mp first
        rw [← writes.hasDirectory] at directory
        rw [first] at walked
        rw [follow_eq_ok_iff.mpr ⟨directory, rfl⟩]
        exact induction _ walked
  unfold Disk.resolve at found ⊢
  split at found
  · cases found
  next some =>
    rw [if_neg some]
    exact walk _ _ found

theorem read (writes : WritesOnly written before after)
    (found : before.resolve path = .ok names) (outside : names ∉ written) :
    after.read path = before.read path := by
  unfold Disk.read
  rw [found, writes.resolve found]
  simp only [bind, Except.bind, writes.file? names outside, writes.hasDirectory]

theorem isThere (writes : WritesOnly written before after)
    (found : before.resolve path = .ok names) (outside : names ∉ written) :
    after.isThere path = before.isThere path := by
  unfold Disk.isThere
  rw [found, writes.resolve found]
  simp only [writes.file? names outside, writes.hasDirectory]

end

end WritesOnly

/-- Files with these texts are put under these names, one after the other. -/
def putAll (disk : Disk) (files : List (Names × String)) : Disk :=
  files.foldl (fun disk file => disk.put file.1 (.text file.2)) disk

theorem putAll_append_singleton (disk : Disk) (files : List (Names × String))
    (file : Names × String) :
    disk.putAll (files ++ [file]) = (disk.putAll files).put file.1 (.text file.2) := by
  simp [putAll]

theorem writesOnly_putAll {disk : Disk} {home : Names} (directory : disk.hasDirectory home = true)
    {files : List (Names × String)} (inside : ∀ file ∈ files, ∃ name, file.1 = home ++ [name]) :
    WritesOnly (files.map Prod.fst) disk (disk.putAll files) := by
  induction files generalizing disk with
  | nil => exact .refl disk
  | cons file rest induction =>
    obtain ⟨⟨name, place⟩, others⟩ := List.forall_mem_cons.mp inside
    have first := WritesOnly.put directory name (.text file.2)
    rw [← place] at first
    have there : (disk.put file.1 (.text file.2)).hasDirectory home = true := by
      rw [first.hasDirectory, directory]
    exact first.trans (induction there others)

/-- A file holds the text that was put there if no other was. -/
theorem file?_putAll {disk : Disk} {files : List (Names × String)} {names : Names} {text : String}
    (member : (names, text) ∈ files) (alone : ∀ other, (names, other) ∈ files → other = text) :
    (disk.putAll files).file? names = some (.text text) := by
  induction files using List.reverseRecOn with
  | nil => cases member
  | append_singleton files file induction =>
    obtain ⟨place, last⟩ := file
    rw [putAll_append_singleton, file?_put]
    split
    next same =>
      subst same
      rw [alone last (by simp)]
    next other =>
      have earlier : (names, text) ∈ files := by
        simpa [other] using member
      exact induction earlier fun text among => alone text (List.mem_append_left _ among)

/-! ### Entries of a directory -/

theorem filter_eraseDups (keep : String → Bool) (names : List String) :
    names.eraseDups.filter keep = (names.filter keep).eraseDups := by
  match names with
  | [] => rfl
  | name :: rest =>
    have tail := filter_eraseDups keep (rest.filter fun other => !other == name)
    rw [List.eraseDups_cons]
    by_cases kept : keep name = true
    · rw [List.filter_cons_of_pos kept, List.filter_cons_of_pos kept, List.eraseDups_cons, tail,
        List.filter_filter, List.filter_filter]
      simp only [Bool.and_comm]
    · -- a name that is not kept is none of those that are
      rw [List.filter_cons_of_neg kept, List.filter_cons_of_neg kept, tail, List.filter_filter]
      congr 1
      apply List.filter_congr
      intro other _
      by_cases same : other = name
      · simp [same, kept]
      · simp [same]
termination_by names.length
decreasing_by exact Nat.lt_succ_of_le (List.length_filter_le _ _)

/-- The entries of a directory that new files are not among stay as they are. -/
theorem WritesOnly.childrenOf {written : List Names} {before after : Disk}
    (writes : WritesOnly written before after) {home : Names} {keep : String → Bool}
    (others : ∀ names ∈ written, ∀ name, (names.drop home.length).head? = some name →
      keep name = false) :
    (after.childrenOf home).filter keep = (before.childrenOf home).filter keep := by
  obtain ⟨added, within, listed⟩ := writes.added
  unfold Disk.childrenOf
  rw [filter_eraseDups, filter_eraseDups, writes.directories, listed]
  congr 1
  simp only [List.filterMap_append, List.filter_append, List.append_assoc]
  congr 1
  -- what was added is filtered out
  refine List.append_left_eq_self.mpr (List.filter_eq_nil_iff.mpr fun name child => ?_)
  obtain ⟨names, new, entry⟩ := List.mem_filterMap.mp child
  split at entry
  · rw [others names (within new) name entry]
    simp
  · cases entry

end Protoschema.Disk
