import Protoschema.Golden
import Protoschema.Proofs.Disks
/-!
Blessing cases, and comparing with their expected texts afterwards. All that a case reads to be
compiled ends in `yaml`, and all that blessing writes ends in `proto`. So no case sees what another
one writes, the directory has the same cases before and after, and each expected text is that of one
case only.
-/

namespace Protoschema

/-- What every file system promises: no file is a directory too, and there are no slashes in the
names of files and directories; only the root is called by one. -/
structure Disk.IsTree (disk : Disk) : Prop where
  files : ∀ file ∈ disk.files, disk.hasDirectory file.1 = false
  names : ∀ names ∈ disk.files.map Prod.fst ++ disk.directories, ∀ name ∈ names,
    name = "/" ∨ '/' ∉ name.toList

theorem Disk.IsTree.file?_eq_none {disk : Disk} (tree : disk.IsTree) {names : Names}
    (directory : disk.hasDirectory names = true) : disk.file? names = none := by
  cases found : disk.file? names with
  | none => rfl
  | some content =>
    obtain ⟨before, after, listed, _⟩ := List.lookup_eq_some_iff.mp found
    have absent := tree.files (names, content) (by simp [listed])
    rw [directory] at absent
    cases absent

namespace Golden

/-! ### Places -/

/-- A name that a case can have: some text without a slash. -/
structure IsCaseName (name : String) : Prop where
  written : name ≠ ""
  slash : '/' ∉ name.toList

/-- The file of a case in a directory. -/
def casePath (directory : Path) (name : String) : Path :=
  directory.join (name ++ ".yaml")

/-- Where the file of a case is looked for under another extension. A dot in front of an extension
is read as the directory above. -/
def sideOf (home : Names) (name extension : String) : Names :=
  if name = "." then Disk.step home .up else home ++ [name ++ "." ++ extension]

/-- Names of files in a directory that expected texts can have. -/
def AreExpected (home : Names) (written : List Names) : Prop :=
  ∀ names ∈ written, ∃ name, names = home ++ [name ++ ".proto"]

theorem proto_injective {name other : String} (same : name ++ ".proto" = other ++ ".proto") :
    name = other := by
  have chars := congrArg String.toList same
  rw [String.toList_append, String.toList_append, List.append_left_inj] at chars
  exact String.toList_inj.mp chars

theorem AreExpected.yaml_notMem {home : Names} {written : List Names}
    (expected : AreExpected home written) (name : String) :
    home ++ [name ++ "yaml"] ∉ written := by
  intro member
  obtain ⟨other, same⟩ := expected _ member
  have files : name ++ "yaml" = other ++ ".proto" := by simpa using same
  -- the last characters differ
  have chars := congrArg (fun text => text.toList.getLast?) files
  simp at chars

theorem AreExpected.append {home : Names} {written others : List Names}
    (expected : AreExpected home written) (more : AreExpected home others) :
    AreExpected home (written ++ others) :=
  List.forall_mem_append.mpr ⟨expected, more⟩

theorem AreExpected.up_notMem {home : Names} {written : List Names}
    (expected : AreExpected home written) : Disk.step home .up ∉ written := by
  intro member
  obtain ⟨other, same⟩ := expected _ member
  have forms : Disk.step home .up = home ∨ Disk.step home .up = home ++ [".."] ∨
      Disk.step home .up = home.dropLast := by
    simp only [Disk.step]
    grind
  -- none of the three is a file in the directory
  rcases forms with stays | up | down
  · rw [stays] at same
    simp at same
  · rw [up] at same
    have files : ".." = other ++ ".proto" := by simpa using same
    have chars := congrArg (fun text => text.toList.getLast?) files
    simp at chars
  · rw [down] at same
    have length := congrArg List.length same
    simp at length

theorem AreExpected.options_notMem {home : Names} {written : List Names}
    (expected : AreExpected home written) (name : String) :
    sideOf home name "options.yaml" ∉ written := by
  unfold sideOf
  split
  · exact expected.up_notMem
  · have ending : "options.yaml" = "options." ++ "yaml" := rfl
    rw [ending, ← String.append_assoc]
    exact expected.yaml_notMem _

/-- A path leads to a directory. -/
structure IsHome (disk : Disk) (directory : Path) (home : Names) : Prop where
  resolve : disk.resolve directory = .ok home
  hasDirectory : disk.hasDirectory home = true

theorem IsHome.after {disk after : Disk} {directory : Path} {home : Names}
    (here : IsHome disk directory home) {written : List Names}
    (writes : Disk.WritesOnly written disk after) : IsHome after directory home :=
  ⟨writes.resolve here.resolve, (writes.hasDirectory home).trans here.hasDirectory⟩

/-- What is called like a file is looked for in the directory. -/
theorem IsHome.resolve_join {disk : Disk} {directory : Path} {home : Names}
    (here : IsHome disk directory home) {file : String} (named : Path.IsFileName file) :
    disk.resolve (directory.join file) = .ok (home ++ [file]) :=
  Disk.resolve_join here.resolve here.hasDirectory named.slash named.stepOf_eq

namespace IsCaseName

variable {name : String}

theorem isFileName (named : IsCaseName name) {extension : String}
    (written : extension ≠ "") (slash : '/' ∉ extension.toList) :
    Path.IsFileName (name ++ "." ++ extension) := by
  have some : 1 ≤ name.toList.length := by
    simpa [Nat.one_le_iff_ne_zero] using named.written
  have more : 1 ≤ extension.toList.length := by
    simpa [Nat.one_le_iff_ne_zero] using written
  apply Path.isFileName_of_length
  · simp only [String.toList_append, List.length_append]
    have dot : ".".toList.length = 1 := rfl
    omega
  · simp [named.slash, slash]

theorem yaml (named : IsCaseName name) : Path.IsFileName (name ++ ".yaml") := by
  have file : Path.IsFileName (name ++ "." ++ "yaml") := named.isFileName (by decide) (by decide)
  rwa [String.append_assoc] at file

theorem proto (named : IsCaseName name) : Path.IsFileName (name ++ ".proto") := by
  have file : Path.IsFileName (name ++ "." ++ "proto") := named.isFileName (by decide) (by decide)
  rwa [String.append_assoc] at file

theorem splitName_eq (named : IsCaseName name) : (Path.splitName (name ++ ".yaml")).1 = name := by
  have split : Path.splitName (name ++ "." ++ "yaml") = _ := Path.splitName_append (by decide)
  rw [String.append_assoc, if_neg named.written] at split
  exact congrArg Prod.fst split

end IsCaseName

section Cases

variable {disk : Disk} {directory : Path} {home : Names} {name : String}

theorem resolve_side (here : IsHome disk directory home) (named : IsCaseName name)
    {extension : String} (written : extension ≠ "") (slash : '/' ∉ extension.toList) :
    disk.resolve ((casePath directory name).withExtension extension)
      = .ok (sideOf home name extension) := by
  have stem := named.splitName_eq
  unfold casePath sideOf
  split
  next dot =>
    rw [directory.withExtension_join_dot named.yaml (stem.trans dot)]
    rw [← directory.join_eq (by decide)]
    exact Disk.resolve_join here.resolve here.hasDirectory (by decide) rfl
  next dot =>
    have file := named.isFileName written slash
    rw [directory.withExtension_join named.yaml (by rwa [stem]), stem]
    rw [← directory.join_eq file.slash]
    exact here.resolve_join file

/-- The files that a case is compiled from are none of those with expected texts. -/
theorem compileCase_eq (here : IsHome disk directory home) (named : IsCaseName name)
    {written : List Names} (expected : AreExpected home written) {after : Disk}
    (writes : Disk.WritesOnly written disk after) :
    compileCase after (casePath directory name) = compileCase disk (casePath directory name) := by
  have document : after.read (casePath directory name) = disk.read (casePath directory name) := by
    apply writes.read (here.resolve_join named.yaml)
    have ending : ".yaml" = "." ++ "yaml" := rfl
    rw [ending, ← String.append_assoc]
    exact expected.yaml_notMem _
  have options : disk.resolve ((casePath directory name).withExtension "options.yaml") = _ :=
    resolve_side here named (by decide) (by decide)
  have apart := expected.options_notMem name
  simp only [compileCase, caseOptions, Disk.loadOptions, Disk.loadDocument, Disk.load, document,
    writes.read options apart, writes.isThere options apart]

theorem resolve_expected (here : IsHome disk directory home) (named : IsCaseName name) :
    disk.resolve (expectedPath (casePath directory name)) = .ok (sideOf home name "proto") :=
  resolve_side here named (by decide) (by decide)

theorem namesDirectory_expected (directory : Path) (named : IsCaseName name) :
    Disk.namesDirectory (expectedPath (casePath directory name)) = false := by
  have stem := named.splitName_eq
  unfold expectedPath casePath Disk.namesDirectory
  by_cases dot : name = "."
  · rw [directory.withExtension_join_dot named.yaml (stem.trans dot)]
    simp
  · rw [directory.withExtension_join named.yaml (by rwa [stem])]
    simp

/-- An expected text is written unless there is a directory in its place. -/
theorem write_expected (here : IsHome disk directory home) (named : IsCaseName name)
    (text : String) :
    disk.write (expectedPath (casePath directory name)) text
      = if disk.hasDirectory (sideOf home name "proto") then .error .isDirectory
        else .ok (disk.put (sideOf home name "proto") (.text text)) := by
  simp only [Disk.write, resolve_expected here named, namesDirectory_expected directory named,
    Bool.or_false, bind, Except.bind]
  rfl

theorem expectedText_eq (here : IsHome disk directory home) (named : IsCaseName name) :
    expectedText disk (casePath directory name)
      = match disk.file? (sideOf home name "proto") with
        | some (.text text) => text
        | _ => "" := by
  simp only [expectedText, Disk.read, resolve_expected here named,
    namesDirectory_expected directory named, bind, Except.bind]
  cases disk.file? (sideOf home name "proto") with
  | none => cases disk.hasDirectory (sideOf home name "proto") <;> rfl
  | some content => cases content <;> rfl

end Cases

theorem text_ne_empty {disk : Disk} {path : Path} {text : String} {diagnostics : List String}
    (compiled : compileCase disk path = .ok (text, diagnostics)) : text ≠ "" := by
  unfold compileCase at compiled
  simp only [bind, Except.bind] at compiled
  split at compiled
  · cases compiled
  · split at compiled
    · cases compiled
    · split at compiled
      · cases compiled
      · cases compiled
        -- the line with the syntax comes first
        rintro empty
        have chars := congrArg (fun text => text.toList.head?) empty
        simp [Compilation.text, Proto.header, Proto.line] at chars

/-! ### One case -/

section Outcome

-- `delta`, not `unfold`: proving the equation of `runCase` evaluates the compiler

variable {disk : Disk} {path : Path} {text : String} {diagnostics : List String}

theorem runCase_of_error {error : String} (failed : compileCase disk path = .error error)
    (bless : Bool) :
    runCase bless disk path
      = ({ name := path.stem?.getD "", verdict := .error, error := some error }, disk) := by
  delta runCase
  simp only [failed]

theorem runCase_false_of_ok (compiled : compileCase disk path = .ok (text, diagnostics)) :
    runCase false disk path
      = ({ name := path.stem?.getD ""
           verdict := if expectedText disk path = text then .pass else .fail
           diagnostics }, disk) := by
  delta runCase
  simp only [compiled]
  rfl

theorem runCase_true_of_ok (compiled : compileCase disk path = .ok (text, diagnostics)) :
    runCase true disk path = match disk.write (expectedPath path) text with
      | .ok written => ({ name := path.stem?.getD "", verdict := .blessed, diagnostics }, written)
      | .error error =>
        ({ name := path.stem?.getD "", verdict := .error, diagnostics, error := some error.text },
          disk) := by
  delta runCase
  simp only [compiled]
  rfl

theorem name_runCase (bless : Bool) (disk : Disk) (path : Path) :
    (runCase bless disk path).1.name = path.stem?.getD "" := by
  cases compiled : compileCase disk path with
  | error error => rw [runCase_of_error compiled]
  | ok result =>
    cases bless with
    | false => rw [runCase_false_of_ok compiled]
    | true =>
      rw [runCase_true_of_ok compiled]
      cases disk.write (expectedPath path) result.1 <;> rfl

theorem disk_runCase_false (disk : Disk) (path : Path) : (runCase false disk path).2 = disk := by
  cases compiled : compileCase disk path with
  | error error => rw [runCase_of_error compiled]
  | ok result => rw [runCase_false_of_ok compiled]

end Outcome

/-! ### Blessing -/

/-- Where a case is blessed, and the text that is written there. -/
def blessing? (disk : Disk) (path : Path) : Option (Names × String) :=
  let place := Disk.placeOf (expectedPath path)
  if disk.hasDirectory place then none
  else (compileCase disk path).toOption.map fun result => (place, result.1)

/-- The expected texts that blessing writes. -/
def blessings (disk : Disk) (paths : List Path) : List (Names × String) :=
  paths.filterMap (blessing? disk)

theorem blessings_append (disk : Disk) (paths others : List Path) :
    blessings disk (paths ++ others) = blessings disk paths ++ blessings disk others :=
  List.filterMap_append

theorem blessings_singleton (disk : Disk) (path : Path) :
    blessings disk [path] = (blessing? disk path).toList := by
  cases blessed : blessing? disk path <;> simp [blessings, blessed]

/-- Paths of cases in a directory. -/
def AreCases (directory : Path) (paths : List Path) : Prop :=
  ∀ path ∈ paths, ∃ name, IsCaseName name ∧ path = casePath directory name

section Blessing

variable {disk : Disk} {directory : Path} {home : Names} {name : String} {paths : List Path}
  {names : Names} {text : String}

theorem placeOf_expected (here : IsHome disk directory home) (named : IsCaseName name) :
    Disk.placeOf (expectedPath (casePath directory name)) = sideOf home name "proto" :=
  (Disk.placeOf_of_resolve (resolve_expected here named)).symm

theorem sideOf_proto (here : IsHome disk directory home)
    (absent : disk.hasDirectory (sideOf home name "proto") = false) :
    sideOf home name "proto" = home ++ [name ++ ".proto"] := by
  by_cases dot : name = "."
  · rw [sideOf, if_pos dot, Disk.hasDirectory_up here.hasDirectory] at absent
    cases absent
  · rw [sideOf, if_neg dot, String.append_assoc]
    rfl

theorem blessing?_of_ok (here : IsHome disk directory home) (named : IsCaseName name)
    {diagnostics : List String}
    (compiled : compileCase disk (casePath directory name) = .ok (text, diagnostics)) :
    blessing? disk (casePath directory name)
      = if disk.hasDirectory (sideOf home name "proto") then none
        else some (sideOf home name "proto", text) := by
  simp [blessing?, placeOf_expected here named, compiled, Except.toOption]

theorem blessing?_of_error {path : Path} {error : String}
    (failed : compileCase disk path = .error error) : blessing? disk path = none := by
  simp [blessing?, failed, Except.toOption]

theorem of_blessing? (here : IsHome disk directory home) (named : IsCaseName name)
    (blessed : blessing? disk (casePath directory name) = some (names, text)) :
    names = home ++ [name ++ ".proto"] ∧ disk.hasDirectory names = false ∧
      (runCase true disk (casePath directory name)).1.verdict = .blessed := by
  cases compiled : compileCase disk (casePath directory name) with
  | error error =>
    rw [blessing?_of_error compiled] at blessed
    cases blessed
  | ok result =>
    rw [blessing?_of_ok here named compiled] at blessed
    cases taken : disk.hasDirectory (sideOf home name "proto") with
    | true => simp [taken] at blessed
    | false =>
      simp only [taken, Bool.false_eq_true, if_false] at blessed
      cases blessed
      refine ⟨sideOf_proto here taken, taken, ?_⟩
      simp [runCase_true_of_ok compiled, write_expected here named, taken]

theorem exists_of_mem_blessings (cases : AreCases directory paths)
    (member : (names, text) ∈ blessings disk paths) :
    ∃ name, IsCaseName name ∧ casePath directory name ∈ paths ∧
      blessing? disk (casePath directory name) = some (names, text) := by
  obtain ⟨path, among, blessed⟩ := List.mem_filterMap.mp member
  obtain ⟨name, named, rfl⟩ := cases path among
  exact ⟨name, named, among, blessed⟩

theorem areExpected_blessings (here : IsHome disk directory home)
    (cases : AreCases directory paths) :
    AreExpected home ((blessings disk paths).map Prod.fst) := by
  intro names member
  obtain ⟨⟨_, text⟩, among, rfl⟩ := List.mem_map.mp member
  obtain ⟨name, named, _, blessed⟩ := exists_of_mem_blessings cases among
  exact ⟨name, (of_blessing? here named blessed).1⟩

theorem AreExpected.writesOnly (here : IsHome disk directory home) {files : List (Names × String)}
    (expected : AreExpected home (files.map Prod.fst)) :
    Disk.WritesOnly (files.map Prod.fst) disk (disk.putAll files) := by
  apply Disk.writesOnly_putAll here.hasDirectory
  intro file member
  obtain ⟨name, place⟩ := expected file.1 (List.mem_map_of_mem member)
  exact ⟨_, place⟩

/-- Blessing a case gives the same report whatever was blessed before. -/
theorem runCase_bless (here : IsHome disk directory home) (named : IsCaseName name)
    {files : List (Names × String)} (expected : AreExpected home (files.map Prod.fst)) :
    runCase true (disk.putAll files) (casePath directory name)
      = ((runCase true disk (casePath directory name)).1,
        disk.putAll (files ++ blessings disk [casePath directory name])) := by
  have writes := expected.writesOnly here
  have same := compileCase_eq here named expected writes
  rw [blessings_singleton]
  cases compiled : compileCase disk (casePath directory name) with
  | error error =>
    rw [runCase_of_error (same.trans compiled), runCase_of_error compiled,
      blessing?_of_error compiled]
    simp
  | ok result =>
    rw [runCase_true_of_ok (same.trans compiled), runCase_true_of_ok compiled,
      write_expected here named, write_expected (here.after writes) named, writes.hasDirectory,
      blessing?_of_ok here named compiled]
    cases disk.hasDirectory (sideOf home name "proto") with
    | true => simp
    | false => simp [Disk.putAll_append_singleton]

/-- Blessing cases one after the other blesses each as if it were the only one. -/
theorem runCases_bless (here : IsHome disk directory home) (cases : AreCases directory paths)
    {files : List (Names × String)} (expected : AreExpected home (files.map Prod.fst)) :
    runCases true (disk.putAll files) paths
      = (paths.map fun path => (runCase true disk path).1,
        disk.putAll (files ++ blessings disk paths)) := by
  induction paths generalizing files with
  | nil => simp [runCases, blessings]
  | cons path rest induction =>
    obtain ⟨⟨name, named, rfl⟩, others⟩ := List.forall_mem_cons.mp cases
    have now : AreCases directory [casePath directory name] := by
      simpa [AreCases] using ⟨name, named, rfl⟩
    have next := expected.append (areExpected_blessings here now)
    rw [← List.map_append] at next
    rw [runCases, runCase_bless here named expected]
    simp only [induction others next, List.map_cons, List.append_assoc]
    rw [← blessings_append, List.singleton_append]

end Blessing

/-! ### Comparing -/

theorem runCases_compare (disk : Disk) (paths : List Path) :
    runCases false disk paths = (paths.map fun path => (runCase false disk path).1, disk) := by
  induction paths with
  | nil => rfl
  | cons path rest induction => simp only [runCases, disk_runCase_false, induction, List.map_cons]

section Comparing

variable {disk : Disk} {directory : Path} {home : Names} {paths : List Path}

/-- A blessed text is found where it is expected: no other case writes there. -/
theorem file?_blessings (here : IsHome disk directory home) (cases : AreCases directory paths)
    {names : Names} {text : String} (member : (names, text) ∈ blessings disk paths) :
    (disk.putAll (blessings disk paths)).file? names = some (.text text) := by
  apply Disk.file?_putAll member
  intro other also
  obtain ⟨name, named, _, blessed⟩ := exists_of_mem_blessings cases member
  obtain ⟨name', named', _, blessed'⟩ := exists_of_mem_blessings cases also
  have place := (of_blessing? here named blessed).1
  have place' := (of_blessing? here named' blessed').1
  -- files with one name are of one case, and a case has one text
  have files : name ++ ".proto" = name' ++ ".proto" := by simpa using place.symm.trans place'
  obtain rfl := proto_injective files
  cases blessed.symm.trans blessed'
  rfl

theorem compileCase_blessed (here : IsHome disk directory home) (cases : AreCases directory paths)
    {path : Path} (member : path ∈ paths) :
    compileCase (disk.putAll (blessings disk paths)) path = compileCase disk path := by
  obtain ⟨name, named, rfl⟩ := cases path member
  have expected := areExpected_blessings here cases
  exact compileCase_eq here named expected (expected.writesOnly here)

/-- After blessing, exactly the blessed cases have the texts that they compile to. -/
theorem pass_iff_blessed (tree : disk.IsTree) (here : IsHome disk directory home)
    (cases : AreCases directory paths) {path : Path} (member : path ∈ paths) :
    (runCase false (disk.putAll (blessings disk paths)) path).1.verdict = .pass ↔
      (runCase true disk path).1.verdict = .blessed := by
  have same := compileCase_blessed here cases member
  have writes := (areExpected_blessings here cases).writesOnly here
  obtain ⟨name, named, rfl⟩ := cases path member
  cases compiled : compileCase disk (casePath directory name) with
  | error error =>
    rw [runCase_of_error (same.trans compiled), runCase_of_error compiled]
    simp
  | ok result =>
    obtain ⟨text, diagnostics⟩ := result
    have some := text_ne_empty compiled
    rw [runCase_false_of_ok (same.trans compiled), runCase_true_of_ok compiled,
      write_expected here named, expectedText_eq (here.after writes) named]
    cases taken : disk.hasDirectory (sideOf home name "proto") with
    | true =>
      -- a directory is never written over, and nothing is read from it
      have outside : sideOf home name "proto" ∉ (blessings disk paths).map Prod.fst := by
        intro written
        obtain ⟨file, among, place⟩ := List.mem_map.mp written
        obtain ⟨_, named', _, blessed⟩ := exists_of_mem_blessings cases among
        have absent := (of_blessing? here named' blessed).2.1
        rw [place, taken] at absent
        cases absent
      rw [writes.file? _ outside, tree.file?_eq_none taken]
      simp [some.symm]
    | false =>
      have blessed : blessing? disk (casePath directory name)
          = .some (sideOf home name "proto", text) := by
        simp [blessing?_of_ok here named compiled, taken]
      rw [file?_blessings here cases (List.mem_filterMap.mpr ⟨_, member, blessed⟩)]
      simp

end Comparing

/-! ### Cases of a directory -/

theorem exists_of_isCase {filter : Option Regular} {file : String}
    (picked : isCase filter file = true) : ∃ name, file = name ++ ".yaml" := by
  simp only [isCase, Bool.and_eq_true] at picked
  have ending := picked.1.1
  rw [String.endsWith_eq_endsWith_toSlice, String.Slice.endsWith_string_iff] at ending
  obtain ⟨front, chars⟩ := ending
  refine ⟨String.ofList front, ?_⟩
  apply String.toList_inj.mp
  rw [String.toList_append, String.toList_ofList, chars]
  simp

theorem isCase_proto (filter : Option Regular) (name : String) :
    isCase filter (name ++ ".proto") = false := by
  rw [← Bool.not_eq_true]
  intro picked
  obtain ⟨other, same⟩ := exists_of_isCase picked
  have chars := congrArg (fun text => text.toList.getLast?) same
  simp at chars

theorem exists_of_mem_childrenOf {disk : Disk} {home : Names} {name : String}
    (member : name ∈ disk.childrenOf home) :
    ∃ names ∈ disk.files.map Prod.fst ++ disk.directories, name ∈ names := by
  rw [Disk.childrenOf, List.mem_eraseDups] at member
  obtain ⟨names, listed, found⟩ := List.mem_filterMap.mp member
  split at found
  · exact ⟨names, listed, List.mem_of_mem_drop (List.mem_of_head? found)⟩
  · cases found

/-- The cases that are run: none if the directory cannot be listed. -/
def casesOf (disk : Disk) (settings : Settings) : List Path :=
  (cases disk settings).toOption.getD []

section Listing

variable {disk : Disk} {settings : Settings} {home : Names}

theorem IsHome.list_eq {directory : Path} (here : IsHome disk directory home) :
    disk.list directory = .ok (disk.childrenOf home) := by
  simp only [Disk.list, here.resolve, here.hasDirectory, bind, Except.bind]
  rfl

theorem IsHome.casesOf_eq (here : IsHome disk settings.directory home) :
    casesOf disk settings = Glob.sorted
      (((disk.childrenOf home).filter (isCase settings.filter)).map settings.directory.join) := by
  rw [casesOf, cases, here.list_eq]
  rfl

theorem IsHome.mem_casesOf_iff (here : IsHome disk settings.directory home) {path : Path} :
    path ∈ casesOf disk settings ↔
      ∃ file ∈ disk.childrenOf home, isCase settings.filter file = true ∧
        settings.directory.join file = path := by
  simp [here.casesOf_eq, Glob.sorted, List.mem_mergeSort, and_assoc]

theorem casesOf_eq_nil_or_isHome (disk : Disk) (settings : Settings) :
    casesOf disk settings = [] ∨ ∃ home, IsHome disk settings.directory home := by
  cases resolved : disk.resolve settings.directory with
  | error error => simp [casesOf, cases, Disk.list, resolved, bind, Except.bind, Except.toOption]
  | ok home =>
    by_cases there : disk.hasDirectory home = true
    · exact .inr ⟨home, resolved, there⟩
    · left
      simp only [casesOf, cases, Disk.list, resolved, bind, Except.bind, if_neg there]
      cases (disk.file? home).isSome <;> rfl

theorem IsHome.areCases (here : IsHome disk settings.directory home) (tree : disk.IsTree)
    (named : ∀ names, disk.list settings.directory = .ok names → ".yaml" ∉ names) :
    AreCases settings.directory (casesOf disk settings) := by
  intro path member
  obtain ⟨file, child, picked, rfl⟩ := here.mem_casesOf_iff.mp member
  obtain ⟨name, rfl⟩ := exists_of_isCase picked
  refine ⟨name, ⟨?_, ?_⟩, rfl⟩
  · rintro rfl
    exact named _ here.list_eq child
  · obtain ⟨names, listed, within⟩ := exists_of_mem_childrenOf child
    rcases tree.names names listed _ within with root | slash
    · have chars := congrArg (fun text => text.toList.getLast?) root
      simp at chars
    · intro inside
      apply slash
      simp [inside]

/-- Expected texts are no cases. -/
theorem IsHome.casesOf_after (here : IsHome disk settings.directory home) {written : List Names}
    (expected : AreExpected home written) {after : Disk}
    (writes : Disk.WritesOnly written disk after) :
    casesOf after settings = casesOf disk settings := by
  rw [here.casesOf_eq, (here.after writes).casesOf_eq, writes.childrenOf]
  intro names member name child
  obtain ⟨other, rfl⟩ := expected names member
  simp only [List.drop_left, List.head?_cons, Option.some.injEq] at child
  rw [← child, isCase_proto]

end Listing

/-! ### Blessing, then comparing -/

section Twice

variable {disk : Disk} {settings : Settings}

theorem run_silent (silent : settings.report = none) :
    (run disk settings).reports = (runCases settings.bless disk (casesOf disk settings)).1 ∧
      (run disk settings).disk = (runCases settings.bless disk (casesOf disk settings)).2 := by
  cases found : cases disk settings with
  | error error => simp [run, casesOf, found, runCases, Except.toOption]
  | ok paths => simp [run, casesOf, found, writeReport, silent, Except.toOption]

theorem run_compare (disk : Disk) (settings : Settings) :
    (run disk { settings with bless := false, report := none }).reports
        = (casesOf disk settings).map (fun path => (runCase false disk path).1) ∧
      (run disk { settings with bless := false, report := none }).disk = disk := by
  have ran : (run disk { settings with bless := false, report := none }).reports
        = (runCases false disk (casesOf disk settings)).1 ∧
      (run disk { settings with bless := false, report := none }).disk
        = (runCases false disk (casesOf disk settings)).2 := run_silent rfl
  rw [runCases_compare] at ran
  exact ran

variable (tree : disk.IsTree)
  (named : ∀ names, disk.list settings.directory = .ok names → ".yaml" ∉ names)

include tree named

theorem run_bless :
    (run disk { settings with bless := true, report := none }).reports
        = (casesOf disk settings).map (fun path => (runCase true disk path).1) ∧
      (run disk { settings with bless := true, report := none }).disk
        = disk.putAll (blessings disk (casesOf disk settings)) := by
  have ran : (run disk { settings with bless := true, report := none }).reports
        = (runCases true disk (casesOf disk settings)).1 ∧
      (run disk { settings with bless := true, report := none }).disk
        = (runCases true disk (casesOf disk settings)).2 := run_silent rfl
  rcases casesOf_eq_nil_or_isHome disk settings with none | ⟨home, here⟩
  · rw [none] at ran ⊢
    exact ran
  · have blessed : runCases true (disk.putAll []) (casesOf disk settings) = _ :=
      runCases_bless here (here.areCases tree named) (by simp [AreExpected])
    change runCases true disk (casesOf disk settings) = _ at blessed
    rw [blessed] at ran
    exact ran

theorem casesOf_blessed :
    casesOf (disk.putAll (blessings disk (casesOf disk settings))) settings
      = casesOf disk settings := by
  rcases casesOf_eq_nil_or_isHome disk settings with none | ⟨home, here⟩
  · rw [none]
    exact none
  · have expected := areExpected_blessings here (here.areCases tree named)
    exact here.casesOf_after expected (expected.writesOnly here)

end Twice

/-- Where no case is without a name, comparing after blessing passes exactly the cases that were
blessed. A case that cannot be compiled is reported in the same way both times. Comparing changes
nothing, and blessing nothing but the expected texts of the blessed cases. -/
theorem bless_then_compare (disk : Disk) (tree : disk.IsTree) (settings : Settings)
    (named : ∀ names, disk.list settings.directory = .ok names → ".yaml" ∉ names) :
    let blessing := run disk { settings with bless := true, report := none }
    let comparing := run blessing.disk { settings with bless := false, report := none }
    let paths := casesOf disk settings
    let first path := (runCase true disk path).1
    let second path := (runCase false blessing.disk path).1
    blessing.reports = paths.map first ∧ comparing.reports = paths.map second ∧
      (∀ path ∈ paths, (second path).name = (first path).name ∧
        ((second path).verdict = .pass ↔ (first path).verdict = .blessed) ∧
        ∀ error, compileCase disk path = .error error →
          second path = first path ∧ (second path).verdict = .error ∧
            (second path).error = some error) ∧
      comparing.disk = blessing.disk ∧
      blessing.disk.directories = disk.directories ∧
      ∀ names, blessing.disk.file? names ≠ disk.file? names →
        ∃ name, casePath settings.directory name ∈ paths ∧
          (first (casePath settings.directory name)).verdict = .blessed ∧
          disk.resolve (settings.directory.join (name ++ ".proto")) = .ok names := by
  intro blessing comparing paths first second
  obtain ⟨reports, after⟩ := run_bless tree named
  obtain ⟨reports', unchanged⟩ := run_compare blessing.disk settings
  have again : casesOf blessing.disk settings = paths := after ▸ casesOf_blessed tree named
  rw [again] at reports'
  change blessing.disk = disk.putAll (blessings disk paths) at after
  refine ⟨reports, reports', ?_, unchanged, ?_⟩
  · intro path member
    rcases casesOf_eq_nil_or_isHome disk settings with none | ⟨home, here⟩
    · simp [paths, none] at member
    have cases := here.areCases tree named
    have same := compileCase_blessed here cases member
    simp only [first, second, after]
    refine ⟨by rw [name_runCase, name_runCase], pass_iff_blessed tree here cases member, ?_⟩
    intro error failed
    rw [runCase_of_error failed, runCase_of_error (same.trans failed)]
    exact ⟨rfl, rfl, rfl⟩
  · rw [after]
    rcases casesOf_eq_nil_or_isHome disk settings with none | ⟨home, here⟩
    · simp [paths, none, blessings, Disk.putAll]
    have cases := here.areCases tree named
    have writes := (areExpected_blessings here cases).writesOnly here
    refine ⟨writes.directories, ?_⟩
    intro names changed
    have written : names ∈ (blessings disk paths).map Prod.fst := by
      by_contra outside
      exact changed (writes.file? names outside)
    obtain ⟨⟨_, text⟩, among, rfl⟩ := List.mem_map.mp written
    obtain ⟨name, named, listed, blessed⟩ := exists_of_mem_blessings cases among
    obtain ⟨place, _, verdict⟩ := of_blessing? here named blessed
    refine ⟨name, listed, verdict, ?_⟩
    rw [place]
    exact here.resolve_join named.proto

/-- Two cases with several dots in their names, one of them with an old expected text; a case that
is no text; and a case with a directory in the place of its expected text. -/
def fixtures : Disk where
  files := [
    (["f", "api.v1.yaml"], .text "{}"),
    (["f", "api.v1.proto"], .text "old"),
    (["f", "api.v2.yaml"], .text "{}"),
    (["f", "raw.yaml"], .octets [255]),
    (["f", "shut.yaml"], .text "{}")]
  directories := [["f", "shut.proto"]]

theorem mem_casesOf_fixtures {file : String}
    (member : file ∈ ["api.v1.yaml", "api.v2.yaml", "raw.yaml", "shut.yaml"]) :
    "f/" ++ file ∈ casesOf fixtures { directory := "f" } := by
  have here : IsHome fixtures "f" ["f"] := ⟨by decide +kernel, by decide +kernel⟩
  have children : ∀ file ∈ ["api.v1.yaml", "api.v2.yaml", "raw.yaml", "shut.yaml"],
      file ∈ fixtures.childrenOf ["f"] ∧ isCase none file = true ∧
        Path.join "f" file = "f/" ++ file := by
    decide +kernel
  obtain ⟨child, picked, path⟩ := children file member
  exact here.mem_casesOf_iff.mpr ⟨file, child, picked, path⟩

theorem bless_then_compare_fixtures :
    let settings : Settings := { directory := "f" }
    let after := (run fixtures { settings with bless := true, report := none }).disk
    fixtures.IsTree ∧
      (∀ names, fixtures.list settings.directory = .ok names → ".yaml" ∉ names) ∧
      (runCase false after "f/api.v1.yaml").1.verdict = .pass ∧
      (runCase false after "f/api.v2.yaml").1.verdict = .pass ∧
      (runCase false after "f/raw.yaml").1 = (runCase true fixtures "f/raw.yaml").1 ∧
      (runCase false after "f/shut.yaml").1.verdict ≠ .pass := by
  intro settings after
  have tree : fixtures.IsTree := ⟨by decide +kernel, by decide +kernel⟩
  have named : ∀ names, fixtures.list settings.directory = .ok names → ".yaml" ∉ names := by
    have listed : fixtures.list "f" = .ok ["api.v1.yaml", "api.v1.proto", "api.v2.yaml", "raw.yaml",
      "shut.yaml", "shut.proto"] := by decide +kernel
    intro names found
    cases listed.symm.trans found
    decide
  obtain ⟨_, _, each, _⟩ := bless_then_compare fixtures tree settings named
  have outcome (file : String)
      (member : file ∈ ["api.v1.yaml", "api.v2.yaml", "raw.yaml", "shut.yaml"]) :=
    (each _ (mem_casesOf_fixtures member)).2
  refine ⟨tree, named, ?_, ?_, ?_, ?_⟩
  · exact (outcome "api.v1.yaml" (by simp)).1.mpr (by decide +kernel)
  · exact (outcome "api.v2.yaml" (by simp)).1.mpr (by decide +kernel)
  · have failed : compileCase fixtures "f/raw.yaml"
        = .error "cannot read f/raw.yaml: stream did not contain valid UTF-8" := by decide +kernel
    exact ((outcome "raw.yaml" (by simp)).2 _ failed).1
  · intro pass
    have blessed := (outcome "shut.yaml" (by simp)).1.mp pass
    revert blessed
    decide +kernel

end Golden

end Protoschema
