import Protoschema.Proofs.Modes
/-!
A run of the writing command writes all or nothing, up to the point where it starts to write.
Settings and patterns are looked up, all inputs are loaded and compiled and the targets are told
apart before the first text is printed or written. So whatever is wrong with one of these, and
wherever among the inputs it is, the run ends with nothing printed and all files as they were; and
if nothing is wrong with them the run gets to the point where it writes.
-/

namespace Protoschema

namespace Command

/-! ### Inputs -/

/-- The paths that an input stands for: the matches of a pattern, and else the input itself. -/
def pathsOf (disk : Disk) (input : String) : List Path :=
  if Glob.isPattern input then (Glob.expand disk input).toOption.getD [] else [input]

/-- The paths of all inputs, in order. -/
def Settings.paths (settings : Settings) (disk : Disk) : List Path :=
  settings.inputs.flatMap (pathsOf disk)

theorem pathsOf_of_inputPaths {disk : Disk} {input : String} {paths : List Path}
    (found : inputPaths disk input = .ok paths) : paths = pathsOf disk input := by
  unfold inputPaths at found
  unfold pathsOf
  split at found
  next pattern =>
    rw [if_pos pattern]
    split at found
    · cases found
    · cases found
    next matched =>
      cases found
      rw [matched]
      rfl
  next literal =>
    cases found
    rw [if_neg literal]

theorem path_of_compileFile {disk : Disk} {options : Options} {path : Path} {compiled : Compiled}
    (found : compileFile disk options path = .ok compiled) : compiled.path = path := by
  unfold compileFile at found
  split at found
  · cases found
  · split at found
    · cases found
    · cases found
      rfl

theorem paths_of_compileAll {disk : Disk} {settings : Settings} {compiled : List Compiled}
    (done : compileAll disk settings = .ok compiled) :
    compiled.map Compiled.path = settings.paths disk := by
  unfold compileAll at done
  cases found : loadOptions disk settings with
  | error failure => simp [found, bind, Except.bind] at done
  | ok options =>
    cases expanded : settings.inputs.mapM (inputPaths disk) with
    | error failure => simp [found, expanded, bind, Except.bind] at done
    | ok paths =>
      simp only [found, expanded, bind, Except.bind] at done
      -- inputs give their paths, and files keep them
      have inputs : paths.map id = settings.inputs.map (pathsOf disk) :=
        map_of_mapM (fun _ _ => pathsOf_of_inputPaths) expanded
      have files : compiled.map Compiled.path = paths.flatten.map id :=
        map_of_mapM (fun _ _ => path_of_compileFile) done
      rw [files, List.map_id, Settings.paths, List.flatMap_def, ← inputs, List.map_id]

theorem exists_compileAll_iff {disk : Disk} {settings : Settings} :
    (∃ compiled, compileAll disk settings = .ok compiled) ↔
      ∃ options, loadOptions disk settings = .ok options ∧
        (∀ input ∈ settings.inputs, ∃ paths, inputPaths disk input = .ok paths) ∧
        ∀ path ∈ settings.paths disk, ∃ compiled, compileFile disk options path = .ok compiled := by
  have each {α β : Type} (f : α → Except Failure β) (items : List α) :
      (∃ values, items.mapM f = .ok values) ↔ ∀ item ∈ items, ∃ value, f item = .ok value := by
    simpa using @exists_mapM_iff _ _ _ f items (fun _ => True)
  unfold compileAll
  cases loadOptions disk settings with
  | error failure => simp [bind, Except.bind]
  | ok options =>
    -- the patterns come before the files, which are those that the patterns give
    rw [← each]
    cases expanded : settings.inputs.mapM (inputPaths disk) with
    | error failure => simp [bind, Except.bind]
    | ok paths =>
      have inputs : paths.map id = settings.inputs.map (pathsOf disk) :=
        map_of_mapM (fun _ _ => pathsOf_of_inputPaths) expanded
      have all : paths.flatten = settings.paths disk := by
        rw [Settings.paths, List.flatMap_def, ← inputs, List.map_id]
      simp [bind, Except.bind, all, each]

/-! ### Targets -/

theorem addTarget_eq_ok_iff {directory input : Path} {taken result : List (Path × Path)} :
    addTarget directory taken input = .ok result ↔
      result = taken ++ [(targetIn directory input, input)] ∧
        (targetIn directory input).components ∉ taken.map fun entry => entry.1.components := by
  unfold addTarget
  dsimp only
  split
  next out first found =>
    have same := List.find?_some found
    have listed : (targetIn directory input).components
        ∈ taken.map fun entry => entry.1.components := by
      rw [List.mem_map]
      exact ⟨(out, first), List.mem_of_find?_eq_some found, of_decide_eq_true same⟩
    simp only [reduceCtorEq, false_iff, not_and, not_not]
    exact fun _ => listed
  next free =>
    rw [List.find?_eq_none] at free
    have new : (targetIn directory input).components
        ∉ taken.map fun entry => entry.1.components := by
      rw [List.mem_map]
      rintro ⟨entry, member, same⟩
      exact free entry member (decide_eq_true same)
    simp only [Except.ok.injEq, new, not_false_eq_true, and_true, eq_comm]

theorem foldlM_addTarget_eq_ok_iff {directory : Path} {inputs : List Path}
    {taken result : List (Path × Path)}
    (distinct : (taken.map fun entry => entry.1.components).Nodup) :
    inputs.foldlM (addTarget directory) taken = .ok result ↔
      result = taken ++ inputs.map (fun input => (targetIn directory input, input)) ∧
        (result.map fun entry => entry.1.components).Nodup := by
  -- what has been taken stays in front, so that the files after each step are a lead of all files
  induction inputs generalizing taken with
  | nil =>
    simp only [List.foldlM_nil, pure, Except.pure, Except.ok.injEq, List.map_nil, List.append_nil]
    exact ⟨fun same => ⟨same.symm, same ▸ distinct⟩, fun same => same.1.symm⟩
  | cons input rest induction =>
    rw [List.foldlM_cons]
    cases added : addTarget directory taken input with
    | error failure =>
      -- refused, so its target is among those before it
      simp only [bind, Except.bind, reduceCtorEq, false_iff]
      rintro ⟨rfl, all⟩
      have new : (targetIn directory input).components
          ∉ taken.map fun entry => entry.1.components := by
        simp only [List.map_append, List.map_cons, List.nodup_middle, List.nodup_cons,
          List.mem_append, not_or] at all
        exact all.1.1
      have accepted : addTarget directory taken input
          = .ok (taken ++ [(targetIn directory input, input)]) := addTarget_eq_ok_iff.mpr ⟨rfl, new⟩
      rw [added] at accepted
      cases accepted
    | ok next =>
      obtain ⟨rfl, new⟩ := addTarget_eq_ok_iff.mp added
      change rest.foldlM (addTarget directory) _ = .ok result ↔ _
      rw [induction]
      · rw [List.append_assoc, List.map_cons, List.singleton_append]
      · simp only [List.map_append, List.map_cons, List.map_nil, List.nodup_middle,
          List.append_nil, List.nodup_cons]
        exact ⟨new, distinct⟩

theorem targetsIn_eq_ok_iff {directory : Path} {inputs paths : List Path} :
    targetsIn directory inputs = .ok paths ↔
      paths = inputs.map (targetIn directory) ∧
        (inputs.map fun input => (targetIn directory input).components).Nodup := by
  have all (result : List (Path × Path)) := @foldlM_addTarget_eq_ok_iff directory inputs [] result
    List.nodup_nil
  have files : ((inputs.map fun input => (targetIn directory input, input)).map
      fun entry => entry.1.components)
        = inputs.map fun input => (targetIn directory input).components := by
    rw [List.map_map, Function.comp_def]
  unfold targetsIn
  cases added : inputs.foldlM (addTarget directory) [] with
  | error failure =>
    simp only [bind, Except.bind, reduceCtorEq, false_iff]
    rintro ⟨_, distinct⟩
    have accepted := (all _).mpr ⟨rfl, files.symm ▸ distinct⟩
    rw [added] at accepted
    cases accepted
  | ok taken =>
    obtain ⟨rfl, distinct⟩ := (all taken).mp added
    rw [List.nil_append, files] at distinct
    simp only [bind, Except.bind, pure, Except.pure, Except.ok.injEq, distinct, and_true,
      List.nil_append, List.map_map, Function.comp_def, eq_comm]

theorem exists_targets_iff {target : Target} {compiled : List Compiled} :
    (∃ paths, targets target compiled = .ok paths) ↔
      (∀ path, target = .file path → compiled.length = 1) ∧
        ∀ directory, target = .directory directory →
          ((compiled.map Compiled.path).map fun input =>
            (targetIn directory input).components).Nodup := by
  cases target with
  | output => simp [targets]
  | file path => by_cases single : compiled.length = 1 <;> simp [targets, single]
  | directory path => simp [targets, targetsIn_eq_ok_iff]

/-! ### The run -/

/-- Reasons to stop before anything is written. -/
inductive Rejected (disk : Disk) (settings : Settings) : Target → Prop
  | config {target : Target} {path : Path} {error : LoadError} (given : settings.config = some path)
    (fails : disk.loadOptions path = .error error) : Rejected disk settings target
  | badPattern {target : Target} {input : String} {error : Glob.PatternError}
    (given : input ∈ settings.inputs) (pattern : Glob.isPattern input = true)
    (fails : Glob.expand disk input = .error error) : Rejected disk settings target
  | noMatch {target : Target} {input : String} (given : input ∈ settings.inputs)
    (pattern : Glob.isPattern input = true) (none : Glob.expand disk input = .ok []) :
    Rejected disk settings target
  | unloadable {target : Target} {path : Path} {error : LoadError}
    (given : path ∈ settings.paths disk) (fails : disk.loadDocument path = .error error) :
    Rejected disk settings target
  | uncompiled {target : Target} {path : Path} {options : Options} {document : Document}
    {error : SchemaError} (found : loadOptions disk settings = .ok options)
    (given : path ∈ settings.paths disk) (loaded : disk.loadDocument path = .ok document)
    (fails : (document.compile options).2 = .error error)
    (reported : error.isOutOfSteps = false) : Rejected disk settings target
  | severalInputs {path : Path} (count : (settings.paths disk).length ≠ 1) :
    Rejected disk settings (.file path)
  | sameTarget {directory : Path}
    (same : ¬((settings.paths disk).map fun path => (targetIn directory path).components).Nodup) :
    Rejected disk settings (.directory directory)

theorem exists_loadOptions_iff {disk : Disk} {settings : Settings} :
    (∃ options, loadOptions disk settings = .ok options) ↔
      ∀ path error, settings.config = some path → disk.loadOptions path ≠ .error error := by
  unfold loadOptions
  cases settings.config with
  | none => simp
  | some path =>
    cases loaded : disk.loadOptions path with
    | error error => simp [loaded]
    | ok options =>
      simp only [loaded, Except.ok.injEq, exists_eq', Option.some.injEq, ne_eq, true_iff]
      rintro _ error rfl fails
      rw [loaded] at fails
      cases fails

theorem exists_inputPaths_iff {disk : Disk} {input : String} :
    (∃ paths, inputPaths disk input = .ok paths) ↔
      (Glob.isPattern input = true → ∃ path rest, Glob.expand disk input = .ok (path :: rest)) := by
  unfold inputPaths
  by_cases pattern : Glob.isPattern input = true
  · simp only [pattern, if_true, true_implies]
    rcases Glob.expand disk input with error | _ | ⟨path, rest⟩ <;> simp
  · simp [pattern]

theorem exists_compileFile_iff {disk : Disk} {options : Options} {path : Path} :
    (∃ compiled, compileFile disk options path = .ok compiled) ↔
      ∃ document compilation, disk.loadDocument path = .ok document ∧
        (document.compile options).2 = .ok compilation := by
  unfold compileFile
  cases disk.loadDocument path with
  | error error => simp
  | ok document => cases compiled : (document.compile options).2 <;> simp [compiled]

theorem compile_ne_error_of_compileAll {disk : Disk} {settings : Settings}
    {compiled : List Compiled} (done : compileAll disk settings = .ok compiled)
    {options : Options} (found : loadOptions disk settings = .ok options) {path : Path}
    (given : path ∈ settings.paths disk) {document : Document}
    (loaded : disk.loadDocument path = .ok document) (error : SchemaError) :
    (document.compile options).2 ≠ .error error := by
  intro fails
  obtain ⟨_, found', _, files⟩ := exists_compileAll_iff.mp ⟨compiled, done⟩
  obtain ⟨_, _, loaded', compiles⟩ := exists_compileFile_iff.mp (files _ given)
  cases found.symm.trans found'
  cases loaded.symm.trans loaded'
  cases fails.symm.trans compiles

theorem Rejected.stops {disk : Disk} {settings : Settings} {target : Target}
    (rejected : Rejected disk settings target) {compiled : List Compiled}
    (done : compileAll disk settings = .ok compiled) (paths : List Path) :
    targets target compiled ≠ .ok paths := by
  intro placed
  obtain ⟨options, found, inputs, files⟩ := exists_compileAll_iff.mp ⟨compiled, done⟩
  have same := paths_of_compileAll done
  have placed := exists_targets_iff.mp ⟨paths, placed⟩
  -- each reason is against one of these facts
  cases rejected with
  | config given fails => exact exists_loadOptions_iff.mp ⟨options, found⟩ _ _ given fails
  | badPattern given pattern fails =>
    obtain ⟨path, rest, expanded⟩ := exists_inputPaths_iff.mp (inputs _ given) pattern
    cases fails.symm.trans expanded
  | noMatch given pattern none =>
    obtain ⟨path, rest, expanded⟩ := exists_inputPaths_iff.mp (inputs _ given) pattern
    cases none.symm.trans expanded
  | unloadable given fails =>
    obtain ⟨document, compilation, loaded, _⟩ := exists_compileFile_iff.mp (files _ given)
    cases fails.symm.trans loaded
  | uncompiled found given loaded fails =>
    exact compile_ne_error_of_compileAll done found given loaded _ fails
  | severalInputs count =>
    refine count ?_
    rw [← same, List.length_map]
    exact placed.1 _ rfl
  | sameTarget clash =>
    rw [← same] at clash
    exact clash (placed.2 _ rfl)

@[simp] theorem output_finish (outcome : Outcome) (failure : Option Failure) :
    (outcome.finish failure).output = outcome.output := by
  cases failure <;> rfl

@[simp] theorem disk_finish (outcome : Outcome) (failure : Option Failure) :
    (outcome.finish failure).disk = outcome.disk := by
  cases failure <;> rfl

end Command

end Protoschema
