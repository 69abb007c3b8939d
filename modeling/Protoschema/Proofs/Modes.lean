import Protoschema.Command.Run
import Protoschema.Proofs.FilterTransparency
/-!
The strict and the lenient mode agree wherever declaring ends. Both declare the same schemas with
the same outcomes; lenient mode gathers all of them, strict mode stops at the first that failed. So
strict mode succeeds exactly when lenient mode has no failures, with the same result, and a check
ends well in the one mode exactly when it does in the other.

A schema whose declaring has no end leaves lenient mode without a result, although it is meant to
leave out what cannot be declared; strict mode may have found an error before it comes there.
-/

namespace Protoschema

/-! ### Gathering outcomes -/

namespace Compilation

/-- The error reports among the outcomes of schemas. -/
def errorsOf (outcomes : List (String × Except SchemaError Declared)) : List Diagnostic :=
  outcomes.filterMap fun outcome =>
    match outcome.2 with
    | .ok _ => none
    | .error error => some ⟨.error, outcome.1, error.message⟩

/-- The errors that are reported are those of the failures, in their order, as long as nothing but
warnings comes from schemas that succeed. -/
theorem errors_addAll (compilation : Compilation)
    {outcomes : List (String × Except SchemaError Declared)}
    (warnings : ∀ name declared, (name, .ok declared) ∈ outcomes →
      ∀ diagnostic ∈ declared.warnings, diagnostic.severity = .warning) :
    (compilation.addAll outcomes).diagnostics.filter (·.severity = .error)
      = compilation.diagnostics.filter (·.severity = .error) ++ errorsOf outcomes := by
  induction outcomes generalizing compilation with
  | nil => simp [addAll, errorsOf]
  | cons head rest induction =>
    obtain ⟨name, outcome⟩ := head
    have later := induction (compilation.add name outcome) fun name declared member =>
      warnings name declared (List.mem_cons_of_mem _ member)
    rw [addAll, List.foldl_cons, ← addAll, later]
    cases outcome with
    | error error => simp [add, errorsOf]
    | ok declared =>
      have none : declared.warnings.filter (·.severity = .error) = [] := by
        refine List.filter_eq_nil_iff.mpr fun diagnostic member => ?_
        simp [warnings name declared List.mem_cons_self diagnostic member]
      simp [add, errorsOf, none]

end Compilation

/-! ### Reports of binding -/

theorem BindReport.severity_ofReference {directory : Directory} {name : String}
    {reference : Reference} {diagnostic : Diagnostic}
    (member : diagnostic ∈ (ofReference directory name reference).diagnostics) :
    diagnostic.severity = .warning := by
  unfold ofReference at member
  split at member
  · cases member
  · split at member
    · cases member
    · cases member
    · rw [List.mem_singleton.mp member]

/-- Binding reports warnings only. -/
theorem Document.severity_bindFrom {document : Document} {directory : Directory}
    {roots : Option (List String)} {diagnostic : Diagnostic}
    (member : diagnostic ∈ (document.bindFrom directory roots).2.diagnostics) :
    diagnostic.severity = .warning := by
  simp only [bindFrom, BindReport.diagnostics_concat, List.flatMap_map, List.mem_flatMap] at member
  obtain ⟨name, _, inside⟩ := member
  unfold BindReport.ofName at inside
  split at inside
  next node found =>
    rw [BindReport.diagnostics_concat, List.flatMap_map, List.mem_flatMap] at inside
    obtain ⟨reference, _, reported⟩ := inside
    exact BindReport.severity_ofReference reported
  next missing => rw [List.mem_singleton.mp inside]

/-! ### Outcomes -/

namespace Document

variable (document : Document)

/-- Every outcome is that of its schema, and does not depend on the mode. -/
theorem outcomes_mode (options : Options) (mode : RunMode) :
    document.outcomes { options with mode } = document.outcomes options := by
  have same : Options.SameOutput { options with mode } options := ⟨rfl, rfl, rfl⟩
  have each (name : String) :
      document.declareSchema { options with mode } name = document.declareSchema options name :=
    (AgreeOn.refl document).declareSchema same trivial
  simp only [outcomes, each]

/-- A schema that is declared comes with warnings only. -/
theorem severity_of_declareSchema {options : Options} {name : String} {declared : Declared}
    (found : document.declareSchema options name = some (.ok declared)) {diagnostic : Diagnostic}
    (member : diagnostic ∈ declared.warnings) : diagnostic.severity = .warning := by
  obtain ⟨node, _, outcome⟩ := Option.map_eq_some_iff.mp found
  generalize declareTopLevel ⟨document, options⟩ name node = run at outcome
  obtain ⟨events, error | decl⟩ := run
  · cases outcome
  · cases outcome
    obtain ⟨message, _, rfl⟩ := List.mem_map.mp member
    rfl

theorem selected_strict (distinct : document.names.Nodup) (only : Option (List String)) :
    (document.selected only).Pairwise (· < ·) := by
  cases only with
  | none => exact sortedNames_strict distinct
  | some filter => exact sortedNames_strict (nodup_eraseDups _)

theorem errors_of_compile {options : Options} {compilation : Compilation}
    (compiled : (document.compile options).2 = .ok compilation) :
    compilation.diagnostics.filter (·.severity = .error)
      = Compilation.errorsOf ((document.bind options.only).1.outcomes options) := by
  have binding : (document.bind options.only).2.diagnostics.filter (·.severity = .error)
      = [] := by
    refine List.filter_eq_nil_iff.mpr fun diagnostic member => ?_
    simp [severity_bindFrom member]
  rw [← addAll_of_compile compiled,
    Compilation.errors_addAll _ fun name declared member diagnostic =>
      severity_of_declareSchema _ (declareSchema_of_mem_outcomes _ member),
    binding, List.nil_append]

/-- Both modes gather the same outcomes, and strict mode ends with the first failure. -/
theorem compile_strict (options : Options) :
    (document.compile { options with mode := .strict }).2
      = match Compilation.failuresOf ((document.bind options.only).1.outcomes options) with
        | [] => (document.compile { options with mode := .lenient }).2
        | first :: _ => .error first := by
  simp only [compile, compileBound, outcomes_mode]
  exact Compilation.gather_strict _ _

/-- Without a failure that is for want of an end, lenient mode has a result; otherwise the first
such failure is what it comes to. -/
theorem compile_lenient (options : Options) :
    (document.compile { options with mode := .lenient }).2
      = match (Compilation.failuresOf ((document.bind options.only).1.outcomes options)).find?
          SchemaError.isOutOfSteps with
        | some error => .error error
        | none => .ok (Compilation.addAll
            { diagnostics := (document.bind options.only).2.diagnostics }
            ((document.bind options.only).1.outcomes options)) := by
  simp only [compile, compileBound, outcomes_mode]
  exact Compilation.gather_eq _ _ _

/-- What the modes come to if declaring ends for every selected schema. -/
theorem compile_of_ends (options : Options)
    (ends : ∀ name ∈ ((document.bind options.only).1.outcomes options).map Prod.fst,
      ¬(document.bind options.only).1.Endless options name) :
    ∃ lenient, (document.compile { options with mode := .lenient }).2 = .ok lenient ∧
      lenient.declarations
        = Compilation.declarationsOf ((document.bind options.only).1.outcomes options) ∧
      lenient.failures
        = Compilation.failuresOf ((document.bind options.only).1.outcomes options) ∧
      lenient.diagnostics.filter (·.severity = .error)
        = Compilation.errorsOf ((document.bind options.only).1.outcomes options) ∧
      (document.compile { options with mode := .strict }).2
        = match lenient.failures with
          | [] => .ok lenient
          | first :: _ => .error first := by
  rw [outcomes_names, ← outcomes_end_iff] at ends
  have none : (Compilation.failuresOf ((document.bind options.only).1.outcomes options)).find?
      SchemaError.isOutOfSteps = none := by
    simpa using ends
  obtain ⟨lenient, compiled⟩ :
      ∃ lenient, (document.compile { options with mode := .lenient }).2 = .ok lenient := by
    rw [compile_lenient, none]
    exact ⟨_, rfl⟩
  have declarations := declarations_of_compile compiled
  have failures := failures_of_compile compiled
  have errors := errors_of_compile _ compiled
  rw [outcomes_mode] at declarations failures errors
  refine ⟨lenient, compiled, declarations, failures, errors, ?_⟩
  rw [compile_strict, ← failures, compiled]

/-- What they come to if it has no end for one of them. -/
theorem compile_of_endless (options : Options) {name : String}
    (chosen : name ∈ ((document.bind options.only).1.outcomes options).map Prod.fst)
    (endless : (document.bind options.only).1.Endless options name) :
    ∃ endless first,
      (Compilation.failuresOf ((document.bind options.only).1.outcomes options)).find?
        SchemaError.isOutOfSteps = some endless ∧
      (document.compile { options with mode := .lenient }).2 = .error endless ∧
      (Compilation.failuresOf ((document.bind options.only).1.outcomes options)).head?
        = some first ∧
      (document.compile { options with mode := .strict }).2 = .error first := by
  have lenient := document.compile_lenient options
  have strict := document.compile_strict options
  have ending := (document.bind options.only).1.outcomes_end_iff options
  rw [← outcomes_names] at ending
  generalize Compilation.failuresOf ((document.bind options.only).1.outcomes options) = failures
    at lenient strict ending ⊢
  obtain ⟨error, found⟩ : ∃ error, failures.find? SchemaError.isOutOfSteps = some error := by
    rw [← Option.isSome_iff_exists, Option.isSome_iff_ne_none]
    intro none
    exact ending.mp (by simpa using none) name chosen endless
  rw [found] at lenient
  cases failures with
  | nil => cases found
  | cons first rest => exact ⟨error, first, found, lenient, rfl, strict⟩

/-- A document compiles without failures in one mode exactly when it does in the other. -/
theorem compiles_strict_iff (options : Options) :
    (∃ compilation, (document.compile { options with mode := .strict }).2 = .ok compilation ∧
        compilation.failures = []) ↔
      ∃ compilation, (document.compile { options with mode := .lenient }).2 = .ok compilation ∧
        compilation.failures = [] := by
  rw [compile_strict]
  cases failures : Compilation.failuresOf ((document.bind options.only).1.outcomes options) with
  | nil => exact Iff.rfl
  | cons first rest =>
    constructor
    · rintro ⟨_, same, _⟩
      cases same
    · -- the failures of a result are those among the outcomes
      rintro ⟨compilation, compiled, none⟩
      have kept := failures_of_compile compiled
      rw [outcomes_mode] at kept
      cases failures.symm.trans (kept.symm.trans none)

end Document

/-! ### Checks -/

namespace Command

/-- A file that is loaded and compiled without failures. -/
def Passes (disk : Disk) (options : Options) (path : Path) : Prop :=
  ∃ compiled, compileFile disk options path = .ok compiled ∧ compiled.compilation.failures = []

theorem passes_iff {disk : Disk} {options : Options} {path : Path} :
    Passes disk options path ↔ ∃ document, disk.loadDocument path = .ok document ∧
      ∃ compilation, (document.compile options).2 = .ok compilation ∧
        compilation.failures = [] := by
  unfold Passes compileFile
  cases disk.loadDocument path with
  | error error => simp
  | ok document =>
    cases compiled : (document.compile options).2 with
    | error error => simp [compiled]
    | ok compilation => simp [compiled]

/-- Whether a file passes does not depend on the mode. -/
theorem passes_mode (disk : Disk) (options : Options) (mode : RunMode) (path : Path) :
    Passes disk { options with mode } path ↔
      Passes disk { options with mode := .lenient } path := by
  cases mode with
  | lenient => exact Iff.rfl
  | strict => simp only [passes_iff, Document.compiles_strict_iff]

theorem exit_sumUp (disk : Disk) (compiled : List Compiled) :
    (sumUp disk compiled).exit = 0 ↔ ∀ unit ∈ compiled, unit.compilation.failures = [] := by
  have total : (compiled.map fun unit => unit.compilation.failures.length).foldr (· + ·) 0 = 0 ↔
      ∀ unit ∈ compiled, unit.compilation.failures = [] := by
    induction compiled with
    | nil => simp
    | cons unit rest induction => simp [induction]
  rw [← total, sumUp]
  split
  next none => simp [Outcome.finish, none]
  next some => simp [Outcome.finish, some]

/-- A check ends well exactly when the options and inputs are found and every input passes. -/
theorem exit_runCheck (disk : Disk) (settings : Settings) :
    (runCheck disk settings).exit = 0 ↔ ∃ options, loadOptions disk settings = .ok options ∧
      ∃ paths, settings.inputs.mapM (inputPaths disk) = .ok paths ∧
        ∀ path ∈ paths.flatten, Passes disk options path := by
  -- options, inputs and files are gone through in this order, and the first error ends the check
  rw [runCheck, compileAll]
  cases loadOptions disk settings with
  | error failure => simp [bind, Except.bind, Outcome.finish]
  | ok options =>
    cases settings.inputs.mapM (inputPaths disk) with
    | error failure => simp [bind, Except.bind, Outcome.finish]
    | ok paths =>
      simp only [bind, Except.bind, Except.ok.injEq, exists_eq_left', Passes, ← exists_mapM_iff]
      cases paths.flatten.mapM (compileFile disk options) with
      | error failure => simp [Outcome.finish]
      | ok compiled => simp [exit_sumUp]

/-- The flag for strict mode decides the mode and nothing else, whatever a file of options says. -/
theorem loadOptions_strict (disk : Disk) (settings : Settings) (strict : Bool) :
    (loadOptions disk { settings with strict }).map
        (fun options => { options with mode := .lenient })
      = (loadOptions disk settings).map fun options => { options with mode := .lenient } := by
  unfold loadOptions
  cases settings.config with
  | none => rfl
  | some path =>
    dsimp only
    cases disk.loadOptions path with
    | error error => rfl
    | ok options => rfl

/-- Checks of the same inputs, with options that differ in the mode at most, end alike. -/
theorem exit_runCheck_congr (disk : Disk) {settings settings' : Settings}
    (inputs : settings.inputs = settings'.inputs)
    (options : (loadOptions disk settings).map (fun options => { options with mode := .lenient })
      = (loadOptions disk settings').map fun options => { options with mode := .lenient }) :
    (runCheck disk settings).exit = 0 ↔ (runCheck disk settings').exit = 0 := by
  rw [exit_runCheck, exit_runCheck, inputs]
  cases found : loadOptions disk settings with
  | error failure =>
    cases found' : loadOptions disk settings' with
    | error failure' => simp
    | ok options' => simp [found, found', Except.map] at options
  | ok first =>
    cases found' : loadOptions disk settings' with
    | error failure' => simp [found, found', Except.map] at options
    | ok second =>
      have same : ({ first with mode := .lenient } : Options)
          = { second with mode := .lenient } := by
        simpa only [found, found', Except.map, Except.ok.injEq] using options
      have passes (path : Path) : Passes disk first path ↔ Passes disk second path := by
        have here := passes_mode disk first first.mode path
        have there := passes_mode disk second second.mode path
        exact here.trans (same ▸ there.symm)
      simp [passes]

end Command

/-- Strict mode, lenient mode and checks agree, up to schemas whose declaring has no end.

Every selected schema has one outcome, in ascending order of the names. If declaring ends for all of
them, lenient mode has a result: the declarations and the failures are those among the outcomes, and
the errors reported are those of the failures. Strict mode gives the same compilation if there are
no failures, and the first of them otherwise. If declaring has no end for some of them, lenient mode
has no result but comes to the first of these, and strict mode to the first failure of any kind.

A check ends well with the flag for strict mode exactly when it does without it. The same goes for
any two checks of the same inputs whose options differ in the mode only. -/
theorem modes_agree (document : Document) (options : Options) (distinct : document.names.Nodup) :
    (∃ outcomes,
      (∀ name, name ∈ outcomes.map Prod.fst ↔
        name ∈ document.names ∧ ∀ filter, options.only = some filter → name ∈ filter) ∧
      (outcomes.map Prod.fst).Pairwise (· < ·) ∧
      (∀ outcome ∈ outcomes,
        (document.bind options.only).1.declareSchema options outcome.1 = some outcome.2) ∧
      ((∀ name ∈ outcomes.map Prod.fst, ¬(document.bind options.only).1.Endless options name) →
        ∃ lenient, (document.compile { options with mode := .lenient }).2 = .ok lenient ∧
          lenient.declarations = Compilation.declarationsOf outcomes ∧
          lenient.failures = Compilation.failuresOf outcomes ∧
          lenient.diagnostics.filter (·.severity = .error) = Compilation.errorsOf outcomes ∧
          (document.compile { options with mode := .strict }).2
            = match lenient.failures with
              | [] => .ok lenient
              | first :: _ => .error first) ∧
      ∀ name ∈ outcomes.map Prod.fst, (document.bind options.only).1.Endless options name →
        ∃ endless first,
          (Compilation.failuresOf outcomes).find? SchemaError.isOutOfSteps = some endless ∧
          (document.compile { options with mode := .lenient }).2 = .error endless ∧
          (Compilation.failuresOf outcomes).head? = some first ∧
          (document.compile { options with mode := .strict }).2 = .error first) ∧
    (∀ (disk : Disk) (settings : Command.Settings),
      (Command.runCheck disk { settings with strict := false }).exit = 0 ↔
        (Command.runCheck disk { settings with strict := true }).exit = 0) ∧
    ∀ (disk : Disk) (settings settings' : Command.Settings), settings.inputs = settings'.inputs →
      (Command.loadOptions disk settings).map (fun options => { options with mode := .lenient })
        = (Command.loadOptions disk settings').map
          (fun options => { options with mode := .lenient }) →
      ((Command.runCheck disk settings).exit = 0 ↔
        (Command.runCheck disk settings').exit = 0) := by
  refine ⟨?_, fun disk settings => ?_, ?_⟩
  · have names := document.outcomes_names_bind options
    refine ⟨(document.bind options.only).1.outcomes options, ?_, ?_, ?_, ?_, ?_⟩
    · intro name
      rw [names]
      exact document.mem_selected_iff options.only name
    · rw [names]
      exact document.selected_strict distinct options.only
    · exact fun outcome member => Document.declareSchema_of_mem_outcomes _ member
    · exact fun ends => document.compile_of_ends options ends
    · exact fun name chosen endless => document.compile_of_endless options chosen endless
  · refine Command.exit_runCheck_congr disk rfl ?_
    exact (Command.loadOptions_strict disk settings false).trans
      (Command.loadOptions_strict disk settings true).symm
  · exact fun disk settings settings' inputs options =>
      Command.exit_runCheck_congr disk inputs options

/-- Two schemas that cannot be declared, around one that can. -/
def halfBroken : Document where
  schemas := [
    ("Rows", .inline { type := some .array }),
    ("Cell", .inline { type := some .string }),
    ("Bare", .inline {})]

theorem halfBroken_failures :
    Compilation.failuresOf ((halfBroken.bind none).1.outcomes {})
      = [.untypedSchema "Bare", .missingItems "Rows"] := by
  have selected : (halfBroken.bind none).1.selected none = ["Bare", "Cell", "Rows"] :=
    eq_of_perm_of_ascending ((sortedNames_perm ["Rows", "Cell", "Bare"]).trans (by decide))
      (sortedNames_pairwise _) (by decide)
  rw [Document.outcomes, selected]
  decide +kernel

theorem modes_agree_halfBroken :
    halfBroken.names.Nodup ∧
    (∀ name ∈ halfBroken.names, ¬(halfBroken.bind none).1.Endless {} name) ∧
    ∃ lenient, (halfBroken.compile {}).2 = .ok lenient ∧
      lenient.failures = [.untypedSchema "Bare", .missingItems "Rows"] ∧
      (halfBroken.compile { mode := .strict }).2 = .error (.untypedSchema "Bare") := by
  have distinct : halfBroken.names.Nodup := by decide
  have ends : ∀ name ∈ halfBroken.names, ¬(halfBroken.bind none).1.Endless {} name := by
    decide +kernel
  obtain ⟨⟨outcomes, names, _, _, agree, _⟩, _⟩ := modes_agree halfBroken {} distinct
  obtain ⟨lenient, compiled, _, _, _, strict⟩ :=
    agree fun name member => ends name ((names name).mp member).1
  have failures := Document.failures_of_compile compiled
  have same := failures.trans halfBroken_failures
  rw [same] at strict
  exact ⟨distinct, ends, lenient, compiled, same, strict⟩

/-- A node whose child is composed of the node itself. -/
def unending : Document where
  schemas := [
    ("Node", .inline {
      type := some .object
      properties := [("child", .inline {
        allOf := [.ref { pointer := "#/components/schemas/Node" }] })] })]

/-- The one schema is selected, but lenient mode has no entry for it. -/
theorem unending_without_result :
    unending.names = ["Node"] ∧ (unending.bind none).1.Endless {} "Node" ∧
      ∀ compilation, (unending.compile { mode := .lenient }).2 ≠ .ok compilation := by
  have endless : (unending.bind none).1.Endless {} "Node" := by decide +kernel
  refine ⟨rfl, endless, fun compilation compiled => ?_⟩
  refine (unending.exists_compile_lenient_iff {} rfl).mp ⟨compilation, compiled⟩ "Node" ?_ endless
  simp [Document.selected, unending, Document.names]

end Protoschema
