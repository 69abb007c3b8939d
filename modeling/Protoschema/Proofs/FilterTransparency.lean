import Protoschema.Compilation
import Protoschema.Proofs.Agreement
import Protoschema.Proofs.Bound
import Protoschema.Proofs.StepBudget
/-!
A filter selects schemas and changes none of them. Binding from the names of a filter leaves the
references of other schemas unbound, but declaring never comes to those: whatever it follows stands
in a schema that was visited. So a selected schema is declared exactly as without the filter, and a
filtered compilation is the unfiltered one restricted to the selected names.
-/

namespace Protoschema

/-- Settings under which a schema is declared alike. -/
structure Options.SameOutput (options options' : Options) : Prop where
  renames : options.renames = options'.renames
  enumPrefix : options.enumPrefix = options'.enumPrefix
  boxTopLevel : options.boxTopLevel = options'.boxTopLevel

namespace Document

/-- Documents with the same schemas under these names, which lead to each other only. -/
structure AgreeOn (within : String → Prop) (document document' : Document) : Prop where
  schema : ∀ name, within name → document.schema? name = document'.schema? name
  closed : ∀ name node, within name → document.schema? name = some node → node.LeadsWithin within
  pointers : document.references.map Reference.pointer
    = document'.references.map Reference.pointer
  size : document.size = document'.size

namespace AgreeOn

variable {within : String → Prop} {document document' : Document}

theorem refl (document : Document) : AgreeOn (fun _ => True) document document where
  schema _ _ := rfl
  closed _ _ _ _ _ _ _ _ := trivial
  pointers := rfl
  size := rfl

theorem lookup (agree : AgreeOn within document document') {target : Location}
    (inside : within target.root) : document.lookup target = document'.lookup target := by
  rw [Document.lookup, Document.lookup, agree.schema _ inside]

theorem leadsWithin_lookup (agree : AgreeOn within document document') {target : Location}
    {node : Node} (inside : within target.root) (found : document.lookup target = some node) :
    node.LeadsWithin within := by
  obtain ⟨top, atRoot, reached⟩ := Option.bind_eq_some_iff.mp found
  exact fun reference member => agree.closed _ top inside atRoot reference
    (Node.references_subset_of_descend reached member)

/-- A reference that leads to these names agrees with itself in both documents. -/
theorem reference (agree : AgreeOn within document document') {reference : Reference}
    (leads : (Node.ref reference).LeadsWithin within) :
    reference.Agree (fun node node' => node = node' ∧ node.LeadsWithin within) document document'
      reference where
  pointer := rfl
  description := rfl
  binding := rfl
  target name target bound := by
    -- the target stands in one of the schemas that both documents share
    have inside : within target.root :=
      leads reference (by simp) target.root (by simp [Reference.reached?, bound])
    rw [← agree.lookup inside]
    cases found : document.lookup target with
    | none => exact .none
    | some node => exact .some ⟨rfl, agree.leadsWithin_lookup inside found⟩

theorem freshPointers (agree : AgreeOn within document document') (node : Node) :
    freshPointers document node = Protoschema.freshPointers document' node := by
  rw [Protoschema.freshPointers, Protoschema.freshPointers, List.map_append, List.map_append,
    agree.pointers]

/-- Declaring nodes that lead to these names is the same in both documents. -/
theorem simulation (agree : AgreeOn within document document') {options options' : Options}
    (same : options.SameOutput options') :
    Simulation .equality (fun node node' => node = node' ∧ node.LeadsWithin within)
      ⟨document, options⟩ ⟨document', options'⟩ := by
  refine .of_shared (·.LeadsWithin within) same.renames same.enumPrefix ?_ ?_ ?_ ?_ ?_ ?_
  · exact fun schema leads node member => leads.child member
  · exact fun reference leads => (agree.reference leads).mono fun _ _ => Or.inr
  · exact fun schema leads node member => leads.child (Schema.mem_children_of_allOf member)
  · exact fun schema leads => leads
  · exact fun reference leads => agree.reference leads
  · intro reference leads node
    rw [agree.freshPointers]

theorem declareSchema (agree : AgreeOn within document document') {options options' : Options}
    (same : options.SameOutput options') {name : String} (inside : within name) :
    document.declareSchema options name = document'.declareSchema options' name := by
  rw [Document.declareSchema, Document.declareSchema, ← agree.schema name inside]
  cases found : document.schema? name with
  | none => rfl
  | some node =>
    have leads := agree.closed name node inside found
    have runs : declare ⟨document, options⟩ name node
        = declare ⟨document', options'⟩ name node := by
      rw [declare, declare, stepBudget, stepBudget, agree.size]
      exact (agree.simulation same).declareWithin_rel _ [] name ⟨rfl, leads⟩
    rw [Option.map_some, Option.map_some, declareTopLevel, declareTopLevel, runs,
      same.boxTopLevel]

end AgreeOn

/-- Binding from roots does what binding everything does, as far as the roots lead. -/
theorem bindFrom_agreeOn (document : Document) (directory : Directory) (roots : List String) :
    AgreeOn (· ∈ document.visitOrder directory roots [])
      (document.bindFrom directory (some roots)).1 (document.bindFrom directory none).1 where
  schema name visited := by
    rw [schema?_bindFrom, schema?_bindFrom_none]
    exact Option.map_congr fun node _ => boundNode_visited _ _ (some roots) visited node
  closed name node visited found := by
    rw [schema?_bindFrom] at found
    obtain ⟨source, known, rfl⟩ := Option.map_eq_some_iff.mp found
    rw [boundNode_visited _ _ (some roots) visited]
    refine leadsWithin_of_visited document directory (fun next leads => ?_) known
    obtain ⟨root, listed, reached⟩ := (mem_visitOrder_iff document directory roots name).mp visited
    exact (mem_visitOrder_iff document directory roots next).mpr ⟨root, listed, reached.tail leads⟩
  pointers := by rw [pointers_bindFrom, pointers_bindFrom]
  size := by rw [size_bindFrom, size_bindFrom]

end Document

/-! ### Compilations -/

namespace Compilation

/-- The declarations among the outcomes of schemas. -/
def declarationsOf (outcomes : List (String × Except SchemaError Declared)) : List Decl :=
  outcomes.filterMap fun outcome => (outcome.2.map Declared.decl).toOption

/-- The errors among the outcomes of schemas. -/
def failuresOf (outcomes : List (String × Except SchemaError Declared)) : List SchemaError :=
  outcomes.filterMap fun outcome =>
    match outcome.2 with
    | .ok _ => none
    | .error error => some error

/-- Adds the outcomes of schemas, whatever they are. -/
def addAll (compilation : Compilation)
    (outcomes : List (String × Except SchemaError Declared)) : Compilation :=
  outcomes.foldl (fun compilation outcome => compilation.add outcome.1 outcome.2) compilation

@[simp] theorem declarations_addAll (compilation : Compilation)
    (outcomes : List (String × Except SchemaError Declared)) :
    (compilation.addAll outcomes).declarations
      = compilation.declarations ++ declarationsOf outcomes := by
  induction outcomes generalizing compilation with
  | nil => simp [addAll, declarationsOf]
  | cons head rest induction =>
    obtain ⟨name, error | declared⟩ := head
    · exact induction (compilation.add name (.error error))
    · refine (induction (compilation.add name (.ok declared))).trans ?_
      simp [declarationsOf, add, Except.map, Except.toOption]

@[simp] theorem failures_addAll (compilation : Compilation)
    (outcomes : List (String × Except SchemaError Declared)) :
    (compilation.addAll outcomes).failures = compilation.failures ++ failuresOf outcomes := by
  induction outcomes generalizing compilation with
  | nil => simp [addAll, failuresOf]
  | cons head rest induction =>
    obtain ⟨name, error | declared⟩ := head
    · refine (induction (compilation.add name (.error error))).trans ?_
      simp [failuresOf, add]
    · exact induction (compilation.add name (.ok declared))

/-- Gathering ends with the first error that the mode ends with. If there is none, every outcome is
taken in. -/
theorem gather_eq (mode : RunMode) (compilation : Compilation)
    (outcomes : List (String × Except SchemaError Declared)) :
    gather mode compilation outcomes
      = match (failuresOf outcomes).find? mode.endsWith with
        | some error => .error error
        | none => .ok (compilation.addAll outcomes) := by
  induction outcomes generalizing compilation with
  | nil => rfl
  | cons head rest induction =>
    obtain ⟨name, error | declared⟩ := head
    · have first : failuresOf ((name, .error error) :: rest) = error :: failuresOf rest := rfl
      rw [gather, first, List.find?_cons]
      cases mode.endsWith error with
      | true => rfl
      | false => exact induction (compilation.add name (.error error))
    · exact induction (compilation.add name (.ok declared))

theorem gather_ok_iff {mode : RunMode} {compilation result : Compilation}
    {outcomes : List (String × Except SchemaError Declared)} :
    gather mode compilation outcomes = .ok result ↔
      (∀ error ∈ failuresOf outcomes, mode.endsWith error = false) ∧
        compilation.addAll outcomes = result := by
  rw [gather_eq]
  cases found : (failuresOf outcomes).find? mode.endsWith with
  | none =>
    have none : ∀ error ∈ failuresOf outcomes, mode.endsWith error = false := by
      simpa using found
    simp only [Except.ok.injEq]
    exact ⟨fun same => ⟨none, same⟩, And.right⟩
  | some error =>
    simp only [reduceCtorEq, false_iff, not_and]
    intro none
    have ending := none error (List.mem_of_find?_eq_some found)
    rw [List.find?_some found] at ending
    cases ending

/-- Strict mode gathers what lenient mode does, or ends with its first failure. -/
theorem gather_strict (compilation : Compilation)
    (outcomes : List (String × Except SchemaError Declared)) :
    gather .strict compilation outcomes
      = match failuresOf outcomes with
        | [] => gather .lenient compilation outcomes
        | first :: _ => .error first := by
  rw [gather_eq, gather_eq]
  cases failuresOf outcomes with
  | nil => rfl
  | cons first rest => rfl

end Compilation

namespace Document

/-- Selected are the schemas of the document that a filter lists, if there is one. -/
theorem mem_selected_iff (document : Document) (only : Option (List String)) (name : String) :
    name ∈ document.selected only ↔
      name ∈ document.names ∧ ∀ filter, only = some filter → name ∈ filter := by
  cases only with
  | none => simp [selected]
  | some filter =>
    have known := Entries.has_iff_mem_keys document.schemas name
    simp [selected, List.mem_eraseDups, known, names, and_comm]

theorem selected_congr {document document' : Document} (names : document.names = document'.names)
    (only : Option (List String)) : document.selected only = document'.selected only := by
  cases only with
  | none => rw [selected, selected, names]
  | some filter => rw [selected, selected, Entries.has_congr (.of_eq names)]

/-- The names that a filter selects are those of the document that it lists, in the same order. -/
theorem selected_filter (document : Document) (distinct : document.names.Nodup)
    (filter : List String) :
    document.selected (some filter) = (document.selected none).filter (· ∈ filter) := by
  refine eq_of_perm_of_ascending ?_ (sortedNames_pairwise _)
    ((sortedNames_pairwise document.names).filter _)
  refine (List.perm_ext_iff_of_nodup ?_ ?_).mpr fun name => ?_
  · exact (sortedNames_perm _).nodup_iff.mpr (nodup_eraseDups _)
  · exact ((sortedNames_perm _).nodup_iff.mpr distinct).filter _
  · simp [mem_selected_iff, -mem_sortedNames]

/-- Every selected schema has an outcome, in the order of selection. -/
theorem outcomes_names (document : Document) (options : Options) :
    (document.outcomes options).map Prod.fst = document.selected options.only := by
  have declared : ∀ name ∈ document.selected options.only,
      ∃ outcome, document.declareSchema options name = some outcome := by
    intro name member
    have known := ((document.mem_selected_iff options.only name).mp member).1
    obtain ⟨node, found⟩ := Option.isSome_iff_exists.mp
      ((Entries.has_iff_mem_keys document.schemas name).mpr known)
    exact ⟨_, by rw [declareSchema, schema?, found, Option.map_some]⟩
  rw [outcomes, List.map_filterMap]
  -- nothing is filtered away, since each selected name has an outcome
  generalize document.selected options.only = names at declared
  induction names with
  | nil => rfl
  | cons name rest induction =>
    obtain ⟨outcome, found⟩ := declared name List.mem_cons_self
    have later := induction fun other member => declared other (List.mem_cons_of_mem _ member)
    rw [List.filterMap_cons_some (by rw [found]; rfl), later]

theorem outcomes_names_bind (document : Document) (options : Options) :
    ((document.bind options.only).1.outcomes options).map Prod.fst
      = document.selected options.only := by
  rw [outcomes_names]
  exact selected_congr (document.names_bindFrom _ options.only) options.only

theorem declareSchema_of_mem_outcomes (document : Document) {options : Options}
    {name : String} {outcome : Except SchemaError Declared}
    (member : (name, outcome) ∈ document.outcomes options) :
    document.declareSchema options name = some outcome := by
  obtain ⟨other, _, found⟩ := List.mem_filterMap.mp member
  obtain ⟨outcome', declared, same⟩ := Option.map_eq_some_iff.mp found
  cases same
  exact declared

/-- A compilation takes in the outcomes of all selected schemas. -/
theorem addAll_of_compile {document : Document} {options : Options} {compilation : Compilation}
    (compiled : (document.compile options).2 = .ok compilation) :
    Compilation.addAll { diagnostics := (document.bind options.only).2.diagnostics }
      ((document.bind options.only).1.outcomes options) = compilation :=
  (Compilation.gather_ok_iff.mp compiled).2

theorem declarations_of_compile {document : Document} {options : Options}
    {compilation : Compilation} (compiled : (document.compile options).2 = .ok compilation) :
    compilation.declarations
      = Compilation.declarationsOf ((document.bind options.only).1.outcomes options) := by
  rw [← addAll_of_compile compiled, Compilation.declarations_addAll, List.nil_append]

theorem mem_declarations_of_compile {document : Document} {options : Options}
    {compilation : Compilation} (compiled : (document.compile options).2 = .ok compilation)
    {name : String} {declared : Declared}
    (member : (name, .ok declared) ∈ (document.bind options.only).1.outcomes options) :
    declared.decl ∈ compilation.declarations := by
  rw [declarations_of_compile compiled]
  exact List.mem_filterMap.mpr ⟨_, member, rfl⟩

theorem failures_of_compile {document : Document} {options : Options}
    {compilation : Compilation} (compiled : (document.compile options).2 = .ok compilation) :
    compilation.failures
      = Compilation.failuresOf ((document.bind options.only).1.outcomes options) := by
  rw [← addAll_of_compile compiled, Compilation.failures_addAll, List.nil_append]

/-- Whether declaring a schema has an end shows in its outcome. -/
theorem endless_congr {document document' : Document} {options options' : Options} {name : String}
    (same : document.declareSchema options name = document'.declareSchema options' name) :
    document.Endless options name ↔ document'.Endless options' name := by
  rw [endless_iff_declareSchema, endless_iff_declareSchema, same]

theorem endless_only (document : Document) (options : Options) (only : Option (List String))
    (name : String) :
    document.Endless { options with only } name ↔ document.Endless options name := by
  have same : Options.SameOutput { options with only } options := ⟨rfl, rfl, rfl⟩
  exact endless_congr ((AgreeOn.refl document).declareSchema same trivial)

/-- No outcome is for want of an end exactly if declaring ends for every selected schema. -/
theorem outcomes_end_iff (document : Document) (options : Options) :
    (∀ error ∈ Compilation.failuresOf (document.outcomes options), error.isOutOfSteps = false) ↔
      ∀ name ∈ document.selected options.only, ¬document.Endless options name := by
  rw [← outcomes_names]
  constructor
  · intro ending name listed endless
    obtain ⟨⟨name, outcome⟩, member, rfl⟩ := List.mem_map.mp listed
    obtain ⟨hint, failed⟩ := endless_iff_declareSchema.mp endless
    have same := (document.declareSchema_of_mem_outcomes member).symm.trans failed
    obtain rfl := Option.some.inj same
    cases ending _ (List.mem_filterMap.mpr ⟨_, member, rfl⟩)
  · intro ending error failed
    obtain ⟨⟨name, other | declared⟩, member, same⟩ := List.mem_filterMap.mp failed
    · cases same
      have outcome := document.declareSchema_of_mem_outcomes member
      have ends := ending name (List.mem_map.mpr ⟨_, member, rfl⟩)
      cases error with
      | endlessComposition hint => exact absurd (endless_iff_declareSchema.mpr ⟨hint, outcome⟩) ends
      | _ => rfl
    · cases same

/-- In lenient mode a document compiles exactly if declaring ends for every selected schema. -/
theorem exists_compile_lenient_iff (document : Document) (options : Options)
    (lenient : options.mode = .lenient) :
    (∃ compilation, (document.compile options).2 = .ok compilation) ↔
      ∀ name ∈ document.selected options.only,
        ¬(document.bind options.only).1.Endless options name := by
  have selected : (document.bind options.only).1.selected options.only
      = document.selected options.only :=
    selected_congr (document.names_bindFrom _ options.only) options.only
  rw [← selected, ← outcomes_end_iff]
  simp only [compile, compileBound, Compilation.gather_ok_iff, lenient, exists_and_left,
    exists_eq', and_true]
  rfl

/-- A document with two schemas that are declared without further ado. -/
theorem compile_pair {document : Document} {first second : String} {decl decl' : Decl}
    (names : document.names = [first, second]) (ascending : first ≤ second)
    (declared : (document.bind none).1.declareSchema {} first = some (.ok ⟨decl, {}, []⟩))
    (declared' : (document.bind none).1.declareSchema {} second = some (.ok ⟨decl', {}, []⟩))
    (quiet : (document.bind none).2.diagnostics = []) :
    (document.compile {}).2 = .ok { declarations := [decl, decl'] } := by
  have sorted : sortedNames [first, second] = [first, second] :=
    eq_of_perm_of_ascending (sortedNames_perm _) (sortedNames_pairwise _) (by simp [ascending])
  have selected : (document.bind none).1.selected none = [first, second] := by
    have same : (document.bind none).1.names = document.names := document.names_bindFrom _ none
    rw [selected_congr same, Document.selected, names, sorted]
  have outcomes : (document.bind none).1.outcomes {}
      = [(first, .ok ⟨decl, {}, []⟩), (second, .ok ⟨decl', {}, []⟩)] := by
    change ((document.bind none).1.selected none).filterMap _ = _
    rw [selected]
    simp [declared, declared']
  change Compilation.gather .lenient { diagnostics := (document.bind none).2.diagnostics }
    ((document.bind none).1.outcomes {}) = _
  rw [quiet, outcomes]
  rfl

theorem outcomes_filter (document : Document) (distinct : document.names.Nodup)
    (options : Options) (filter : List String) :
    (document.bind (some filter)).1.outcomes { options with only := some filter }
      = ((document.bind none).1.outcomes { options with only := none }).filter
          (·.1 ∈ filter) := by
  have names : ((document.bind (some filter)).1.selected none)
      = ((document.bind none).1.selected none) := by
    simp only [selected, bind, names_bindFrom]
  have distinctBound : (document.bind (some filter)).1.names.Nodup := by
    rw [bind, names_bindFrom]
    exact distinct
  simp only [outcomes]
  rw [selected_filter _ distinctBound, names, List.filterMap_filter, List.filter_filterMap]
  refine List.filterMap_congr fun name _ => ?_
  -- a name of the filter is visited and declared alike; any other is dropped on both sides
  by_cases listed : name ∈ filter
  · have visited : name ∈ document.visitOrder (Directory.ofDocument document) filter [] :=
      (mem_visitOrder_iff document _ filter name).mpr ⟨name, listed, .refl⟩
    have alike : Options.SameOutput { options with only := some filter }
        { options with only := none } := ⟨rfl, rfl, rfl⟩
    have same := (bindFrom_agreeOn document _ filter).declareSchema alike visited
    simp only [bind, listed, decide_true, if_true, same]
    cases (document.bindFrom _ none).1.declareSchema { options with only := none } name <;>
      simp [Option.filter, listed]
  · simp only [listed, decide_false, Bool.false_eq_true, if_false]
    cases (document.bind none).1.declareSchema { options with only := none } name <;>
      simp [Option.filter, listed]

/-- A filter changes no schema that it selects: each is declared as without the filter, with the
same imports, warnings or error. In lenient mode the declarations and failures of a filtered
compilation are those of the unfiltered one, schema by schema in ascending order, restricted to the
names of the filter.

Either compilation comes to a result exactly if declaring ends for each schema that it selects. So
with a filter there can be a result where there is none without, but never the other way round. -/
theorem filter_transparent (document : Document) (options : Options) (filter : List String) :
    (∀ name ∈ filter, (document.bind (some filter)).1.declareSchema options name
      = (document.bind none).1.declareSchema options name) ∧
    (document.names.Nodup → options.mode = .lenient →
      ∃ outcomes,
        outcomes = (document.bind none).1.outcomes { options with only := none } ∧
        (outcomes.map Prod.fst).Perm document.names ∧
        (outcomes.map Prod.fst).Pairwise (· < ·) ∧
        (∀ all, (document.compile { options with only := none }).2 = .ok all →
          all.declarations = Compilation.declarationsOf outcomes ∧
          all.failures = Compilation.failuresOf outcomes) ∧
        ((∃ all, (document.compile { options with only := none }).2 = .ok all) ↔
          ∀ name ∈ document.names, ¬(document.bind none).1.Endless options name) ∧
        (∀ filtered, (document.compile { options with only := some filter }).2 = .ok filtered →
          filtered.declarations = Compilation.declarationsOf (outcomes.filter (·.1 ∈ filter)) ∧
          filtered.failures = Compilation.failuresOf (outcomes.filter (·.1 ∈ filter))) ∧
        ((∃ filtered, (document.compile { options with only := some filter }).2 = .ok filtered) ↔
          ∀ name ∈ document.names, name ∈ filter →
            ¬(document.bind none).1.Endless options name)) := by
  have each : ∀ name ∈ filter, (document.bind (some filter)).1.declareSchema options name
      = (document.bind none).1.declareSchema options name := fun name listed =>
    (bindFrom_agreeOn document _ filter).declareSchema ⟨rfl, rfl, rfl⟩
      ((mem_visitOrder_iff document _ filter name).mpr ⟨name, listed, .refl⟩)
  refine ⟨each, fun distinct lenient => ?_⟩
  have names := outcomes_names (document.bind none).1 { options with only := none }
  rw [selected, bind, names_bindFrom] at names
  refine ⟨_, rfl, ?_, ?_, fun all compiled => ?_, ?_, fun filtered compiled => ?_, ?_⟩
  · rw [bind, names]
    exact sortedNames_perm _
  · rw [bind, names]
    exact sortedNames_strict distinct
  · exact ⟨declarations_of_compile compiled, failures_of_compile compiled⟩
  · have ending := document.exists_compile_lenient_iff { options with only := none } lenient
    simpa only [selected, mem_sortedNames, endless_only] using ending
  · rw [← outcomes_filter document distinct]
    exact ⟨declarations_of_compile compiled, failures_of_compile compiled⟩
  · have ending := document.exists_compile_lenient_iff { options with only := some filter } lenient
    simp only [mem_selected_iff, Option.some.injEq, forall_eq', and_imp, endless_only] at ending
    rw [ending]
    -- a schema of the filter is declared with the same outcome in either document
    exact forall₃_congr fun name _ listed => not_congr (endless_congr (each name listed))

/-- A list of what an alias stands for, two references away, next to a list without items. -/
def aliasedRows : Document where
  schemas := [
    ("Rows", .inline {
      type := some .array
      items := some (.ref { pointer := "#/components/schemas/Cell" }) }),
    ("Cell", .ref { pointer := "#/components/schemas/Text" }),
    ("Text", .inline { type := some .string }),
    ("Broken", .inline { type := some .array })]

theorem filter_transparent_aliasedRows :
    aliasedRows.names.Nodup ∧ ({} : Options).mode = .lenient ∧
    (aliasedRows.bind (some ["Rows"])).1.declareSchema {} "Rows"
      = (aliasedRows.bind none).1.declareSchema {} "Rows" ∧
    ∃ filtered, (aliasedRows.compile { only := some ["Rows"] }).2 = .ok filtered ∧
      filtered.declarations = Compilation.declarationsOf
        (((aliasedRows.bind none).1.outcomes {}).filter (·.1 ∈ ["Rows"])) ∧
      filtered.failures = Compilation.failuresOf
        (((aliasedRows.bind none).1.outcomes {}).filter (·.1 ∈ ["Rows"])) := by
  have distinct : aliasedRows.names.Nodup := by decide
  have ending : ∀ name ∈ aliasedRows.names, name ∈ ["Rows"] →
      ¬(aliasedRows.bind none).1.Endless {} name := by
    decide +kernel
  obtain ⟨each, whole⟩ := filter_transparent aliasedRows {} ["Rows"]
  obtain ⟨_, rfl, _, _, _, _, restricted, compiles⟩ := whole distinct rfl
  obtain ⟨filtered, compiled⟩ := compiles.mpr ending
  exact ⟨distinct, rfl, each "Rows" (by decide), filtered, compiled, restricted filtered compiled⟩

end Document

end Protoschema
