import Protoschema.Compilation
import Protoschema.Proofs.Bound
import Protoschema.Proofs.Rearranged
/-!
The order of maps in a document never reaches what is compiled. The directory, the bindings, the
declarations, the imports and the errors are the same for rearranged documents; only the reports may
come in another order. What carries this is that a pointer tells its place, so that no insertion
order decides a binding, and that properties are declared in a sorted or given order.
-/

namespace Protoschema

/-! ### Runs -/

namespace Run

/-- The same outcome and the same uses of packages, with the warnings in any order. -/
def Congruence.warningsReordered : Congruence where
  Rel run run' := run.outcome = run'.outcome ∧ run.uses = run'.uses ∧
    run.warnings.Perm run'.warnings
  refl _ := ⟨rfl, rfl, .refl _⟩
  bind := by
    rintro α β ⟨events, outcome⟩ ⟨events', _⟩ next next' ⟨rfl, uses, warnings⟩ onward
    cases outcome with
    | error error => exact ⟨rfl, uses, warnings⟩
    | ok value =>
      obtain ⟨outcomes, nextUses, nextWarnings⟩ := onward value
      refine ⟨outcomes, ?_, ?_⟩
      · simp only [Run.uses, bind_ok, List.filterMap_append] at uses nextUses ⊢
        rw [uses, nextUses]
      · simp only [Run.warnings, bind_ok, List.filterMap_append] at warnings nextWarnings ⊢
        exact warnings.append nextWarnings

theorem warningsReordered_notes (text : String → String) (names names' : List String)
    (perm : names.Perm names') : Congruence.warningsReordered.Rel
      (names.forM fun name => note (.warned (text name)))
      (names'.forM fun name => note (.warned (text name))) := by
  rw [forM_note, forM_note]
  refine ⟨rfl, ?_, (perm.map _).filterMap _⟩
  simp [uses, List.filterMap_map]

end Run

/-! ### Declaring -/

namespace Document.Rearranged

variable {document document' : Document} (rearranged : document.Rearranged document')
  (distinct : document.Distinct)
include rearranged distinct

theorem reference (reference : Reference) :
    reference.Agree Node.Moved document document' reference where
  pointer := rfl
  description := rfl
  binding := rfl
  target _ target _ := rearranged.lookup distinct target

omit rearranged distinct in
theorem schemaAgree {schema : Schema Node} {node' : Node}
    (moved : (Node.inline schema).Moved node') : ∃ schema', node' = .inline schema' ∧
      schema.Agree .warningsReordered Node.Moved schema' := by
  obtain ⟨related, distinctNode⟩ := moved
  obtain ⟨schema', rfl, inner⟩ := Node.rearranged_inline.mp related
  refine ⟨schema', rfl, ?_⟩
  have members : schema.Rearranged Node.Moved schema' := by
    rw [← Schema.map_id schema, ← Schema.map_id schema']
    exact inner.map fun child member _ related => ⟨related, distinctNode.child member⟩
  exact members.agree Run.warningsReordered_notes ((Node.distinct_inline schema).mp distinctNode).1

omit distinct in
theorem mem_freshPointers {node node' : Node} (moved : node.Moved node') (pointer : String) :
    pointer ∈ freshPointers document node ↔ pointer ∈ freshPointers document' node' :=
  ((moved.1.references.append rearranged.references).map _).mem_iff

/-- Rearranged nodes are declared alike, up to the order of warnings. -/
theorem simulation (options : Options) :
    Simulation .warningsReordered Node.Moved ⟨document, options⟩ ⟨document', options⟩ where
  renames := rfl
  enumPrefix := rfl
  ref reference node' moved := by
    rw [Node.rearranged_ref.mp moved.1]
    exact ⟨reference, rfl, (rearranged.reference distinct reference).mono fun _ _ => Or.inr⟩
  inline schema node' moved := by
    obtain ⟨schema', rfl, agree⟩ := schemaAgree moved
    refine ⟨schema', rfl, agree, agree.allOf.imp fun member member' moved hint position => ?_⟩
    refine memberObject_agree ?_ (fun _ _ => schemaAgree) hint position moved
      (fun reference _ _ => rearranged.mem_freshPointers moved reference.pointer)
    intro reference node' moved
    rw [Node.rearranged_ref.mp moved.1]
    exact ⟨reference, rfl, rearranged.reference distinct reference⟩

end Document.Rearranged

/-- Schemas declared alike, up to the order of warnings. -/
def Declared.Alike (declared declared' : Declared) : Prop :=
  declared.decl = declared'.decl ∧ declared.imports = declared'.imports ∧
    declared.warnings.Perm declared'.warnings

theorem Run.declared_alike {run run' : Run Decl}
    (related : Congruence.warningsReordered.Rel run run') (name : String) :
    Outcomes Declared.Alike (run.declared name) (run'.declared name) := by
  obtain ⟨events, outcome⟩ := run
  obtain ⟨events', _⟩ := run'
  obtain ⟨rfl, uses, warnings⟩ := related
  cases outcome with
  | error error => exact .error error
  | ok decl => exact .ok ⟨rfl, congrArg (Imports.recordAll {}) uses, warnings.map _⟩

theorem Document.Rearranged.declareSchema {document document' : Document}
    (rearranged : document.Rearranged document') (distinct : document.Distinct)
    (options : Options) (name : String) :
    Option.Rel (Outcomes Declared.Alike) (document.declareSchema options name)
      (document'.declareSchema options name) := by
  have found := rearranged.schema? distinct name
  simp only [Document.declareSchema]
  generalize document.schema? name = here at found ⊢
  generalize document'.schema? name = there at found ⊢
  cases found with
  | none => exact .none
  | @some node node' moved =>
    refine .some (Run.declared_alike ?_ name)
    have simulation := rearranged.simulation distinct options
    -- sizes are kept, so both sides have as many steps
    have runs : Run.Congruence.warningsReordered.Rel (declare ⟨document, options⟩ name node)
        (declare ⟨document', options⟩ name node') := by
      rw [declare, declare, stepBudget, stepBudget, rearranged.size, moved.1.size]
      exact simulation.declareWithin_rel _ [] name moved
    rw [declareTopLevel, declareTopLevel, simulation.description _ _ moved]
    exact Run.Congruence.bind _ runs fun _ => Run.Congruence.refl _ _

/-! ### Binding -/

namespace Document.Rearranged

variable {document document' : Document} (rearranged : document.Rearranged document')
  (distinct : document.Distinct)
include rearranged distinct

theorem bindReference_eq : Reference.bind (Directory.ofDocument document)
    = Reference.bind (Directory.ofDocument document') :=
  funext fun reference => Reference.bind_congr (rearranged.directory distinct reference.pointer)

theorem leadsTo_iff (name next : String) :
    document.LeadsTo (Directory.ofDocument document) name next ↔
      document'.LeadsTo (Directory.ofDocument document') name next := by
  have found := rearranged.schema? distinct name
  simp only [LeadsTo, successors, rearranged.bindReference_eq distinct]
  generalize document.schema? name = here at found ⊢
  generalize document'.schema? name = there at found ⊢
  cases found with
  | none => exact Iff.rfl
  | some moved => exact (moved.1.references.filterMap _).mem_iff

/-- The same schemas are visited, if not in the same order. -/
theorem visits (roots : Option (List String)) :
    (document.visits (Directory.ofDocument document) roots).Perm
      (document'.visits (Directory.ofDocument document') roots) := by
  cases roots with
  | none => exact rearranged.names
  | some roots =>
    -- neither order repeats a name, so it is enough that they have the same members
    refine (List.perm_ext_iff_of_nodup (visitOrder_fresh _ _ _ _).1
      (visitOrder_fresh _ _ _ _).1).mpr fun name => ?_
    rw [mem_visitOrder_iff, mem_visitOrder_iff]
    have same : document.LeadsTo (Directory.ofDocument document)
        = document'.LeadsTo (Directory.ofDocument document') := by
      funext name next
      exact propext (rearranged.leadsTo_iff distinct name next)
    rw [same]

/-- The same references are reported, if not in the same order. -/
theorem diagnostics (roots : Option (List String)) :
    (document.bind roots).2.diagnostics.Perm (document'.bind roots).2.diagnostics := by
  have reports (name : String) :
      (BindReport.ofName document (Directory.ofDocument document) name).diagnostics.Perm
        (BindReport.ofName document' (Directory.ofDocument document') name).diagnostics := by
    have found := rearranged.schema? distinct name
    have reference : BindReport.ofReference (Directory.ofDocument document) name
        = BindReport.ofReference (Directory.ofDocument document') name :=
      funext fun reference =>
        BindReport.ofReference_congr (rearranged.directory distinct reference.pointer) name
    simp only [BindReport.ofName, reference]
    generalize document.schema? name = here at found ⊢
    generalize document'.schema? name = there at found ⊢
    cases found with
    | none => exact .refl _
    | some moved =>
      simp only [BindReport.diagnostics_concat, List.flatMap_map]
      exact moved.1.references.flatMap_right _
  simp only [Document.bind, bindFrom, BindReport.diagnostics_concat, List.flatMap_map]
  exact (rearranged.visits distinct roots).flatMap fun name _ => reports name

theorem bind (roots : Option (List String)) :
    (document.bind roots).1.Rearranged (document'.bind roots).1 := by
  rw [Document.bind, Document.bind, bindFrom_fst, bindFrom_fst]
  refine rearranged.mapSchemas fun name node node' related => ?_
  have visited : (document.visits (Directory.ofDocument document) roots).contains name
      = (document'.visits (Directory.ofDocument document') roots).contains name :=
    (rearranged.visits distinct roots).contains_eq
  rw [boundNode, boundNode, rearranged.bindReference_eq distinct, visited]
  split
  · exact related.mapReferences _
  · exact related

end Document.Rearranged

theorem Document.Distinct.bind {document : Document} (distinct : document.Distinct)
    (roots : Option (List String)) : (document.bind roots).1.Distinct where
  names := by
    rw [Document.bind, names_bindFrom]
    exact distinct.names
  nodes := by
    rw [Document.bind, bindFrom_fst]
    refine List.forall_mem_map.mpr fun entry member => ?_
    unfold boundNode
    split
    · exact (distinct.nodes entry member).mapReferences _
    · exact distinct.nodes entry member

/-! ### Compiling -/

namespace Compilation

/-- Compilations that differ in the order of their reports only. -/
structure Alike (compilation compilation' : Compilation) : Prop where
  declarations : compilation.declarations = compilation'.declarations
  imports : compilation.imports = compilation'.imports
  failures : compilation.failures = compilation'.failures
  diagnostics : compilation.diagnostics.Perm compilation'.diagnostics

theorem Alike.add {compilation compilation' : Compilation} (alike : Alike compilation compilation')
    (name : String) {outcome outcome' : Except SchemaError Declared}
    (outcomes : Outcomes Declared.Alike outcome outcome') :
    Alike (compilation.add name outcome) (compilation'.add name outcome') := by
  cases outcomes with
  | ok declared =>
    obtain ⟨decl, imports, warnings⟩ := declared
    exact ⟨by simp only [Compilation.add, alike.declarations, decl],
      by simp only [Compilation.add, alike.imports, imports], alike.failures,
      alike.diagnostics.append warnings⟩
  | error error =>
    exact ⟨alike.declarations, alike.imports, by simp only [Compilation.add, alike.failures],
      alike.diagnostics.append (.refl _)⟩

/-- Gathering outcomes that are alike gives the same error, or compilations that are alike. -/
theorem gather_alike (mode : RunMode)
    {outcomes outcomes' : List (String × Except SchemaError Declared)}
    (pairs : List.Forall₂ (fun outcome outcome' => outcome.1 = outcome'.1 ∧
      Outcomes Declared.Alike outcome.2 outcome'.2) outcomes outcomes')
    {compilation compilation' : Compilation} (alike : Alike compilation compilation') :
    Outcomes Alike (gather mode compilation outcomes) (gather mode compilation' outcomes') := by
  induction pairs generalizing compilation compilation' with
  | nil => exact .ok alike
  | @cons head head' rest rest' pair _ induction =>
    obtain ⟨name, outcome⟩ := head
    obtain ⟨_, outcome'⟩ := head'
    obtain ⟨rfl, related⟩ := pair
    have next := induction (alike.add name related)
    cases related with
    | ok declared => exact next
    | error error =>
      rw [gather, gather]
      cases mode.endsWith error with
      | true => exact .error error
      | false => exact next

end Compilation

theorem Document.Rearranged.outcomes {document document' : Document}
    (rearranged : document.Rearranged document') (distinct : document.Distinct)
    (options : Options) :
    List.Forall₂ (fun outcome outcome' => outcome.1 = outcome'.1 ∧
      Outcomes Declared.Alike outcome.2 outcome'.2) (document.outcomes options)
      (document'.outcomes options) := by
  have selected : document.selected options.only = document'.selected options.only := by
    unfold Document.selected
    split
    · exact sortedNames_eq_of_perm rearranged.names
    · rw [Entries.has_congr rearranged.names]
  rw [Document.outcomes, Document.outcomes, selected]
  induction document'.selected options.only with
  | nil => exact .nil
  | cons name rest induction =>
    have declared := rearranged.declareSchema distinct options name
    simp only [List.filterMap_cons]
    generalize document.declareSchema options name = here at declared ⊢
    generalize document'.declareSchema options name = there at declared ⊢
    cases declared with
    | none => exact induction
    | some related => exact .cons ⟨rfl, related⟩ induction

/-- The order of schemas, and of properties at any depth, decides nothing of what is compiled:
declarations, imports, failures and text are the same, and so is the error in strict mode; the
reports are the same up to their order. -/
theorem Document.compile_rearranged (document document' : Document) (distinct : document.Distinct)
    (rearranged : document.Rearranged document') (options : Options) :
    Outcomes (fun compilation compilation' =>
      compilation.declarations = compilation'.declarations ∧
      compilation.imports = compilation'.imports ∧
      compilation.failures = compilation'.failures ∧
      compilation.text options = compilation'.text options ∧
      compilation.diagnostics.Perm compilation'.diagnostics)
      (document.compile options).2 (document'.compile options).2 := by
  have start : Compilation.Alike { diagnostics := (document.bind options.only).2.diagnostics }
      { diagnostics := (document'.bind options.only).2.diagnostics } :=
    ⟨rfl, rfl, rfl, rearranged.diagnostics distinct options.only⟩
  have outcomes :=
    (rearranged.bind distinct options.only).outcomes (distinct.bind options.only) options
  refine (Compilation.gather_alike options.mode outcomes start).mono fun _ _ alike => ?_
  refine ⟨alike.declarations, alike.imports, alike.failures, ?_, alike.diagnostics⟩
  rw [Compilation.text, Compilation.text, alike.declarations, alike.imports]

/-- A table and the type of one of its columns. -/
def table : Document where
  schemas := [
    ("Table", .inline {
      type := some .object
      properties := [
        ("id", .inline { type := some .integer }),
        ("name", .ref { pointer := "#/components/schemas/Name" })] }),
    ("Name", .inline { type := some .string })]

/-- The same, written in another order. -/
def tableReversed : Document where
  schemas := [
    ("Name", .inline { type := some .string }),
    ("Table", .inline {
      type := some .object
      properties := [
        ("name", .ref { pointer := "#/components/schemas/Name" }),
        ("id", .inline { type := some .integer })] })]

theorem Document.compile_rearranged_table :
    table.Distinct ∧ table.Rearranged tableReversed ∧
    Outcomes (fun compilation compilation' =>
      compilation.declarations = compilation'.declarations ∧
      compilation.imports = compilation'.imports ∧
      compilation.failures = compilation'.failures ∧
      compilation.text {} = compilation'.text {} ∧
      compilation.diagnostics.Perm compilation'.diagnostics)
      (table.compile {}).2 (tableReversed.compile {}).2 := by
  have distinct : table.Distinct := by
    refine ⟨by decide, ?_⟩
    have column : (Node.ref { pointer := "#/components/schemas/Name" }).Distinct := by
      simp [Node.Distinct]
    simp [table, Node.distinct_inline, Schema.children, Entries.keys, column]
  have rearranged : table.Rearranged tableReversed := by
    have scalar (type : SchemaType) : (Node.inline { type := some type }).Rearranged
        (.inline { type := some type }) :=
      Node.rearranged_inline.mpr
        ⟨_, rfl, rfl, rfl, rfl, ⟨[], .nil, .nil⟩, rfl, .none, .nil, .nil, .nil, .none, rfl⟩
    refine ⟨rfl, rfl, tableReversed.schemas.reverse,
      .cons ⟨rfl, ?_⟩ (.cons ⟨rfl, scalar .string⟩ .nil), List.reverse_perm _⟩
    refine Node.rearranged_inline.mpr ⟨_, rfl, rfl, rfl, rfl, ⟨_, ?_, .swap _ _ _⟩, rfl, .none,
      .nil, .nil, .nil, .none, rfl⟩
    exact .cons ⟨rfl, scalar .integer⟩ (.cons ⟨rfl, Node.rearranged_ref.mpr rfl⟩ .nil)
  exact ⟨distinct, rearranged, compile_rearranged table tableReversed distinct rearranged {}⟩

end Protoschema
