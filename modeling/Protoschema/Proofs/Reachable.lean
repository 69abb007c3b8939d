import Protoschema.Proofs.Rebinding
/-!
Which references binding from roots deals with. It walks a graph of schemas whose edges are
references, some of them bound before and some bound on the way. What it comes to is exactly what
the roots lead to, in any number of steps; there every reference that can be bound is, and every
other one is reported, once each. The rest of the document is left alone, and a name that is not in
the document is reported once, however often it comes up.
-/

namespace Protoschema

/-! ### The graph of schemas -/

/-- A reference stands in a node: it is the node, or stands in what one of its keywords holds. -/
inductive Node.Holds (reference : Reference) : Node → Prop
  | itself : Holds reference (.ref reference)
  | property {schema : Schema Node} {name : String} {node : Node} :
      (name, node) ∈ schema.properties → Holds reference node → Holds reference (.inline schema)
  | items {schema : Schema Node} {node : Node} :
      schema.items = some node → Holds reference node → Holds reference (.inline schema)
  | allOf {schema : Schema Node} {node : Node} :
      node ∈ schema.allOf → Holds reference node → Holds reference (.inline schema)
  | oneOf {schema : Schema Node} {node : Node} :
      node ∈ schema.oneOf → Holds reference node → Holds reference (.inline schema)
  | anyOf {schema : Schema Node} {node : Node} :
      node ∈ schema.anyOf → Holds reference node → Holds reference (.inline schema)
  | additional {schema : Schema Node} {node : Node} :
      schema.additional = some (.node node) → Holds reference node →
      Holds reference (.inline schema)

theorem Node.holds_of_child {reference : Reference} {schema : Schema Node} {child : Node}
    (member : child ∈ schema.children) (holds : Node.Holds reference child) :
    Node.Holds reference (.inline schema) := by
  simp only [Schema.children, List.mem_append, List.mem_map, Option.mem_toList,
    Option.bind_eq_some_iff] at member
  rcases member with
    ((((⟨⟨name, _⟩, inside, rfl⟩ | inside) | inside) | inside) | inside) | ⟨rest, inside, node⟩
  · exact .property inside holds
  · exact .items inside holds
  · exact .allOf inside holds
  · exact .oneOf inside holds
  · exact .anyOf inside holds
  · cases rest with
    | flag value => cases node
    | node value =>
      cases node
      exact .additional inside holds

theorem Node.holds_iff_mem {reference : Reference} {node : Node} :
    Node.Holds reference node ↔ reference ∈ node.references := by
  constructor
  · intro holds
    induction holds with
    | itself => simp
    | property inside _ induction =>
      exact references_subset_of_child (Schema.mem_children_of_property inside) induction
    | items inside _ induction =>
      exact references_subset_of_child (Schema.mem_children_of_items inside) induction
    | allOf inside _ induction =>
      exact references_subset_of_child (Schema.mem_children_of_allOf inside) induction
    | oneOf inside _ induction =>
      exact references_subset_of_child (Schema.mem_children_of_oneOf inside) induction
    | anyOf inside _ induction =>
      exact references_subset_of_child (Schema.mem_children_of_anyOf inside) induction
    | additional inside _ induction =>
      exact references_subset_of_child (Schema.mem_children_of_additional inside) induction
  · intro listed
    induction node using childInduction with
    | ref other =>
      rw [references_ref, List.mem_singleton] at listed
      subst listed
      exact .itself
    | inline schema induction =>
      rw [references_inline] at listed
      obtain ⟨child, member, inside⟩ := List.mem_flatMap.mp listed
      exact holds_of_child member (induction child member inside)

/-- A reference leads into a schema of the document: by the binding that it has or, if it has none
and its pointer is a local one, by what the directory says. -/
def Reference.LeadsInto (directory : Directory) (reference : Reference) (schema : String) : Prop :=
  ∃ name target, target.root = schema ∧
    (reference.binding = some (.here name target) ∨
      reference.binding = none ∧ Pointer.isExternal reference.pointer = false ∧
        directory.get? reference.pointer = some ⟨name, target⟩)

theorem Reference.reached?_bind_iff {directory : Directory} {reference : Reference}
    {schema : String} :
    (reference.bind directory).reached? = some schema ↔ reference.LeadsInto directory schema := by
  unfold LeadsInto reached?
  rw [binding_bind]
  cases bound : reference.binding with
  | some binding => cases binding <;> simp
  | none =>
    rw [Option.none_or, bindingIn?, externalBinding?]
    by_cases outside : Pointer.isExternal reference.pointer = true
    · simp [outside]
    · cases found : directory.get? reference.pointer with
      | none => simp [outside]
      | some address =>
        obtain ⟨name, target⟩ := address
        simp [outside]

namespace Document

/-- A schema of the document holds a reference that leads into another one. -/
def Points (document : Document) (directory : Directory) (schema next : String) : Prop :=
  ∃ node reference, document.schema? schema = some node ∧ Node.Holds reference node ∧
    reference.LeadsInto directory next

/-- A name that some root leads to, in any number of steps. -/
def Reachable (document : Document) (directory : Directory) (roots : List String)
    (name : String) : Prop :=
  ∃ root ∈ roots, Relation.ReflTransGen (document.Points directory) root name

variable (document : Document) (directory : Directory)

theorem leadsTo_eq_points : document.LeadsTo directory = document.Points directory := by
  funext schema next
  apply propext
  rw [LeadsTo, successors, Points]
  cases document.schema? schema with
  | none => simp
  | some node => simp [Reference.reached?_bind_iff, Node.holds_iff_mem]

theorem mem_visits_iff_reachable (roots : List String) (name : String) :
    name ∈ document.visits directory (some roots) ↔
      document.Reachable directory roots name := by
  rw [visits, mem_visitOrder_iff, leadsTo_eq_points]
  rfl

end Document

/-! ### Reports -/

/-- What binding makes of a reference that it comes to: it is bound, unless its pointer is a local
one that the directory does not know. -/
structure Reference.Processed (directory : Directory) (before after : Reference) : Prop
    extends before.Extends directory after where
  left : after.binding = none →
    Pointer.isExternal before.pointer = false ∧ directory.get? before.pointer = none

theorem Reference.processed_bind (directory : Directory) (reference : Reference) :
    reference.Processed directory (reference.bind directory) where
  toExtends := reference.extends_bind directory
  left := by
    intro unbound
    have unknown := (Option.or_eq_none_iff.mp unbound).2
    rw [bindingIn?, externalBinding?] at unknown
    split at unknown
    · cases unknown
    next inside =>
      rw [Option.none_or, Option.map_eq_none_iff] at unknown
      exact ⟨by simpa using inside, unknown⟩

/-- The report about a reference that could not be bound. -/
def Reference.miss (schema : String) (reference : Reference) : Diagnostic :=
  ⟨.warning, schema, "unresolved reference `" ++ reference.pointer ++ "`"⟩

/-- The report about a name that is not in the document. -/
def Document.unknownName (name : String) : Diagnostic :=
  ⟨.warning, name, "no such schema in components"⟩

/-- Whether a report is about a reference that could not be bound. -/
def Diagnostic.isMiss (diagnostic : Diagnostic) : Bool :=
  "unresolved reference `".toList.isPrefixOf diagnostic.message.toList

theorem Reference.isMiss_miss (schema : String) (reference : Reference) :
    (reference.miss schema).isMiss = true := by
  rw [Diagnostic.isMiss, miss, List.isPrefixOf_iff_prefix, String.toList_append,
    String.toList_append, List.append_assoc]
  exact List.prefix_append _ _

theorem Document.isMiss_unknownName (name : String) : (unknownName name).isMiss = false := by
  change "unresolved reference `".toList.isPrefixOf "no such schema in components".toList = false
  decide +kernel

namespace BindReport

variable (directory : Directory)

theorem diagnostics_ofReference (schema : String) (reference : Reference) :
    (ofReference directory schema reference).diagnostics
      = (([reference.bind directory].filter (·.binding = none)).map (Reference.miss schema)) := by
  cases bound : reference.binding with
  | some binding => simp [ofReference, bound]
  | none =>
    cases found : reference.bindingIn? directory with
    | none => simp [ofReference, bound, found, Reference.miss]
    | some binding => cases binding <;> simp [ofReference, bound, found]

theorem diagnostics_ofName_some {document : Document} {name : String} {node : Node}
    (found : document.schema? name = some node) :
    (ofName document directory name).diagnostics
      = ((node.references.map (·.bind directory)).filter (·.binding = none)).map
          (Reference.miss name) := by
  rw [ofName, found]
  dsimp only
  rw [diagnostics_concat, List.flatMap_map]
  simp only [diagnostics_ofReference]
  generalize node.references = references
  induction references with
  | nil => rfl
  | cons reference rest induction =>
    rw [List.flatMap_cons, induction, ← List.map_append, ← List.filter_append]
    rfl

theorem diagnostics_ofName_none {document : Document} {name : String}
    (missing : document.schema? name = none) :
    (ofName document directory name).diagnostics = [Document.unknownName name] := by
  rw [ofName, missing]
  rfl

theorem schema_of_mem_ofName {document : Document} {name : String} {diagnostic : Diagnostic}
    (member : diagnostic ∈ (ofName document directory name).diagnostics) :
    diagnostic.schema = name := by
  cases found : document.schema? name with
  | none =>
    rw [diagnostics_ofName_none directory found, List.mem_singleton] at member
    rw [member]
    rfl
  | some node =>
    rw [diagnostics_ofName_some directory found] at member
    obtain ⟨reference, _, rfl⟩ := List.mem_map.mp member
    rfl

/-- How many references a report accounts for. -/
def processed (report : BindReport) : Nat :=
  report.resolved + report.external + report.diagnostics.countP Diagnostic.isMiss

theorem processed_concat_cons (report : BindReport) (rest : List BindReport) :
    (concat (report :: rest)).processed = report.processed + (concat rest).processed := by
  change (append report (concat rest)).processed = _
  simp only [processed, append, List.countP_append]
  omega

theorem processed_ofReference (schema : String) (reference : Reference) :
    (ofReference directory schema reference).processed
      = [reference].countP (·.binding = none) := by
  cases bound : reference.binding with
  | some binding => simp [ofReference, bound, processed]
  | none =>
    cases found : reference.bindingIn? directory with
    | none =>
      -- the only report that is counted is the one about this reference
      have miss := Reference.isMiss_miss schema reference
      rw [Reference.miss] at miss
      simp [ofReference, bound, found, processed, miss]
    | some binding => cases binding <;> simp [ofReference, bound, found, processed]

theorem processed_ofName (document : Document) (name : String) :
    (ofName document directory name).processed
      = ((document.schema? name).toList.flatMap Node.references).countP (·.binding = none) := by
  unfold ofName
  cases document.schema? name with
  | none =>
    -- a report about a name that is not there is none about a reference
    have known := Document.isMiss_unknownName name
    rw [Document.unknownName] at known
    simp [processed, known]
  | some node =>
    simp only [Option.toList_some, List.flatMap_singleton]
    generalize node.references = references
    induction references with
    | nil => rfl
    | cons reference rest induction =>
      rw [List.map_cons, processed_concat_cons, induction, processed_ofReference,
        ← List.countP_append]
      rfl

theorem processed_concat_ofName (document : Document) (names : List String) :
    (concat (names.map (ofName document directory))).processed
      = ((names.filterMap document.schema?).flatMap Node.references).countP
          (·.binding = none) := by
  induction names with
  | nil => rfl
  | cons name rest induction =>
    rw [List.map_cons, processed_concat_cons, induction, processed_ofName, ← List.countP_append,
      ← List.flatMap_append]
    cases found : document.schema? name with
    | none => rw [List.filterMap_cons_none found, Option.toList_none, List.nil_append]
    | some node => rw [List.filterMap_cons_some found]; rfl

end BindReport

theorem filter_flatMap_of_nodup {α : Type} {names : List String} (distinct : names.Nodup)
    {list : String → List α} {nameOf : α → String}
    (named : ∀ name, ∀ item ∈ list name, nameOf item = name) (wanted : String) :
    (names.flatMap list).filter (nameOf · = wanted)
      = if wanted ∈ names then list wanted else [] := by
  have own : (list wanted).filter (nameOf · = wanted) = list wanted :=
    List.filter_eq_self.mpr fun item member => by simp [named wanted item member]
  have others {name : String} (other : name ≠ wanted) :
      (list name).filter (nameOf · = wanted) = [] :=
    List.filter_eq_nil_iff.mpr fun item member => by simp [named name item member, other]
  induction names with
  | nil => rfl
  | cons name rest induction =>
    obtain ⟨fresh, distinct⟩ := List.nodup_cons.mp distinct
    rw [List.flatMap_cons, List.filter_append, induction distinct]
    by_cases same : name = wanted
    · subst same
      simp [own, fresh]
    · simp [others same, Ne.symm same]

namespace Document

variable (document : Document) (directory : Directory)

theorem nodup_visits (roots : List String) : (document.visits directory (some roots)).Nodup :=
  (document.visitOrder_fresh directory roots []).1

theorem diagnostics_under (roots : List String) (name : String) :
    (document.bindFrom directory (some roots)).2.diagnostics.filter (·.schema = name)
      = if name ∈ document.visits directory (some roots) then
          (BindReport.ofName document directory name).diagnostics
        else [] := by
  rw [bindFrom]
  dsimp only
  rw [BindReport.diagnostics_concat, List.flatMap_map]
  -- a name is visited once, and its visit reports under no other name
  exact filter_flatMap_of_nodup (document.nodup_visits directory roots)
    (fun _ _ => BindReport.schema_of_mem_ofName directory) name

/-- Binding from roots deals with exactly the schemas that they lead to.

In a schema of the document that the roots lead to, every reference is processed, and those that
are then unbound are reported under the schema's name, in order and once each; nothing else is
reported under it. A schema that they do not lead to is left as it is, and nothing is reported
under it. A name that is not in the document is reported once if it is among the roots, or if an
old binding leads there, and else not at all. The references counted as bound or as external and
those reported are together as many as had been unbound in the schemas that the roots lead to. -/
theorem bindFrom_reachable (roots : List String) :
    ∃ bound report, document.bindFrom directory (some roots) = (bound, report) ∧
      (∀ name node, document.schema? name = some node →
        document.Reachable directory roots name →
          ∃ process : Reference → Reference,
            (∀ reference ∈ node.references,
              reference.Processed directory (process reference)) ∧
            bound.schema? name = some (node.mapReferences process) ∧
            report.diagnostics.filter (·.schema = name)
              = ((node.references.map process).filter (·.binding = none)).map
                  (Reference.miss name)) ∧
      (∀ name node, document.schema? name = some node →
        ¬document.Reachable directory roots name →
          bound.schema? name = some node ∧ report.diagnostics.filter (·.schema = name) = []) ∧
      (∀ name, document.schema? name = none →
        (document.Reachable directory roots name →
          report.diagnostics.filter (·.schema = name) = [unknownName name]) ∧
        (¬document.Reachable directory roots name →
          report.diagnostics.filter (·.schema = name) = [])) ∧
      ∃ visited : List String, visited.Nodup ∧
        (∀ name, name ∈ visited ↔ document.Reachable directory roots name) ∧
        report.resolved + report.external + report.diagnostics.countP Diagnostic.isMiss
          = ((visited.filterMap document.schema?).flatMap Node.references).countP
              (·.binding = none) := by
  have visited {name : String} (reachable : document.Reachable directory roots name) :
      name ∈ document.visits directory (some roots) :=
    (document.mem_visits_iff_reachable directory roots name).mpr reachable
  have unvisited {name : String} (unreachable : ¬document.Reachable directory roots name) :
      name ∉ document.visits directory (some roots) :=
    fun listed => unreachable ((document.mem_visits_iff_reachable directory roots name).mp listed)
  refine ⟨(document.bindFrom directory (some roots)).1,
    (document.bindFrom directory (some roots)).2, rfl, ?_, ?_, fun name missing => ⟨?_, ?_⟩, ?_⟩
  · intro name node found reachable
    refine ⟨(·.bind directory), fun reference _ => reference.processed_bind directory, ?_, ?_⟩
    · rw [schema?_bindFrom, found, Option.map_some,
        boundNode_visited _ _ _ (visited reachable)]
    · rw [diagnostics_under, if_pos (visited reachable),
        BindReport.diagnostics_ofName_some directory found]
  · intro name node found unreachable
    constructor
    · rw [schema?_bindFrom, found, Option.map_some, boundNode,
        if_neg (by simpa using unvisited unreachable)]
    · rw [diagnostics_under, if_neg (unvisited unreachable)]
  · intro reachable
    rw [diagnostics_under, if_pos (visited reachable),
      BindReport.diagnostics_ofName_none directory missing]
  · intro unreachable
    rw [diagnostics_under, if_neg (unvisited unreachable)]
  · -- the names visited are those reachable, without repetition
    refine ⟨document.visits directory (some roots), document.nodup_visits directory roots,
      document.mem_visits_iff_reachable directory roots, ?_⟩
    exact BindReport.processed_concat_ofName directory document _

end Document

end Protoschema
