import Protoschema.Proofs.Naming
import Protoschema.Proofs.Visits
import Protoschema.Reading.Load
/-!
Documents whose references have been bound. Binding keeps the names, sizes and pointers of a
document; a schema that is visited has all its references bound, any other is left as it was. A
document that has just been read has no bindings, so that binding all of it binds every reference as
one directory says.
-/

namespace Protoschema

@[simp] theorem Reference.pointer_bind (directory : Directory) (reference : Reference) :
    (reference.bind directory).pointer = reference.pointer := rfl

section Directories

variable {directory directory' : Directory} {reference : Reference}

/-- What a reference is bound to depends on what the directory says of its pointer alone. -/
theorem Reference.bindingIn?_congr
    (same : directory.get? reference.pointer = directory'.get? reference.pointer) :
    reference.bindingIn? directory = reference.bindingIn? directory' := by
  rw [bindingIn?, bindingIn?, same]

theorem Reference.bind_congr
    (same : directory.get? reference.pointer = directory'.get? reference.pointer) :
    reference.bind directory = reference.bind directory' := by
  rw [bind, bind, bindingIn?_congr same]

theorem BindReport.ofReference_congr
    (same : directory.get? reference.pointer = directory'.get? reference.pointer)
    (schema : String) :
    ofReference directory schema reference = ofReference directory' schema reference := by
  rw [ofReference, ofReference, Reference.bindingIn?_congr same]

end Directories

theorem BindReport.diagnostics_concat (reports : List BindReport) :
    (concat reports).diagnostics = reports.flatMap BindReport.diagnostics := by
  induction reports with
  | nil => rfl
  | cons report rest induction =>
    rw [List.flatMap_cons, ← induction]
    rfl

/-- Every local reference of a node leads into one of these schemas. -/
def Node.LeadsWithin (within : String → Prop) (node : Node) : Prop :=
  ∀ reference ∈ node.references, ∀ root, reference.reached? = some root → within root

theorem Node.LeadsWithin.child {within : String → Prop} {schema : Schema Node}
    (leads : (Node.inline schema).LeadsWithin within) {child : Node}
    (member : child ∈ schema.children) : child.LeadsWithin within :=
  fun reference inside => leads reference (references_subset_of_child member inside)

namespace Document

variable (document : Document) (directory : Directory) (roots : Option (List String))

/-- The node that binding puts in the place of a schema. -/
def boundNode (name : String) (node : Node) : Node :=
  if (document.visits directory roots).contains name then node.mapReferences (·.bind directory)
  else node

theorem bindFrom_fst :
    (document.bindFrom directory roots).1
      = document.mapSchemas (document.boundNode directory roots) := rfl

theorem boundNode_visited {name : String} (visited : name ∈ document.visits directory roots)
    (node : Node) :
    document.boundNode directory roots name node = node.mapReferences (·.bind directory) := by
  simp [boundNode, visited]

theorem schema?_bindFrom (name : String) :
    (document.bindFrom directory roots).1.schema? name
      = (document.schema? name).map (document.boundNode directory roots name) := by
  rw [bindFrom_fst, schema?_mapSchemas]

theorem schema?_bindFrom_none (name : String) :
    (document.bindFrom directory none).1.schema? name
      = (document.schema? name).map (·.mapReferences (·.bind directory)) := by
  rw [schema?_bindFrom]
  refine Option.map_congr fun node found => boundNode_visited document directory none ?_ node
  exact List.mem_map.mpr ⟨(name, node), Entries.mem_of_get? found, rfl⟩

theorem names_bindFrom : (document.bindFrom directory roots).1.names = document.names := by
  rw [bindFrom_fst, names_mapSchemas]

theorem size_bindFrom : (document.bindFrom directory roots).1.size = document.size := by
  rw [bindFrom_fst, size_mapSchemas]
  intro name node
  unfold boundNode
  split
  · exact Node.size_mapReferences _ node
  · rfl

theorem pointers_bindFrom :
    (document.bindFrom directory roots).1.references.map Reference.pointer
      = document.references.map Reference.pointer := by
  have kept (name : String) (node : Node) :
      (document.boundNode directory roots name node).references.map Reference.pointer
        = node.references.map Reference.pointer := by
    unfold boundNode
    split
    · simp [Node.references_mapReferences, Function.comp_def]
    · rfl
  simp only [bindFrom_fst, mapSchemas, references, List.flatMap_map, List.map_flatMap, kept]

/-- What a schema that is visited leads to after binding is visited as well. -/
theorem leadsWithin_of_visited {within : List String} {name : String} {node : Node}
    (closed : ∀ next, document.LeadsTo directory name next → next ∈ within)
    (found : document.schema? name = some node) :
    (node.mapReferences (·.bind directory)).LeadsWithin (· ∈ within) := by
  intro reference inside root reached
  rw [Node.references_mapReferences] at inside
  obtain ⟨source, member, rfl⟩ := List.mem_map.mp inside
  apply closed
  rw [LeadsTo, successors, found]
  exact List.mem_filterMap.mpr ⟨source, member, reached⟩

end Document

/-! ### References bound through one directory -/

/-- A reference that is bound as a directory says. -/
def Reference.BoundIn (directory : Directory) (reference : Reference) : Prop :=
  reference.binding = reference.bindingIn? directory

/-- Local references with the same pointer are bound to the same place. -/
theorem Reference.BoundIn.here_of_pointer_eq {directory : Directory}
    {reference reference' : Reference} (bound : reference.BoundIn directory)
    (bound' : reference'.BoundIn directory) (same : reference.pointer = reference'.pointer)
    {name : String} {target : Location} (here : reference.binding = some (.here name target)) :
    reference'.binding = some (.here name target) := by
  -- whether a pointer leads out of the document is told by the pointer, and so is what it finds
  rw [bound, bindingIn?, externalBinding?] at here
  rw [bound', bindingIn?, externalBinding?, ← same]
  split at here
  · cases here
  next internal =>
    rw [if_neg internal]
    exact here

/-- A reference that is bound through the directory of a document carries the pointer of its place,
and the name that the directory gives it. -/
theorem Reference.BoundIn.entry {document : Document} {reference : Reference}
    (bound : reference.BoundIn (Directory.ofDocument document)) {name : String} {target : Location}
    (here : reference.binding = some (.here name target)) :
    (reference.pointer, ⟨name, target⟩) = target.entry := by
  rw [bound, bindingIn?, externalBinding?] at here
  split at here
  · cases here
  · obtain ⟨address, found, same⟩ := Option.map_eq_some_iff.mp here
    cases same
    obtain ⟨location, entry, _⟩ :=
      Document.exists_of_mem_entries (Document.directory_get?_iff_mem.mp found)
    have place : address = location.entry.2 := congrArg Prod.snd entry
    rw [Location.entry_snd] at place
    subst place
    exact entry

/-- A node whose references are all bound as a directory says. -/
def Node.BoundIn (directory : Directory) (node : Node) : Prop :=
  ∀ reference ∈ node.references, reference.BoundIn directory

/-- A document whose references are all bound as a directory says. -/
def Document.BoundIn (directory : Directory) (document : Document) : Prop :=
  ∀ reference ∈ document.references, reference.BoundIn directory

/-- A node none of whose references has been bound. -/
def Node.Unbound (node : Node) : Prop :=
  ∀ reference ∈ node.references, reference.binding = none

/-- A document none of whose references has been bound. -/
def Document.Unbound (document : Document) : Prop :=
  ∀ reference ∈ document.references, reference.binding = none

theorem Node.unbound_inline {schema : Schema Node}
    (children : ∀ child ∈ schema.children, child.Unbound) : (Node.inline schema).Unbound := by
  intro reference listed
  rw [references_inline] at listed
  obtain ⟨child, member, inside⟩ := List.mem_flatMap.mp listed
  exact children child member reference inside

/-- Nodes that are read from data have no bindings. -/
private theorem unbound_ofDatum :
    (∀ datum, (Node.ofDatum datum).Unbound) ∧
    (∀ datum, ∀ node ∈ ((Node.additionalOfDatum datum).bind Additional.node?).toList,
      node.Unbound) ∧
    (∀ datum, ∀ node ∈ Node.listOfDatum datum, node.Unbound) ∧
    (∀ data, ∀ node ∈ Node.ofData data, node.Unbound) ∧
    (∀ datum, ∀ node ∈ (Node.optionOfDatum datum).toList, node.Unbound) ∧
    (∀ datum, ∀ entry ∈ Node.entriesOfDatum datum, entry.2.Unbound) ∧
    (∀ entries, ∀ entry ∈ Node.ofEntries entries, entry.2.Unbound) := by
  -- the cases follow the functions that read nodes, lists, maps and what may be missing
  apply Node.ofDatum.mutual_induct
  case case1 =>
    intro pointer package type format description properties order items allOf oneOf anyOf
      additional values ofProperties ofItems ofAllOf ofOneOf ofAnyOf ofAdditional
    rw [Node.ofDatum, Node.ofKeywords]
    split
    · simp [Node.Unbound]
    · refine Node.unbound_inline fun child member => ?_
      simp only [Schema.children, List.mem_append, List.mem_map] at member
      rcases member with ((((⟨entry, inside, rfl⟩ | inside) | inside) | inside) | inside) | inside
      · exact ofProperties entry inside
      · exact ofItems child inside
      · exact ofAllOf child inside
      · exact ofOneOf child inside
      · exact ofAnyOf child inside
      · exact ofAdditional child inside
  case case2 =>
    intro datum other
    rw [Node.ofDatum.eq_2 datum other]
    exact Node.unbound_inline (by simp [Schema.children])
  case case3 => simp [Node.additionalOfDatum, Additional.node?]
  case case4 =>
    intro members ofRecord
    simpa [Node.additionalOfDatum, Additional.node?] using ofRecord
  case case5 =>
    intro datum notFlag notRecord
    cases datum <;> simp_all [Node.additionalOfDatum]
  case case6 =>
    intro items ofItems
    rwa [Node.listOfDatum]
  case case7 =>
    intro datum notList
    cases datum <;> simp_all [Node.listOfDatum]
  case case8 => simp [Node.ofData]
  case case9 =>
    intro datum rest ofHead ofRest
    rw [Node.ofData]
    exact List.forall_mem_cons.mpr ⟨ofHead, ofRest⟩
  case case10 =>
    intro members ofRecord
    simpa [Node.optionOfDatum] using ofRecord
  case case11 =>
    intro datum notRecord
    cases datum <;> simp_all [Node.optionOfDatum]
  case case12 =>
    intro entries ofEntries
    rwa [Node.entriesOfDatum]
  case case13 =>
    intro datum notMap
    cases datum <;> simp_all [Node.entriesOfDatum]
  case case14 => simp [Node.ofEntries]
  case case15 =>
    intro name datum rest ofHead ofRest
    rw [Node.ofEntries]
    exact List.forall_mem_cons.mpr ⟨ofHead, ofRest⟩

/-- A document that has just been read has no bindings. -/
theorem Document.unbound_of_ofText {format : Format} {text : String} {document : Document}
    (read : Document.ofText format text = .ok document) : document.Unbound := by
  obtain ⟨_, _, _, _, _, ofEntries, _⟩ := unbound_ofDatum
  have free (datum : Reading.Datum) : (Document.ofDatum datum).Unbound := by
    intro reference listed
    obtain ⟨entry, present, inside⟩ := List.mem_flatMap.mp listed
    unfold Document.ofDatum at present
    split at present
    next openapi info schemas => exact ofEntries schemas entry present reference inside
    · cases present
    · cases present
  unfold Document.ofText at read
  cases datum : format.read .document text with
  | error fault => simp [datum, Except.map] at read
  | ok datum' =>
    simp only [datum, Except.map, Except.ok.injEq] at read
    exact read ▸ free datum'

theorem Reference.boundIn_bind {reference : Reference} (free : reference.binding = none)
    (directory : Directory) : (reference.bind directory).BoundIn directory := by
  rw [Reference.BoundIn, Reference.bind, free]
  rfl

/-- Binding all schemas of an unbound document binds every reference as the directory says. -/
theorem Document.Unbound.boundIn {document : Document} (unbound : document.Unbound)
    (directory : Directory) : (document.bindFrom directory none).1.BoundIn directory := by
  intro reference listed
  rw [bindFrom_fst] at listed
  simp only [references, mapSchemas, List.flatMap_map, List.mem_flatMap] at listed
  obtain ⟨⟨name, node⟩, present, inside⟩ := listed
  have visited : name ∈ document.visits directory none := List.mem_map.mpr ⟨_, present, rfl⟩
  rw [boundNode_visited _ _ _ visited, Node.references_mapReferences] at inside
  obtain ⟨source, member, rfl⟩ := List.mem_map.mp inside
  have free := unbound source (List.mem_flatMap.mpr ⟨_, present, member⟩)
  exact Reference.boundIn_bind free directory

/-- Binding some schemas of an unbound document binds as the directory says, or not at all. -/
theorem Document.Unbound.boundIn_of_bound {document : Document} (unbound : document.Unbound)
    {directory : Directory} {roots : Option (List String)} {reference : Reference}
    (listed : reference ∈ (document.bindFrom directory roots).1.references)
    (bound : reference.binding ≠ none) : reference.BoundIn directory := by
  rw [bindFrom_fst] at listed
  simp only [references, mapSchemas, List.flatMap_map, List.mem_flatMap] at listed
  obtain ⟨⟨name, node⟩, present, inside⟩ := listed
  by_cases visited : name ∈ document.visits directory roots
  · rw [boundNode_visited _ _ _ visited, Node.references_mapReferences] at inside
    obtain ⟨source, member, rfl⟩ := List.mem_map.mp inside
    have free := unbound source (List.mem_flatMap.mpr ⟨_, present, member⟩)
    exact Reference.boundIn_bind free directory
  · have same : document.boundNode directory roots name node = node := by simp [boundNode, visited]
    rw [same] at inside
    exact absurd (unbound reference (List.mem_flatMap.mpr ⟨_, present, inside⟩)) bound

end Protoschema
