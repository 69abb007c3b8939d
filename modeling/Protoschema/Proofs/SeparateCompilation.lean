import Protoschema.Compilation
import Protoschema.Proofs.Bound
import Protoschema.Proofs.Naming
import Protoschema.Proofs.StepBudget
/-!
Separate compilation. A schema with a declaration of its own is linked by name, and nothing but its
name and place can be told from the link. So its body can be replaced without a change to any other
schema, unless one looks inside: by a pointer to a place below the schema, or by a composition that
copies its fields.
-/

namespace Protoschema

/-- Pointers to places strictly below a top-level schema. -/
def Pointer.IsBelow (name pointer : String) : Prop :=
  ∃ rest, pointer = Pointer.ofSchema name ++ "/" ++ rest

/-- One node holds another: itself, or one that an inner node holds. -/
inductive Node.Contains : Node → Node → Prop
  | self (node : Node) : Contains node node
  | child {schema : Schema Node} {child inner : Node} : child ∈ schema.children →
      Contains child inner → Contains (.inline schema) inner

namespace Document

/-- The places that a chain of references passes. A chain goes on for as long as it leads to further
references. -/
inductive Reaches (document : Document) : Node → Location → Prop
  | target {reference : Reference} {name : String} {target : Location} :
      reference.binding = some (.here name target) → Reaches document (.ref reference) target
  | onward {reference : Reference} {name : String} {target location : Location} {next : Node} :
      reference.binding = some (.here name target) → document.lookup target = some next →
      Reaches document next location → Reaches document (.ref reference) location

/-- No other schema has a pointer to a place strictly below this one. -/
def PointedAtWhole (document : Document) (name : String) : Prop :=
  ∀ other node, other ≠ name → document.schema? other = some node →
    ∀ reference ∈ node.references, ¬Pointer.IsBelow name reference.pointer

/-- No other schema has a composition with a member whose references lead to this one. -/
def Uncopied (document : Document) (name : String) : Prop :=
  ∀ other node, other ≠ name → document.schema? other = some node →
    ∀ composed, node.Contains (.inline composed) → ∀ member ∈ composed.allOf,
      ¬document.Reaches member ⟨name, []⟩

/-- The document with another inline schema under a name. -/
def replace (document : Document) (name : String) (replacement : Schema Node) : Document :=
  { document with schemas := document.schemas.put name (.inline replacement) }

end Document

namespace Node

theorem contains_ref_iff {reference : Reference} {inner : Node} :
    (Node.ref reference).Contains inner ↔ inner = .ref reference := by
  constructor
  · rintro ⟨⟩
    rfl
  · rintro rfl
    exact .self _

theorem contains_inline_iff {schema : Schema Node} {inner : Node} :
    (Node.inline schema).Contains inner ↔
      inner = .inline schema ∨ ∃ child ∈ schema.children, child.Contains inner := by
  constructor
  · intro contains
    cases contains with
    | self => exact .inl rfl
    | child member contains => exact .inr ⟨_, member, contains⟩
  · rintro (rfl | ⟨child, member, contains⟩)
    · exact .self _
    · exact .child member contains

theorem Contains.inner {node : Node} {schema : Schema Node}
    (contains : node.Contains (.inline schema)) {child : Node} (member : child ∈ schema.children) :
    node.Contains child := by
  generalize same : Node.inline schema = holder at contains
  induction contains with
  | self node =>
    subst same
    exact .child member (.self child)
  | child outer _ induction => exact .child outer (induction same)

theorem Contains.references_subset {node inner : Node} (contains : node.Contains inner) :
    inner.references ⊆ node.references := by
  induction contains with
  | self node => exact List.Subset.refl _
  | child member _ induction =>
    exact List.Subset.trans induction (references_subset_of_child member)

theorem contains_of_descend {node found : Node} {path : List String}
    (reached : node.descend path = some found) : node.Contains found :=
  holds_of_descend (fun _ contains _ member => contains.inner member) reached (.self node)

/-- Whether a node has a declaration of its own does not depend on its references. -/
theorem declares_mapReferences (f : Reference → Reference) (node : Node) :
    (Shape.of (node.mapReferences f)).declares = (Shape.of node).declares := by
  cases node with
  | ref reference => simp [Shape.of, Shape.declares]
  | inline schema =>
    obtain ⟨type, _, _, _, _, _, allOf, oneOf, _, additional, values⟩ := schema
    simp only [mapReferences_inline, Shape.of, Shape.ofSchema, Schema.map]
    rcases oneOf with _ | _
    · rcases allOf with _ | _
      · rcases additional with _ | _
        · rcases type with _ | type
          · cases values <;> rfl
          · cases type <;> cases values <;> rfl
        · rfl
      · rfl
    · rfl

end Node

/-! ### Documents that differ in one body -/

namespace Document

/-- Documents with the same schemas but under one name, where both have a schema with a declaration
of its own. Other schemas refer to it as a whole, and no composition among them copies it. -/
structure AgreeOff (name : String) (document document' : Document) : Prop where
  schema : ∀ other, other ≠ name → document.schema? other = document'.schema? other
  declares : ∃ node, document.schema? name = some node ∧ (Shape.of node).declares
  declares' : ∃ node, document'.schema? name = some node ∧ (Shape.of node).declares
  whole : ∀ other top, other ≠ name → document.schema? other = some top →
    ∀ reference ∈ top.references, ∀ link target, reference.binding = some (.here link target) →
      target.root = name → target = ⟨name, []⟩
  uncopied : document.Uncopied name

/-- The nodes in all schemas but one. -/
def Outside (document : Document) (name : String) (node : Node) : Prop :=
  ∃ other top, other ≠ name ∧ document.schema? other = some top ∧ top.Contains node

theorem Outside.child {document : Document} {name : String} {schema : Schema Node}
    (outside : document.Outside name (.inline schema)) {child : Node}
    (member : child ∈ schema.children) : document.Outside name child := by
  obtain ⟨other, top, apart, found, contains⟩ := outside
  exact ⟨other, top, apart, found, contains.inner member⟩

theorem lookup_top (document : Document) (name : String) :
    document.lookup ⟨name, []⟩ = document.schema? name := by
  rw [lookup]
  cases document.schema? name with
  | none => rfl
  | some node => cases node <;> rfl

theorem outside_of_lookup {document : Document} {name : String} {target : Location} {node : Node}
    (apart : target.root ≠ name) (found : document.lookup target = some node) :
    document.Outside name node := by
  obtain ⟨top, atRoot, reached⟩ := Option.bind_eq_some_iff.mp found
  exact ⟨target.root, top, apart, atRoot, Node.contains_of_descend reached⟩

namespace AgreeOff

variable {name : String} {document document' : Document}

theorem lookup (agree : AgreeOff name document document') {target : Location}
    (apart : target.root ≠ name) : document.lookup target = document'.lookup target := by
  rw [Document.lookup, Document.lookup, agree.schema _ apart]

/-- A reference outside leads to the one schema as a whole, or to the same node outside. -/
theorem target (agree : AgreeOff name document document') {reference : Reference}
    (outside : document.Outside name (.ref reference)) {link : String} {target : Location}
    (bound : reference.binding = some (.here link target)) :
    target = ⟨name, []⟩ ∨ document.lookup target = document'.lookup target ∧
      ∀ node, document.lookup target = some node → document.Outside name node := by
  obtain ⟨other, top, apart, found, contains⟩ := outside
  by_cases inside : target.root = name
  · have listed : reference ∈ top.references := contains.references_subset (by simp)
    exact .inl (agree.whole other top apart found reference listed link target bound inside)
  · exact .inr ⟨agree.lookup inside, fun node reached => outside_of_lookup inside reached⟩

/-- A link tells no more of the one schema than that it has a declaration. -/
theorem reference (agree : AgreeOff name document document') {reference : Reference}
    (outside : document.Outside name (.ref reference)) :
    reference.Agree (fun node node' => (Shape.of node).declares ∧ (Shape.of node').declares ∨
      node = node' ∧ document.Outside name node) document document' reference where
  pointer := rfl
  description := rfl
  binding := rfl
  target link target bound := by
    rcases agree.target outside bound with rfl | ⟨same, apart⟩
    · -- the two bodies may differ, but both have a declaration to link to
      obtain ⟨node, found, declares⟩ := agree.declares
      obtain ⟨node', found', declares'⟩ := agree.declares'
      rw [lookup_top, lookup_top, found, found']
      exact .some (.inl ⟨declares, declares'⟩)
    · rw [← same]
      cases reached : document.lookup target with
      | none => exact .none
      | some node => exact .some (.inr ⟨rfl, apart node reached⟩)

/-- Nodes outside whose references never lead to the one schema: what the members of compositions
stand for. -/
def Clear (name : String) (document : Document) (node : Node) : Prop :=
  document.Outside name node ∧ ¬document.Reaches node ⟨name, []⟩

theorem clear_reference (agree : AgreeOff name document document') {reference : Reference}
    (clear : Clear name document (.ref reference)) :
    reference.Agree (fun node node' => node = node' ∧ Clear name document node) document document'
      reference where
  pointer := rfl
  description := rfl
  binding := rfl
  target link target bound := by
    rcases agree.target clear.1 bound with rfl | ⟨same, apart⟩
    · exact absurd (.target bound) clear.2
    · rw [← same]
      cases reached : document.lookup target with
      | none => exact .none
      | some node =>
        exact .some ⟨rfl, apart node reached, fun onward => clear.2 (.onward bound reached onward)⟩

theorem pointer_mem (agree : AgreeOff name document document') {reference : Reference}
    (outside : document.Outside name (.ref reference)) (node : Node) :
    reference.pointer ∈ freshPointers document node ∧
      reference.pointer ∈ freshPointers document' node := by
  obtain ⟨other, top, apart, found, contains⟩ := outside
  have listed : reference ∈ top.references := contains.references_subset (by simp)
  have fresh {document : Document} (found : document.schema? other = some top) :
      reference.pointer ∈ freshPointers document node :=
    List.mem_map.mpr ⟨reference,
      List.mem_append_right _ (references_subset_of_schema? found listed), rfl⟩
  exact ⟨fresh found, fresh (agree.schema other apart ▸ found)⟩

/-- Declaring nodes outside is the same in both documents. -/
theorem simulation (agree : AgreeOff name document document') (options : Options) :
    Simulation .equality (fun node node' => node = node' ∧ document.Outside name node)
      ⟨document, options⟩ ⟨document', options⟩ := by
  refine .of_shared (Clear name document) rfl rfl ?_ ?_ ?_ ?_ ?_ ?_
  · exact fun schema outside node member => outside.child member
  · exact fun reference outside => agree.reference outside
  · intro schema outside node member
    refine ⟨outside.child (Schema.mem_children_of_allOf member), ?_⟩
    obtain ⟨other, top, apart, found, contains⟩ := outside
    exact agree.uncopied other top apart found schema contains node member
  · exact fun schema clear => clear.1
  · exact fun reference clear => agree.clear_reference clear
  · intro reference clear node
    have fresh := agree.pointer_mem clear.1 node
    exact iff_of_true fresh.1 fresh.2

/-- The other schemas are declared alike, or declaring has no end in either document. The documents
may differ in size, and so in the number of steps that they are given. -/
theorem declareSchema (agree : AgreeOff name document document') (options : Options)
    {other : String} (apart : other ≠ name) :
    document.declareSchema options other = document'.declareSchema options other ∨
      document.Endless options other ∧ document'.Endless options other := by
  have found' := agree.schema other apart
  cases found : document.schema? other with
  | none =>
    left
    rw [Document.declareSchema, Document.declareSchema, ← found', found]
    rfl
  | some node =>
    rw [found] at found'
    have outside : document.Outside name node := ⟨other, node, apart, found, .self node⟩
    have runs (steps : Nat) : declareWithin ⟨document, options⟩ steps [] other node
        = declareWithin ⟨document', options⟩ steps [] other node :=
      (agree.simulation options).declareWithin_rel steps [] other ⟨rfl, outside⟩
    -- the budgets differ, but a run that ends within one of them ends within the other as well
    by_cases ends : (declare ⟨document, options⟩ other node).Ends
    · left
      have same : declare ⟨document, options⟩ other node
          = declare ⟨document', options⟩ other node := by
        rw [declare, runs] at ends
        rw [declare, runs, declareWithin_eq_declare ends]
      rw [Document.declareSchema, Document.declareSchema, found, ← found', Option.map_some,
        Option.map_some, declareTopLevel, declareTopLevel, same]
    · right
      have endless := endless_iff.mpr ends
      refine ⟨⟨node, found, endless⟩, node, found'.symm, fun steps ends' => endless steps ?_⟩
      rw [runs]
      exact ends'

end AgreeOff

end Document

/-! ### Replaced bodies -/

/-- The properties of a schema stand below it. -/
theorem Pointer.isBelow_ofLocation (name property : String) (path : List String) :
    IsBelow name (ofLocation name (property :: path)) := by
  refine ⟨String.ofList ("properties/".toList ++ escapeChars property.toList ++ below path),
    String.toList_injective ?_⟩
  rw [toList_ofLocation]
  simp [ofSchema, escape, below]

namespace Document

variable {document : Document} {name : String} {replacement : Schema Node}

theorem schema?_replace_self (document : Document) (name : String) (replacement : Schema Node) :
    (document.replace name replacement).schema? name = some (.inline replacement) :=
  Entries.get?_put_self document.schemas name _

theorem schema?_replace_of_ne (document : Document) {name other : String} (apart : other ≠ name)
    (replacement : Schema Node) :
    (document.replace name replacement).schema? other = document.schema? other := by
  rw [schema?, replace, Entries.get?_put, if_neg apart.symm]
  rfl

/-- Above a schema, its node has the entry of the schema itself and no other. -/
theorem mem_entries_top_iff {pointer : String} (above : ¬Pointer.IsBelow name pointer)
    (node : Node) (address : Address) :
    (pointer, address) ∈ node.entries (Stand.top name) ↔
      (pointer, address) = (Stand.top name).entry := by
  constructor
  · intro member
    obtain ⟨path, entry, _⟩ := Node.exists_of_mem_entries member
    cases path with
    | nil => exact entry
    | cons property rest =>
      have place : pointer = Pointer.ofLocation name (property :: rest) :=
        (congrArg Prod.fst entry).trans (Stand.pointer_along _ _)
      exact absurd (place ▸ Pointer.isBelow_ofLocation name property rest) above
  · intro entry
    rw [entry]
    cases node <;> simp [Node.entries_ref, Node.entries_inline]

/-- Above a schema, the entries of a document are that of the schema and those of the others. -/
theorem mem_entries_above_iff {top : Node} (found : document.schema? name = some top)
    {pointer : String} (above : ¬Pointer.IsBelow name pointer) (address : Address) :
    (pointer, address)
        ∈ document.schemas.flatMap (fun schema => schema.2.entries (Stand.top schema.1)) ↔
      (pointer, address) = (Stand.top name).entry ∨
        ∃ schema : String × Node, schema.1 ≠ name ∧ schema ∈ document.schemas ∧
          (pointer, address) ∈ schema.2.entries (Stand.top schema.1) := by
  rw [List.mem_flatMap]
  constructor
  · rintro ⟨schema, present, member⟩
    by_cases same : schema.1 = name
    · rw [same, mem_entries_top_iff above] at member
      exact .inl member
    · exact .inr ⟨schema, same, present, member⟩
  · rintro (entry | ⟨schema, _, present, member⟩)
    · have member := (mem_entries_top_iff above top address).mpr entry
      exact ⟨(name, top), Entries.mem_of_get? found, member⟩
    · exact ⟨schema, present, member⟩

/-- Pointers above a schema lead to the same addresses, whatever its body. -/
theorem directory_replace {top : Node} (found : document.schema? name = some top)
    (replacement : Schema Node) {pointer : String} (above : ¬Pointer.IsBelow name pointer) :
    (Directory.ofDocument (document.replace name replacement)).get? pointer
      = (Directory.ofDocument document).get? pointer := by
  have found' := schema?_replace_self document name replacement
  refine Option.ext fun address => ?_
  rw [directory_get?_iff_mem, directory_get?_iff_mem, mem_entries_above_iff found' above,
    mem_entries_above_iff found above]
  refine or_congr Iff.rfl (exists_congr fun schema => and_congr_right fun apart => ?_)
  exact and_congr_left' (Entries.mem_put_of_ne apart)

/-- Binding does the same to all other schemas, if none of their pointers leads below the one. -/
theorem schema?_bind_replace {top : Node} (found : document.schema? name = some top)
    (replacement : Schema Node) {other : String} (apart : other ≠ name)
    (above : ∀ node, document.schema? other = some node →
      ∀ reference ∈ node.references, ¬Pointer.IsBelow name reference.pointer) :
    ((document.replace name replacement).bind none).1.schema? other
      = (document.bind none).1.schema? other := by
  rw [bind, bind, schema?_bindFrom_none, schema?_bindFrom_none, schema?_replace_of_ne _ apart]
  refine Option.map_congr fun node present => Node.mapReferences_congr fun reference inside => ?_
  exact Reference.bind_congr (directory_replace found replacement (above node present _ inside))

theorem exists_declares_bind {node : Node} (found : document.schema? name = some node)
    (declares : (Shape.of node).declares) :
    ∃ bound, (document.bind none).1.schema? name = some bound ∧ (Shape.of bound).declares := by
  refine ⟨node.mapReferences (·.bind (Directory.ofDocument document)), ?_, ?_⟩
  · rw [bind, schema?_bindFrom_none, found, Option.map_some]
  · rw [Node.declares_mapReferences]
    exact declares

/-- A document and one with another body for a schema differ in nothing else once they are bound. -/
theorem agreeOff_replace (unbound : document.Unbound) {schema : Schema Node}
    (found : document.schema? name = some (.inline schema))
    (declares : (Shape.ofSchema schema).declares)
    (declares' : (Shape.ofSchema replacement).declares)
    (above : document.PointedAtWhole name) (uncopied : (document.bind none).1.Uncopied name) :
    AgreeOff name (document.bind none).1 ((document.replace name replacement).bind none).1 where
  schema other apart :=
    (schema?_bind_replace found replacement apart (above other · apart)).symm
  declares := exists_declares_bind found declares
  declares' := exists_declares_bind (schema?_replace_self _ _ _) declares'
  whole other top apart present reference listed link target bound inside := by
    -- the pointer of the reference is that of its place, which is not below the schema
    have entry := Reference.BoundIn.entry
      (unbound.boundIn _ reference (references_subset_of_schema? present listed)) bound
    have place : reference.pointer = target.pointer :=
      (congrArg Prod.fst entry).trans target.entry_fst
    rw [bind, schema?_bindFrom_none] at present
    obtain ⟨node, read, rfl⟩ := Option.map_eq_some_iff.mp present
    rw [Node.references_mapReferences] at listed
    obtain ⟨source, member, rfl⟩ := List.mem_map.mp listed
    have outside := above other node apart read source member
    obtain ⟨root, path⟩ := target
    obtain rfl : root = name := inside
    cases path with
    | nil => rfl
    | cons property rest =>
      refine absurd ?_ outside
      rw [← Reference.pointer_bind (Directory.ofDocument document) source, place]
      exact Pointer.isBelow_ofLocation root property rest
  uncopied := uncopied

/-- Separate compilation. Take a schema with a declaration of its own that no other schema looks
inside: all pointers elsewhere are to the schema as a whole or do not lead to it, and no composition
elsewhere copies it. Whatever schema with a declaration is put in its place, every other schema is
declared as before, with the same imports, warnings or error; or there was no end to declaring it,
and there is none now. -/
theorem declareSchema_replace (document : Document) (unbound : document.Unbound) (name : String)
    (schema replacement : Schema Node) (found : document.schema? name = some (.inline schema))
    (declares : (Shape.ofSchema schema).declares)
    (declares' : (Shape.ofSchema replacement).declares) (above : document.PointedAtWhole name)
    (uncopied : (document.bind none).1.Uncopied name) (options : Options) (other : String)
    (apart : other ≠ name) :
    ((document.replace name replacement).bind none).1.declareSchema options other
        = (document.bind none).1.declareSchema options other ∨
      (document.bind none).1.Endless options other ∧
        ((document.replace name replacement).bind none).1.Endless options other := by
  have agree : AgreeOff name (document.bind none).1
      ((document.replace name replacement).bind none).1 :=
    agreeOff_replace unbound found declares declares' above uncopied
  exact (agree.declareSchema options apart).imp_left Eq.symm

/-- Dogs are owned, also through an alias and in lists, and a show dog has what a dog has. -/
def kennel : Document where
  schemas := [
    ("Dog", .inline {
      type := some .object
      order := ["owner", "former"]
      properties := [
        ("owner", .ref { pointer := "#/components/schemas/Keeper" }),
        ("former", .inline {
          type := some .array
          items := some (.ref { pointer := "#/components/schemas/Owner" }) })] }),
    ("Keeper", .ref { pointer := "#/components/schemas/Owner" }),
    ("Owner", .inline { type := some .object }),
    ("ShowDog", .inline { allOf := [.ref { pointer := "#/components/schemas/Dog" }] })]

theorem kennel_uncopied : (kennel.bind none).1.Uncopied "Owner" := by
  intro other node apart present composed contains member inside reaches
  rw [bind, schema?_bindFrom_none] at present
  obtain ⟨source, read, rfl⟩ := Option.map_eq_some_iff.mp present
  have listed := Entries.mem_of_get? read
  simp only [kennel, List.mem_cons, Prod.mk.injEq, List.not_mem_nil, or_false] at listed
  rcases listed with ⟨rfl, rfl⟩ | ⟨rfl, rfl⟩ | ⟨rfl, rfl⟩ | ⟨rfl, rfl⟩
  · simp [Node.contains_inline_iff, Node.contains_ref_iff, Schema.children, Schema.map] at contains
    rcases contains with rfl | rfl <;> cases inside
  · simp [Node.contains_ref_iff] at contains
  · exact apart rfl
  · -- the one member is a reference to a dog, and there the chain ends
    have dog : ({ pointer := "#/components/schemas/Dog" } : Reference).bind
        (Directory.ofDocument kennel) = {
          pointer := "#/components/schemas/Dog"
          binding := some (.here "Dog" ⟨"Dog", []⟩) } := by decide +kernel
    simp [Node.contains_inline_iff, Node.contains_ref_iff, Schema.children, Schema.map] at contains
    subst contains
    obtain rfl := List.mem_singleton.mp inside
    rw [dog] at reaches
    cases reaches with
    | target bound => simp at bound
    | onward bound found reaches =>
      cases bound
      rw [lookup_top, bind, schema?_bindFrom_none, kennel] at found
      simp [schema?, Entries.get?] at found
      subst found
      cases reaches

theorem kennel_pointedAtWhole : kennel.PointedAtWhole "Owner" := by
  intro other node apart present reference listed
  have pointer : reference.pointer ∈ kennel.references.map Reference.pointer :=
    List.mem_map.mpr ⟨reference, references_subset_of_schema? present listed, rfl⟩
  have pointers : kennel.references.map Reference.pointer = [
      "#/components/schemas/Keeper", "#/components/schemas/Owner", "#/components/schemas/Owner",
      "#/components/schemas/Dog"] := by decide
  rintro ⟨rest, below⟩
  have root : (Pointer.ofSchema "Owner").toList = "#/components/schemas/Owner".toList := by decide
  have texts := congrArg String.toList below
  simp only [pointers, List.mem_cons, List.not_mem_nil, or_false] at pointer
  rcases pointer with same | same | same | same <;> simp [same, root] at texts

theorem declareSchema_replace_kennel :
    kennel.Unbound ∧ kennel.schema? "Owner" = some (.inline { type := some .object }) ∧
    kennel.PointedAtWhole "Owner" ∧ (kennel.bind none).1.Uncopied "Owner" ∧
    ∃ declared, (kennel.bind none).1.declareSchema {} "ShowDog" = some (.ok declared) ∧
      ((kennel.replace "Owner" { values := some [.text "club", .text "family"] }).bind
        none).1.declareSchema {} "ShowDog" = some (.ok declared) := by
  have unbound : kennel.Unbound := by
    simp [Unbound, references, kennel, Schema.children]
  refine ⟨unbound, rfl, kennel_pointedAtWhole, kennel_uncopied, ?_⟩
  have compiled : ((kennel.bind none).1.declareSchema {} "ShowDog").map Except.toBool
      = some true := by decide +kernel
  obtain ⟨outcome, found, succeeds⟩ := Option.map_eq_some_iff.mp compiled
  obtain error | declared := outcome
  · cases succeeds
  · refine ⟨declared, found, ?_⟩
    rcases declareSchema_replace kennel unbound "Owner" { type := some .object }
      { values := some [.text "club", .text "family"] } rfl rfl rfl kennel_pointedAtWhole
      kennel_uncopied {} "ShowDog" (by decide) with same | ⟨endless, _⟩
    · rw [same, found]
    · obtain ⟨hint, failed⟩ := endless_iff_declareSchema.mp endless
      cases found.symm.trans failed

end Document

end Protoschema
