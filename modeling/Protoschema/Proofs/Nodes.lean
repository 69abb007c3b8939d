import Mathlib.Data.List.Basic
import Mathlib.Tactic.Choose
import Protoschema.Directory
import Protoschema.Proofs.Entries
/-!
Induction over nodes, what changing the references of a node leaves as it is, and what goes over
from a node to the nodes in it.
-/

namespace Protoschema

namespace Schema

variable {ν μ κ : Type}

theorem map_id (schema : Schema ν) : schema.map (fun node => node) = schema := by
  rcases schema with ⟨_, _, _, _, _, items, _, _, _, additional, _⟩
  rcases items with _ | _ <;> rcases additional with _ | _ | _ <;> simp [map, Additional.map]

theorem mem_children_of_property {schema : Schema ν} {name : String} {node : ν}
    (member : (name, node) ∈ schema.properties) : node ∈ schema.children := by
  have value : node ∈ schema.properties.map Prod.snd := List.mem_map.mpr ⟨_, member, rfl⟩
  simp [children, value]

theorem mem_children_of_items {schema : Schema ν} {node : ν} (found : schema.items = some node) :
    node ∈ schema.children := by
  simp [children, found]

theorem mem_children_of_allOf {schema : Schema ν} {node : ν} (member : node ∈ schema.allOf) :
    node ∈ schema.children := by
  simp [children, member]

theorem mem_children_of_oneOf {schema : Schema ν} {node : ν} (member : node ∈ schema.oneOf) :
    node ∈ schema.children := by
  simp [children, member]

theorem mem_children_of_anyOf {schema : Schema ν} {node : ν} (member : node ∈ schema.anyOf) :
    node ∈ schema.children := by
  simp [children, member]

theorem mem_children_of_additional {schema : Schema ν} {node : ν}
    (found : schema.additional = some (.node node)) : node ∈ schema.children := by
  simp [children, found, Additional.node?]

theorem map_map (f : ν → μ) (g : μ → κ) (schema : Schema ν) :
    (schema.map f).map g = schema.map fun node => g (f node) := by
  rcases schema with ⟨_, _, _, _, _, items, _, _, _, additional, _⟩
  rcases items with _ | _ <;> rcases additional with _ | _ | _ <;> simp [map, Additional.map]

theorem map_congr {f g : ν → μ} {schema : Schema ν}
    (same : ∀ child ∈ schema.children, f child = g child) : schema.map f = schema.map g := by
  have properties : schema.properties.map (fun entry => (entry.1, f entry.2))
      = schema.properties.map fun entry => (entry.1, g entry.2) := by
    refine List.map_congr_left fun entry member => ?_
    rw [same entry.2 (mem_children_of_property member)]
  have items : schema.items.map f = schema.items.map g := by
    cases found : schema.items with
    | none => rfl
    | some node => simp [same node (mem_children_of_items found)]
  have additional : schema.additional.map (·.map f) = schema.additional.map (·.map g) := by
    cases found : schema.additional with
    | none => rfl
    | some additional =>
      cases additional with
      | flag value => rfl
      | node node => simp [Additional.map, same node (mem_children_of_additional found)]
  simp only [map, properties, items, additional,
    List.map_congr_left fun node member => same node (mem_children_of_allOf member),
    List.map_congr_left fun node member => same node (mem_children_of_oneOf member),
    List.map_congr_left fun node member => same node (mem_children_of_anyOf member)]

end Schema

namespace Node

/-! ### Induction -/

private theorem sizeOf_child_lt {schema : Schema Node} {child : Node}
    (member : child ∈ schema.children) : sizeOf child < sizeOf (Node.inline schema) := by
  obtain ⟨type, format, description, properties, order, items, allOf, oneOf, anyOf, additional,
    values⟩ := schema
  simp only [Schema.children, List.mem_append, List.mem_map, Option.mem_toList] at member
  simp only [inline.sizeOf_spec, Schema.mk.sizeOf_spec]
  rcases member with
    ((((⟨⟨name, node⟩, inside, rfl⟩ | inside) | inside) | inside) | inside) | inside
  · have entry := List.sizeOf_lt_of_mem inside
    simp only [Prod.mk.sizeOf_spec] at entry ⊢
    omega
  · cases inside
    simp only [Option.some.sizeOf_spec]
    omega
  · have entry := List.sizeOf_lt_of_mem inside
    omega
  · have entry := List.sizeOf_lt_of_mem inside
    omega
  · have entry := List.sizeOf_lt_of_mem inside
    omega
  · rcases additional with _ | _ | _
    · simp at inside
    · simp [Additional.node?] at inside
    · cases inside
      simp only [Option.some.sizeOf_spec, Additional.node.sizeOf_spec]
      omega

/-- Induction over nodes: what holds of a schema when it holds of its inner nodes, and holds of
references, holds of every node. -/
@[elab_as_elim]
theorem childInduction {motive : Node → Prop}
    (ref : ∀ reference, motive (.ref reference))
    (inline : ∀ schema, (∀ child ∈ schema.children, motive child) → motive (.inline schema))
    (node : Node) : motive node :=
  match node with
  | .ref reference => ref reference
  | .inline schema => inline schema fun child _ => childInduction ref inline child
termination_by sizeOf node
decreasing_by exact sizeOf_child_lt ‹_›

theorem references_subset_of_child {schema : Schema Node} {child : Node}
    (member : child ∈ schema.children) : child.references ⊆ (Node.inline schema).references := by
  intro reference inside
  rw [references_inline]
  exact List.mem_flatMap.mpr ⟨child, member, inside⟩

/-! ### Changed references -/

variable (f : Reference → Reference)

theorem references_mapReferences (node : Node) :
    (node.mapReferences f).references = node.references.map f := by
  induction node using childInduction with
  | ref reference => simp
  | inline schema induction =>
    simp only [mapReferences_inline, references_inline, Schema.children_map, List.flatMap_map,
      List.map_flatMap]
    exact List.flatMap_congr induction

/-- Changing references twice is changing them once. -/
theorem mapReferences_mapReferences (f g : Reference → Reference) (node : Node) :
    (node.mapReferences f).mapReferences g
      = node.mapReferences fun reference => g (f reference) := by
  induction node using childInduction with
  | ref reference => simp
  | inline schema induction =>
    simp only [mapReferences_inline, Schema.map_map]
    rw [Schema.map_congr induction]

theorem mapReferences_congr {f g : Reference → Reference} {node : Node}
    (same : ∀ reference ∈ node.references, f reference = g reference) :
    node.mapReferences f = node.mapReferences g := by
  induction node using childInduction with
  | ref reference => simp [same reference]
  | inline schema induction =>
    rw [mapReferences_inline, mapReferences_inline, Schema.map_congr fun child member =>
      induction child member fun reference inside =>
        same reference (references_subset_of_child member inside)]

/-- Where nodes stand does not depend on their references. -/
theorem entries_mapReferences (node : Node) (stand : Stand) :
    (node.mapReferences f).entries stand = node.entries stand := by
  induction node using childInduction generalizing stand with
  | ref reference => simp [entries_ref]
  | inline schema induction =>
    rw [mapReferences_inline, entries_inline, entries_inline, Schema.map, List.flatMap_map]
    refine congrArg (_ :: ·) (List.flatMap_congr fun entry member => ?_)
    exact induction entry.2 (Schema.mem_children_of_property member) _

@[simp] theorem size_ref (reference : Reference) : (Node.ref reference).size = 1 := by
  simp [size]

@[simp] theorem size_inline (schema : Schema Node) :
    (Node.inline schema).size = 1 + (schema.children.map size).foldr (· + ·) 0 := by
  simp [size, Schema.children_map]

theorem size_mapReferences (node : Node) : (node.mapReferences f).size = node.size := by
  induction node using childInduction with
  | ref reference => simp
  | inline schema induction =>
    simp only [mapReferences_inline, size_inline, Schema.children_map, List.map_map,
      Function.comp_def]
    rw [List.map_congr_left induction]

/-! ### Nodes below a node -/

/-- A property that goes over to inner nodes goes over to all nodes that can be reached. -/
theorem holds_of_descend {holds : Node → Prop}
    (child : ∀ schema, holds (.inline schema) → ∀ node ∈ schema.children, holds node)
    {node found : Node} {path : List String} (reached : node.descend path = some found)
    (start : holds node) : holds found := by
  induction path generalizing node with
  | nil =>
    cases node <;> (cases reached; exact start)
  | cons property rest induction =>
    cases node with
    | ref reference => simp [descend] at reached
    | inline schema =>
      simp only [descend] at reached
      split at reached
      · cases reached
      next inner present =>
        have member := Schema.mem_children_of_property (Entries.mem_of_get? present)
        exact induction reached (child schema start inner member)

theorem references_subset_of_descend {node found : Node} {path : List String}
    (reached : node.descend path = some found) : found.references ⊆ node.references :=
  holds_of_descend
    (fun _ inside _ member => List.Subset.trans (references_subset_of_child member) inside)
    reached (List.Subset.refl node.references)

/-- The nodes in a node can be listed, as many as its size says. -/
theorem exists_nodes (node : Node) :
    ∃ nodes : List Node, nodes.length = node.size ∧ node ∈ nodes ∧
      ∀ schema, .inline schema ∈ nodes → ∀ child ∈ schema.children, child ∈ nodes := by
  induction node using childInduction with
  | ref reference => exact ⟨[.ref reference], by simp, by simp, by simp⟩
  | inline schema induction =>
    choose! nodes length self closed using induction
    refine ⟨.inline schema :: schema.children.flatMap nodes, ?_, List.mem_cons_self, ?_⟩
    · rw [size_inline, List.length_cons, List.length_flatMap, List.map_congr_left length, List.sum,
        Nat.add_comm]
    · -- an inner node is listed by the child that it belongs to
      intro other listed child member
      refine List.mem_cons_of_mem _ (List.mem_flatMap.mpr ?_)
      rcases List.mem_cons.mp listed with same | inside
      · cases same
        exact ⟨child, member, self child member⟩
      · obtain ⟨owner, owned, inside⟩ := List.mem_flatMap.mp inside
        exact ⟨owner, owned, closed owner owned other inside child member⟩

end Node

namespace Document

variable (document : Document)

theorem schema?_mapSchemas (f : String → Node → Node) (name : String) :
    (document.mapSchemas f).schema? name = (document.schema? name).map (f name) :=
  Entries.get?_map f document.schemas name

theorem names_mapSchemas (f : String → Node → Node) :
    (document.mapSchemas f).names = document.names := by
  simp [mapSchemas, names, Entries.keys]

theorem size_mapSchemas (f : String → Node → Node)
    (kept : ∀ name node, (f name node).size = node.size) :
    (document.mapSchemas f).size = document.size := by
  simp [mapSchemas, size, kept, Function.comp_def]

theorem references_subset_of_schema? {document : Document} {name : String} {node : Node}
    (found : document.schema? name = some node) : node.references ⊆ document.references := by
  intro reference inside
  exact List.mem_flatMap.mpr ⟨(name, node), Entries.mem_of_get? found, inside⟩

theorem references_subset_of_lookup {document : Document} {location : Location} {node : Node}
    (found : document.lookup location = some node) : node.references ⊆ document.references := by
  obtain ⟨top, atRoot, reached⟩ := Option.bind_eq_some_iff.mp found
  exact fun _ inside => references_subset_of_schema? atRoot
    (Node.references_subset_of_descend reached inside)

/-- The nodes of a document can be listed, as many as its size says. -/
theorem exists_nodes :
    ∃ nodes : List Node, nodes.length = document.size ∧
      (∀ name node, document.schema? name = some node → node ∈ nodes) ∧
      ∀ schema, .inline schema ∈ nodes → ∀ child ∈ schema.children, child ∈ nodes := by
  choose nodes length self closed using Node.exists_nodes
  refine ⟨document.schemas.flatMap fun entry => nodes entry.2, ?_, ?_, ?_⟩
  · simp only [List.length_flatMap, length, size, List.sum]
  · intro name node found
    exact List.mem_flatMap.mpr ⟨(name, node), Entries.mem_of_get? found, self node⟩
  · intro schema listed child member
    obtain ⟨entry, present, inside⟩ := List.mem_flatMap.mp listed
    exact List.mem_flatMap.mpr ⟨entry, present, closed entry.2 schema inside child member⟩

end Document

end Protoschema
