import Mathlib.Data.List.Perm.Basic
import Protoschema.Proofs.Addresses
import Protoschema.Proofs.Agreement
/-!
Documents that differ in the order of their maps only: the order of the schemas, and the order of
properties at any depth. Rearranging keeps what is found under a name, the size of a node, and its
references but for their order.
-/

namespace Protoschema

private theorem forall₂_imp_of_mem {α β : Type} {ρ σ : α → β → Prop} {items : List α}
    {items' : List β} (weaker : ∀ item ∈ items, ∀ item', ρ item item' → σ item item')
    (pairs : List.Forall₂ ρ items items') : List.Forall₂ σ items items' := by
  induction pairs with
  | nil => exact .nil
  | cons pair _ induction =>
    exact .cons (weaker _ List.mem_cons_self _ pair)
      (induction fun item member => weaker item (List.mem_cons_of_mem _ member))

private theorem forall₂_toList {α β : Type} {ρ : α → β → Prop} {item : Option α} {item' : Option β}
    (related : Option.Rel ρ item item') : List.Forall₂ ρ item.toList item'.toList := by
  cases related with
  | none => exact .nil
  | some pair => exact .cons pair .nil

private theorem rel_node? {ν μ : Type} {ρ : ν → μ → Prop} {additional : Option (Additional ν)}
    {additional' : Option (Additional μ)}
    (related : Option.Rel (Additional.Agree ρ) additional additional') :
    Option.Rel ρ (additional.bind Additional.node?) (additional'.bind Additional.node?) := by
  cases related with
  | none => exact .none
  | some parts =>
    cases parts with
    | flag value => exact .none
    | node pair => exact .some pair

/-! ### Entries -/

namespace Entries

variable {α β : Type} {ρ : α → β → Prop} {entries : Entries α} {entries' : Entries β}

/-- Related values under the same names, in any order. -/
def Rearranged (ρ : α → β → Prop) (entries : Entries α) (entries' : Entries β) : Prop :=
  ∃ middle : Entries β, List.Forall₂ (fun entry entry' => entry.1 = entry'.1 ∧ ρ entry.2 entry'.2)
    entries middle ∧ middle.Perm entries'

private theorem keys_eq_of_forall₂
    (pairs : List.Forall₂ (fun entry entry' => entry.1 = entry'.1 ∧ ρ entry.2 entry'.2) entries
      entries') : keys entries = keys entries' := by
  induction pairs with
  | nil => rfl
  | cons pair _ induction => simp_all [keys]

theorem Rearranged.keys (rearranged : Rearranged ρ entries entries') :
    (keys entries).Perm (Entries.keys entries') := by
  obtain ⟨middle, pairs, perm⟩ := rearranged
  rw [keys_eq_of_forall₂ pairs]
  exact perm.map _

theorem Rearranged.values (rearranged : Rearranged ρ entries entries') :
    ∃ values, List.Forall₂ ρ (entries.map Prod.snd) values ∧
      values.Perm (entries'.map Prod.snd) := by
  obtain ⟨middle, pairs, perm⟩ := rearranged
  refine ⟨middle.map Prod.snd, ?_, perm.map _⟩
  rw [List.forall₂_map_left_iff, List.forall₂_map_right_iff]
  exact pairs.imp fun _ _ pair => pair.2

/-- Under distinct names, what is found under a name is related. -/
theorem Rearranged.get? (rearranged : Rearranged ρ entries entries')
    (distinct : (Entries.keys entries).Nodup) (key : String) :
    Option.Rel ρ (entries.get? key) (entries'.get? key) := by
  have distinct' : (Entries.keys entries').Nodup := rearranged.keys.nodup_iff.mp distinct
  obtain ⟨middle, pairs, perm⟩ := rearranged
  have moved : middle.get? key = entries'.get? key := by
    have distinctMiddle : (Entries.keys middle).Nodup := keys_eq_of_forall₂ pairs ▸ distinct
    ext value
    rw [Entries.get?_eq_some_iff distinctMiddle, Entries.get?_eq_some_iff distinct',
      perm.mem_iff]
  -- from here on the names agree position by position
  rw [← moved]
  clear moved perm distinct distinct'
  induction pairs with
  | nil => exact .none
  | @cons entry entry' rest rest' pair _ induction =>
    obtain ⟨name, value⟩ := entry
    obtain ⟨_, value'⟩ := entry'
    obtain ⟨rfl, related⟩ := pair
    simp only [Entries.get?]
    split
    · exact .some related
    · exact induction

end Entries

/-! ### Schemas -/

/-- Schemas with the same keywords and related inner nodes, whose properties are in any order. -/
structure Schema.Rearranged {ν μ : Type} (ρ : ν → μ → Prop) (schema : Schema ν)
    (schema' : Schema μ) : Prop where
  type : schema.type = schema'.type
  format : schema.format = schema'.format
  description : schema.description = schema'.description
  properties : Entries.Rearranged ρ schema.properties schema'.properties
  order : schema.order = schema'.order
  items : Option.Rel ρ schema.items schema'.items
  allOf : List.Forall₂ ρ schema.allOf schema'.allOf
  oneOf : List.Forall₂ ρ schema.oneOf schema'.oneOf
  anyOf : List.Forall₂ ρ schema.anyOf schema'.anyOf
  additional : Option.Rel (Additional.Agree ρ) schema.additional schema'.additional
  values : schema.values = schema'.values

namespace Schema.Rearranged

variable {ν μ ν' μ' : Type} {ρ : ν → μ → Prop} {schema : Schema ν} {schema' : Schema μ}

/-- Functions that keep what is related keep rearranged schemas. -/
theorem map {σ : ν' → μ' → Prop} {f : ν → ν'} {g : μ → μ'}
    (rearranged : schema.Rearranged ρ schema')
    (kept : ∀ node ∈ schema.children, ∀ node', ρ node node' → σ (f node) (g node')) :
    (schema.map f).Rearranged σ (schema'.map g) where
  type := rearranged.type
  format := rearranged.format
  description := rearranged.description
  properties := by
    obtain ⟨middle, pairs, perm⟩ := rearranged.properties
    refine ⟨middle.map fun entry => (entry.1, g entry.2), ?_, perm.map _⟩
    simp only [Schema.map, List.forall₂_map_left_iff, List.forall₂_map_right_iff]
    refine forall₂_imp_of_mem (fun entry member entry' pair => ⟨pair.1, ?_⟩) pairs
    exact kept _ (mem_children_of_property member) _ pair.2
  order := rearranged.order
  items := by
    have items := rearranged.items
    cases found : schema.items <;> cases found' : schema'.items <;> rw [found, found'] at items <;>
      cases items <;> simp only [Schema.map, found, found']
    · exact .none
    next related => exact .some (kept _ (mem_children_of_items found) _ related)
  allOf := by
    simp only [Schema.map, List.forall₂_map_left_iff, List.forall₂_map_right_iff]
    exact forall₂_imp_of_mem (fun _ member => kept _ (mem_children_of_allOf member))
      rearranged.allOf
  oneOf := by
    simp only [Schema.map, List.forall₂_map_left_iff, List.forall₂_map_right_iff]
    exact forall₂_imp_of_mem (fun _ member => kept _ (mem_children_of_oneOf member))
      rearranged.oneOf
  anyOf := by
    simp only [Schema.map, List.forall₂_map_left_iff, List.forall₂_map_right_iff]
    exact forall₂_imp_of_mem (fun _ member => kept _ (mem_children_of_anyOf member))
      rearranged.anyOf
  additional := by
    have additional := rearranged.additional
    cases found : schema.additional <;> cases found' : schema'.additional <;>
      rw [found, found'] at additional <;> cases additional <;>
      simp only [Schema.map, found, found']
    · exact .none
    next parts =>
      cases parts with
      | flag value => exact .some (.flag value)
      | node related => exact .some (.node (kept _ (mem_children_of_additional found) _ related))
  values := rearranged.values

/-- Where the nodes of the one schema are computed, they can be compared as they were before. -/
theorem of_map_left {f : ν' → ν} {schema : Schema ν'}
    (rearranged : (schema.map f).Rearranged ρ schema') :
    schema.Rearranged (fun node node' => ρ (f node) node') schema' where
  type := rearranged.type
  format := rearranged.format
  description := rearranged.description
  properties := by
    obtain ⟨middle, pairs, perm⟩ := rearranged.properties
    exact ⟨middle, List.forall₂_map_left_iff.mp pairs, perm⟩
  order := rearranged.order
  items := by
    have items := rearranged.items
    cases found : schema.items <;> cases found' : schema'.items <;>
      simp only [Schema.map, found, found', Option.map_some, Option.map_none] at items <;>
      cases items
    · exact .none
    next related => exact .some related
  allOf := List.forall₂_map_left_iff.mp rearranged.allOf
  oneOf := List.forall₂_map_left_iff.mp rearranged.oneOf
  anyOf := List.forall₂_map_left_iff.mp rearranged.anyOf
  additional := by
    have additional := rearranged.additional
    cases found : schema.additional <;> cases found' : schema'.additional <;>
      simp only [Schema.map, found, found', Option.map_some, Option.map_none] at additional <;>
      cases additional
    · exact .none
    next value _ parts =>
      cases value with
      | flag value =>
        cases parts
        exact .some (.flag value)
      | node value =>
        cases parts with
        | node related => exact .some (.node related)
  values := rearranged.values

theorem children (rearranged : schema.Rearranged ρ schema') :
    ∃ nodes, List.Forall₂ ρ schema.children nodes ∧ nodes.Perm schema'.children := by
  obtain ⟨values, pairs, perm⟩ := rearranged.properties.values
  have items := forall₂_toList rearranged.items
  have additional := forall₂_toList (rel_node? rearranged.additional)
  refine ⟨values ++ schema'.items.toList ++ schema'.allOf ++ schema'.oneOf ++ schema'.anyOf
    ++ (schema'.additional.bind Additional.node?).toList, ?_, ?_⟩
  · exact List.rel_append (List.rel_append (List.rel_append (List.rel_append
      (List.rel_append pairs items) rearranged.allOf) rearranged.oneOf) rearranged.anyOf) additional
  · exact ((((perm.append_right _).append_right _).append_right _).append_right _).append_right _

/-- Rearranged schemas agree, if the congruence does not see in which order warnings come. -/
theorem agree {c : Run.Congruence} {ρ : Node → Node → Prop} {schema schema' : Schema Node}
    (unseen : ∀ (text : String → String) (names names' : List String), names.Perm names' →
      c.Rel (names.forM fun name => Run.note (.warned (text name)))
        (names'.forM fun name => Run.note (.warned (text name))))
    (rearranged : schema.Rearranged ρ schema')
    (distinct : (Entries.keys schema.properties).Nodup) : schema.Agree c ρ schema' where
  type := rearranged.type
  format := rearranged.format
  description := rearranged.description
  property := rearranged.properties.get? distinct
  bare := by
    have lengths := rearranged.properties.keys.length_eq
    simp only [Entries.keys, List.length_map] at lengths
    rw [← List.length_eq_zero_iff, lengths, List.length_eq_zero_iff]
  ordered := by
    rw [orderedNames, orderedNames, rearranged.order,
      sortedNames_eq_of_perm rearranged.properties.keys]
  unlisted text := by
    apply unseen
    rw [unordered, unordered, rearranged.order]
    split
    · exact .refl _
    · exact rearranged.properties.keys.filter _
  items := rearranged.items
  allOf := rearranged.allOf
  oneOf := rearranged.oneOf
  additional := rearranged.additional
  values := rearranged.values

end Schema.Rearranged

/-! ### Nodes -/

namespace Node

/-- Nodes that differ in the order of properties only, at any depth. -/
def Rearranged : Node → Node → Prop :=
  fold (fun reference node' => node' = .ref reference) fun schema node' =>
    ∃ schema', node' = .inline schema' ∧
      schema.Rearranged (fun related child => related child) schema'

theorem rearranged_ref {reference : Reference} {node' : Node} :
    (Node.ref reference).Rearranged node' ↔ node' = .ref reference := by
  rw [Rearranged, fold_ref]

theorem rearranged_inline {schema : Schema Node} {node' : Node} :
    (Node.inline schema).Rearranged node' ↔
      ∃ schema', node' = .inline schema' ∧ schema.Rearranged Node.Rearranged schema' := by
  -- the fold has put, for each inner node, the property of being a rearrangement of it
  rw [Rearranged, fold_inline]
  constructor
  · rintro ⟨schema', rfl, rearranged⟩
    exact ⟨schema', rfl, rearranged.of_map_left⟩
  · rintro ⟨schema', rfl, rearranged⟩
    refine ⟨schema', rfl, ?_⟩
    rw [← Schema.map_id schema']
    exact rearranged.map fun _ _ _ related => related

/-- Rearranged nodes whose names are distinct. -/
def Moved (node node' : Node) : Prop :=
  node.Rearranged node' ∧ node.Distinct

private theorem perm_flatMap_of_forall₂ {α β : Type} {ρ : α → α → Prop} {f : α → List β}
    {items items' : List α} (kept : ∀ item ∈ items, ∀ item', ρ item item' → (f item).Perm (f item'))
    (pairs : List.Forall₂ ρ items items') : (items.flatMap f).Perm (items'.flatMap f) := by
  induction pairs with
  | nil => exact .refl _
  | cons pair _ induction =>
    rw [List.flatMap_cons, List.flatMap_cons]
    exact (kept _ List.mem_cons_self _ pair).append
      (induction fun item member => kept item (List.mem_cons_of_mem _ member))

theorem Rearranged.references {node node' : Node} (rearranged : node.Rearranged node') :
    node.references.Perm node'.references := by
  induction node using childInduction generalizing node' with
  | ref reference =>
    rw [rearranged_ref.mp rearranged]
  | inline schema induction =>
    obtain ⟨schema', rfl, inner⟩ := rearranged_inline.mp rearranged
    obtain ⟨nodes, pairs, perm⟩ := inner.children
    rw [references_inline, references_inline]
    exact (perm_flatMap_of_forall₂ (fun child member _ => induction child member) pairs).trans
      (perm.flatMap_right _)

theorem Rearranged.size {node node' : Node} (rearranged : node.Rearranged node') :
    node.size = node'.size := by
  induction node using childInduction generalizing node' with
  | ref reference => rw [rearranged_ref.mp rearranged]
  | inline schema induction =>
    obtain ⟨schema', rfl, inner⟩ := rearranged_inline.mp rearranged
    obtain ⟨nodes, pairs, perm⟩ := inner.children
    have sizes : schema.children.map Node.size = nodes.map Node.size := by
      rw [← List.forall₂_eq_eq_eq, List.forall₂_map_left_iff, List.forall₂_map_right_iff]
      exact forall₂_imp_of_mem (fun child member _ => induction child member) pairs
    rw [size_inline, size_inline, sizes, ← List.sum, (perm.map Node.size).sum_nat, List.sum]

theorem Rearranged.mapReferences (f : Reference → Reference) {node node' : Node}
    (rearranged : node.Rearranged node') :
    (node.mapReferences f).Rearranged (node'.mapReferences f) := by
  induction node using childInduction generalizing node' with
  | ref reference =>
    rw [rearranged_ref.mp rearranged, mapReferences_ref, rearranged_ref]
  | inline schema induction =>
    obtain ⟨schema', rfl, inner⟩ := rearranged_inline.mp rearranged
    rw [mapReferences_inline, mapReferences_inline, rearranged_inline]
    exact ⟨_, rfl, inner.map fun child member _ => induction child member⟩

theorem Distinct.mapReferences (f : Reference → Reference) {node : Node}
    (distinct : node.Distinct) : (node.mapReferences f).Distinct := by
  induction node using childInduction with
  | ref reference => simp [Distinct]
  | inline schema induction =>
    obtain ⟨keys, children⟩ := (distinct_inline schema).mp distinct
    rw [mapReferences_inline, distinct_inline, Schema.children_map]
    refine ⟨by simpa [Entries.keys, Schema.map, Function.comp_def] using keys, ?_⟩
    exact List.forall_mem_map.mpr fun child member =>
      induction child member (children child member)

theorem Distinct.child {schema : Schema Node} (distinct : (Node.inline schema).Distinct)
    {child : Node} (member : child ∈ schema.children) : child.Distinct :=
  ((distinct_inline schema).mp distinct).2 child member

theorem Rearranged.distinct {node node' : Node} (rearranged : node.Rearranged node')
    (distinct : node.Distinct) : node'.Distinct := by
  induction node using childInduction generalizing node' with
  | ref reference =>
    rw [rearranged_ref.mp rearranged]
    exact distinct
  | inline schema induction =>
    obtain ⟨schema', rfl, inner⟩ := rearranged_inline.mp rearranged
    obtain ⟨keys, children⟩ := (distinct_inline schema).mp distinct
    obtain ⟨nodes, pairs, perm⟩ := inner.children
    refine (distinct_inline schema').mpr
      ⟨inner.properties.keys.nodup_iff.mp keys, fun child' member' => ?_⟩
    obtain ⟨child, member, related⟩ := exists_of_mem_right pairs (perm.mem_iff.mpr member')
    exact induction child member related (children child member)

/-- The same properties lead to rearranged nodes. -/
theorem Moved.descend {node node' : Node} (moved : node.Moved node') (path : List String) :
    Option.Rel Moved (node.descend path) (node'.descend path) := by
  obtain ⟨rearranged, distinct⟩ := moved
  induction path generalizing node node' with
  | nil =>
    simp only [Node.descend]
    exact .some ⟨rearranged, distinct⟩
  | cons name rest induction =>
    cases node with
    | ref reference =>
      rw [rearranged_ref.mp rearranged]
      exact .none
    | inline schema =>
      obtain ⟨schema', rfl, inner⟩ := rearranged_inline.mp rearranged
      have found := inner.properties.get? ((distinct_inline schema).mp distinct).1 name
      simp only [Node.descend]
      cases here : Entries.get? schema.properties name <;>
        cases there : Entries.get? schema'.properties name <;> rw [here, there] at found <;>
        cases found
      · exact .none
      next related =>
        have member := Schema.mem_children_of_property (Entries.mem_of_get? here)
        exact induction related (distinct.child member)

end Node

/-! ### Documents -/

/-- Documents that differ in the order of schemas, and of properties at any depth, only. -/
structure Document.Rearranged (document document' : Document) : Prop where
  openapi : document.openapi = document'.openapi
  info : document.info = document'.info
  schemas : Entries.Rearranged Node.Rearranged document.schemas document'.schemas

namespace Document.Rearranged

variable {document document' : Document} (rearranged : document.Rearranged document')
include rearranged

theorem names : document.names.Perm document'.names :=
  rearranged.schemas.keys

theorem references : document.references.Perm document'.references := by
  obtain ⟨middle, pairs, perm⟩ := rearranged.schemas
  refine (Node.perm_flatMap_of_forall₂ ?_ pairs).trans (perm.flatMap_right _)
  exact fun entry _ entry' pair => pair.2.references

theorem size : document.size = document'.size := by
  obtain ⟨values, pairs, perm⟩ := rearranged.schemas.values
  have sizes : (document.schemas.map Prod.snd).map Node.size = values.map Node.size := by
    rw [← List.forall₂_eq_eq_eq, List.forall₂_map_left_iff, List.forall₂_map_right_iff]
    exact pairs.imp fun _ _ related => related.size
  have total := (perm.map Node.size).sum_nat
  rw [← sizes, List.map_map, List.map_map] at total
  exact total

theorem distinct (distinct : document.Distinct) : document'.Distinct where
  names := rearranged.names.nodup_iff.mp distinct.names
  nodes entry member := by
    obtain ⟨values, pairs, perm⟩ := rearranged.schemas.values
    have value : entry.2 ∈ values := perm.mem_iff.mpr (List.mem_map_of_mem member)
    obtain ⟨node, inside, related⟩ := exists_of_mem_right pairs value
    obtain ⟨source, member, rfl⟩ := List.mem_map.mp inside
    exact related.distinct (distinct.nodes source member)

theorem schema? (distinct : document.Distinct) (name : String) :
    Option.Rel Node.Moved (document.schema? name) (document'.schema? name) := by
  have found := rearranged.schemas.get? distinct.names name
  simp only [Document.schema?]
  cases here : document.schemas.get? name <;> cases there : document'.schemas.get? name <;>
    rw [here, there] at found <;> cases found
  · exact .none
  next related => exact .some ⟨related, distinct.schema? here⟩

theorem lookup (distinct : document.Distinct) (location : Location) :
    Option.Rel Node.Moved (document.lookup location) (document'.lookup location) := by
  have found := rearranged.schema? distinct location.root
  simp only [Document.lookup]
  generalize document.schema? location.root = here at found ⊢
  generalize document'.schema? location.root = there at found ⊢
  cases found with
  | none => exact .none
  | some moved => exact moved.descend _

/-- The directory does not depend on the order of maps. -/
theorem directory (distinct : document.Distinct) (pointer : String) :
    (Directory.ofDocument document).get? pointer
      = (Directory.ofDocument document').get? pointer := by
  -- which entries there are is said by lookups alone, and those do not see the order
  ext address
  rw [distinct.directory_get?_iff, (rearranged.distinct distinct).directory_get?_iff]
  refine exists_congr fun location => and_congr_left fun _ => ?_
  have found := rearranged.lookup distinct location
  generalize document.lookup location = here at found ⊢
  generalize document'.lookup location = there at found ⊢
  cases found <;> simp

theorem mapSchemas {f f' : String → Node → Node}
    (kept : ∀ name node node', node.Rearranged node' → (f name node).Rearranged (f' name node')) :
    (document.mapSchemas f).Rearranged (document'.mapSchemas f') where
  openapi := rearranged.openapi
  info := rearranged.info
  schemas := by
    obtain ⟨middle, pairs, perm⟩ := rearranged.schemas
    refine ⟨middle.map fun entry => (entry.1, f' entry.1 entry.2), ?_, perm.map _⟩
    simp only [Document.mapSchemas, List.forall₂_map_left_iff, List.forall₂_map_right_iff]
    refine pairs.imp ?_
    rintro ⟨name, node⟩ ⟨_, node'⟩ ⟨rfl, related⟩
    exact ⟨rfl, kept name node node' related⟩

end Document.Rearranged

end Protoschema
