import Protoschema.Proofs.Nodes
/-!
What the directory of a document holds. A place is told by its pointer, because an escaped name has
no slash and tells the name. So no two nodes share a pointer, and the directory has an entry for
exactly the places where a node stands.
-/

namespace Protoschema

namespace Pointer

/-! ### Escaped names -/

theorem escapeChars_injective {name name' : List Char}
    (same : escapeChars name = escapeChars name') : name = name' := by
  induction name generalizing name' with
  | nil =>
    cases name' with
    | nil => rfl
    | cons d rest' =>
      simp only [escapeChars] at same
      split at same
      · cases same
      · split at same <;> cases same
  | cons c rest induction =>
    cases name' with
    | nil =>
      simp only [escapeChars] at same
      split at same
      · cases same
      · split at same <;> cases same
    | cons d rest' =>
      -- an escape starts with a tilde, and a tilde of the name itself is always escaped
      simp only [escapeChars] at same
      split at same <;> split at same <;> grind

theorem slash_notMem_escapeChars (name : List Char) : '/' ∉ escapeChars name := by
  induction name with
  | nil => simp [escapeChars]
  | cons c rest induction =>
    simp only [escapeChars]
    split
    · simp [induction]
    · split
      · simp [induction]
      next plain =>
        simp only [List.mem_cons, not_or]
        exact ⟨fun same => plain same.symm, induction⟩

/-! ### Places -/

/-- What follows the pointer of a schema in the pointer of a place below it. -/
def below (properties : List String) : List Char :=
  properties.flatMap fun name => "/properties/".toList ++ escapeChars name.toList

theorem toList_ofLocation (root : String) (properties : List String) :
    (ofLocation root properties).toList
      = schemasRoot.toList ++ (escapeChars root.toList ++ below properties) := by
  have step (start : String) :
      (properties.foldl property start).toList = start.toList ++ below properties := by
    induction properties generalizing start with
    | nil => simp [below]
    | cons name rest induction => simp [induction, below, property, escape]
  simp [ofLocation, step, ofSchema, escape]

/-- A name without a slash ends where the first slash stands. -/
private theorem split_at_slash {name name' : List Char} {path path' : List String}
    (plain : '/' ∉ name) (plain' : '/' ∉ name')
    (same : name ++ below path = name' ++ below path') :
    name = name' ∧ below path = below path' := by
  have stop (name : List Char) (plain : '/' ∉ name) (path : List String) :
      (name ++ below path).takeWhile (· != '/') = name := by
    rw [List.takeWhile_append_of_pos fun c member => by
      simpa using fun slash : c = '/' => plain (slash ▸ member)]
    -- what comes below is nothing, or starts with a slash
    cases path <;> simp [below]
  have names : name = name' := by
    rw [← stop name plain path, same, stop name' plain' path']
  subst names
  exact ⟨rfl, List.append_cancel_left same⟩

private theorem below_injective {path path' : List String} (same : below path = below path') :
    path = path' := by
  induction path generalizing path' with
  | nil =>
    cases path' with
    | nil => rfl
    | cons name' rest' => simp [below] at same
  | cons name rest induction =>
    cases path' with
    | nil => simp [below] at same
    | cons name' rest' =>
      have tails : escapeChars name.toList ++ below rest
          = escapeChars name'.toList ++ below rest' := by
        simpa [below] using same
      obtain ⟨names, rests⟩ := split_at_slash (slash_notMem_escapeChars _)
        (slash_notMem_escapeChars _) tails
      rw [String.toList_injective (escapeChars_injective names), induction rests]

/-- A place is told by its pointer. -/
theorem ofLocation_injective {root root' : String} {properties properties' : List String}
    (same : ofLocation root properties = ofLocation root' properties') :
    root = root' ∧ properties = properties' := by
  have lists := congrArg String.toList same
  rw [toList_ofLocation, toList_ofLocation] at lists
  obtain ⟨roots, rests⟩ := split_at_slash (slash_notMem_escapeChars _)
    (slash_notMem_escapeChars _) (List.append_cancel_left lists)
  exact ⟨String.toList_injective (escapeChars_injective roots), below_injective rests⟩

end Pointer

/-! ### Distinct names -/

/-- Names are distinct wherever a node maps them to properties. -/
def Node.Distinct : Node → Prop :=
  fold (fun _ => True) fun schema =>
    (Entries.keys schema.properties).Nodup ∧ ∀ child ∈ schema.children, child

theorem Node.distinct_ref (reference : Reference) : (Node.ref reference).Distinct := by
  simp [Distinct]

theorem Node.distinct_inline (schema : Schema Node) :
    (Node.inline schema).Distinct ↔
      (Entries.keys schema.properties).Nodup ∧ ∀ child ∈ schema.children, child.Distinct := by
  rw [Distinct, fold_inline, Schema.children_map]
  refine and_congr (by simp [Entries.keys, Schema.map, Function.comp_def]) ?_
  exact List.forall_mem_map (P := fun child => child)

/-- Names are distinct in all maps of a document, as maps have it. -/
structure Document.Distinct (document : Document) : Prop where
  names : document.names.Nodup
  nodes : ∀ entry ∈ document.schemas, entry.2.Distinct

/-! ### Entries -/

namespace Stand

/-- Where the node at the end of a chain of properties stands. -/
def along (stand : Stand) (path : List String) : Stand :=
  path.foldl property stand

theorem pointer_along (stand : Stand) (path : List String) :
    (stand.along path).pointer = path.foldl Pointer.property stand.pointer := by
  induction path generalizing stand with
  | nil => rfl
  | cons name rest induction => exact induction (stand.property name)

end Stand

/-- The entry of a place: its pointer, the name of the declaration there, and the place. -/
def Location.entry (location : Location) : String × Address :=
  ((Stand.top location.root).along location.properties).entry

theorem Location.entry_fst (location : Location) : location.entry.1 = location.pointer :=
  Stand.pointer_along _ _

theorem Location.entry_injective {location location' : Location}
    (same : location.entry.1 = location'.entry.1) : location = location' := by
  rw [entry_fst, entry_fst] at same
  obtain ⟨roots, paths⟩ := Pointer.ofLocation_injective same
  cases location
  cases location'
  simp_all

/-- A node has an entry for each place below it. -/
theorem Node.mem_entries_of_descend {node : Node} {path : List String}
    (found : (node.descend path).isSome) (stand : Stand) :
    (stand.along path).entry ∈ node.entries stand := by
  induction path generalizing node stand with
  | nil => cases node <;> simp [entries_ref, entries_inline, Stand.along]
  | cons name rest induction =>
    cases node with
    | ref reference => cases found
    | inline schema =>
      rw [descend] at found
      split at found
      · cases found
      next child present =>
        have inside := induction found (stand.property name)
        rw [entries_inline]
        exact List.mem_cons_of_mem _
          (List.mem_flatMap.mpr ⟨(name, child), Entries.mem_of_get? present, inside⟩)

/-- All entries of a node are entries of places below it. If a name is listed twice, both properties
have the same entries, and only the first is found. -/
theorem Node.exists_of_mem_entries {node : Node} {stand : Stand} {entry : String × Address}
    (member : entry ∈ node.entries stand) :
    ∃ path, entry = (stand.along path).entry ∧ (node.Distinct → (node.descend path).isSome) := by
  induction node using childInduction generalizing stand with
  | ref reference =>
    rw [entries_ref, List.mem_singleton] at member
    exact ⟨[], member, fun _ => rfl⟩
  | inline schema induction =>
    rw [entries_inline, List.mem_cons, List.mem_flatMap] at member
    rcases member with rfl | ⟨⟨name, child⟩, listed, inside⟩
    · exact ⟨[], rfl, fun _ => rfl⟩
    · have inner := Schema.mem_children_of_property listed
      obtain ⟨path, same, found⟩ := induction child inner inside
      refine ⟨name :: path, same, fun distinct => ?_⟩
      obtain ⟨keys, children⟩ := (distinct_inline schema).mp distinct
      rw [descend, (Entries.get?_eq_some_iff keys).mpr listed]
      exact found (children child inner)

namespace Document

variable {document : Document}

theorem mem_entries_of_lookup {location : Location} (found : (document.lookup location).isSome) :
    location.entry
      ∈ document.schemas.flatMap fun schema => schema.2.entries (Stand.top schema.1) := by
  obtain ⟨target, reached⟩ := Option.isSome_iff_exists.mp found
  obtain ⟨node, atRoot, below⟩ := Option.bind_eq_some_iff.mp reached
  have isSome : (node.descend location.properties).isSome := by rw [below]; rfl
  exact List.mem_flatMap.mpr
    ⟨(location.root, node), Entries.mem_of_get? atRoot, Node.mem_entries_of_descend isSome _⟩

theorem exists_of_mem_entries {entry : String × Address}
    (member : entry
      ∈ document.schemas.flatMap fun schema => schema.2.entries (Stand.top schema.1)) :
    ∃ location : Location, entry = location.entry ∧
      (document.Distinct → (document.lookup location).isSome) := by
  obtain ⟨⟨name, node⟩, listed, inside⟩ := List.mem_flatMap.mp member
  obtain ⟨path, same, found⟩ := Node.exists_of_mem_entries inside
  refine ⟨⟨name, path⟩, same, fun distinct => ?_⟩
  rw [lookup, schema?, (Entries.get?_eq_some_iff distinct.names).mpr listed]
  exact found (distinct.nodes _ listed)

/-- What the directory finds under a pointer is what was entered there: two entries under one
pointer are entries of one place. -/
theorem directory_get?_iff_mem {pointer : String} {address : Address} :
    (Directory.ofDocument document).get? pointer = some address ↔ (pointer, address)
      ∈ document.schemas.flatMap fun schema => schema.2.entries (Stand.top schema.1) := by
  rw [Directory.get?, Directory.ofDocument]
  apply Entries.get?_ofList_eq_some_iff
  intro key value value' first second
  obtain ⟨location, entry, _⟩ := exists_of_mem_entries first
  obtain ⟨location', entry', _⟩ := exists_of_mem_entries second
  have same : location = location' := Location.entry_injective (by rw [← entry, ← entry'])
  subst same
  exact congrArg Prod.snd (entry.trans entry'.symm)

/-- The directory finds every place where a node stands. -/
theorem directory_get?_of_lookup {location : Location}
    (found : (document.lookup location).isSome) :
    (Directory.ofDocument document).get? location.pointer = some location.entry.2 := by
  rw [directory_get?_iff_mem, ← Location.entry_fst]
  exact mem_entries_of_lookup found

/-- The directory finds an address under a pointer exactly when a node stands at that place. -/
theorem Distinct.directory_get?_iff (distinct : document.Distinct) (pointer : String)
    (address : Address) :
    (Directory.ofDocument document).get? pointer = some address ↔
      ∃ location, (document.lookup location).isSome ∧ (pointer, address) = location.entry := by
  rw [directory_get?_iff_mem]
  constructor
  · intro member
    obtain ⟨location, entry, found⟩ := exists_of_mem_entries member
    exact ⟨location, found distinct, entry⟩
  · rintro ⟨location, found, entry⟩
    rw [entry]
    exact mem_entries_of_lookup found

theorem Distinct.schema? (distinct : document.Distinct) {name : String} {node : Node}
    (found : document.schema? name = some node) : node.Distinct :=
  distinct.nodes (name, node) (Entries.mem_of_get? found)

end Document

end Protoschema
