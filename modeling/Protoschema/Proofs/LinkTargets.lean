import Protoschema.Proofs.FieldSelection
import Protoschema.Proofs.FilterTransparency
import Protoschema.Proofs.Naming
import Protoschema.Proofs.Ownership
/-!
Where links lead. A reference to a schema that has a declaration is linked by the name that the
directory gives to its place. What stands there is declared under that name when every schema above
it is an object with a field for the next property on the way, and not otherwise: the directory
knows all properties, also those of schemas that become something other than an object, those that a
given order leaves out and those whose identifier is taken.
-/

namespace Protoschema

/-- Every schema above the end of a path is an object with a field for the next property. -/
def Node.Keeps : Node → List String → Prop
  | _, [] => True
  | node, property :: rest =>
    ∃ schema child, Shape.of node = .object schema ∧ property ∈ schema.fieldNames ∧
      Entries.get? schema.properties property = some child ∧ child.Keeps rest

/-- Every schema above a place is an object with a field for the next property. -/
def Document.Keeps (document : Document) (location : Location) : Prop :=
  ∃ top, document.schema? location.root = some top ∧ top.Keeps location.properties

/-- The declarations that are passed on the way down to a place, from the top-level declaration to
the one that stands there. -/
def Document.DeclaredAt (document : Document) (options : Options) (location : Location)
    (passed : List Decl) : Prop :=
  ∃ top declared, document.schema? location.root = some top ∧
    document.declareSchema options location.root = some (.ok declared) ∧
    Descent ⟨document, options⟩ top declared.decl location.properties passed

/-- Whether the segments of a dotted name are found one inside the other: the first is the
identifier of one of these declarations, and each further one that of a declaration nested in the
one before. -/
def namesDeclaration (decls : List Decl) : List String → Bool
  | [] => true
  | segment :: rest => decls.any fun decl =>
      decl.isDeclaration && decl.ident == segment && namesDeclaration decl.nested rest

/-! ### Objects on the way -/

theorem Shape.of_eq_object {node : Node} {schema : Schema Node}
    (shape : Shape.of node = .object schema) :
    node = .inline schema ∧ Shape.ofSchema schema = .object schema := by
  cases node with
  | ref reference => cases shape
  | inline other =>
    have self := Shape.alike_self other
    have shape : Shape.ofSchema other = .object schema := shape
    rw [shape] at self
    cases self
    exact ⟨rfl, shape⟩

theorem Node.exists_of_declares {node : Node} (declares : (Shape.of node).declares = true) :
    ∃ schema, node = .inline schema := by
  cases node with
  | ref reference => cases declares
  | inline schema => exact ⟨schema, rfl⟩

/-- What an object becomes is a message whose fields are those of its properties. -/
theorem Scope.Becomes.object {scope : Scope} {hint : String} {schema : Schema Node} {decl : Decl}
    (become : scope.Becomes hint (.inline schema) decl)
    (object : Shape.ofSchema schema = .object schema) :
    ∃ steps following body, decl = .message body ∧ body.name = hint ∧
      List.Forall₂ (IsFieldOf (declareWithin scope steps following) schema body)
        schema.fieldNames body.fields := by
  obtain ⟨steps, following, outcome⟩ := become
  cases steps with
  | zero => cases outcome
  | succ steps =>
    simp only [declareWithin, declareShape, Shape.of, object] at outcome
    obtain ⟨body, declared, same⟩ := Run.outcome_bind_eq_ok.mp outcome
    cases same
    obtain ⟨named, fields⟩ := declareObject_fields declared
    exact ⟨steps, following, body, rfl, named, fields⟩

/-- A way through objects to a node that has a declaration starts at such a node. -/
theorem Node.Keeps.declares {node target : Node} {path : List String} (keeps : node.Keeps path)
    (reached : node.descend path = some target) (declares : (Shape.of target).declares = true) :
    (Shape.of node).declares = true := by
  cases path with
  | nil =>
    have same : node = target := by cases node <;> exact Option.some.inj reached
    rw [same]
    exact declares
  | cons property rest =>
    obtain ⟨schema, child, shape, _⟩ := keeps
    rw [shape]
    rfl

/-- Objects that keep the properties of a path lead to nested declarations all the way. -/
theorem Node.Keeps.exists_descent {scope : Scope} {hint : String} {node target : Node} {decl : Decl}
    {path : List String} (keeps : node.Keeps path) (become : scope.Becomes hint node decl)
    (reached : node.descend path = some target) (declares : (Shape.of target).declares = true) :
    ∃ passed, Descent scope node decl path passed := by
  induction path generalizing hint node decl with
  | nil => exact ⟨[decl], .here⟩
  | cons property rest induction =>
    obtain ⟨schema, child, shape, kept, found, keeps⟩ := keeps
    obtain ⟨rfl, object⟩ := Shape.of_eq_object shape
    rw [Node.descend, found] at reached
    have childDeclares := keeps.declares reached declares
    obtain ⟨steps, following, body, rfl, rfl, fields⟩ := become.object object
    obtain ⟨field, member, isField⟩ := exists_of_mem_left fields kept
    obtain ⟨rfl, node, type, found', become, _, _, owned⟩ := isField
    obtain rfl : child = node := Option.some.inj (found.symm.trans found')
    have become : scope.Becomes (propertyHint body.name field.name) child type :=
      ⟨steps, following, become⟩
    -- the property becomes a declaration, which the message then owns
    have nested := owned (Decl.mem_owned_self (become.isDeclaration childDeclares))
    obtain ⟨inner, rfl⟩ := Node.exists_of_declares childDeclares
    obtain ⟨passed, descent⟩ := induction keeps become reached
    exact ⟨_, .down object member found childDeclares nested become descent⟩

namespace Descent

variable {scope : Scope} {node : Node} {decl : Decl} {path : List String} {passed : List Decl}

/-- There is no way down from what has no declaration. -/
theorem eq_nil_or_declares (descent : Descent scope node decl path passed) :
    path = [] ∨ (Shape.of node).declares = true := by
  cases descent with
  | here => exact Or.inl rfl
  | down object =>
    right
    rw [Shape.of, object]
    rfl

theorem keeps (descent : Descent scope node decl path passed) {hint : String}
    (become : scope.Becomes hint node decl) : node.Keeps path := by
  induction descent generalizing hint with
  | here => trivial
  | @down schema child body field inner path passed object member found _ _ inside _ induction =>
    obtain ⟨_, _, other, same, _, fields⟩ := become.object object
    cases same
    obtain ⟨property, kept, isField⟩ := exists_of_mem_right fields member
    obtain rfl := isField.name
    exact ⟨schema, .inline child, object, kept, found, induction inside⟩

theorem namesDeclaration (descent : Descent scope node decl path passed)
    (declaration : decl.isDeclaration = true) {decls : List Decl} (member : decl ∈ decls) :
    namesDeclaration decls (passed.map Decl.ident) = true := by
  induction descent generalizing decls with
  | here =>
    refine List.any_eq_true.mpr ⟨_, member, ?_⟩
    simp [declaration, Protoschema.namesDeclaration]
  | down _ _ _ declares nested become _ induction =>
    have inside := induction (become.isDeclaration declares) nested
    refine List.any_eq_true.mpr ⟨_, member, ?_⟩
    simp [declaration, Decl.nested, inside]

end Descent

/-! ### Compilations without failures -/

theorem Document.declared_of_compile {document : Document} {options : Options}
    (all : options.only = none) {compilation : Compilation}
    (compiled : (document.compile options).2 = .ok compilation)
    (clean : compilation.failures = []) {name : String}
    (known : name ∈ (document.bind none).1.names) :
    ∃ declared, (document.bind none).1.declareSchema options name = some (.ok declared) ∧
      declared.decl ∈ compilation.declarations := by
  have flawless := (failures_of_compile compiled).symm.trans clean
  rw [all] at flawless
  have listed : name ∈ ((document.bind none).1.outcomes options).map Prod.fst := by
    rw [outcomes_names, all]
    exact mem_sortedNames.mpr known
  obtain ⟨⟨name, outcome⟩, member, rfl⟩ := List.mem_map.mp listed
  have found := Document.declareSchema_of_mem_outcomes _ member
  cases outcome with
  | error error =>
    -- an error would be among the failures
    have failed : error ∈ Compilation.failuresOf ((document.bind none).1.outcomes options) :=
      List.mem_filterMap.mpr ⟨_, member, rfl⟩
    rw [flawless] at failed
    cases failed
  | ok declared =>
    rw [← all] at member
    exact ⟨declared, found, mem_declarations_of_compile compiled member⟩

/-! ### Links -/

/-- A reference that is bound through the directory of a document carries the name of its place. -/
theorem Reference.BoundIn.name {document : Document} {reference : Reference}
    (bound : reference.BoundIn (Directory.ofDocument document)) {name : String} {target : Location}
    (here : reference.binding = some (.here name target)) :
    name = ".".intercalate ((hintsAlong target.root target.properties).map Ident.normalize) := by
  have address := congrArg Prod.snd (bound.entry here)
  rw [Location.entry_snd] at address
  exact congrArg Address.name address

/-- Links to places that are kept lead to declarations. In a compilation of all schemas without
failures, take a reference that is linked by name, because the node it is bound to has a declaration
of its own. That declaration stands in the output, below those of the schemas above it, exactly if
these are objects with a field for each property on the way; and then the text of the link names it,
segment by segment. A top-level schema has nothing above it, so links to these always lead there. -/
theorem Document.links_lead_to_declarations (document : Document) (unbound : document.Unbound)
    (options : Options) (all : options.only = none) (compilation : Compilation)
    (compiled : (document.compile options).2 = .ok compilation)
    (clean : compilation.failures = []) (reference : Reference)
    (listed : reference ∈ (document.bind none).1.references) (name : String) (target : Location)
    (here : reference.binding = some (.here name target)) (node : Node)
    (found : (document.bind none).1.lookup target = some node)
    (declares : (Shape.of node).declares = true) :
    ((document.bind none).1.Keeps target ↔
      ∃ passed, (document.bind none).1.DeclaredAt options target passed) ∧
    ((document.bind none).1.Keeps target → namesDeclaration compilation.declarations
      (((Proto.typeText (.named name)).toList.splitOn '.').map String.ofList) = true) := by
  obtain ⟨top, atRoot, reached⟩ := Option.bind_eq_some_iff.mp found
  have known : target.root ∈ (document.bind none).1.names := by
    by_contra missing
    exact nomatch (Entries.get?_eq_none_iff.mpr missing).symm.trans atRoot
  obtain ⟨declared, declaredTop, present⟩ := declared_of_compile all compiled clean known
  have descends (keeps : (document.bind none).1.Keeps target) :
      (Shape.of top).declares = true ∧
        ∃ passed, Descent ⟨(document.bind none).1, options⟩ top declared.decl target.properties
          passed := by
    obtain ⟨_, atRoot', keeps⟩ := keeps
    obtain rfl := Option.some.inj (atRoot.symm.trans atRoot')
    have above := keeps.declares reached declares
    have become := declareSchema_becomes declaredTop atRoot above
    exact ⟨above, keeps.exists_descent become reached declares⟩
  refine ⟨⟨fun keeps => ?_, ?_⟩, fun keeps => ?_⟩
  · obtain ⟨_, passed, descent⟩ := descends keeps
    exact ⟨passed, top, declared, atRoot, declaredTop, descent⟩
  · rintro ⟨passed, _, _, atRoot', declaredTop', descent⟩
    obtain rfl := Option.some.inj (atRoot.symm.trans atRoot')
    obtain rfl := Except.ok.inj (Option.some.inj (declaredTop.symm.trans declaredTop'))
    refine ⟨top, atRoot, ?_⟩
    rcases descent.eq_nil_or_declares with bare | above
    · rw [bare]
      trivial
    · exact descent.keeps (declareSchema_becomes declaredTop atRoot above)
  · obtain ⟨above, passed, descent⟩ := descends keeps
    have become := declareSchema_becomes declaredTop atRoot above
    have named := (unbound.boundIn (Directory.ofDocument document) reference listed).name here
    have segments : ((Proto.typeText (.named name)).toList.splitOn '.').map String.ofList
        = passed.map Decl.ident := by
      have some := hintsAlong_ne_nil target.root target.properties
      rw [descent.idents (become.name above), Proto.typeText_named, named,
        Ident.qualified_intercalate_normalize some, Ident.splitOn_intercalate_normalize some,
        List.map_map]
      simp [Function.comp_def]
    rw [segments]
    exact descent.namesDeclaration (become.isDeclaration above) present

/-- The kinds of pets, a property below. -/
def petKind : Node :=
  .inline { type := some .string, values := some [.text "cat", .text "dog"] }

/-- A schema next to a pet that refers to the kind of the pet. -/
def clinicOf (pet : Schema Node) : Document where
  schemas := [
    ("Pet", .inline pet),
    ("Vet", .inline {
      type := some .object
      order := ["treats"]
      properties := [("treats", .ref { pointer := "#/components/schemas/Pet/properties/kind" })] })]

/-- The reference of a clinic, bound. -/
def petKindReference : Reference where
  pointer := "#/components/schemas/Pet/properties/kind"
  binding := some (.here "Pet.Pet_kind" ⟨"Pet", ["kind"]⟩)

def vetMessage : Decl :=
  .message { name := "Vet", fields := [⟨"treats", 1, .named "Pet.Pet_kind", none⟩] }

theorem clinic_compile {pet : Schema Node} {message : Decl}
    (declaredPet : ((clinicOf pet).bind none).1.declareSchema {} "Pet"
      = some (.ok ⟨message, {}, []⟩))
    (declaredVet : ((clinicOf pet).bind none).1.declareSchema {} "Vet"
      = some (.ok ⟨vetMessage, {}, []⟩))
    (quiet : ((clinicOf pet).bind none).2.diagnostics = []) :
    ((clinicOf pet).compile {}).2 = .ok { declarations := [message, vetMessage] } := by
  have ascending : "Pet" ≤ "Vet" := by decide
  exact Document.compile_pair rfl ascending declaredPet declaredVet quiet

/-- A pet that is an object with its kind. -/
def objectPet : Schema Node where
  type := some .object
  order := ["kind"]
  properties := [("kind", petKind)]

def objectPetMessage : Decl :=
  .message {
    name := "Pet"
    nested := [.enum { name := "Pet_kind", values := ["cat", "dog"] }]
    fields := [⟨"kind", 1, .named "Pet_kind", none⟩] }

theorem Document.links_lead_to_declarations_clinic :
    (clinicOf objectPet).Unbound ∧
    ((clinicOf objectPet).compile {}).2 = .ok { declarations := [objectPetMessage, vetMessage] } ∧
    petKindReference ∈ ((clinicOf objectPet).bind none).1.references ∧
    ((clinicOf objectPet).bind none).1.Keeps ⟨"Pet", ["kind"]⟩ ∧
    namesDeclaration [objectPetMessage, vetMessage] ["Pet", "Pet_kind"] = true := by
  have unbound : (clinicOf objectPet).Unbound := by
    simp [Unbound, references, clinicOf, objectPet, petKind, Schema.children]
  have compiled : ((clinicOf objectPet).compile {}).2
      = .ok { declarations := [objectPetMessage, vetMessage] } := clinic_compile rfl rfl rfl
  have listed : petKindReference ∈ ((clinicOf objectPet).bind none).1.references := by
    decide +kernel
  have keeps : ((clinicOf objectPet).bind none).1.Keeps ⟨"Pet", ["kind"]⟩ :=
    ⟨.inline objectPet, rfl, objectPet, petKind, rfl, by decide, rfl, trivial⟩
  have link := links_lead_to_declarations (clinicOf objectPet) unbound {} rfl _ compiled rfl
    petKindReference listed _ _ rfl petKind rfl rfl
  exact ⟨unbound, compiled, listed, keeps, link.2 keeps⟩

/-- A pet that is composed of an object with a name, and has its kind next to that. -/
def composedPet : Schema Node where
  allOf := [.inline {
    type := some .object
    order := ["name"]
    properties := [("name", .inline { type := some .string })] }]
  properties := [("kind", petKind)]

def composedPetMessage : Decl :=
  .message { name := "Pet", fields := [⟨"name", 1, .named "string", none⟩] }

/-- The properties next to a composition are in the directory, and so a link to one is made, but
they become no fields: the link leads nowhere. -/
theorem Document.link_leads_nowhere_clinic :
    (clinicOf composedPet).Unbound ∧
    ((clinicOf composedPet).compile {}).2
      = .ok { declarations := [composedPetMessage, vetMessage] } ∧
    petKindReference ∈ ((clinicOf composedPet).bind none).1.references ∧
    ((clinicOf composedPet).bind none).1.lookup ⟨"Pet", ["kind"]⟩ = some petKind ∧
    (Shape.of petKind).declares = true ∧
    namesDeclaration [composedPetMessage, vetMessage]
      (((Proto.typeText (.named "Pet.Pet_kind")).toList.splitOn '.').map String.ofList)
        = false := by
  have unbound : (clinicOf composedPet).Unbound := by
    simp [Unbound, references, clinicOf, composedPet, petKind, Schema.children]
  have pet : ((clinicOf composedPet).bind none).1.declareSchema {} "Pet"
      = some (.ok ⟨composedPetMessage, {}, []⟩) := by
    have object (document : Document) (schema : Schema Node) (fresh : List String)
        (typed : schema.type = some .object) :
        memberObject document "Pet" 1 fresh (.inline schema) = .ok schema := by
      rw [memberObject, if_pos typed]
    have run (scope : Scope) (steps : Nat) :
        declareWithin scope (steps + 2) [] "Pet" (.inline composedPet)
          = ⟨[], .ok composedPetMessage⟩ := by
      change Decl.message <$> declareComposition scope _ "Pet" composedPet = _
      simp only [declareComposition, composedPet, List.zipIdx_cons, List.zipIdx_nil,
        List.foldlM_cons, List.foldlM_nil, addMember]
      rw [object _ _ _ rfl]
      rfl
    obtain ⟨steps, budget⟩ : ∃ steps, stepBudget ((clinicOf composedPet).bind none).1
        (.inline composedPet) = steps + 2 := Nat.exists_eq_add_of_le' (by decide +kernel)
    change some ((declareWithin _ (stepBudget ((clinicOf composedPet).bind none).1
      (.inline composedPet)) [] "Pet" (.inline composedPet) >>= _).declared _) = _
    rw [budget, run]
    rfl
  have compiled : ((clinicOf composedPet).compile {}).2
      = .ok { declarations := [composedPetMessage, vetMessage] } := clinic_compile pet rfl rfl
  exact ⟨unbound, compiled, by decide +kernel, rfl, rfl, by decide +kernel⟩

end Protoschema
