import Protoschema.Proofs.Addresses
import Protoschema.Proofs.Fields
import Protoschema.Proofs.Identifiers
import Protoschema.Proto
/-!
Names of nested declarations. The directory makes up the name of a place from the schema and the
properties on the way, and declaring makes up the names of the declarations there on its own. Both
give the same: the dotted name in the directory is that of the declarations that are passed on the
way down.
-/

namespace Protoschema

/-! ### Names in the directory -/

/-- The hints for the nodes on the way down, the first one included. -/
def hintsAlong (hint : String) (path : List String) : List String :=
  path.scanl propertyHint hint

namespace Stand

theorem location_along (stand : Stand) (path : List String) :
    (stand.along path).location = ⟨stand.location.root, stand.location.properties ++ path⟩ := by
  induction path generalizing stand with
  | nil => simp [along]
  | cons name rest induction =>
    have step := induction (stand.property name)
    simpa [along, property, Location.child] using step

/-- The name of a place is made of the identifiers of the hints on the way. -/
theorem linkName_along (stand : Stand) (path : List String) :
    (stand.along path).linkName = ".".intercalate
      (stand.linkName :: (hintsAlong stand.hint path).tail.map Ident.normalize) := by
  induction path generalizing stand with
  | nil => simp [along, hintsAlong]
  | cons name rest induction =>
    have step := induction (stand.property name)
    have tail : (hintsAlong stand.hint (name :: rest)).tail
        = hintsAlong (propertyHint stand.hint name) rest := by
      simp [hintsAlong]
    have head : hintsAlong (propertyHint stand.hint name) rest
        = propertyHint stand.hint name
          :: (hintsAlong (propertyHint stand.hint name) rest).tail := by
      cases rest <;> simp [hintsAlong]
    -- the dot between the first two names is in the link name of the property already
    rw [tail, head, List.map_cons, String.intercalate_cons_cons, ← String.intercalate_cons_append]
    exact step

end Stand

theorem Location.entry_snd (location : Location) :
    location.entry.2 = ⟨".".intercalate
      ((hintsAlong location.root location.properties).map Ident.normalize), location⟩ := by
  have names := Stand.linkName_along (.top location.root) location.properties
  have place := Stand.location_along (.top location.root) location.properties
  have head : (hintsAlong location.root location.properties).map Ident.normalize
      = Ident.normalize location.root
        :: (hintsAlong location.root location.properties).tail.map Ident.normalize := by
    cases location.properties <;> simp [hintsAlong]
  rw [head]
  exact congrArg₂ Address.mk names place

/-! ### Names of declarations -/

/-- A node becomes a declaration or a type under a hint, at some depth of declaring. -/
def Scope.Becomes (scope : Scope) (hint : String) (node : Node) (decl : Decl) : Prop :=
  ∃ steps following, (declareWithin scope steps following hint node).outcome = .ok decl

/-- Whatever is declared under a hint has the hint as its name. -/
def naming : DeclInvariant where
  type hint decl := decl.isDeclaration = true → decl.name = hint
  message _ := True
  union _ := True
  named _ _ declaration := by cases declaration
  enum _ _ _ := rfl
  list _ _ _ declaration := by cases declaration
  map _ _ _ declaration := by cases declaration
  noField _ _ := trivial
  property _ _ _ _ _ _ _ := trivial
  ofMessage _ _ _ := rfl
  noAlternative _ _ := trivial
  alternative _ _ _ _ _ _ _ _ := trivial
  ofUnion _ _ _ := rfl

/-- A node whose shape has a declaration becomes one. -/
theorem declareShape_isDeclaration {scope : Scope} {declare : List String → Declarer}
    (following : List String) (hint : String) {node : Node}
    (declares : (Shape.of node).declares = true) :
    (declareShape scope declare following hint node).Ensures fun decl =>
      decl.isDeclaration = true := by
  have wrapped {wrap : Message Decl → Decl} (isDeclaration : ∀ body, (wrap body).isDeclaration)
      (run : Run (Message Decl)) : (wrap <$> run).Ensures fun decl => decl.isDeclaration = true :=
    Run.Ensures.map (fun _ _ => trivial) fun body (_ : True) => isDeclaration body
  unfold declareShape
  cases shape : Shape.of node with
  | union schema => exact wrapped (fun _ => rfl) _
  | composition schema => exact wrapped (fun _ => rfl) _
  | object schema => exact wrapped (fun _ => rfl) _
  | enum schema values =>
    dsimp only
    unfold declareEnum
    split
    · exact Run.ensures_fail _
    · split
      · exact Run.ensures_fail _
      · exact Run.ensures_fail _
      · exact Run.ensures_ok rfl
  | link | openMap | array | scalar => simp [shape, Shape.declares] at declares

theorem Scope.Becomes.isDeclaration {scope : Scope} {hint : String} {node : Node} {decl : Decl}
    (become : scope.Becomes hint node decl) (declares : (Shape.of node).declares = true) :
    decl.isDeclaration = true := by
  obtain ⟨steps, following, outcome⟩ := become
  cases steps with
  | zero => cases outcome
  | succ steps => exact declareShape_isDeclaration following hint declares decl outcome

theorem Scope.Becomes.name {scope : Scope} {hint : String} {node : Node} {decl : Decl}
    (become : scope.Becomes hint node decl) (declares : (Shape.of node).declares = true) :
    decl.name = hint := by
  have isDeclaration := become.isDeclaration declares
  obtain ⟨steps, following, outcome⟩ := become
  exact naming.declareWithin_ensures scope steps following hint node decl outcome isDeclaration

/-- The way from a declared node down to what is declared below it. Each step takes a field of an
object's message, whose property is an inline schema that has a declaration, and goes to the nested
declaration that the property has become. -/
inductive Descent (scope : Scope) : Node → Decl → List String → List Decl → Prop
  | here {node : Node} {decl : Decl} : Descent scope node decl [] [decl]
  | down {schema child : Schema Node} {body : Message Decl} {field : Field Decl} {inner : Decl}
      {path : List String} {passed : List Decl} :
      Shape.ofSchema schema = .object schema →
      field ∈ body.fields →
      Entries.get? schema.properties field.name = some (.inline child) →
      (Shape.ofSchema child).declares = true →
      inner ∈ body.nested →
      scope.Becomes (propertyHint body.name field.name) (.inline child) inner →
      Descent scope (.inline child) inner path passed →
      Descent scope (.inline schema) (.message body) (field.name :: path) (.message body :: passed)

namespace Descent

variable {scope : Scope} {node : Node} {decl : Decl} {path : List String} {passed : List Decl}

theorem isSome_descend (descent : Descent scope node decl path passed) :
    (node.descend path).isSome := by
  induction descent with
  | here => simp [Node.descend]
  | down _ _ property _ _ _ _ induction =>
    rw [Node.descend, property]
    exact induction

/-- The declarations on the way have the hints of the way as their names. -/
theorem names (descent : Descent scope node decl path passed) :
    passed.map Decl.name = hintsAlong decl.name path := by
  induction descent with
  | here => simp [hintsAlong]
  | @down _ _ body field inner path passed _ _ _ declares _ become _ induction =>
    have named : inner.name = propertyHint body.name field.name := become.name declares
    rw [List.map_cons, induction, named]
    simp [hintsAlong, Decl.name]

theorem idents (descent : Descent scope node decl path passed) {hint : String}
    (named : decl.name = hint) :
    passed.map Decl.ident = (hintsAlong hint path).map Ident.normalize := by
  rw [← named, ← descent.names, List.map_map]
  rfl

end Descent

theorem hintsAlong_ne_nil (hint : String) (path : List String) : hintsAlong hint path ≠ [] := by
  cases path <;> simp [hintsAlong]

/-- A top-level schema that has a declaration becomes it under its own name. -/
theorem Document.declareSchema_becomes {document : Document} {options : Options} {name : String}
    {declared : Declared} (compiled : document.declareSchema options name = some (.ok declared))
    {node : Node} (found : document.schema? name = some node)
    (declares : (Shape.of node).declares = true) :
    Scope.Becomes ⟨document, options⟩ name node declared.decl := by
  obtain ⟨node', type, found', outcome, boxed⟩ := declareSchema_ok compiled
  obtain rfl := Option.some.inj (found.symm.trans found')
  have become : Scope.Becomes ⟨document, options⟩ name node type := ⟨_, [], outcome⟩
  -- only what cannot stand alone is boxed
  have unboxed : declared.decl = type := by
    have declaration := become.isDeclaration declares
    rw [boxed]
    cases type <;> first | rfl | cases declaration
  rw [unboxed]
  exact become

/-- The directory names what is declared. From the declaration of an object, go down through fields
and nested declarations that come from inline properties: the directory has the place where this
leads under its pointer, with the dotted name of the declarations on the way; and that name is
emitted as it is. -/
theorem Document.directory_names_declarations (document : Document) (options : Options)
    (root : String) (schema : Schema Node) (declared : Declared)
    (found : document.schema? root = some (.inline schema))
    (object : Shape.ofSchema schema = .object schema)
    (compiled : document.declareSchema options root = some (.ok declared)) (path : List String)
    (passed : List Decl)
    (descent : Descent ⟨document, options⟩ (.inline schema) declared.decl path passed) :
    (Directory.ofDocument document).get? (Pointer.ofLocation root path)
      = some ⟨".".intercalate (passed.map Decl.ident), ⟨root, path⟩⟩ ∧
    Ident.qualified (".".intercalate (passed.map Decl.ident))
      = ".".intercalate (passed.map Decl.ident) ∧
    Proto.typeText (.named (".".intercalate (passed.map Decl.ident)))
      = ".".intercalate (passed.map Decl.ident) := by
  have declares : (Shape.of (.inline schema)).declares = true := by
    rw [Shape.of, object]
    rfl
  have become := declareSchema_becomes compiled found declares
  have idents := descent.idents (become.name declares)
  have plain : Ident.qualified (".".intercalate (passed.map Decl.ident))
      = ".".intercalate (passed.map Decl.ident) := by
    rw [idents]
    exact Ident.qualified_intercalate_normalize (hintsAlong_ne_nil root path)
  refine ⟨?_, plain, plain⟩
  have isSome : (document.lookup ⟨root, path⟩).isSome := by
    rw [lookup, found]
    exact descent.isSome_descend
  have address := directory_get?_of_lookup isSome
  rw [Location.entry_snd, ← idents] at address
  exact address

/-- A pod whose names are no identifiers, with an object in it and an enum in that. -/
def pod : Schema Node where
  type := some .object
  order := ["owner-info"]
  properties := [("owner-info", .inline {
    type := some .object
    order := ["in/out"]
    properties := [("in/out", .inline { type := some .string, values := some [.text "in"] })] })]

def pods : Document where
  schemas := [("v1.Pod", .inline pod)]

def podDirection : Decl :=
  .enum { name := "v1.Pod_owner-info_in/out", values := ["in"] }

def podOwner : Message Decl where
  name := "v1.Pod_owner-info"
  nested := [podDirection]
  fields := [⟨"in/out", 1, .named "v1_Pod_owner_info_in_out", none⟩]

def podMessage : Message Decl where
  name := "v1.Pod"
  nested := [.message podOwner]
  fields := [⟨"owner-info", 1, .named "v1_Pod_owner_info", none⟩]

theorem Document.directory_names_declarations_pods :
    pods.declareSchema {} "v1.Pod" = some (.ok ⟨.message podMessage, {}, []⟩) ∧
    Descent ⟨pods, {}⟩ (.inline pod) (.message podMessage) ["owner-info", "in/out"]
      [.message podMessage, .message podOwner, podDirection] ∧
    (Directory.ofDocument pods).get?
        "#/components/schemas/v1.Pod/properties/owner-info/properties/in~1out"
      = some ⟨"v1_Pod.v1_Pod_owner_info.v1_Pod_owner_info_in_out",
          ⟨"v1.Pod", ["owner-info", "in/out"]⟩⟩ ∧
    Ident.qualified "v1_Pod.v1_Pod_owner_info.v1_Pod_owner_info_in_out"
      = "v1_Pod.v1_Pod_owner_info.v1_Pod_owner_info_in_out" := by
  have compiled : pods.declareSchema {} "v1.Pod" = some (.ok ⟨.message podMessage, {}, []⟩) := by
    rfl
  have owner : ⟨"owner-info", 1, .named "v1_Pod_owner_info", none⟩ ∈ podMessage.fields :=
    List.mem_cons_self
  have direction : ⟨"in/out", 1, .named "v1_Pod_owner_info_in_out", none⟩ ∈ podOwner.fields :=
    List.mem_cons_self
  have descent : Descent ⟨pods, {}⟩ (.inline pod) (.message podMessage) ["owner-info", "in/out"]
      [.message podMessage, .message podOwner, podDirection] := by
    refine .down rfl owner rfl rfl List.mem_cons_self ⟨2, [], rfl⟩ ?_
    exact .down rfl direction rfl rfl List.mem_cons_self ⟨1, [], rfl⟩ .here
  have named := directory_names_declarations pods {} "v1.Pod" pod _ rfl rfl compiled
    ["owner-info", "in/out"] _ descent
  exact ⟨compiled, descent, named.1, named.2.1⟩

end Protoschema
