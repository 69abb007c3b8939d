import Protoschema.Proofs.Bound
import Protoschema.Proofs.FieldSelection
import Protoschema.Proofs.StepBudget
/-!
What a composition inherits. A member of a composition stands for an object, and the composition has
fields for the properties of that object. Declared on its own, the object may have other fields: if
it is composed itself, its own members decide what they are. So all fields are inherited from an
object that is not composed; from one that is, those that some member of the composition lists.
-/

namespace Protoschema

/-- What a member of a composition stands for is among the objects that the composition takes in. -/
theorem Document.mem_sources {document : Document} {hint : String} {schema : Schema Node}
    {objects : List (Schema Node)} (sources : document.sources hint schema = .ok objects)
    {member : Node} {position : Nat} (listed : (member, position) ∈ schema.allOf.zipIdx)
    {object : Schema Node} (stands : memberObject document hint (position + 1)
      (freshPointers document member) member = .ok object) : object ∈ objects := by
  have composed : schema.allOf ≠ [] := List.ne_nil_of_mem (List.fst_mem_of_mem_zipIdx listed)
  rw [Document.sources, if_neg composed] at sources
  obtain ⟨other, inside, same⟩ := exists_of_mem_left (mapM_ok_iff.mp sources) listed
  obtain rfl : object = other := Except.ok.inj (stands.symm.trans same)
  exact inside

/-- Take a composition that becomes a message, and an object that one of its members stands for. If
the object becomes a message on its own, the composition has all fields of that message exactly if
everything that the sources of the object list is listed by an object that the composition takes
in. An object that is not composed itself is its only source, so all its fields are inherited. -/
theorem Scope.fields_inherited (scope : Scope) (steps : Nat) (following : List String)
    (hint : String) (composed : Schema Node) (body : Message Decl)
    (declared : (declareWithin scope (steps + 1) following hint (.inline composed)).outcome
      = .ok (.message body))
    (member : Node) (position : Nat) (listed : (member, position) ∈ composed.allOf.zipIdx)
    (object : Schema Node) (stands : memberObject scope.document hint (position + 1)
      (freshPointers scope.document member) member = .ok object)
    (steps' : Nat) (following' : List String) (hint' : String) (own : Message Decl)
    (alone : (declareWithin scope (steps' + 1) following' hint' (.inline object)).outcome
      = .ok (.message own)) :
    ∃ objects sources, scope.document.sources hint composed = .ok objects ∧
      scope.document.sources hint' object = .ok sources ∧
      ((∀ field ∈ own.fields, body.hasField field.name = true) ↔
        ∀ source ∈ sources, ∀ name ∈ source.orderedNames,
          ∃ other ∈ objects, other.lists (Ident.normalize name) = true) ∧
      (object.allOf = [] → ∀ field ∈ own.fields, body.hasField field.name = true) := by
  obtain ⟨objects, taken, adds⟩ := declareShape_message declared
  obtain ⟨sources, own', adds'⟩ := declareShape_message alone
  have inherits : (∀ field ∈ own.fields, body.hasField field.name = true) ↔
      ∀ source ∈ sources, ∀ name ∈ source.orderedNames,
        ∃ other ∈ objects, other.lists (Ident.normalize name) = true := by
    constructor
    · intro all source inside name listed
      -- the object has a field of this identifier, maybe in another spelling
      have lists : source.lists (Ident.normalize name) = true := Schema.lists_of_mem listed
      have has := adds'.hasField_iff.mpr ⟨source, inside, lists⟩
      obtain ⟨field, member, same⟩ := List.mem_map.mp (Message.hasField_iff.mp has)
      rw [← same]
      exact adds.hasField_iff.mp (all field member)
    · intro all field member
      have has : own.hasField field.name = true :=
        Message.hasField_iff.mpr (List.mem_map.mpr ⟨field, member, rfl⟩)
      obtain ⟨source, inside, lists⟩ := adds'.hasField_iff.mp has
      obtain ⟨name, listed, same⟩ := List.any_eq_true.mp lists
      have listed := all source inside name listed
      rw [beq_iff_eq.mp same] at listed
      exact adds.hasField_iff.mpr listed
  refine ⟨objects, sources, taken, own', inherits, fun plain => inherits.mpr ?_⟩
  -- an object that is not composed is a source of the composition as it stands
  rw [Document.sources, if_pos plain] at own'
  cases own'
  intro source only name inside
  obtain rfl := List.mem_singleton.mp only
  exact ⟨source, Document.mem_sources taken listed stands, Schema.lists_of_mem inside⟩

/-- A composition with a single member is declared like the object behind it. -/
theorem declareWithin_single {scope : Scope} {schema object : Schema Node} {reference : Reference}
    {name : String} {target : Location} (shape : Shape.ofSchema schema = .composition schema)
    (single : schema.allOf = [.ref reference])
    (bound : reference.binding = some (.here name target))
    (found : scope.document.lookup target = some (.inline object))
    (typed : object.type = some .object) (steps : Nat) (following : List String) (hint : String) :
    declareWithin scope (steps + 1) following hint (.inline schema)
      = .message <$> addProperties (declareWithin scope steps following)
          ⟨hint, [], [], schema.description⟩ object := by
  simp only [declareWithin, declareShape, Shape.of, shape, declareComposition, single,
    List.zipIdx_cons, List.zipIdx_nil, List.foldlM_cons, List.foldlM_nil, addMember]
  rw [memberObject_ref bound found typed]
  change Decl.message <$> (addProperties _ _ object >>= pure) = _
  generalize addProperties _ _ object = run
  obtain ⟨events, error | body⟩ := run
  · rfl
  · rw [Run.bind_ok, Run.pure_eq, List.append_nil]

/-- What a few steps make of a top-level schema is what is declared. -/
theorem Document.declareSchema_of_within {document : Document} {options : Options} {name : String}
    {node : Node} (found : document.schema? name = some node) {steps : Nat} {events : List Event}
    {decl : Decl}
    (run : declareWithin ⟨document, options⟩ steps [] name node = ⟨events, .ok decl⟩)
    (alone : decl.loose? = none) :
    document.declareSchema options name
      = some ((⟨events, .ok decl⟩ : Run Decl).declared name) := by
  have ends : (declareWithin ⟨document, options⟩ steps [] name node).Ends := by
    rw [run]
    exact Run.avoids_ok _ _
  rw [Document.declareSchema, found, Option.map_some, declareTopLevel,
    ← declareWithin_eq_declare ends, run, Run.bind_ok, alone]
  simp

/-- An animal with a name. -/
def namedAnimal : Schema Node where
  type := some .object
  order := ["name"]
  properties := [("name", .inline { type := some .string })]

/-- A dog is composed of a pet that stands next to it. -/
def dogWith (pet : Schema Node) : Document where
  schemas := [
    ("Animal", .inline namedAnimal),
    ("Pet", .inline pet),
    ("Dog", .inline { allOf := [.ref { pointer := "#/components/schemas/Pet" }] })]

/-- A reference to a schema, bound. -/
def boundTo (name : String) : Reference where
  pointer := "#/components/schemas/" ++ name
  binding := some (.here name ⟨name, []⟩)

def boundDog : Schema Node where
  allOf := [.ref (boundTo "Pet")]

def namedMessage (name : String) : Message Decl where
  name := name
  fields := [⟨"name", 1, .named "string", none⟩]

/-- A pet that is an object with a name: the dog has the name too. -/
theorem Scope.fields_inherited_dog :
    (declareWithin ⟨((dogWith namedAnimal).bind none).1, {}⟩ 2 [] "Dog" (.inline boundDog)).outcome
      = .ok (.message (namedMessage "Dog")) ∧
    (declareWithin ⟨((dogWith namedAnimal).bind none).1, {}⟩ 2 [] "Pet"
      (.inline namedAnimal)).outcome = .ok (.message (namedMessage "Pet")) ∧
    ∀ field ∈ (namedMessage "Pet").fields, (namedMessage "Dog").hasField field.name = true := by
  have found : ((dogWith namedAnimal).bind none).1.lookup ⟨"Pet", []⟩
      = some (.inline namedAnimal) := rfl
  have declared : (declareWithin ⟨((dogWith namedAnimal).bind none).1, {}⟩ 2 [] "Dog"
      (.inline boundDog)).outcome = .ok (.message (namedMessage "Dog")) := by
    rw [declareWithin_single rfl rfl rfl found rfl]
    rfl
  have alone : (declareWithin ⟨((dogWith namedAnimal).bind none).1, {}⟩ 2 [] "Pet"
      (.inline namedAnimal)).outcome = .ok (.message (namedMessage "Pet")) := rfl
  obtain ⟨objects, sources, _, _, _, inherits⟩ := fields_inherited _ 1 [] "Dog" boundDog _ declared
    (.ref (boundTo "Pet")) 0 List.mem_cons_self namedAnimal (memberObject_ref rfl found rfl "Dog" 1)
    1 [] "Pet" _ alone
  exact ⟨declared, alone, inherits rfl⟩

/-- A pet that is composed of an animal, and says that it is an object. -/
def animalPet : Schema Node where
  type := some .object
  allOf := [.ref { pointer := "#/components/schemas/Animal" }]

def boundAnimalPet : Schema Node where
  type := some .object
  allOf := [.ref (boundTo "Animal")]

/-- The pet has the name of the animal, but the dog that is composed of the pet has not. -/
theorem Document.inherited_field_lost_dog :
    (dogWith animalPet).Unbound ∧
    ((dogWith animalPet).bind none).1.declareSchema {} "Pet"
      = some (.ok ⟨.message (namedMessage "Pet"), {}, []⟩) ∧
    ((dogWith animalPet).bind none).1.schema? "Dog" = some (.inline boundDog) ∧
    memberObject ((dogWith animalPet).bind none).1 "Dog" 1
      (freshPointers ((dogWith animalPet).bind none).1 (.ref (boundTo "Pet")))
      (.ref (boundTo "Pet")) = .ok boundAnimalPet ∧
    ((dogWith animalPet).bind none).1.schema? "Pet" = some (.inline boundAnimalPet) ∧
    ((dogWith animalPet).bind none).1.declareSchema {} "Dog"
      = some (.ok ⟨.message { name := "Dog" }, {}, []⟩) ∧
    ∃ field ∈ (namedMessage "Pet").fields,
      (⟨"Dog", [], [], none⟩ : Message Decl).hasField field.name = false := by
  have unbound : (dogWith animalPet).Unbound := by
    simp [Unbound, references, dogWith, animalPet, namedAnimal, Schema.children]
  have animal : ((dogWith animalPet).bind none).1.lookup ⟨"Animal", []⟩
      = some (.inline namedAnimal) := rfl
  have pet : ((dogWith animalPet).bind none).1.lookup ⟨"Pet", []⟩
      = some (.inline boundAnimalPet) := rfl
  have declaredPet : declareWithin ⟨((dogWith animalPet).bind none).1, {}⟩ 2 [] "Pet"
      (.inline boundAnimalPet) = ⟨[], .ok (.message (namedMessage "Pet"))⟩ := by
    rw [declareWithin_single rfl rfl rfl animal rfl]
    rfl
  have declaredDog : declareWithin ⟨((dogWith animalPet).bind none).1, {}⟩ 2 [] "Dog"
      (.inline boundDog) = ⟨[], .ok (.message { name := "Dog" })⟩ := by
    have bare : boundAnimalPet.orderedNames = [] := by
      simp [Schema.orderedNames, boundAnimalPet, sortedNames]
    rw [declareWithin_single rfl rfl rfl pet rfl, addProperties_eq_after, bare]
    rfl
  refine ⟨unbound, declareSchema_of_within rfl declaredPet rfl, rfl,
    memberObject_ref rfl pet rfl "Dog" 1, rfl, declareSchema_of_within rfl declaredDog rfl, ?_⟩
  exact ⟨_, List.mem_cons_self, rfl⟩

end Protoschema
