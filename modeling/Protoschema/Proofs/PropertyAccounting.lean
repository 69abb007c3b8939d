import Protoschema.Proofs.Inheritance
import Protoschema.Proofs.VisitedNodes
/-!
What becomes of the properties of a schema, at the top of a document or anywhere on the way from
there. The run at the top goes through all visits on the way, so that their warnings are handed on.
Each property of an object or of a map has a field or a warning. A union and a composition do not
look at the properties next to their alternatives or members, and no warning says so.
-/

namespace Protoschema

/-! ### Properties -/

/-- A message, a union or a map: what can come of a schema with properties. -/
def Decl.isRecord : Decl → Bool
  | .message _ | .union _ | .map _ _ _ => true
  | _ => false

/-- A property of a node that is declared under a hint is accounted for: it has a field, or a
warning says that it or all properties of the node are left out. -/
inductive Accounted (hint : String) (decl : Decl) (warned : String → Prop) (property : String) :
    Prop
  | field {body : Message Decl} : decl = .message body → body.hasField property = true →
      Accounted hint decl warned property
  | skipped : warned (hint ++ ": `" ++ property ++ "` is not in x-properties-order, skipped") →
      Accounted hint decl warned property
  | ignored : warned (hint ++ ": properties next to additionalProperties are ignored") →
      Accounted hint decl warned property

theorem Accounted.mono {hint : String} {decl : Decl} {warned warned' : String → Prop}
    {property : String} (accounted : Accounted hint decl warned property)
    (handed : ∀ text, warned text → warned' text) : Accounted hint decl warned' property := by
  cases accounted with
  | field message has => exact .field message has
  | skipped text => exact .skipped (handed _ text)
  | ignored text => exact .ignored (handed _ text)

theorem Accounted.field_of_silent {hint : String} {decl : Decl} {warned : String → Prop}
    {property : String} (accounted : Accounted hint decl warned property)
    (silent : ∀ text, ¬warned text) :
    ∃ body, decl = .message body ∧ body.hasField property = true := by
  cases accounted with
  | field message has => exact ⟨_, message, has⟩
  | skipped text | ignored text => exact absurd text (silent _)

theorem mem_listed_or_unordered {schema : Schema Node} {property : String}
    (member : property ∈ Entries.keys schema.properties) :
    property ∈ schema.orderedNames ∨ property ∈ unordered schema := by
  unfold Schema.orderedNames unordered
  by_cases bare : schema.order.isEmpty = true
  · rw [if_pos bare]
    exact .inl ((sortedNames_perm _).mem_iff.mpr member)
  · rw [if_neg bare, if_neg bare]
    by_cases listed : property ∈ schema.order
    · exact .inl listed
    · exact .inr (by simpa [listed] using member)

theorem Adds.accounted {declare : Declarer} {schema : Schema Node} {hint : String}
    {comment : Option String} {body : Message Decl} {events : List Event}
    (adds : Adds declare (turns [] [schema]) ⟨hint, [], [], comment⟩ body events)
    {property : String} (member : property ∈ Entries.keys schema.properties) :
    Accounted hint (.message body) (.warned · ∈ events) property := by
  rcases mem_listed_or_unordered member with listed | unlisted
  · exact .field rfl
      (adds.hasField_iff.mpr ⟨schema, List.mem_singleton_self _, Schema.lists_of_mem listed⟩)
  · apply Accounted.skipped
    rw [adds.events]
    refine List.mem_flatMap.mpr ⟨.unlisted property, ?_, List.mem_singleton_self _⟩
    exact List.mem_append_left _ (List.mem_append_left _ (List.mem_map_of_mem unlisted))

theorem declareOpenMap_accounted {declare : Declarer} {hint : String} {schema : Schema Node}
    {additional : Additional Node} {decl : Decl}
    (outcome : (declareOpenMap declare hint schema additional).outcome = .ok decl)
    {property : String} (member : property ∈ Entries.keys schema.properties) :
    Accounted hint decl (.warned · ∈ (declareOpenMap declare hint schema additional).events)
      property := by
  by_cases object : schema.type = some .object
  · cases additional with
    | flag value =>
      rw [declareOpenMap_flag object] at outcome
      cases outcome
    | node node =>
      have present : schema.properties ≠ [] := by
        intro bare
        rw [bare] at member
        cases member
      apply Accounted.ignored
      rw [declareOpenMap_node object, Run.events_map, Run.after, ignoredWarnings,
        if_neg present]
      exact List.mem_cons_self
  · rw [declareOpenMap_other object] at outcome
    cases outcome

theorem declareShape_accounted {scope : Scope} {declare : List String → Declarer}
    {following : List String} {hint : String} {schema : Schema Node} {decl : Decl}
    (outcome : (declareShape scope declare following hint (.inline schema)).outcome = .ok decl)
    (noUnion : schema.oneOf = []) (noComposition : schema.allOf = [])
    (record : decl.isRecord = true) {property : String}
    (member : property ∈ Entries.keys schema.properties) :
    Accounted hint decl
      (.warned · ∈ (declareShape scope declare following hint (.inline schema)).events)
      property := by
  have makes := declareShape_makes following hint (.inline schema) decl outcome
  cases decl with
  | message body =>
    obtain ⟨objects, sources, adds⟩ := declareShape_message outcome
    rw [Document.sources, if_pos noComposition] at sources
    cases sources
    exact adds.accounted member
  | union body =>
    -- only alternatives make a union
    rw [Shape.of, Shape.ofSchema, if_neg (not_not.mpr noUnion),
      if_neg (not_not.mpr noComposition)] at makes
    split at makes <;> cases makes
  | map label key value =>
    have self := Shape.alike_self schema
    simp only [declareShape, Shape.of] at outcome makes ⊢
    generalize Shape.ofSchema schema = shape at self outcome makes ⊢
    cases self with
    | openMap => exact declareOpenMap_accounted outcome member
    | union | composition | object | array | enum | scalar => cases makes
  | repeated | enum | named => cases record

/-- What has alternatives or members is declared without a look at its properties. -/
theorem declareShape_combined (scope : Scope) (declare : List String → Declarer)
    (following : List String) (hint : String) {schema : Schema Node}
    (combined : schema.oneOf ≠ [] ∨ schema.allOf ≠ []) (properties : List (String × Node))
    (order : List String) :
    declareShape scope declare following hint (.inline { schema with properties, order })
      = declareShape scope declare following hint (.inline schema) := by
  by_cases union : schema.oneOf = []
  · have composition := combined.resolve_left (not_not.mpr union)
    simp only [declareShape, Shape.of, Shape.ofSchema, ne_eq, union, composition, not_true_eq_false,
      not_false_eq_true, if_true, if_false]
    rfl
  · simp only [declareShape, Shape.of, Shape.ofSchema, ne_eq, union, not_false_eq_true, if_true]
    rfl

theorem Document.mem_warnings {document : Document} {options : Options} {name : String}
    {node : Node} {declared : Declared} (found : document.schema? name = some node)
    (compiled : document.declareSchema options name = some (.ok declared)) :
    ∃ decl, ((Visit.top name node).run ⟨document, options⟩).outcome = .ok decl ∧
      ∀ text, .warned text ∈ ((Visit.top name node).run ⟨document, options⟩).events →
        ⟨.warning, name, text⟩ ∈ declared.warnings := by
  have through : ((Visit.top name node).run ⟨document, options⟩).Through
    (declareTopLevel ⟨document, options⟩ name node) := .first _ _
  rw [Document.declareSchema, found, Option.map_some, Option.some.injEq] at compiled
  generalize declareTopLevel ⟨document, options⟩ name node = run at through compiled
  obtain ⟨events, error | decl⟩ := run
  · cases compiled
  · cases compiled
    obtain ⟨⟨type, outcome⟩, inside⟩ := through.of_ok rfl
    refine ⟨type, outcome, fun text met => ?_⟩
    have warned : text ∈ (⟨events, .ok decl⟩ : Run Decl).warnings :=
      List.mem_filterMap.mpr ⟨_, inside met, rfl⟩
    exact List.mem_map_of_mem warned

/-- A visit for what has alternatives or members comes to the same with other properties, although
another number of steps may be enough for it. -/
theorem Visit.run_combined {scope : Scope} {following : List String} {hint : String}
    {schema : Schema Node} (ends : (Visit.run scope ⟨following, hint, .inline schema⟩).Ends)
    (combined : schema.oneOf ≠ [] ∨ schema.allOf ≠ []) (properties : List (String × Node))
    (order : List String) :
    Visit.run scope ⟨following, hint, .inline { schema with properties, order }⟩
      = Visit.run scope ⟨following, hint, .inline schema⟩ := by
  obtain ⟨steps, enough⟩ := Visit.exists_within scope ⟨following, hint, .inline schema⟩
  have same : Visit.within scope (steps + 1)
        ⟨following, hint, .inline { schema with properties, order }⟩
      = Visit.within scope (steps + 1) ⟨following, hint, .inline schema⟩ :=
    declareShape_combined _ _ _ _ combined properties order
  rw [enough, ← same] at ends ⊢
  exact (Visit.within_eq_run ends).symm

/-- Take a top-level schema that is declared, and a schema that is declared on the way. If this one
has neither alternatives nor members and becomes a message, a union or a map, each of its properties
has a field, or a warning that is handed on says that it is left out. If it has alternatives or
members, neither what comes of it nor what is met depends on its properties or their order. -/
theorem Document.properties_accounted (document : Document) (options : Options) (name : String)
    (node : Node) (declared : Declared) (found : document.schema? name = some node)
    (compiled : document.declareSchema options name = some (.ok declared)) (visit : Visit)
    (reached : Relation.ReflTransGen (Visit.Next ⟨document, options⟩) (.top name node) visit)
    (schema : Schema Node) (inline : visit.node = .inline schema) :
    ∃ decl, (visit.run ⟨document, options⟩).outcome = .ok decl ∧
      (schema.oneOf = [] → schema.allOf = [] → decl.isRecord = true →
        ∀ property ∈ Entries.keys schema.properties,
          Accounted visit.hint decl (⟨.warning, name, ·⟩ ∈ declared.warnings) property) ∧
      (schema.oneOf ≠ [] ∨ schema.allOf ≠ [] → ∀ properties order,
        { visit with node := .inline { schema with properties, order } }.run ⟨document, options⟩
          = visit.run ⟨document, options⟩) := by
  obtain ⟨_, outcome, handed⟩ := mem_warnings found compiled
  have through := Visit.through_of_reached reached (Run.ends_of_ok outcome)
  obtain ⟨⟨decl, outcome⟩, inside⟩ := through.of_ok outcome
  obtain ⟨following, hint, _⟩ := visit
  cases inline
  refine ⟨decl, outcome, ?_, Visit.run_combined (Run.ends_of_ok outcome)⟩
  intro noUnion noComposition record property member
  obtain ⟨steps, enough⟩ :=
    Visit.exists_within ⟨document, options⟩ ⟨following, hint, .inline schema⟩
  rw [enough] at outcome inside
  have accounted := declareShape_accounted outcome noUnion noComposition record member
  exact accounted.mono fun text met => handed text (inside met)

/-- A map of counts that has a property too. -/
def countedStock : Schema Node where
  type := some .object
  properties := [("shelf", .inline { type := some .string })]
  additional := some (.node (.inline { type := some .integer }))

/-- An object with such a map, and with a property that its order leaves out. -/
def depot : Schema Node where
  type := some .object
  order := ["stock"]
  properties := [("note", .inline { type := some .string }), ("stock", .inline countedStock)]

def depots : Document where
  schemas := [("Depot", .inline depot)]

def declaredDepot : Declared where
  decl := .message {
    name := "Depot"
    fields := [⟨"stock", 1, .map "Depot_stock" "string" (.named "int32"), none⟩] }
  imports := {}
  warnings := [
    ⟨.warning, "Depot", "Depot: `note` is not in x-properties-order, skipped"⟩,
    ⟨.warning, "Depot", "Depot_stock: properties next to additionalProperties are ignored"⟩]

theorem depot_declared : depots.declareSchema {} "Depot" = some (.ok declaredDepot) := by
  have run : declareWithin ⟨depots, {}⟩ 3 [] "Depot" (.inline depot) = ⟨_, _⟩ := rfl
  exact Document.declareSchema_of_within rfl run rfl

/-- The visit for the map in the depot. -/
def stockVisit : Visit :=
  ⟨[], propertyHint "Depot" "stock", .inline countedStock⟩

theorem depot_reaches_stock :
    Relation.ReflTransGen (Visit.Next ⟨depots, {}⟩) (.top "Depot" (.inline depot)) stockVisit := by
  have first : Run.LoopReaches (addProperty (declareOnward ⟨depots, {}⟩ []) depot) ["stock"]
      { name := "Depot" } "stock" { name := "Depot" } := .first []
  exact .single (.property (.property (.object rfl) first rfl rfl))

theorem Document.properties_accounted_depot :
    depots.schema? "Depot" = some (.inline depot) ∧
    depots.declareSchema {} "Depot" = some (.ok declaredDepot) ∧
    Relation.ReflTransGen (Visit.Next ⟨depots, {}⟩) (.top "Depot" (.inline depot)) stockVisit ∧
    Accounted "Depot_stock" (.map "Depot_stock" "string" (.named "int32"))
      (⟨.warning, "Depot", ·⟩ ∈ declaredDepot.warnings) "shelf" := by
  obtain ⟨decl, outcome, accounted, _⟩ := properties_accounted depots {} "Depot" (.inline depot)
    declaredDepot rfl depot_declared stockVisit depot_reaches_stock countedStock rfl
  have become : (stockVisit.run ⟨depots, {}⟩).outcome
      = .ok (.map "Depot_stock" "string" (.named "int32")) := rfl
  obtain rfl := Except.ok.inj (become.symm.trans outcome)
  exact ⟨rfl, depot_declared, depot_reaches_stock, accounted rfl rfl rfl "shelf" List.mem_cons_self⟩

/-- A composition with a property next to its member. -/
def livingCat : Schema Node where
  allOf := [.inline namedAnimal]
  properties := [("lives", .inline { type := some .integer })]

/-- A union with a property next to its alternative. -/
def notedContact : Schema Node where
  oneOf := [.inline { type := some .string }]
  properties := [("note", .inline { type := some .string })]

def catContacts : Document where
  schemas := [("Cat", .inline livingCat), ("Contact", .inline notedContact)]

def declaredCat : Declared :=
  ⟨.message (namedMessage "Cat"), {}, []⟩

def declaredContact : Declared :=
  ⟨.union ⟨"Contact", [], [⟨"stringValue", 1, .named "string", none⟩], none⟩, {}, []⟩

/-- Both are declared without a warning, and neither property has a field. -/
theorem Document.properties_dropped_catContacts :
    catContacts.Unbound ∧
    (catContacts.bind none).1.declareSchema {} "Cat" = some (.ok declaredCat) ∧
    ¬Accounted "Cat" declaredCat.decl (⟨.warning, "Cat", ·⟩ ∈ declaredCat.warnings) "lives" ∧
    (catContacts.bind none).1.declareSchema {} "Contact" = some (.ok declaredContact) ∧
    ¬Accounted "Contact" declaredContact.decl (⟨.warning, "Contact", ·⟩ ∈ declaredContact.warnings)
      "note" := by
  have unbound : catContacts.Unbound := by
    simp [Unbound, references, catContacts, livingCat, notedContact, namedAnimal, Schema.children]
  have cat : declareWithin ⟨(catContacts.bind none).1, {}⟩ 2 [] "Cat" (.inline livingCat)
      = ⟨[], .ok declaredCat.decl⟩ := by
    change Decl.message <$> declareComposition _ _ "Cat" livingCat = _
    simp only [declareComposition, livingCat, List.zipIdx_cons, List.zipIdx_nil, List.foldlM_cons,
      List.foldlM_nil, addMember]
    rw [memberObject_inline _ _ _ _ rfl]
    rfl
  have contact : declareWithin ⟨(catContacts.bind none).1, {}⟩ 2 [] "Contact"
      (.inline notedContact) = ⟨[], .ok declaredContact.decl⟩ := rfl
  refine ⟨unbound, declareSchema_of_within rfl cat rfl, ?_, declareSchema_of_within rfl contact rfl,
    ?_⟩
  · intro accounted
    obtain ⟨body, same, has⟩ := accounted.field_of_silent fun _ => List.not_mem_nil
    cases same
    cases has
  · intro accounted
    obtain ⟨body, same, _⟩ := accounted.field_of_silent fun _ => List.not_mem_nil
    cases same

end Protoschema
