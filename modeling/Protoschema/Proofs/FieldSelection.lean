import Protoschema.Proofs.Derivation
import Protoschema.Proofs.Entries
import Protoschema.Proofs.Fields
/-!
Which properties become the fields of a message. An object takes in itself and a composition takes
in the objects that its members stand for, one after the other. `turns` says for every property of
these objects what becomes of it: the first one of an identifier has a field, the later ones and
those that a given order does not name are left out with a warning. The fields of the message and
the events of declaring it are read off the turns.
-/

namespace Protoschema

/-- What becomes of a property of an object whose fields are added to a message. -/
inductive Turn
  | kept (object : Schema Node) (property : String)
  /-- Its identifier came up before. -/
  | repeated (property : String)
  /-- The order that is given does not name it. -/
  | unlisted (property : String)

namespace Turn

/-- A property that has a field, with the object that it is from. -/
def field? : Turn → Option (Schema Node × String)
  | kept object property => some (object, property)
  | repeated _ | unlisted _ => none

/-- What is met at a turn: all that declaring the property meets, or one warning. -/
def events (declare : Declarer) (hint : String) : Turn → List Event
  | kept object property =>
    (Entries.get? object.properties property).elim []
      fun node => (declare (propertyHint hint property) node).events
  | repeated property =>
    [.warned (hint ++ ": duplicate field `" ++ property ++ "`, keeping the first")]
  | unlisted property =>
    [.warned (hint ++ ": `" ++ property ++ "` is not in x-properties-order, skipped")]

end Turn

/-- The turns of an object's properties in their order, where some identifiers are taken. -/
def listedTurns (object : Schema Node) (taken : List String) : List String → List Turn
  | [] => []
  | name :: rest =>
    if Ident.normalize name ∈ taken then .repeated name :: listedTurns object taken rest
    else .kept object name :: listedTurns object (taken ++ [Ident.normalize name]) rest

/-- The turns of all properties of an object. -/
def objectTurns (taken : List String) (object : Schema Node) : List Turn :=
  (unordered object).map .unlisted ++ listedTurns object taken object.orderedNames

/-- The turns of all properties of some objects, one object after the other. -/
def turns (taken : List String) : List (Schema Node) → List Turn
  | [] => []
  | object :: rest =>
    objectTurns taken object
      ++ turns (taken ++ (freshNames taken object.orderedNames).map Ident.normalize) rest

/-- The objects whose properties a schema's message has as fields: those that the members of a
composition stand for, or the schema itself. -/
def Document.sources (document : Document) (hint : String) (schema : Schema Node) :
    Except SchemaError (List (Schema Node)) :=
  if schema.allOf = [] then .ok [schema]
  else schema.allOf.zipIdx.mapM fun member =>
    memberObject document hint (member.2 + 1) (freshPointers document member.1) member.1

/-- Whether an object lists a property of an identifier. -/
def Schema.lists (object : Schema Node) (ident : String) : Bool :=
  object.orderedNames.any fun name => Ident.normalize name == ident

theorem Schema.lists_of_mem {object : Schema Node} {name : String}
    (listed : name ∈ object.orderedNames) : object.lists (Ident.normalize name) = true :=
  List.any_eq_true.mpr ⟨name, listed, beq_self_eq_true _⟩

/-! ### Names whose identifiers are new -/

theorem mem_freshNames {taken names : List String} {name : String}
    (fresh : name ∈ freshNames taken names) : name ∈ names ∧ Ident.normalize name ∉ taken := by
  induction names generalizing taken with
  | nil => cases fresh
  | cons head rest ih =>
    rw [freshNames] at fresh
    split at fresh
    · exact (ih fresh).imp_left (List.mem_cons_of_mem _)
    next new =>
      rcases List.mem_cons.mp fresh with rfl | later
      · exact ⟨List.mem_cons_self, new⟩
      · obtain ⟨listed, free⟩ := ih later
        exact ⟨List.mem_cons_of_mem _ listed, fun old => free (List.mem_append_left _ old)⟩

/-- Leaving out names whose identifiers came up before loses no identifier. -/
theorem mem_taken_or_fresh {taken names : List String} {name : String} (listed : name ∈ names) :
    Ident.normalize name ∈ taken ++ (freshNames taken names).map Ident.normalize := by
  induction names generalizing taken with
  | nil => cases listed
  | cons head rest ih =>
    rw [freshNames]
    split
    next old =>
      rcases List.mem_cons.mp listed with rfl | later
      · exact List.mem_append_left _ old
      · exact ih later
    next new =>
      rcases List.mem_cons.mp listed with rfl | later
      · simp
      · -- the identifier of the head moves from the taken ones to the new ones
        have found : Ident.normalize name ∈ taken ++ [Ident.normalize head]
            ++ (freshNames (taken ++ [Ident.normalize head]) rest).map Ident.normalize := ih later
        simpa using found

theorem freshNames_append (taken names names' : List String) :
    freshNames taken (names ++ names')
      = freshNames taken names
        ++ freshNames (taken ++ (freshNames taken names).map Ident.normalize) names' := by
  induction names generalizing taken with
  | nil => simp [freshNames]
  | cons name rest ih =>
    rw [List.cons_append, freshNames, freshNames]
    split
    · exact ih taken
    · rw [ih]
      simp

theorem freshNames_eq_self {taken names : List String}
    (distinct : (taken ++ names.map Ident.normalize).Nodup) : freshNames taken names = names := by
  induction names generalizing taken with
  | nil => rfl
  | cons name rest ih =>
    have new : Ident.normalize name ∉ taken := by
      intro old
      exact (List.nodup_append.mp distinct).2.2 _ old _ (by simp) rfl
    rw [freshNames, if_neg new, ih (by simpa using distinct)]

/-! ### The turns of properties -/

theorem field?_listedTurns (object : Schema Node) (taken names : List String) :
    (listedTurns object taken names).filterMap Turn.field?
      = (freshNames taken names).map (object, ·) := by
  induction names generalizing taken with
  | nil => rfl
  | cons name rest ih =>
    rw [listedTurns, freshNames]
    split
    · rw [List.filterMap_cons, Turn.field?, ih]
    · rw [List.filterMap_cons, Turn.field?, ih, List.map_cons]

theorem field?_unlisted (names : List String) :
    (names.map Turn.unlisted).filterMap Turn.field? = [] := by
  rw [List.filterMap_map]
  exact List.filterMap_eq_nil_iff.mpr fun _ _ => rfl

theorem field?_objectTurns (taken : List String) (object : Schema Node) :
    (objectTurns taken object).filterMap Turn.field?
      = (freshNames taken object.orderedNames).map (object, ·) := by
  rw [objectTurns, List.filterMap_append, field?_unlisted, field?_listedTurns, List.nil_append]

/-- The properties that have fields are those whose identifiers are new, over all objects. -/
theorem names_turns (taken : List String) (objects : List (Schema Node)) :
    ((turns taken objects).filterMap Turn.field?).map Prod.snd
      = freshNames taken (objects.flatMap Schema.orderedNames) := by
  induction objects generalizing taken with
  | nil => rfl
  | cons object rest ih =>
    rw [turns, List.filterMap_append, List.map_append, ih, field?_objectTurns, List.flatMap_cons,
      freshNames_append]
    simp [Function.comp_def]

/-- A property that has a field is from the first object that lists its identifier. -/
theorem find?_of_mem_turns {taken : List String} {objects : List (Schema Node)}
    {object : Schema Node} {property : String}
    (kept : (object, property) ∈ (turns taken objects).filterMap Turn.field?) :
    objects.find? (·.lists (Ident.normalize property)) = some object := by
  induction objects generalizing taken with
  | nil => cases kept
  | cons first rest ih =>
    rw [turns, List.filterMap_append, field?_objectTurns] at kept
    rcases List.mem_append.mp kept with here | later
    · obtain ⟨name, fresh, same⟩ := List.mem_map.mp here
      cases same
      have lists : object.lists (Ident.normalize property) = true :=
        Schema.lists_of_mem (mem_freshNames fresh).1
      exact List.find?_cons_of_pos (p := (Schema.lists · (Ident.normalize property))) lists
    · -- the identifiers that the first object lists are taken from there on
      have names := List.mem_map_of_mem (f := Prod.snd) later
      rw [names_turns] at names
      have free := (mem_freshNames names).2
      have unlisted : ¬first.lists (Ident.normalize property) = true := by
        intro lists
        obtain ⟨name, listed, same⟩ := List.any_eq_true.mp lists
        apply free
        rw [← beq_iff_eq.mp same]
        exact mem_taken_or_fresh listed
      rw [List.find?_cons_of_neg (p := (Schema.lists · (Ident.normalize property))) unlisted]
      exact ih later

/-! ### Adding fields -/

theorem Run.exists_of_bind {α β : Type} {run : Run α} {next : α → Run β} {value : β}
    (outcome : (run >>= next).outcome = .ok value) :
    ∃ middle, run.outcome = .ok middle ∧ (next middle).outcome = .ok value ∧
      (run >>= next).events = run.events ++ (next middle).events := by
  obtain ⟨events, error | middle⟩ := run
  · cases outcome
  · exact ⟨middle, rfl, outcome, rfl⟩

theorem Run.events_map {α β : Type} (f : α → β) (run : Run α) :
    (f <$> run).events = run.events := by
  obtain ⟨events, error | value⟩ := run
  · rfl
  · exact List.append_nil events

theorem Message.hasField_iff {body : Message Decl} {name : String} :
    body.hasField name = true ↔ Ident.normalize name ∈ body.idents := by
  simp [Message.hasField, Message.idents]

theorem IsFieldOf.mono {declare : Declarer} {object : Schema Node} {body extended : Message Decl}
    {property : String} {field : Field Decl}
    (isField : IsFieldOf declare object body property field) (name : extended.name = body.name)
    (nested : body.nested ⊆ extended.nested) :
    IsFieldOf declare object extended property field := by
  obtain ⟨named, node, type, found, become, link, comment, owned⟩ := isField
  refine ⟨named, node, type, found, ?_, link, comment, fun decl member => nested (owned member)⟩
  rw [name]
  exact become

/-- A message before and after the fields of some turns were added, with what was met. -/
structure Adds (declare : Declarer) (turns : List Turn) (message body : Message Decl)
    (events : List Event) : Prop where
  name : body.name = message.name
  nested : message.nested ⊆ body.nested
  fields : ∃ added, body.fields = message.fields ++ added ∧
    List.Forall₂ (fun entry field => IsFieldOf declare entry.1 body entry.2 field)
      (turns.filterMap Turn.field?) added
  events : events = turns.flatMap (Turn.events declare message.name)

namespace Adds

variable {declare : Declarer} {message middle body : Message Decl}

theorem nothing (message : Message Decl) {turns : List Turn}
    (bare : turns.filterMap Turn.field? = []) :
    Adds declare turns message message (turns.flatMap (Turn.events declare message.name)) where
  name := rfl
  nested := List.Subset.refl _
  fields := ⟨[], (List.append_nil _).symm, bare ▸ .nil⟩
  events := rfl

theorem field {object : Schema Node} {property : String} {node : Node} {type : Decl}
    (found : Entries.get? object.properties property = some node)
    (become : (declare (propertyHint message.name property) node).outcome = .ok type) :
    Adds declare [.kept object property] message
      (message.addField property type node.description)
      (declare (propertyHint message.name property) node).events where
  name := rfl
  nested := List.subset_append_left _ _
  fields := by
    refine ⟨[⟨property, message.nextNumber, type.link, node.description⟩], rfl, .cons ?_ .nil⟩
    exact ⟨rfl, node, type, found, become, rfl, rfl, List.subset_append_right _ _⟩
  events := by simp [Turn.events, found]

theorem append {turns turns' : List Turn} {events events' : List Event}
    (first : Adds declare turns message middle events)
    (later : Adds declare turns' middle body events') :
    Adds declare (turns ++ turns') message body (events ++ events') where
  name := later.name.trans first.name
  nested := fun decl member => later.nested (first.nested member)
  fields := by
    obtain ⟨added, fields, origins⟩ := first.fields
    obtain ⟨added', fields', origins'⟩ := later.fields
    refine ⟨added ++ added', by rw [fields', fields, List.append_assoc], ?_⟩
    rw [List.filterMap_append]
    -- what the first fields own is still there when the later ones have been added
    refine List.rel_append (List.Forall₂.imp ?_ origins) origins'
    intro entry field isField
    exact isField.mono later.name later.nested
  events := by rw [first.events, later.events, first.name, List.flatMap_append]

theorem names {turns : List Turn} {events : List Event}
    (adds : Adds declare turns message body events) :
    body.fields.map Field.name
      = message.fields.map Field.name ++ (turns.filterMap Turn.field?).map Prod.snd := by
  obtain ⟨added, fields, origins⟩ := adds.fields
  have names : added.map Field.name = (turns.filterMap Turn.field?).map Prod.snd := by
    generalize turns.filterMap Turn.field? = entries at origins
    clear fields
    induction origins with
    | nil => rfl
    | cons isField _ ih => rw [List.map_cons, List.map_cons, ih, isField.name]
  rw [fields, List.map_append, names]

theorem idents {turns : List Turn} {events : List Event}
    (adds : Adds declare turns message body events) :
    body.idents = message.idents
      ++ ((turns.filterMap Turn.field?).map Prod.snd).map Ident.normalize := by
  have names := congrArg (List.map Ident.normalize) adds.names
  simpa [Message.idents, Function.comp_def] using names

end Adds

section Levels

variable {declare : Declarer} {message body : Message Decl}

theorem foldlM_addProperty_adds {object : Schema Node} {names : List String}
    (outcome : (names.foldlM (addProperty declare object) message).outcome = .ok body) :
    Adds declare (listedTurns object message.idents names) message body
      (names.foldlM (addProperty declare object) message).events := by
  -- the taken identifiers of the turns are those of the message, so both grow together
  induction names generalizing message with
  | nil =>
    cases outcome
    exact Adds.nothing _ rfl
  | cons name rest ih =>
    rw [List.foldlM_cons] at outcome ⊢
    obtain ⟨extended, step, later, events⟩ := Run.exists_of_bind outcome
    have remaining := ih later
    rw [events, listedTurns]
    cases found : Entries.get? object.properties name with
    | none =>
      rw [addProperty_unknown found] at step
      cases step
    | some node =>
      cases taken : message.hasField name with
      | true =>
        have old : Ident.normalize name ∈ message.idents := Message.hasField_iff.mp taken
        rw [addProperty_taken found taken] at step ⊢
        cases step
        have skipped : Adds declare [.repeated name] message message _ := Adds.nothing message rfl
        rw [if_pos old]
        exact skipped.append remaining
      | false =>
        have new : Ident.normalize name ∉ message.idents := Message.hasField_eq_false.mp taken
        rw [addProperty_new found taken] at step ⊢
        obtain ⟨type, become, same, met⟩ := Run.exists_of_bind step
        cases same
        have field := Adds.field found become
        -- the rest starts from the message with the new field
        rw [field.idents] at remaining
        rw [if_neg new, met]
        have whole := field.append (by simpa [Turn.field?] using remaining)
        simpa using whole

theorem addProperties_adds {object : Schema Node}
    (outcome : (addProperties declare message object).outcome = .ok body) :
    Adds declare (objectTurns message.idents object) message body
      (addProperties declare message object).events := by
  rw [addProperties_eq_after] at outcome ⊢
  have skipped : Adds declare ((unordered object).map .unlisted) message message
      (unlistedWarnings message.name object) := by
    have met : Adds declare _ message message _ :=
      Adds.nothing message (field?_unlisted (unordered object))
    rw [List.flatMap_map] at met
    have same : unlistedWarnings message.name object = (unordered object).flatMap fun property =>
        Turn.events declare message.name (.unlisted property) :=
      (List.flatMap_pure_eq_map _ _).symm
    rwa [same]
  exact skipped.append (foldlM_addProperty_adds outcome)

/-- The fields of an object are those of its properties, in their order. -/
theorem declareObject_fields {hint : String} {schema : Schema Node}
    (outcome : (declareObject declare hint schema).outcome = .ok body) :
    body.name = hint ∧
      List.Forall₂ (IsFieldOf declare schema body) schema.fieldNames body.fields := by
  have adds := addProperties_adds outcome
  obtain ⟨added, fields, origins⟩ := adds.fields
  rw [field?_objectTurns, List.forall₂_map_left_iff] at origins
  rw [fields]
  exact ⟨adds.name, origins⟩

/-- The members of a composition stand for objects, whose properties are added one object after the
other. -/
theorem foldlM_addMember_adds {scope : Scope} {hint : String} {members : List (Node × Nat)}
    (outcome : (members.foldlM (addMember scope declare hint) message).outcome = .ok body) :
    ∃ objects, (members.mapM fun member => memberObject scope.document hint (member.2 + 1)
        (freshPointers scope.document member.1) member.1) = .ok objects ∧
      Adds declare (turns message.idents objects) message body
        (members.foldlM (addMember scope declare hint) message).events := by
  induction members generalizing message with
  | nil =>
    cases outcome
    exact ⟨[], rfl, Adds.nothing _ rfl⟩
  | cons member rest ih =>
    rw [List.foldlM_cons] at outcome ⊢
    obtain ⟨extended, step, later, events⟩ := Run.exists_of_bind outcome
    obtain ⟨objects, stand, remaining⟩ := ih later
    obtain ⟨object, stands, added, met⟩ := Run.exists_of_bind step
    replace stands : memberObject scope.document hint (member.2 + 1)
      (freshPointers scope.document member.1) member.1 = .ok object := stands
    have first := addProperties_adds added
    -- the later objects start with the identifiers that the first one has added
    rw [first.idents, field?_objectTurns, List.map_map] at remaining
    refine ⟨object :: objects, ?_, ?_⟩
    · rw [List.mapM_cons, stands, stand]
      rfl
    · rw [events]
      have whole := first.append (by simpa [Function.comp_def] using remaining)
      rw [addMember, met]
      exact whole

end Levels

/-! ### Objects and compositions -/

theorem Shape.allOf_of_object {schema schema' : Schema Node}
    (shape : Shape.ofSchema schema = .object schema') : schema.allOf = [] := by
  unfold Shape.ofSchema at shape
  split at shape
  · cases shape
  · split at shape
    · cases shape
    next none => exact not_not.mp none

theorem Shape.allOf_of_composition {schema schema' : Schema Node}
    (shape : Shape.ofSchema schema = .composition schema') : schema.allOf ≠ [] := by
  unfold Shape.ofSchema at shape
  split at shape
  · cases shape
  · split at shape
    next some => exact some
    · split at shape <;> cases shape

theorem memberObject_inline (document : Document) (hint : String) (position : Nat)
    (fresh : List String) {schema : Schema Node} (object : schema.type = some .object) :
    memberObject document hint position fresh (.inline schema) = .ok schema := by
  rw [memberObject, if_pos object]

theorem memberObject_ref {document : Document} {reference : Reference} {name : String}
    {target : Location} {schema : Schema Node}
    (bound : reference.binding = some (.here name target))
    (found : document.lookup target = some (.inline schema)) (object : schema.type = some .object)
    (hint : String) (position : Nat) :
    memberObject document hint position (freshPointers document (.ref reference)) (.ref reference)
      = .ok schema := by
  have unpassed : reference.pointer ∈ freshPointers document (.ref reference) := by
    simp [freshPointers]
  rw [memberObject, dif_pos unpassed, bound]
  simp only [found]
  exact memberObject_inline document hint position _ object

/-- Which shapes a kind of declaration or type can come from. -/
def Shape.makes : Shape → Decl → Bool
  | .link _, _ => true
  | .union _, .union _ => true
  | .composition _, .message _ | .object _, .message _ => true
  | .openMap _ _, .map _ _ _ => true
  | .array _, .repeated _ => true
  | .enum _ _, .enum _ => true
  | .scalar _, .named _ => true
  | _, _ => false

theorem declareShape_makes {scope : Scope} {declare : List String → Declarer}
    (following : List String) (hint : String) (node : Node) :
    (declareShape scope declare following hint node).Ensures fun decl =>
      (Shape.of node).makes decl = true := by
  -- all but a reference is made by a constructor at the end of a run
  have made {α : Type} {wrap : α → Decl} {shape : Shape} (run : Run α)
      (makes : ∀ value, shape.makes (wrap value) = true) :
      (wrap <$> run).Ensures fun decl => shape.makes decl = true :=
    Run.Ensures.map (fun _ _ => trivial) fun value (_ : True) => makes value
  unfold declareShape
  cases Shape.of node with
  | link reference => exact fun _ _ => rfl
  | union schema => exact made _ fun _ => rfl
  | composition schema => exact made _ fun _ => rfl
  | object schema => exact made _ fun _ => rfl
  | openMap schema additional =>
    dsimp only
    by_cases object : schema.type = some .object
    · cases additional with
      | flag value =>
        rw [declareOpenMap_flag object]
        exact Run.ensures_fail _
      | node child =>
        rw [declareOpenMap_node object]
        exact made _ fun _ => rfl
    · rw [declareOpenMap_other object]
      exact Run.ensures_fail _
  | array schema =>
    dsimp only
    unfold declareArray
    split
    · exact Run.ensures_fail _
    next items _ =>
      have list : ((fun item : Decl => Decl.repeated (item.boxed (elementHint hint) none))
          <$> declare following (elementHint hint) items).Ensures fun decl =>
            (Shape.array schema).makes decl = true := made _ fun _ => rfl
      exact list
  | enum schema values =>
    dsimp only
    unfold declareEnum
    split
    · exact Run.ensures_fail _
    · split
      · exact Run.ensures_fail _
      · exact Run.ensures_fail _
      · exact Run.ensures_ok rfl
  | scalar schema =>
    dsimp only
    split
    · exact Run.ensures_ok rfl
    · exact Run.ensures_fail _

/-- Among schemas, only objects and compositions become messages, and the fields of these are those
of the objects that they take in. -/
theorem declareShape_message {scope : Scope} {declare : List String → Declarer}
    {following : List String} {hint : String} {schema : Schema Node} {body : Message Decl}
    (outcome : (declareShape scope declare following hint (.inline schema)).outcome
      = .ok (.message body)) :
    ∃ objects, scope.document.sources hint schema = .ok objects ∧
      Adds (declare following) (turns [] objects) ⟨hint, [], [], schema.description⟩ body
        (declareShape scope declare following hint (.inline schema)).events := by
  have makes := declareShape_makes following hint (.inline schema) _ outcome
  have self := Shape.alike_self schema
  simp only [declareShape, Shape.of] at outcome makes ⊢
  generalize shape : Shape.ofSchema schema = kind at self outcome makes ⊢
  cases self with
  | object =>
    obtain ⟨_, declared, same⟩ := Run.outcome_bind_eq_ok.mp outcome
    cases same
    refine ⟨[schema], by rw [Document.sources, if_pos (Shape.allOf_of_object shape)], ?_⟩
    rw [Run.events_map, turns, turns, List.append_nil]
    exact addProperties_adds declared
  | composition =>
    obtain ⟨_, declared, same⟩ := Run.outcome_bind_eq_ok.mp outcome
    cases same
    obtain ⟨objects, stand, adds⟩ := foldlM_addMember_adds declared
    refine ⟨objects, ?_, ?_⟩
    · rw [Document.sources, if_neg (Shape.allOf_of_composition shape)]
      exact stand
    · rw [Run.events_map]
      exact adds
  | union | openMap | array | enum | scalar =>
    -- none of these makes a message
    cases makes

/-! ### The fields of a message -/

theorem Schema.length_orderedNames {schema : Schema Node} (unordered : schema.order = []) :
    schema.orderedNames.length = schema.properties.length := by
  rw [orderedNames, unordered, List.isEmpty_nil, if_pos rfl, (sortedNames_perm _).length_eq,
    Entries.keys, List.length_map]

theorem length_flatMap_orderedNames {objects : List (Schema Node)}
    (unordered : ∀ object ∈ objects, object.order = []) :
    (objects.flatMap Schema.orderedNames).length
      = (objects.map fun object => object.properties.length).foldr (· + ·) 0 := by
  induction objects with
  | nil => rfl
  | cons object rest ih =>
    have here := Schema.length_orderedNames (unordered object List.mem_cons_self)
    have later := ih fun other member => unordered other (List.mem_cons_of_mem _ member)
    rw [List.flatMap_cons, List.length_append, here, later]
    rfl

/-- A message has a field of an identifier if and only if one of its objects lists it. -/
theorem Adds.hasField_iff {declare : Declarer} {objects : List (Schema Node)} {hint : String}
    {comment : Option String} {body : Message Decl} {events : List Event}
    (adds : Adds declare (turns [] objects) ⟨hint, [], [], comment⟩ body events) {name : String} :
    body.hasField name = true ↔ ∃ object ∈ objects, object.lists (Ident.normalize name) = true := by
  have idents : body.idents
      = (freshNames [] (objects.flatMap Schema.orderedNames)).map Ident.normalize := by
    rw [adds.idents, names_turns]
    rfl
  rw [Message.hasField_iff, idents]
  constructor
  · intro listed
    obtain ⟨other, fresh, same⟩ := List.mem_map.mp listed
    obtain ⟨object, member, inside⟩ := List.mem_flatMap.mp (mem_freshNames fresh).1
    exact ⟨object, member, List.any_eq_true.mpr ⟨other, inside, beq_iff_eq.mpr same⟩⟩
  · rintro ⟨object, member, lists⟩
    obtain ⟨other, inside, same⟩ := List.any_eq_true.mp lists
    rw [← beq_iff_eq.mp same]
    have listed : other ∈ objects.flatMap Schema.orderedNames :=
      List.mem_flatMap.mpr ⟨object, member, inside⟩
    -- nothing is taken at the start, so what came up first has a field
    have found : Ident.normalize other ∈ [] ++ _ := mem_taken_or_fresh listed
    exact found

/-- Take a schema that becomes a message, and the objects that it takes in. The names of the fields
are all names that these objects list, in order, without those whose identifier came up before. A
field is that of a property of the first object that lists its identifier: it links to what the
property's node becomes, and has the node's description. What is met on the way is read off the
turns: one warning for each name that is left out and for each property that a given order does not
name, and at all other turns what declaring the property meets. -/
theorem Scope.fields_selected (scope : Scope) (steps : Nat) (following : List String)
    (hint : String) (schema : Schema Node) (body : Message Decl)
    (declared : (declareWithin scope (steps + 1) following hint (.inline schema)).outcome
      = .ok (.message body)) :
    ∃ objects, scope.document.sources hint schema = .ok objects ∧
      body.fields.map Field.name = freshNames [] (objects.flatMap Schema.orderedNames) ∧
      (∀ field ∈ body.fields, ∃ object node type,
        objects.find? (·.lists (Ident.normalize field.name)) = some object ∧
        Entries.get? object.properties field.name = some node ∧
        (declareWithin scope steps following (propertyHint hint field.name) node).outcome
          = .ok type ∧
        field.type = type.link ∧ type.owned ⊆ body.nested ∧ field.comment = node.description) ∧
      (declareWithin scope (steps + 1) following hint (.inline schema)).events
        = (turns [] objects).flatMap (Turn.events (declareWithin scope steps following) hint) ∧
      (((objects.flatMap Schema.orderedNames).map Ident.normalize).Nodup →
        (∀ object ∈ objects, object.order = []) →
        body.fields.length
          = (objects.map fun object => object.properties.length).foldr (· + ·) 0) := by
  obtain ⟨objects, sources, adds⟩ := declareShape_message declared
  have names : body.fields.map Field.name
      = freshNames [] (objects.flatMap Schema.orderedNames) := by
    rw [adds.names, names_turns, List.map_nil, List.nil_append]
  refine ⟨objects, sources, names, ?_, adds.events, ?_⟩
  · intro field member
    obtain ⟨added, fields, origins⟩ := adds.fields
    rw [fields, List.nil_append] at member
    obtain ⟨⟨object, property⟩, kept, isField⟩ := exists_of_mem_right origins member
    obtain ⟨rfl, node, type, found, become, link, comment, owned⟩ := isField
    have hinted : body.name = hint := adds.name
    rw [hinted] at become
    exact ⟨object, node, type, find?_of_mem_turns kept, found, become, link, owned, comment⟩
  · intro distinct unordered
    have all : freshNames [] (objects.flatMap Schema.orderedNames)
        = objects.flatMap Schema.orderedNames := freshNames_eq_self distinct
    rw [← length_flatMap_orderedNames unordered, ← all, ← names, List.length_map]

/-- An object with a property that its order leaves out. -/
def registration : Schema Node where
  type := some .object
  order := ["id", "name"]
  properties := [
    ("name", .inline { type := some .string, description := some "as registered" }),
    ("chip", .inline { type := some .integer }),
    ("id", .inline { type := some .integer })]

/-- A member next to it that has one of its names, and one identifier in two spellings. -/
def nickname : Schema Node where
  type := some .object
  order := ["name", "short-name", "short_name"]
  properties := [
    ("name", .inline { type := some .boolean }),
    ("short-name", .inline { type := some .string }),
    ("short_name", .inline { type := some .integer })]

def registeredPet : Schema Node where
  allOf := [
    .ref {
      pointer := "#/components/schemas/Registration"
      binding := some (.here "Registration" ⟨"Registration", []⟩) },
    .inline nickname]

def petRegister : Document where
  schemas := [("Pet", .inline registeredPet), ("Registration", .inline registration)]

def registeredPetMessage : Message Decl where
  name := "Pet"
  fields := [
    ⟨"id", 1, .named "int32", none⟩,
    ⟨"name", 2, .named "string", some "as registered"⟩,
    ⟨"short-name", 3, .named "string", none⟩]

theorem petRegister_sources :
    petRegister.sources "Pet" registeredPet = .ok [registration, nickname] := by
  simp only [Document.sources, registeredPet, List.zipIdx_cons, List.zipIdx_nil, List.mapM_cons,
    List.mapM_nil]
  rw [if_neg (List.cons_ne_nil _ _), memberObject_ref rfl rfl rfl, memberObject_inline _ _ _ _ rfl]
  rfl

theorem registeredPet_declared :
    (declareWithin ⟨petRegister, {}⟩ 2 [] "Pet" (.inline registeredPet)).outcome
      = .ok (.message registeredPetMessage) := by
  change (Decl.message <$> declareComposition _ _ "Pet" registeredPet).outcome = _
  simp only [declareComposition, registeredPet, List.zipIdx_cons, List.zipIdx_nil,
    List.foldlM_cons, List.foldlM_nil, addMember]
  rw [memberObject_ref rfl rfl rfl, memberObject_inline _ _ _ _ rfl]
  rfl

theorem Scope.fields_selected_petRegister :
    (declareWithin ⟨petRegister, {}⟩ 2 [] "Pet" (.inline registeredPet)).outcome
      = .ok (.message registeredPetMessage) ∧
    ["id", "name", "short-name"]
      = freshNames [] ["id", "name", "name", "short-name", "short_name"] ∧
    (declareWithin ⟨petRegister, {}⟩ 2 [] "Pet" (.inline registeredPet)).events = [
      .warned "Pet: `chip` is not in x-properties-order, skipped",
      .warned "Pet: duplicate field `name`, keeping the first",
      .warned "Pet: duplicate field `short_name`, keeping the first"] := by
  obtain ⟨objects, sources, names, _, events, _⟩ :=
    fields_selected ⟨petRegister, {}⟩ 1 [] "Pet" registeredPet _ registeredPet_declared
  obtain rfl := Except.ok.inj (petRegister_sources.symm.trans sources)
  exact ⟨registeredPet_declared, names, events⟩

end Protoschema
