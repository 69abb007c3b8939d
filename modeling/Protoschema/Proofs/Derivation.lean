import Protoschema.Proofs.Unguarded
/-!
Declaring as a system of rules. A judgment says that a node, or what is added to a message one after
the other, is declared by a run; it is derived by finitely many rules, and no rule asks which
references have been followed before. `derives_iff` compares the rules with `declareFreely`.
-/

namespace Protoschema

variable {α β : Type}

/-- A run with events in front. -/
def Run.after (events : List Event) (run : Run α) : Run α :=
  ⟨events ++ run.events, run.outcome⟩

/-- What a member of a composition stands for: the object, or why there is none. References are
followed to where they lead. -/
inductive StandsFor (document : Document) (hint : String) (position : Nat) :
    Node → Except SchemaError (Schema Node) → Prop
  | object {schema : Schema Node} : schema.type = some .object →
      StandsFor document hint position (.inline schema) (.ok schema)
  | other {schema : Schema Node} : schema.type ≠ some .object →
      StandsFor document hint position (.inline schema)
        (.error (.invalidMember hint position
          ("is " ++ schema.typeName "untyped" ++ ", not an object")))
  | followed {reference : Reference} {name : String} {target : Location} {node : Node}
      {outcome : Except SchemaError (Schema Node)} :
      reference.binding = some (.here name target) → document.lookup target = some node →
      StandsFor document hint position node outcome →
      StandsFor document hint position (.ref reference) outcome
  | lost {reference : Reference} {name : String} {target : Location} :
      reference.binding = some (.here name target) → document.lookup target = none →
      StandsFor document hint position (.ref reference)
        (.error (.unresolvedReference hint reference.pointer))
  | elsewhere {reference : Reference} {package name path : String} :
      reference.binding = some (.elsewhere package name path) →
      StandsFor document hint position (.ref reference)
        (.error (.invalidMember hint position
          ("`" ++ reference.pointer ++ "` lives in another document")))
  | unbound {reference : Reference} : reference.binding = none →
      StandsFor document hint position (.ref reference)
        (.error (.unresolvedReference hint reference.pointer))

/-- What the rules derive. -/
inductive Judgment
  /-- A node is declared under a hint. -/
  | declares (hint : String) (node : Node) (run : Run Decl)
  /-- The fields of an object's properties are added to a message. -/
  | addsProperties (schema : Schema Node) (names : List String) (message : Message Decl)
      (run : Run (Message Decl))
  /-- The fields of a composition's members are added to a message. -/
  | addsMembers (hint : String) (members : List (Node × Nat)) (message : Message Decl)
      (run : Run (Message Decl))
  /-- The fields of a union's alternatives are added to a message. -/
  | addsAlternatives (hint : String) (alternatives : List Node) (message : Message Decl)
      (run : Run (Message Decl))

/-- The warnings about properties that a given order does not name. -/
def unlistedWarnings (name : String) (schema : Schema Node) : List Event :=
  (unordered schema).map fun property =>
    .warned (name ++ ": `" ++ property ++ "` is not in x-properties-order, skipped")

/-- The warning about properties next to further ones. -/
def ignoredWarnings (hint : String) (schema : Schema Node) : List Event :=
  if schema.properties = [] then []
  else [.warned (hint ++ ": properties next to additionalProperties are ignored")]

/-- The field of an alternative, named after its type. -/
def alternativeField (type : Decl) : String :=
  Ident.unqualified (type.boxed alternativeHint none).name ++ "Value"

/-- The rules of declaring. -/
inductive Derives (scope : Scope) : Judgment → Prop
  -- references
  | imported {hint : String} {reference : Reference} {package name path : String} :
      reference.binding = some (.elsewhere package name path) →
      Derives scope (.declares hint (.ref reference) ⟨[.imported package path],
        .ok (.named (scope.options.packageName package ++ "." ++ Ident.normalize name))⟩)
  | linked {hint : String} {reference : Reference} {name : String} {target : Location}
      {node : Node} :
      reference.binding = some (.here name target) → scope.document.lookup target = some node →
      (Shape.of node).declares = true →
      Derives scope (.declares hint (.ref reference) ⟨[.linked name target], .ok (.named name)⟩)
  | followed {hint : String} {reference : Reference} {name : String} {target : Location}
      {node : Node} {run : Run Decl} :
      reference.binding = some (.here name target) → scope.document.lookup target = some node →
      (Shape.of node).declares = false → Derives scope (.declares hint node run) →
      Derives scope (.declares hint (.ref reference) run)
  | lost {hint : String} {reference : Reference} {name : String} {target : Location} :
      reference.binding = some (.here name target) → scope.document.lookup target = none →
      Derives scope (.declares hint (.ref reference) (guess reference))
  | unbound {hint : String} {reference : Reference} : reference.binding = none →
      Derives scope (.declares hint (.ref reference) (guess reference))
  -- schemas, by their shapes
  | union {hint : String} {schema : Schema Node} {run : Run (Message Decl)} :
      Shape.ofSchema schema = .union schema →
      Derives scope (.addsAlternatives hint schema.oneOf ⟨hint, [], [], schema.description⟩ run) →
      Derives scope (.declares hint (.inline schema) (.union <$> run))
  | composition {hint : String} {schema : Schema Node} {run : Run (Message Decl)} :
      Shape.ofSchema schema = .composition schema →
      Derives scope (.addsMembers hint schema.allOf.zipIdx ⟨hint, [], [], schema.description⟩ run) →
      Derives scope (.declares hint (.inline schema) (.message <$> run))
  | object {hint : String} {schema : Schema Node} {run : Run (Message Decl)} :
      Shape.ofSchema schema = .object schema →
      Derives scope
        (.addsProperties schema schema.orderedNames ⟨hint, [], [], schema.description⟩ run) →
      Derives scope
        (.declares hint (.inline schema) (.message <$> run.after (unlistedWarnings hint schema)))
  | array {hint : String} {schema : Schema Node} {items : Node} {run : Run Decl} :
      Shape.ofSchema schema = .array schema → schema.items = some items →
      Derives scope (.declares (elementHint hint) items run) →
      Derives scope (.declares hint (.inline schema)
        ((fun item => .repeated (item.boxed (elementHint hint) none)) <$> run))
  | itemless {hint : String} {schema : Schema Node} :
      Shape.ofSchema schema = .array schema → schema.items = none →
      Derives scope (.declares hint (.inline schema) (Run.fail (.missingItems hint)))
  | openMap {hint : String} {schema : Schema Node} {node : Node} {run : Run Decl} :
      Shape.ofSchema schema = .openMap schema (.node node) → schema.type = some .object →
      Derives scope (.declares (elementHint hint) node run) →
      Derives scope (.declares hint (.inline schema)
        ((fun value => .map hint "string" (value.boxed (elementHint hint) none))
          <$> run.after (ignoredWarnings hint schema)))
  | openMapOfFlag {hint : String} {schema : Schema Node} {value : Bool} :
      Shape.ofSchema schema = .openMap schema (.flag value) → schema.type = some .object →
      Derives scope (.declares hint (.inline schema) (Run.fail (.invalidOpenMap hint
        ("`" ++ (if value then "true" else "false") ++ "` carries no value schema"))))
  | openMapOfOther {hint : String} {schema : Schema Node} {additional : Additional Node} :
      Shape.ofSchema schema = .openMap schema additional → schema.type ≠ some .object →
      Derives scope (.declares hint (.inline schema) (Run.fail (.invalidOpenMap hint
        ("schema must be an object, found " ++ schema.typeName "no type"))))
  | enum {hint : String} {schema : Schema Node} {values : List Json.Value} :
      Shape.ofSchema schema = .enum schema values →
      Derives scope (.declares hint (.inline schema) (declareEnum scope.options hint schema values))
  | scalar {hint : String} {schema : Schema Node} {name : String} :
      Shape.ofSchema schema = .scalar schema → schema.scalar? = some name →
      Derives scope (.declares hint (.inline schema) (pure (.named name)))
  | untyped {hint : String} {schema : Schema Node} :
      Shape.ofSchema schema = .scalar schema → schema.scalar? = none →
      Derives scope (.declares hint (.inline schema) (Run.fail (.untypedSchema hint)))
  -- the properties of an object
  | noProperty {schema : Schema Node} {message : Message Decl} :
      Derives scope (.addsProperties schema [] message (pure message))
  | property {schema : Schema Node} {name : String} {rest : List String} {message : Message Decl}
      {node : Node} {events : List Event} {type : Decl} {run : Run (Message Decl)} :
      Entries.get? schema.properties name = some node → message.hasField name = false →
      Derives scope (.declares (propertyHint message.name name) node ⟨events, .ok type⟩) →
      Derives scope
        (.addsProperties schema rest (message.addField name type node.description) run) →
      Derives scope (.addsProperties schema (name :: rest) message (run.after events))
  | propertyFails {schema : Schema Node} {name : String} {rest : List String}
      {message : Message Decl} {node : Node} {events : List Event} {error : SchemaError} :
      Entries.get? schema.properties name = some node → message.hasField name = false →
      Derives scope (.declares (propertyHint message.name name) node ⟨events, .error error⟩) →
      Derives scope (.addsProperties schema (name :: rest) message ⟨events, .error error⟩)
  | propertyTaken {schema : Schema Node} {name : String} {rest : List String}
      {message : Message Decl} {node : Node} {run : Run (Message Decl)} :
      Entries.get? schema.properties name = some node → message.hasField name = true →
      Derives scope (.addsProperties schema rest message run) →
      Derives scope (.addsProperties schema (name :: rest) message (run.after
        [.warned (message.name ++ ": duplicate field `" ++ name ++ "`, keeping the first")]))
  | propertyUnknown {schema : Schema Node} {name : String} {rest : List String}
      {message : Message Decl} : Entries.get? schema.properties name = none →
      Derives scope (.addsProperties schema (name :: rest) message
        (Run.fail (.unknownOrderedProperty message.name name)))
  -- the members of a composition
  | noMember {hint : String} {message : Message Decl} :
      Derives scope (.addsMembers hint [] message (pure message))
  | member {hint : String} {node : Node} {position : Nat} {rest : List (Node × Nat)}
      {message extended : Message Decl} {object : Schema Node} {events : List Event}
      {run : Run (Message Decl)} :
      StandsFor scope.document hint (position + 1) node (.ok object) →
      Derives scope (.addsProperties object object.orderedNames message ⟨events, .ok extended⟩) →
      Derives scope (.addsMembers hint rest extended run) →
      Derives scope (.addsMembers hint ((node, position) :: rest) message
        (run.after (unlistedWarnings message.name object ++ events)))
  | memberFails {hint : String} {node : Node} {position : Nat} {rest : List (Node × Nat)}
      {message : Message Decl} {object : Schema Node} {events : List Event} {error : SchemaError} :
      StandsFor scope.document hint (position + 1) node (.ok object) →
      Derives scope (.addsProperties object object.orderedNames message ⟨events, .error error⟩) →
      Derives scope (.addsMembers hint ((node, position) :: rest) message
        ⟨unlistedWarnings message.name object ++ events, .error error⟩)
  | memberInvalid {hint : String} {node : Node} {position : Nat} {rest : List (Node × Nat)}
      {message : Message Decl} {error : SchemaError} :
      StandsFor scope.document hint (position + 1) node (.error error) →
      Derives scope (.addsMembers hint ((node, position) :: rest) message (Run.fail error))
  -- the alternatives of a union
  | noAlternative {hint : String} {message : Message Decl} :
      Derives scope (.addsAlternatives hint [] message (pure message))
  | alternative {hint : String} {node : Node} {rest : List Node} {message : Message Decl}
      {events : List Event} {type : Decl} {run : Run (Message Decl)} :
      Derives scope (.declares alternativeHint node ⟨events, .ok type⟩) →
      message.hasField (alternativeField type) = false →
      Derives scope (.addsAlternatives hint rest (message.addField (alternativeField type)
        (type.boxed alternativeHint none) node.description) run) →
      Derives scope (.addsAlternatives hint (node :: rest) message (run.after events))
  | alternativeFails {hint : String} {node : Node} {rest : List Node} {message : Message Decl}
      {events : List Event} {error : SchemaError} :
      Derives scope (.declares alternativeHint node ⟨events, .error error⟩) →
      Derives scope (.addsAlternatives hint (node :: rest) message ⟨events, .error error⟩)
  | alternativeTaken {hint : String} {node : Node} {rest : List Node} {message : Message Decl}
      {events : List Event} {type : Decl} :
      Derives scope (.declares alternativeHint node ⟨events, .ok type⟩) →
      message.hasField (alternativeField type) = true →
      Derives scope (.addsAlternatives hint (node :: rest) message
        ⟨events, .error (.duplicateAlternative hint (alternativeField type))⟩)

/-! ### What the functions do, case by case -/

section Steps

variable {declare : Declarer} {schema : Schema Node} {message : Message Decl} {name : String}
  {node : Node}

theorem addProperty_unknown (missing : Entries.get? schema.properties name = none) :
    addProperty declare schema message name
      = Run.fail (.unknownOrderedProperty message.name name) := by
  simp [addProperty, missing]

theorem addProperty_taken (found : Entries.get? schema.properties name = some node)
    (taken : message.hasField name = true) :
    addProperty declare schema message name = ⟨[.warned
      (message.name ++ ": duplicate field `" ++ name ++ "`, keeping the first")], .ok message⟩ := by
  simp only [addProperty, found, taken]
  rfl

theorem addProperty_new (found : Entries.get? schema.properties name = some node)
    (free : message.hasField name = false) :
    addProperty declare schema message name = declare (propertyHint message.name name) node >>=
      fun type => pure (message.addField name type node.description) := by
  simp only [addProperty, found, free]
  rfl

theorem addProperties_eq_after :
    addProperties declare message schema
      = (schema.orderedNames.foldlM (addProperty declare schema) message).after
          (unlistedWarnings message.name schema) := by
  simp only [addProperties, Run.forM_note, Run.bind_ok]
  rfl

theorem addAlternative_eq (hint : String) :
    addAlternative declare hint message node = declare alternativeHint node >>= fun type =>
      if message.hasField (alternativeField type) then
        Run.fail (.duplicateAlternative hint (alternativeField type))
      else pure (message.addField (alternativeField type) (type.boxed alternativeHint none)
        node.description) :=
  rfl

theorem declareOpenMap_other {hint : String} {additional : Additional Node}
    (other : schema.type ≠ some .object) :
    declareOpenMap declare hint schema additional = Run.fail (.invalidOpenMap hint
      ("schema must be an object, found " ++ schema.typeName "no type")) := by
  unfold declareOpenMap
  rw [if_pos other]

theorem declareOpenMap_flag {hint : String} {value : Bool} (object : schema.type = some .object) :
    declareOpenMap declare hint schema (.flag value) = Run.fail (.invalidOpenMap hint
      ("`" ++ (if value then "true" else "false") ++ "` carries no value schema")) := by
  unfold declareOpenMap
  rw [if_neg (not_not.mpr object)]

theorem declareOpenMap_node {hint : String} (object : schema.type = some .object) :
    declareOpenMap declare hint schema (.node node)
      = (fun value => Decl.map hint "string" (value.boxed (elementHint hint) none))
          <$> (declare (elementHint hint) node).after (ignoredWarnings hint schema) := by
  unfold declareOpenMap ignoredWarnings
  rw [if_neg (not_not.mpr object)]
  dsimp only
  by_cases bare : schema.properties = []
  · rw [if_neg (not_not.mpr bare), if_pos bare]
    rfl
  · rw [if_pos bare, if_neg bare]
    generalize declare (elementHint hint) node = run
    obtain ⟨events, error | value⟩ := run <;> rfl

end Steps

/-- Going on from a value, and then again. -/
theorem Run.ok_bind_bind {γ : Type} (events : List Event) (value : α) (next : α → Run β)
    (later : β → Run γ) :
    (⟨events, .ok value⟩ >>= next >>= later) = (next value >>= later).after events := by
  rw [bind_ok]
  generalize next value = run
  obtain ⟨others, error | middle⟩ := run
  · rfl
  · simp only [bind_ok, after, List.append_assoc]

theorem Run.after_bind (events : List Event) (run : Run α) (next : α → Run β) :
    (run.after events >>= next) = (run >>= next).after events := by
  obtain ⟨others, error | value⟩ := run
  · rfl
  · simp only [bind_ok, after, List.append_assoc]

theorem Run.finishes_after {events : List Event} {run : Run α} :
    (run.after events).Finishes ↔ run.Finishes :=
  Iff.rfl

theorem Run.finishes_map {f : α → β} {run : Run α} : (f <$> run).Finishes ↔ run.Finishes := by
  obtain ⟨events, error | value⟩ := run
  · exact (finishes_error _ _).trans (finishes_error _ _).symm
  · exact iff_of_true (finishes_ok _ _) (finishes_ok _ _)

theorem finishes_declareEnum (options : Options) (hint : String) (schema : Schema Node)
    (values : List Json.Value) : (declareEnum options hint schema values).Finishes := by
  unfold declareEnum
  split
  · exact (Run.finishes_error _ _).mpr rfl
  · split
    · exact (Run.finishes_error _ _).mpr rfl
    · exact (Run.finishes_error _ _).mpr rfl
    · exact Run.finishes_ok _ _

/-! ### From functions to rules -/

/-- What a guarded member stands for, unless a pointer comes up twice. -/
theorem standsFor_memberObject {document : Document} {hint : String} {position : Nat}
    {fresh : List String} {node : Node}
    (finishes : (Run.ofExcept (memberObject document hint position fresh node)).Finishes) :
    StandsFor document hint position node (memberObject document hint position fresh node) := by
  fun_induction memberObject document hint position fresh node with
  | case1 fresh schema object => exact .object object
  | case2 fresh schema other => exact .other other
  | case3 fresh reference unpassed name target bound next found induction =>
    exact .followed bound found (induction finishes)
  | case4 fresh reference unpassed name target bound missing => exact .lost bound missing
  | case5 fresh reference unpassed package name path bound => exact .elsewhere bound
  | case6 fresh reference unpassed unbound => exact .unbound unbound
  | case7 fresh reference passed => cases (Run.finishes_error _ _).mp finishes

section Sound

variable {scope : Scope} {declare : Declarer}
  (below : ∀ hint node, (declare hint node).Finishes →
    Derives scope (.declares hint node (declare hint node)))

include below

theorem derives_properties (schema : Schema Node) (names : List String) (message : Message Decl)
    (finishes : (names.foldlM (addProperty declare schema) message).Finishes) :
    Derives scope (.addsProperties schema names message
      (names.foldlM (addProperty declare schema) message)) := by
  induction names generalizing message with
  | nil => exact .noProperty
  | cons name rest induction =>
    rw [List.foldlM_cons] at finishes ⊢
    cases found : Entries.get? schema.properties name with
    | none =>
      rw [addProperty_unknown found]
      exact .propertyUnknown found
    | some node =>
      cases taken : message.hasField name with
      | true =>
        rw [addProperty_taken found taken] at finishes ⊢
        exact .propertyTaken found taken (induction message finishes)
      | false =>
        rw [addProperty_new found taken] at finishes ⊢
        have declared := below _ node finishes.of_bind.of_bind
        generalize declare (propertyHint message.name name) node = run at finishes declared ⊢
        obtain ⟨events, error | type⟩ := run
        · exact .propertyFails found taken declared
        · rw [Run.ok_bind_bind] at finishes ⊢
          exact .property found taken declared (induction _ finishes)

theorem derives_alternatives (hint : String) (alternatives : List Node) (message : Message Decl)
    (finishes : (alternatives.foldlM (addAlternative declare hint) message).Finishes) :
    Derives scope (.addsAlternatives hint alternatives message
      (alternatives.foldlM (addAlternative declare hint) message)) := by
  induction alternatives generalizing message with
  | nil => exact .noAlternative
  | cons node rest induction =>
    rw [List.foldlM_cons, addAlternative_eq] at finishes ⊢
    -- a run that finishes goes on from one that has finished
    have declared := below _ node finishes.of_bind.of_bind
    generalize declare alternativeHint node = run at finishes declared ⊢
    obtain ⟨events, error | type⟩ := run
    · exact .alternativeFails declared
    · rw [Run.ok_bind_bind] at finishes ⊢
      cases taken : message.hasField (alternativeField type) with
      | true =>
        change Derives scope (.addsAlternatives hint (node :: rest) message ⟨events ++ [], _⟩)
        rw [List.append_nil]
        exact .alternativeTaken declared taken
      | false =>
        simp only [taken] at finishes ⊢
        exact .alternative declared taken (induction _ finishes)

theorem derives_members (hint : String) (members : List (Node × Nat)) (message : Message Decl)
    (finishes : (members.foldlM (addMember scope declare hint) message).Finishes) :
    Derives scope (.addsMembers hint members message
      (members.foldlM (addMember scope declare hint) message)) := by
  induction members generalizing message with
  | nil => exact .noMember
  | cons member rest induction =>
    obtain ⟨node, position⟩ := member
    rw [List.foldlM_cons, addMember] at finishes ⊢
    have stands := standsFor_memberObject finishes.of_bind.of_bind
    generalize memberObject _ _ _ _ _ = outcome at finishes stands ⊢
    cases outcome with
    | error error => exact .memberInvalid stands
    | ok object =>
      rw [Run.ofExcept, Run.ok_bind_bind, addProperties_eq_after, Run.after_bind] at finishes ⊢
      have added := derives_properties below object object.orderedNames message finishes.of_bind
      generalize object.orderedNames.foldlM (addProperty declare object) message = run
        at finishes added ⊢
      obtain ⟨events, error | extended⟩ := run
      · exact .memberFails stands added
      · have whole := Derives.member stands added (induction extended finishes.next)
        simpa only [Run.after, Run.bind_ok, List.nil_append, List.append_assoc] using whole

theorem derives_declareReference (hint : String) (reference : Reference)
    (finishes : (declareReference scope (fun _ => declare) [] hint reference).Finishes) :
    Derives scope (.declares hint (.ref reference)
      (declareReference scope (fun _ => declare) [] hint reference)) := by
  unfold declareReference at finishes ⊢
  cases bound : reference.binding with
  | none => exact .unbound bound
  | some binding =>
    cases binding with
    | elsewhere package name path => exact .imported bound
    | here name target =>
      simp only [bound] at finishes ⊢
      cases found : scope.document.lookup target with
      | none => exact .lost bound found
      | some node =>
        simp only [found, List.not_mem_nil, if_false] at finishes ⊢
        cases declares : (Shape.of node).declares with
        | true => exact .linked bound found declares
        | false =>
          simp only [declares] at finishes ⊢
          exact .followed bound found declares (below hint node finishes)

/-- One level of declaring without a guard follows the rules if the level below does. -/
theorem derives_declareShape (hint : String) (node : Node)
    (finishes : (declareShape scope (fun _ => declare) [] hint node).Finishes) :
    Derives scope (.declares hint node (declareShape scope (fun _ => declare) [] hint node)) := by
  cases node with
  | ref reference => exact derives_declareReference below hint reference finishes
  | inline schema =>
    have alike := Shape.alike_self schema
    simp only [declareShape, Shape.of] at finishes ⊢
    generalize shape : Shape.ofSchema schema = kind at alike finishes ⊢
    cases alike with
    | union =>
      exact .union shape (derives_alternatives below hint _ _ (Run.finishes_map.mp finishes))
    | composition =>
      exact .composition shape (derives_members below hint _ _ (Run.finishes_map.mp finishes))
    | openMap parts =>
      dsimp only at finishes ⊢
      by_cases object : schema.type = some .object
      · cases parts with
        | flag value =>
          rw [declareOpenMap_flag object]
          exact .openMapOfFlag shape object
        | node same =>
          rw [declareOpenMap_node object] at finishes ⊢
          have value := Run.finishes_after.mp (Run.finishes_map.mp finishes)
          exact .openMap shape object (below _ _ value)
      · rw [declareOpenMap_other object]
        exact .openMapOfOther shape object
    | object =>
      dsimp only [declareObject] at finishes ⊢
      rw [addProperties_eq_after] at finishes ⊢
      have added := Run.finishes_after.mp (Run.finishes_map.mp finishes)
      exact .object shape (derives_properties below schema _ _ added)
    | array =>
      dsimp only at finishes ⊢
      unfold declareArray at finishes ⊢
      cases found : schema.items with
      | none => exact .itemless shape found
      | some items =>
        simp only [found] at finishes ⊢
        exact .array shape found (below _ items finishes.of_bind)
    | enum values => exact .enum shape
    | scalar =>
      dsimp only
      cases found : schema.scalar? with
      | none => exact .untyped shape found
      | some name => exact .scalar shape found

omit below in
theorem derives_declareFreely (steps : Nat) (hint : String) (node : Node)
    (finishes : (declareFreely scope steps hint node).Finishes) :
    Derives scope (.declares hint node (declareFreely scope steps hint node)) := by
  induction steps generalizing hint node with
  | zero => exact absurd finishes (not_finishes_zero hint node)
  | succ steps induction => exact derives_declareShape induction hint node finishes

end Sound

/-! ### From rules to functions -/

namespace Judgment

/-- A judgment as the functions have it within some steps. -/
def HoldsWithin (scope : Scope) (steps : Nat) : Judgment → Prop
  | .declares hint node run => declareFreely scope steps hint node = run ∧ run.Finishes
  | .addsProperties schema names message run =>
    names.foldlM (addProperty (declareFreely scope steps) schema) message = run ∧ run.Finishes
  | .addsMembers hint members message run =>
    members.foldlM (addMember scope (declareFreely scope steps) hint) message = run ∧ run.Finishes
  | .addsAlternatives hint alternatives message run =>
    alternatives.foldlM (addAlternative (declareFreely scope steps) hint) message = run ∧
      run.Finishes

/-- The nodes that a judgment is about have a property. -/
def Within (within : Node → Prop) : Judgment → Prop
  | .declares _ node _ => within node
  | .addsProperties schema _ _ _ => within (.inline schema)
  | .addsMembers _ members _ _ => ∀ member ∈ members, within member.1
  | .addsAlternatives _ alternatives _ _ => ∀ node ∈ alternatives, within node

variable {scope : Scope}

theorem HoldsWithin.mono {steps steps' : Nat} (more : steps ≤ steps') {judgment : Judgment}
    (holds : judgment.HoldsWithin scope steps) : judgment.HoldsWithin scope steps' := by
  -- each judgment is about a fold or a level, which keep what the levels below keep
  have below (hint : String) (node node' : Node) (same : node = node') :
      Run.Congruence.finished.Rel (declareFreely scope steps hint node)
        (declareFreely scope steps' hint node') := by
    subst same
    exact declareFreely_mono more
  have described (node node' : Node) (same : node = node') :
      node.description = node'.description := by
    rw [same]
  have agree (schema : Schema Node) : schema.Agree .finished Eq schema :=
    .of_children .finished fun _ _ => rfl
  cases judgment with
  | declares hint node run =>
    obtain ⟨rfl, finishes⟩ := holds
    exact ⟨(declareFreely_mono more finishes).symm, finishes⟩
  | addsProperties schema names message run =>
    obtain ⟨rfl, finishes⟩ := holds
    refine ⟨(Run.Congruence.finished.foldlM (ρ := Eq) ?_ (List.forall₂_refl names) message
      finishes).symm, finishes⟩
    rintro message name _ rfl
    exact addProperty_agree below described (agree schema) message name
  | addsMembers hint members message run =>
    obtain ⟨rfl, finishes⟩ := holds
    refine ⟨(Run.Congruence.finished.foldlM (ρ := Eq) ?_ (List.forall₂_refl members) message
      finishes).symm, finishes⟩
    rintro message member _ rfl
    refine addMember_agree below described hint message (fun hint position => ?_) member.2
    cases memberObject scope.document hint position _ member.1 with
    | error error => exact .error error
    | ok object => exact .ok (agree object)
  | addsAlternatives hint alternatives message run =>
    obtain ⟨rfl, finishes⟩ := holds
    refine ⟨(Run.Congruence.finished.foldlM (ρ := Eq) ?_ (List.forall₂_refl alternatives) message
      finishes).symm, finishes⟩
    rintro message node _ rfl
    exact addAlternative_agree below described hint message rfl

end Judgment

section Complete

variable {scope : Scope} {within : Node → Prop}

theorem declareFreely_ref (steps : Nat) (hint : String) (reference : Reference) :
    declareFreely scope (steps + 1) hint (.ref reference)
      = declareReference scope (fun _ => declareFreely scope steps) [] hint reference :=
  rfl

/-- An error is met by what goes on just as well. -/
theorem Run.Finishes.error {events : List Event} {error : SchemaError}
    (finishes : (⟨events, .error error⟩ : Run α).Finishes) (more : List Event) :
    (⟨more, .error error⟩ : Run β).Finishes :=
  (Run.finishes_error _ _).mpr ((Run.finishes_error _ _).mp finishes)

theorem StandsFor.not_endless {document : Document} {hint : String} {position : Nat} {node : Node}
    {outcome : Except SchemaError (Schema Node)}
    (stands : StandsFor document hint position node outcome) : (Run.ofExcept outcome).Finishes := by
  induction stands with
  | object => exact Run.finishes_ok _ _
  | followed _ _ _ induction => exact induction
  | _ => exact (Run.finishes_error _ _).mpr rfl

/-- Two judgments that hold within some steps each hold within the same steps. -/
private theorem exists_common {judgment judgment' : Judgment}
    (first : ∃ steps, judgment.HoldsWithin scope steps)
    (later : ∃ steps, judgment'.HoldsWithin scope steps) :
    ∃ steps, judgment.HoldsWithin scope steps ∧ judgment'.HoldsWithin scope steps := by
  obtain ⟨steps, holds⟩ := first
  obtain ⟨steps', holds'⟩ := later
  exact ⟨max steps steps', holds.mono (Nat.le_max_left _ _), holds'.mono (Nat.le_max_right _ _)⟩

/-- Whatever is derived is what the functions do within some steps, as long as members stand for the
same objects with and without a guard. -/
theorem Derives.holdsWithin (closed : scope.document.Closed within)
    (standing : ∀ node, within node → ∀ hint position outcome,
      StandsFor scope.document hint position node outcome →
      memberObject scope.document hint position (freshPointers scope.document node) node = outcome)
    {judgment : Judgment} (derives : Derives scope judgment) (inside : judgment.Within within) :
    ∃ steps, judgment.HoldsWithin scope steps := by
  -- a rule for a node takes one step more than its premise; where a rule for a list has two
  -- premises, the larger number of steps serves for both
  induction derives with
  | imported bound =>
    refine ⟨1, ?_, Run.finishes_ok _ _⟩
    simp only [declareFreely_ref, declareReference, bound]
    rfl
  | linked bound found declares =>
    refine ⟨1, ?_, Run.finishes_ok _ _⟩
    simp only [declareFreely_ref, declareReference, bound, found, declares]
    rfl
  | followed bound found declares _ induction =>
    obtain ⟨steps, same, finishes⟩ := induction (closed.lookup found)
    refine ⟨steps + 1, ?_, finishes⟩
    simp only [declareFreely_ref, declareReference, bound, found, declares]
    exact same
  | lost bound found =>
    refine ⟨1, ?_, Run.finishes_ok _ _⟩
    simp only [declareFreely, declareShape, Shape.of, declareReference, bound, found]
  | unbound bound =>
    refine ⟨1, ?_, Run.finishes_ok _ _⟩
    simp only [declareFreely, declareShape, Shape.of, declareReference, bound]
  | union shape _ induction =>
    obtain ⟨steps, same, finishes⟩ := induction fun node member =>
      closed.child inside (Schema.mem_children_of_oneOf member)
    refine ⟨steps + 1, ?_, Run.finishes_map.mpr finishes⟩
    simp only [declareFreely, declareShape, Shape.of, shape, declareUnion, same]
  | composition shape _ induction =>
    obtain ⟨steps, same, finishes⟩ := induction fun member listed =>
      closed.child inside (Schema.mem_children_of_allOf (List.fst_mem_of_mem_zipIdx listed))
    refine ⟨steps + 1, ?_, Run.finishes_map.mpr finishes⟩
    simp only [declareFreely, declareShape, Shape.of, shape, declareComposition, same]
  | object shape _ induction =>
    obtain ⟨steps, same, finishes⟩ := induction inside
    refine ⟨steps + 1, ?_, Run.finishes_map.mpr (Run.finishes_after.mpr finishes)⟩
    simp only [declareFreely, declareShape, Shape.of, shape, declareObject, addProperties_eq_after,
      same]
  | array shape items _ induction =>
    obtain ⟨steps, same, finishes⟩ :=
      induction (closed.child inside (Schema.mem_children_of_items items))
    refine ⟨steps + 1, ?_, Run.finishes_map.mpr finishes⟩
    simp only [declareFreely, declareShape, Shape.of, shape, declareArray, items, same]
    rfl
  | itemless shape items =>
    refine ⟨1, ?_, (Run.finishes_error _ _).mpr rfl⟩
    simp only [declareFreely, declareShape, Shape.of, shape, declareArray, items]
  | openMap shape object _ induction =>
    obtain ⟨steps, same, finishes⟩ := induction
      (closed.child inside (Schema.mem_children_of_additional (Shape.additional_of_openMap shape)))
    refine ⟨steps + 1, ?_, Run.finishes_map.mpr (Run.finishes_after.mpr finishes)⟩
    simp only [declareFreely, declareShape, Shape.of, shape, declareOpenMap_node object, same]
  | openMapOfFlag shape object =>
    refine ⟨1, ?_, (Run.finishes_error _ _).mpr rfl⟩
    simp only [declareFreely, declareShape, Shape.of, shape, declareOpenMap_flag object]
  | openMapOfOther shape other =>
    refine ⟨1, ?_, (Run.finishes_error _ _).mpr rfl⟩
    simp only [declareFreely, declareShape, Shape.of, shape, declareOpenMap_other other]
  | enum shape =>
    refine ⟨1, ?_, finishes_declareEnum _ _ _ _⟩
    simp only [declareFreely, declareShape, Shape.of, shape]
  | scalar shape found =>
    refine ⟨1, ?_, Run.finishes_ok _ _⟩
    simp only [declareFreely, declareShape, Shape.of, shape, found]
  | untyped shape found =>
    refine ⟨1, ?_, (Run.finishes_error _ _).mpr rfl⟩
    simp only [declareFreely, declareShape, Shape.of, shape, found]
  | noProperty => exact ⟨0, rfl, Run.finishes_ok _ _⟩
  | property found free _ _ first later =>
    have inner := closed.child inside (Schema.mem_children_of_property (Entries.mem_of_get? found))
    obtain ⟨steps, declared, added⟩ := exists_common (first inner) (later inside)
    refine ⟨steps, ?_, Run.finishes_after.mpr added.2⟩
    rw [List.foldlM_cons, addProperty_new found free, declared.1, Run.ok_bind_bind]
    exact congrArg _ added.1
  | propertyFails found free _ first =>
    have inner := closed.child inside (Schema.mem_children_of_property (Entries.mem_of_get? found))
    obtain ⟨steps, same, finishes⟩ := first inner
    refine ⟨steps, ?_, finishes.error _⟩
    rw [List.foldlM_cons, addProperty_new found free, same]
    rfl
  | propertyTaken found taken _ later =>
    obtain ⟨steps, same, finishes⟩ := later inside
    refine ⟨steps, ?_, Run.finishes_after.mpr finishes⟩
    rw [List.foldlM_cons, addProperty_taken found taken, Run.bind_ok, ← same]
    rfl
  | propertyUnknown missing =>
    refine ⟨0, ?_, (Run.finishes_error _ _).mpr rfl⟩
    rw [List.foldlM_cons, addProperty_unknown missing]
    rfl
  | noMember => exact ⟨0, rfl, Run.finishes_ok _ _⟩
  | member stands _ _ first later =>
    obtain ⟨here, rest⟩ := List.forall_mem_cons.mp inside
    -- without a guard the member stands for the same object
    have object := standing _ here _ _ _ stands
    obtain ⟨steps, added, continued⟩ :=
      exists_common (first (closed.memberObject here object)) (later rest)
    refine ⟨steps, ?_, Run.finishes_after.mpr continued.2⟩
    rw [List.foldlM_cons, addMember, object, Run.ofExcept, Run.ok_bind_bind, addProperties_eq_after,
      added.1, Run.after_bind, Run.bind_ok, continued.1]
    simp only [Run.after, List.nil_append, List.append_assoc]
  | memberFails stands _ first =>
    obtain ⟨here, rest⟩ := List.forall_mem_cons.mp inside
    have object := standing _ here _ _ _ stands
    obtain ⟨steps, same, finishes⟩ := first (closed.memberObject here object)
    refine ⟨steps, ?_, finishes.error _⟩
    rw [List.foldlM_cons, addMember, object, Run.ofExcept, Run.ok_bind_bind, addProperties_eq_after,
      same]
    rfl
  | memberInvalid stands =>
    have failed := standing _ (inside _ List.mem_cons_self) _ _ _ stands
    refine ⟨0, ?_, stands.not_endless.error _⟩
    rw [List.foldlM_cons, addMember, failed]
    rfl
  | noAlternative => exact ⟨0, rfl, Run.finishes_ok _ _⟩
  | alternative _ free _ first later =>
    obtain ⟨here, rest⟩ := List.forall_mem_cons.mp inside
    obtain ⟨steps, declared, added⟩ := exists_common (first here) (later rest)
    refine ⟨steps, ?_, Run.finishes_after.mpr added.2⟩
    rw [List.foldlM_cons, addAlternative_eq, declared.1, Run.ok_bind_bind, if_neg (by simp [free])]
    exact congrArg _ added.1
  | alternativeFails _ first =>
    obtain ⟨steps, same, finishes⟩ := first (inside _ List.mem_cons_self)
    refine ⟨steps, ?_, finishes.error _⟩
    rw [List.foldlM_cons, addAlternative_eq, same]
    rfl
  | alternativeTaken _ taken first =>
    obtain ⟨steps, same, _⟩ := first (inside _ List.mem_cons_self)
    refine ⟨steps, ?_, (Run.finishes_error _ _).mpr rfl⟩
    rw [List.foldlM_cons, addAlternative_eq, same, Run.ok_bind_bind, if_pos taken]
    simp only [Run.fail, Run.bind_error, Run.after, List.append_nil]

end Complete

end Protoschema
