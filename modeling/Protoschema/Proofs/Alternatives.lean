import Mathlib.Data.Nat.Find
import Mathlib.Data.Set.List
import Protoschema.Proofs.FieldSelection
/-!
The alternatives of a union. Every alternative is declared under the same hint and boxed, and its
field is named after what it has become. A union is declared exactly if all its alternatives are and
no two of their names have the same identifier; what it is then is written down field by field.
Otherwise the error is that of the first alternative with a fault.
-/

namespace Protoschema

/-- What an alternative of a union becomes, boxed if it is a list or a map. -/
def alternativeType (declare : Declarer) (node : Node) : Except SchemaError Decl :=
  (declare alternativeHint node).outcome.map (Decl.boxed alternativeHint none)

/-- The name of the field for an alternative of a type. -/
def Decl.valueName (type : Decl) : String :=
  Ident.unqualified type.name ++ "Value"

def Decl.valueIdent (type : Decl) : String :=
  Ident.normalize type.valueName

/-- The fields for alternatives of some types; the first has the number after `start`. -/
def alternativeFields (start : Nat) (alternatives : List Node) (types : List Decl) :
    List (Field Decl) :=
  ((alternatives.zip types).zipIdx start).map fun ((node, type), index) =>
    { name := type.valueName, number := index + 1, type := type.link, comment := node.description }

/-- A union that has got alternatives of some types. -/
def Message.withAlternatives (message : Message Decl) (alternatives : List Node)
    (types : List Decl) : Message Decl :=
  { message with
    nested := message.nested ++ types.filter Decl.isDeclaration
    fields := message.fields ++ alternativeFields message.fields.length alternatives types }

/-- What is wrong with the alternative at an index: it cannot be declared, or the identifier of its
field is that of an earlier one. -/
inductive AlternativeFault (hint : String) (types : List (Except SchemaError Decl)) :
    Nat → SchemaError → Prop
  | failed {index : Nat} {error : SchemaError} : types[index]? = some (.error error) →
      AlternativeFault hint types index error
  | repeated {index earlier : Nat} {type type' : Decl} : types[index]? = some (.ok type) →
      earlier < index → types[earlier]? = some (.ok type') → type'.valueIdent = type.valueIdent →
      AlternativeFault hint types index (.duplicateAlternative hint type.valueName)

/-- The fault at an index is the first one. -/
def FirstFault (hint : String) (types : List (Except SchemaError Decl)) (index : Nat)
    (error : SchemaError) : Prop :=
  AlternativeFault hint types index error ∧
    ∀ earlier < index, ∀ error, ¬AlternativeFault hint types earlier error

/-- What the alternatives of a schema become. -/
def Scope.alternativeTypes (scope : Scope) (steps : Nat) (following : List String)
    (schema : Schema Node) : List (Except SchemaError Decl) :=
  schema.oneOf.map (alternativeType (declareWithin scope steps following))

/-! ### One alternative -/

theorem Run.outcome_map {α β : Type} (f : α → β) (run : Run α) :
    (f <$> run).outcome = run.outcome.map f := by
  obtain ⟨events, error | value⟩ := run <;> rfl

theorem Run.outcome_of_error {α β : Type} {run : Run α} {next : α → Run β} {error : SchemaError}
    (failed : run.outcome = .error error) : (run >>= next).outcome = .error error := by
  obtain ⟨events, _ | _⟩ := run <;> cases failed
  rfl

theorem Decl.owned_boxed (type : Decl) (name : String) (comment : Option String) :
    (type.boxed name comment).owned = [type.boxed name comment].filter Decl.isDeclaration := by
  cases type <;> rfl

section Alternatives

variable {declare : Declarer} {hint : String} {message : Message Decl} {node : Node}

theorem exists_of_alternativeType {type : Decl} (become : alternativeType declare node = .ok type) :
    ∃ inner, (declare alternativeHint node).outcome = .ok inner ∧
      type = inner.boxed alternativeHint none := by
  unfold alternativeType at become
  cases outcome : (declare alternativeHint node).outcome with
  | error error => simp [outcome, Except.map] at become
  | ok inner =>
    refine ⟨inner, rfl, ?_⟩
    simpa [outcome, Except.map, eq_comm] using become

theorem addAlternative_new {type : Decl} (become : alternativeType declare node = .ok type)
    (new : type.valueIdent ∉ message.idents) :
    addAlternative declare hint message node = ⟨(declare alternativeHint node).events,
      .ok (message.addField type.valueName type node.description)⟩ := by
  obtain ⟨inner, outcome, rfl⟩ := exists_of_alternativeType become
  have free : ¬message.hasField (alternativeField inner) = true := mt Message.hasField_iff.mp new
  rw [addAlternative_eq]
  generalize declare alternativeHint node = run at outcome ⊢
  obtain ⟨events, _ | _⟩ := run <;> cases outcome
  rw [Run.bind_ok, if_neg free, Run.pure_eq, List.append_nil]
  rfl

theorem addAlternative_taken {type : Decl} (become : alternativeType declare node = .ok type)
    (taken : type.valueIdent ∈ message.idents) :
    (addAlternative declare hint message node).outcome
      = .error (.duplicateAlternative hint type.valueName) := by
  obtain ⟨inner, outcome, rfl⟩ := exists_of_alternativeType become
  have has : message.hasField (alternativeField inner) = true := Message.hasField_iff.mpr taken
  rw [addAlternative_eq]
  generalize declare alternativeHint node = run at outcome ⊢
  obtain ⟨events, _ | _⟩ := run <;> cases outcome
  rw [Run.bind_ok, if_pos has]
  rfl

theorem addAlternative_failed {error : SchemaError}
    (failed : alternativeType declare node = .error error) :
    (addAlternative declare hint message node).outcome = .error error := by
  unfold alternativeType at failed
  rw [addAlternative_eq]
  generalize declare alternativeHint node = run at failed ⊢
  obtain ⟨events, _ | _⟩ := run <;> cases failed
  rfl

/-! ### All alternatives -/

theorem Message.withAlternatives_cons {type : Decl} (boxed : ∃ inner : Decl,
    type = inner.boxed alternativeHint none) (alternatives : List Node) (types : List Decl) :
    (message.addField type.valueName type node.description).withAlternatives alternatives types
      = message.withAlternatives (node :: alternatives) (type :: types) := by
  obtain ⟨inner, rfl⟩ := boxed
  have owned := inner.owned_boxed alternativeHint none
  simp only [withAlternatives, addField, owned, alternativeFields, List.append_assoc,
    List.length_append, List.length_singleton, List.zip_cons_cons, List.zipIdx_cons, List.map_cons,
    nextNumber]
  rw [← List.filter_append]
  rfl

/-- Alternatives with distinct names are gone through one by one, up to whatever comes next. -/
theorem foldlM_addAlternative_append {before rest : List Node} {types : List Decl}
    (become : before.map (alternativeType declare) = types.map .ok)
    (distinct : (message.idents ++ types.map Decl.valueIdent).Nodup) :
    (before ++ rest).foldlM (addAlternative declare hint) message
      = (rest.foldlM (addAlternative declare hint) (message.withAlternatives before types)).after
          (before.flatMap fun node => (declare alternativeHint node).events) := by
  induction before generalizing message types with
  | nil =>
    obtain rfl : types = [] := by simpa using become.symm
    simp [Message.withAlternatives, alternativeFields, Run.after]
  | cons node before ih =>
    cases types with
    | nil => simp at become
    | cons type types =>
      rw [List.map_cons, List.map_cons, List.cons.injEq] at become
      have new : type.valueIdent ∉ message.idents := by
        intro old
        exact (List.nodup_append.mp distinct).2.2 _ old _ (by simp) rfl
      -- the new field takes its place among the identifiers of the union
      have idents : (message.addField type.valueName type node.description).idents
          = message.idents ++ [type.valueIdent] := by
        simp [Message.idents, Message.addField, Decl.valueIdent]
      have apart : ((message.addField type.valueName type node.description).idents
          ++ types.map Decl.valueIdent).Nodup := by simpa [idents] using distinct
      obtain ⟨inner, _, boxed⟩ := exists_of_alternativeType become.1
      rw [List.cons_append, List.foldlM_cons, addAlternative_new become.1 new, Run.bind_ok,
        ih become.2 apart, Message.withAlternatives_cons ⟨inner, boxed⟩]
      simp [Run.after]

end Alternatives

theorem Message.idents_withAlternatives (message : Message Decl) {alternatives : List Node}
    {types : List Decl} (same : alternatives.length = types.length) :
    (message.withAlternatives alternatives types).idents
      = message.idents ++ types.map Decl.valueIdent := by
  have fields (start : Nat) : (alternativeFields start alternatives types).map
      (fun field => Ident.normalize field.name) = types.map Decl.valueIdent := by
    unfold alternativeFields
    induction alternatives generalizing types start with
    | nil =>
      obtain rfl : types = [] := List.length_eq_zero_iff.mp same.symm
      rfl
    | cons node rest ih =>
      cases types with
      | nil => cases same
      | cons type types =>
        have later := ih (Nat.succ.inj same) (start + 1)
        simpa [Decl.valueIdent] using later
  rw [Message.idents, Message.withAlternatives, List.map_append, fields]
  rfl

/-! ### Faults -/

namespace AlternativeFault

variable {hint : String} {types : List (Except SchemaError Decl)} {index : Nat}
  {error : SchemaError}

theorem exists_of_none (faultless : ∀ index error, ¬AlternativeFault hint types index error) :
    ∃ decls : List Decl, types = decls.map .ok ∧ (decls.map Decl.valueIdent).Nodup := by
  have declared : types ∈ Set.range (List.map Except.ok) := by
    rw [Set.range_list_map]
    intro type member
    obtain ⟨index, found⟩ := List.mem_iff_getElem?.mp member
    cases type with
    | error error => exact absurd (.failed found) (faultless index error)
    | ok decl => exact ⟨decl, rfl⟩
  obtain ⟨decls, rfl⟩ := declared
  refine ⟨decls, rfl, List.nodup_iff_getElem?_ne_getElem?.mpr ?_⟩
  intro earlier index before present same
  rw [List.length_map] at present
  -- the later one of two equal identifiers would be a fault
  have found : decls[index]? = some decls[index] := List.getElem?_eq_getElem present
  have found' : decls[earlier]? = some decls[earlier] := List.getElem?_eq_getElem (by omega)
  rw [List.getElem?_map, List.getElem?_map, found, found', Option.map_some, Option.map_some,
    Option.some.injEq] at same
  refine faultless index _ (.repeated ?_ before ?_ same)
  · rw [List.getElem?_map, found, Option.map_some]
  · rw [List.getElem?_map, found', Option.map_some]

theorem of_take {count : Nat} (fault : AlternativeFault hint (types.take count) index error) :
    index < count ∧ AlternativeFault hint types index error := by
  have inside {position : Nat} {type : Except SchemaError Decl}
      (found : (types.take count)[position]? = some type) :
      position < count ∧ types[position]? = some type := by
    rw [List.getElem?_take] at found
    split at found
    next below => exact ⟨below, found⟩
    · cases found
  cases fault with
  | failed found => exact ⟨(inside found).1, .failed (inside found).2⟩
  | repeated found before found' same =>
    exact ⟨(inside found).1, .repeated (inside found).2 before (inside found').2 same⟩

theorem distinct_or_first (hint : String) (types : List (Except SchemaError Decl)) :
    (∃ decls : List Decl, types = decls.map .ok ∧ (decls.map Decl.valueIdent).Nodup) ∨
      ∃ index error, FirstFault hint types index error := by
  classical
  by_cases fault : ∃ index error, AlternativeFault hint types index error
  · obtain ⟨error, found⟩ := Nat.find_spec fault
    refine .inr ⟨Nat.find fault, error, found, fun earlier before error other => ?_⟩
    exact Nat.find_min fault before ⟨error, other⟩
  · exact .inl (exists_of_none fun index error found => fault ⟨index, error, found⟩)

end AlternativeFault

/-! ### Unions -/

section Unions

variable {declare : Declarer} {hint : String} {alternatives : List Node}

theorem foldlM_addAlternative_of_distinct {comment : Option String} {types : List Decl}
    (become : alternatives.map (alternativeType declare) = types.map .ok)
    (distinct : (types.map Decl.valueIdent).Nodup) :
    alternatives.foldlM (addAlternative declare hint) ⟨hint, [], [], comment⟩
      = ⟨alternatives.flatMap fun node => (declare alternativeHint node).events,
          .ok ⟨hint, types.filter Decl.isDeclaration, alternativeFields 0 alternatives types,
            comment⟩⟩ := by
  have whole : (alternatives ++ []).foldlM (addAlternative declare hint)
      ⟨hint, [], [], comment⟩ = _ := foldlM_addAlternative_append become distinct
  rw [List.append_nil] at whole
  rw [whole]
  simp [Run.after, Message.withAlternatives]

/-- The first fault stops the run with its error. -/
theorem foldlM_addAlternative_of_fault {comment : Option String} {index : Nat} {error : SchemaError}
    (fault : FirstFault hint (alternatives.map (alternativeType declare)) index error) :
    (alternatives.foldlM (addAlternative declare hint) ⟨hint, [], [], comment⟩).outcome
      = .error error := by
  obtain ⟨fault, first⟩ := fault
  -- the alternatives before the fault have none, so the run gets as far as the fault
  obtain ⟨types, become, distinct⟩ : ∃ types : List Decl,
      (alternatives.take index).map (alternativeType declare) = types.map .ok ∧
        (types.map Decl.valueIdent).Nodup := by
    rw [List.map_take]
    apply AlternativeFault.exists_of_none
    intro earlier error' fault'
    obtain ⟨before, fault'⟩ := fault'.of_take
    exact first earlier before error' fault'
  have present : index < alternatives.length := by
    cases fault with
    | failed found | repeated found =>
      simpa using (List.getElem?_eq_some_iff.mp found).1
  have split : alternatives
      = alternatives.take index ++ alternatives[index] :: alternatives.drop (index + 1) := by
    rw [← List.drop_eq_getElem_cons present, List.take_append_drop]
  have whole : (alternatives.take index
      ++ alternatives[index] :: alternatives.drop (index + 1)).foldlM
        (addAlternative declare hint) ⟨hint, [], [], comment⟩ = _ :=
    foldlM_addAlternative_append become distinct
  have lengths : (alternatives.take index).length = types.length := by
    simpa using congrArg List.length become
  have idents := Message.idents_withAlternatives ⟨hint, [], [], comment⟩ lengths
  rw [← split, List.foldlM_cons] at whole
  rw [whole]
  change (_ >>= _ : Run (Message Decl)).outcome = _
  apply Run.outcome_of_error
  cases fault with
  | failed found =>
    apply addAlternative_failed
    simpa [List.getElem?_eq_getElem present] using found
  | @repeated earlier type type' found before found' same =>
    apply addAlternative_taken
    · simpa [List.getElem?_eq_getElem present] using found
    · rw [idents]
      have earlier' : (types.map Except.ok)[earlier]?
          = some (.ok type' : Except SchemaError Decl) := by
        rw [← become, List.map_take, List.getElem?_take, if_pos before, found']
      have listed : type' ∈ types := by
        have member := List.mem_of_getElem? earlier'
        simpa using member
      rw [← same]
      exact List.mem_append_right _ (List.mem_map_of_mem listed)

end Unions

theorem length_alternativeFields {start : Nat} {alternatives : List Node} {types : List Decl}
    (same : alternatives.length = types.length) :
    (alternativeFields start alternatives types).length = alternatives.length := by
  simp [alternativeFields, same]

theorem getElem?_alternativeFields {start index : Nat} {alternatives : List Node}
    {types : List Decl} {node : Node} {type : Decl} (alternative : alternatives[index]? = some node)
    (become : types[index]? = some type) :
    (alternativeFields start alternatives types)[index]?
      = some ⟨type.valueName, start + index + 1, type.link, node.description⟩ := by
  have pair : (alternatives.zip types)[index]? = some (node, type) :=
    List.getElem?_zip_eq_some.mpr ⟨alternative, become⟩
  simp [alternativeFields, pair]

theorem Shape.ofSchema_union {schema : Schema Node} (alternatives : schema.oneOf ≠ []) :
    Shape.ofSchema schema = .union schema := by
  rw [Shape.ofSchema, if_pos alternatives]

theorem declareWithin_union {scope : Scope} {schema : Schema Node}
    (alternatives : schema.oneOf ≠ []) (steps : Nat) (following : List String) (hint : String) :
    declareWithin scope (steps + 1) following hint (.inline schema)
      = .union <$> schema.oneOf.foldlM (addAlternative (declareWithin scope steps following) hint)
          ⟨hint, [], [], schema.description⟩ := by
  simp only [declareWithin, declareShape, Shape.of, Shape.ofSchema_union alternatives]
  rfl

/-- A union is declared exactly if all its alternatives can be, and the names of their fields have
distinct identifiers. It has one field for each alternative: named after the type, numbered by its
place, with the alternative's description and a link to the type; what is declared with it is what
the alternatives declare. Otherwise it fails with the error of the first alternative that has a
fault. -/
theorem Scope.union_exact (scope : Scope) (steps : Nat) (following : List String) (hint : String)
    (schema : Schema Node) (alternatives : schema.oneOf ≠ []) :
    ((∃ decl, (declareWithin scope (steps + 1) following hint (.inline schema)).outcome
        = .ok decl) ↔
      ∃ types : List Decl, scope.alternativeTypes steps following schema = types.map .ok ∧
        (types.map Decl.valueIdent).Nodup) ∧
    (∀ types : List Decl, scope.alternativeTypes steps following schema = types.map .ok →
      (types.map Decl.valueIdent).Nodup →
      ∃ fields, (declareWithin scope (steps + 1) following hint (.inline schema)).outcome
          = .ok (.union ⟨hint, types.filter Decl.isDeclaration, fields, schema.description⟩) ∧
        fields.length = schema.oneOf.length ∧
        ∀ (index : Nat) (node : Node) (type : Decl), schema.oneOf[index]? = some node →
          types[index]? = some type →
          fields[index]? = some ⟨type.valueName, index + 1, type.link, node.description⟩) ∧
    ∀ error, (declareWithin scope (steps + 1) following hint (.inline schema)).outcome
        = .error error ↔
      ∃ index, FirstFault hint (scope.alternativeTypes steps following schema) index error := by
  rw [declareWithin_union alternatives, Run.outcome_map]
  have either := AlternativeFault.distinct_or_first hint
    (scope.alternativeTypes steps following schema)
  refine ⟨⟨?_, ?_⟩, ?_, fun error => ⟨?_, ?_⟩⟩
  · rintro ⟨decl, outcome⟩
    apply either.resolve_right
    rintro ⟨index, error, fault⟩
    rw [foldlM_addAlternative_of_fault fault] at outcome
    cases outcome
  · rintro ⟨types, become, distinct⟩
    rw [foldlM_addAlternative_of_distinct become distinct]
    exact ⟨_, rfl⟩
  · intro types become distinct
    have lengths : schema.oneOf.length = types.length := by
      simpa [alternativeTypes] using congrArg List.length become
    rw [foldlM_addAlternative_of_distinct become distinct]
    refine ⟨_, rfl, length_alternativeFields lengths, ?_⟩
    intro index node type alternative here
    rw [getElem?_alternativeFields alternative here, Nat.zero_add]
  · intro outcome
    rcases either with ⟨types, become, distinct⟩ | ⟨index, other, fault⟩
    · rw [foldlM_addAlternative_of_distinct become distinct] at outcome
      cases outcome
    · rw [foldlM_addAlternative_of_fault fault] at outcome
      cases outcome
      exact ⟨index, fault⟩
  · rintro ⟨index, fault⟩
    rw [foldlM_addAlternative_of_fault fault]
    rfl

/-- Ways to pay: an amount of another document, a list of coins, and a text. -/
def payment : Schema Node where
  oneOf := [
    .ref {
      pointer := "bank.yaml#/components/schemas/Money"
      description := some "in an account"
      binding := some (.elsewhere "bank" "Money" "bank.proto") },
    .inline { type := some .array, items := some (.inline { type := some .integer }) },
    .inline { type := some .string, description := some "a promise" }]

def coins : Decl :=
  .message {
    name := "VariantArray"
    fields := [⟨"Items", 1, .repeated (.named "int32"), none⟩] }

theorem Scope.union_exact_payment :
    payment.oneOf ≠ [] ∧
    ∃ fields, (declareWithin ⟨{}, {}⟩ 3 [] "Payment" (.inline payment)).outcome
        = .ok (.union ⟨"Payment", [coins], fields, none⟩) ∧
      fields.length = 3 ∧
      fields[1]? = some ⟨"VariantArrayValue", 2, .named "VariantArray", none⟩ ∧
      fields[2]? = some ⟨"stringValue", 3, .named "string", some "a promise"⟩ := by
  have alternatives : payment.oneOf ≠ [] := List.cons_ne_nil _ _
  have become : Scope.alternativeTypes ⟨{}, {}⟩ 2 [] payment
      = [.named "bank.Money", coins, .named "string"].map .ok := rfl
  have distinct : ([.named "bank.Money", coins, .named "string"].map Decl.valueIdent).Nodup := by
    decide
  obtain ⟨fields, outcome, length, each⟩ :=
    (union_exact ⟨{}, {}⟩ 2 [] "Payment" payment alternatives).2.1 _ become distinct
  exact ⟨alternatives, fields, outcome, length, each 1 _ _ rfl rfl, each 2 _ _ rfl rfl⟩

end Protoschema
