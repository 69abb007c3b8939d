import Protoschema.Proofs.Fields
import Protoschema.Proofs.Ownership
import Protoschema.Proofs.VisitedNodes
/-!
Where the types of fields come from. A message is made by a visit to a schema, or it is the box of a
list or a map that a visit comes to; either way its fields have the types that visits come to. So in
what a schema becomes, at any depth, each field has the type that some node has become on the way,
and what that type declares is nested in the message of the field.
-/

namespace Protoschema

namespace Decl

theorem base_of_loose?_eq_none {decl : Decl} (alone : decl.loose? = none) : decl.base = decl := by
  cases decl with
  | repeated | map => cases alone
  | named | enum | message | union => rfl

@[simp] theorem base_boxed (name : String) (comment : Option String) (decl : Decl) :
    (decl.boxed name comment).base = decl.boxed name comment :=
  base_of_loose?_eq_none (loose?_boxed name comment decl)

theorem mem_owned_iff {decl inner : Decl} :
    inner ∈ decl.owned ↔ inner = decl.base ∧ decl.base.isDeclaration = true := by
  fun_induction owned decl with
  | case1 => simp [base, isDeclaration]
  | case2 | case5 | case6 => simp [base, isDeclaration]
  | case3 _ _ value induction => exact induction
  | case4 item induction => exact induction

end Decl

/-- A field of a message is of a type, and the message owns what the type declares. -/
structure Message.Holds (body : Message Decl) (field : Field Decl) (type : Decl) : Prop where
  link : field.type = type.link
  declared : type.base.isDeclaration = true → type.base ∈ body.nested

theorem Message.Holds.mono {body extended : Message Decl} {field : Field Decl} {type : Decl}
    (holds : body.Holds field type) (nested : body.nested ⊆ extended.nested) :
    extended.Holds field type :=
  ⟨holds.link, fun declaration => nested (holds.declared declaration)⟩

namespace Visit

variable {scope : Scope} {top visit : Visit} {type : Decl} {body : Message Decl}
  {wrap : Decl → Decl}

/-- On the way from a visit, some node becomes a type. -/
def Meets (scope : Scope) (top : Visit) (type : Decl) : Prop :=
  ∃ visit, Relation.ReflTransGen (Next scope) top visit ∧ (visit.run scope).outcome = .ok type

/-- The fields of a message have types that are met on the way from a visit, wrapped in some way;
nothing but what these declare is nested in the message. -/
structure Gathers (scope : Scope) (top : Visit) (wrap : Decl → Decl) (body : Message Decl) :
    Prop where
  fields : ∀ field ∈ body.fields, ∃ type, Meets scope top type ∧ body.Holds field (wrap type)
  nested : ∀ decl ∈ body.nested, ∃ type, Meets scope top type ∧ decl = (wrap type).base

/-- What a visit comes to, told by the types that are met on the way from it. -/
inductive ComesTo (scope : Scope) (visit : Visit) : Decl → Prop
  | message {body : Message Decl} : Gathers scope visit id body →
      ComesTo scope visit (.message body)
  | union {body : Message Decl} : Gathers scope visit (Decl.boxed alternativeHint none) body →
      ComesTo scope visit (.union body)
  | list {item : Decl} (name : String) : Meets scope visit item →
      ComesTo scope visit (.repeated (item.boxed name none))
  | map {value : Decl} (label key name : String) : Meets scope visit value →
      ComesTo scope visit (.map label key (value.boxed name none))
  | enum (body : Enum) : ComesTo scope visit (.enum body)
  | named (name : String) : ComesTo scope visit (.named name)

/-! ### One level -/

theorem Meets.earlier (path : Relation.ReflTransGen (Next scope) top visit)
    (meets : Meets scope visit type) : Meets scope top type := by
  obtain ⟨later, onward, outcome⟩ := meets
  exact ⟨later, path.trans onward, outcome⟩

theorem Meets.of_next {steps : Nat} {inner : Visit} (next : Next scope visit inner)
    (outcome : (inner.within scope steps).outcome = .ok type) : Meets scope visit type :=
  ⟨inner, .single next, by rw [← within_eq_run (Run.ends_of_ok outcome), outcome]⟩

theorem Gathers.earlier (path : Relation.ReflTransGen (Next scope) top visit)
    (gathers : Gathers scope visit wrap body) : Gathers scope top wrap body where
  fields field member := (gathers.fields field member).imp fun _ => And.imp_left (.earlier path)
  nested decl member := (gathers.nested decl member).imp fun _ => And.imp_left (.earlier path)

theorem ComesTo.earlier (path : Relation.ReflTransGen (Next scope) top visit)
    (comes : ComesTo scope visit type) : ComesTo scope top type := by
  cases comes with
  | message gathers => exact .message (gathers.earlier path)
  | union gathers => exact .union (gathers.earlier path)
  | list name meets => exact .list name (meets.earlier path)
  | map label key name meets => exact .map label key name (meets.earlier path)
  | enum body => exact .enum body
  | named name => exact .named name

theorem gathers_empty (name : String) (comment : Option String) :
    Gathers scope visit wrap ⟨name, [], [], comment⟩ where
  fields := by simp
  nested := by simp

theorem Gathers.addField (gathers : Gathers scope visit wrap body) (meets : Meets scope visit type)
    (name : String) (comment : Option String) :
    Gathers scope visit wrap (body.addField name (wrap type) comment) where
  fields field member := by
    rcases List.mem_append.mp member with old | new
    · obtain ⟨earlier, met, holds⟩ := gathers.fields field old
      exact ⟨earlier, met, holds.mono (List.subset_append_left _ _)⟩
    · cases List.mem_singleton.mp new
      refine ⟨type, meets, rfl, fun declaration => ?_⟩
      exact List.mem_append_right _ (Decl.mem_owned_iff.mpr ⟨rfl, declaration⟩)
  nested decl member := by
    rcases List.mem_append.mp member with old | new
    · exact gathers.nested decl old
    · exact ⟨type, meets, (Decl.mem_owned_iff.mp new).1⟩

theorem addProperties_gathers {steps : Nat} {object : Schema Node} {start : Message Decl}
    (fills : Fills scope visit object start) (gathers : Gathers scope visit id start) :
    (addProperties (declareWithin scope steps visit.following) start object).Ensures
      (Gathers scope visit id) := by
  rw [addProperties_eq_after]
  refine Run.ensures_foldlM_of_reaches gathers fun property message reaches gathers => ?_
  cases found : Entries.get? object.properties property with
  | none =>
    rw [addProperty_unknown found]
    exact Run.ensures_fail _
  | some node =>
    cases taken : message.hasField property with
    | true =>
      rw [addProperty_taken found taken]
      exact Run.ensures_ok gathers
    | false =>
      -- the one case in which the property is declared, and so the node is visited
      rw [addProperty_new found taken]
      intro extended outcome
      obtain ⟨type, become, same⟩ := Run.outcome_bind_eq_ok.mp outcome
      cases same
      have here := reaches.mono fun _ _ => addProperty_enough _ _ _
      exact gathers.addField (.of_next (.property (.property fills here found taken)) become) _ _

theorem declareUnion_gathers {steps : Nat} {following : List String} {hint : String}
    {schema : Schema Node} (shape : Shape.ofSchema schema = .union schema) :
    (declareUnion (declareWithin scope steps following) hint schema).Ensures
      (Gathers scope ⟨following, hint, .inline schema⟩ (Decl.boxed alternativeHint none)) := by
  refine Run.ensures_foldlM_of_reaches (gathers_empty _ _) ?_
  intro alternative message reaches gathers extended outcome
  obtain ⟨type, become, added⟩ := Run.outcome_bind_eq_ok.mp outcome
  dsimp only at added
  split at added
  · cases added
  · cases added
    have here := reaches.mono fun _ _ => addAlternative_enough _ _ _
    exact gathers.addField (.of_next (.alternative shape here) become) _ _

theorem declareComposition_gathers {steps : Nat} {following : List String} {hint : String}
    {schema : Schema Node} (shape : Shape.ofSchema schema = .composition schema) :
    (declareComposition scope (declareWithin scope steps following) hint schema).Ensures
      (Gathers scope ⟨following, hint, .inline schema⟩ id) := by
  refine Run.ensures_foldlM_of_reaches (gathers_empty _ _) ?_
  rintro ⟨member, position⟩ message reaches gathers extended outcome
  obtain ⟨object, stands, added⟩ := Run.outcome_bind_eq_ok.mp outcome
  have here := reaches.mono fun _ _ => addMember_enough _ _ _
  exact addProperties_gathers (.member (.member shape here stands)) gathers extended added

theorem within_comesTo (scope : Scope) (steps : Nat) (visit : Visit) :
    (visit.within scope steps).Ensures (ComesTo scope visit) := by
  induction steps generalizing visit with
  | zero => exact Run.ensures_fail _
  | succ steps induction =>
    -- what is next is met; only what a reference is followed to needs the induction
    have below {inner : Visit} (next : Next scope visit inner) :
        (inner.within scope steps).Ensures (Meets scope visit) :=
      fun type outcome => .of_next next outcome
    have step := step_within scope steps visit
    generalize visit.within scope (steps + 1) = run at step
    cases step with
    | named _ name => exact Run.ensures_ok (.named name)
    | enum body => exact Run.ensures_ok (.enum body)
    | failed _ => exact Run.ensures_fail _
    | followed next =>
      exact fun type outcome => (induction _ type outcome).earlier (.single next)
    | list next => exact (below next).map fun _ => .list _
    | map events next =>
      have after : ((within scope steps _).after events).Ensures (Meets scope visit) := below next
      exact after.map fun _ => .map _ _ _
    | object shape =>
      exact (addProperties_gathers (.object shape) (gathers_empty _ _)).map fun _ => .message
    | composition shape => exact (declareComposition_gathers shape).map fun _ => .message
    | union shape => exact (declareUnion_gathers shape).map fun _ => .union

theorem Meets.comesTo (meets : Meets scope top type) : ComesTo scope top type := by
  obtain ⟨visit, path, outcome⟩ := meets
  exact (within_comesTo scope _ visit type outcome).earlier path

/-! ### Any depth -/

/-- A declaration is met on the way from a visit, or it is the box of a type that is met. -/
inductive Makes (scope : Scope) (top : Visit) : Decl → Prop
  | node {type : Decl} : Meets scope top type → Makes scope top type
  | box {type : Decl} (name : String) (comment : Option String) : Meets scope top type →
      Makes scope top (type.boxed name comment)

theorem Meets.base (meets : Meets scope top type) : Makes scope top type.base := by
  cases meets.comesTo with
  | list name item =>
    rw [Decl.base, Decl.base_boxed]
    exact .box name none item
  | map label key name value =>
    rw [Decl.base, Decl.base_boxed]
    exact .box name none value
  | message | union | enum | named => exact .node meets

theorem Makes.comesTo {decl : Decl} (makes : Makes scope top decl) : ComesTo scope top decl := by
  cases makes with
  | node meets => exact meets.comesTo
  | @box type name comment meets =>
    cases type with
    | repeated | map =>
      -- the box has one field, of the type itself
      exact .message ((gathers_empty _ _).addField meets _ _)
    | named | enum | message | union => exact meets.comesTo

theorem Makes.encloses {decl inner : Decl} (makes : Makes scope top decl)
    (encloses : decl.Encloses inner) : Makes scope top inner := by
  induction encloses with
  | self => exact makes
  | @nested decl owned inner member _ induction =>
    refine induction ?_
    -- what is nested is what the type of a field declares: a node became that, or it is a box
    cases makes.comesTo with
    | message gathers =>
      obtain ⟨type, meets, rfl⟩ := gathers.nested owned member
      exact meets.base
    | union gathers =>
      obtain ⟨type, meets, rfl⟩ := gathers.nested owned member
      rw [Decl.base_boxed]
      exact .box _ _ meets
    | list | map | enum | named => cases member

end Visit

theorem Document.declareSchema_makes {document : Document} {options : Options} {name : String}
    {node : Node} {declared : Declared} (found : document.schema? name = some node)
    (compiled : document.declareSchema options name = some (.ok declared)) :
    Visit.Makes ⟨document, options⟩ (.top name node) declared.decl := by
  obtain ⟨node', type, found', become, same⟩ := declareSchema_ok compiled
  obtain rfl := Option.some.inj (found.symm.trans found')
  rw [same]
  exact .box name node.description ⟨_, .refl, become⟩

/-- What a schema becomes is neither a list nor a map. In all its messages and unions, at any
depth, fields have types by name, lists of these or maps to these, and in unions types by name only;
what is nested is declared, and the identifiers of what is nested are, in order, among the type
names of the fields. Every field is of a type that a node has become on the way from the schema,
boxed in a union, and what this type declares is nested where the field is. -/
theorem Document.declared_linked (document : Document) (options : Options) (name : String)
    (declared : Declared) (compiled : document.declareSchema options name = some (.ok declared)) :
    (∀ item, declared.decl ≠ .repeated item) ∧
    (∀ label key value, declared.decl ≠ .map label key value) ∧
    (∀ body, declared.decl.Encloses (.message body) ∨ declared.decl.Encloses (.union body) →
      (∀ field ∈ body.fields, field.type.IsFieldType) ∧
      (∀ decl ∈ body.nested, decl.isDeclaration = true) ∧
      (body.nested.map Decl.ident).Sublist
        (body.fields.map fun field => Proto.typeText field.type.base)) ∧
    (∀ body, declared.decl.Encloses (.union body) →
      ∀ field ∈ body.fields, ∃ link, field.type = .named link) ∧
    ∀ node, document.schema? name = some node →
      (∀ body, declared.decl.Encloses (.message body) → ∀ field ∈ body.fields,
        ∃ type, Visit.Meets ⟨document, options⟩ (.top name node) type ∧ body.Holds field type) ∧
      ∀ body, declared.decl.Encloses (.union body) → ∀ field ∈ body.fields,
        ∃ type, Visit.Meets ⟨document, options⟩ (.top name node) type ∧
          body.Holds field (type.boxed alternativeHint none) := by
  obtain ⟨alone, owned⟩ := declareSchema_orderly compiled
  have orderly (inner : Decl) (declaration : inner.isDeclaration = true)
      (encloses : declared.decl.Encloses inner) : inner.Orderly := by
    generalize declared.decl = decl at alone owned encloses
    -- only a declaration encloses one
    have declares : decl.isDeclaration = true := by
      cases encloses with
      | self => exact declaration
      | nested member _ => cases decl <;> first | rfl | cases member
    exact (Decl.orderly_of_isDeclaration declares owned).encloses encloses
  refine ⟨fun item list => ?_, fun label key value map => ?_, ?_, ?_, fun node found => ?_⟩
  · rw [list] at alone
    cases alone
  · rw [map] at alone
    cases alone
  · rintro body (message | union)
    · cases orderly _ rfl message with
      | message linked _ => exact ⟨linked.types, linked.declarations, linked.links⟩
    · cases orderly _ rfl union with
      | union linked _ _ => exact ⟨linked.types, linked.declarations, linked.links⟩
  · intro body union
    cases orderly _ rfl union with
    | union _ exclusive _ => exact exclusive
  · have makes := declareSchema_makes found compiled
    refine ⟨fun body message => ?_, fun body union => ?_⟩
    · cases (makes.encloses message).comesTo with
      | message gathers => exact gathers.fields
    · cases (makes.encloses union).comesTo with
      | union gathers => exact gathers.fields

/-- An object with a list of lists, and a choice between a list and a text. -/
def shelf : Document where
  schemas := [("Shelf", .inline {
    type := some .object
    order := ["rows", "pick"]
    properties := [
      ("rows", .inline {
        type := some .array
        items := some (.inline {
          type := some .array
          items := some (.inline { type := some .string }) }) }),
      ("pick", .inline {
        oneOf := [
          .inline { type := some .array, items := some (.inline { type := some .string }) },
          .inline { type := some .string }] })] })]

/-- The choice of the shelf: the list is boxed, and owned by the choice. -/
def shelfPick : Message Decl where
  name := "Shelf_pick"
  nested := [.message {
    name := "VariantArray"
    fields := [⟨"Items", 1, .repeated (.named "string"), none⟩] }]
  fields := [
    ⟨"VariantArrayValue", 1, .named "VariantArray", none⟩,
    ⟨"stringValue", 2, .named "string", none⟩]

/-- What the shelf becomes. -/
def shelfDeclared : Declared where
  decl := .message {
    name := "Shelf"
    nested := [
      .message {
        name := "Shelf_rowsElemArray"
        fields := [⟨"Items", 1, .repeated (.named "string"), none⟩] },
      .union shelfPick]
    fields := [
      ⟨"rows", 1, .repeated (.named "Shelf_rowsElemArray"), none⟩,
      ⟨"pick", 2, .named "Shelf_pick", none⟩] }
  imports := {}
  warnings := []

theorem Document.declared_linked_shelf :
    shelf.declareSchema {} "Shelf" = some (.ok shelfDeclared) ∧
    shelfDeclared.decl.Encloses (.union shelfPick) ∧
    (shelfPick.nested.map Decl.ident).Sublist
      (shelfPick.fields.map fun field => Proto.typeText field.type.base) ∧
    (∀ field ∈ shelfPick.fields, ∃ link, field.type = .named link) ∧
    ∃ node, shelf.schema? "Shelf" = some node ∧ ∀ field ∈ shelfPick.fields,
      ∃ type, Visit.Meets ⟨shelf, {}⟩ (.top "Shelf" node) type ∧
        shelfPick.Holds field (type.boxed alternativeHint none) := by
  have compiled : shelf.declareSchema {} "Shelf" = some (.ok shelfDeclared) := by rfl
  have pick : shelfDeclared.decl.Encloses (.union shelfPick) :=
    .nested (by simp [shelfDeclared, Decl.nested]) .self
  obtain ⟨_, _, linked, exclusive, types⟩ :=
    declared_linked shelf {} "Shelf" shelfDeclared compiled
  exact ⟨compiled, pick, (linked shelfPick (Or.inr pick)).2.2, exclusive shelfPick pick,
    _, rfl, (types _ rfl).2 shelfPick pick⟩

end Protoschema
