import Protoschema.Proofs.Identifiers
import Protoschema.Proofs.Invariants
import Protoschema.Proto
/-!
Who owns a declaration, and how it is linked. In what a schema becomes, a field has a type by name,
a list of one or a map to one, and never holds a declaration: the declarations of its type belong to
the message, in the order of the fields, and the field names each of them by the identifier it is
emitted under.
-/

namespace Protoschema

theorem Proto.typeText_named (name : String) : typeText (.named name) = Ident.qualified name := rfl

namespace Decl

/-- The types of fields: a name, a list of a name, or a map from strings to a name. -/
inductive IsFieldType : Decl → Prop
  | named (name : String) : IsFieldType (.named name)
  | list (name : String) : IsFieldType (.repeated (.named name))
  | map (label name : String) : IsFieldType (.map label "string" (.named name))

/-- What a list or a map is of. -/
def base : Decl → Decl
  | .repeated item => item.base
  | .map _ _ value => value.base
  | decl => decl

/-- A type without a list or a map inside of another one. -/
def IsFlat : Decl → Prop
  | .repeated item => item.loose? = none
  | .map _ key value => key = "string" ∧ value.loose? = none
  | _ => True

end Decl

/-- A message whose fields have types by name and link, in order, to what the message owns. -/
structure Message.Linked (body : Message Decl) : Prop where
  types : ∀ field ∈ body.fields, field.type.IsFieldType
  declarations : ∀ decl ∈ body.nested, decl.isDeclaration = true
  links : (body.nested.map Decl.ident).Sublist
    (body.fields.map fun field => Proto.typeText field.type.base)

/-- The fields of a union are neither lists nor maps. -/
def Message.Exclusive (body : Message Decl) : Prop :=
  ∀ field ∈ body.fields, ∃ name, field.type = .named name

/-- Declarations in which, at any depth, messages are linked and the fields of unions have types by
name alone; the values of enums carry nothing in front, or the lead of their enum. -/
inductive Decl.Orderly : Decl → Prop
  | enum {body : Enum} : (∀ lead ∈ body.lead, lead = enumLead body.name) → Orderly (.enum body)
  | message {body : Message Decl} : body.Linked → (∀ decl ∈ body.nested, Orderly decl) →
      Orderly (.message body)
  | union {body : Message Decl} : body.Linked → body.Exclusive →
      (∀ decl ∈ body.nested, Orderly decl) → Orderly (.union body)

namespace Decl

theorem Orderly.nested {decl inner : Decl} (orderly : decl.Orderly) (member : inner ∈ decl.nested) :
    inner.Orderly := by
  cases orderly with
  | enum => cases member
  | message _ nested => exact nested inner member
  | union _ _ nested => exact nested inner member

theorem Orderly.encloses {decl inner : Decl} (orderly : decl.Orderly)
    (encloses : decl.Encloses inner) : inner.Orderly := by
  induction encloses with
  | self => exact orderly
  | nested member _ induction => exact induction (orderly.nested member)

/-! ### Types and what a field keeps of them -/

theorem isFlat_of_loose?_eq_none {decl : Decl} (alone : decl.loose? = none) : decl.IsFlat := by
  cases decl with
  | repeated | map => cases alone
  | named | enum | message | union => trivial

/-- The link to a type that stands alone names what it owns. -/
theorem link_of_loose?_eq_none {decl : Decl} (alone : decl.loose? = none) :
    ∃ name, decl.link = .named name ∧
      (decl.owned.map ident).Sublist [Proto.typeText (.named name)] := by
  cases decl with
  | named name => exact ⟨name, rfl, List.nil_sublist _⟩
  | repeated | map => cases alone
  | enum body | message body | union body =>
    refine ⟨_, rfl, ?_⟩
    -- the link is an identifier already, so that writing it changes nothing
    simp [owned, ident, Proto.typeText_named, name]

theorem IsFlat.isFieldType_link {decl : Decl} (flat : decl.IsFlat) : decl.link.IsFieldType := by
  cases decl with
  | repeated item =>
    obtain ⟨name, link, _⟩ := link_of_loose?_eq_none flat
    rw [Decl.link, link]
    exact .list name
  | map label key value =>
    obtain ⟨rfl, alone⟩ := flat
    obtain ⟨name, link, _⟩ := link_of_loose?_eq_none alone
    rw [Decl.link, link]
    exact .map label name
  | named | enum | message | union => exact .named _

theorem IsFlat.sublist_link {decl : Decl} (flat : decl.IsFlat) :
    (decl.owned.map ident).Sublist [Proto.typeText decl.link.base] := by
  have standing (type : Decl) (alone : type.loose? = none) :
      (type.owned.map ident).Sublist [Proto.typeText type.link.base] := by
    obtain ⟨name, link, sublist⟩ := link_of_loose?_eq_none alone
    rw [link]
    exact sublist
  cases decl with
  | repeated item => exact standing item flat
  | map label key value => exact standing value flat.2
  | named | enum | message | union => exact standing _ rfl

theorem isDeclaration_of_mem_owned {decl inner : Decl} (member : inner ∈ decl.owned) :
    inner.isDeclaration = true := by
  fun_induction owned decl with
  | case1 => cases member
  | case2 | case5 | case6 =>
    cases List.mem_singleton.mp member
    rfl
  | case3 _ _ value induction => exact induction member
  | case4 item induction => exact induction member

end Decl

/-! ### What keeps messages linked -/

namespace Message

theorem linked_empty (name : String) (comment : Option String) :
    Linked ⟨name, [], [], comment⟩ where
  types := by simp
  declarations := by simp
  links := List.Sublist.slnil

theorem Linked.addField {body : Message Decl} (linked : body.Linked) {type : Decl}
    (flat : type.IsFlat) (name : String) (comment : Option String) :
    (body.addField name type comment).Linked where
  types field member := by
    rcases List.mem_append.mp member with old | new
    · exact linked.types field old
    · cases List.mem_singleton.mp new
      exact flat.isFieldType_link
  declarations decl member := by
    rcases List.mem_append.mp member with old | new
    · exact linked.declarations decl old
    · exact Decl.isDeclaration_of_mem_owned new
  links := by
    -- the new declarations come last, and so does the field that links to them
    simp only [Message.addField, List.map_append, List.map_cons, List.map_nil]
    exact linked.links.append flat.sublist_link

end Message

namespace Decl

/-- What is put into a field type stands alone, and all that it owns is orderly. -/
def IsOrderlyType (decl : Decl) : Prop :=
  decl.IsFlat ∧ ∀ inner ∈ decl.owned, inner.Orderly

theorem loose?_boxed (name : String) (comment : Option String) (decl : Decl) :
    (decl.boxed name comment).loose? = none := by
  cases decl <;> rfl

theorem IsOrderlyType.boxed {decl : Decl} (orderly : decl.IsOrderlyType) (name : String)
    (comment : Option String) : (decl.boxed name comment).IsOrderlyType := by
  have flat := isFlat_of_loose?_eq_none (loose?_boxed name comment decl)
  refine ⟨flat, ?_⟩
  have box (label field : String) : ∀ inner ∈
      [Decl.message (Message.addField ⟨label, [], [], comment⟩ field decl none)],
      inner.Orderly := by
    intro inner member
    cases List.mem_singleton.mp member
    have linked := (Message.linked_empty label comment).addField orderly.1 field none
    exact .message linked orderly.2
  cases decl with
  | repeated item => exact box _ _
  | map label key value => exact box _ _
  | named | enum | message | union => exact orderly.2

end Decl

/-- Declaring links every message to what it owns. -/
def ownership : DeclInvariant where
  type _ decl := decl.IsOrderlyType
  message body := body.Linked ∧ ∀ inner ∈ body.nested, inner.Orderly
  union body := body.Linked ∧ body.Exclusive ∧ ∀ inner ∈ body.nested, inner.Orderly
  named _ _ := ⟨trivial, by simp [Decl.owned]⟩
  enum body lead := by
    refine ⟨trivial, fun inner member => ?_⟩
    cases List.mem_singleton.mp member
    exact .enum lead
  list hint item orderly := ⟨Decl.loose?_boxed _ _ item, (orderly.boxed _ _).2⟩
  map hint value orderly := ⟨⟨rfl, Decl.loose?_boxed _ _ value⟩, (orderly.boxed _ _).2⟩
  noField name comment := ⟨Message.linked_empty name comment, by simp⟩
  property body name type comment linked _ orderly := by
    refine ⟨linked.1.addField orderly.1 name comment, fun inner member => ?_⟩
    rcases List.mem_append.mp member with old | new
    · exact linked.2 inner old
    · exact orderly.2 inner new
  ofMessage body linked := by
    refine ⟨trivial, fun inner member => ?_⟩
    cases List.mem_singleton.mp member
    exact .message linked.1 linked.2
  noAlternative name comment :=
    ⟨Message.linked_empty name comment, by simp [Message.Exclusive], by simp⟩
  alternative body name type comment linked _ _ orderly := by
    obtain ⟨linked, exclusive, nested⟩ := linked
    have boxed := orderly.boxed alternativeHint none
    refine ⟨linked.addField boxed.1 name comment, fun field member => ?_, fun inner member => ?_⟩
    · rcases List.mem_append.mp member with old | new
      · exact exclusive field old
      · cases List.mem_singleton.mp new
        -- an alternative is boxed, and the link to what stands alone is a name
        obtain ⟨link, same, _⟩ :=
          Decl.link_of_loose?_eq_none (Decl.loose?_boxed alternativeHint none type)
        exact ⟨link, same⟩
    · rcases List.mem_append.mp member with old | new
      · exact nested inner old
      · exact boxed.2 inner new
  ofUnion body linked := by
    refine ⟨trivial, fun inner member => ?_⟩
    cases List.mem_singleton.mp member
    exact .union linked.1 linked.2.1 linked.2.2

/-- What a top-level schema becomes stands alone, and is orderly if it is declared at all. -/
theorem Document.declareSchema_orderly {document : Document} {options : Options} {name : String}
    {declared : Declared} (compiled : document.declareSchema options name = some (.ok declared)) :
    declared.decl.loose? = none ∧ ∀ inner ∈ declared.decl.owned, inner.Orderly := by
  obtain ⟨type, comment, orderly, same⟩ := ownership.of_declareSchema compiled
  rw [same]
  exact ⟨Decl.loose?_boxed name comment type, (Decl.IsOrderlyType.boxed orderly name comment).2⟩

theorem Decl.mem_owned_self {decl : Decl} (declaration : decl.isDeclaration = true) :
    decl ∈ decl.owned := by
  cases decl with
  | enum | message | union => exact List.mem_cons_self
  | named | map | repeated => cases declaration

theorem Decl.orderly_of_isDeclaration {decl : Decl} (declaration : decl.isDeclaration = true)
    (orderly : ∀ inner ∈ decl.owned, inner.Orderly) : decl.Orderly :=
  orderly decl (mem_owned_self declaration)

end Protoschema
