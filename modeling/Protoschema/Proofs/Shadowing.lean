import Protoschema.Proofs.DistinctNames
import Protoschema.Proofs.LinkTargets
/-!
What a link to a top-level schema is read as. Such a link is a bare identifier, and a reader looks
for it in the innermost message first. The declarations there have names that were made up, each for
a field and after it; so a link is taken for another declaration only where the name made up for a
field, of the message that has the link or of one around it, is the identifier of the schema that is
meant.
-/

namespace Protoschema

/-- What a name stands for where these scopes are open, the innermost first: the first declaration
of that identifier, in the first scope that has one. -/
def readName (scopes : List (List Decl)) (ident : String) : Option Decl :=
  scopes.findSome? (·.find? fun decl => decl.isDeclaration && decl.ident == ident)

/-! ### Names that are made up for fields -/

/-- The name of a declaration in a box: an element of what the box was made for. -/
def NamesElement (box : String) (field : Field Decl) (name : String) : Prop :=
  ∃ hint ending element, (ending, field.name) ∈ [("Array", "Items"), ("Map", "Entries")] ∧
    box = hint ++ ending ∧ element ∈ elementEndings ∧ name = hint ++ element

/-- An identifier is that of the name made up for a field, and the field's type is called so. -/
def Message.Claims (told : Field Decl → String → Prop) (body : Message Decl) (ident : String) :
    Prop :=
  ∃ field ∈ body.fields, Proto.typeText field.type.base = ident ∧
    ∃ name, told field name ∧ Ident.normalize name = ident

namespace Decl

/-- The fields of a declaration. -/
def fields : Decl → List (Field Decl)
  | .message body | .union body => body.fields
  | .named _ | .enum _ | .map _ _ _ | .repeated _ => []

/-- One of the fields has this identifier from the name made up for it. -/
def Takes : Decl → String → Prop
  | .message body => body.Claims fun field name =>
      NamesProperty body.name field name ∨ NamesElement body.name field name
  | .union body => body.Claims NamesAlternative
  | .named _ | .enum _ | .map _ _ _ | .repeated _ => fun _ => False

/-- Whatever is nested is declared, and has its identifier from a field. -/
def Accounted (decl : Decl) : Prop :=
  ∀ inner ∈ decl.nested, inner.isDeclaration = true ∧ decl.Takes inner.ident

end Decl

theorem Message.claims_addField {told : Field Decl → String → Prop} {body : Message Decl}
    (old : ∀ inner ∈ body.nested, inner.isDeclaration = true ∧ body.Claims told inner.ident)
    {name : String} {type : Decl} {comment : Option String} (flat : type.IsFlat)
    (new : ∀ inner ∈ type.owned, told ⟨name, body.nextNumber, type.link, comment⟩ inner.name) :
    ∀ inner ∈ (body.addField name type comment).nested, inner.isDeclaration = true ∧
      (body.addField name type comment).Claims told inner.ident := by
  intro inner member
  rcases List.mem_append.mp member with earlier | owned
  · obtain ⟨declaration, field, inFields, claimed⟩ := old inner earlier
    exact ⟨declaration, field, List.mem_append_left _ inFields, claimed⟩
  · -- the field's type is the link to what it owns
    have linked := flat.sublist_link.subset (List.mem_map_of_mem owned)
    exact ⟨Decl.isDeclaration_of_mem_owned owned, _, List.mem_append_right _ List.mem_cons_self,
      (List.mem_singleton.mp linked).symm, inner.name, new inner owned, rfl⟩

namespace Decl

/-- What a type owns is named after a hint, and all that is nested in it after fields. -/
structure SettledUnder (hint : String) (decl : Decl) : Prop where
  named : decl.NamedUnder hint
  flat : decl.IsFlat
  inside : ∀ inner ∈ decl.owned, inner.Throughout Accounted

theorem SettledUnder.namesElement {hint : String} {decl inner : Decl}
    (settled : decl.SettledUnder hint) (loose : decl.loose? ≠ none) (member : inner ∈ decl.owned)
    {ending : String} {field : Field Decl}
    (box : (ending, field.name) ∈ [("Array", "Items"), ("Map", "Entries")]) :
    NamesElement (hint ++ ending) field inner.name := by
  obtain ⟨element, listed, name, ends⟩ := settled.named.owns.of_mem member
  -- without an ending, what is owned would stand alone
  rcases List.mem_cons.mp listed with rfl | listed
  · exact absurd (ends.mp rfl) loose
  · exact ⟨hint, ending, element, box, rfl, listed, name⟩

theorem SettledUnder.boxed {hint : String} {decl : Decl} (settled : decl.SettledUnder hint)
    (comment : Option String) :
    ∀ inner ∈ (decl.boxed hint comment).owned, inner.Throughout Accounted := by
  -- a box has a single field, which the elements of what is boxed are named for
  have box {ending label : String} (loose : decl.loose? ≠ none)
      (listed : (ending, label) ∈ [("Array", "Items"), ("Map", "Entries")]) :
      ∀ inner ∈ [Decl.message (Message.addField ⟨hint ++ ending, [], [], comment⟩ label decl none)],
        inner.Throughout Accounted := by
    intro inner member
    cases List.mem_singleton.mp member
    refine .of_nested ?_ settled.inside
    exact Message.claims_addField (by simp) settled.flat fun inner owned =>
      Or.inr (settled.namesElement loose owned listed)
  cases decl with
  | repeated item => exact box (by simp [loose?]) (by simp)
  | map label key value => exact box (by simp [loose?]) (by simp)
  | named | enum | message | union => exact settled.inside

theorem SettledUnder.of_element {hint : String} {decl element : Decl}
    (settled : element.SettledUnder (elementHint hint)) (flat : decl.IsFlat)
    (loose : decl.loose? ≠ none)
    (same : decl.owned = (element.boxed (elementHint hint) none).owned) :
    decl.SettledUnder hint where
  named := settled.named.of_element loose same
  flat := flat
  inside := same ▸ settled.boxed none

end Decl

/-- Declaring names all that is nested after fields. -/
def fieldNaming : DeclInvariant where
  type hint decl := decl.SettledUnder hint
  message body := nestedNaming.message body ∧ (Decl.message body).Accounted ∧
    ∀ inner ∈ body.nested, inner.Throughout Decl.Accounted
  union body := nestedNaming.union body ∧ (Decl.union body).Accounted ∧
    ∀ inner ∈ body.nested, inner.Throughout Decl.Accounted
  named hint name := ⟨nestedNaming.named hint name, trivial, by simp [Decl.owned]⟩
  enum body lead := by
    refine ⟨nestedNaming.enum body lead, trivial, fun inner member => ?_⟩
    cases List.mem_singleton.mp member
    exact .of_nested (by simp [Decl.Accounted, Decl.nested]) (by simp [Decl.nested])
  list hint item settled :=
    .of_element settled (Decl.loose?_boxed _ _ item) (by simp [Decl.loose?]) rfl
  map hint value settled :=
    .of_element settled ⟨rfl, Decl.loose?_boxed _ _ value⟩ (by simp [Decl.loose?]) rfl
  noField name comment :=
    ⟨nestedNaming.noField name comment, by simp [Decl.Accounted, Decl.nested], by simp⟩
  property body name type comment holds free settled := by
    obtain ⟨naming, accounted, inside⟩ := holds
    refine ⟨nestedNaming.property body name type comment naming free settled.named,
      Message.claims_addField accounted settled.flat fun inner owned => Or.inl ?_, ?_⟩
    · obtain ⟨ending, listed, same, ends⟩ := settled.named.owns.of_mem owned
      exact ⟨ending, listed, same, by rw [Decl.loose?_link, ends]⟩
    · intro inner member
      exact (List.mem_append.mp member).elim (inside inner) (settled.inside inner)
  ofMessage body holds := by
    obtain ⟨naming, accounted, inside⟩ := holds
    refine ⟨nestedNaming.ofMessage body naming, trivial, fun inner member => ?_⟩
    cases List.mem_singleton.mp member
    exact .of_nested accounted inside
  noAlternative name comment :=
    ⟨nestedNaming.noAlternative name comment, by simp [Decl.Accounted, Decl.nested], by simp⟩
  alternative body name type comment holds free field settled := by
    obtain ⟨naming, accounted, inside⟩ := holds
    have alone := Decl.loose?_boxed alternativeHint none type
    refine ⟨nestedNaming.alternative body name type comment naming free field settled.named,
      Message.claims_addField accounted (Decl.isFlat_of_loose?_eq_none alone) ?_, ?_⟩
    · exact fun inner owned => settled.named.namesAlternative owned field
    · intro inner member
      exact (List.mem_append.mp member).elim (inside inner) (settled.boxed none inner)
  ofUnion body holds := by
    obtain ⟨naming, accounted, inside⟩ := holds
    refine ⟨nestedNaming.ofUnion body naming, trivial, fun inner member => ?_⟩
    cases List.mem_singleton.mp member
    exact .of_nested accounted inside

theorem Document.accounted_of_declareSchema {document : Document} {options : Options}
    {name : String} {declared : Declared}
    (compiled : document.declareSchema options name = some (.ok declared)) :
    declared.decl.Throughout Decl.Accounted := by
  obtain ⟨type, comment, settled, same⟩ := fieldNaming.of_declareSchema compiled
  have inside := Decl.SettledUnder.boxed settled comment
  rw [← same] at inside
  refine .of_owned inside fun undeclared => ?_
  generalize declared.decl = decl at undeclared
  cases decl with
  | named | map | repeated => simp [Decl.Accounted, Decl.nested]
  | enum | message | union => cases undeclared

theorem Document.accounted_of_compile {document : Document} {options : Options}
    {compilation : Compilation} (compiled : (document.compile options).2 = .ok compilation)
    {decl : Decl} (top : decl ∈ compilation.declarations) : decl.Throughout Decl.Accounted := by
  rw [declarations_of_compile compiled] at top
  obtain ⟨⟨name, error | declared⟩, chosen, same⟩ := List.mem_filterMap.mp top
  · cases same
  · cases same
    exact accounted_of_declareSchema (declareSchema_of_mem_outcomes _ chosen)

/-! ### Reading a link -/

/-- A field of a declaration at any depth, with the messages and unions around it, the innermost
first. -/
inductive Decl.HasField : Decl → Field Decl → List Decl → Prop
  | own {decl : Decl} {field : Field Decl} : field ∈ decl.fields → HasField decl field [decl]
  | nested {outer inner : Decl} {field : Field Decl} {around : List Decl} : inner ∈ outer.nested →
      HasField inner field around → HasField outer field (around ++ [outer])

theorem Decl.HasField.encloses {decl : Decl} {field : Field Decl} {around : List Decl}
    (stands : decl.HasField field around) : ∀ outer ∈ around, decl.Encloses outer := by
  induction stands with
  | own member =>
    intro outer listed
    cases List.mem_singleton.mp listed
    exact .self
  | nested inside _ induction =>
    intro outer listed
    rcases List.mem_append.mp listed with inner | last
    · exact .nested inside (induction outer inner)
    · cases List.mem_singleton.mp last
      exact .self

theorem readName_append_of_free {scopes : List (List Decl)} {ident : String}
    (free : ∀ scope ∈ scopes, ∀ decl ∈ scope, decl.ident ≠ ident) (top : List Decl) :
    readName (scopes ++ [top]) ident = readName [top] ident := by
  have none : readName scopes ident = none := by
    refine List.findSome?_eq_none_iff.mpr fun scope listed => List.find?_eq_none.mpr ?_
    intro decl member
    simp [free scope listed decl member]
  rw [readName, List.findSome?_append]
  exact congrArg (Option.or · _) none

theorem readName_append_of_mem {scopes : List (List Decl)} {scope : List Decl} {decl : Decl}
    (opened : scope ∈ scopes) (member : decl ∈ scope) (declaration : decl.isDeclaration = true)
    (top : List Decl) :
    ∃ scope ∈ scopes, ∃ inner ∈ scope, readName (scopes ++ [top]) decl.ident = some inner := by
  cases read : readName scopes decl.ident with
  | none =>
    have missing := List.find?_eq_none.mp (List.findSome?_eq_none_iff.mp read scope opened)
    simpa [declaration] using missing decl member
  | some inner =>
    obtain ⟨scope, opened, search⟩ := List.exists_of_findSome?_eq_some read
    refine ⟨scope, opened, inner, List.mem_of_find?_eq_some search, ?_⟩
    rw [readName, List.findSome?_append]
    exact congrArg (Option.or · _) read

theorem readName_top {top : List Decl} {decl : Decl} (member : decl ∈ top)
    (declaration : decl.isDeclaration = true)
    (only : ∀ other ∈ top, other.isDeclaration = true → other.ident = decl.ident → other = decl) :
    readName [top] decl.ident = some decl := by
  have single : readName [top] decl.ident
      = top.find? fun other => other.isDeclaration && other.ident == decl.ident := by
    simp [readName]
  rw [single]
  cases search : top.find? fun other => other.isDeclaration && other.ident == decl.ident with
  | none => simpa [declaration] using List.find?_eq_none.mp search decl member
  | some other =>
    have fits := List.find?_some search
    simp only [Bool.and_eq_true, beq_iff_eq] at fits
    rw [only other (List.mem_of_find?_eq_some search) fits.1 fits.2]

/-- Only a name that is made up for a field can come between a link and the schema that it is to.

Take a field that is typed by the link to a top-level schema with a declaration, in what a schema
has become, and a message or union around it. If none of the fields there has the identifier of the
schema from the name made up for it, nothing nested there is called like the schema. The name made
up is that of the message and that of the field, with an ending for an element of a list or a map;
in a box it is the name that is boxed with such an ending, and in a union it is the one for
alternatives.

If nothing nested around the field is called like the schema, the link is read as the schema's own
declaration; otherwise it is read as something nested. -/
theorem Document.links_read_as_schemas (document : Document) (unbound : document.Unbound)
    (options : Options) (compilation : Compilation)
    (compiled : (document.compile options).2 = .ok compilation) (decl : Decl)
    (top : decl ∈ compilation.declarations) (field : Field Decl) (around : List Decl)
    (stands : decl.HasField field around) (reference : Reference)
    (listed : reference ∈ (document.bind options.only).1.references) (link root : String)
    (here : reference.binding = some (.here link ⟨root, []⟩))
    (linked : field.type.base = .named link) (node : Node)
    (found : (document.bind options.only).1.schema? root = some node)
    (declares : (Shape.of node).declares = true) :
    (∀ outer ∈ around, ¬outer.Takes (Ident.normalize root) →
      ∀ inner ∈ outer.nested, inner.ident ≠ Ident.normalize root) ∧
    ((∀ outer ∈ around, ∀ inner ∈ outer.nested, inner.ident ≠ Ident.normalize root) →
      ∀ own, (document.bind options.only).1.declareSchema options root = some (.ok own) →
        own.decl ∈ compilation.declarations →
        (∀ other ∈ compilation.declarations, other.isDeclaration = true →
          other.ident = Ident.normalize root → other = own.decl) →
        readName (around.map Decl.nested ++ [compilation.declarations])
          (Proto.typeText field.type.base) = some own.decl) ∧
    ((∃ outer ∈ around, ∃ inner ∈ outer.nested, inner.ident = Ident.normalize root) →
      ∃ outer ∈ around, ∃ inner ∈ outer.nested,
        readName (around.map Decl.nested ++ [compilation.declarations])
          (Proto.typeText field.type.base) = some inner) := by
  have accounted {outer : Decl} (passed : outer ∈ around) : outer.Accounted :=
    accounted_of_compile compiled top outer (stands.encloses outer passed)
  -- the name of a top-level place is the identifier of its schema, and is written as it is
  have bound := unbound.boundIn_of_bound listed (by simp [here])
  have name : link = Ident.normalize root := by simpa [hintsAlong] using bound.name here
  have text : Proto.typeText field.type.base = Ident.normalize root := by
    rw [linked, Proto.typeText_named, name, Ident.qualified_normalize]
  rw [text]
  refine ⟨fun outer passed spared inner member same => ?_, fun free own declared present only => ?_,
    ?_⟩
  · exact spared (same ▸ (accounted passed inner member).2)
  · have become := declareSchema_becomes declared found declares
    have ident : own.decl.ident = Ident.normalize root :=
      congrArg Ident.normalize (become.name declares)
    have unnamed : ∀ scope ∈ around.map Decl.nested, ∀ inner ∈ scope,
        inner.ident ≠ Ident.normalize root := by
      intro scope opened
      obtain ⟨outer, passed, rfl⟩ := List.mem_map.mp opened
      exact free outer passed
    rw [readName_append_of_free unnamed, ← ident]
    exact readName_top present (become.isDeclaration declares) (ident.symm ▸ only)
  · rintro ⟨outer, passed, inner, member, same⟩
    have declaration := (accounted passed inner member).1
    obtain ⟨scope, opened, read⟩ := readName_append_of_mem (List.mem_map_of_mem passed) member
      declaration compilation.declarations
    obtain ⟨outer, passed, rfl⟩ := List.mem_map.mp opened
    rw [same] at read
    exact ⟨outer, passed, read⟩

/-- An object with a single property. -/
def objectOf (property : String) (node : Node) : Schema Node where
  type := some .object
  order := [property]
  properties := [(property, node)]

def textNode : Node := .inline { type := some .string }

/-- A pet whose owner has a vet, which is a schema called like a property of the pet. -/
def petWithVet : Document where
  schemas := [
    ("Pet", .inline (objectOf "owner" (.inline (objectOf "vet"
      (.ref { pointer := "#/components/schemas/Pet_vet" }))))),
    ("Pet_vet", .inline (objectOf "license" textNode))]

def vetReference : Reference where
  pointer := "#/components/schemas/Pet_vet"
  binding := some (.here "Pet_vet" ⟨"Pet_vet", []⟩)

def vetField : Field Decl := ⟨"vet", 1, .named "Pet_vet", none⟩

def ownerWithVet : Decl := .message { name := "Pet_owner", fields := [vetField] }

def petWithOwner : Decl :=
  .message {
    name := "Pet"
    nested := [ownerWithVet]
    fields := [⟨"owner", 1, .named "Pet_owner", none⟩] }

def licensed (name : String) : Decl :=
  .message { name, fields := [⟨"license", 1, .named "string", none⟩] }

theorem Document.links_read_as_schemas_petWithVet :
    petWithVet.Unbound ∧
    (petWithVet.compile {}).2 = .ok { declarations := [petWithOwner, licensed "Pet_vet"] } ∧
    vetReference ∈ (petWithVet.bind none).1.references ∧
    petWithOwner.HasField vetField [ownerWithVet, petWithOwner] ∧
    (∀ outer ∈ [ownerWithVet, petWithOwner], ¬outer.Takes (Ident.normalize "Pet_vet")) ∧
    readName [ownerWithVet.nested, petWithOwner.nested, [petWithOwner, licensed "Pet_vet"]]
      (Proto.typeText vetField.type) = some (licensed "Pet_vet") := by
  have unbound : petWithVet.Unbound := by
    simp [Unbound, references, petWithVet, objectOf, textNode, Schema.children]
  have declared : (petWithVet.bind none).1.declareSchema {} "Pet_vet"
      = some (.ok ⟨licensed "Pet_vet", {}, []⟩) := rfl
  have compiled : (petWithVet.compile {}).2
      = .ok { declarations := [petWithOwner, licensed "Pet_vet"] } :=
    compile_pair rfl (by decide) rfl declared rfl
  have listed : vetReference ∈ (petWithVet.bind none).1.references := by decide +kernel
  have stands : petWithOwner.HasField vetField ([ownerWithVet] ++ [petWithOwner]) :=
    .nested (by simp [petWithOwner, Decl.nested]) (.own (by simp [ownerWithVet, Decl.fields]))
  have spared : ∀ outer ∈ [ownerWithVet, petWithOwner],
      ¬outer.Takes (Ident.normalize "Pet_vet") := by
    have names : ∀ ending ∈ "" :: elementEndings,
        Ident.normalize ("Pet_owner" ++ "_" ++ "vet" ++ ending) ≠ Ident.normalize "Pet_vet" := by
      decide +kernel
    have types : Proto.typeText (.named "Pet_owner") ≠ Ident.normalize "Pet_vet" := by
      decide +kernel
    simp only [List.forall_mem_cons, List.not_mem_nil, false_implies, implies_true, and_true]
    constructor
    · -- the name for the vet of an owner is a longer one, and an owner is no box
      rintro ⟨field, member, -, name, ⟨ending, ends, rfl, -⟩ | ⟨_, _, _, box, -⟩, same⟩
      · cases List.mem_singleton.mp member
        exact names ending ends same
      · cases List.mem_singleton.mp member
        simp [vetField] at box
    · rintro ⟨field, member, typed, -⟩
      cases List.mem_singleton.mp member
      exact types typed
  have only : ∀ other ∈ [petWithOwner, licensed "Pet_vet"], other.isDeclaration = true →
      other.ident = Ident.normalize "Pet_vet" → other = licensed "Pet_vet" := by
    have differ : petWithOwner.ident ≠ Ident.normalize "Pet_vet" := by decide +kernel
    rintro other member - same
    rcases List.mem_cons.mp member with rfl | last
    · exact absurd same differ
    · exact List.mem_singleton.mp last
  obtain ⟨free, read, -⟩ := links_read_as_schemas petWithVet unbound {} _ compiled _
    List.mem_cons_self _ _ stands vetReference listed _ _ rfl rfl _ rfl rfl
  have free := fun outer passed => free outer passed (spared outer passed)
  exact ⟨unbound, compiled, listed, stands, spared, read free _ declared (by simp) only⟩

/-- A pet that is sold by another one than its owner, who is described in place. -/
def petWithSeller : Document where
  schemas := [
    ("Pet", .inline {
      type := some .object
      order := ["owner", "seller"]
      properties := [
        ("owner", .inline (objectOf "name" textNode)),
        ("seller", .ref { pointer := "#/components/schemas/Pet_owner" })] }),
    ("Pet_owner", .inline (objectOf "license" textNode))]

def ownerReference : Reference where
  pointer := "#/components/schemas/Pet_owner"
  binding := some (.here "Pet_owner" ⟨"Pet_owner", []⟩)

def sellerField : Field Decl := ⟨"seller", 2, .named "Pet_owner", none⟩

def ownerInPlace : Decl :=
  .message { name := "Pet_owner", fields := [⟨"name", 1, .named "string", none⟩] }

def soldPet : Decl :=
  .message {
    name := "Pet"
    nested := [ownerInPlace]
    fields := [⟨"owner", 1, .named "Pet_owner", none⟩, sellerField] }

/-- Names that are made up are not compared with those of schemas: the link to the seller's schema
is read as what the owner has become. -/
theorem Document.link_captured_petWithSeller :
    petWithSeller.Unbound ∧
    (petWithSeller.compile {}).2 = .ok { declarations := [soldPet, licensed "Pet_owner"] } ∧
    ownerReference ∈ (petWithSeller.bind none).1.references ∧
    (petWithSeller.bind none).1.schema? "Pet_owner"
      = some (.inline (objectOf "license" textNode)) ∧
    (Shape.of (.inline (objectOf "license" textNode))).declares = true ∧
    soldPet.HasField sellerField [soldPet] ∧ sellerField.type.base = .named "Pet_owner" ∧
    ownerInPlace ∈ soldPet.nested ∧ ownerInPlace.ident = Ident.normalize "Pet_owner" ∧
    readName [soldPet.nested, [soldPet, licensed "Pet_owner"]]
      (Proto.typeText sellerField.type) = some ownerInPlace := by
  have unbound : petWithSeller.Unbound := by
    simp [Unbound, references, petWithSeller, objectOf, textNode, Schema.children]
  have compiled : (petWithSeller.compile {}).2
      = .ok { declarations := [soldPet, licensed "Pet_owner"] } :=
    compile_pair rfl (by decide) rfl rfl rfl
  exact ⟨unbound, compiled, by decide +kernel, rfl, rfl, .own (by simp [soldPet, Decl.fields]), rfl,
    List.mem_cons_self, rfl, rfl⟩

end Protoschema
