import Protoschema.Proofs.FieldNumbering
import Protoschema.Proofs.Modes
import Protoschema.Proofs.Ownership
/-!
Whether two declarations of one scope have the same identifier. Nothing compares the names of
declarations: each is made of a source name and of an ending for what it was made from, and a source
name may end like that too. Where none does, identifiers are distinct, at the top level and in every
message; in a union they always are, because its fields are named after what it owns and these are
compared.
-/

namespace Protoschema

/-! ### Endings -/

/-- Endings that identifiers can have, and of which no two have the same last character. -/
structure EndingsApart (endings : List String) : Prop where
  stable : ∀ ending ∈ endings, Ident.normalize ending = ending
  some : "" ∉ endings
  last : ∀ ending ∈ endings, ∀ other ∈ endings,
    ending.toList.getLast? = other.toList.getLast? → ending = other

namespace EndingsApart

variable {endings : List String} (apart : EndingsApart endings)

include apart

theorem cancel {ending other : String} (listed : ending ∈ endings) (listed' : other ∈ endings)
    {name name' : String} (same : name ++ ending = name' ++ other) :
    name = name' ∧ ending = other := by
  have lists := congrArg String.toList same
  rw [String.toList_append, String.toList_append] at lists
  have last (ending : String) (listed : ending ∈ endings) (lead : List Char) :
      (lead ++ ending.toList).getLast? = ending.toList.getLast? := by
    have some : ending.toList ≠ [] := by
      intro empty
      rw [String.toList_eq_nil_iff] at empty
      exact apart.some (empty ▸ listed)
    exact List.getLast?_append_of_ne_nil lead some
  have lasts := congrArg List.getLast? lists
  rw [last ending listed, last other listed'] at lasts
  obtain rfl := apart.last ending listed other listed' lasts
  exact ⟨String.toList_inj.mp (List.append_cancel_right lists), rfl⟩

/-- Two names that are the same with their endings are the same without, or one of them has none and
is the other one with its ending. -/
theorem eq_or_extends {ending other : String} (listed : ending ∈ "" :: endings)
    (listed' : other ∈ "" :: endings) {name name' : String}
    (same : Ident.normalize (name ++ ending) = Ident.normalize (name' ++ other)) :
    Ident.normalize name = Ident.normalize name' ∨
    (ending = "" ∧ other ∈ endings ∧ Ident.normalize name = Ident.normalize name' ++ other) ∨
    (other = "" ∧ ending ∈ endings ∧ Ident.normalize name' = Ident.normalize name ++ ending) := by
  have split (ending : String) (listed : ending ∈ endings) (name : String) :
      Ident.normalize (name ++ ending) = Ident.normalize name ++ ending :=
    Ident.normalize_append_of_normalize_eq (apart.stable ending listed) name
  rcases List.mem_cons.mp listed with rfl | inside
  · rw [String.append_empty] at same
    rcases List.mem_cons.mp listed' with rfl | inside'
    · rw [String.append_empty] at same
      exact Or.inl same
    · rw [split other inside'] at same
      exact Or.inr (Or.inl ⟨rfl, inside', same⟩)
  · rw [split ending inside] at same
    rcases List.mem_cons.mp listed' with rfl | inside'
    · rw [String.append_empty] at same
      exact Or.inr (Or.inr ⟨rfl, inside, same.symm⟩)
    · rw [split other inside'] at same
      exact Or.inl (apart.cancel inside inside' same).1

end EndingsApart

/-- What boxing puts after a name. -/
def boxEndings : List String := ["Array", "Map"]

/-- What follows a hint in the name of an item of a list or a value of a map. -/
def elementEndings : List String := ("" :: boxEndings).map ("Elem" ++ ·)

theorem boxEndings_apart : EndingsApart boxEndings where
  stable := by decide +kernel
  some := by decide
  last := by decide +kernel

theorem elementEndings_apart : EndingsApart elementEndings where
  stable := by decide +kernel
  some := by decide
  last := by decide +kernel

/-! ### Nested declarations and the fields that they are from -/

namespace Decl

/-- A type with at most one declaration, whose name is one of these. -/
def OwnsOnly (names : String → Prop) (decl : Decl) : Prop :=
  decl.owned = [] ∨ ∃ inner, decl.owned = [inner] ∧ names inner.name

theorem OwnsOnly.mono {names names' : String → Prop} {decl decl' : Decl}
    (owns : decl.OwnsOnly names) (same : decl'.owned = decl.owned)
    (more : ∀ inner ∈ decl.owned, names inner.name → names' inner.name) :
    decl'.OwnsOnly names' := by
  rcases owns with none | ⟨inner, only, named⟩
  · exact Or.inl (same.trans none)
  · exact Or.inr ⟨inner, same.trans only, more inner (by simp [only]) named⟩

theorem OwnsOnly.of_mem {names : String → Prop} {decl inner : Decl} (owns : decl.OwnsOnly names)
    (member : inner ∈ decl.owned) : names inner.name := by
  rcases owns with none | ⟨other, only, named⟩
  · rw [none] at member
    cases member
  · rw [only] at member
    cases List.mem_singleton.mp member
    exact named

theorem OwnsOnly.length_le {names : String → Prop} {decl : Decl} (owns : decl.OwnsOnly names) :
    decl.owned.length ≤ 1 := by
  rcases owns with none | ⟨inner, only, _⟩
  · simp [none]
  · simp [only]

/-- What stands alone owns itself, if anything. -/
theorem eq_of_mem_owned {decl inner : Decl} (alone : decl.loose? = none)
    (member : inner ∈ decl.owned) : inner = decl := by
  cases decl with
  | named => cases member
  | repeated | map => cases alone
  | enum | message | union => exact List.mem_singleton.mp member

theorem loose?_link (decl : Decl) : decl.link.loose? = decl.loose? := by
  cases decl <;> rfl

end Decl

/-- Each nested declaration is from a field of its own, and its name is told by the field. -/
def Message.NestedBy (told : Field Decl → String → Prop) (body : Message Decl) : Prop :=
  ∃ sources : List (Field Decl × String), (sources.map Prod.fst).Sublist body.fields ∧
    sources.map Prod.snd = body.nested.map Decl.name ∧
    ∀ source ∈ sources, told source.1 source.2

namespace Message.NestedBy

variable {told : Field Decl → String → Prop}

theorem empty (name : String) (comment : Option String) :
    NestedBy told ⟨name, [], [], comment⟩ :=
  ⟨[], .slnil, rfl, by simp⟩

theorem addField {body : Message Decl} (nested : body.NestedBy told) {name : String} {type : Decl}
    {comment : Option String}
    (owns : type.OwnsOnly (told ⟨name, body.nextNumber, type.link, comment⟩)) :
    (body.addField name type comment).NestedBy told := by
  obtain ⟨sources, fields, names, all⟩ := nested
  rcases owns with none | ⟨inner, only, named⟩
  · refine ⟨sources, fields.trans (List.sublist_append_left _ _), ?_, all⟩
    rw [names, Message.addField, none, List.append_nil]
  · refine ⟨sources ++ [(⟨name, body.nextNumber, type.link, comment⟩, inner.name)], ?_, ?_, ?_⟩
    · rw [List.map_append]
      exact fields.append (List.Sublist.refl _)
    · rw [List.map_append, names, Message.addField, only, List.map_append]
      rfl
    · intro source member
      rcases List.mem_append.mp member with old | new
      · exact all source old
      · cases List.mem_singleton.mp new
        exact named

/-- If a declaration's identifier tells that of its field, nested declarations are as distinct as
fields are. -/
theorem nodup {body : Message Decl} (nested : body.NestedBy told)
    (distinct : (body.fields.map fun field => Ident.normalize field.name).Nodup)
    (tells : ∀ field ∈ body.fields, ∀ other ∈ body.fields, ∀ name name', told field name →
      told other name' → Ident.normalize name = Ident.normalize name' →
      Ident.normalize field.name = Ident.normalize other.name) :
    (body.nested.map Decl.ident).Nodup := by
  obtain ⟨sources, fields, names, all⟩ := nested
  have idents : body.nested.map Decl.ident
      = sources.map fun source => Ident.normalize source.2 := by
    have lists := congrArg (List.map Ident.normalize) names
    rw [List.map_map, List.map_map] at lists
    exact lists.symm
  have apart : sources.Pairwise fun source other =>
      Ident.normalize source.1.name ≠ Ident.normalize other.1.name := by
    have inFields := (List.pairwise_map.mp distinct).sublist fields
    rw [List.pairwise_map] at inFields
    exact inFields
  have inside {source : Field Decl × String} (member : source ∈ sources) :
      source.1 ∈ body.fields :=
    fields.subset (List.mem_map_of_mem member)
  rw [idents]
  refine List.pairwise_map.mpr (apart.imp_of_mem fun first second differ same => differ ?_)
  exact tells _ (inside first) _ (inside second) _ _ (all _ first) (all _ second) same

end Message.NestedBy

/-- The name of a declaration from a property: nothing follows the property's name exactly if its
type stands alone. -/
def NamesProperty (message : String) (field : Field Decl) (name : String) : Prop :=
  ∃ ending ∈ "" :: elementEndings, name = message ++ "_" ++ field.name ++ ending ∧
    (ending = "" ↔ field.type.loose? = none)

/-- The names that there are for declarations from alternatives. -/
def alternativeNames : List String := ("" :: boxEndings).map (alternativeHint ++ ·)

theorem normalize_of_mem_alternativeNames : ∀ name ∈ alternativeNames,
    Ident.normalize name = name := by decide +kernel

theorem unqualified_of_mem_alternativeNames : ∀ name ∈ alternativeNames,
    Ident.unqualified name = name := by decide +kernel

/-- The name of a declaration from an alternative, after which its field is named. -/
def NamesAlternative (field : Field Decl) (name : String) : Prop :=
  name ∈ alternativeNames ∧ field.name = name ++ "Value"

/-- No field that stands alone is called like the element of a list or a map in another field. -/
def Message.Unambiguous (body : Message Decl) : Prop :=
  ∀ field ∈ body.fields, ∀ other ∈ body.fields, field.type.loose? = none →
    other.type.loose? ≠ none → ∀ ending ∈ elementEndings,
      Ident.normalize field.name ≠ Ident.normalize other.name ++ ending

theorem Message.NestedBy.nodup_of_unambiguous {body : Message Decl}
    (nested : body.NestedBy (NamesProperty body.name)) (numbered : body.Numbered)
    (unambiguous : body.Unambiguous) : (body.nested.map Decl.ident).Nodup := by
  refine nested.nodup numbered.names ?_
  rintro field member other member' _ _ ⟨ending, listed, rfl, alone⟩ ⟨ending', listed', rfl, alone'⟩
    same
  have lead : body.name ++ "_" ≠ "" := by
    intro empty
    simpa using congrArg String.toList empty
  have assoc (name ending : String) :
      body.name ++ "_" ++ name ++ ending = body.name ++ "_" ++ (name ++ ending) :=
    String.append_assoc
  rw [assoc, assoc] at same
  -- what is left of the names are the properties with their endings
  have rests := Ident.normalize_append_cancel lead same
  rcases elementEndings_apart.eq_or_extends listed listed' rests with
    equal | ⟨rfl, loose, longer⟩ | ⟨rfl, loose, longer⟩
  · exact equal
  · have stands := alone.mp rfl
    have hangs : other.type.loose? ≠ none := fun none =>
      elementEndings_apart.some (alone'.mpr none ▸ loose)
    exact absurd longer (unambiguous field member other member' stands hangs _ loose)
  · have stands := alone'.mp rfl
    have hangs : field.type.loose? ≠ none := fun none =>
      elementEndings_apart.some (alone.mpr none ▸ loose)
    exact absurd longer (unambiguous other member' field member stands hangs _ loose)

theorem Message.NestedBy.nodup_of_alternatives {body : Message Decl}
    (nested : body.NestedBy NamesAlternative) (numbered : body.Numbered) :
    (body.nested.map Decl.ident).Nodup := by
  refine nested.nodup numbered.names ?_
  rintro field _ other _ name name' ⟨listed, named⟩ ⟨listed', named'⟩ same
  -- the names are identifiers already, so that they are the same themselves
  rw [normalize_of_mem_alternativeNames name listed,
    normalize_of_mem_alternativeNames name' listed'] at same
  rw [named, named', same]

/-! ### What declaring keeps -/

namespace Decl

/-- A declaration all the way down has a property. -/
def Throughout (fine : Decl → Prop) (decl : Decl) : Prop :=
  ∀ inner, decl.Encloses inner → fine inner

theorem Throughout.of_nested {fine : Decl → Prop} {decl : Decl} (self : fine decl)
    (nested : ∀ inner ∈ decl.nested, inner.Throughout fine) : decl.Throughout fine := by
  intro inner encloses
  cases encloses with
  | self => exact self
  | nested member encloses => exact nested _ member inner encloses

/-- What holds throughout the declarations that a type owns holds throughout the type. -/
theorem Throughout.of_owned {fine : Decl → Prop} {decl : Decl}
    (owned : ∀ inner ∈ decl.owned, inner.Throughout fine)
    (otherwise : decl.isDeclaration = false → fine decl) : decl.Throughout fine := by
  cases decl with
  | enum | message | union => exact owned _ List.mem_cons_self
  | named | map | repeated => exact .of_nested (otherwise rfl) (by simp [nested])

/-- Names of nested declarations as declaring makes them. A message that something was boxed in owns
one at most. -/
def Tidy : Decl → Prop
  | .message body => body.Numbered ∧
      (body.nested.length ≤ 1 ∨ body.NestedBy (NamesProperty body.name))
  | .union body => body.Numbered ∧ body.NestedBy NamesAlternative
  | .named _ | .enum _ | .map _ _ _ | .repeated _ => True

/-- What a type owns is named after a hint. -/
structure NamedUnder (hint : String) (decl : Decl) : Prop where
  owns : decl.OwnsOnly fun name => ∃ ending ∈ "" :: elementEndings, name = hint ++ ending ∧
    (ending = "" ↔ decl.loose? = none)
  inside : ∀ inner ∈ decl.owned, inner.Throughout Tidy

/-- What stands under a hint is named by it. -/
theorem NamedUnder.of_standing {hint : String} {decl : Decl} (alone : decl.loose? = none)
    (named : ∀ inner ∈ decl.owned, inner.name = hint ∧ inner.Throughout Tidy) :
    decl.NamedUnder hint where
  owns := by
    have own : ∀ inner ∈ decl.owned, ∃ ending ∈ "" :: elementEndings, inner.name = hint ++ ending ∧
        (ending = "" ↔ decl.loose? = none) := by
      intro inner member
      refine ⟨"", List.mem_cons_self, ?_, by simp [alone]⟩
      rw [String.append_empty, (named inner member).1]
    cases decl with
    | named => exact Or.inl rfl
    | repeated | map => cases alone
    | enum | message | union => exact Or.inr ⟨_, rfl, own _ List.mem_cons_self⟩
  inside inner member := (named inner member).2

/-- A box is named by its hint with an ending. -/
theorem NamedUnder.owns_boxed {hint : String} {decl : Decl} (named : decl.NamedUnder hint)
    (comment : Option String) :
    (decl.boxed hint comment).OwnsOnly fun name => ∃ ending ∈ "" :: boxEndings,
      name = hint ++ ending := by
  have standing (same : decl.boxed hint comment = decl) (alone : decl.loose? = none) :
      (decl.boxed hint comment).OwnsOnly fun name => ∃ ending ∈ "" :: boxEndings,
        name = hint ++ ending := by
    refine named.owns.mono (by rw [same]) ?_
    rintro inner _ ⟨ending, _, name, ends⟩
    exact ⟨"", List.mem_cons_self, by rw [name, ends.mpr alone]⟩
  cases decl with
  | repeated item => exact Or.inr ⟨_, rfl, "Array", by decide, rfl⟩
  | map label key value => exact Or.inr ⟨_, rfl, "Map", by decide, rfl⟩
  | named | enum | message | union => exact standing rfl rfl

theorem NamedUnder.inside_boxed {hint : String} {decl : Decl} (named : decl.NamedUnder hint)
    (comment : Option String) :
    ∀ inner ∈ (decl.boxed hint comment).owned, inner.Throughout Tidy := by
  have box (label field : String) : ∀ inner ∈
      [Decl.message (Message.addField ⟨label, [], [], comment⟩ field decl none)],
      inner.Throughout Tidy := by
    intro inner member
    cases List.mem_singleton.mp member
    have free : Message.hasField (δ := Decl) ⟨label, [], [], comment⟩ field = false := rfl
    have numbered := Message.Numbered.addField (fieldNumbering.empty label comment) free decl none
    exact .of_nested ⟨numbered, Or.inl named.owns.length_le⟩ named.inside
  cases decl with
  | repeated item => exact box _ _
  | map label key value => exact box _ _
  | named | enum | message | union => exact named.inside

/-- What is in a list or a map is named as an element. -/
theorem NamedUnder.of_element {hint : String} {decl element : Decl}
    (named : element.NamedUnder (elementHint hint)) (loose : decl.loose? ≠ none)
    (same : decl.owned = (element.boxed (elementHint hint) none).owned) :
    decl.NamedUnder hint where
  owns := by
    refine (named.owns_boxed none).mono same ?_
    rintro inner _ ⟨ending, listed, name⟩
    refine ⟨"Elem" ++ ending, List.mem_cons_of_mem _ (List.mem_map_of_mem listed), ?_, ?_⟩
    · rw [name, elementHint, String.append_assoc]
    · constructor
      · intro empty
        simpa using congrArg String.toList empty
      · exact fun none => absurd none loose
  inside := by
    rw [same]
    exact named.inside_boxed none

/-- The field of an alternative is named after what it owns, which is the alternative or its box. -/
theorem NamedUnder.namesAlternative {type inner : Decl} (named : type.NamedUnder alternativeHint)
    (member : inner ∈ (type.boxed alternativeHint none).owned) {field : Field Decl}
    (after : field.name = Ident.unqualified (type.boxed alternativeHint none).name ++ "Value") :
    NamesAlternative field inner.name := by
  obtain ⟨ending, listed, same⟩ := (named.owns_boxed none).of_mem member
  have own := eq_of_mem_owned (loose?_boxed alternativeHint none type) member
  have listedName : inner.name ∈ alternativeNames := same ▸ List.mem_map_of_mem listed
  refine ⟨listedName, ?_⟩
  rw [after, ← own, unqualified_of_mem_alternativeNames _ listedName]

end Decl

/-- Declaring names what a message owns after its fields. -/
def nestedNaming : DeclInvariant where
  type hint decl := decl.NamedUnder hint
  message body := body.Numbered ∧ body.NestedBy (NamesProperty body.name) ∧
    ∀ inner ∈ body.nested, inner.Throughout Decl.Tidy
  union body := body.Numbered ∧ body.NestedBy NamesAlternative ∧
    ∀ inner ∈ body.nested, inner.Throughout Decl.Tidy
  named hint name := .of_standing rfl (by simp [Decl.owned])
  enum body _ := by
    refine .of_standing rfl fun inner member => ?_
    cases List.mem_singleton.mp member
    exact ⟨rfl, .of_nested trivial (by simp [Decl.nested])⟩
  list hint item named := .of_element named (by simp [Decl.loose?]) rfl
  map hint value named := .of_element named (by simp [Decl.loose?]) rfl
  noField name comment := ⟨fieldNumbering.empty name comment, .empty name comment, by simp⟩
  property body name type comment holds free named := by
    obtain ⟨numbered, nested, inside⟩ := holds
    refine ⟨numbered.addField free type comment, nested.addField (named.owns.mono rfl ?_), ?_⟩
    · rintro inner _ ⟨ending, listed, same, ends⟩
      exact ⟨ending, listed, same, by rw [Decl.loose?_link, ends]⟩
    · intro inner member
      exact (List.mem_append.mp member).elim (inside inner) (named.inside inner)
  ofMessage body holds := by
    obtain ⟨numbered, nested, inside⟩ := holds
    refine .of_standing rfl fun inner member => ?_
    cases List.mem_singleton.mp member
    exact ⟨rfl, .of_nested ⟨numbered, Or.inr nested⟩ inside⟩
  noAlternative name comment := ⟨fieldNumbering.empty name comment, .empty name comment, by simp⟩
  alternative body name type comment holds free field named := by
    obtain ⟨numbered, nested, inside⟩ := holds
    refine ⟨numbered.addField free _ comment,
      nested.addField ((named.owns_boxed none).mono rfl ?_), ?_⟩
    · exact fun inner member _ => named.namesAlternative member field
    · intro inner member
      exact (List.mem_append.mp member).elim (inside inner) (named.inside_boxed none inner)
  ofUnion body holds := by
    obtain ⟨numbered, nested, inside⟩ := holds
    refine .of_standing rfl fun inner member => ?_
    cases List.mem_singleton.mp member
    exact ⟨rfl, .of_nested ⟨numbered, nested⟩ inside⟩

/-! ### Compilations -/

/-- What is nested in a tidy declaration is distinct, in a message if its fields allow it. -/
theorem Decl.Throughout.nodup {decl : Decl} (tidy : decl.Throughout Tidy) :
    (∀ body, decl.Encloses (.union body) → (body.nested.map ident).Nodup) ∧
    ∀ body, decl.Encloses (.message body) → body.Unambiguous →
      (body.nested.map ident).Nodup := by
  constructor
  · intro body encloses
    obtain ⟨numbered, nested⟩ := tidy _ encloses
    exact nested.nodup_of_alternatives numbered
  · intro body encloses unambiguous
    obtain ⟨numbered, single | nested⟩ := tidy _ encloses
    · -- a single name is told apart from no other
      match body.nested, single with
      | [], _ => exact List.nodup_nil
      | [inner], _ => exact List.nodup_singleton _
    · exact nested.nodup_of_unambiguous numbered unambiguous

/-- What a schema becomes, if it is declared, is named by it with an ending. -/
theorem Document.name_of_declareSchema {document : Document} {options : Options} {name : String}
    {declared : Declared} (compiled : document.declareSchema options name = some (.ok declared))
    (declares : declared.decl.isDeclaration = true) :
    ∃ ending ∈ "" :: boxEndings, declared.decl.name = name ++ ending := by
  obtain ⟨type, comment, named, same⟩ := nestedNaming.of_declareSchema compiled
  have owns := Decl.NamedUnder.owns_boxed named comment
  rw [← same] at owns
  exact owns.of_mem (Decl.mem_owned_self declares)

theorem Document.tidy_of_declareSchema {document : Document} {options : Options} {name : String}
    {declared : Declared} (compiled : document.declareSchema options name = some (.ok declared)) :
    declared.decl.Throughout Decl.Tidy := by
  obtain ⟨type, comment, named, same⟩ := nestedNaming.of_declareSchema compiled
  have inside := Decl.NamedUnder.inside_boxed named comment
  rw [← same] at inside
  refine .of_owned inside fun undeclared => ?_
  generalize declared.decl = decl at undeclared
  cases decl with
  | named | map | repeated => trivial
  | enum | message | union => cases undeclared

/-- A schema is declared in a box, whose name has this ending. -/
def Document.Boxes (document : Document) (options : Options) (name ending : String) : Prop :=
  ∃ declared, document.declareSchema options name = some (.ok declared) ∧
    declared.decl.isDeclaration = true ∧ declared.decl.name = name ++ ending

/-- The schema of one name is not called like what becomes of the other. -/
def Document.Apart (document : Document) (options : Options) (name other : String) : Prop :=
  Ident.normalize name ≠ Ident.normalize other ∧
    ∀ ending ∈ boxEndings, document.Boxes options other ending →
      Ident.normalize name ≠ Ident.normalize other ++ ending

theorem Document.Apart.ident_ne {document : Document} {options : Options} {name other : String}
    {declared declared' : Declared} (apart : document.Apart options name other)
    (apart' : document.Apart options other name)
    (compiled : document.declareSchema options name = some (.ok declared))
    (compiled' : document.declareSchema options other = some (.ok declared'))
    (declares : declared.decl.isDeclaration = true)
    (declares' : declared'.decl.isDeclaration = true) :
    declared.decl.ident ≠ declared'.decl.ident := by
  intro same
  obtain ⟨ending, listed, named⟩ := name_of_declareSchema compiled declares
  obtain ⟨ending', listed', named'⟩ := name_of_declareSchema compiled' declares'
  rw [Decl.ident, Decl.ident, named, named'] at same
  rcases boxEndings_apart.eq_or_extends listed listed' same with
    equal | ⟨-, box, longer⟩ | ⟨-, box, longer⟩
  · exact apart.1 equal
  · exact apart.2 ending' box ⟨declared', compiled', declares', named'⟩ longer
  · exact apart'.2 ending box ⟨declared, compiled, declares, named⟩ longer

theorem Document.outcomes_pairwise_ne (document : Document) (distinct : document.names.Nodup)
    (options : Options) :
    ((document.bind options.only).1.outcomes options).Pairwise fun outcome other =>
      outcome.1 ≠ other.1 := by
  have strict := document.selected_strict distinct options.only
  rw [← document.outcomes_names_bind, List.pairwise_map] at strict
  refine strict.imp fun {outcome other} less same => ?_
  rw [same] at less
  exact String.lt_irrefl other.1 less

/-- Identifiers of declarations are distinct where source names leave them so. At the top level, it
is enough that no two selected schemas have the same identifier, and that none has that of the box
of another one. In a message, it is enough that no field is called like the element of a list or a
map in another field. In a union, nothing is needed. -/
theorem Document.declarations_distinct (document : Document) (distinct : document.names.Nodup)
    (options : Options) (compilation : Compilation)
    (compiled : (document.compile options).2 = .ok compilation) :
    ((∀ name ∈ document.selected options.only, ∀ other ∈ document.selected options.only,
        name ≠ other → (document.bind options.only).1.Apart options name other) →
      ((compilation.declarations.filter Decl.isDeclaration).map Decl.ident).Nodup) ∧
    ∀ decl ∈ compilation.declarations,
      (∀ body, decl.Encloses (.union body) → (body.nested.map Decl.ident).Nodup) ∧
      ∀ body, decl.Encloses (.message body) → body.Unambiguous →
        (body.nested.map Decl.ident).Nodup := by
  rw [declarations_of_compile compiled]
  constructor
  · intro apart
    have chosen {outcome : String × Except SchemaError Declared}
        (listed : outcome ∈ (document.bind options.only).1.outcomes options) :
        outcome.1 ∈ document.selected options.only := by
      rw [← document.outcomes_names_bind]
      exact List.mem_map_of_mem listed
    rw [List.Nodup, List.pairwise_map, List.pairwise_filter, Compilation.declarationsOf,
      List.pairwise_filterMap]
    -- two outcomes have different names, and two declarations are both of successes
    refine (document.outcomes_pairwise_ne distinct options).imp_of_mem ?_
    rintro ⟨name, error | declared⟩ ⟨other, error' | declared'⟩ listed listed' differ
    · rintro _ ⟨⟩
    · rintro _ ⟨⟩
    · rintro _ _ _ ⟨⟩
    · rintro _ ⟨⟩ _ ⟨⟩ declares declares'
      have there := apart name (chosen listed) other (chosen listed') differ
      have back := apart other (chosen listed') name (chosen listed) (Ne.symm differ)
      exact there.ident_ne back (declareSchema_of_mem_outcomes _ listed)
        (declareSchema_of_mem_outcomes _ listed') declares declares'
  · intro decl member
    obtain ⟨⟨name, error | declared⟩, listed, same⟩ := List.mem_filterMap.mp member
    · cases same
    · cases same
      exact (tidy_of_declareSchema (declareSchema_of_mem_outcomes _ listed)).nodup

def textList : Schema Node where
  type := some .array
  items := some (.inline { type := some .string })

def textCell : Schema Node where
  type := some .object
  order := ["text"]
  properties := [("text", .inline { type := some .string })]

def rowsMessage : Decl :=
  .message {
    name := "RowsArray"
    fields := [⟨"Items", 1, .repeated (.named "string"), none⟩] }

/-- A list, and an object with a list of objects, an enum and a choice. -/
def sheet : Document where
  schemas := [
    ("Rows", .inline textList),
    ("Table", .inline {
      type := some .object
      order := ["cells", "width", "pick"]
      properties := [
        ("cells", .inline { type := some .array, items := some (.inline textCell) }),
        ("width", .inline { type := some .string, values := some [.text "thin", .text "wide"] }),
        ("pick", .inline { oneOf := [.inline textList, .inline textCell] })] })]

def sheetPick : Message Decl where
  name := "Table_pick"
  nested := [
    .message {
      name := "VariantArray"
      fields := [⟨"Items", 1, .repeated (.named "string"), none⟩] },
    .message { name := "Variant", fields := [⟨"text", 1, .named "string", none⟩] }]
  fields := [
    ⟨"VariantArrayValue", 1, .named "VariantArray", none⟩,
    ⟨"VariantValue", 2, .named "Variant", none⟩]

def sheetTable : Message Decl where
  name := "Table"
  nested := [
    .message { name := "Table_cellsElem", fields := [⟨"text", 1, .named "string", none⟩] },
    .enum { name := "Table_width", values := ["thin", "wide"] },
    .union sheetPick]
  fields := [
    ⟨"cells", 1, .repeated (.named "Table_cellsElem"), none⟩,
    ⟨"width", 2, .named "Table_width", none⟩,
    ⟨"pick", 3, .named "Table_pick", none⟩]

theorem Document.declarations_distinct_sheet :
    sheet.names.Nodup ∧
    (sheet.compile {}).2 = .ok { declarations := [rowsMessage, .message sheetTable] } ∧
    ([rowsMessage, .message sheetTable].map Decl.ident).Nodup ∧
    sheetTable.Unambiguous ∧ (sheetTable.nested.map Decl.ident).Nodup ∧
    (sheetPick.nested.map Decl.ident).Nodup := by
  have distinct : sheet.names.Nodup := by decide
  have compiled : (sheet.compile {}).2
      = .ok { declarations := [rowsMessage, .message sheetTable] } :=
    compile_pair rfl (by decide) rfl rfl rfl
  have apart : ∀ name ∈ sheet.selected none, ∀ other ∈ sheet.selected none,
      name ≠ other → (sheet.bind none).1.Apart {} name other := by
    have listed {name : String} (member : name ∈ sheet.selected none) : name ∈ ["Rows", "Table"] :=
      ((sheet.mem_selected_iff none name).mp member).1
    have names : ∀ name ∈ ["Rows", "Table"], ∀ other ∈ ["Rows", "Table"], name ≠ other →
        ∀ ending ∈ "" :: boxEndings, Ident.normalize name ≠ Ident.normalize other ++ ending := by
      decide +kernel
    intro name member other member' differ
    have ends := names name (listed member) other (listed member') differ
    refine ⟨?_, fun ending box _ => ends ending (List.mem_cons_of_mem _ box)⟩
    simpa using ends "" List.mem_cons_self
  have unambiguous : sheetTable.Unambiguous := by
    have names : ∀ field ∈ ["cells", "width", "pick"], ∀ other ∈ ["cells", "width", "pick"],
        ∀ ending ∈ elementEndings, Ident.normalize field ≠ Ident.normalize other ++ ending := by
      decide +kernel
    intro field member other member' _ _ ending ends
    exact names _ (List.mem_map_of_mem (f := Field.name) member) _
      (List.mem_map_of_mem (f := Field.name) member') ending ends
  obtain ⟨top, inside⟩ := declarations_distinct sheet distinct {} _ compiled
  obtain ⟨unions, messages⟩ := inside (.message sheetTable) (by simp)
  have pick : (Decl.message sheetTable).Encloses (.union sheetPick) :=
    .nested (by simp [sheetTable, Decl.nested]) .self
  exact ⟨distinct, compiled, top apart, unambiguous, messages sheetTable .self unambiguous,
    unions sheetPick pick⟩

/-- A list, and an object that is called like the box of the list; in the object a list of objects,
and a property that is called like an element of it. -/
def doubledSheet : Document where
  schemas := [
    ("Rows", .inline textList),
    ("RowsArray", .inline {
      type := some .object
      order := ["cells", "cellsElem"]
      properties := [
        ("cells", .inline { type := some .array, items := some (.inline textCell) }),
        ("cellsElem", .inline {
          type := some .object
          order := ["width"]
          properties := [("width", .inline { type := some .integer })] })] })]

def doubledTable : Message Decl where
  name := "RowsArray"
  nested := [
    .message { name := "RowsArray_cellsElem", fields := [⟨"text", 1, .named "string", none⟩] },
    .message { name := "RowsArray_cellsElem", fields := [⟨"width", 1, .named "int32", none⟩] }]
  fields := [
    ⟨"cells", 1, .repeated (.named "RowsArray_cellsElem"), none⟩,
    ⟨"cellsElem", 2, .named "RowsArray_cellsElem", none⟩]

/-- Names of declarations are not compared: two messages of one name are declared next to each
other, at the top level and in a message. -/
theorem Document.declarations_doubled_doubledSheet :
    doubledSheet.names.Nodup ∧ doubledSheet.Unbound ∧
    (doubledSheet.compile {}).2
      = .ok { declarations := [rowsMessage, .message doubledTable] } ∧
    ¬([rowsMessage, .message doubledTable].map Decl.ident).Nodup ∧
    ¬(doubledTable.nested.map Decl.ident).Nodup := by
  have unbound : doubledSheet.Unbound := by
    simp [Unbound, references, doubledSheet, textList, textCell, Schema.children]
  have compiled : (doubledSheet.compile {}).2
      = .ok { declarations := [rowsMessage, .message doubledTable] } :=
    compile_pair rfl (by decide) rfl rfl rfl
  exact ⟨by decide, unbound, compiled, by decide +kernel, by decide +kernel⟩

end Protoschema
