import Protoschema.Proofs.Ownership
import Protoschema.Proofs.Readback
/-!
The emitted text says what was declared. Names, types, values and comments are texts of any kind,
but none of them reaches the output as it is: identifiers and types become words, and a comment is
brought onto one line. So the text of declarations can be read back, and two lists of declarations
have the same text exactly when they show the same blocks.
-/

namespace Protoschema.Proto

/-! ### What is written for names and comments -/

theorem isWord_append (first second : String) :
    isWord (first ++ second) = (isWord first && isWord second) := by
  simp [isWord]

theorem isWord_normalize (name : String) : isWord (Ident.normalize name) = true := by
  rw [isWord, List.all_eq_true]
  intro c member
  simp [Ident.plain_of_mem_normalize member]

theorem isWord_qualified (name : String) : isWord (Ident.qualified name) = true := by
  rw [isWord, List.all_eq_true]
  intro c member
  rw [Ident.qualified, String.toList_intercalate, List.map_map] at member
  rcases mem_intercalate member with dot | ⟨segment, listed, inside⟩
  · have dot : c = '.' := by simpa using dot
    simp [dot]
  · obtain ⟨piece, _, rfl⟩ := List.mem_map.mp listed
    simp [Ident.plain_of_mem_normalize inside]

theorem isUpper_toUpper {c : Char} (lower : 'a'.val ≤ c.val ∧ c.val ≤ 'z'.val) :
    c.toUpper.isUpper = true := by
  delta Char.toUpper Char.isUpper
  rw [dif_pos lower]
  simp only [decide_eq_true_eq, ge_iff_le, UInt32.le_iff_toNat_le] at lower ⊢
  have sum : (c.val + ('A'.val - 'a'.val)).toNat = c.val.toNat - 32 := by
    rw [UInt32.toNat_add]
    simp at lower ⊢
    omega
  rw [sum]
  simp at lower ⊢
  omega

theorem isPlain_toUpper {c : Char} (plain : Ident.isPlain c = true) :
    Ident.isPlain c.toUpper = true := by
  by_cases lower : 'a'.val ≤ c.val ∧ c.val ≤ 'z'.val
  · delta Ident.isPlain Char.isAlphanum Char.isAlpha
    simp [isUpper_toUpper lower]
  · have same : c.toUpper = c := dif_neg lower
    rwa [same]

theorem isWord_enumLead (name : String) : isWord (enumLead name) = true := by
  have upper : isWord (String.ofList ((Ident.normalize name).toList.map Char.toUpper)) = true := by
    rw [isWord, List.all_eq_true, String.toList_ofList]
    intro c member
    obtain ⟨lower, inside, rfl⟩ := List.mem_map.mp member
    simp [isPlain_toUpper (Ident.plain_of_mem_normalize inside)]
  rw [enumLead, isWord_append, upper]
  decide

theorem not_isBlank_of_mem_words {text word : List Char} {c : Char}
    (member : word ∈ Text.words text) (inside : c ∈ word) : Text.isBlank c = false := by
  have runs : ∀ run ∈ text.foldr Text.pushWord [], ∀ c ∈ run, Text.isBlank c = false := by
    clear member inside
    induction text with
    | nil => simp
    | cons head rest induction =>
      simp only [List.foldr_cons]
      generalize rest.foldr Text.pushWord [] = later at induction
      cases later <;> grind [Text.pushWord]
  exact runs word (List.mem_filter.mp member).1 c inside

theorem mem_guardComment {text : List Char} {c : Char} (member : c ∈ guardComment text) :
    c = ' ' ∨ c ∈ text := by
  fun_induction guardComment text with
  | case1 => cases member
  | case2 rest induction =>
    simp only [List.mem_cons] at member ⊢
    grind
  | case3 head rest _ induction =>
    simp only [List.mem_cons] at member ⊢
    grind

/-- A comment is written on one line. -/
theorem isOnLine_commentText? {comment : Option String} {text : String}
    (found : text ∈ commentText? comment) : isOnLine text = true := by
  cases comment with
  | none => cases found
  | some source =>
    simp only [commentText?] at found
    split at found
    · cases found
    · rename_i words split
      cases found
      rw [isOnLine, List.all_eq_true, String.toList_ofList]
      intro c member
      rcases mem_guardComment member with rfl | inside
      · decide
      · rcases mem_intercalate inside with space | ⟨word, listed, within⟩
        · have space : c = ' ' := by simpa using space
          simp [space]
        · simp [not_isBlank_of_mem_words listed within]

/-! ### The lines of what is declared -/

theorem Entry.readable_ofField {field : Field Decl} (type : field.type.IsFieldType) :
    (Entry.ofField field).Readable where
  type := by
    obtain ⟨name, number, decl, comment⟩ := field
    cases type with
    | named name | list name => exact Or.inl (isWord_qualified name)
    | map label name => exact Or.inr ⟨rfl, _, isWord_qualified name, rfl⟩
  ident := isWord_normalize field.name
  comment _ found := isOnLine_commentText? found

namespace Block

theorem readable_of_mem_commentLines {depth : Nat} {comment : Option String} {line : Nat × Line}
    (member : line ∈ commentLines depth (commentText? comment)) : line.2.Readable := by
  obtain ⟨text, found, rfl⟩ := List.mem_map.mp member
  exact isOnLine_commentText? (Option.mem_toList.mp found)

theorem readable_of_mem_entryLines {depth : Nat} {fields : List (Field Decl)} {line : Nat × Line}
    (types : ∀ field ∈ fields, field.type.IsFieldType)
    (member : line ∈ entryLines depth (fields.map Entry.ofField)) : line.2.Readable := by
  obtain ⟨entry, listed, rfl⟩ := List.mem_map.mp member
  obtain ⟨field, inside, rfl⟩ := List.mem_map.mp listed
  exact Entry.readable_ofField (types field inside)

theorem readable_of_mem_valueLines {depth : Nat} {values : List String} {line : Nat × Line}
    (words : ∀ value ∈ values, isWord value = true) (member : line ∈ valueLines depth values) :
    line.2.Readable := by
  obtain ⟨⟨value, number⟩, listed, rfl⟩ := List.mem_map.mp member
  exact words value (List.fst_mem_of_mem_zipIdx listed)

/-- Lines of what is nested are readable if those of each declaration are. -/
theorem readable_of_mem_nestedLines {depth : Nat} {decls : List Decl} {line : Nat × Line}
    (readable : ∀ decl ∈ decls, ∀ block ∈ ofDecl? decl, ∀ line ∈ lines depth block, line.2.Readable)
    (member : line ∈ nestedLines depth (ofDecls decls)) : line.2.Readable := by
  rw [nestedLines_eq_flatMap, ofDecls_eq_filterMap] at member
  obtain ⟨block, listed, inside⟩ := List.mem_flatMap.mp member
  obtain ⟨decl, among, found⟩ := List.mem_filterMap.mp listed
  exact readable decl among block found line inside

end Block

/-- The lines of an orderly declaration are readable. -/
theorem readable_of_orderly {decl : Decl} (orderly : decl.Orderly) (depth : Nat) :
    ∀ block ∈ Block.ofDecl? decl, ∀ line ∈ Block.lines depth block, line.2.Readable := by
  induction orderly generalizing depth with
  | @enum body lead =>
    rintro block ⟨⟩ line member
    have front : isWord (body.lead.getD "") = true := by
      cases found : body.lead with
      | none => decide
      | some text =>
        rw [Option.getD_some, lead text found]
        exact isWord_enumLead body.name
    have words : ∀ value ∈ body.values.map fun value => body.lead.getD "" ++ Ident.normalize value,
        isWord value = true := by
      intro value listed
      obtain ⟨source, _, rfl⟩ := List.mem_map.mp listed
      simp [isWord_append, front, isWord_normalize]
    simp only [Block.ofEnum, Block.lines, List.mem_append, List.mem_cons, List.not_mem_nil,
      or_false] at member
    rcases member with comment | rfl | value | rfl
    · exact Block.readable_of_mem_commentLines comment
    · exact isWord_normalize body.name
    · exact Block.readable_of_mem_valueLines words value
    · trivial
  | @message body linked _ induction =>
    rintro block ⟨⟩ line member
    simp only [Block.lines, List.mem_append, List.mem_cons, List.not_mem_nil, or_false] at member
    rcases member with comment | rfl | (nested | field) | rfl
    · exact Block.readable_of_mem_commentLines comment
    · exact isWord_normalize body.name
    · exact Block.readable_of_mem_nestedLines (fun inner listed => induction inner listed _) nested
    · exact Block.readable_of_mem_entryLines linked.types field
    · trivial
  | @union body linked _ _ induction =>
    rintro block ⟨⟩ line member
    simp only [Block.lines, List.mem_append, List.mem_cons, List.not_mem_nil, or_false] at member
    rcases member with comment | rfl | nested | rfl | field | rfl | rfl
    · exact Block.readable_of_mem_commentLines comment
    · exact isWord_normalize body.name
    · exact Block.readable_of_mem_nestedLines (fun inner listed => induction inner listed _) nested
    · trivial
    · exact Block.readable_of_mem_entryLines linked.types field
    · trivial
    · trivial

end Protoschema.Proto

namespace Protoschema

/-- What a node of a document becomes, or a top-level schema. -/
inductive Decl.Compiled : Decl → Prop
  | node {scope : Scope} {hint : String} {node : Node} {decl : Decl} :
      (declare scope hint node).outcome = .ok decl → Compiled decl
  | schema {document : Document} {options : Options} {name : String} {declared : Declared} :
      document.declareSchema options name = some (.ok declared) → Compiled declared.decl

theorem Decl.Compiled.owned {decl : Decl} (compiled : decl.Compiled) :
    ∀ inner ∈ decl.owned, inner.Orderly := by
  cases compiled with
  | node become => exact (ownership.declareWithin_ensures _ _ [] _ _ decl become).2
  | schema compiled => exact (Document.declareSchema_orderly compiled).2

namespace Proto

/-- What was compiled can be read from its text. -/
theorem readBlocks?_body {decls : List Decl} (compiled : ∀ decl ∈ decls, decl.Compiled) :
    readBlocks? (body decls) = some (decls.filterMap Block.ofDecl?) := by
  rw [body_eq_render]
  apply readBlocks?_render
  intro line member
  obtain ⟨block, listed, inside⟩ := List.mem_flatMap.mp member
  rcases List.mem_cons.mp inside with rfl | inside
  · trivial
  · obtain ⟨decl, among, found⟩ := List.mem_filterMap.mp listed
    have declaration : decl.isDeclaration = true := by
      rw [← Block.isSome_ofDecl?, found]
      rfl
    have orderly := Decl.orderly_of_isDeclaration declaration (compiled decl among).owned
    exact readable_of_orderly orderly 0 block found line inside

/-- Two lists of compiled declarations have the same text if and only if they show the same
blocks. -/
theorem body_eq_body_iff (decls others : List Decl) (compiled : ∀ decl ∈ decls, decl.Compiled)
    (compiled' : ∀ decl ∈ others, decl.Compiled) :
    body decls = body others ↔
      decls.filterMap Block.ofDecl? = others.filterMap Block.ofDecl? := by
  constructor
  · intro same
    have read := readBlocks?_body compiled
    rw [same, readBlocks?_body compiled'] at read
    exact (Option.some.inj read).symm
  · intro same
    rw [body_eq_render, body_eq_render, same]

end Proto

/-- An object with a single text, under a description. -/
def singleText (property : String) (description : Option String) : Node :=
  .inline {
    type := some .object
    description := description
    order := [property]
    properties := [(property, .inline { type := some .string })] }

/-- What an object with a single text becomes. -/
def singleTextMessage (name property : String) (comment : Option String) : Decl :=
  .message {
    name := name
    fields := [⟨property, 1, .named "string", none⟩]
    comment := comment }

/-- A door and its key. -/
def doorAndKey : Document where
  schemas := [("Door", singleText "bolt" none), ("Key", singleText "bit" none)]

/-- A door that has the text of a key in its description and in the name of its property. -/
def decoyDoor : Document where
  schemas := [("Door", singleText "bolt = 1;\n\x7d\n\nmessage Key \x7b\n\tstring bit"
    (some "*/\n\x7d\n\nmessage Key \x7b"))]

/-- What the decoy becomes. -/
def decoyMessage : Decl :=
  singleTextMessage "Door" "bolt = 1;\n\x7d\n\nmessage Key \x7b\n\tstring bit"
    (some "*/\n\x7d\n\nmessage Key \x7b")

theorem Proto.body_eq_body_iff_decoyDoor :
    decoyDoor.declareSchema {} "Door" = some (.ok ⟨decoyMessage, {}, []⟩) ∧
    doorAndKey.declareSchema {} "Door" = some (.ok ⟨singleTextMessage "Door" "bolt" none, {}, []⟩) ∧
    doorAndKey.declareSchema {} "Key" = some (.ok ⟨singleTextMessage "Key" "bit" none, {}, []⟩) ∧
    body [decoyMessage]
      ≠ body [singleTextMessage "Door" "bolt" none, singleTextMessage "Key" "bit" none] := by
  have decoy : decoyDoor.declareSchema {} "Door" = some (.ok ⟨decoyMessage, {}, []⟩) := by rfl
  have door : doorAndKey.declareSchema {} "Door"
      = some (.ok ⟨singleTextMessage "Door" "bolt" none, {}, []⟩) := by rfl
  have key : doorAndKey.declareSchema {} "Key"
      = some (.ok ⟨singleTextMessage "Key" "bit" none, {}, []⟩) := by rfl
  refine ⟨decoy, door, key, fun same => ?_⟩
  have blocks := (body_eq_body_iff _ _ (by simpa using Decl.Compiled.schema decoy)
    (by simpa using ⟨Decl.Compiled.schema door, Decl.Compiled.schema key⟩)).mp same
  -- one block on the left, two on the right
  exact absurd (congrArg List.length blocks) (by decide)

end Protoschema
