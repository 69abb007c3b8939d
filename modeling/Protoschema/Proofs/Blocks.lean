import Protoschema.Proto
/-!
The emitted text, line by line. What the text shows of a declaration is a block: identifiers in
place of names, type texts in place of types, comments on one line. A block is written as lines at
depths, and a line as tokens with a blank between each two. The text of declarations is that of
their blocks, so it holds nothing else.
-/

namespace Protoschema.Proto

/-- What the text shows of a field. -/
structure Entry where
  repeated : Bool
  type : String
  ident : String
  number : Nat
  comment : Option String

/-- What the text shows of a declaration. The values of an enum are numbered by their places. -/
inductive Block
  | enum (ident : String) (values : List String) (comment : Option String)
  | message (ident : String) (nested : List Block) (entries : List Entry) (comment : Option String)
  | union (ident : String) (nested : List Block) (entries : List Entry) (comment : Option String)

def Entry.ofField (field : Field Decl) : Entry where
  repeated := field.type.isRepeated
  type := typeText field.type
  ident := Ident.normalize field.name
  number := field.number
  comment := commentText? field.comment

namespace Block

def ofEnum (body : Enum) : Block :=
  .enum (Ident.normalize body.name)
    (body.values.map fun value => body.lead.getD "" ++ Ident.normalize value)
    (commentText? body.comment)

mutual

/-- The block of a declaration; none for what is not declared. -/
def ofDecl? : Decl → Option Block
  | .enum body => some (ofEnum body)
  | .message ⟨name, nested, fields, comment⟩ =>
    some (.message (Ident.normalize name) (ofDecls nested) (fields.map Entry.ofField)
      (commentText? comment))
  | .union ⟨name, nested, fields, comment⟩ =>
    some (.union (Ident.normalize name) (ofDecls nested) (fields.map Entry.ofField)
      (commentText? comment))
  | .named _ | .map _ _ _ | .repeated _ => none

/-- The blocks of the declarations in a list. -/
def ofDecls : List Decl → List Block
  | [] => []
  | decl :: rest => (ofDecl? decl).toList ++ ofDecls rest

end

end Block

/-! ### Lines and their tokens -/

/-- What stands between the occurrences of a character. -/
def pieces (separator : Char) (text : String) : List String :=
  (text.toList.splitOn separator).map String.ofList

/-- A line of the text. -/
inductive Line
  | blank
  | comment (text : String)
  | message (ident : String)
  | enum (ident : String)
  /-- The start of the fields that exclude each other. -/
  | choice
  | field (entry : Entry)
  | value (ident : String) (number : Nat)
  | closing

def commentTokens (text : String) : List String :=
  "/*" :: (pieces ' ' text ++ ["*/"])

/-- The tokens of what is left of a field's equality sign. -/
def Entry.left (entry : Entry) : List String :=
  (if entry.repeated then ["repeated"] else []) ++ pieces ' ' entry.type ++ [entry.ident]

/-- The tokens of a line. -/
def Line.tokens : Line → List String
  | .blank => [""]
  | .comment text => commentTokens text
  | .message ident => ["message", ident, "\x7b"]
  | .enum ident => ["enum", ident, "\x7b"]
  | .choice => ["oneof", "choice", "\x7b"]
  | .field entry =>
    entry.left ++ "=" :: (toString entry.number ++ ";") ::
      (entry.comment.map commentTokens).getD []
  | .value ident number => [ident, "=", toString number ++ ";"]
  | .closing => ["\x7d"]

def Line.text (line : Line) : String :=
  " ".intercalate line.tokens

/-- The text of lines, each at its depth. -/
def render (lines : List (Nat × Line)) : String :=
  String.join (lines.map fun (depth, content) => line depth content.text)

namespace Block

def commentLines (depth : Nat) (comment : Option String) : List (Nat × Line) :=
  comment.toList.map fun text => (depth, .comment text)

def valueLines (depth : Nat) (values : List String) : List (Nat × Line) :=
  values.zipIdx.map fun (value, number) => (depth, .value value number)

def entryLines (depth : Nat) (entries : List Entry) : List (Nat × Line) :=
  entries.map fun entry => (depth, .field entry)

mutual

/-- The lines of a block. -/
def lines (depth : Nat) : Block → List (Nat × Line)
  | .enum ident values comment =>
    commentLines depth comment ++ (depth, .enum ident) ::
      (valueLines (depth + 1) values ++ [(depth, .closing)])
  | .message ident nested entries comment =>
    commentLines depth comment ++ (depth, .message ident) ::
      (nestedLines (depth + 1) nested ++ entryLines (depth + 1) entries ++ [(depth, .closing)])
  | .union ident nested entries comment =>
    commentLines depth comment ++ (depth, .message ident) ::
      (nestedLines (depth + 1) nested ++ (depth + 1, .choice) ::
        (entryLines (depth + 2) entries ++ [(depth + 1, .closing), (depth, .closing)]))

/-- The lines of the blocks in a block. -/
def nestedLines (depth : Nat) : List Block → List (Nat × Line)
  | [] => []
  | block :: rest => lines depth block ++ nestedLines depth rest

end

/-- The lines of blocks at the top level, each behind an empty one. -/
def topLines (blocks : List Block) : List (Nat × Line) :=
  blocks.flatMap fun block => (0, .blank) :: lines 0 block

end Block

/-! ### The text of a line -/

theorem intercalate_pieces (text : String) : " ".intercalate (pieces ' ' text) = text := by
  have chars : (text.toList.splitOn ' ').map (String.toList ∘ String.ofList)
      = text.toList.splitOn ' ' := by
    simp [Function.comp_def]
  apply String.toList_injective
  rw [String.toList_intercalate, pieces, List.map_map, chars]
  exact List.intercalate_splitOn ' '

theorem pieces_ne_nil (separator : Char) (text : String) : pieces separator text ≠ [] := by
  simp [pieces, List.splitOn_ne_nil]

theorem intercalate_commentTokens (text : String) :
    " ".intercalate (commentTokens text) = "/* " ++ text ++ " */" := by
  have behind : " ".intercalate (pieces ' ' text ++ ["*/"]) = text ++ " " ++ "*/" := by
    rw [String.intercalate_append_of_ne_nil (pieces_ne_nil ' ' text) (by simp),
      intercalate_pieces, String.intercalate_singleton]
  rw [commentTokens, String.intercalate_cons_of_ne_nil (by simp), behind]
  simp only [String.append_assoc]
  rfl

theorem intercalate_three (first second third : String) :
    " ".intercalate [first, second, third] = first ++ " " ++ second ++ " " ++ third := by
  simp only [String.intercalate_cons_cons, String.intercalate_singleton, String.append_assoc]

theorem text_message (ident : String) :
    Line.text (.message ident) = "message " ++ ident ++ " \x7b" := by
  simp only [Line.text, Line.tokens, intercalate_three, String.append_assoc]
  rfl

theorem text_enum (ident : String) : Line.text (.enum ident) = "enum " ++ ident ++ " \x7b" := by
  simp only [Line.text, Line.tokens, intercalate_three, String.append_assoc]
  rfl

theorem text_value (ident : String) (number : Nat) :
    Line.text (.value ident number) = ident ++ " = " ++ toString number ++ ";" := by
  simp only [Line.text, Line.tokens, intercalate_three, String.append_assoc]
  rfl

theorem intercalate_left (entry : Entry) :
    " ".intercalate entry.left
      = (if entry.repeated then "repeated " else "") ++ entry.type ++ " " ++ entry.ident := by
  have named : " ".intercalate (pieces ' ' entry.type ++ [entry.ident])
      = entry.type ++ " " ++ entry.ident := by
    rw [String.intercalate_append_of_ne_nil (pieces_ne_nil ' ' entry.type) (by simp),
      intercalate_pieces, String.intercalate_singleton]
  rw [Entry.left, List.append_assoc]
  cases entry.repeated with
  | false => simpa using named
  | true =>
    simp only [if_true]
    rw [String.intercalate_append_of_ne_nil (by simp) (by simp), named,
      String.intercalate_singleton]
    simp only [String.append_assoc]
    rfl

theorem text_field (entry : Entry) :
    Line.text (.field entry)
      = (if entry.repeated then "repeated " else "") ++ entry.type ++ " " ++ entry.ident ++ " = "
        ++ toString entry.number ++ ";"
        ++ (match entry.comment with
          | none => ""
          | some text => " /* " ++ text ++ " */") := by
  have left : entry.left ≠ [] := by simp [Entry.left]
  rw [Line.text, Line.tokens, String.intercalate_append_of_ne_nil left (by simp), intercalate_left]
  cases entry.comment with
  | none =>
    simp only [Option.map_none, Option.getD_none, String.intercalate_cons_cons,
      String.intercalate_singleton, String.append_assoc]
    rfl
  | some text =>
    simp only [Option.map_some, Option.getD_some, String.intercalate_cons_cons]
    rw [String.intercalate_cons_of_ne_nil (by simp [commentTokens]), intercalate_commentTokens]
    simp only [String.append_assoc]
    rfl

/-! ### The text of blocks -/

@[simp] theorem render_nil : render [] = "" := rfl

@[simp] theorem render_cons (depth : Nat) (content : Line) (rest : List (Nat × Line)) :
    render ((depth, content) :: rest) = line depth content.text ++ render rest :=
  String.join_cons

@[simp] theorem render_append (first second : List (Nat × Line)) :
    render (first ++ second) = render first ++ render second := by
  simp [render, String.join_append]

namespace Block

theorem ofDecls_eq_filterMap (decls : List Decl) : ofDecls decls = decls.filterMap ofDecl? := by
  induction decls with
  | nil => rfl
  | cons decl rest induction => cases found : ofDecl? decl <;> simp [ofDecls, found, induction]

theorem nestedLines_eq_flatMap (depth : Nat) (blocks : List Block) :
    nestedLines depth blocks = blocks.flatMap (lines depth) := by
  induction blocks with
  | nil => rfl
  | cons block rest induction => simp [nestedLines, induction]

theorem nestedLines_append (depth : Nat) (first second : List Block) :
    nestedLines depth (first ++ second) = nestedLines depth first ++ nestedLines depth second := by
  simp [nestedLines_eq_flatMap]

theorem render_commentLines (depth : Nat) (comment : Option String) :
    render (commentLines depth (commentText? comment)) = commentLine depth comment := by
  unfold commentLine
  cases commentText? comment with
  | none => rfl
  | some text => simp [commentLines, Line.text, Line.tokens, intercalate_commentTokens]

theorem render_entryLines (depth : Nat) (fields : List (Field Decl)) :
    render (entryLines depth (fields.map Entry.ofField)) = fieldLines depth fields := by
  simp only [render, entryLines, fieldLines, List.map_map]
  congr 1
  apply List.map_congr_left
  intro field _
  simp only [Function.comp_apply, text_field]
  rfl

theorem render_valueLines (depth : Nat) (lead : String) (values : List String) :
    render (valueLines depth (values.map fun value => lead ++ Ident.normalize value))
      = String.join (values.zipIdx.map (valueLine depth lead)) := by
  rw [valueLines, List.zipIdx_map, List.map_map, render, List.map_map]
  congr 1
  apply List.map_congr_left
  rintro ⟨value, number⟩ _
  simp [text_value, valueLine]

theorem render_lines_ofEnum (depth : Nat) (body : Enum) :
    render (lines depth (ofEnum body)) = enumText depth body := by
  simp only [ofEnum, lines, render_append, render_cons, render_nil, render_commentLines,
    render_valueLines, text_enum, enumText, String.append_empty, String.append_assoc]
  rfl

mutual

theorem render_lines_ofDecl? (depth : Nat) :
    ∀ decl, render (nestedLines depth (ofDecl? decl).toList) = declText depth decl
  | .enum body => by
    simp [ofDecl?, nestedLines, render_lines_ofEnum, declText]
  | .message ⟨name, nested, fields, comment⟩ => by
    simp only [ofDecl?, Option.toList_some, nestedLines, lines, render_append, render_cons,
      render_nil, render_commentLines, render_nestedLines (depth + 1) nested, render_entryLines,
      text_message, declText, messageStart, String.append_empty, String.append_assoc]
    rfl
  | .union ⟨name, nested, fields, comment⟩ => by
    simp only [ofDecl?, Option.toList_some, nestedLines, lines, render_append, render_cons,
      render_nil, render_commentLines, render_nestedLines (depth + 1) nested, render_entryLines,
      text_message, declText, messageStart, String.append_empty, String.append_assoc]
    rfl
  | .named _ | .map _ _ _ | .repeated _ => rfl

theorem render_nestedLines (depth : Nat) :
    ∀ decls, render (nestedLines depth (ofDecls decls)) = nestedText depth decls
  | [] => rfl
  | decl :: rest => by
    simp only [ofDecls, nestedText, nestedLines_append, render_append]
    rw [render_lines_ofDecl? depth decl, render_nestedLines depth rest]

end

theorem isSome_ofDecl? (decl : Decl) : (ofDecl? decl).isSome = decl.isDeclaration := by
  cases decl <;> rfl

theorem render_topLines_ofDecl? (decl : Decl) :
    render (topLines (ofDecl? decl).toList) = topLevelText decl := by
  have text := render_lines_ofDecl? 0 decl
  rw [topLevelText, ← isSome_ofDecl?]
  cases found : ofDecl? decl with
  | none => rfl
  | some block =>
    simp only [found, Option.toList_some, nestedLines, List.append_nil] at text
    simp only [Option.toList_some, topLines, List.flatMap_cons, List.flatMap_nil, List.append_nil,
      render_cons, text]
    rfl

end Block

/-- The text of declarations is that of their blocks. -/
theorem body_eq_render (decls : List Decl) :
    body decls = render (Block.topLines (decls.filterMap Block.ofDecl?)) := by
  rw [← Block.ofDecls_eq_filterMap]
  induction decls with
  | nil => rfl
  | cons decl rest induction =>
    have split : Block.topLines (Block.ofDecls (decl :: rest))
        = Block.topLines (Block.ofDecl? decl).toList ++ Block.topLines (Block.ofDecls rest) :=
      List.flatMap_append
    rw [split, render_append, Block.render_topLines_ofDecl?, ← induction]
    exact String.join_cons

end Protoschema.Proto
