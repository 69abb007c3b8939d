import Protoschema.Proofs.Lines
/-!
Reading blocks back. A reader goes through the lines and keeps the declarations whose end it has not
seen. It puts together the blocks that the lines are of, at any depth of nesting, so the text of
readable blocks gives back these blocks.
-/

namespace Protoschema.Proto

/-! ### The reader of blocks -/

/-- A declaration whose end is not read yet. -/
inductive Frame
  | enum (ident : String) (values : List String) (comment : Option String)
  | message (ident : String) (nested : List Block) (entries : List Entry) (comment : Option String)
  /-- A message, inside of the fields that exclude each other. -/
  | choice (ident : String) (nested : List Block) (entries : List Entry) (comment : Option String)
  /-- A message, behind the fields that exclude each other. -/
  | chosen (ident : String) (nested : List Block) (entries : List Entry) (comment : Option String)

/-- What is read so far: whole blocks, open declarations, the innermost first, and a comment for
what comes next. -/
structure Reader where
  blocks : List Block := []
  frames : List Frame := []
  comment : Option String := none

namespace Reader

/-- Puts a block where the reader stands: among the whole ones, or into the innermost message. -/
def add (reader : Reader) (block : Block) : Option Reader :=
  match reader.frames with
  | [] => some { reader with blocks := reader.blocks ++ [block] }
  | .message ident nested [] comment :: outer =>
    some { reader with frames := .message ident (nested ++ [block]) [] comment :: outer }
  | _ => none

/-- Opens a declaration, which takes the comment that was kept. -/
def push (reader : Reader) (frame : Option String → Frame) : Reader :=
  { reader with frames := frame reader.comment :: reader.frames, comment := none }

/-- Closes the innermost declaration. -/
def close (reader : Reader) : Option Reader :=
  match reader.frames with
  | [] => none
  | .enum ident values comment :: outer =>
    { reader with frames := outer }.add (.enum ident values comment)
  | .message ident nested entries comment :: outer =>
    { reader with frames := outer }.add (.message ident nested entries comment)
  | .choice ident nested entries comment :: outer =>
    some { reader with frames := .chosen ident nested entries comment :: outer }
  | .chosen ident nested entries comment :: outer =>
    { reader with frames := outer }.add (.union ident nested entries comment)

/-- Reads one more line. -/
def step (reader : Reader) : Line → Option Reader
  | .blank => some reader
  | .comment text => some { reader with comment := some text }
  | .message ident => some (reader.push (.message ident [] []))
  | .enum ident => some (reader.push (.enum ident []))
  | .choice =>
    match reader.frames with
    | .message ident nested [] comment :: outer =>
      some { reader with frames := .choice ident nested [] comment :: outer }
    | _ => none
  | .field entry =>
    match reader.frames with
    | .message ident nested entries comment :: outer =>
      some { reader with frames := .message ident nested (entries ++ [entry]) comment :: outer }
    | .choice ident nested entries comment :: outer =>
      some { reader with frames := .choice ident nested (entries ++ [entry]) comment :: outer }
    | _ => none
  | .value ident _ =>
    match reader.frames with
    | .enum name values comment :: outer =>
      some { reader with frames := .enum name (values ++ [ident]) comment :: outer }
    | _ => none
  | .closing => reader.close

/-- Reads lines one after the other. -/
def run (reader : Reader) (lines : List Line) : Option Reader :=
  lines.foldlM step reader

/-- The blocks that were read, if nothing is left open. -/
def finish : Reader → Option (List Block)
  | ⟨blocks, [], none⟩ => some blocks
  | _ => none

end Reader

/-- The blocks of a text. -/
def readBlocks? (text : String) : Option (List Block) :=
  (readLines? text).bind fun lines => (Reader.run {} lines).bind Reader.finish

/-! ### Reading the lines of blocks -/

namespace Reader

theorem run_append (reader : Reader) (first second : List Line) :
    reader.run (first ++ second) = (reader.run first).bind fun next => next.run second :=
  List.foldlM_append

theorem run_cons (reader : Reader) (line : Line) (rest : List Line) :
    reader.run (line :: rest) = (reader.step line).bind fun next => next.run rest :=
  List.foldlM_cons

@[simp] theorem run_nil (reader : Reader) : reader.run [] = some reader := rfl

/-- Lines that each put one more item into the innermost declaration. -/
theorem run_growing {α β : Type} (blocks : List Block) (outer : List Frame)
    (frame : List α → Frame) (line : β → Line) (item : β → α)
    (grows : ∀ before x, step ⟨blocks, frame before :: outer, none⟩ (line x)
      = some ⟨blocks, frame (before ++ [item x]) :: outer, none⟩)
    (items : List β) (before : List α) :
    run ⟨blocks, frame before :: outer, none⟩ (items.map line)
      = some ⟨blocks, frame (before ++ items.map item) :: outer, none⟩ := by
  induction items generalizing before with
  | nil => simp
  | cons x rest induction => simp [run_cons, grows, induction]

theorem run_comment (blocks : List Block) (frames : List Frame) (depth : Nat)
    (comment : Option String) :
    run ⟨blocks, frames, none⟩ ((Block.commentLines depth comment).map Prod.snd)
      = some ⟨blocks, frames, comment⟩ := by
  cases comment <;> rfl

theorem run_entryLines (blocks : List Block) (outer : List Frame) (frame : List Entry → Frame)
    (grows : ∀ before entry, step ⟨blocks, frame before :: outer, none⟩ (.field entry)
      = some ⟨blocks, frame (before ++ [entry]) :: outer, none⟩)
    (depth : Nat) (entries : List Entry) :
    run ⟨blocks, frame [] :: outer, none⟩ ((Block.entryLines depth entries).map Prod.snd)
      = some ⟨blocks, frame entries :: outer, none⟩ := by
  have grown := run_growing blocks outer frame .field id grows entries []
  simpa [Block.entryLines, Function.comp_def] using grown

theorem run_valueLines (blocks : List Block) (outer : List Frame) (ident : String)
    (comment : Option String) (depth : Nat) (values : List String) :
    run ⟨blocks, .enum ident [] comment :: outer, none⟩
        ((Block.valueLines depth values).map Prod.snd)
      = some ⟨blocks, .enum ident values comment :: outer, none⟩ := by
  have grown := run_growing blocks outer (.enum ident · comment)
    (fun value : String × Nat => .value value.1 value.2) Prod.fst (fun _ _ => rfl) values.zipIdx []
  simpa [Block.valueLines, Function.comp_def] using grown

-- The two are proved along the recursion of the lines. What is nested comes before the entries, so
-- it is read while the message has no entries yet; a field, a choice or a closing line ends it.
mutual

/-- The lines of a block are read as this block, wherever the reader stands. -/
theorem run_lines (blocks : List Block) (frames : List Frame) (depth : Nat) :
    ∀ block, run ⟨blocks, frames, none⟩ ((Block.lines depth block).map Prod.snd)
      = add ⟨blocks, frames, none⟩ block
  | .enum ident values comment => by
    simp only [Block.lines, List.map_append, List.map_cons, run_append, run_comment, run_cons,
      Option.bind_some, step, push]
    rw [run_valueLines]
    simp [close]
  | .message ident nested entries comment => by
    simp only [Block.lines, List.map_append, List.map_cons, run_append, run_comment, run_cons,
      Option.bind_some, step, push]
    rw [run_nestedLines blocks frames ident comment (depth + 1) [] nested, Option.bind_some,
      List.nil_append, run_entryLines blocks frames (.message ident nested · comment)
        (fun _ _ => rfl)]
    simp [close]
  | .union ident nested entries comment => by
    simp only [Block.lines, List.map_append, List.map_cons, run_append, run_comment, run_cons,
      Option.bind_some, step, push]
    rw [run_nestedLines blocks frames ident comment (depth + 1) [] nested, Option.bind_some,
      List.nil_append, Option.bind_some, run_entryLines blocks frames
        (.choice ident nested · comment) (fun _ _ => rfl)]
    -- the first closing line ends the choice, and the second one the message around it
    simp [close]

theorem run_nestedLines (blocks : List Block) (outer : List Frame) (ident : String)
    (comment : Option String) (depth : Nat) (before : List Block) :
    ∀ nested, run ⟨blocks, .message ident before [] comment :: outer, none⟩
        ((Block.nestedLines depth nested).map Prod.snd)
      = some ⟨blocks, .message ident (before ++ nested) [] comment :: outer, none⟩
  | [] => by simp [Block.nestedLines]
  | block :: rest => by
    simp only [Block.nestedLines, List.map_append, run_append]
    rw [run_lines]
    simp only [add, Option.bind_some]
    rw [run_nestedLines]
    simp

end

theorem run_topLines (before blocks : List Block) :
    run ⟨before, [], none⟩ ((Block.topLines blocks).map Prod.snd)
      = some ⟨before ++ blocks, [], none⟩ := by
  induction blocks generalizing before with
  | nil => simp [Block.topLines]
  | cons block rest induction =>
    have split : Block.topLines (block :: rest)
        = (0, .blank) :: (block.lines 0 ++ Block.topLines rest) := List.flatMap_cons
    simp only [split, List.map_cons, List.map_append, run_cons, step, run_append, Option.bind_some,
      run_lines, add]
    rw [induction]
    simp

end Reader

/-- The text of readable blocks is read as these blocks. -/
theorem readBlocks?_render {blocks : List Block}
    (readable : ∀ line ∈ Block.topLines blocks, line.2.Readable) :
    readBlocks? (render (Block.topLines blocks)) = some blocks := by
  have read : Reader.run {} ((Block.topLines blocks).map Prod.snd) = some ⟨blocks, [], none⟩ :=
    Reader.run_topLines [] blocks
  rw [readBlocks?, readLines?_render readable, Option.bind_some, read]
  rfl

end Protoschema.Proto
