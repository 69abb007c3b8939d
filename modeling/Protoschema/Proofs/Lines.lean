import Protoschema.Proofs.Blocks
import Protoschema.Proofs.Identifiers
/-!
Reading lines back. A line is known by its tokens: by the marks of a comment, by an equality sign,
or by a keyword. That holds if identifiers and types are words, so that none of them is a mark, and
if comments stay on their line. The text of such lines falls apart into these lines again.
-/

namespace Protoschema.Proto

/-! ### The reader of lines -/

/-- The number in front of a semicolon. -/
def readNumber (token : String) : Nat :=
  Nat.ofDigitChars 10 token.toList.dropLast 0

/-- The comment between the two marks of one; none if there are no tokens. -/
def comment? : List String → Option String
  | [] => none
  | _ :: rest => some (" ".intercalate rest.dropLast)

/-- The line with these tokens on the left of an equality sign. -/
def Line.ofLeft? (left : List String) (number : Nat) (comment : Option String) : Option Line :=
  match left with
  | [ident] => some (.value ident number)
  | [type, ident] => some (.field ⟨false, type, ident, number, comment⟩)
  | [first, second, ident] =>
    if first = "repeated" then some (.field ⟨true, second, ident, number, comment⟩)
    else some (.field ⟨false, first ++ " " ++ second, ident, number, comment⟩)
  | _ => none

/-- The line with these tokens, none of which is an equality sign. -/
def Line.ofMarks? : List String → Option Line
  | [mark] => if mark = "" then some .blank else some .closing
  | [keyword, ident, _] =>
    if keyword = "message" then some (.message ident)
    else if keyword = "enum" then some (.enum ident)
    else some .choice
  | _ => none

/-- The line with these tokens. -/
def Line.ofTokens? (tokens : List String) : Option Line :=
  if tokens.head? = some "/*" then (comment? tokens).map .comment
  else
    match tokens.dropWhile (· ≠ "=") with
    | _ :: token :: rest =>
      Line.ofLeft? (tokens.takeWhile (· ≠ "=")) (readNumber token) (comment? rest)
    | _ => Line.ofMarks? tokens

/-- A line without the tabs in front. -/
def unindented (text : String) : String :=
  String.ofList (text.toList.dropWhile (· == '\t'))

/-- The lines of a text, each of which ends with a line feed. -/
def readLines? (text : String) : Option (List Line) :=
  (pieces '\n' text).dropLast.mapM fun piece => Line.ofTokens? (pieces ' ' (unindented piece))

/-! ### Words and tokens -/

/-- Whether a text could stand for an identifier or a dotted name. -/
def isWord (text : String) : Bool :=
  text.toList.all fun c => Ident.isPlain c || c == '.'

/-- Whether a text is free of blanks. -/
def isToken (text : String) : Bool :=
  text.toList.all fun c => !Text.isBlank c

/-- Whether a text has no other blanks than spaces, as a comment on one line has it. -/
def isOnLine (text : String) : Bool :=
  text.toList.all fun c => !Text.isBlank c || c == ' '

theorem isBlank_of_isPlain {c : Char} (plain : Ident.isPlain c = true) :
    Text.isBlank c = false := by
  -- both classes are ranges of codes, and no two of them meet
  have code : c.toNat = c.val.toNat := rfl
  delta Ident.isPlain Char.isAlphanum Char.isAlpha Char.isUpper Char.isLower Char.isDigit at plain
  simp only [Bool.or_eq_true, Bool.and_eq_true, decide_eq_true_eq, UInt32.le_iff_toNat_le,
    beq_iff_eq] at plain
  simp only [Text.isBlank, Bool.or_eq_false_iff, Bool.and_eq_false_iff, decide_eq_false_iff_not,
    beq_eq_false_iff_ne]
  rcases plain with letter | rfl
  · simp at letter
    omega
  · decide

theorem isToken_of_isWord {text : String} (word : isWord text = true) : isToken text = true := by
  simp only [isWord, isToken, List.all_eq_true] at word ⊢
  intro c member
  have plain := word c member
  rw [Bool.or_eq_true, beq_iff_eq] at plain
  rcases plain with plain | rfl
  · simp [isBlank_of_isPlain plain]
  · decide

theorem notMem_of_isWord {text : String} {c : Char} (word : isWord text = true)
    (special : (Ident.isPlain c || c == '.') = false) : c ∉ text.toList := by
  intro member
  rw [List.all_eq_true.mp word c member] at special
  cases special

theorem ne_of_isWord {text other : String} (word : isWord text = true)
    (odd : isWord other = false) : text ≠ other := by
  rintro rfl
  rw [word] at odd
  cases odd

theorem notMem_of_isToken {text : String} {c : Char} (token : isToken text = true)
    (blank : Text.isBlank c = true) : c ∉ text.toList := by
  intro member
  have unblank := List.all_eq_true.mp token c member
  simp [blank] at unblank

theorem mem_of_mem_splitOn {text piece : List Char} {separator c : Char}
    (member : piece ∈ text.splitOn separator) (inside : c ∈ piece) : c ∈ text ∧ c ≠ separator := by
  induction text generalizing piece with
  | nil =>
    rw [List.splitOn_nil, List.mem_singleton] at member
    rw [member] at inside
    cases inside
  | cons head rest induction =>
    rw [List.splitOn_cons_eq_if_modifyHead] at member
    have later : ∀ other ∈ rest.splitOn separator, c ∈ other → c ∈ head :: rest ∧ c ≠ separator :=
      fun other member inside => (induction member inside).imp_left (List.mem_cons_of_mem head)
    split at member
    · rcases List.mem_cons.mp member with rfl | old
      · cases inside
      · exact later piece old inside
    · -- the first piece has one more character in front, which does not separate
      rename_i other
      obtain ⟨first, others, split⟩ :=
        List.exists_cons_of_ne_nil (List.splitOn_ne_nil separator rest)
      rw [split] at member later
      rcases List.mem_cons.mp member with rfl | old
      · rcases List.mem_cons.mp inside with rfl | behind
        · exact ⟨List.mem_cons_self, by simpa using other⟩
        · exact later first List.mem_cons_self behind
      · exact later piece (List.mem_cons_of_mem first old) inside

theorem isToken_of_mem_pieces {text token : String} (onLine : isOnLine text = true)
    (member : token ∈ pieces ' ' text) : isToken token = true := by
  obtain ⟨piece, split, rfl⟩ := List.mem_map.mp member
  simp only [isToken, List.all_eq_true, String.toList_ofList]
  intro c inside
  obtain ⟨within, other⟩ := mem_of_mem_splitOn split inside
  have blank := List.all_eq_true.mp onLine c within
  simpa [other] using blank

theorem mem_intercalate {α : Type} {separator : List α} {pieces : List (List α)} {x : α}
    (member : x ∈ separator.intercalate pieces) : x ∈ separator ∨ ∃ piece ∈ pieces, x ∈ piece := by
  induction pieces with
  | nil => simp at member
  | cons first rest induction =>
    cases rest with
    | nil => exact Or.inr ⟨first, List.mem_cons_self, by simpa using member⟩
    | cons second others =>
      simp only [List.intercalate_cons_cons, List.mem_append] at member
      rcases member with (inside | between) | later
      · exact Or.inr ⟨first, List.mem_cons_self, inside⟩
      · exact Or.inl between
      · apply (induction later).imp_right
        rintro ⟨piece, listed, inside⟩
        exact ⟨piece, List.mem_cons_of_mem first listed, inside⟩

theorem pieces_intercalate {separator : Char} {tokens : List String}
    (free : ∀ token ∈ tokens, separator ∉ token.toList) (some : tokens ≠ []) :
    pieces separator ((String.singleton separator).intercalate tokens) = tokens := by
  have chars : ∀ piece ∈ tokens.map String.toList, separator ∉ piece := by
    simpa using free
  rw [pieces, String.toList_intercalate, String.toList_singleton,
    List.splitOn_intercalate separator chars (by simpa using some), List.map_map]
  simp [Function.comp_def]

theorem pieces_of_notMem {separator : Char} {text : String} (free : separator ∉ text.toList) :
    pieces separator text = [text] := by
  simp [pieces, List.splitOn_eq_singleton free]

/-! ### Reading a line -/

/-- A field whose type is a word, a list of one or a map to one. -/
structure Entry.Readable (entry : Entry) : Prop where
  type : isWord entry.type = true ∨ entry.repeated = false ∧
    ∃ value, isWord value = true ∧ entry.type = "map<string, " ++ value ++ ">"
  ident : isWord entry.ident = true
  comment : ∀ text ∈ entry.comment, isOnLine text = true

/-- A line with words for identifiers, and a comment that stays on it. -/
def Line.Readable : Line → Prop
  | .comment text => isOnLine text = true
  | .message ident | .enum ident | .value ident _ => isWord ident = true
  | .field entry => entry.Readable
  | .blank | .choice | .closing => True

theorem readNumber_toString (number : Nat) : readNumber (toString number ++ ";") = number := by
  have digits : (toString number ++ ";").toList.dropLast = Nat.toDigits 10 number := by
    rw [Nat.toString_eq_ofList_toDigits]
    simp
  rw [readNumber, digits, Nat.ofDigitChars_ten_toDigits]

theorem comment?_commentTokens (text : String) : comment? (commentTokens text) = some text := by
  simp [comment?, commentTokens, intercalate_pieces]

theorem comment?_getD (comment : Option String) :
    comment? ((comment.map commentTokens).getD []) = comment := by
  cases comment with
  | none => rfl
  | some text => exact comment?_commentTokens text

theorem forall_ne_of_notMem {tokens : List String} (free : "=" ∉ tokens) :
    ∀ token ∈ tokens, decide (token ≠ "=") = true := by
  intro token member
  exact decide_eq_true (ne_of_mem_of_not_mem member free)

theorem Line.ofTokens?_assignment (left : List String) (number : Nat) (comment : Option String)
    (nonempty : left ≠ []) (uncommented : left.head? ≠ some "/*") (free : "=" ∉ left) :
    Line.ofTokens? (left ++ "=" :: (toString number ++ ";") :: (comment.map commentTokens).getD [])
      = Line.ofLeft? left number comment := by
  have before := forall_ne_of_notMem free
  have head : ∀ rest, (left ++ rest).head? = left.head? := by
    intro rest
    cases left with
    | nil => contradiction
    | cons token others => rfl
  rw [Line.ofTokens?, head, if_neg uncommented, List.dropWhile_append_of_pos before,
    List.takeWhile_append_of_pos before]
  have right := congrArg (Line.ofLeft? left · comment) (readNumber_toString number)
  simpa [comment?_getD] using right

/-- The three forms of what is on the left of a field's equality sign. -/
theorem Entry.Readable.left {entry : Entry} (readable : entry.Readable) :
    (entry.repeated = false ∧ entry.left = [entry.type, entry.ident] ∧ isWord entry.type = true) ∨
    (entry.repeated = true ∧ entry.left = ["repeated", entry.type, entry.ident] ∧
      isWord entry.type = true) ∨
    (entry.repeated = false ∧ ∃ value, isWord value = true ∧
      entry.type = "map<string," ++ " " ++ (value ++ ">") ∧
      entry.left = ["map<string,", value ++ ">", entry.ident]) := by
  rcases readable.type with word | ⟨single, value, word, type⟩
  · have alone : pieces ' ' entry.type = [entry.type] :=
      pieces_of_notMem (notMem_of_isWord word (by decide))
    cases repeated : entry.repeated with
    | false => simp [Entry.left, repeated, alone, word]
    | true => simp [Entry.left, repeated, alone, word]
  · have space : ' ' ∉ (value ++ ">").toList := by
      simpa using notMem_of_isWord word (by decide)
    have same : entry.type = " ".intercalate ["map<string,", value ++ ">"] := by
      rw [type, String.intercalate_cons_cons, String.intercalate_singleton]
      simp only [String.append_assoc]
      rfl
    have split : pieces ' ' entry.type = ["map<string,", value ++ ">"] := by
      rw [same]
      exact pieces_intercalate (by simpa using space) (by simp)
    refine Or.inr (Or.inr ⟨single, value, word, ?_, ?_⟩)
    · rw [same, String.intercalate_cons_cons, String.intercalate_singleton]
    · simp [Entry.left, single, split]

theorem Line.ofTokens?_marks {tokens : List String} (uncommented : tokens.head? ≠ some "/*")
    (free : "=" ∉ tokens) : Line.ofTokens? tokens = Line.ofMarks? tokens := by
  have before := forall_ne_of_notMem free
  have past : (tokens ++ []).dropWhile (fun token => decide (token ≠ "=")) = [] :=
    List.dropWhile_append_of_pos before
  rw [List.append_nil] at past
  rw [Line.ofTokens?, if_neg uncommented, past]

theorem Entry.Readable.ofTokens? {entry : Entry} (readable : entry.Readable) :
    Line.ofTokens? (Line.tokens (.field entry)) = some (.field entry) := by
  obtain ⟨repeated, type, ident, number, comment⟩ := entry
  have name : ident ≠ "=" := ne_of_isWord readable.ident (by decide)
  -- "repeated" can be a type as well; the number of tokens tells the mark from the type
  obtain ⟨rfl, left, word⟩ | ⟨rfl, left, word⟩ | ⟨rfl, value, word, rfl, left⟩ := readable.left
  · have first : type ≠ "/*" := ne_of_isWord word (by decide)
    have type : type ≠ "=" := ne_of_isWord word (by decide)
    rw [Line.tokens, left, Line.ofTokens?_assignment _ number comment (by simp) (by simpa)
      (by simp [type.symm, name.symm])]
    rfl
  · have type : type ≠ "=" := ne_of_isWord word (by decide)
    rw [Line.tokens, left, Line.ofTokens?_assignment _ number comment (by simp) (by simp)
      (by simp [type.symm, name.symm])]
    rfl
  · -- the bracket behind the value keeps it from being an equality sign
    have value : value ++ ">" ≠ "=" := by
      intro same
      have equals : '=' ∈ (value ++ ">").toList := by simp [same]
      have absent := notMem_of_isWord word (c := '=') (by decide)
      simp [absent] at equals
    rw [Line.tokens, left, Line.ofTokens?_assignment _ number comment (by simp) (by simp)
      (by simp [value.symm, name.symm])]
    rfl

/-- A readable line is known by its tokens. -/
theorem Line.Readable.ofTokens? {line : Line} (readable : line.Readable) :
    Line.ofTokens? line.tokens = some line := by
  cases line with
  | blank | choice | closing => rfl
  | comment text =>
    have head : (commentTokens text).head? = some "/*" := rfl
    rw [Line.tokens, Line.ofTokens?, if_pos head, comment?_commentTokens]
    rfl
  | message ident | enum ident =>
    have name : ident ≠ "=" := ne_of_isWord readable (by decide)
    rw [Line.tokens, Line.ofTokens?_marks (by simp) (by simp [name.symm])]
    rfl
  | value ident number =>
    have name : ident ≠ "=" := ne_of_isWord readable (by decide)
    have first : ident ≠ "/*" := ne_of_isWord readable (by decide)
    exact Line.ofTokens?_assignment [ident] number none (by simp) (by simpa)
      (by simpa using name.symm)
  | field entry => exact Entry.Readable.ofTokens? readable

theorem isToken_of_mem_commentTokens {text token : String} (onLine : isOnLine text = true)
    (member : token ∈ commentTokens text) : isToken token = true := by
  simp only [commentTokens, List.mem_cons, List.mem_append, List.not_mem_nil, or_false] at member
  rcases member with rfl | inside | rfl
  · decide
  · exact isToken_of_mem_pieces onLine inside
  · decide

theorem isToken_append (first second : String) :
    isToken (first ++ second) = (isToken first && isToken second) := by
  simp [isToken]

theorem isToken_toString (number : Nat) : isToken (toString number) = true := by
  simp only [isToken, List.all_eq_true, Nat.toString_eq_ofList_toDigits, String.toList_ofList]
  intro c member
  have digit := Nat.isDigit_of_mem_toDigits (by simp) (by simp) member
  simp [isBlank_of_isPlain (Ident.isPlain_of_isDigit digit)]

theorem Entry.Readable.isToken_of_mem_left {entry : Entry} {token : String}
    (readable : entry.Readable) (member : token ∈ entry.left) : isToken token = true := by
  have ident := isToken_of_isWord readable.ident
  obtain ⟨_, left, word⟩ | ⟨_, left, word⟩ | ⟨_, value, word, _, left⟩ := readable.left
  · simp only [left, List.mem_cons, List.not_mem_nil, or_false] at member
    rcases member with rfl | rfl
    · exact isToken_of_isWord word
    · exact ident
  · simp only [left, List.mem_cons, List.not_mem_nil, or_false] at member
    rcases member with rfl | rfl | rfl
    · decide
    · exact isToken_of_isWord word
    · exact ident
  · simp only [left, List.mem_cons, List.not_mem_nil, or_false] at member
    rcases member with rfl | rfl | rfl
    · decide
    · rw [isToken_append, isToken_of_isWord word]
      decide
    · exact ident

/-- The tokens of a readable line have no blanks in them. -/
theorem Line.Readable.isToken {line : Line} (readable : line.Readable) :
    ∀ token ∈ line.tokens, isToken token = true := by
  have number (count : Nat) : Proto.isToken (toString count ++ ";") = true := by
    rw [isToken_append, isToken_toString]
    decide
  intro token member
  cases line with
  | blank | choice | closing =>
    revert token
    decide
  | comment text => exact isToken_of_mem_commentTokens readable member
  | message ident | enum ident =>
    simp only [Line.tokens, List.mem_cons, List.not_mem_nil, or_false] at member
    rcases member with rfl | rfl | rfl
    · decide
    · exact isToken_of_isWord readable
    · decide
  | value ident count =>
    simp only [Line.tokens, List.mem_cons, List.not_mem_nil, or_false] at member
    rcases member with rfl | rfl | rfl
    · exact isToken_of_isWord readable
    · decide
    · exact number count
  | field entry =>
    simp only [Line.tokens, List.mem_append, List.mem_cons] at member
    rcases member with left | rfl | rfl | comment
    · exact Entry.Readable.isToken_of_mem_left readable left
    · decide
    · exact number entry.number
    · cases found : entry.comment with
      | none => simp [found] at comment
      | some text =>
        rw [found] at comment
        exact isToken_of_mem_commentTokens (readable.comment text found) comment

/-! ### Reading lines -/

theorem Line.tokens_ne_nil (line : Line) : line.tokens ≠ [] := by
  cases line <;> simp [Line.tokens, commentTokens]

theorem Line.Readable.pieces_text {line : Line} (readable : line.Readable) :
    pieces ' ' line.text = line.tokens := by
  have free : ∀ token ∈ line.tokens, ' ' ∉ token.toList :=
    fun token member => notMem_of_isToken (readable.isToken token member) (by decide)
  exact pieces_intercalate free line.tokens_ne_nil

/-- The only blanks in the text of a readable line are the spaces between its tokens. -/
theorem Line.Readable.notMem_text {line : Line} {c : Char} (readable : line.Readable)
    (blank : Text.isBlank c = true) (other : c ≠ ' ') : c ∉ line.text.toList := by
  intro member
  rw [Line.text, String.toList_intercalate] at member
  rcases mem_intercalate member with space | ⟨piece, listed, within⟩
  · exact other (by simpa using space)
  · obtain ⟨token, inside, rfl⟩ := List.mem_map.mp listed
    exact notMem_of_isToken (readable.isToken token inside) blank within

theorem unindented_append {text : String} (depth : Nat) (free : '\t' ∉ text.toList) :
    unindented (String.ofList (List.replicate depth '\t') ++ text) = text := by
  have tabs : ∀ c ∈ List.replicate depth '\t', (c == '\t') = true := by
    intro c member
    simp [List.eq_of_mem_replicate member]
  have kept : text.toList.dropWhile (· == '\t') = text.toList := by
    cases chars : text.toList with
    | nil => rfl
    | cons c rest =>
      rw [chars] at free
      have other : ¬(c == '\t') = true := by
        intro tab
        exact free (by simp [eq_of_beq tab])
      exact List.dropWhile_cons_of_neg other
  rw [unindented, String.toList_append, String.toList_ofList, List.dropWhile_append_of_pos tabs,
    kept, String.ofList_toList]

/-- The first line of a text, and the others. -/
theorem readLines?_append {text : String} (free : '\n' ∉ text.toList) (rest : String) :
    readLines? (text ++ "\n" ++ rest)
      = (Line.ofTokens? (pieces ' ' (unindented text))).bind fun line =>
        (readLines? rest).map (line :: ·) := by
  have split : pieces '\n' (text ++ "\n" ++ rest) = text :: pieces '\n' rest := by
    have chars : (text ++ "\n" ++ rest).toList = text.toList ++ '\n' :: rest.toList := by simp
    rw [pieces, chars, List.splitOn_append_cons_self_of_not_mem free, List.map_cons,
      String.ofList_toList]
    rfl
  rw [readLines?, split, List.dropLast_cons_of_ne_nil (pieces_ne_nil '\n' rest), List.mapM_cons]
  change (Line.ofTokens? (pieces ' ' (unindented text)) >>= fun line =>
    readLines? rest >>= fun lines => pure (line :: lines)) = _
  cases Line.ofTokens? (pieces ' ' (unindented text)) with
  | none => rfl
  | some line => cases readLines? rest <;> rfl

theorem readLines?_render {lines : List (Nat × Line)} (readable : ∀ line ∈ lines, line.2.Readable) :
    readLines? (render lines) = some (lines.map Prod.snd) := by
  induction lines with
  | nil => rfl
  | cons line rest induction =>
    obtain ⟨depth, content⟩ := line
    have first : content.Readable := readable _ List.mem_cons_self
    have others := induction fun line member => readable line (List.mem_cons_of_mem _ member)
    have feed : '\n' ∉ (String.ofList (List.replicate depth '\t') ++ content.text).toList := by
      simpa using first.notMem_text (by decide) (by decide)
    rw [render_cons, Proto.line, readLines?_append feed,
      unindented_append depth (first.notMem_text (by decide) (by decide)), first.pieces_text,
      first.ofTokens?, others]
    rfl

end Protoschema.Proto
