import Protoschema.Text.Ranges
/-!
Regular expressions that pick names: alternatives, anchors, sets of characters, groups and
repetition. A name is picked if the expression matches somewhere in it.
-/

namespace Protoschema

/-- A regular expression. -/
inductive Regular
  | empty
  /-- One character in some ranges, or in none of them. -/
  | one (ranges : Text.Ranges) (negated : Bool)
  | start
  | finish
  | seq (first second : Regular)
  | alt (first second : Regular)
  | star (repeated : Regular)
deriving DecidableEq, Repr

namespace Regular

/-! ### Matching -/

/-- All that any number of rounds can leave, given what is known of it and what of that is new. -/
def rounds (round : List (List Char) → List (List Char)) :
    Nat → (known fresh : List (List Char)) → List (List Char)
  | 0, known, _ => known
  | count + 1, known, fresh =>
    let next := (round fresh).eraseDups.filter (! known.contains ·)
    if next.isEmpty then known else rounds round count (known ++ next) next

/-- What can be left behind the expression of a text whose whole length is given, given what can be
left of it before. -/
def ends (length : Nat) : Regular → List (List Char) → List (List Char)
  | .empty, texts => texts
  | .one ranges negated, texts => texts.filterMap fun (text : List Char) =>
    match text with
    | c :: rest => if ranges.has c != negated then some rest else none
    | [] => none
  | .start, texts => texts.filter (·.length = length)
  | .finish, texts => texts.filter List.isEmpty
  | .seq first second, texts => ends length second (ends length first texts)
  | .alt first second, texts => (ends length first texts ++ ends length second texts).eraseDups
  | .star repeated, texts => rounds (ends length repeated) (length + 1) texts texts

/-- Whether the expression matches somewhere in a text. -/
def picks (regular : Regular) (text : String) : Bool :=
  !(regular.ends text.length (Text.suffixes text.toList)).isEmpty

/-! ### Reading -/

/-- One character. -/
def char (c : Char) : Regular :=
  .one [(c, c)] false

/-- The digits. -/
def digits : Text.Ranges := [('0', '9')]

/-- Characters of words. -/
def wordChars : Text.Ranges := [('a', 'z'), ('A', 'Z'), ('0', '9'), ('_', '_')]

/-- Blanks. -/
def blanks : Text.Ranges := [('\t', '\r'), (' ', ' ')]

/-- The set that a letter behind a backslash stands for. -/
def escape? (c : Char) : Option Regular :=
  match c with
  | 'd' => some (.one digits false)
  | 'D' => some (.one digits true)
  | 'w' => some (.one wordChars false)
  | 'W' => some (.one wordChars true)
  | 's' => some (.one blanks false)
  | 'S' => some (.one blanks true)
  | 'A' => some .start
  | 'z' => some .finish
  | 'n' => some (char '\n')
  | 't' => some (char '\t')
  | 'r' => some (char '\r')
  | c => if c.isAlphanum || 128 ≤ c.toNat then none else some (char c)

/-- The ranges of a set, up to its closing bracket. -/
def setRanges : Nat → (first : Bool) → List Char → Option (Text.Ranges × List Char)
  | 0, _, _ => none
  | _, _, [] => none
  | fuel + 1, first, ']' :: rest =>
    if first then
      (setRanges fuel false rest).map fun (ranges, after) => ((']', ']') :: ranges, after)
    else some ([], rest)
  | fuel + 1, _, '\\' :: c :: rest =>
    match escape? c with
    | some (.one own false) =>
      (setRanges fuel false rest).map fun (ranges, after) => (own ++ ranges, after)
    | _ => none
  | fuel + 1, _, low :: '-' :: high :: rest =>
    if high = ']' then
      (setRanges fuel false ('-' :: high :: rest)).map fun (ranges, after) =>
        ((low, low) :: ranges, after)
    else if high < low then none
    else (setRanges fuel false rest).map fun (ranges, after) => ((low, high) :: ranges, after)
  | fuel + 1, _, c :: rest =>
    (setRanges fuel false rest).map fun (ranges, after) => ((c, c) :: ranges, after)

/-- A set behind its opening bracket. -/
def set? (text : List Char) : Option (Regular × List Char) :=
  match text with
  | '^' :: rest =>
    (setRanges (rest.length + 1) true rest).map fun (ranges, after) => (.one ranges true, after)
  | rest =>
    (setRanges (rest.length + 1) true rest).map fun (ranges, after) => (.one ranges false, after)

/-- The marks of repetition behind an expression. A question mark behind such a mark prefers the
shorter match, which does not change whether there is one. -/
def repeated (regular : Regular) : List Char → Regular × List Char
  | '*' :: '?' :: rest => repeated (.star regular) rest
  | '*' :: rest => repeated (.star regular) rest
  | '+' :: '?' :: rest => repeated (.seq regular (.star regular)) rest
  | '+' :: rest => repeated (.seq regular (.star regular)) rest
  | '?' :: '?' :: rest => repeated (.alt regular .empty) rest
  | '?' :: rest => repeated (.alt regular .empty) rest
  | rest => (regular, rest)

mutual

/-- Alternatives, and what follows them. -/
def alternatives? : Nat → List Char → Option (Regular × List Char)
  | 0, _ => none
  | fuel + 1, text => do
    let (first, rest) ← sequence? fuel text
    match rest with
    | '|' :: rest =>
      let (second, rest) ← alternatives? fuel rest
      return (.alt first second, rest)
    | rest => return (first, rest)

/-- Expressions one behind the other, and what follows them. -/
def sequence? : Nat → List Char → Option (Regular × List Char)
  | 0, _ => none
  | _, [] => some (.empty, [])
  | fuel + 1, c :: rest =>
    if c = '|' ∨ c = ')' then some (.empty, c :: rest)
    else do
      let (first, rest) ← atom? fuel c rest
      let (first, rest) := repeated first rest
      let (second, rest) ← sequence? fuel rest
      return (.seq first second, rest)

/-- One expression without repetition, given its first character. -/
def atom? : Nat → Char → List Char → Option (Regular × List Char)
  | 0, _, _ => none
  | fuel + 1, c, rest =>
    match c with
    | '(' => do
      let inside := match rest with
        | '?' :: ':' :: inside => inside
        | inside => inside
      match ← alternatives? fuel inside with
      | (regular, ')' :: rest) => return (regular, rest)
      | _ => none
    | '[' => set? rest
    | '.' => some (.one [('\n', '\n')] true, rest)
    | '^' => some (.start, rest)
    | '$' => some (.finish, rest)
    | '\\' =>
      match rest with
      | escaped :: rest => (escape? escaped).map (·, rest)
      | [] => none
    | '*' | '+' | '?' | '\x7b' => none
    | c => some (char c, rest)

end

/-- The expression that a text stands for. -/
def ofText? (text : String) : Option Regular :=
  match alternatives? (4 * text.length + 8) text.toList with
  | some (regular, []) => some regular
  | _ => none

end Regular

end Protoschema
