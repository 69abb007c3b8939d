import Protoschema.Files.Disk
import Protoschema.Text.Ranges
/-!
Patterns of paths. In a segment, `?` stands for any character, `*` for any characters, and brackets
for one character of a set; the segment `**` stands for any directories. The paths that match a
pattern come in ascending order of their components.
-/

namespace Protoschema.Glob

/-- A part of a pattern. -/
inductive Token
  | literal (c : Char)
  | anyChar
  | anyText
  | anyDepth
  /-- One character in some ranges, or in none of them. -/
  | oneOf (ranges : Text.Ranges) (negated : Bool)
deriving DecidableEq, Repr

/-- What is wrong with a pattern. -/
inductive Problem
  | wildcards
  | recursiveWildcards
  | range
deriving DecidableEq, Repr

/-- What is wrong with a pattern, and where. -/
structure PatternError where
  position : Nat
  problem : Problem
deriving DecidableEq, Repr

/-- The wording of a pattern error. -/
def PatternError.message (error : PatternError) : String :=
  "Pattern syntax error near position " ++ toString error.position ++ ": " ++
    match error.problem with
    | .wildcards => "wildcards are either regular `*` or recursive `**`"
    | .recursiveWildcards => "recursive wildcards must form a single path component"
    | .range => "invalid range pattern"

/-! ### Reading patterns -/

/-- The ranges of a set. -/
def ranges : List Char → Text.Ranges
  | first :: '-' :: last :: rest => (first, last) :: ranges rest
  | c :: rest => (c, c) :: ranges rest
  | [] => []

/-- The set behind an opening bracket, and what follows it. The first character of a set may be a
closing bracket. -/
def takeSet : List Char → Option (Token × List Char)
  | '!' :: first :: rest =>
    let inside := rest.takeWhile (· != ']')
    if inside.length = rest.length then none
    else some (.oneOf (ranges (first :: inside)) true, rest.drop (inside.length + 1))
  | first :: rest =>
    let inside := rest.takeWhile (· != ']')
    if first = '!' ∨ inside.length = rest.length then none
    else some (.oneOf (ranges (first :: inside)) false, rest.drop (inside.length + 1))
  | [] => none

/-- The part that two stars make up, given what follows them. -/
def takeDeep (position : Nat) (fresh : Bool) (rest : List Char) :
    Except PatternError (List Char) :=
  if !fresh then .error ⟨position - 1, .recursiveWildcards⟩
  else
    match rest with
    | [] => .ok []
    | '/' :: rest => .ok rest
    | _ => .error ⟨position + 2, .recursiveWildcards⟩

/-- The parts of a pattern from a position on; `fresh` at the start of a segment. -/
def tokensFrom : Nat → (position : Nat) → (fresh : Bool) → List Char →
    Except PatternError (List Token)
  | 0, _, _, _ => .ok []
  | _, _, _, [] => .ok []
  | fuel + 1, position, fresh, '*' :: rest =>
    let stars := (rest.takeWhile (· == '*')).length
    let rest := rest.drop stars
    match stars with
    | 0 => do return .anyText :: (← tokensFrom fuel (position + 1) false rest)
    | 1 => do
      let after ← takeDeep position fresh rest
      let used := 2 + (rest.length - after.length)
      return .anyDepth :: (← tokensFrom fuel (position + used) true after)
    | _ => .error ⟨position + 2, .wildcards⟩
  | fuel + 1, position, _, '[' :: rest =>
    match takeSet rest with
    | some (token, after) => do
      return token :: (← tokensFrom fuel (position + 1 + (rest.length - after.length)) false after)
    | none => .error ⟨position, .range⟩
  | fuel + 1, position, _, '?' :: rest => do
    return .anyChar :: (← tokensFrom fuel (position + 1) false rest)
  | fuel + 1, position, _, c :: rest => do
    return .literal c :: (← tokensFrom fuel (position + 1) (c == '/') rest)

/-- The parts of a pattern. -/
def tokens (pattern : List Char) : Except PatternError (List Token) :=
  tokensFrom (pattern.length + 1) 0 true pattern

/-- Whether a text is a pattern and not just a path. -/
def isPattern (text : String) : Bool :=
  text.toList.any fun c => c == '*' || c == '?' || c == '['

/-! ### Matching names -/

/-- Whether a part that stands for one character takes it. -/
def Token.takes (token : Token) (c : Char) : Bool :=
  match token with
  | .literal own => c == own
  | .oneOf ranges negated => ranges.has c != negated
  | _ => true

/-- What can be left of a text behind a part, given what can be left of it before the part, the
longest first. -/
def Token.ends (token : Token) (texts : List (List Char)) : List (List Char) :=
  match token with
  | .anyText | .anyDepth => (texts.head?.map Text.suffixes).getD []
  | token => texts.filterMap fun (text : List Char) =>
    match text with
    | c :: rest => if token.takes c then some rest else none
    | [] => none

/-- Whether a text consists of what the parts stand for. -/
def fits (tokens : List Token) (text : List Char) : Bool :=
  (tokens.foldl (fun texts token => token.ends texts) [text]).contains []

/-! ### Matching paths -/

/-- The pattern of one segment. -/
abbrev Segment := List Token

/-- The text of a segment without wildcards. -/
def literal? (segment : Segment) : Option String :=
  (segment.mapM fun (token : Token) => match token with
    | .literal c => some c
    | _ => none).map String.ofList

/-- Whether a segment stands for any directories. -/
def isDeep (segment : Segment) : Bool :=
  segment = [.anyDepth]

/-- The path of what lies in a directory. The start of all paths is not written out. -/
def child (path : Path) (name : String) : Path :=
  if path.components = [.here] then name else path.join name

/-- The entries `..` and `.` of a directory, as far as a segment names them with a leading dot. -/
def dotEntries (segment : Segment) (path : Path) : List Path :=
  match segment with
  | .literal '.' :: _ =>
    (["..", "."].filter fun name => fits segment name.toList).map path.join
  | _ => []

mutual

/-- The paths below a directory that match segments. -/
def below (disk : Disk) : Nat → List Segment → Path → List Path
  | 0, _, _ => []
  | _, [], path => [path]
  | fuel + 1, segment :: rest, path =>
    match literal? segment with
    | some text =>
      let next := child path text
      let there :=
        if text = "." ∨ text = ".." then disk.isDirectory path else disk.isThere next
      if there then below disk fuel rest next else []
    | none =>
      match disk.list path with
      | .error _ => []
      | .ok names =>
        (dotEntries segment path).flatMap (below disk fuel rest)
          ++ names.flatMap fun name => entry disk fuel (segment :: rest) path name

/-- The paths at or below an entry of a directory that match segments. -/
def entry (disk : Disk) : Nat → List Segment → Path → String → List Path
  | 0, _, _, _ => []
  | _, [], _, _ => []
  | fuel + 1, segment :: rest, path, name =>
    let next := child path name
    if isDeep segment then
      let rest := rest.dropWhile isDeep
      let deeper := if disk.isDirectory next then below disk fuel (segment :: rest) next else []
      let here :=
        if rest.isEmpty then (if disk.isDirectory next then [next] else [])
        else entry disk fuel rest path name
      here ++ deeper
    else if fits segment name.toList then below disk fuel rest next
    else []

end

/-! ### Order -/

/-- The place of a component in the order of paths. -/
def rank : Component → Nat × String
  | .root => (0, "")
  | .here => (1, "")
  | .up => (2, "")
  | .name text => (3, text)

/-- Whether components come before others, or are the same. -/
def notAfter : List Component → List Component → Bool
  | [], _ => true
  | _ :: _, [] => false
  | a :: as, b :: bs =>
    if a = b then notAfter as bs
    else (rank a).1 < (rank b).1 || ((rank a).1 == (rank b).1 && (rank a).2 < (rank b).2)

/-- Paths in ascending order of their components. -/
def sorted (paths : List Path) : List Path :=
  paths.mergeSort fun a b => notAfter a.components b.components

/-- How many names lead to a file at most. -/
def depth (disk : Disk) : Nat :=
  (disk.files.map (·.1.length) ++ disk.directories.map List.length).foldl max 0

/-- The segments of a pattern; a slash at its end makes none. -/
def segmentTexts (pattern : List Char) : List (List Char) :=
  let pieces := pattern.splitOn '/'
  if pieces.getLast? = some [] then pieces.dropLast else pieces

/-- The paths that match a pattern, in ascending order. -/
def expand (disk : Disk) (pattern : String) : Except PatternError (List Path) := do
  let chars := pattern.toList
  let _ ← tokens chars
  let root := (chars.takeWhile (· == '/')).length
  let segments ← (segmentTexts (chars.drop root)).mapM tokens
  let start := if root = 0 then "." else "/"
  let found := below disk (2 * (depth disk + segments.length) + 4) segments start
  let found :=
    if chars.getLast? = some '/' then found.filter fun path => disk.isDirectory path else found
  return sorted found

end Protoschema.Glob
