import Protoschema.Yaml.Tokens
import Protoschema.Yaml.Tree
/-!
The first document of a YAML text: its tree, built from tokens, the fault that cut it, and whether
anything follows it.
-/

namespace Protoschema.Yaml

/-- Tokens that are still to be used, with what has been defined before them. -/
structure Feed where
  tokens : List Token
  /-- The fault behind the last token. -/
  fault : Fault
  /-- The numbers of the anchors by name. -/
  anchors : List (String × Nat) := []
  /-- The meanings of the tag handles. -/
  handles : List (String × Octets) := []

/-- Where building goes on, if it does. -/
abbrev Next := Except Fault Feed

namespace Feed

/-- The next token. -/
def peek (feed : Feed) : Except Fault Token :=
  match feed.tokens with
  | token :: _ => .ok token
  | [] => .error feed.fault

/-- Leaves the next token behind. -/
def advance (feed : Feed) : Feed :=
  { feed with tokens := feed.tokens.drop 1 }

/-- Numbers an anchor. A name that is used again takes the number of a new one. -/
def nameAnchor (feed : Feed) : Option String → Option Nat × Feed
  | none => (none, feed)
  | some name =>
    let number := feed.anchors.length
    if feed.anchors.any (·.1 == name) then
      (some number, { feed with anchors := feed.anchors.map fun entry =>
        if entry.1 == name then (name, number) else entry })
    else (some number, { feed with anchors := feed.anchors ++ [(name, number)] })

/-- The tag that a handle and a suffix stand for. -/
def resolveTag (feed : Feed) (handle : String) (suffix : Octets) : Except Fault Octets :=
  if handle = "" then .ok suffix
  else
    match feed.handles.lookup handle with
    | some start => .ok (start ++ suffix)
    | none => .error ⟨"found undefined tag handle", "while parsing a node"⟩

/-- The tag and the anchor in front of a node, in any order. -/
def takeProperties (feed : Feed) : Except Fault (Option Octets × Option String × Feed) := do
  match ← feed.peek with
  | .anchor name =>
    match ← feed.advance.peek with
    | .tag handle suffix =>
      let _ ← feed.advance.advance.peek
      return (some (← feed.resolveTag handle suffix), some name, feed.advance.advance)
    | _ => return (none, some name, feed.advance)
  | .tag handle suffix =>
    match ← feed.advance.peek with
    | .anchor name =>
      let _ ← feed.advance.advance.peek
      return (some (← feed.resolveTag handle suffix), some name, feed.advance.advance)
    | _ => return (some (← feed.resolveTag handle suffix), none, feed.advance)
  | _ => return (none, none, feed)

end Feed

/-- An item, and the items behind it unless a fault came first. -/
def itemThen (item : Option Tree × Next) (more : Feed → List Tree × Next) : List Tree × Next :=
  match item with
  | (item, .error fault) => (item.toList, .error fault)
  | (item, .ok feed) =>
    let (items, next) := more feed
    (item.toList ++ items, next)

/-- A key, its value and the entries behind it, as far as no fault came first. -/
def entryThen (key : Option Tree × Next) (value : Feed → Option Tree × Next)
    (more : Feed → List (Tree × Tree) × Next) : List (Tree × Tree) × Next :=
  match key with
  | (none, next) => ([], next)
  | (some key, .error fault) => ([(key, .cut)], .error fault)
  | (some key, .ok feed) =>
    match value feed with
    | (value, .error fault) => ([(key, value.getD .cut)], .error fault)
    | (value, .ok feed) =>
      let (entries, next) := more feed
      ((key, value.getD .empty) :: entries, next)

/-- A collection from its parts. -/
def collect {α : Type} (build : List α → Bool → Tree) (parts : List α × Next) :
    Option Tree × Next :=
  (some (build parts.1 parts.2.toBool), parts.2)

mutual

/-- A node. `block` says whether it may be a block collection, `dashes` whether items may stand in
the column of what holds them. -/
def node : Nat → (block dashes : Bool) → Feed → Option Tree × Next
  | 0, _, _, feed => (none, .error feed.fault)
  | fuel + 1, block, dashes, feed =>
    match feed.peek with
    | .ok (.alias name) =>
      match feed.anchors.lookup name with
      | some number => (some (.alias number), .ok feed.advance)
      | none => (none, .error ⟨"unknown anchor", ""⟩)
    | _ =>
      match feed.takeProperties with
      | .error fault => (none, .error fault)
      | .ok (tag, anchor, feed) =>
        let (number, named) := feed.nameAnchor anchor
        let properties : Properties := ⟨tag, number⟩
        let rest := named.advance
        match feed.peek with
        | .error fault => (none, .error fault)
        | .ok (.scalar text style) => (some (.scalar properties text style), .ok rest)
        | .ok .openSequence => collect (.sequence properties) (flowItems fuel true rest)
        | .ok .openMapping => collect (.mapping properties) (flowEntries fuel true rest)
        | .ok token =>
          if dashes && token = .blockEntry then
            collect (.sequence properties) (dashItems fuel named)
          else if block && token = .blockSequence then
            collect (.sequence properties) (blockItems fuel rest)
          else if block && token = .blockMapping then
            collect (.mapping properties) (blockEntries fuel rest)
          else if tag.isSome || anchor.isSome then
            (some (.scalar properties "" .plain), .ok named)
          else
            (none, .error ⟨"did not find expected node content",
              if block then "while parsing a block node" else "while parsing a flow node"⟩)

/-- A node, or an empty one if the next token belongs to what holds it. -/
def nodeUnless (stops : List Token) : Nat → (block dashes : Bool) → Feed → Option Tree × Next
  | 0, _, _, feed => (none, .error feed.fault)
  | fuel + 1, block, dashes, feed =>
    match feed.peek with
    | .error fault => (none, .error fault)
    | .ok token =>
      if stops.contains token then (some .empty, .ok feed) else node fuel block dashes feed

/-- The items of a block sequence. -/
def blockItems : Nat → Feed → List Tree × Next
  | 0, feed => ([], .error feed.fault)
  | fuel + 1, feed =>
    match feed.peek with
    | .error fault => ([], .error fault)
    | .ok .blockEntry =>
      itemThen (nodeUnless [.blockEntry, .blockEnd] fuel true false feed.advance)
        fun feed => blockItems fuel feed
    | .ok .blockEnd => ([], .ok feed.advance)
    | .ok _ =>
      ([], .error ⟨"did not find expected '-' indicator", "while parsing a block collection"⟩)

/-- The items of a block sequence in the column of the mapping that holds it. -/
def dashItems : Nat → Feed → List Tree × Next
  | 0, feed => ([], .error feed.fault)
  | fuel + 1, feed =>
    match feed.peek with
    | .error fault => ([], .error fault)
    | .ok .blockEntry =>
      itemThen (nodeUnless [.blockEntry, .key, .value, .blockEnd] fuel true false feed.advance)
        fun feed => dashItems fuel feed
    | .ok _ => ([], .ok feed)

/-- The entries of a block mapping. -/
def blockEntries : Nat → Feed → List (Tree × Tree) × Next
  | 0, feed => ([], .error feed.fault)
  | fuel + 1, feed =>
    match feed.peek with
    | .error fault => ([], .error fault)
    | .ok .key =>
      entryThen (nodeUnless [.key, .value, .blockEnd] fuel true true feed.advance)
        (fun feed => blockValue fuel feed) (fun feed => blockEntries fuel feed)
    | .ok .blockEnd => ([], .ok feed.advance)
    | .ok _ => ([], .error ⟨"did not find expected key", "while parsing a block mapping"⟩)

/-- The value of an entry of a block mapping. -/
def blockValue : Nat → Feed → Option Tree × Next
  | 0, feed => (none, .error feed.fault)
  | fuel + 1, feed =>
    match feed.peek with
    | .error fault => (none, .error fault)
    | .ok .value => nodeUnless [.key, .value, .blockEnd] fuel true true feed.advance
    | .ok _ => (some .empty, .ok feed)

/-- The items of a sequence in brackets. -/
def flowItems : Nat → (first : Bool) → Feed → List Tree × Next
  | 0, _, feed => ([], .error feed.fault)
  | fuel + 1, first, feed =>
    match feed.peek with
    | .error fault => ([], .error fault)
    | .ok .closeSequence => ([], .ok feed.advance)
    | .ok token =>
      if first then flowItem fuel feed
      else if token = .flowEntry then flowItem fuel feed.advance
      else ([], .error ⟨"did not find expected ',' or ']'", "while parsing a flow sequence"⟩)

/-- An item of a sequence in brackets, and those behind it. A lone entry is a mapping of its own. -/
def flowItem : Nat → Feed → List Tree × Next
  | 0, feed => ([], .error feed.fault)
  | fuel + 1, feed =>
    match feed.peek with
    | .error fault => ([], .error fault)
    | .ok .closeSequence => ([], .ok feed.advance)
    | .ok .key =>
      itemThen
        (collect (.mapping {}) <|
          entryThen (pairKey fuel feed.advance)
            (fun feed => flowValue [.flowEntry, .closeSequence] fuel feed)
            (fun feed => ([], .ok feed)))
        (fun feed => flowItems fuel false feed)
    | .ok _ => itemThen (node fuel false false feed) fun feed => flowItems fuel false feed

/-- The key of a lone entry. -/
def pairKey : Nat → Feed → Option Tree × Next
  | 0, feed => (none, .error feed.fault)
  | fuel + 1, feed =>
    match feed.peek with
    | .error fault => (none, .error fault)
    | .ok token =>
      if [Token.value, .flowEntry, .closeSequence].contains token then
        (some .empty, .ok feed.advance)
      else node fuel false false feed

/-- The entries of a mapping in brackets. -/
def flowEntries : Nat → (first : Bool) → Feed → List (Tree × Tree) × Next
  | 0, _, feed => ([], .error feed.fault)
  | fuel + 1, first, feed =>
    match feed.peek with
    | .error fault => ([], .error fault)
    | .ok .closeMapping => ([], .ok feed.advance)
    | .ok token =>
      if first then flowPair fuel feed
      else if token = .flowEntry then flowPair fuel feed.advance
      else
        ([], .error ⟨"did not find expected ',' or '\x7d'", "while parsing a flow mapping"⟩)

/-- An entry of a mapping in brackets, and those behind it. -/
def flowPair : Nat → Feed → List (Tree × Tree) × Next
  | 0, feed => ([], .error feed.fault)
  | fuel + 1, feed =>
    match feed.peek with
    | .error fault => ([], .error fault)
    | .ok .closeMapping => ([], .ok feed.advance)
    | .ok .key =>
      entryThen (nodeUnless [.value, .flowEntry, .closeMapping] fuel false false feed.advance)
        (fun feed => flowValue [.flowEntry, .closeMapping] fuel feed)
        (fun feed => flowEntries fuel false feed)
    | .ok _ =>
      entryThen (node fuel false false feed)
        (fun feed => (feed.peek.toOption.map fun _ => Tree.empty, feed.peek.map fun _ => feed))
        (fun feed => flowEntries fuel false feed)

/-- The value of an entry inside brackets. -/
def flowValue (stops : List Token) : Nat → Feed → Option Tree × Next
  | 0, feed => (none, .error feed.fault)
  | fuel + 1, feed =>
    match feed.peek with
    | .error fault => (none, .error fault)
    | .ok .value => nodeUnless stops fuel false false feed.advance
    | .ok _ => (some .empty, .ok feed)

end

/-! ### Documents -/

/-- The first document of a text. -/
structure Source where
  root : Tree
  /-- The fault that cut the tree, or that stands right behind it. -/
  fault : Option Fault := none
  /-- Whether anything but the end of the text follows the document. -/
  continues : Bool := false
  /-- The number of marks that make up the document. -/
  events : Nat := root.events
  /-- The nodes with an anchor, by its number; the last one counts, and comes first. -/
  anchored : List (Nat × Tree) := root.anchored.reverse

/-- The node with an anchor number. -/
def Source.anchored? (source : Source) (number : Nat) : Option Tree :=
  source.anchored.lookup number

/-- The octets that the core kinds' tags start with. -/
def coreStart : Octets :=
  "tag:yaml.org,2002:".toList.map fun c => c.toNat.toUInt8

/-- The handles that need no directive. -/
def defaultHandles : List (String × Octets) :=
  [("!", [bang]), ("!!", coreStart)]

/-- Takes the directives in front of a document. -/
def takeDirectives (version : Bool) (feed : Feed) : Nat → Except Fault Feed
  | 0 => .error feed.fault
  | fuel + 1 => do
    match ← feed.peek with
    | .version major minor =>
      if version then .error ⟨"found duplicate %YAML directive", ""⟩
      else if major = 1 ∧ (minor = 1 ∨ minor = 2) then takeDirectives true feed.advance fuel
      else .error ⟨"found incompatible YAML document", ""⟩
    | .tagHandle handle start =>
      if feed.handles.any (·.1 == handle) then .error ⟨"found duplicate %TAG directive", ""⟩
      else
        takeDirectives version
          { feed.advance with handles := feed.handles ++ [(handle, start)] } fuel
    | _ => return { feed with handles := feed.handles ++ defaultHandles }

/-- Whether anything but the end of the text follows a document. -/
def Feed.continues (feed : Feed) : Bool :=
  match feed.tokens.dropWhile (· = .documentEnd) with
  | .streamEnd :: _ => false
  | _ => true

/-- What stands behind the root of a document. -/
def Source.finish (root : Tree) (feed : Feed) : Source :=
  match feed.peek with
  | .error fault => { root, fault := some fault }
  | .ok _ => { root, continues := feed.continues }

/-- Builds a document from its root. -/
def Source.ofRoot (root : Option Tree × Next) : Source :=
  match root with
  | (root, .error fault) => { root := root.getD .cut, fault := some fault }
  | (root, .ok feed) => .finish (root.getD .cut) feed

/-- The first document of a list of tokens, given the fault behind them. -/
def Source.ofTokens (tokens : List Token) (fault : Fault) : Source :=
  let fuel := 4 * tokens.length + 8
  let feed : Feed := { tokens, fault }
  match feed.peek with
  | .error fault => { root := .cut, fault := some fault }
  | .ok .streamEnd => { root := .void }
  | .ok token =>
    match token with
    | .version _ _ | .tagHandle _ _ | .documentStart =>
      match takeDirectives false feed fuel with
      | .error fault => { root := .cut, fault := some fault }
      | .ok feed =>
        match feed.peek with
        | .ok .documentStart =>
          let stops := fun token => match token with
            | .version _ _ | .tagHandle _ _ | .documentStart | .documentEnd | .streamEnd => true
            | _ => false
          match feed.advance.peek with
          | .error fault => { root := .cut, fault := some fault }
          | .ok token =>
            if stops token then .finish .empty feed.advance
            else .ofRoot (node fuel true false feed.advance)
        | .ok _ =>
          { root := .cut, fault := some ⟨"did not find expected <document start>", ""⟩ }
        | .error fault => { root := .cut, fault := some fault }
    | _ => .ofRoot (node fuel true false { feed with handles := defaultHandles })

/-- The first document of a text. -/
def Source.ofText (text : String) : Source :=
  let (found, fault) := tokens text
  .ofTokens found (fault.getD ⟨"", ""⟩)

end Protoschema.Yaml
