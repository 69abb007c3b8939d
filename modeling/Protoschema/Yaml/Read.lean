import Protoschema.Entries
import Protoschema.Yaml.Plain
/-!
Reading a YAML text by a layout. Members are read in the order of the text, so the first fault in it
is the one reported. Any scalar serves as a text. An empty value stands for an empty list, map or
record. At most 128 collections may be open at once, and aliases may be followed a hundred times as
often as there are marks in the document.
-/

namespace Protoschema.Yaml

open Reading (Want Record Member Datum Place Step Cause)

/-- The number of aliases followed so far, beside a result or a fault. -/
abbrev Reads (α : Type) := StateT Nat (Except Reading.Fault) α

/-- A place in a document: as it is reported, and as messages name it. The two differ behind a key
that is written as an alias. -/
structure Spot where
  place : Place := []
  named : Place := []

namespace Spot

/-- The value under a key; `shown` unless the key is not a scalar. -/
def key (spot : Spot) (name : String) (shown : Bool) : Spot :=
  ⟨spot.place ++ [.key name], spot.named ++ [if shown then .key name else .unknown]⟩

/-- The item at a position. -/
def index (spot : Spot) (position : Nat) : Spot :=
  ⟨spot.place ++ [.index position], spot.named ++ [.index position]⟩

/-- The next key, as long as it is not known. -/
def nextKey (spot : Spot) : Spot :=
  { spot with place := spot.place ++ [.unknown] }

/-- A value that does not fit the layout. -/
def fail {α : Type} (spot : Spot) (cause : Cause) : Reads α :=
  throw ⟨spot.place, cause, spot.named⟩

/-- A value that is refused before it is looked into: the message names what holds it. -/
def refuse {α : Type} (spot : Spot) (cause : Cause) : Reads α :=
  throw ⟨spot.place, cause, spot.named.dropLast⟩

/-- A text that cannot be read on. -/
def broken {α : Type} (spot : Spot) (message : String) : Reads α :=
  throw ⟨spot.place, .malformed message, []⟩

end Spot

/-- The fault that cut a document. -/
def Source.cutMessage (source : Source) : String :=
  (source.fault.map Fault.message).getD ""

/-- Follows an alias. -/
def Source.follow (source : Source) (spot : Spot) : Tree → Reads Tree
  | .alias number => do
    let count ← get
    if source.events * 100 ≤ count then spot.broken "repetition limit exceeded"
    else
      set (count + 1)
      return (source.anchored? number).getD .cut
  | tree => return tree

/-- What a scalar means, where its tag must fit. -/
def scalarMeaning (spot : Spot) (properties : Properties) (text : String) (style : Style) :
    Reads Meaning :=
  match meaning properties.tag text style with
  | .ok found => return found
  | .error cause => spot.fail cause

/-- The fault of a value that is not what is wanted. -/
def Source.mismatch {α : Type} (source : Source) (spot : Spot) (wanted : String) :
    Tree → Reads α
  | .scalar properties text style => do
    let found ← scalarMeaning spot properties text style
    spot.fail (.wrongType found.describe wanted)
  | .sequence _ _ _ => spot.fail (.wrongType "sequence" wanted)
  | .mapping _ _ _ => spot.fail (.wrongType "map" wanted)
  | .void => spot.broken "EOF while parsing a value"
  | _ => spot.broken source.cutMessage

/-- Goes on unless a fault cut the document here. -/
def Source.require (source : Source) (spot : Spot) (whole : Bool) : Reads Unit :=
  if whole then return () else spot.broken source.cutMessage

/-- Whether a tree stands for an empty collection. -/
def Tree.isEmptyPlain : Tree → Bool
  | .scalar _ text style => text = "" && style = .plain
  | .void => true
  | _ => false

/-- Whether a key is written out. -/
def Tree.isScalar : Tree → Bool
  | .scalar _ _ _ => true
  | _ => false

/-- The text of a key. -/
def Source.readKey (source : Source) (spot : Spot) (wanted : String) (key : Tree) :
    Reads String := do
  match ← source.follow spot.nextKey key with
  | .scalar _ text _ => return text
  | tree => source.mismatch spot.nextKey wanted tree

/-- Opens one more collection. -/
def openOne (spot : Spot) : Nat → Reads Nat
  | 0 => spot.broken "recursion limit exceeded"
  | depth + 1 => return depth

/-- Reads the items of a list, each in the same way. -/
def readEach {α : Type} (spot : Spot) (read : Spot → Tree → Reads α) :
    Nat → List Tree → Reads (List α)
  | _, [] => return []
  | position, item :: rest => do
    let value ← read (spot.index position) item
    return value :: (← readEach spot read (position + 1) rest)

/-- Reads the entries of a mapping, each in the same way. What the first key is called where it is
no scalar is given apart. -/
def Source.readEntries {α : Type} (source : Source) (spot : Spot) (first : String)
    (read : Spot → Tree → Reads α) : List (Tree × Tree) → Reads (List (String × α))
  | [] => return []
  | (key, value) :: rest => do
    let name ← source.readKey spot first key
    let value ← read (spot.key name key.isScalar) value
    return (name, value) :: (← readEntries source spot "a string" read rest)

/-- The value that a scalar means. -/
def Meaning.value (spot : Spot) : Meaning → Reads Json.Value
  | .null => return .null
  | .flag value => return .flag value
  | .whole value => return .number (.whole value)
  | .wide _ => spot.fail .numberOutOfRange
  | .real value => return if value.isFinite then .number (.real value) else .null
  | .text value => return .text value

/-- The tag of a tree. -/
def Tree.tag? : Tree → Option Octets
  | .scalar properties _ _ => properties.tag
  | .sequence properties _ _ => properties.tag
  | .mapping properties _ _ => properties.tag
  | _ => none

/-- Refuses a value that has a tag of the text's own. -/
def refuseTag (spot : Spot) (wanted : String) (tree : Tree) : Reads Unit :=
  match ownTag? tree.tag? with
  | some _ => spot.fail (.wrongType "enum" wanted)
  | none => return ()

/-- A value of any kind. -/
def Source.readAny (source : Source) (depth : Nat) (spot : Spot) (tree : Tree) :
    Reads Json.Value := do
  let tree ← source.follow spot tree
  refuseTag spot Want.anything.title tree
  match tree with
  | .scalar properties text style =>
    (← scalarMeaning spot properties text style).value spot
  | .sequence _ items whole =>
    match depth with
    | 0 => spot.broken "recursion limit exceeded"
    | depth + 1 => do
      let items ← readEach spot (fun spot item => readAny source depth spot item) 0 items
      source.require spot whole
      return .list items
  | .mapping _ entries whole =>
    match depth with
    | 0 => spot.broken "recursion limit exceeded"
    | depth + 1 => do
      let entries ← source.readEntries spot "a string key"
        (fun spot value => readAny source depth spot value) entries
      source.require spot.nextKey whole
      return .object (Entries.ofList entries)
  | .void => return .null
  | _ => spot.broken source.cutMessage

/-- A run mode named by a tag, which must stand before nothing. -/
def Source.readTaggedMode (source : Source) (spot : Spot) (name : String) (tree : Tree) :
    Reads Datum :=
  if !Reading.modeNames.contains name then spot.refuse (.unknownMode name)
  else
    let inside : Spot := { spot with place := spot.place ++ [.key name] }
    match tree with
    | .scalar _ text style =>
      if style = .plain && isNullWord text then return .text name
      else inside.fail (.wrongValue ("string " ++ Text.quoted text) "null")
    | tree => source.mismatch inside "unit" tree

/-- A run mode: its name, as a text or as a tag of nothing. -/
def Source.readMode (source : Source) (spot : Spot) (tree : Tree) : Reads Datum :=
  match ownTag? tree.tag?, tree with
  | some name, tree => source.readTaggedMode spot name tree
  | none, .scalar _ text _ =>
    if Reading.modeNames.contains text then return .text text else spot.fail (.unknownMode text)
  | none, tree => source.mismatch spot "a YAML tag starting with '!'" tree

/-- Reads what is wanted from a tree that is no collection of the wanted kind. -/
def Source.readPlain (source : Source) (depth : Nat) (spot : Spot) (want : Want) (tree : Tree) :
    Reads Datum :=
  match want with
  | .text =>
    match tree with
    | .scalar _ text _ => return .text text
    | tree => source.mismatch spot want.title tree
  | .flag =>
    match tree with
    | .scalar properties text style =>
      let literal := style = .plain || (style = .literal && properties.tag = some (coreTag "bool"))
      match if literal then flagWord? text else none with
      | some value => return .flag value
      | none => source.mismatch spot want.title tree
    | tree => source.mismatch spot want.title tree
  | .flagOrNode => do
    refuseTag spot want.title tree
    match tree with
    | .scalar properties text style =>
      match ← scalarMeaning spot properties text style with
      | .flag value => return .flag value
      | found => spot.fail (.wrongType found.describe want.title)
    | .sequence _ _ _ =>
      let _ ← openOne spot depth
      source.mismatch spot want.title tree
    | tree => source.mismatch spot want.title tree
  | .anything => do return .any (← source.readAny depth spot tree)
  | .mode => source.readMode spot tree
  | .listOf _ => if tree.isEmptyPlain then return .list [] else source.mismatch spot want.title tree
  | .mapOf _ => if tree.isEmptyPlain then return .map [] else source.mismatch spot want.title tree
  | .record which =>
    if tree.isEmptyPlain then return which.datum [] else source.mismatch spot want.title tree
  | .optional inner => source.mismatch spot inner.title tree

/-- Whether a tree stands for nothing, where nothing may stand. A plain scalar with a tag does so
only if the tag says so, and then it must be a word for nothing. -/
def isNothing (spot : Spot) : Tree → Reads Bool
  | .scalar properties text style =>
    if style != .plain then return false
    else
      match properties.tag with
      | none => return isNullWord text
      | some tag =>
        if tag != coreTag "null" then return false
        else if text != "" && isNullWord text then return true
        else spot.refuse (.wrongValue ("string " ++ Text.quoted text) "null")
  | .void => return true
  | _ => return false

/-- Reads the members of a record, of which some have been read already. -/
def Source.readMembers (source : Source) (spot : Spot) (record : Record)
    (read : Spot → Want → Tree → Reads Datum) (known : List (String × Datum)) :
    List (Tree × Tree) → Reads (List (String × Datum))
  | [] => return known
  | (key, value) :: rest => do
    let name ← source.readKey spot "field identifier" key
    let inside := spot.key name key.isScalar
    match record.member? name with
    | some member =>
      if (known.lookup name).isSome then spot.fail (.duplicateMember name)
      else
        let datum ← read inside member.want value
        readMembers source spot record read (known ++ [(name, datum)]) rest
    | none =>
      if record.isClosed then
        throw ⟨inside.place, .unknownMember name (record.members.map Member.key), spot.named⟩
      else
        source.require inside value.isWhole
        readMembers source spot record read known rest

/-- The record whose members a mapping gives. -/
def keyed? : Want → Option Record
  | .record which => some which
  | .flagOrNode => some .node
  | _ => none

/-- Reads what is wanted in a place. The number is that of collections that may still be opened. -/
def Source.readWant (source : Source) (depth : Nat) (spot : Spot) (want : Want) (tree : Tree) :
    Reads Datum := do
  let tree ← match want with
    | .anything => pure tree
    | _ => source.follow spot tree
  let absent ← if want.isOptional then isNothing spot tree else pure false
  if absent then return .absent
  else
    match want.core, tree with
    | .listOf inner, .sequence _ items whole =>
      match depth with
      | 0 => spot.broken "recursion limit exceeded"
      | depth + 1 => do
        let items ← readEach spot (fun spot item => readWant source depth spot inner item) 0 items
        source.require spot whole
        return .list items
    | .mapOf inner, .mapping _ entries whole =>
      match depth with
      | 0 => spot.broken "recursion limit exceeded"
      | depth + 1 => do
        let entries ← source.readEntries spot "a string"
          (fun spot value => readWant source depth spot inner value) entries
        source.require spot.nextKey whole
        return .map (Entries.ofList entries)
    | core, .mapping properties entries whole =>
      match keyed? core with
      | none => source.readPlain depth spot core (.mapping properties entries whole)
      | some record =>
        match depth with
        | 0 => spot.broken "recursion limit exceeded"
        | depth + 1 => do
          if core = .flagOrNode then refuseTag spot core.title (.mapping properties entries whole)
          let members ← source.readMembers spot record
            (fun spot want value => readWant source depth spot want value) [] entries
          source.require spot.nextKey whole
          return record.datum members
    | core, tree => source.readPlain depth spot core tree

/-- How many collections may be open at once. -/
def depthLimit : Nat := 128

/-- Reads a document as one record. -/
def Source.read (source : Source) (record : Record) : Except Reading.Fault Datum := do
  let (datum, _) ← (source.readWant depthLimit {} (.record record) source.root).run 0
  match source.fault with
  | some fault => throw ⟨[], .malformed fault.message, []⟩
  | none =>
    if source.continues then
      throw ⟨[], .malformed
        "deserializing from YAML containing more than one document is not supported", []⟩
    else return datum

/-- Reads a text as one record. -/
def read (record : Record) (text : String) : Except Reading.Fault Datum :=
  (Source.ofText text).read record

end Protoschema.Yaml
