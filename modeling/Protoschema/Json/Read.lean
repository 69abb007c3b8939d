import Protoschema.Entries
import Protoschema.Json.Outline
import Protoschema.Reading.Layout
import Protoschema.Text.Quoted
/-!
Reading a JSON text by a layout. Members are read in the order of the text, so the first fault in it
is the one reported. A record may also be written as the list of its members. Of what a layout does
not name, only the form is checked. At most 127 lists and objects may be open at once.
-/

namespace Protoschema.Json

open Reading (Want Record Member Datum Place Step Cause)

/-- What reading yields. -/
abbrev Reads (α : Type) := Except Reading.Fault α

/-- A fault of the text at a place. -/
def broken {α : Type} (place : Place) (fault : Fault) : Reads α :=
  .error ⟨place, .malformed fault.message, []⟩

/-- The value of a token. -/
def Token.read {α : Type} (token : Token α) (place : Place) : Reads α :=
  match token.value with
  | .ok value => .ok value
  | .error fault => broken place fault

/-- What stands in a place, in the words of a message. -/
def Outline.describe (place : Place) : Outline → Reads String
  | .null => .ok "null"
  | .flag value => .ok ("boolean `" ++ (if value then "true" else "false") ++ "`")
  | .number token => do
    match ← token.read place with
    | .whole value => return "integer `" ++ toString value ++ "`"
    | .real value => return "floating point `" ++ Number.realText value ++ "`"
  | .text token => do return "string " ++ Text.quoted (← token.read place)
  | .list _ _ => .ok "sequence"
  | .object _ _ => .ok "map"
  | .brokenWord fault => broken place fault
  | .nothing => broken place .endInValue
  | .junk => broken place .expectedValue

/-- The fault of a value that is not what is wanted. -/
def mismatch {α : Type} (place : Place) (wanted : String) (outline : Outline) : Reads α := do
  .error ⟨place, .wrongType (← outline.describe place) wanted, []⟩

/-- Goes on unless there is a fault. -/
def require (place : Place) : Option Fault → Reads Unit
  | none => .ok ()
  | some fault => broken place fault

/-- Opens one more list or object. -/
def openOne (place : Place) : Nat → Reads Nat
  | 0 => broken place .tooDeep
  | depth + 1 => .ok depth

/-- The fault of a key that no colon follows. -/
def colonFault (textEnds : Bool) : Fault :=
  if textEnds then .endInObject else .expectedColon

/-- Checks the end of an object's members, all of which have been read. A fault in the next key is
placed behind the object, and a missing colon in it. -/
def endMembers (place : Place) (stop : Stop) : Reads Unit :=
  match stop with
  | .brokenKey key => do
    let _ ← key.read (place ++ [.unknown])
    broken (place ++ [.unknown]) .endInString
  | .noColon key textEnds => do
    let _ ← key.read (place ++ [.unknown])
    broken place (colonFault textEnds)
  | stop => require (place ++ [.unknown]) stop.objectFault?

mutual

/-- A value of any kind. -/
def readAny (depth : Nat) (place : Place) : Outline → Reads Value
  | .null => .ok .null
  | .flag value => .ok (.flag value)
  | .number token => do return .number (← token.read place)
  | .text token => do return .text (← token.read place)
  | .list items stop => do
    let depth ← openOne place depth
    let items ← readAnyItems depth place 0 items
    require place stop.listFault?
    return .list items
  | .object members stop => do
    let depth ← openOne place depth
    let members ← readAnyMembers depth place members
    endMembers place stop
    return .object (Entries.ofList members)
  | .brokenWord fault => broken place fault
  | .nothing => broken place .endInValue
  | .junk => broken place .expectedValue

/-- The items of a list of any values. -/
def readAnyItems (depth : Nat) (place : Place) (position : Nat) :
    List Outline → Reads (List Value)
  | [] => .ok []
  | item :: rest => do
    let value ← readAny depth (place ++ [.index position]) item
    return value :: (← readAnyItems depth place (position + 1) rest)

/-- The members of an object of any values. -/
def readAnyMembers (depth : Nat) (place : Place) :
    List (Token String × Outline) → Reads (List (String × Value))
  | [] => .ok []
  | (key, value) :: rest => do
    let key ← key.read (place ++ [.unknown])
    let value ← readAny depth (place ++ [.key key]) value
    return (key, value) :: (← readAnyMembers depth place rest)

end

/-- A run mode: its name, or an object whose only key is the name and whose value is null. -/
def readMode (depth : Nat) (place : Place) (outline : Outline) : Reads Datum := do
  let named (token : Token String) : Reads String := do
    let name ← token.read place
    if Reading.modeNames.contains name then return name
    else .error ⟨place, .unknownMode name, []⟩
  match outline with
  | .text token => return .text (← named token)
  | .object ((key, value) :: rest) stop =>
    let _ ← openOne place depth
    let name ← named key
    let inside := place ++ [.key name]
    match value with
    | .null =>
      match rest, stop with
      | [], .closed => return .text name
      | [], .ends => broken place .endInObject
      | _, _ => broken place .expectedValue
    | value => mismatch inside "unit" value
  | .object [] stop =>
    let _ ← openOne place depth
    match stop with
    | .ends => broken place .endInObject
    | .notKey => broken place .keyNotString
    | .brokenKey key => do
      let _ ← named key
      broken place .expectedValue
    | .noColon key textEnds => do
      let _ ← named key
      broken place (colonFault textEnds)
    | _ => broken place .expectedValue
  | .nothing => broken place .endInValue
  | _ => broken place .expectedValue

/-- Reads what is wanted in a place, records, lists and maps apart. -/
def readPlain (depth : Nat) (place : Place) : Want → Outline → Reads Datum
  | .text, .text token => do return .text (← token.read place)
  | .flag, .flag value => .ok (.flag value)
  | .flagOrNode, .flag value => .ok (.flag value)
  | .flagOrNode, .list items stop => do
    let _ ← openOne place depth
    mismatch place Want.flagOrNode.title (.list items stop)
  | .anything, outline => do return .any (← readAny depth place outline)
  | .mode, outline => readMode depth place outline
  | want, outline => mismatch place want.title outline

/-- The key of a member, once it is sure that the record can take it. -/
def readKey (place : Place) (record : Record) (read : List (String × Datum))
    (token : Token String) : Reads String := do
  let key ← token.read (place ++ [.unknown])
  if (record.member? key).isNone && record.isClosed then
    .error ⟨place ++ [.key key], .unknownMember key (record.members.map Member.key), []⟩
  else if (read.lookup key).isSome then .error ⟨place, .duplicateMember key, []⟩
  else return key

/-- Checks the end of a list of members, all of which have been read. -/
def endPositions (place : Place) : Stop → Reads Unit
  | .closed => .ok ()
  | .ends => broken place .endInList
  | .commaCloses => broken place .trailingComma
  | _ => broken place .trailingCharacters

mutual

/-- Reads what is wanted in a place. The first argument is the number of lists and objects that may
still be opened. -/
def readWant (depth : Nat) (place : Place) (want : Want) : Outline → Reads Datum
  | .list items stop =>
    match want.core with
    | .listOf inner => do
      let depth ← openOne place depth
      let items ← readItems depth place inner 0 items
      require place stop.listFault?
      return .list items
    | .record record => do
      let depth ← openOne place depth
      return .record (← readPositions depth place record record.members 0 items stop)
    | core => readPlain depth place core (.list items stop)
  | .object members stop =>
    match want.core with
    | .mapOf inner => do
      let depth ← openOne place depth
      let entries ← readEntries depth place inner members
      endMembers place stop
      return .map (Entries.ofList entries)
    | .record record => do
      let depth ← openOne place depth
      readRecord depth place record [] members stop
    | .flagOrNode => do
      let depth ← openOne place depth
      readRecord depth place .node [] members stop
    | core => readPlain depth place core (.object members stop)
  | .null => if want.isOptional then .ok .absent else readPlain depth place want.core .null
  | outline => readPlain depth place want.core outline

/-- Reads the items of a list. -/
def readItems (depth : Nat) (place : Place) (want : Want) (position : Nat) :
    List Outline → Reads (List Datum)
  | [] => .ok []
  | item :: rest => do
    let datum ← readWant depth (place ++ [.index position]) want item
    return datum :: (← readItems depth place want (position + 1) rest)

/-- Reads the entries of a map. -/
def readEntries (depth : Nat) (place : Place) (want : Want) :
    List (Token String × Outline) → Reads (List (String × Datum))
  | [] => .ok []
  | (key, value) :: rest => do
    let key ← key.read (place ++ [.unknown])
    let datum ← readWant depth (place ++ [.key key]) want value
    return (key, datum) :: (← readEntries depth place want rest)

/-- Reads the members of a record, of which some have been read already. -/
def readRecord (depth : Nat) (place : Place) (record : Record) (read : List (String × Datum)) :
    List (Token String × Outline) → Stop → Reads Datum
  | [], .noColon token textEnds => do
    let _ ← readKey place record read token
    broken place (colonFault textEnds)
  | [], stop => do
    endMembers place stop
    return record.datum read
  | (token, value) :: rest, stop => do
    let key ← readKey place record read token
    match record.member? key with
    | some member =>
      let datum ← readWant depth (place ++ [.key key]) member.want value
      readRecord depth place record (read ++ [(key, datum)]) rest stop
    | none =>
      require (place ++ [.key key]) value.passedFault?
      readRecord depth place record read rest stop

/-- Reads the members of a record written as a list, from the given one on. -/
def readPositions (depth : Nat) (place : Place) (record : Record) (members : List Member)
    (position : Nat) : List Outline → Stop → Reads (List Datum)
  | [], stop =>
    if members.isEmpty then do
      endPositions place stop
      return []
    else do
      require place stop.listFault?
      match members.findIdx? (! ·.omissible) with
      | some missing =>
        .error ⟨place, .tooShort (position + missing) record.title record.members.length, []⟩
      | none => return members.map fun _ => .absent
  | item :: rest, stop =>
    match members with
    | [] => broken place .trailingCharacters
    | member :: later => do
      let datum ← readWant depth (place ++ [.index position]) member.want item
      return datum :: (← readPositions depth place record later (position + 1) rest stop)

end

/-- How many lists and objects may be open at once. -/
def depthLimit : Nat := 127

/-- Reads a text as one record. -/
def read (record : Record) (text : String) : Reads Datum :=
  readWant depthLimit [] (.record record) (outline text)

end Protoschema.Json
