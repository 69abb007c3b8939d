import Protoschema.Yaml.Token
/-!
The tree of a YAML document. A fault in the text leaves the tree that was built before it:
unfinished collections are marked as such, and a value that was announced but not reached is cut.
-/

namespace Protoschema.Yaml

/-- The properties of a node: its tag, and the number of its anchor. -/
structure Properties where
  tag : Option Octets := none
  anchor : Option Nat := none
deriving DecidableEq, Repr

/-- A node of a document. -/
inductive Tree
  | scalar (properties : Properties) (text : String) (style : Style)
  /-- The items of a list, and whether its end was reached. -/
  | sequence (properties : Properties) (items : List Tree) (whole : Bool)
  /-- The keys of a mapping with their values, and whether its end was reached. -/
  | mapping (properties : Properties) (entries : List (Tree × Tree)) (whole : Bool)
  /-- The node with this anchor number. -/
  | alias (anchor : Nat)
  /-- A node that a fault came before. -/
  | cut
  /-- The root of a text without any document. -/
  | void
deriving Repr, Inhabited

namespace Tree

/-- A value that is left out. -/
def empty : Tree :=
  .scalar {} "" .plain

mutual

/-- The number of marks that make up a tree: one for each leaf, and one for each end of a
collection. -/
def events : Tree → Nat
  | .scalar _ _ _ => 1
  | .sequence _ items whole => 1 + eventsOfItems items + whole.toNat
  | .mapping _ entries whole => 1 + eventsOfEntries entries + whole.toNat
  | .alias _ => 1
  | .cut => 0
  | .void => 1

/-- The marks of items. -/
def eventsOfItems : List Tree → Nat
  | [] => 0
  | item :: rest => item.events + eventsOfItems rest

/-- The marks of entries. -/
def eventsOfEntries : List (Tree × Tree) → Nat
  | [] => 0
  | (key, value) :: rest => key.events + value.events + eventsOfEntries rest

end

/-- A tree under the number of its anchor. -/
def anchorEntry (properties : Properties) (tree : Tree) : List (Nat × Tree) :=
  (properties.anchor.map (·, tree)).toList

mutual

/-- The trees that have an anchor, in the order in which they start. -/
def anchored : Tree → List (Nat × Tree)
  | .scalar properties text style => anchorEntry properties (.scalar properties text style)
  | .sequence properties items whole =>
    anchorEntry properties (.sequence properties items whole) ++ anchoredItems items
  | .mapping properties entries whole =>
    anchorEntry properties (.mapping properties entries whole) ++ anchoredEntries entries
  | _ => []

/-- Those among items. -/
def anchoredItems : List Tree → List (Nat × Tree)
  | [] => []
  | item :: rest => item.anchored ++ anchoredItems rest

/-- Those among entries. -/
def anchoredEntries : List (Tree × Tree) → List (Nat × Tree)
  | [] => []
  | (key, value) :: rest => key.anchored ++ value.anchored ++ anchoredEntries rest

end

mutual

/-- Whether no fault lies inside a tree. -/
def isWhole : Tree → Bool
  | .sequence _ items whole => whole && itemsWhole items
  | .mapping _ entries whole => whole && entriesWhole entries
  | .cut => false
  | _ => true

/-- Whether no fault lies inside items. -/
def itemsWhole : List Tree → Bool
  | [] => true
  | item :: rest => item.isWhole && itemsWhole rest

/-- Whether no fault lies inside entries. -/
def entriesWhole : List (Tree × Tree) → Bool
  | [] => true
  | (key, value) :: rest => key.isWhole && value.isWhole && entriesWhole rest

end

end Tree

end Protoschema.Yaml
