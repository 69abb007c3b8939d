/-!
Sets of characters given by ranges, and the ends of a text: what patterns are built from.
-/

namespace Protoschema.Text

/-- Ranges of characters, each from its first to its last. -/
abbrev Ranges := List (Char × Char)

/-- Whether a character lies in one of the ranges. -/
def Ranges.has (ranges : Ranges) (c : Char) : Bool :=
  ranges.any fun range => range.1 ≤ c && c ≤ range.2

/-- A list and what is left of it as items go from its front. -/
def suffixes {α : Type} : List α → List (List α)
  | [] => [[]]
  | first :: rest => (first :: rest) :: suffixes rest

end Protoschema.Text
