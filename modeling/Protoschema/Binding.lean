import Protoschema.Diagnostic
import Protoschema.Directory
/-!
Binding the references of a document. Each schema is visited at most once; its references that are
not bound yet are bound through a directory, or to another document, or reported. With given roots,
the schemas that references lead to are visited as well.
-/

namespace Protoschema

/-- What binding did. -/
structure BindReport where
  /-- References bound within the document. -/
  resolved : Nat := 0
  /-- References bound to other documents. -/
  external : Nat := 0
  diagnostics : List Diagnostic := []
deriving DecidableEq, Repr, Inhabited

namespace Reference

/-- What an unbound reference can be bound to. -/
def bindingIn? (reference : Reference) (directory : Directory) : Option Binding :=
  reference.externalBinding?.or <|
    (directory.get? reference.pointer).map fun address => .here address.name address.target

/-- A reference with its binding; one that is bound already keeps it. -/
def bind (directory : Directory) (reference : Reference) : Reference :=
  { reference with binding := reference.binding.or (reference.bindingIn? directory) }

/-- The top-level schema that a bound reference leads into. -/
def reached? (reference : Reference) : Option String :=
  match reference.binding with
  | some (.here _ target) => some target.root
  | _ => none

end Reference

namespace BindReport

/-- Two reports, one after the other. -/
def append (first second : BindReport) : BindReport where
  resolved := first.resolved + second.resolved
  external := first.external + second.external
  diagnostics := first.diagnostics ++ second.diagnostics

instance : Append BindReport := ⟨append⟩

/-- All reports, one after the other. -/
def concat (reports : List BindReport) : BindReport :=
  reports.foldr append {}

/-- What binding one reference of a top-level schema does. -/
def ofReference (directory : Directory) (schema : String) (reference : Reference) : BindReport :=
  match reference.binding with
  | some _ => {}
  | none =>
    match reference.bindingIn? directory with
    | some (.here _ _) => { resolved := 1 }
    | some (.elsewhere _ _ _) => { external := 1 }
    | none =>
      { diagnostics :=
          [⟨.warning, schema, "unresolved reference `" ++ reference.pointer ++ "`"⟩] }

/-- What visiting a name does: its references are bound, or the name is reported as missing. -/
def ofName (document : Document) (directory : Directory) (name : String) : BindReport :=
  match document.schema? name with
  | some node => concat (node.references.map (ofReference directory name))
  | none => { diagnostics := [⟨.warning, name, "no such schema in components"⟩] }

end BindReport

namespace Document

/-- The schemas that the references of a schema lead to. -/
def successors (document : Document) (directory : Directory) (name : String) : List String :=
  match document.schema? name with
  | some node => node.references.filterMap fun reference => (reference.bind directory).reached?
  | none => []

/-- How many names of the document have not been visited. -/
def unvisited (document : Document) (visited : List String) : Nat :=
  document.names.countP fun name => name ∉ visited

theorem countP_fresh_lt {names visited : List String} {name : String} (member : name ∈ names)
    (fresh : name ∉ visited) :
    names.countP (fun other => decide (other ∉ name :: visited))
      < names.countP fun other => decide (other ∉ visited) := by
  induction names with
  | nil => simp at member
  | cons head rest induction =>
    have rest_le : rest.countP (fun other => decide (other ∉ name :: visited))
        ≤ rest.countP fun other => decide (other ∉ visited) :=
      List.countP_mono_left fun other _ outside => by simp_all
    by_cases same : head = name
    · subst same
      rw [List.countP_cons_of_neg (by simp), List.countP_cons_of_pos (by simpa using fresh)]
      exact Nat.lt_succ_of_le rest_le
    · have later : name ∈ rest := (List.mem_cons.mp member).resolve_left fun h => same h.symm
      have step := induction later
      by_cases seen : head ∈ visited <;> simp_all

/-- The names in the order in which they are visited, starting from a queue; what a visited schema
leads to is queued behind the rest. -/
def visitOrder (document : Document) (directory : Directory) (queue visited : List String) :
    List String :=
  match queue with
  | [] => []
  | name :: rest =>
    if name ∈ visited then document.visitOrder directory rest visited
    else if name ∈ document.names then
      name :: document.visitOrder directory (rest ++ document.successors directory name)
        (name :: visited)
    else name :: document.visitOrder directory rest (name :: visited)
termination_by (document.unvisited visited, queue.length)
decreasing_by
  · exact Prod.Lex.right _ (by simp)
  · exact Prod.Lex.left _ _ (countP_fresh_lt ‹_› ‹_›)
  · rename_i fresh missing
    have same : document.unvisited (name :: visited) = document.unvisited visited := by
      apply List.countP_congr
      intro other member
      have different : other ≠ name := fun h => missing (h ▸ member)
      simp [different]
    rw [same]
    exact Prod.Lex.right _ (by simp)

/-- The names that binding visits: the roots and all they lead to, or every schema. -/
def visits (document : Document) (directory : Directory) : Option (List String) → List String
  | some roots => document.visitOrder directory roots []
  | none => document.names

/-- The document with the references of the visited schemas bound, and what that did. -/
def bindFrom (document : Document) (directory : Directory) (roots : Option (List String)) :
    Document × BindReport :=
  let visits := document.visits directory roots
  (document.mapSchemas fun name node =>
      if visits.contains name then node.mapReferences (·.bind directory) else node,
    BindReport.concat (visits.map (BindReport.ofName document directory)))

/-- Binding through the document's own directory. -/
def bind (document : Document) (roots : Option (List String)) : Document × BindReport :=
  document.bindFrom (Directory.ofDocument document) roots

end Document

end Protoschema
