import Mathlib.Data.List.Forall2
import Protoschema.Proofs.Bound
/-!
Binding again. Binding through a directory gives bindings to references that have none and changes
nothing else, whatever the document and wherever the directory comes from. So a document some of
whose schemas have been bound is visited as before, its misses are reported as before, and binding
it again through the same directory adds only what had been left out.
-/

namespace Protoschema

/-! ### References -/

namespace Reference

variable (directory : Directory) (reference : Reference)

@[simp] theorem binding_bind : (reference.bind directory).binding
    = reference.binding.or (reference.bindingIn? directory) := rfl

@[simp] theorem bindingIn?_bind (other : Directory) :
    (reference.bind directory).bindingIn? other = reference.bindingIn? other := rfl

@[simp] theorem bind_bind :
    (reference.bind directory).bind directory = reference.bind directory := by
  rw [bind, binding_bind, bindingIn?_bind, Option.or_assoc, Option.or_self]
  rfl

end Reference

/-- A reference that has been through binding is reported only if it is a miss. -/
theorem BindReport.ofReference_bind (directory : Directory) (name : String)
    (reference : Reference) :
    ofReference directory name (reference.bind directory)
      = { diagnostics := (ofReference directory name reference).diagnostics } := by
  cases bound : reference.binding with
  | some binding => simp [ofReference, bound]
  | none =>
    -- what can be bound has been, and what cannot be bound is a miss as before
    cases found : reference.bindingIn? directory with
    | none => simp [ofReference, bound, found]
    | some binding => cases binding <;> simp [ofReference, bound, found]

theorem BindReport.concat_diagnostics (reports : List BindReport) :
    concat (reports.map fun report => { diagnostics := report.diagnostics })
      = { diagnostics := (concat reports).diagnostics } := by
  induction reports with
  | nil => rfl
  | cons report rest induction =>
    rw [List.map_cons, concat, List.foldr_cons, ← concat, induction]
    rfl

/-! ### Documents some of whose schemas have been bound -/

namespace Document

/-- The document with the references of the chosen schemas bound. -/
def bindSome (document : Document) (directory : Directory) (chosen : List String) : Document :=
  document.mapSchemas fun name node =>
    if chosen.contains name then node.mapReferences (·.bind directory) else node

variable (document : Document) (directory : Directory) (chosen : List String)

theorem bindFrom_eq_bindSome (roots : Option (List String)) :
    (document.bindFrom directory roots).1
      = document.bindSome directory (document.visits directory roots) := rfl

theorem schema?_bindSome (name : String) :
    (document.bindSome directory chosen).schema? name = (document.schema? name).map fun node =>
      if chosen.contains name then node.mapReferences (·.bind directory) else node :=
  document.schema?_mapSchemas _ name

theorem names_bindSome : (document.bindSome directory chosen).names = document.names :=
  document.names_mapSchemas _

/-- Binding some schemas and then others is binding all of them. -/
theorem bindSome_bindSome (others : List String) :
    (document.bindSome directory chosen).bindSome directory others
      = document.bindSome directory (chosen ++ others) := by
  have each (name : String) (node : Node) :
      (if others.contains name then
          Node.mapReferences (·.bind directory)
            (if chosen.contains name then node.mapReferences (·.bind directory) else node)
        else if chosen.contains name then node.mapReferences (·.bind directory) else node)
      = if (chosen ++ others).contains name then node.mapReferences (·.bind directory)
        else node := by
    by_cases first : name ∈ chosen <;> by_cases second : name ∈ others <;>
      simp [first, second, Node.mapReferences_mapReferences]
  simp only [bindSome, mapSchemas, List.map_map, Function.comp_def, each]

theorem bindSome_congr {chosen chosen' : List String}
    (same : ∀ name ∈ document.names, name ∈ chosen ↔ name ∈ chosen') :
    document.bindSome directory chosen = document.bindSome directory chosen' := by
  have schemas : ∀ entry ∈ document.schemas,
      chosen.contains entry.1 = chosen'.contains entry.1 := by
    intro entry member
    apply Bool.eq_iff_iff.mpr
    simpa using same entry.1 (List.mem_map.mpr ⟨entry, member, rfl⟩)
  simp only [bindSome, mapSchemas, mk.injEq, true_and]
  refine List.map_congr_left fun entry member => ?_
  rw [schemas entry member]

/-- Bindings do not decide where nodes stand. -/
theorem directory_bindSome :
    Directory.ofDocument (document.bindSome directory chosen) = Directory.ofDocument document := by
  have kept (name : String) (node : Node) (stand : Stand) :
      Node.entries (if chosen.contains name then node.mapReferences (·.bind directory) else node)
        stand = node.entries stand := by
    split
    · exact Node.entries_mapReferences _ node stand
    · rfl
  simp only [Directory.ofDocument, bindSome, mapSchemas, List.flatMap_map, kept]

/-! ### Visits and reports -/

/-- The references of a schema lead where they led before it was bound. -/
theorem successors_bindSome (name : String) :
    (document.bindSome directory chosen).successors directory name
      = document.successors directory name := by
  rw [successors, successors, schema?_bindSome]
  cases document.schema? name with
  | none => rfl
  | some node =>
    simp only [Option.map_some]
    -- following a reference binds it, which a second time changes nothing
    split
    · simp [Node.references_mapReferences, List.filterMap_map]
    · rfl

theorem visitOrder_congr {document document' : Document} (names : document.names = document'.names)
    (successors : ∀ name, document.successors directory name = document'.successors directory name)
    (queue visited : List String) :
    document.visitOrder directory queue visited = document'.visitOrder directory queue visited := by
  fun_induction visitOrder document directory queue visited with
  | case1 visited => rw [visitOrder]
  | case2 visited name rest seen induction => rw [visitOrder, if_pos seen, induction]
  | case3 visited name rest fresh known induction =>
    rw [visitOrder, if_neg fresh, if_pos (names ▸ known), ← successors, induction]
  | case4 visited name rest fresh missing induction =>
    rw [visitOrder, if_neg fresh, if_neg (names ▸ missing), induction]

/-- The same schemas are visited, in the same order, as before some were bound. -/
theorem visits_bindSome (roots : Option (List String)) :
    (document.bindSome directory chosen).visits directory roots
      = document.visits directory roots := by
  cases roots with
  | none => exact document.names_bindSome directory chosen
  | some roots =>
    exact visitOrder_congr directory (document.names_bindSome directory chosen)
      (document.successors_bindSome directory chosen) roots []

/-- What a bound schema still reports are its misses. -/
theorem ofName_bindSome_chosen {name : String} (member : name ∈ chosen) :
    BindReport.ofName (document.bindSome directory chosen) directory name
      = { diagnostics := (BindReport.ofName document directory name).diagnostics } := by
  rw [BindReport.ofName, BindReport.ofName, schema?_bindSome]
  cases document.schema? name with
  | none => rfl
  | some node =>
    rw [Option.map_some, if_pos (List.contains_iff_mem.mpr member)]
    simp only [Node.references_mapReferences, List.map_map, Function.comp_def,
      BindReport.ofReference_bind]
    rw [← BindReport.concat_diagnostics, List.map_map]
    rfl

theorem diagnostics_ofName_bindSome (name : String) :
    (BindReport.ofName (document.bindSome directory chosen) directory name).diagnostics
      = (BindReport.ofName document directory name).diagnostics := by
  by_cases member : name ∈ chosen
  · rw [ofName_bindSome_chosen _ _ _ member]
  · rw [BindReport.ofName, BindReport.ofName, schema?_bindSome]
    cases document.schema? name <;> simp [member]

/-- Misses are reported alike, in the same order, whatever has been bound before. -/
theorem diagnostics_bindFrom_bindSome (roots : Option (List String)) :
    ((document.bindSome directory chosen).bindFrom directory roots).2.diagnostics
      = (document.bindFrom directory roots).2.diagnostics := by
  simp only [bindFrom, visits_bindSome, BindReport.diagnostics_concat, List.flatMap_map,
    diagnostics_ofName_bindSome]

/-! ### What binding changes -/

/-- The document without its bindings. -/
def cleared (document : Document) : Document :=
  document.mapSchemas fun _ node =>
    node.mapReferences fun reference => { reference with binding := none }

end Document

/-- What binding through a directory may make of a reference. All but the binding is kept, and so is
a binding that is there. A new one is what the pointer names in another document, or, for a local
pointer, its entry in the directory. -/
structure Reference.Extends (directory : Directory) (before after : Reference) : Prop where
  pointer : after.pointer = before.pointer
  description : after.description = before.description
  package : after.package = before.package
  kept : ∀ binding, before.binding = some binding → after.binding = some binding
  gained : ∀ binding, before.binding = none → after.binding = some binding →
    if Pointer.isExternal before.pointer then before.externalBinding? = some binding
    else ∃ address, directory.get? before.pointer = some address ∧
      binding = .here address.name address.target

namespace Reference

variable (directory : Directory) (reference : Reference)

theorem extends_self : reference.Extends directory reference where
  pointer := rfl
  description := rfl
  package := rfl
  kept _ bound := bound
  gained _ unbound bound := nomatch unbound.symm.trans bound

theorem extends_bind : reference.Extends directory (reference.bind directory) where
  pointer := rfl
  description := rfl
  package := rfl
  kept binding bound := by rw [binding_bind, bound, Option.some_or]
  gained binding unbound bound := by
    rw [binding_bind, unbound, Option.none_or, bindingIn?] at bound
    split
    next outside =>
      -- a pointer into another document always names something there
      rw [externalBinding?, if_pos outside] at bound ⊢
      exact bound
    next inside =>
      rw [externalBinding?, if_neg inside, Option.none_or] at bound
      obtain ⟨address, found, rfl⟩ := Option.map_eq_some_iff.mp bound
      exact ⟨address, found, rfl⟩

end Reference

namespace Document

variable (document : Document) (directory : Directory)

theorem cleared_bindSome (chosen : List String) :
    (document.bindSome directory chosen).cleared = document.cleared := by
  have kept (name : String) (node : Node) :
      Node.mapReferences (fun reference => { reference with binding := none })
        (if chosen.contains name then node.mapReferences (·.bind directory) else node)
      = node.mapReferences fun reference => { reference with binding := none } := by
    split
    · rw [Node.mapReferences_mapReferences]
      rfl
    · rfl
  simp only [cleared, bindSome, mapSchemas, List.map_map, Function.comp_def, kept]

theorem references_bindSome (chosen : List String) :
    List.Forall₂ (Reference.Extends directory) document.references
      (document.bindSome directory chosen).references := by
  rw [references, references, bindSome, mapSchemas, List.flatMap_map]
  induction document.schemas with
  | nil => exact .nil
  | cons entry rest induction =>
    rw [List.flatMap_cons, List.flatMap_cons]
    refine List.rel_append ?_ induction
    split
    · rw [Node.references_mapReferences, List.forall₂_map_right_iff]
      exact List.forall₂_same.mpr fun reference _ => reference.extends_bind directory
    · exact List.forall₂_same.mpr fun reference _ => reference.extends_self directory

/-- Binding extends a document and touches nothing else. For every document, whatever is bound in it
already, every directory and all roots: only bindings change; one that is there is kept, and one
that is new is as the directory, or the name of the other document, says; in a schema that is
visited only what cannot be bound is left unbound. To bind again, with the same directory and roots,
changes nothing, counts nothing as bound, and reports the same in the same order. -/
theorem bindFrom_extends (roots : Option (List String)) :
    ∃ bound report, document.bindFrom directory roots = (bound, report) ∧
      bound.cleared = document.cleared ∧
      List.Forall₂ (Reference.Extends directory) document.references bound.references ∧
      (∀ name ∈ document.visits directory roots, ∀ node, bound.schema? name = some node →
        ∀ reference ∈ node.references, reference.binding = none →
          reference.bindingIn? directory = none) ∧
      bound.bindFrom directory roots
        = (bound, { resolved := 0, external := 0, diagnostics := report.diagnostics }) := by
  refine ⟨document.bindSome directory (document.visits directory roots), _, rfl,
    document.cleared_bindSome directory _, document.references_bindSome directory _, ?_, ?_⟩
  · intro name visited node found reference inside unbound
    rw [schema?_bindSome] at found
    obtain ⟨source, _, rfl⟩ := Option.map_eq_some_iff.mp found
    rw [if_pos (List.contains_iff_mem.mpr visited), Node.references_mapReferences] at inside
    obtain ⟨before, _, rfl⟩ := List.mem_map.mp inside
    -- the binding is the old one or else the one that can be found, so neither is there
    exact (Option.or_eq_none_iff.mp unbound).2
  · have visits := document.visits_bindSome directory (document.visits directory roots) roots
    have again : (document.bindSome directory (document.visits directory roots)).bindSome directory
        (document.visits directory roots)
        = document.bindSome directory (document.visits directory roots) := by
      rw [bindSome_bindSome]
      exact bindSome_congr _ _ fun name _ => by simp
    have reports : (document.visits directory roots).map (BindReport.ofName
        (document.bindSome directory (document.visits directory roots)) directory)
        = ((document.visits directory roots).map (BindReport.ofName document directory)).map
          fun report => { diagnostics := report.diagnostics } := by
      rw [List.map_map]
      exact List.map_congr_left fun name visited => ofName_bindSome_chosen _ _ _ visited
    refine Prod.ext ?_ ?_
    · rw [bindFrom_eq_bindSome, visits, again]
    · rw [bindFrom, visits]
      dsimp only
      rw [reports, BindReport.concat_diagnostics]

end Document

end Protoschema
