import Protoschema.Proofs.Histories
import Protoschema.Proofs.Loaded
import Protoschema.Proofs.OrderIndependence
import Protoschema.Proofs.SeparateCompilation
import Protoschema.Proofs.Sightings
/-!
No placeholder is silent. Where nothing is known to stand behind a reference, declaring takes it for
the name at its end, or rejects it as a member of a composition. Either way binding has reported it
before, under the schema in whose tree it stands: declaring follows references only into schemas
that binding has visited. What is bound within the document is always found there.
-/

namespace Protoschema

/-- The report about a reference that nothing is known to stand behind. -/
def Sighting.warning (sighting : Sighting) : Diagnostic :=
  ⟨.warning, sighting.owner, "unresolved reference `" ++ sighting.reference.pointer ++ "`"⟩

/-- The pointer that was taken for the name at its end. -/
def Event.guess? : Event → Option String
  | .guessed pointer => some pointer
  | _ => none

/-- The pointers that a run took for the names at their ends, in order. -/
def Run.guesses {α : Type} (run : Run α) : List String :=
  run.events.filterMap Event.guess?

/-! ### Reports that are kept -/

/-- Gathering adds to the reports that are there. -/
theorem Compilation.mem_diagnostics_addAll {compilation : Compilation}
    (outcomes : List (String × Except SchemaError Declared)) {diagnostic : Diagnostic}
    (member : diagnostic ∈ compilation.diagnostics) :
    diagnostic ∈ (compilation.addAll outcomes).diagnostics := by
  induction outcomes generalizing compilation with
  | nil => exact member
  | cons head rest induction =>
    obtain ⟨name, error | declared⟩ := head
    · exact induction (List.mem_append_left _ member)
    · exact induction (List.mem_append_left _ member)

theorem Reference.BoundIn.get?_of_here {directory : Directory} {reference : Reference}
    (bound : reference.BoundIn directory) {name : String} {target : Location}
    (here : reference.binding = some (.here name target)) :
    directory.get? reference.pointer = some ⟨name, target⟩ := by
  rw [bound, bindingIn?, externalBinding?] at here
  split at here
  · cases here
  · obtain ⟨address, found, same⟩ := Option.map_eq_some_iff.mp here
    cases same
    exact found

namespace Document

variable {document : Document} {directory : Directory} {roots : Option (List String)}

/-- A reference without an answer is reported when the schema that it stands in is visited. -/
theorem mem_diagnostics_of_unanswered {owner : String} {node : Node} {reference : Reference}
    (visited : owner ∈ document.visits directory roots) (found : document.schema? owner = some node)
    (listed : reference ∈ node.references) (free : reference.binding = none)
    (unanswered : reference.bindingIn? directory = none) :
    Sighting.warning ⟨owner, reference, false⟩
      ∈ (document.bindFrom directory roots).2.diagnostics := by
  have reported : Sighting.warning ⟨owner, reference, false⟩
      ∈ (BindReport.ofReference directory owner reference).diagnostics := by
    simp [BindReport.ofReference, free, unanswered, Sighting.warning]
  have ofName : Sighting.warning ⟨owner, reference, false⟩
      ∈ (BindReport.ofName document directory owner).diagnostics := by
    simp only [BindReport.ofName, found, BindReport.diagnostics_concat, List.flatMap_map]
    exact List.mem_flatMap.mpr ⟨reference, listed, reported⟩
  simp only [bindFrom, BindReport.diagnostics_concat, List.flatMap_map]
  exact List.mem_flatMap.mpr ⟨owner, visited, ofName⟩

/-! ### Trees that have been visited -/

/-- A node that stands in the tree of a schema that binding visits, as it is after binding. -/
structure InVisited (document : Document) (directory : Directory) (roots : Option (List String))
    (owner : String) (node : Node) : Prop where
  visited : owner ∈ document.visits directory roots
  inside : ∃ top, (document.bindFrom directory roots).1.schema? owner = some top ∧
    top.Contains node

theorem mem_visits_of_leadsTo {name next : String}
    (visited : name ∈ document.visits directory roots)
    (leads : document.LeadsTo directory name next) (known : next ∈ document.names) :
    next ∈ document.visits directory roots := by
  cases roots with
  | none => exact known
  | some names =>
    obtain ⟨root, listed, reached⟩ := (mem_visitOrder_iff document directory names name).mp visited
    exact (mem_visitOrder_iff document directory names next).mpr ⟨root, listed, reached.tail leads⟩

/-- What stands in a visited tree was bound there. -/
theorem InVisited.source {owner : String} {reference : Reference}
    (within : document.InVisited directory roots owner (.ref reference)) :
    ∃ node source, document.schema? owner = some node ∧ source ∈ node.references ∧
      reference = source.bind directory := by
  obtain ⟨visited, top, found, contains⟩ := within
  rw [schema?_bindFrom] at found
  obtain ⟨node, known, rfl⟩ := Option.map_eq_some_iff.mp found
  have listed := contains.references_subset (List.mem_singleton_self reference)
  rw [boundNode_visited _ _ _ visited, Node.references_mapReferences] at listed
  obtain ⟨source, member, rfl⟩ := List.mem_map.mp listed
  exact ⟨node, source, known, member, rfl⟩

/-- Declaring does not leave the visited trees. -/
theorem closedAcross_inVisited (document : Document) (directory : Directory)
    (roots : Option (List String)) :
    (document.bindFrom directory roots).1.ClosedAcross
      (document.InVisited directory roots) where
  child := by
    rintro owner schema child ⟨visited, top, found, contains⟩ member
    exact ⟨visited, top, found, contains.inner member⟩
  lookup := by
    intro owner reference name target node within bound found
    obtain ⟨top, source, known, member, rfl⟩ := within.source
    obtain ⟨next, atRoot, reached⟩ := Option.bind_eq_some_iff.mp found
    refine ⟨?_, next, atRoot, Node.contains_of_descend reached⟩
    have leads : document.LeadsTo directory owner target.root := by
      rw [LeadsTo, successors, known]
      exact List.mem_filterMap.mpr ⟨source, member, by rw [Reference.reached?, bound]⟩
    have named : target.root ∈ document.names := by
      rw [← names_bindFrom document directory roots]
      exact List.mem_map.mpr ⟨_, Entries.mem_of_get? atRoot, rfl⟩
    exact mem_visits_of_leadsTo within.visited leads named

/-- What is bound within the document is found there. -/
theorem InVisited.isSome_lookup (unbound : document.Unbound) (distinct : document.Distinct)
    {owner : String} {reference : Reference}
    (within : document.InVisited (Directory.ofDocument document) roots owner (.ref reference))
    {name : String} {target : Location} (here : reference.binding = some (.here name target)) :
    ((document.bind roots).1.lookup target).isSome := by
  obtain ⟨node, source, known, member, rfl⟩ := within.source
  have free := unbound source (List.mem_flatMap.mpr ⟨_, Entries.mem_of_get? known, member⟩)
  have same : Directory.ofDocument (document.bind roots).1 = Directory.ofDocument document :=
    document.directory_bindSome _ _
  -- the binding is what the directory of the bound document says, too
  have bound : (source.bind (Directory.ofDocument document)).BoundIn
      (Directory.ofDocument (document.bind roots).1) := by
    rw [same, Reference.BoundIn, Reference.bind, free]
    rfl
  obtain ⟨location, found, entry⟩ :=
    ((distinct.bind roots).directory_get?_iff _ _).mp (bound.get?_of_here here)
  have place : location = target :=
    Location.entry_injective (congrArg Prod.fst (entry.symm.trans (bound.entry here)))
  rwa [← place]

end Document

/-! ### Runs and their placeholders -/

theorem Reference.lost_iff {document : Document} {reference : Reference}
    (found : ∀ name target, reference.binding = some (.here name target) →
      (document.lookup target).isSome) :
    reference.Lost document ↔ reference.binding = none := by
  unfold Lost
  cases bound : reference.binding with
  | none => simp
  | some binding =>
    cases binding with
    | elsewhere package name path => simp
    | here name target => simpa [Option.isSome_iff_ne_none] using found name target bound

/-- A reference that is declared in its place is taken for the name at its end exactly if it is not
bound. -/
theorem Reference.guess_of_standing? {scope : Scope} {reference : Reference}
    (found : ∀ name target, reference.binding = some (.here name target) →
      (scope.document.lookup target).isSome) :
    ((reference.standing? scope).bind fun standing => standing.1.guess?)
      = if reference.binding.isNone then some reference.pointer else none := by
  unfold standing?
  cases bound : reference.binding with
  | none => rfl
  | some binding =>
    cases binding with
    | elsewhere package name path => rfl
    | here name target =>
      obtain ⟨node, present⟩ := Option.isSome_iff_exists.mp (found name target bound)
      simp only [present]
      split <;> rfl

/-- A run takes references for the names at their ends exactly where they are not bound. -/
theorem Run.Accounts.guesses {α : Type} {scope : Scope} {shows : α → String → Prop} {run : Run α}
    {trail : List Sighting} (accounts : run.Accounts scope shows trail)
    (found : ∀ sighting ∈ trail, ∀ name target,
      sighting.reference.binding = some (.here name target) →
      (scope.document.lookup target).isSome) :
    run.guesses = (trail.filter fun sighting =>
      !sighting.asMember && sighting.reference.binding.isNone).map (·.reference.pointer) := by
  rw [Run.guesses, accounts.filterMap_events fun _ => rfl, ← List.filterMap_eq_map,
    List.filterMap_filter]
  refine List.filterMap_congr fun sighting member => ?_
  unfold Sighting.standing?
  cases sighting.asMember with
  | true => rfl
  | false =>
    have guess := Reference.guess_of_standing? (found sighting member)
    simpa using guess

/-- No placeholder is silent. A document that has just been read has no bindings, and its names are
distinct. In a compilation of such a document, take a selected schema and the references that
declaring it comes across. Those that are taken for the names at their ends are exactly those that
are not bound, in their order, and a reference that is rejected as unresolved is not bound either.
Each reference stands in the tree of its owner; if it is not bound, it has been reported under the
owner's name, and if it is bound within the document, there is a node where it leads. -/
theorem Document.placeholders_reported :
    (∀ format text document, Document.ofText format text = .ok document →
      document.Unbound ∧ document.Distinct) ∧
    ∀ document : Document, document.Unbound → document.Distinct →
      ∀ options compilation, (document.compile options).2 = .ok compilation →
      ∀ name ∈ document.selected options.only,
      ∀ node, (document.compile options).1.schema? name = some node →
      let scope : Scope := ⟨(document.compile options).1, options⟩
      let run := declareTopLevel scope name node
      let trail := scope.sightings name node
      run.guesses = (trail.filter fun sighting =>
          !sighting.asMember && sighting.reference.binding.isNone).map (·.reference.pointer) ∧
        (∀ hint pointer, run.outcome = .error (.unresolvedReference hint pointer) →
          ∃ sighting ∈ trail, sighting.reference.binding = none ∧
            sighting.reference.pointer = pointer) ∧
        ∀ sighting ∈ trail,
          (∃ top, scope.document.schema? sighting.owner = some top ∧
            top.Contains (.ref sighting.reference)) ∧
          (sighting.reference.binding = none → sighting.warning ∈ compilation.diagnostics) ∧
          ∀ declared target, sighting.reference.binding = some (.here declared target) →
            (scope.document.lookup target).isSome := by
  refine ⟨fun format text document read => ⟨unbound_of_ofText read, distinct_of_ofText read⟩, ?_⟩
  intro document unbound distinct options compilation compiled name selected node found scope run
    trail
  have within : AllWithin (document.InVisited (Directory.ofDocument document) options.only) trail :=
    sightingsWithin_within (document.closedAcross_inVisited _ _) _ _ _
      ⟨document.mem_visits_of_selected _ selected, node, found, .self node⟩
  have present (sighting : Sighting) (member : sighting ∈ trail) (declared : String)
      (target : Location) (here : sighting.reference.binding = some (.here declared target)) :
      (scope.document.lookup target).isSome :=
    (within sighting member).isSome_lookup unbound distinct here
  have accounts : run.Accounts scope Decl.Mentions trail := declareTopLevel_accounts scope name node
  refine ⟨accounts.guesses present, ?_, fun sighting member => ⟨?_, ?_, present sighting member⟩⟩
  · intro hint pointer rejected
    obtain ⟨sighting, member, lost, same⟩ := accounts.rejected hint pointer rejected
    exact ⟨sighting, member, (Reference.lost_iff (present sighting member)).mp lost, same⟩
  · exact (within sighting member).inside
  · intro unanswered
    obtain ⟨top, source, known, listed, bound⟩ := (within sighting member).source
    have free := unbound source (List.mem_flatMap.mpr ⟨_, Entries.mem_of_get? known, listed⟩)
    have none : source.bindingIn? (Directory.ofDocument document) = none := by
      simpa [bound, free] using unanswered
    have reported := mem_diagnostics_of_unanswered (within sighting member).visited known listed
      free none
    have same : sighting.warning = Sighting.warning ⟨sighting.owner, source, false⟩ := by
      simp [Sighting.warning, bound]
    rw [same]
    rw [← addAll_of_compile compiled]
    exact Compilation.mem_diagnostics_addAll _ reported

/-- A kennel that leads to a pack of what nobody knows. -/
def wolfPack : Document where
  schemas := [
    ("Kennel", .inline {
      type := some .object
      order := ["dogs"]
      properties := [("dogs", .ref { pointer := "#/components/schemas/Pack" })] }),
    ("Pack", .inline {
      type := some .array
      items := some (.ref { pointer := "#/components/schemas/Wolf" }) })]

def kennelOnly : Options where
  only := some ["Kennel"]

def boundKennel : Node := .inline {
  type := some .object
  order := ["dogs"]
  properties := [("dogs", .ref {
    pointer := "#/components/schemas/Pack"
    binding := some (.here "Pack" ⟨"Pack", []⟩) })] }

theorem wolfPack_bound : (wolfPack.compile kennelOnly).1
    = wolfPack.bindSome (Directory.ofDocument wolfPack) ["Kennel", "Pack"] := by
  have kennel : wolfPack.successors (Directory.ofDocument wolfPack) "Kennel" = ["Pack"] := by
    decide +kernel
  have pack : wolfPack.successors (Directory.ofDocument wolfPack) "Pack" = [] := by
    decide +kernel
  have names : wolfPack.names = ["Kennel", "Pack"] := rfl
  have visits : wolfPack.visits (Directory.ofDocument wolfPack) (some ["Kennel"])
      = ["Kennel", "Pack"] := by
    simp [Document.visits, Document.visitOrder, kennel, pack, names]
  exact congrArg (wolfPack.bindSome (Directory.ofDocument wolfPack)) visits

/-- The report is about the schema that was followed, which the filter does not name. -/
theorem Document.placeholders_reported_wolfPack :
    wolfPack.Unbound ∧ wolfPack.Distinct ∧
    ∃ compilation, (wolfPack.compile kennelOnly).2 = .ok compilation ∧
      (wolfPack.compile kennelOnly).1.schema? "Kennel" = some boundKennel ∧
      (declareTopLevel ⟨(wolfPack.compile kennelOnly).1, kennelOnly⟩ "Kennel" boundKennel).guesses
        = ["#/components/schemas/Wolf"] ∧
      ⟨.warning, "Pack", "unresolved reference `#/components/schemas/Wolf`"⟩
        ∈ compilation.diagnostics := by
  have unbound : wolfPack.Unbound := by
    simp [Unbound, references, wolfPack, Schema.children]
  have distinct : wolfPack.Distinct := by
    constructor
    · decide
    · simp [wolfPack, Node.distinct_inline, Node.distinct_ref, Schema.children]
  obtain ⟨compilation, compiled⟩ := (wolfPack.exists_compile_lenient_iff kennelOnly rfl).mpr
    fun name chosen => by
      obtain rfl : name = "Kennel" := by
        simpa using ((wolfPack.mem_selected_iff _ name).mp chosen).2 ["Kennel"] rfl
      rw [show (wolfPack.bind kennelOnly.only).1 = _ from wolfPack_bound]
      decide +kernel
  have selected : "Kennel" ∈ wolfPack.selected kennelOnly.only := by
    rw [mem_selected_iff]
    simp [wolfPack, kennelOnly, names]
  have found : (wolfPack.compile kennelOnly).1.schema? "Kennel" = some boundKennel := by
    rw [wolfPack_bound]
    rfl
  obtain ⟨guesses, _, each⟩ := placeholders_reported.2 wolfPack unbound distinct
    kennelOnly compilation compiled "Kennel" selected boundKennel found
  rw [wolfPack_bound] at guesses each
  have wolf : (⟨"Pack", { pointer := "#/components/schemas/Wolf" }, false⟩ : Sighting)
      ∈ Scope.sightings ⟨wolfPack.bindSome (Directory.ofDocument wolfPack) ["Kennel", "Pack"],
        kennelOnly⟩ "Kennel" boundKennel := by
    decide +kernel
  refine ⟨unbound, distinct, compilation, compiled, found, ?_, ?_⟩
  · rw [wolfPack_bound]
    exact guesses.trans (by decide +kernel)
  · exact (each _ wolf).2.1 rfl

end Protoschema
