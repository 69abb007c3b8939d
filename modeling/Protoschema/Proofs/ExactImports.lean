import Protoschema.Proofs.FilterTransparency
import Protoschema.Proofs.Sightings
/-!
The imports of a compiled file are exact. They are read off the references to other documents that
declaring comes across, schema by schema and in the order of declaring, with the first path of each
package. So a package is imported exactly if a type of it is used, and a schema that cannot be
declared imports nothing.
-/

namespace Protoschema

/-- The uses of packages that are not taken yet, the first of each. -/
def firstUses (taken : List String) : List (String × String) → List (String × String)
  | [] => []
  | use :: rest =>
    if use.1 ∈ taken then firstUses taken rest else use :: firstUses (use.1 :: taken) rest

/-! ### First uses -/

theorem firstUses_congr {taken taken' : List String}
    (same : ∀ package, package ∈ taken ↔ package ∈ taken') (uses : List (String × String)) :
    firstUses taken uses = firstUses taken' uses := by
  induction uses generalizing taken taken' with
  | nil => rfl
  | cons use rest induction =>
    simp only [firstUses, same use.1]
    split
    · exact induction same
    · exact congrArg (use :: ·) (induction fun package => by simp [same package])

/-- Of the first uses, those that count are the first uses. -/
theorem firstUses_firstUses {taken taken' : List String} (more : taken' ⊆ taken)
    (uses : List (String × String)) :
    firstUses taken (firstUses taken' uses) = firstUses taken uses := by
  induction uses generalizing taken taken' with
  | nil => rfl
  | cons use rest induction =>
    by_cases old : use.1 ∈ taken'
    · -- both leave it out
      rw [firstUses, if_pos old, induction more, firstUses, if_pos (more old)]
    · rw [firstUses, if_neg old, firstUses]
      by_cases known : use.1 ∈ taken
      · rw [if_pos known, firstUses, if_pos known]
        exact induction (List.cons_subset.mpr ⟨known, more⟩)
      · rw [if_neg known, firstUses, if_neg known]
        rw [induction (List.cons_subset_cons _ more)]

theorem mem_firstUses_fst {taken : List String} {uses : List (String × String)} {package : String} :
    package ∈ (firstUses taken uses).map Prod.fst ↔
      package ∉ taken ∧ package ∈ uses.map Prod.fst := by
  induction uses generalizing taken with
  | nil => simp [firstUses]
  | cons use rest induction =>
    rw [firstUses]
    split
    · rw [induction]
      grind
    · simp only [List.map_cons, List.mem_cons, induction]
      grind

namespace Imports

theorem entries_recordAll (imports : Imports) (uses : List (String × String)) :
    (imports.recordAll uses).entries
      = imports.entries ++ firstUses imports.entries.keys uses := by
  induction uses generalizing imports with
  | nil => simp [recordAll, firstUses]
  | cons use rest induction =>
    have step : imports.recordAll (use :: rest) = (imports.record use.1 use.2).recordAll rest := rfl
    rw [step, induction, firstUses]
    by_cases known : use.1 ∈ imports.entries.keys
    · have kept : imports.record use.1 use.2 = imports := by
        simp [record, Entries.addNew, (Entries.has_iff_mem_keys _ _).mpr known]
      rw [kept, if_pos known]
    · have new : (imports.record use.1 use.2).entries = imports.entries ++ [use] := by
        have missing : imports.entries.has use.1 = false := by
          simpa [← Entries.has_iff_mem_keys] using known
        simp [record, Entries.addNew, missing]
      rw [new, if_neg known, List.append_assoc, List.singleton_append]
      refine congrArg (fun rest => imports.entries ++ use :: rest) (firstUses_congr ?_ rest)
      intro package
      simp [Entries.keys, or_comm]

/-- Imports that were recorded apart count as their uses do. -/
theorem merge_recordAll (imports : Imports) (uses : List (String × String)) :
    imports.merge (recordAll {} uses) = imports.recordAll uses := by
  have entries : (recordAll {} uses).entries = firstUses [] uses := by
    rw [entries_recordAll]
    rfl
  have same : (imports.recordAll (firstUses [] uses)).entries
      = (imports.recordAll uses).entries := by
    rw [entries_recordAll, entries_recordAll, firstUses_firstUses (List.nil_subset _)]
  rw [merge, entries]
  exact congrArg Imports.mk same

theorem recordAll_append (imports : Imports) (uses uses' : List (String × String)) :
    imports.recordAll (uses ++ uses') = (imports.recordAll uses).recordAll uses' :=
  List.foldl_append

end Imports

/-! ### References to other documents -/

/-- The package and the path to import for a reference to another document. -/
def Sighting.use? (sighting : Sighting) : Option (String × String) :=
  match sighting.reference.binding with
  | some (.elsewhere package _ path) => some (package, path)
  | _ => none

theorem Sighting.use?_eq_some_iff {sighting : Sighting} {package path : String} :
    sighting.use? = some (package, path) ↔
      ∃ name, sighting.reference.binding = some (.elsewhere package name path) := by
  unfold use?
  split
  next found => simp [found]
  next other =>
    constructor
    · simp
    · rintro ⟨name, found⟩
      exact absurd found (other package name path)

/-- The references that declaring a top-level schema of a document comes across. -/
def Document.sightingsOf (document : Document) (options : Options) (name : String) :
    List Sighting :=
  match document.schema? name with
  | some node => Scope.sightings ⟨document, options⟩ name node
  | none => []

/-- A run that succeeds uses the packages of all references to other documents. -/
theorem Run.Accounts.uses {α : Type} {scope : Scope} {shows : α → String → Prop} {run : Run α}
    {trail : List Sighting} (accounts : run.Accounts scope shows trail) {value : α}
    (succeeded : run.outcome = .ok value) : run.uses = trail.filterMap Sighting.use? := by
  rw [Run.uses, accounts.filterMap_events fun _ => rfl]
  refine List.filterMap_congr fun sighting member => ?_
  unfold Sighting.standing? Sighting.use?
  cases asMember : sighting.asMember with
  | true =>
    -- members of compositions are found in the document
    obtain ⟨name, target, bound⟩ := accounts.members value succeeded sighting member asMember
    simp [bound]
  | false =>
    unfold Reference.standing?
    cases bound : sighting.reference.binding with
    | none => rfl
    | some binding =>
      cases binding with
      | elsewhere package name path => rfl
      | here name target =>
        dsimp only
        cases scope.document.lookup target with
        | none => rfl
        | some node => cases declares : (Shape.of node).declares <;> simp [declares]

/-- What a schema that is declared has to do with the references that it came across. -/
theorem Document.declareSchema_accounts {document : Document} {options : Options} {name : String}
    {declared : Declared} (compiled : document.declareSchema options name = some (.ok declared)) :
    declared.imports
        = Imports.recordAll {} ((document.sightingsOf options name).filterMap Sighting.use?) ∧
      ∀ sighting ∈ document.sightingsOf options name, ∀ package target path,
        sighting.reference.binding = some (.elsewhere package target path) →
        declared.decl.Mentions (options.packageName package ++ "." ++ Ident.normalize target) := by
  obtain ⟨node, found, outcome⟩ := Option.map_eq_some_iff.mp compiled
  have trail : document.sightingsOf options name
      = Scope.sightings ⟨document, options⟩ name node := by
    rw [sightingsOf, found]
  have accounts := declareTopLevel_accounts ⟨document, options⟩ name node
  rw [← trail] at accounts
  generalize declareTopLevel ⟨document, options⟩ name node = run at accounts outcome
  obtain ⟨events, error | decl⟩ := run
  · cases outcome
  · cases outcome
    refine ⟨congrArg _ (accounts.uses rfl), fun sighting member package target path bound => ?_⟩
    -- such a reference is not a member of a composition, so it stands for its own type name
    have inPlace : sighting.asMember = false := by
      by_contra asMember
      obtain ⟨_, _, here⟩ := accounts.members decl rfl sighting member (by simpa using asMember)
      rw [bound] at here
      cases here
    have standing : sighting.standing? ⟨document, options⟩ = some (.imported package path,
        options.packageName package ++ "." ++ Ident.normalize target) := by
      simp [Sighting.standing?, inPlace, Reference.standing?, bound]
    exact accounts.shown decl rfl _ (List.mem_filterMap.mpr ⟨sighting, member, standing⟩)

/-! ### Gathering -/

namespace Compilation

/-- The names of the schemas that were declared. -/
def declaredNames (outcomes : List (String × Except SchemaError Declared)) : List String :=
  outcomes.filterMap fun outcome =>
    match outcome.2 with
    | .ok _ => some outcome.1
    | .error _ => none

theorem imports_addAll (compilation : Compilation)
    {outcomes : List (String × Except SchemaError Declared)}
    {uses : String → List (String × String)}
    (recorded : ∀ name declared, (name, .ok declared) ∈ outcomes →
      declared.imports = Imports.recordAll {} (uses name)) :
    (compilation.addAll outcomes).imports
      = compilation.imports.recordAll ((declaredNames outcomes).flatMap uses) := by
  induction outcomes generalizing compilation with
  | nil => rfl
  | cons head rest induction =>
    obtain ⟨name, outcome⟩ := head
    have later := induction (compilation.add name outcome) fun name declared member =>
      recorded name declared (List.mem_cons_of_mem _ member)
    rw [addAll, List.foldl_cons, ← addAll, later]
    cases outcome with
    | error error => rfl
    | ok declared =>
      have first := recorded name declared List.mem_cons_self
      rw [add, first, Imports.merge_recordAll, ← Imports.recordAll_append]
      rfl

theorem mem_declaredNames {outcomes : List (String × Except SchemaError Declared)} {name : String} :
    name ∈ declaredNames outcomes ↔ ∃ declared, (name, .ok declared) ∈ outcomes := by
  rw [declaredNames, List.mem_filterMap]
  constructor
  · rintro ⟨⟨other, error | declared⟩, member, same⟩
    · cases same
    · cases same
      exact ⟨declared, member⟩
  · rintro ⟨declared, member⟩
    exact ⟨_, member, rfl⟩

theorem declaredNames_sublist (outcomes : List (String × Except SchemaError Declared)) :
    (declaredNames outcomes).Sublist (outcomes.map Prod.fst) := by
  induction outcomes with
  | nil => exact .slnil
  | cons head rest induction =>
    obtain ⟨name, error | declared⟩ := head
    · exact induction.cons name
    · exact induction.cons_cons name

end Compilation

theorem Document.selected_pairwise (document : Document) (only : Option (List String)) :
    (document.selected only).Pairwise (· ≤ ·) := by
  cases only with
  | none => exact sortedNames_pairwise _
  | some filter => exact sortedNames_pairwise _

/-- Imports are exact. The schemas that could be declared are taken in ascending order of their
names, and the references to other documents that each came across in the order of declaring. The
imports are the packages of these with their paths, the first of each package. So a package is
imported exactly if such a reference leads to it, and each of them stands in the declaration of its
schema as a type name of that package. -/
theorem Document.imports_exact (document : Document) (options : Options)
    (compilation : Compilation) (compiled : (document.compile options).2 = .ok compilation) :
    let bound := (document.compile options).1
    let names := Compilation.declaredNames (bound.outcomes options)
    names.Pairwise (· ≤ ·) ∧
    (∀ name, name ∈ names ↔ name ∈ document.selected options.only ∧
      ∃ declared, bound.declareSchema options name = some (.ok declared)) ∧
    compilation.imports.entries = firstUses [] (names.flatMap fun name =>
      (bound.sightingsOf options name).filterMap Sighting.use?) ∧
    (∀ package, package ∈ compilation.imports.entries.keys ↔
      ∃ name ∈ names, ∃ sighting ∈ bound.sightingsOf options name, ∃ target path,
        sighting.reference.binding = some (.elsewhere package target path)) ∧
    ∀ name ∈ names, ∀ sighting ∈ bound.sightingsOf options name, ∀ package target path,
      sighting.reference.binding = some (.elsewhere package target path) →
      ∃ declared, bound.declareSchema options name = some (.ok declared) ∧
        declared.decl ∈ compilation.declarations ∧
        declared.decl.Mentions (options.packageName package ++ "." ++ Ident.normalize target) := by
  intro bound names
  have outcomeOf {name : String} {declared : Declared}
      (member : (name, .ok declared) ∈ bound.outcomes options) :
      bound.declareSchema options name = some (.ok declared) :=
    bound.declareSchema_of_mem_outcomes member
  have selected : (bound.outcomes options).map Prod.fst = document.selected options.only :=
    document.outcomes_names_bind options
  have ascending : names.Pairwise (· ≤ ·) := by
    have sublist := Compilation.declaredNames_sublist (bound.outcomes options)
    rw [selected] at sublist
    exact (document.selected_pairwise options.only).sublist sublist
  have imports : compilation.imports.entries = firstUses [] (names.flatMap fun name =>
      (bound.sightingsOf options name).filterMap Sighting.use?) := by
    have recorded := Compilation.imports_addAll
      { diagnostics := (document.bind options.only).2.diagnostics }
      fun name declared member => (declareSchema_accounts (outcomeOf member)).1
    rw [← addAll_of_compile compiled]
    exact (congrArg Imports.entries recorded).trans (Imports.entries_recordAll _ _)
  refine ⟨ascending, fun name => ⟨fun member => ?_, ?_⟩, imports, fun package => ?_, ?_⟩
  · obtain ⟨declared, listed⟩ := Compilation.mem_declaredNames.mp member
    refine ⟨?_, declared, outcomeOf listed⟩
    rw [← selected]
    exact List.mem_map.mpr ⟨_, listed, rfl⟩
  · rintro ⟨chosen, declared, outcome⟩
    rw [← selected] at chosen
    obtain ⟨⟨name, other⟩, listed, rfl⟩ := List.mem_map.mp chosen
    obtain rfl := Option.some.inj ((bound.declareSchema_of_mem_outcomes listed).symm.trans outcome)
    exact Compilation.mem_declaredNames.mpr ⟨declared, listed⟩
  · rw [imports, Entries.keys, mem_firstUses_fst, List.map_flatMap]
    simp only [List.not_mem_nil, not_false_eq_true, true_and, List.mem_flatMap, List.mem_map,
      List.mem_filterMap, Prod.exists, Sighting.use?_eq_some_iff]
    constructor
    · rintro ⟨name, member, _, path, ⟨sighting, seen, target, found⟩, rfl⟩
      exact ⟨name, member, sighting, seen, target, path, found⟩
    · rintro ⟨name, member, sighting, seen, target, path, found⟩
      exact ⟨name, member, package, path, ⟨sighting, seen, target, found⟩, rfl⟩
  · intro name member sighting seen package target path external
    obtain ⟨declared, listed⟩ := Compilation.mem_declaredNames.mp member
    have mentions := (declareSchema_accounts (outcomeOf listed)).2 sighting seen package target path
      external
    exact ⟨declared, outcomeOf listed, mem_declarations_of_compile compiled listed,
      mentions⟩

/-- A zoo that names two schemas of one package in different files, next to a schema that uses
another package but cannot be declared. -/
def zoo : Document where
  schemas := [
    ("Zoo", .inline {
      type := some .object
      order := ["keeper", "vet"]
      properties := [
        ("keeper", .ref { pointer := "people.yaml#/components/schemas/Person" }),
        ("vet", .ref {
          pointer := "staff/vets.yaml#/components/schemas/Vet"
          package := some "people" })] }),
    ("Ape", .inline {
      type := some .object
      order := ["home", "tricks"]
      properties := [
        ("home", .ref { pointer := "places.yaml#/components/schemas/Cage" }),
        ("tricks", .inline { type := some .array })] })]

theorem zoo_declaredNames :
    Compilation.declaredNames ((zoo.compile {}).1.outcomes {}) = ["Zoo"] := by
  have selected : (zoo.compile {}).1.selected none = ["Ape", "Zoo"] :=
    eq_of_perm_of_ascending ((sortedNames_perm ["Zoo", "Ape"]).trans (by decide))
      (sortedNames_pairwise _) (by decide)
  rw [Document.outcomes, selected]
  decide +kernel

theorem Document.imports_exact_zoo :
    ∃ compilation, (zoo.compile {}).2 = .ok compilation ∧
      compilation.imports.entries = [("people", "people.proto")] ∧
      ∃ decl ∈ compilation.declarations, decl.Mentions "people.Vet" := by
  obtain ⟨compilation, compiled⟩ := (zoo.exists_compile_lenient_iff {} rfl).mpr <| by
    simp only [selected, mem_sortedNames]
    decide +kernel
  obtain ⟨_, _, imports, _, mentions⟩ := imports_exact zoo {} compilation compiled
  rw [zoo_declaredNames] at imports mentions
  have vet : (⟨"Zoo", {
      pointer := "staff/vets.yaml#/components/schemas/Vet"
      package := some "people"
      binding := some (.elsewhere "people" "Vet" "staff/vets.proto") }, false⟩ : Sighting)
      ∈ (zoo.compile {}).1.sightingsOf {} "Zoo" := by
    decide +kernel
  obtain ⟨declared, _, present, mentioned⟩ := mentions "Zoo" (by decide) _ vet _ _ _ rfl
  exact ⟨compilation, compiled, imports.trans (by decide +kernel), declared.decl, present,
    mentioned⟩

end Protoschema
