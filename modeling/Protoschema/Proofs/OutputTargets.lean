import Protoschema.Proofs.AllOrNothing
import Protoschema.Proofs.Disks
/-!
Where the compiled texts of several inputs go. Each goes into the given directory, under the stem of
its input with the extension `proto`. The stem is made a path before it gets its extension, so that
what looks like an extension of the stem is replaced. Without such stems, inputs are told apart
exactly by their stems, and each output is called like the file that others import.
-/

namespace Protoschema

namespace Path

/-- A stem that keeps its whole when an extension is set: no dot in it but a first one, and more
than a dot. -/
def IsWholeStem (stem : String) : Prop :=
  '.' ∉ stem.toList.tail ∧ stem ≠ "."

instance (stem : String) : Decidable (IsWholeStem stem) :=
  inferInstanceAs (Decidable (_ ∧ _))

theorem exists_of_stem? {path : Path} {stem : String} (found : path.stem? = some stem) :
    ∃ name, path.fileName? = some name ∧ IsFileName name ∧ (splitName name).1 = stem := by
  obtain ⟨name, named, same⟩ := Option.map_eq_some_iff.mp found
  exact ⟨name, named, (exists_front_of_fileName? named).1, same⟩

theorem stem_of_stem? {path : Path} {stem : String} (found : path.stem? = some stem) :
    stem ≠ "" ∧ '/' ∉ stem.toList := by
  obtain ⟨name, _, named, rfl⟩ := exists_of_stem? found
  obtain ⟨written, start⟩ := named.stem
  exact ⟨written, fun member => named.slash (start.subset member)⟩

section Stem

variable {stem : String}

theorem IsWholeStem.isFileName (whole : IsWholeStem stem) (written : stem ≠ "")
    (slash : '/' ∉ stem.toList) : IsFileName stem := by
  refine ⟨written, whole.2, ?_, slash⟩
  rintro rfl
  exact whole.1 (by decide)

theorem IsWholeStem.splitName_eq (whole : IsWholeStem stem) : splitName stem = (stem, none) := by
  rcases splitName_cases stem with ⟨same, _⟩ | ⟨front, extension, written, _, text, _⟩
  · exact same
  · -- the dot in front of an extension is not the first character
    refine absurd ?_ whole.1
    rw [text]
    rcases chars : front.toList with _ | ⟨c, rest⟩
    · exact absurd (by simpa using chars) written
    · simp [chars]

theorem length_dropTrailing_le (cs : List Char) : (dropTrailing cs).length ≤ cs.length := by
  fun_induction dropTrailing cs with
  | case1 rest induction =>
    rw [List.length_cons]
    omega
  | case2 rest induction =>
    simp only [List.length_cons]
    omega
  | case3 => exact Nat.le_refl _

/-- An extension takes no more room than what is trimmed leaves, and its own. -/
theorem length_withExtension_le {path : Path} {name : String} (found : path.fileName? = some name)
    (extension : String) :
    (path.withExtension extension).toList.length
      ≤ path.trimmed.length + 1 + extension.toList.length := by
  obtain ⟨named, front, _, written⟩ := exists_front_of_fileName? found
  have room : path.trimmed.length = front.toList.length + name.toList.length := by
    rw [written, List.length_append]
  by_cases dot : (splitName name).1 = "."
  · obtain ⟨long, result⟩ := withExtension_dot found written dot extension
    have dots : "..".toList.length = 2 := rfl
    rw [result]
    simp only [String.toList_append, List.length_append, dots, room]
    split
    · simp
      omega
    · omega
  · have start := named.stem.2.length_le
    have single : ".".toList.length = 1 := rfl
    rw [withExtension_eq found written dot]
    simp only [String.toList_append, List.length_append, single, room]
    omega

/-- A dot behind a directory leaves the extension to the directory, if that has a name. -/
theorem length_withExtension_here (directory : Path) (extension : String) :
    ((directory.join ".").withExtension extension).toList.length
      < directory.lead.toList.length + 2 + extension.toList.length := by
  rw [directory.join_eq (by decide)]
  cases found : fileName? (directory.lead ++ ".") with
  | none =>
    simp [withExtension, found]
    omega
  | some name =>
    have short := length_withExtension_le found extension
    rcases directory.isOpen_lead with empty | ⟨before, slash⟩
    · rw [empty] at found
      cases found
    · have trimmed : trimmed (directory.lead ++ ".")
          = (dropTrailing before.toList.reverse).reverse := by
        rw [slash, Path.trimmed]
        simp [dropTrailing]
      have less := length_dropTrailing_le before.toList.reverse
      have room : directory.lead.toList.length = before.toList.length + 1 := by
        rw [slash]
        simp
      rw [trimmed, List.length_reverse] at short
      rw [List.length_reverse] at less
      omega

/-- Where a stem is followed by the extension, and where it is not. -/
theorem withExtension_stem_iff (directory : Path) (written : stem ≠ "")
    (slash : '/' ∉ stem.toList) :
    (directory.join stem).withExtension "proto" = directory.join (stem ++ ".proto") ↔
      IsWholeStem stem := by
  have slash' : '/' ∉ (stem ++ ".proto").toList := by simpa using slash
  rw [directory.join_eq slash']
  constructor
  · intro same
    have lengths := congrArg (fun text : String => text.toList.length) same
    have proto : ".proto".toList.length = 6 := rfl
    simp only [String.toList_append, List.length_append, proto] at lengths
    by_cases here : stem = "."
    · subst here
      have short := directory.length_withExtension_here "proto"
      have bare : "proto".toList.length = 5 := rfl
      have single : ".".toList.length = 1 := rfl
      omega
    by_cases up : stem = ".."
    · subst up
      have none : fileName? (directory.join "..") = none := by
        rw [directory.join_eq (by decide)]
        exact directory.isOpen_lead.fileName?_up
      rw [directory.join_eq slash] at none lengths
      simp [withExtension, none] at lengths
    · have named : IsFileName stem := ⟨written, here, up, slash⟩
      rcases splitName_cases stem with ⟨_, dot⟩ | ⟨front, extension, _, _, text, split⟩
      · exact ⟨dot, here⟩
      · -- the last dot of the stem and what follows it are gone
        have longer : front.toList.length + 1 ≤ stem.toList.length := by
          rw [text]
          simp only [String.toList_append, List.length_append]
          have single : ".".toList.length = 1 := rfl
          omega
        by_cases dot : (splitName stem).1 = "."
        · rw [directory.withExtension_join_dot named dot] at lengths
          have dots : "..".toList.length = 2 := rfl
          simp only [String.toList_append, List.length_append, dots] at lengths
          omega
        · rw [directory.withExtension_join named dot, split] at lengths
          have single : ".".toList.length = 1 := rfl
          have bare : "proto".toList.length = 5 := rfl
          simp only [String.toList_append, List.length_append, single, bare] at lengths
          omega
  · intro whole
    have named := whole.isFileName written slash
    have stem := congrArg Prod.fst whole.splitName_eq
    rw [directory.withExtension_join named (by rw [stem]; exact whole.2), stem]
    simp [String.append_assoc]

end Stem

theorem fileName?_eq_some_iff {path : Path} {name : String} :
    path.fileName? = some name ↔ path.components.getLast? = some (.name name) := by
  unfold fileName?
  split
  next text last => simp [last]
  next other => simpa using fun last => other name last

theorem fileName?_here {rest : Path} {name : String}
    (found : fileName? ("./" ++ rest) = some name) : rest.fileName? = some name := by
  have split : components ("./" ++ rest)
      = [.here] ++ rest.pieces.filterMap laterComponent := components_append "." rest
  rw [fileName?_eq_some_iff] at found ⊢
  rw [split] at found
  unfold components
  cases pieces : rest.pieces with
  | nil => exact absurd pieces rest.pieces_ne_nil
  | cons first others =>
    have firstLast : (first :: others).filterMap laterComponent
        = (laterComponent first).toList ++ others.filterMap laterComponent := by
      rw [List.filterMap_cons]
      cases laterComponent first <;> rfl
    rw [pieces, firstLast] at found
    cases later : others.filterMap laterComponent using List.reverseRecOn with
    | append_singleton _ last =>
      rw [later, ← List.append_assoc, ← List.append_assoc, List.getLast?_concat] at found
      simpa [later] using found
    | nil =>
      -- the name is the first piece, which counts as it would behind a slash
      by_cases skipped : first = "" ∨ first = "."
      · simp [laterComponent, skipped, later] at found
      · rw [not_or] at skipped
        cases own : laterComponent first with
        | none => simp [own, later] at found
        | some component => simpa [own, later, skipped] using found

theorem fileName?_dropHere {path : Path} {name : String} (found : path.fileName? = some name) :
    fileName? (String.ofList (dropHere path.toList)) = some name := by
  have general (cs : List Char) (found : fileName? (String.ofList cs) = some name) :
      fileName? (String.ofList (dropHere cs)) = some name := by
    fun_induction dropHere cs with
    | case1 rest induction =>
      apply induction
      have text : String.ofList ('.' :: '/' :: rest) = "./" ++ String.ofList rest := by
        apply String.toList_injective
        simp
      rw [text] at found
      exact fileName?_here found
    | case2 => exact found
  exact general path.toList (by simpa using found)

end Path

/-- What others import is called by the stem of the document, whatever the directory. -/
theorem Reference.fileName?_importPath {reference : Reference} {package name : String}
    {importPath : Path}
    (bound : reference.externalBinding? = some (.elsewhere package name importPath))
    {file : String} (found : Path.fileName? (Pointer.split reference.pointer).1 = some file)
    (dot : (Path.splitName file).1 ≠ ".") :
    importPath.fileName? = some ((Path.splitName file).1 ++ ".proto") := by
  unfold externalBinding? at bound
  split at bound
  · cases bound
    have renamed := Path.fileName?_withExtension (Path.fileName?_dropHere found) dot
      (by decide : "proto" ≠ "") (by decide)
    simpa [String.append_assoc] using renamed
  · cases bound

namespace Command

theorem targetIn_of_stem? {directory input : Path} {stem : String}
    (found : input.stem? = some stem) :
    targetIn directory input = (directory.join stem).withExtension "proto" := by
  rw [targetIn, found]
  rfl

theorem isFileName_output {stem : String} (slash : '/' ∉ stem.toList) :
    Path.IsFileName (stem ++ ".proto") := by
  apply Path.isFileName_of_length
  · rw [String.toList_append, List.length_append]
    have proto : ".proto".toList.length = 6 := rfl
    omega
  · simpa using slash

theorem output_injective (directory : Path) : Function.Injective fun stem : String =>
    directory.components ++ [Component.name (stem ++ ".proto")] := by
  intro stem stem' same
  simpa using same

/-- Outputs of different stems lie in different places on every disk. -/
theorem outputs_pairwise (directory : Path) {stems : List String} (distinct : stems.Nodup)
    (slashes : ∀ stem ∈ stems, '/' ∉ stem.toList) :
    (stems.map fun stem => directory.join (stem ++ ".proto")).Pairwise fun path other =>
      ∀ (disk disk' : Disk) (names : Names), disk.resolve path = .ok names →
        disk'.resolve other ≠ .ok names := by
  rw [List.pairwise_map]
  refine distinct.imp_of_mem fun {stem stem'} member member' different => ?_
  intro disk disk' names first second
  have place := Disk.placeOf_of_resolve first
  have place' := Disk.placeOf_of_resolve second
  rw [Disk.placeOf_join directory (isFileName_output (slashes stem member))] at place
  rw [Disk.placeOf_join directory (isFileName_output (slashes stem' member')), place] at place'
  exact different (by simpa using place')

theorem map_targetIn (directory : Path) {inputs : List Path} {stems : List String}
    (named : inputs.map Path.stem? = stems.map some)
    (whole : ∀ stem ∈ stems, Path.IsWholeStem stem) :
    inputs.map (targetIn directory) = stems.map fun stem => directory.join (stem ++ ".proto") := by
  have given : stems = inputs.map fun input => input.stem?.getD "" := by
    have values := congrArg (List.map fun stem => stem.getD "") named
    simpa [Function.comp_def] using values.symm
  conv_rhs => rw [given, List.map_map]
  apply List.map_congr_left
  intro input member
  have stemmed : input.stem? ∈ stems.map some := named ▸ List.mem_map_of_mem member
  obtain ⟨stem, listed, found⟩ := List.mem_map.mp stemmed
  obtain ⟨written, slash⟩ := Path.stem_of_stem? found.symm
  rw [targetIn_of_stem? found.symm, Function.comp, ← found]
  exact (directory.withExtension_stem_iff written slash).mpr (whole stem listed)

/-- Outputs follow the stems of inputs. The output of an input is called by its stem exactly if the
stem is kept whole; what others import is always called by it, unless it is a dot. If all stems are
kept whole, there are outputs exactly if the stems are distinct. They lie in the directory, in the
order of the inputs; no two of them are one file on any disk, and each is called like what others
import. -/
theorem outputs_follow_stems (directory : Path) (inputs : List Path) (stems : List String)
    (named : inputs.map Path.stem? = stems.map some) :
    (∀ input ∈ inputs, ∀ stem, input.stem? = some stem →
      (targetIn directory input = directory.join (stem ++ ".proto") ↔ Path.IsWholeStem stem) ∧
      (stem ≠ "." → ∀ (reference : Reference) (package name : String) (importPath : Path),
        Path.fileName? (Pointer.split reference.pointer).1 = input.fileName? →
        reference.externalBinding? = some (.elsewhere package name importPath) →
        importPath.fileName? = some (stem ++ ".proto"))) ∧
    ((∀ stem ∈ stems, Path.IsWholeStem stem) →
      ((∃ paths, targetsIn directory inputs = .ok paths) ↔ stems.Nodup) ∧
      ∀ paths, targetsIn directory inputs = .ok paths →
        paths = stems.map (fun stem => directory.join (stem ++ ".proto")) ∧
        paths.map Path.fileName? = stems.map (fun stem => some (stem ++ ".proto")) ∧
        paths.Pairwise fun path other =>
          ∀ (disk disk' : Disk) (names : Names), disk.resolve path = .ok names →
            disk'.resolve other ≠ .ok names) := by
  constructor
  · intro input _ stem found
    obtain ⟨written, slash⟩ := Path.stem_of_stem? found
    constructor
    · rw [targetIn_of_stem? found]
      exact directory.withExtension_stem_iff written slash
    · intro dot reference package name importPath same bound
      obtain ⟨file, fileName, _, rfl⟩ := Path.exists_of_stem? found
      exact Reference.fileName?_importPath bound (same.trans fileName) dot
  · intro whole
    have slashes : ∀ stem ∈ stems, '/' ∉ stem.toList := by
      intro stem member
      have stemmed : some stem ∈ inputs.map Path.stem? := named ▸ List.mem_map_of_mem member
      obtain ⟨input, _, found⟩ := List.mem_map.mp stemmed
      exact (Path.stem_of_stem? found).2
    have targets := map_targetIn directory named whole
    -- targets are compared by their components, which end in their names
    have components : (inputs.map fun input => (targetIn directory input).components)
        = stems.map fun stem => directory.components ++ [.name (stem ++ ".proto")] := by
      have paths := congrArg (List.map Path.components) targets
      simp only [List.map_map, Function.comp_def] at paths
      rw [paths]
      apply List.map_congr_left
      intro stem member
      rw [directory.components_join (isFileName_output (slashes stem member))]
    have distinct : (inputs.map fun input => (targetIn directory input).components).Nodup
        ↔ stems.Nodup := by
      rw [components, List.nodup_map_iff (output_injective directory)]
    constructor
    · constructor
      · rintro ⟨paths, placed⟩
        exact distinct.mp (targetsIn_eq_ok_iff.mp placed).2
      · intro apart
        exact ⟨_, targetsIn_eq_ok_iff.mpr ⟨rfl, distinct.mpr apart⟩⟩
    · intro paths placed
      obtain ⟨rfl, apart⟩ := targetsIn_eq_ok_iff.mp placed
      rw [targets]
      refine ⟨rfl, ?_, outputs_pairwise directory (distinct.mp apart) slashes⟩
      rw [List.map_map]
      apply List.map_congr_left
      intro stem member
      have file := isFileName_output (slashes stem member)
      rw [Function.comp, directory.join_eq file.slash]
      exact directory.isOpen_lead.fileName?_append file

theorem outputs_follow_stems_pets :
    let inputs := ["a/pets.yaml", "./store.json", "b/.hidden.yaml/."]
    let stems := ["pets", "store", ".hidden"]
    inputs.map Path.stem? = stems.map some ∧ (∀ stem ∈ stems, Path.IsWholeStem stem) ∧
      targetsIn "out" inputs = .ok ["out/pets.proto", "out/store.proto", "out/.hidden.proto"] ∧
      ∀ (package name : String) (importPath : Path),
        Reference.externalBinding? { pointer := "../b/.hidden.yaml#/components/schemas/Key" }
          = some (.elsewhere package name importPath) →
        importPath.fileName? = some ".hidden.proto" := by
  intro inputs stems
  have named : inputs.map Path.stem? = stems.map some := by decide +kernel
  have whole : ∀ stem ∈ stems, Path.IsWholeStem stem := by decide
  obtain ⟨each, all⟩ := outputs_follow_stems "out" inputs stems named
  obtain ⟨accepted, outputs⟩ := all whole
  obtain ⟨paths, placed⟩ := accepted.mpr (by decide)
  refine ⟨named, whole, ?_, ?_⟩
  · rw [placed, (outputs paths placed).1]
    decide +kernel
  · intro package name importPath bound
    exact (each "b/.hidden.yaml/." (by decide) ".hidden" (by decide +kernel)).2 (by decide) _
      package name importPath (by decide +kernel) bound

/-- Two versions of one interface have different stems, and are not told apart; one alone is called
by less than its stem. -/
theorem outputs_collide_apiVersions :
    ["api.v1.json", "api.v2.json"].map Path.stem? = [some "api.v1", some "api.v2"] ∧
      targetsIn "out" ["api.v1.json", "api.v2.json"]
        = .error (.sameTarget "api.v1.json" "api.v2.json" "out/api.proto") ∧
      targetsIn "out" ["api.v1.json"] = .ok ["out/api.proto"] := by
  decide +kernel

end Command

end Protoschema
