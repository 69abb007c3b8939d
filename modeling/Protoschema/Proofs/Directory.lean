import Protoschema.Proofs.Loaded
import Protoschema.Proofs.Naming
/-!
The directory of a document is the list of its places. Every place where a node stands is entered
under its own pointer, nothing else is, and no entry takes the place of another, whatever the names
of schemas and properties are: a name may hold slashes and tildes, read like a pointer, or be empty.
-/

namespace Protoschema

namespace Document

variable {document : Document}

/-- What the directory finds under a pointer stands at the one place that has this pointer. -/
theorem Distinct.place_of_get? (distinct : document.Distinct) {pointer : String}
    {address : Address} (found : (Directory.ofDocument document).get? pointer = some address) :
    (document.lookup address.target).isSome ∧ pointer = address.target.pointer := by
  obtain ⟨location, stands, entry⟩ := (distinct.directory_get?_iff pointer address).mp found
  have target : address.target = location := by
    rw [show address = location.entry.2 from congrArg Prod.snd entry, Location.entry_snd]
  rw [target]
  exact ⟨stands, (congrArg Prod.fst entry).trans location.entry_fst⟩

/-- The places in the directory, in the order of its entries. -/
def addressed (document : Document) : List Location :=
  (Directory.ofDocument document).entries.map fun entry => entry.2.target

theorem mem_directory_iff {entry : String × Address} :
    entry ∈ (Directory.ofDocument document).entries ↔
      (Directory.ofDocument document).get? entry.1 = some entry.2 :=
  (Entries.get?_eq_some_iff (Entries.nodup_keys_ofList _)).symm

theorem Distinct.mem_addressed_iff (distinct : document.Distinct) (location : Location) :
    location ∈ document.addressed ↔ (document.lookup location).isSome := by
  constructor
  · intro listed
    obtain ⟨entry, member, rfl⟩ := List.mem_map.mp listed
    exact (distinct.place_of_get? (mem_directory_iff.mp member)).1
  · intro stands
    have found := directory_get?_of_lookup stands
    refine List.mem_map.mpr ⟨(location.pointer, location.entry.2), mem_directory_iff.mpr found, ?_⟩
    rw [Location.entry_snd]

/-- A place is listed once, because its pointer is a key. -/
theorem Distinct.nodup_addressed (distinct : document.Distinct) : document.addressed.Nodup := by
  have keys : (Directory.ofDocument document).entries.Pairwise fun entry other =>
      entry.1 ≠ other.1 := List.pairwise_map.mp (Entries.nodup_keys_ofList _)
  refine List.pairwise_map.mpr (keys.imp_of_mem fun member member' differ same => differ ?_)
  rw [(distinct.place_of_get? (mem_directory_iff.mp member)).2,
    (distinct.place_of_get? (mem_directory_iff.mp member')).2, same]

end Document

/-- The directory holds exactly the places where a node stands, if names are distinct in the maps of
the document, as they are in every document that is read. Something is found under a pointer exactly
if it is the pointer of such a place; that is the place it is entered with, and no other place has
this pointer. There are as many entries as places. -/
theorem Document.directory_exact :
    (∀ format text document, Document.ofText format text = .ok document → document.Distinct) ∧
    ∀ document : Document, document.Distinct →
      (∀ pointer, ((Directory.ofDocument document).get? pointer).isSome ↔
        ∃ root path, (document.lookup ⟨root, path⟩).isSome ∧
          pointer = Pointer.ofLocation root path) ∧
      (∀ pointer address, (Directory.ofDocument document).get? pointer = some address →
        ∀ root path, pointer = Pointer.ofLocation root path ↔ address.target = ⟨root, path⟩) ∧
      ∃ places : List Location, places.Nodup ∧
        (∀ location, location ∈ places ↔ (document.lookup location).isSome) ∧
        (Directory.ofDocument document).size = places.length := by
  refine ⟨fun format text document => distinct_of_ofText, fun document distinct => ?_⟩
  refine ⟨fun pointer => ⟨fun found => ?_, ?_⟩, fun pointer address found root path => ?_, ?_⟩
  · obtain ⟨address, found⟩ := Option.isSome_iff_exists.mp found
    obtain ⟨stands, same⟩ := distinct.place_of_get? found
    exact ⟨_, _, stands, same⟩
  · rintro ⟨root, path, stands, rfl⟩
    have found := directory_get?_of_lookup stands
    rw [Location.pointer] at found
    rw [found]
    rfl
  · obtain ⟨_, same⟩ := distinct.place_of_get? found
    constructor
    · intro pointed
      obtain ⟨roots, paths⟩ := Pointer.ofLocation_injective (same.symm.trans pointed)
      rw [← roots, ← paths]
    · intro target
      rw [same, target]
      rfl
  · refine ⟨document.addressed, distinct.nodup_addressed, distinct.mem_addressed_iff, ?_⟩
    rw [addressed, List.length_map, Directory.size]

/-- Schemas and properties that are called like pieces of pointers. -/
def mazes : Document where
  schemas := [
    ("a/properties/b", .ref { pointer := "#/components/schemas/a" }),
    ("a", .inline {
      properties := [
        ("b", .inline { properties := [("", .ref { pointer := "#" })] }),
        ("b/properties/", .inline {}),
        ("~1", .inline {}),
        ("/", .inline {})] })]

theorem Document.directory_exact_mazes :
    mazes.Distinct ∧ (Directory.ofDocument mazes).size = 7 ∧
    (∀ root path,
      "#/components/schemas/a/properties/b/properties/" = Pointer.ofLocation root path ↔
        (⟨"a", ["b", ""]⟩ : Location) = ⟨root, path⟩) ∧
    ∀ root path, "#/components/schemas/a/properties/~01" = Pointer.ofLocation root path ↔
      (⟨"a", ["~1"]⟩ : Location) = ⟨root, path⟩ := by
  have distinct : mazes.Distinct := by
    refine ⟨by decide, ?_⟩
    simp [mazes, Node.distinct_ref, Node.distinct_inline, Schema.children]
  obtain ⟨_, targets, _⟩ := directory_exact.2 mazes distinct
  refine ⟨distinct, by decide +kernel, ?_, ?_⟩
  · exact targets _ ⟨"a.a_b.a_b_", ⟨"a", ["b", ""]⟩⟩ (by decide +kernel)
  · exact targets _ ⟨"a.a__1", ⟨"a", ["~1"]⟩⟩ (by decide +kernel)

end Protoschema
