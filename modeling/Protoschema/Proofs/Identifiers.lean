import Protoschema.Ident
/-!
Identifiers. An identifier holds plain characters only, so it is left as it is when it is made an
identifier again, and a dot in a dotted name of identifiers can only stand between two of them.
-/

namespace Protoschema.Ident

theorem isPlain_of_isDigit {c : Char} (digit : c.isDigit = true) : isPlain c = true := by
  simp [isPlain, Char.isAlphanum, digit]

theorem plain_of_mem_clean {name : List Char} {c : Char} (member : c ∈ clean name) :
    isPlain c = true := by
  obtain ⟨d, _, rfl⟩ := List.mem_map.mp member
  split
  · assumption
  · decide

theorem mem_guardDigit {name : List Char} {c : Char} (member : c ∈ guardDigit name) :
    c = '_' ∨ c ∈ name := by
  cases name with
  | nil => cases member
  | cons d rest =>
    simp only [guardDigit] at member
    split at member
    · simpa using member
    · exact Or.inr member

theorem plain_of_mem_normalize {name : String} {c : Char}
    (member : c ∈ (normalize name).toList) : isPlain c = true := by
  rw [normalize, String.toList_ofList] at member
  rcases mem_guardDigit member with rfl | inside
  · decide
  · exact plain_of_mem_clean inside

theorem clean_of_plain {name : List Char} (plain : ∀ c ∈ name, isPlain c = true) :
    clean name = name := by
  have kept : ∀ c ∈ name, (if isPlain c then c else '_') = c := by
    intro c member
    rw [if_pos (plain c member)]
  rw [clean, List.map_congr_left kept, List.map_id']

theorem guardDigit_guardDigit (name : List Char) :
    guardDigit (guardDigit name) = guardDigit name := by
  cases name with
  | nil => rfl
  | cons c rest =>
    by_cases digit : c.isDigit = true
    · simp [guardDigit, digit]
    · simp [guardDigit, digit]

@[simp] theorem normalize_normalize (name : String) :
    normalize (normalize name) = normalize name := by
  have plain : ∀ c ∈ (normalize name).toList, isPlain c = true := fun c => plain_of_mem_normalize
  rw [normalize, clean_of_plain plain, normalize, String.toList_ofList, guardDigit_guardDigit]

theorem notMem_normalize {c : Char} (special : isPlain c = false) (name : String) :
    c ∉ (normalize name).toList := by
  intro member
  rw [plain_of_mem_normalize member] at special
  cases special

/-! ### Longer names -/

theorem length_guardDigit (name : List Char) :
    (guardDigit name).length
      = name.length + if name.head?.any Char.isDigit then 1 else 0 := by
  cases name with
  | nil => rfl
  | cons c rest => by_cases digit : c.isDigit = true <;> simp [guardDigit, digit]

theorem length_normalize (name : String) :
    (normalize name).toList.length
      = name.toList.length + if (clean name.toList).head?.any Char.isDigit then 1 else 0 := by
  rw [normalize, String.toList_ofList, length_guardDigit, clean, List.length_map]

theorem guardDigit_append {name : List Char} (some : name ≠ []) (rest : List Char) :
    guardDigit (name ++ rest) = guardDigit name ++ rest := by
  cases name with
  | nil => exact absurd rfl some
  | cons c following =>
    by_cases digit : c.isDigit = true
    · simp [guardDigit, digit]
    · simp [guardDigit, digit]

theorem toList_normalize_append {name : String} (some : name ≠ "") (rest : String) :
    (normalize (name ++ rest)).toList = (normalize name).toList ++ clean rest.toList := by
  -- a leading digit is one of the name, which is not empty
  have head : clean name.toList ≠ [] := by
    simpa [clean] using some
  rw [normalize, normalize, String.toList_ofList, String.toList_ofList, String.toList_append,
    ← guardDigit_append head, clean, clean, clean, List.map_append]

/-- What follows the same lead is made an identifier alike if the whole is. -/
theorem normalize_append_cancel {lead name other : String} (some : lead ≠ "")
    (same : normalize (lead ++ name) = normalize (lead ++ other)) :
    normalize name = normalize other := by
  have lists := congrArg String.toList same
  rw [toList_normalize_append some, toList_normalize_append some] at lists
  rw [normalize, normalize, List.append_cancel_left lists]

theorem normalize_append_of_normalize_eq {ending : String} (stable : normalize ending = ending)
    (name : String) : normalize (name ++ ending) = normalize name ++ ending := by
  have plain : ∀ c ∈ ending.toList, isPlain c = true := by
    rw [← stable]
    exact fun c => plain_of_mem_normalize
  by_cases empty : name = ""
  · subst empty
    rw [String.empty_append, stable]
    rfl
  · apply String.toList_inj.mp
    rw [toList_normalize_append empty, clean_of_plain plain, String.toList_append]

/-! ### Dotted names -/

/-- A dotted name of identifiers falls into these identifiers at its dots. -/
theorem splitOn_intercalate_normalize {names : List String} (some : names ≠ []) :
    (".".intercalate (names.map normalize)).toList.splitOn '.'
      = names.map fun name => (normalize name).toList := by
  rw [String.toList_intercalate]
  have pieces : (names.map normalize).map String.toList
      = names.map fun name => (normalize name).toList := by
    rw [List.map_map]
    rfl
  rw [pieces]
  apply List.splitOn_intercalate
  · intro piece member
    obtain ⟨name, _, rfl⟩ := List.mem_map.mp member
    exact notMem_normalize (by decide) name
  · simpa using some

/-- A dotted name of identifiers is left as it is. -/
theorem qualified_intercalate_normalize {names : List String} (some : names ≠ []) :
    qualified (".".intercalate (names.map normalize)) = ".".intercalate (names.map normalize) := by
  have pieces : (names.map fun name => (normalize name).toList).map
      (fun segment => normalize (String.ofList segment)) = names.map normalize := by
    rw [List.map_map]
    apply List.map_congr_left
    intro name _
    simp
  rw [qualified, splitOn_intercalate_normalize some, pieces]

@[simp] theorem qualified_normalize (name : String) :
    qualified (normalize name) = normalize name := by
  have single : qualified (".".intercalate ([name].map normalize)) = _ :=
    qualified_intercalate_normalize (by simp)
  simpa using single

theorem qualified_append (package name : String) :
    qualified (package ++ "." ++ name) = qualified package ++ "." ++ qualified name := by
  have joined (segments segments' : List String) (some : segments ≠ []) (some' : segments' ≠ []) :
      ".".intercalate (segments ++ segments')
        = ".".intercalate segments ++ "." ++ ".".intercalate segments' := by
    induction segments with
    | nil => exact absurd rfl some
    | cons segment rest induction =>
      cases rest with
      | nil =>
        cases segments' with
        | nil => exact absurd rfl some'
        | cons next later => simp [String.intercalate_cons_cons]
      | cons next later =>
        have tail := induction (by simp)
        simp only [List.cons_append] at tail ⊢
        rw [String.intercalate_cons_cons, tail, String.intercalate_cons_cons]
        simp [String.append_assoc]
  have pieces : (package ++ "." ++ name).toList.splitOn '.'
      = package.toList.splitOn '.' ++ name.toList.splitOn '.' := by
    have chars : (package ++ "." ++ name).toList = package.toList ++ '.' :: name.toList := by simp
    rw [chars, List.splitOn_append_cons_self]
  rw [qualified, pieces, List.map_append, joined]
  · rfl
  · simp
  · simp

end Protoschema.Ident
