import Mathlib.Data.List.Basic
import Protoschema.Files.Path
/-!
Paths as they are written. A path whose last piece is a name has that name as its file name, and
anything can stand in front of it; slashes and lone dots behind it do not count. So the file name of
a path that is joined, or whose extension is replaced, can be read off how it is written.
-/

namespace Protoschema

/-- A character is followed somewhere by a rest without it. -/
theorem exists_last_of_mem {c : Char} {cs : List Char} (member : c ∈ cs) :
    ∃ front back, cs = front ++ c :: back ∧ c ∉ back := by
  obtain ⟨back, front, same, absent⟩ :=
    List.eq_append_cons_of_mem (List.mem_reverse.mpr member)
  refine ⟨front.reverse, back.reverse, ?_, by simpa using absent⟩
  rw [← List.reverse_reverse cs, same]
  simp

namespace Path

/-- A name that stands for itself in a path. -/
structure IsFileName (name : String) : Prop where
  written : name ≠ ""
  notHere : name ≠ "."
  notUp : name ≠ ".."
  slash : '/' ∉ name.toList

/-- What a name can stand behind: nothing, or what ends with a slash. -/
def IsOpen (front : String) : Prop :=
  front = "" ∨ ∃ before, front = before ++ "/"

/-! ### Pieces -/

theorem pieces_append (front back : String) :
    pieces (front ++ "/" ++ back) = pieces front ++ pieces back := by
  have chars : (front ++ "/" ++ back).toList = front.toList ++ '/' :: back.toList := by simp
  rw [pieces, chars, List.splitOn_append_cons_self, List.map_append]
  rfl

theorem pieces_of_notMem {name : String} (slash : '/' ∉ name.toList) : pieces name = [name] := by
  rw [pieces, List.splitOn_eq_singleton slash, List.map_singleton, String.ofList_toList]

theorem pieces_ne_nil (path : Path) : path.pieces ≠ [] := by
  simp [pieces]

theorem eq_empty_of_pieces {path : Path} (single : path.pieces = [""]) : path = "" := by
  have joined : ['/'].intercalate (path.toList.splitOn '/') = path.toList :=
    List.intercalate_splitOn '/'
  have chars := congrArg (List.map String.toList) single
  simp only [pieces, List.map_map, Function.comp_def, String.toList_ofList, List.map_id',
    List.map_cons, List.map_nil] at chars
  rw [chars] at joined
  simpa using joined.symm

theorem IsFileName.laterComponent {name : String} (named : IsFileName name) :
    laterComponent name = some (.name name) := by
  rw [Path.laterComponent, if_neg (not_or.mpr ⟨named.written, named.notHere⟩),
    if_neg named.notUp]

theorem pieces_slash (front : Path) : pieces (front ++ "/") = front.pieces ++ [""] := by
  have split := pieces_append front ""
  have none : pieces "" = [""] := pieces_of_notMem (by simp)
  rwa [String.append_empty, none] at split

/-! ### Components -/

/-- What a path with a slash at its end leads to is the same whatever follows. -/
theorem components_append (front back : Path) :
    components (front ++ "/" ++ back)
      = components (front ++ "/") ++ back.pieces.filterMap laterComponent := by
  have none : laterComponent "" = none := rfl
  unfold components
  rw [pieces_append, pieces_slash]
  cases split : front.pieces with
  | nil => exact absurd split front.pieces_ne_nil
  | cons first rest => simp [back.pieces_ne_nil, none]

theorem components_slash {front : Path} (written : front ≠ "") :
    components (front ++ "/") = front.components := by
  have none : laterComponent "" = none := rfl
  unfold components
  rw [pieces_slash]
  cases split : front.pieces with
  | nil => exact absurd split front.pieces_ne_nil
  | cons first rest =>
    -- an empty piece alone is the empty path; with others behind it is the root
    have others : first = "" → rest ≠ [] := by
      intro empty alone
      exact written (eq_empty_of_pieces (by rw [split, empty, alone]))
    by_cases empty : first = "" <;> simp [empty, others, none]

theorem components_of_fileName {name : String} (named : IsFileName name) :
    components name = [.name name] := by
  unfold components
  simp [pieces_of_notMem named.slash, named.written, named.notHere, named.laterComponent]

/-- A name behind what is open to it is one more component. -/
theorem IsOpen.components_append {front : Path} (opened : IsOpen front) {name : String}
    (named : IsFileName name) : components (front ++ name) = front.components ++ [.name name] := by
  rcases opened with rfl | ⟨before, rfl⟩
  · rw [String.empty_append, components_of_fileName named]
    rfl
  · rw [Path.components_append, pieces_of_notMem named.slash]
    simp [named.laterComponent]

/-- The component that is walked through at a piece. -/
def stepOf (piece : String) : Option Component :=
  if piece = "." then some .here else laterComponent piece

theorem IsFileName.stepOf_eq {name : String} (named : IsFileName name) :
    stepOf name = some (.name name) := by
  rw [stepOf, if_neg named.notHere, named.laterComponent]

theorem steps_eq (path : Path) :
    path.steps = (if path.toList.head? = some '/' then [Component.root] else [])
      ++ path.pieces.filterMap stepOf := rfl

theorem steps_append (front back : Path) :
    steps (front ++ "/" ++ back) = steps (front ++ "/") ++ back.pieces.filterMap stepOf := by
  have heads : (front ++ "/" ++ back).toList.head? = (front ++ "/").toList.head? := by
    cases chars : front.toList <;> simp [chars]
  have none : stepOf "" = none := rfl
  rw [steps_eq, steps_eq, heads, pieces_append, pieces_slash]
  simp [none]

theorem steps_slash {front : Path} (written : front ≠ "") :
    steps (front ++ "/") = front.steps := by
  have heads : (front ++ "/").toList.head? = front.toList.head? := by
    cases chars : front.toList with
    | nil => exact absurd (by simpa using chars) written
    | cons c rest => simp [chars]
  have none : stepOf "" = none := rfl
  rw [steps_eq, steps_eq, heads, pieces_slash]
  simp [none]

/-- A piece behind what is open to it is one more step. -/
theorem IsOpen.steps_append {front : Path} (opened : IsOpen front) {piece : String}
    (slash : '/' ∉ piece.toList) :
    steps (front ++ piece) = front.steps ++ (stepOf piece).toList := by
  have single : [piece].filterMap stepOf = (stepOf piece).toList := by
    cases walked : stepOf piece <;> simp [walked]
  rcases opened with rfl | ⟨before, rfl⟩
  · have relative : ¬piece.toList.head? = some '/' := fun first => slash (List.mem_of_head? first)
    have none : steps "" = [] := rfl
    rw [String.empty_append, none, steps_eq, if_neg relative, pieces_of_notMem slash, single]
  · rw [Path.steps_append, pieces_of_notMem slash, single]

/-! ### Joined paths -/

/-- A directory as it stands in front of a name. -/
def lead (directory : Path) : Path :=
  if directory = "" ∨ directory.toList.getLast? = some '/' then directory else directory ++ "/"

theorem lead_cases (directory : Path) :
    directory = "" ∧ directory.lead = "" ∨
      (∃ before, directory = before ++ "/" ∧ directory.lead = directory) ∨
      directory ≠ "" ∧ directory.lead = directory ++ "/" := by
  unfold lead
  by_cases written : directory = ""
  · exact .inl ⟨written, by simp [written]⟩
  · by_cases slash : directory.toList.getLast? = some '/'
    · obtain ⟨front, chars⟩ := List.getLast?_eq_some_iff.mp slash
      refine .inr (.inl ⟨String.ofList front, ?_, by simp [slash]⟩)
      apply String.toList_injective
      simp [chars]
    · exact .inr (.inr ⟨written, by simp [written, slash]⟩)

theorem isOpen_lead (directory : Path) : IsOpen directory.lead := by
  rcases directory.lead_cases with ⟨_, same⟩ | ⟨before, slash, same⟩ | ⟨_, same⟩
  · exact .inl same
  · exact .inr ⟨before, same.trans slash⟩
  · exact .inr ⟨directory, same⟩

theorem components_lead (directory : Path) : directory.lead.components = directory.components := by
  rcases directory.lead_cases with ⟨rfl, _⟩ | ⟨_, _, same⟩ | ⟨written, same⟩
  · rfl
  · rw [same]
  · rw [same, components_slash written]

theorem steps_lead (directory : Path) : directory.lead.steps = directory.steps := by
  rcases directory.lead_cases with ⟨rfl, _⟩ | ⟨_, _, same⟩ | ⟨written, same⟩
  · rfl
  · rw [same]
  · rw [same, steps_slash written]

theorem join_eq (directory : Path) {name : String} (slash : '/' ∉ name.toList) :
    directory.join name = directory.lead ++ name := by
  have relative : ¬isAbsolute name = true := by
    simpa [isAbsolute] using fun first => slash (List.mem_of_head? first)
  unfold join lead
  rw [if_neg relative]
  split
  next empty => simp [empty]
  next written =>
    split
    next ends => simp [ends]
    next ends => simp [written, ends]

theorem components_join (directory : Path) {name : String} (named : IsFileName name) :
    (directory.join name).components = directory.components ++ [.name name] := by
  rw [directory.join_eq named.slash, directory.isOpen_lead.components_append named,
    components_lead]

theorem steps_join (directory : Path) {piece : String} (slash : '/' ∉ piece.toList) :
    (directory.join piece).steps = directory.steps ++ (stepOf piece).toList := by
  rw [directory.join_eq slash, directory.isOpen_lead.steps_append slash, steps_lead]

/-! ### File names -/

theorem IsOpen.fileName?_append {front : Path} (opened : IsOpen front) {name : String}
    (named : IsFileName name) : fileName? (front ++ name) = some name := by
  simp [fileName?, opened.components_append named]

theorem dropTrailing_of_ne {c : Char} {rest : List Char} (slash : c ≠ '/')
    (dot : c = '.' → rest.head? ≠ some '/') : dropTrailing (c :: rest) = c :: rest := by
  unfold dropTrailing
  split
  next same => exact absurd (List.cons.inj same).1 slash
  next same =>
    obtain ⟨rfl, rfl⟩ := List.cons.inj same
    exact absurd rfl (dot rfl)
  · rfl

/-- Nothing is trimmed off a name. -/
theorem IsFileName.trimmed_append {name : String} (named : IsFileName name) (front : Path) :
    trimmed (front ++ name) = front.toList ++ name.toList := by
  have kept : dropTrailing (front ++ name).toList.reverse = (front ++ name).toList.reverse := by
    rw [String.toList_append, List.reverse_append]
    have inside : ∀ c ∈ name.toList.reverse, c ≠ '/' := by
      rintro c member rfl
      exact named.slash (List.mem_reverse.mp member)
    rcases chars : name.toList.reverse with _ | ⟨last, rest⟩
    · exact absurd (by simpa using chars) named.written
    · rw [chars] at inside
      refine dropTrailing_of_ne (inside last (by simp)) fun dot => ?_
      -- a dot at the end has another character of the name in front of it
      rcases rest with _ | ⟨next, rest⟩
      · have text := congrArg List.reverse chars
        rw [List.reverse_reverse] at text
        exact absurd (String.toList_injective (by simpa [dot] using text)) named.notHere
      · simpa using inside next (by simp)
  rw [trimmed, kept, List.reverse_reverse, String.toList_append]

theorem fileName?_slash {front : Path} {name : String}
    (found : fileName? (front ++ "/") = some name) : fileName? front = some name := by
  by_cases written : front = ""
  · subst written
    cases found
  · rwa [fileName?, components_slash written] at found

theorem fileName?_slash_dot (front : Path) :
    fileName? (front ++ "/" ++ ".") = fileName? (front ++ "/") := by
  have none : (pieces ".").filterMap laterComponent = [] := rfl
  rw [fileName?, components_append, none, List.append_nil]
  rfl

theorem IsOpen.fileName?_up {front : Path} (opened : IsOpen front) :
    fileName? (front ++ "..") = none := by
  rcases opened with rfl | ⟨before, rfl⟩
  · rfl
  · have up : (pieces "..").filterMap laterComponent = [.up] := rfl
    simp [fileName?, Path.components_append, up]

theorem exists_last_piece (path : Path) :
    ∃ (front : Path) (last : String), IsOpen front ∧ '/' ∉ last.toList ∧ path = front ++ last := by
  by_cases member : '/' ∈ path.toList
  · obtain ⟨front, back, chars, absent⟩ := exists_last_of_mem member
    refine ⟨String.ofList front ++ "/", String.ofList back, .inr ⟨_, rfl⟩, ?_, ?_⟩
    · simpa using absent
    apply String.toList_injective
    simp [chars]
  · exact ⟨"", path, .inl rfl, member, by simp⟩

/-- How a path with a file name is written, up to the end of the name. -/
theorem exists_front_of_fileName? {path : Path} {name : String}
    (found : path.fileName? = some name) :
    IsFileName name ∧ ∃ front : Path, IsOpen front ∧
      path.trimmed = front.toList ++ name.toList := by
  -- the induction takes off what is trimmed, one slash with or without a dot at a time
  have general (cs : List Char) (found : fileName? (String.ofList cs.reverse) = some name) :
      IsFileName name ∧ ∃ front : Path, IsOpen front ∧
        (dropTrailing cs).reverse = front.toList ++ name.toList := by
    fun_induction dropTrailing cs with
    | case1 rest induction =>
      apply induction
      have text : String.ofList ('/' :: rest).reverse = String.ofList rest.reverse ++ "/" := by
        apply String.toList_injective
        simp
      rw [text] at found
      exact fileName?_slash found
    | case2 rest induction =>
      apply induction
      have text : String.ofList ('.' :: '/' :: rest).reverse
          = String.ofList rest.reverse ++ "/" ++ "." := by
        apply String.toList_injective
        simp
      rw [text, fileName?_slash_dot] at found
      exact fileName?_slash found
    | case3 cs noSlash noDot =>
      obtain ⟨front, last, opened, slash, text⟩ := exists_last_piece (String.ofList cs.reverse)
      have chars : cs = last.toList.reverse ++ front.toList.reverse := by
        have reversed := congrArg (fun text => text.toList.reverse) text
        simpa using reversed
      have named : IsFileName last := by
        refine ⟨?_, ?_, ?_, slash⟩
        · rintro rfl
          rcases opened with rfl | ⟨before, rfl⟩
          · rw [text] at found
            cases found
          · exact noSlash _ (by simpa using chars)
        · rintro rfl
          rcases opened with rfl | ⟨before, rfl⟩
          · rw [text] at found
            cases found
          · exact noDot _ (by simpa using chars)
        · rintro rfl
          rw [text, opened.fileName?_up] at found
          cases found
      rw [text, opened.fileName?_append named] at found
      cases found
      exact ⟨named, front, opened, by simp [chars]⟩
  exact general path.toList.reverse (by simpa using found)

/-! ### Stems and extensions -/

theorem splitName_of_notMem {name : String} (dot : '.' ∉ name.toList) :
    splitName name = (name, none) := by
  rw [splitName, List.splitOn_eq_singleton dot]
  rfl

theorem splitName_append {stem extension : String} (dot : '.' ∉ extension.toList) :
    splitName (stem ++ "." ++ extension)
      = if stem = "" then ("." ++ extension, none) else (stem, some extension) := by
  have chars : (stem ++ "." ++ extension).toList = stem.toList ++ '.' :: extension.toList := by simp
  have split : ((stem ++ "." ++ extension).toList.splitOn '.').reverse
      = extension.toList :: (stem.toList.splitOn '.').reverse := by
    rw [chars, List.splitOn_append_cons_self, List.splitOn_eq_singleton dot]
    simp
  have joined : ['.'].intercalate (stem.toList.splitOn '.') = stem.toList :=
    List.intercalate_splitOn '.'
  rw [splitName, split]
  rcases pieces : (stem.toList.splitOn '.').reverse with _ | ⟨first, rest⟩
  · simp at pieces
  · have back : (first :: rest).reverse = stem.toList.splitOn '.' := by
      rw [← pieces, List.reverse_reverse]
    simp only [back, joined]
    by_cases empty : stem = "" <;> simp [empty]

theorem splitName_cases (name : String) :
    (splitName name = (name, none) ∧ '.' ∉ name.toList.tail) ∨
      ∃ stem extension, stem ≠ "" ∧ '.' ∉ extension.toList ∧
        name = stem ++ "." ++ extension ∧ splitName name = (stem, some extension) := by
  by_cases member : '.' ∈ name.toList
  · obtain ⟨front, back, chars, absent⟩ := exists_last_of_mem member
    have text : name = String.ofList front ++ "." ++ String.ofList back := by
      apply String.toList_injective
      simp [chars]
    have split := @splitName_append (String.ofList front) (String.ofList back)
      (by simpa using absent)
    rw [← text] at split
    by_cases empty : String.ofList front = ""
    · rw [if_pos empty] at split
      rw [empty, String.empty_append] at text
      refine .inl ⟨by rw [split, ← text], ?_⟩
      rw [text]
      simpa using absent
    · rw [if_neg empty] at split
      exact .inr ⟨_, _, empty, by simpa using absent, text, split⟩
  · exact .inl ⟨splitName_of_notMem member, fun later => member (List.mem_of_mem_tail later)⟩

/-- The stem of a file name: it is not empty, and the name starts with it. -/
theorem IsFileName.stem {name : String} (named : IsFileName name) :
    (splitName name).1 ≠ "" ∧ (splitName name).1.toList <+: name.toList := by
  rcases splitName_cases name with ⟨whole, _⟩ | ⟨stem, extension, written, _, text, split⟩
  · rw [whole]
    exact ⟨named.written, List.prefix_rfl⟩
  · rw [split]
    refine ⟨written, ?_⟩
    simp [text]

/-- A text of three characters or more without a slash is a file name. -/
theorem isFileName_of_length {name : String} (long : 3 ≤ name.toList.length)
    (slash : '/' ∉ name.toList) : IsFileName name := by
  refine ⟨?_, ?_, ?_, slash⟩ <;>
  · rintro rfl
    simp at long

theorem IsFileName.extended {name : String} (named : IsFileName name) {extension : String}
    (written : extension ≠ "") (slash : '/' ∉ extension.toList) :
    IsFileName ((splitName name).1 ++ "." ++ extension) := by
  obtain ⟨stem, start⟩ := named.stem
  apply isFileName_of_length
  · have stem := List.length_pos_iff.mpr (mt String.toList_eq_nil_iff.mp stem)
    have rest := List.length_pos_iff.mpr (mt String.toList_eq_nil_iff.mp written)
    have single : ".".toList.length = 1 := rfl
    simp only [String.toList_append, List.length_append, single]
    omega
  · intro member
    simp only [String.toList_append, List.mem_append] at member
    rcases member with (inStem | inDot) | inExtension
    · exact named.slash (start.subset inStem)
    · simp at inDot
    · exact slash inExtension

section Extension

variable {path front : Path} {name : String}

theorem beforeName_eq (written : path.trimmed = front.toList ++ name.toList) :
    path.beforeName name = front := by
  have length : name.toList.length = name.length := String.length_toList
  rw [beforeName, written, List.length_append, length, Nat.add_sub_cancel, List.take_left,
    String.ofList_toList]

theorem withExtension_eq (found : path.fileName? = some name)
    (written : path.trimmed = front.toList ++ name.toList) (dot : (splitName name).1 ≠ ".")
    (extension : String) :
    path.withExtension extension = front ++ ((splitName name).1 ++ "." ++ extension) := by
  unfold withExtension
  simp only [found, beforeName_eq written]
  split
  next split => exact absurd (by rw [split]) dot
  next split =>
    rw [split]
    simp [String.append_assoc]

/-- A dot is the one stem that takes no extension. -/
theorem withExtension_dot (found : path.fileName? = some name)
    (written : path.trimmed = front.toList ++ name.toList) (dot : (splitName name).1 = ".")
    (extension : String) :
    2 ≤ name.toList.length ∧ path.withExtension extension
      = front ++ ".." ++ if path.trimmed = path.toList then "" else extension := by
  obtain ⟨named, _⟩ := exists_front_of_fileName? found
  rcases splitName_cases name with ⟨whole, _⟩ | ⟨stem, suffix, _, _, text, split⟩
  · rw [whole] at dot
    exact absurd dot named.notHere
  · rw [split] at dot
    obtain rfl : stem = "." := dot
    refine ⟨by simp [text], ?_⟩
    unfold withExtension
    simp only [found, split, beforeName_eq written]
    split <;> simp

theorem fileName?_withExtension (found : path.fileName? = some name)
    (dot : (splitName name).1 ≠ ".") {extension : String} (written : extension ≠ "")
    (slash : '/' ∉ extension.toList) :
    fileName? (path.withExtension extension) = some ((splitName name).1 ++ "." ++ extension) := by
  obtain ⟨named, front, opened, chars⟩ := exists_front_of_fileName? found
  rw [withExtension_eq found chars dot]
  exact opened.fileName?_append (named.extended written slash)

end Extension

/-- A file in a directory, with its extension replaced. -/
theorem withExtension_join (directory : Path) {name : String} (named : IsFileName name)
    (dot : (splitName name).1 ≠ ".") (extension : String) :
    (directory.join name).withExtension extension
      = directory.lead ++ ((splitName name).1 ++ "." ++ extension) := by
  rw [directory.join_eq named.slash]
  exact withExtension_eq (directory.isOpen_lead.fileName?_append named)
    (named.trimmed_append _) dot extension

theorem withExtension_join_dot (directory : Path) {name : String} (named : IsFileName name)
    (dot : (splitName name).1 = ".") (extension : String) :
    (directory.join name).withExtension extension = directory.lead ++ ".." := by
  rw [directory.join_eq named.slash]
  have ends : trimmed (directory.lead ++ name) = (directory.lead ++ name).toList := by
    rw [named.trimmed_append, String.toList_append]
  have result := (withExtension_dot (directory.isOpen_lead.fileName?_append named)
    (named.trimmed_append _) dot extension).2
  rwa [if_pos ends, String.append_empty] at result

end Path

end Protoschema
