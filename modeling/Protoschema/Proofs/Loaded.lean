import Protoschema.Proofs.Addresses
import Protoschema.Reading.Load
/-!
Documents that are read have distinct names. The formats let a key come up again in a map; a reader
then keeps its place and takes the later value, so that the names in each map of what is read, of
schemas and of properties at any depth, are distinct.
-/

namespace Protoschema

/-! ### What a reading yields -/

/-- If a reading succeeds, its result has a property. -/
def Yields {α ε : Type} (post : α → Prop) (reading : Except ε α) : Prop :=
  ∀ value, reading = .ok value → post value

namespace Yields

variable {α β ε : Type} {post : α → Prop}

theorem ok {value : α} (holds : post value) : Yields post (.ok value : Except ε α) := by
  rintro _ ⟨⟩
  exact holds

theorem error (fault : ε) : Yields post (.error fault : Except ε α) := by
  rintro _ ⟨⟩

theorem bind {pre : β → Prop} {reading : Except ε β} {next : β → Except ε α}
    (first : Yields pre reading) (later : ∀ value, pre value → Yields post (next value)) :
    Yields post (reading >>= next) := by
  cases reading with
  | error fault => exact error fault
  | ok value => exact later value (first value rfl)

theorem after {reading : Except ε β} {next : β → Except ε α}
    (later : ∀ value, Yields post (next value)) : Yields post (reading >>= next) :=
  bind (fun _ _ => trivial) fun value (_ : True) => later value

end Yields

/-- Names are distinct in all maps of what has been read. -/
inductive Reading.Datum.Distinct : Datum → Prop
  | absent : Distinct .absent
  | text (value : String) : Distinct (.text value)
  | flag (value : Bool) : Distinct (.flag value)
  | any (value : Json.Value) : Distinct (.any value)
  | list {items : List Datum} : (∀ item ∈ items, Distinct item) → Distinct (.list items)
  | map {entries : List (String × Datum)} : (Entries.keys entries).Nodup →
      (∀ entry ∈ entries, Distinct entry.2) → Distinct (.map entries)
  | record {members : List Datum} : (∀ member ∈ members, Distinct member) →
      Distinct (.record members)

open Reading (Datum Record Want)

theorem Reading.Datum.Distinct.ofList {entries : List (String × Datum)}
    (values : ∀ entry ∈ entries, entry.2.Distinct) :
    (Datum.map (Entries.ofList entries)).Distinct :=
  .map (Entries.nodup_keys_ofList entries) fun entry listed =>
    values entry (Entries.mem_of_mem_ofList listed)

theorem Reading.Record.distinct_datum {read : List (String × Datum)}
    (values : ∀ entry ∈ read, entry.2.Distinct) (record : Record) :
    (record.datum read).Distinct := by
  refine .record fun datum listed => ?_
  obtain ⟨member, _, rfl⟩ := List.mem_map.mp listed
  cases found : read.lookup member.key with
  | none => exact .absent
  | some datum =>
    obtain ⟨before, rest, rfl, _⟩ := List.lookup_eq_some_iff.mp found
    exact values _ (List.mem_append_right _ List.mem_cons_self)

/-! ### JSON -/

namespace Json

theorem yields_mismatch {α : Type} {post : α → Prop} (place : Reading.Place) (wanted : String)
    (outline : Outline) : Yields post (mismatch place wanted outline) :=
  .after fun _ => .error _

theorem yields_readMode (depth : Nat) (place : Reading.Place) (outline : Outline) :
    Yields Datum.Distinct (readMode depth place outline) := by
  unfold readMode
  dsimp only
  split
  · exact .after fun name => .ok (.text name)
  · refine .after fun _ => .after fun name => ?_
    split
    · split
      · exact .ok (.text name)
      · exact .error _
      · exact .error _
    · exact yields_mismatch _ _ _
  · refine .after fun _ => ?_
    split
    · exact .error _
    · exact .error _
    · exact .after fun _ => .error _
    · exact .after fun _ => .error _
    · exact .error _
  · exact .error _
  · exact .error _

theorem yields_readPlain (depth : Nat) (place : Reading.Place) (want : Want) (outline : Outline) :
    Yields Datum.Distinct (readPlain depth place want outline) := by
  unfold readPlain
  split
  · exact .after fun value => .ok (.text value)
  · exact .ok (.flag _)
  · exact .ok (.flag _)
  · exact .after fun _ => yields_mismatch _ _ _
  · exact .after fun value => .ok (.any value)
  · exact yields_readMode _ _ _
  · exact yields_mismatch _ _ _

theorem yields_read :
    (∀ depth place want outline, Yields Datum.Distinct (readWant depth place want outline)) ∧
    (∀ depth place record read members stop, (∀ entry ∈ read, entry.2.Distinct) →
      Yields Datum.Distinct (readRecord depth place record read members stop)) ∧
    (∀ depth place want members, Yields (fun entries : List (String × Datum) =>
      ∀ entry ∈ entries, entry.2.Distinct) (readEntries depth place want members)) ∧
    (∀ depth place record members position items stop, Yields (fun data : List Datum =>
      ∀ datum ∈ data, datum.Distinct)
        (readPositions depth place record members position items stop)) ∧
    ∀ depth place want position items, Yields (fun data : List Datum =>
      ∀ datum ∈ data, datum.Distinct) (readItems depth place want position items) := by
  apply readWant.mutual_induct
  case case1 =>
    intro depth place want items stop inner core ofItems
    rw [readWant, core]
    refine .after fun depth => (ofItems depth).bind fun items distinct => ?_
    exact .after fun _ => .ok (.list distinct)
  case case2 =>
    intro depth place want items stop record core ofPositions
    rw [readWant, core]
    exact .after fun depth => (ofPositions depth).bind fun members distinct =>
      .ok (.record distinct)
  case case3 =>
    intro depth place want items stop noList noRecord
    rw [readWant]
    split
    next inner core => exact absurd core (noList inner)
    next record core => exact absurd core (noRecord record)
    · exact yields_readPlain _ _ _ _
  case case4 =>
    intro depth place want members stop inner core ofEntries
    rw [readWant, core]
    refine .after fun depth => (ofEntries depth).bind fun entries distinct => ?_
    -- a key that comes up again replaces the value, so that keys are distinct
    exact .after fun _ => .ok (.ofList distinct)
  case case5 =>
    intro depth place want members stop record core ofRecord
    rw [readWant, core]
    exact .after fun depth => ofRecord depth (by simp)
  case case6 =>
    intro depth place want members stop core ofRecord
    rw [readWant, core]
    exact .after fun depth => ofRecord depth (by simp)
  case case7 =>
    intro depth place want members stop noMap noRecord noNode
    rw [readWant]
    split
    next inner core => exact absurd core (noMap inner)
    next record core => exact absurd core (noRecord record)
    next core => exact absurd core noNode
    · exact yields_readPlain _ _ _ _
  case case8 =>
    intro depth place want optional
    rw [readWant, if_pos optional]
    exact .ok .absent
  case case9 =>
    intro depth place want required
    rw [readWant, if_neg required]
    exact yields_readPlain _ _ _ _
  case case10 =>
    intro depth place want outline noList noObject noNull
    cases outline with
    | list items stop => exact absurd rfl (noList items stop)
    | object members stop => exact absurd rfl (noObject members stop)
    | null => exact absurd rfl noNull
    | _ =>
      rw [readWant]
      · exact yields_readPlain _ _ _ _
      all_goals simp
  case case11 =>
    intro depth place record members position stop none
    rw [readPositions, if_pos none]
    exact .after fun _ => .ok (by simp)
  case case12 =>
    intro depth place record members position stop some
    rw [readPositions, if_neg some]
    refine .after fun _ => ?_
    split
    · exact .error _
    · -- what a list leaves out at its end is absent
      refine .ok fun datum listed => ?_
      obtain ⟨_, _, rfl⟩ := List.mem_map.mp listed
      exact .absent
  case case13 =>
    intro depth place record position item rest stop
    rw [readPositions]
    exact .error _
  case case14 =>
    intro depth place record position item rest stop member later ofItem ofRest
    rw [readPositions]
    exact ofItem.bind fun datum first => ofRest.bind fun data others =>
      .ok (List.forall_mem_cons.mpr ⟨first, others⟩)
  case case15 =>
    intro depth place want position
    rw [readItems]
    exact .ok (by simp)
  case case16 =>
    intro depth place want position item rest ofItem ofRest
    rw [readItems]
    exact ofItem.bind fun datum first => ofRest.bind fun data others =>
      .ok (List.forall_mem_cons.mpr ⟨first, others⟩)
  case case17 =>
    intro depth place record read token textEnds _
    rw [readRecord]
    exact .after fun _ => .error _
  case case18 =>
    intro depth place record read stop noColon values
    rw [readRecord]
    · exact .after fun _ => .ok (record.distinct_datum values)
    · exact noColon
  case case19 =>
    intro depth place record read token value rest stop ofValue ofRest ofOthers values
    rw [readRecord]
    refine .after fun key => ?_
    split
    next member known =>
      refine (ofValue key member).bind fun datum distinct => ofRest key datum ?_
      rw [List.forall_mem_append]
      exact ⟨values, by simpa using distinct⟩
    · exact .after fun _ => ofOthers values
  case case20 =>
    intro depth place want
    rw [readEntries]
    exact .ok (by simp)
  case case21 =>
    intro depth place want key value rest ofValue ofRest
    rw [readEntries]
    exact .after fun key => (ofValue key).bind fun datum first => ofRest.bind fun entries others =>
      .ok (List.forall_mem_cons.mpr ⟨first, others⟩)

end Json

/-! ### YAML -/

namespace Yaml

/-- If a reading succeeds, however many aliases have been followed before, its result has a
property. -/
def Yields {α : Type} (post : α → Prop) (reading : Reads α) : Prop :=
  ∀ count, Protoschema.Yields (fun result => post result.1) (reading.run count)

namespace Yields

variable {α β : Type} {post : α → Prop}

theorem pure {value : α} (holds : post value) : Yields post (Pure.pure value) :=
  fun _ => .ok holds

theorem throw (fault : Reading.Fault) : Yields post (MonadExcept.throw fault : Reads α) :=
  fun _ => .error fault

theorem bind {pre : β → Prop} {reading : Reads β} {next : β → Reads α} (first : Yields pre reading)
    (later : ∀ value, pre value → Yields post (next value)) : Yields post (reading >>= next) :=
  fun count => (first count).bind fun result holds => later result.1 holds result.2

theorem after {reading : Reads β} {next : β → Reads α} (later : ∀ value, Yields post (next value)) :
    Yields post (reading >>= next) :=
  bind (fun _ _ _ => trivial) fun value (_ : True) => later value

end Yields

theorem yields_mismatch {α : Type} {post : α → Prop} (source : Source) (spot : Spot)
    (wanted : String) (tree : Tree) : Yields post (source.mismatch spot wanted tree : Reads α) := by
  unfold Source.mismatch
  split
  · exact .after fun _ => .throw _
  · exact .throw _
  · exact .throw _
  · exact .throw _
  · exact .throw _

theorem yields_readMode (source : Source) (spot : Spot) (tree : Tree) :
    Yields Datum.Distinct (source.readMode spot tree) := by
  unfold Source.readMode Source.readTaggedMode
  dsimp only
  split
  · split
    · exact .throw _
    · split
      · split
        · exact .pure (.text _)
        · exact .throw _
      · exact yields_mismatch _ _ _ _
  · split
    · exact .pure (.text _)
    · exact .throw _
  · exact yields_mismatch _ _ _ _

theorem yields_readPlain (source : Source) (depth : Nat) (spot : Spot) (want : Want)
    (tree : Tree) : Yields Datum.Distinct (source.readPlain depth spot want tree) := by
  unfold Source.readPlain
  split
  · split
    · exact .pure (.text _)
    · exact yields_mismatch _ _ _ _
  · split
    · dsimp only
      split
      · exact .pure (.flag _)
      · exact yields_mismatch _ _ _ _
    · exact yields_mismatch _ _ _ _
  · refine .after fun _ => ?_
    split
    · refine .after fun _ => ?_
      split
      · exact .pure (.flag _)
      · exact .throw _
    · exact .after fun _ => yields_mismatch _ _ _ _
    · exact yields_mismatch _ _ _ _
  · exact .after fun value => .pure (.any value)
  · exact yields_readMode _ _ _
  · split
    · exact .pure (.list (by simp))
    · exact yields_mismatch _ _ _ _
  · split
    · exact .pure (.map (by simp) (by simp))
    · exact yields_mismatch _ _ _ _
  · split
    · exact .pure (Record.distinct_datum (by simp) _)
    · exact yields_mismatch _ _ _ _
  · exact yields_mismatch _ _ _ _

section Collections

variable (source : Source) (spot : Spot)

theorem yields_readEach {read : Spot → Tree → Reads Datum}
    (each : ∀ spot tree, Yields Datum.Distinct (read spot tree)) (position : Nat)
    (items : List Tree) :
    Yields (fun data : List Datum => ∀ datum ∈ data, datum.Distinct)
      (readEach spot read position items) := by
  induction items generalizing position with
  | nil => exact .pure (by simp)
  | cons item rest induction =>
    exact (each _ item).bind fun datum first => (induction _).bind fun data others =>
      .pure (List.forall_mem_cons.mpr ⟨first, others⟩)

theorem yields_readEntries {read : Spot → Tree → Reads Datum}
    (each : ∀ spot tree, Yields Datum.Distinct (read spot tree)) (first : String)
    (entries : List (Tree × Tree)) :
    Yields (fun entries : List (String × Datum) => ∀ entry ∈ entries, entry.2.Distinct)
      (source.readEntries spot first read entries) := by
  induction entries generalizing first with
  | nil => exact .pure (by simp)
  | cons entry rest induction =>
    exact .after fun name => (each _ entry.2).bind fun datum one => (induction _).bind
      fun entries others => .pure (List.forall_mem_cons.mpr ⟨one, others⟩)

theorem yields_readMembers {read : Spot → Want → Tree → Reads Datum}
    (each : ∀ spot want tree, Yields Datum.Distinct (read spot want tree)) (record : Record)
    {known : List (String × Datum)} (distinct : ∀ entry ∈ known, entry.2.Distinct)
    (members : List (Tree × Tree)) :
    Yields (fun entries : List (String × Datum) => ∀ entry ∈ entries, entry.2.Distinct)
      (source.readMembers spot record read known members) := by
  induction members generalizing known with
  | nil => exact .pure distinct
  | cons member rest induction =>
    unfold Source.readMembers
    refine .after fun name => ?_
    dsimp only
    split
    · split
      · exact .throw _
      · refine (each _ _ _).bind fun datum one => induction ?_
        rw [List.forall_mem_append]
        exact ⟨distinct, by simpa using one⟩
    · split
      · exact .throw _
      · exact .after fun _ => induction distinct

end Collections

theorem yields_readWant (source : Source) (depth : Nat) (spot : Spot) (want : Want) (tree : Tree) :
    Yields Datum.Distinct (source.readWant depth spot want tree) := by
  induction depth using Nat.strongRecOn generalizing spot want tree with
  | ind depth induction =>
    unfold Source.readWant
    -- Two readings come first, the alias and the null: what follows each is a continuation.
    extract_lets +lift -merge followed
    have reads (tree : Tree) : Yields Datum.Distinct (followed tree) := by
      unfold followed
      clear followed
      extract_lets +lift -merge checked
      have present (absent : Bool) : Yields Datum.Distinct (checked absent) := by
        unfold checked
        clear checked
        split
        · exact .pure .absent
        · split
          · split
            · exact .throw _
            · have deeper := induction _ (Nat.lt_succ_self _)
              exact (yields_readEach spot (fun _ _ => deeper _ _ _) _ _).bind
                fun items each => .after fun _ => .pure (.list each)
          · split
            · exact .throw _
            · have deeper := induction _ (Nat.lt_succ_self _)
              exact (yields_readEntries source spot (fun _ _ => deeper _ _ _) _ _).bind
                fun entries each => .after fun _ => .pure (.ofList each)
          · split
            · exact yields_readPlain _ _ _ _ _
            · split
              · exact .throw _
              · have deeper := induction _ (Nat.lt_succ_self _)
                split
                · exact .after fun _ => (yields_readMembers source spot deeper _
                    (List.forall_mem_nil _) _).bind fun entries each => .after fun _ =>
                      .pure (Record.distinct_datum each _)
                · exact (yields_readMembers source spot deeper _
                    (List.forall_mem_nil _) _).bind fun entries each => .after fun _ =>
                      .pure (Record.distinct_datum each _)
          · exact yields_readPlain _ _ _ _ _
      split
      · exact .after present
      · exact .after present
    split
    · exact .after reads
    · exact .after reads

theorem distinct_read (record : Record) (text : String) :
    Protoschema.Yields Datum.Distinct (read record text) := by
  unfold read Source.read
  refine (yields_readWant _ _ _ _ _ 0).bind fun result distinct => ?_
  dsimp only
  split
  · exact .error _
  · split
    · exact .error _
    · exact .ok distinct

end Yaml

/-! ### Documents -/

theorem Node.keys_ofEntries (entries : List (String × Datum)) :
    Entries.keys (Node.ofEntries entries) = Entries.keys entries := by
  induction entries with
  | nil => rw [Node.ofEntries, Entries.keys_nil, Entries.keys_nil]
  | cons entry rest induction =>
    rw [Node.ofEntries]
    exact congrArg (entry.1 :: ·) induction

/-- Nodes from data with distinct names have distinct names. -/
private theorem distinct_ofDatum :
    (∀ datum, datum.Distinct → (Node.ofDatum datum).Distinct) ∧
    (∀ datum, datum.Distinct →
      ∀ node ∈ ((Node.additionalOfDatum datum).bind Additional.node?).toList, node.Distinct) ∧
    (∀ datum, datum.Distinct → ∀ node ∈ Node.listOfDatum datum, node.Distinct) ∧
    (∀ data, (∀ datum ∈ data, datum.Distinct) → ∀ node ∈ Node.ofData data, node.Distinct) ∧
    (∀ datum, datum.Distinct → ∀ node ∈ (Node.optionOfDatum datum).toList, node.Distinct) ∧
    (∀ datum, datum.Distinct → (Entries.keys (Node.entriesOfDatum datum)).Nodup ∧
      ∀ entry ∈ Node.entriesOfDatum datum, entry.2.Distinct) ∧
    (∀ entries, (∀ entry ∈ entries, entry.2.Distinct) →
      ∀ entry ∈ Node.ofEntries entries, entry.2.Distinct) := by
  apply Node.ofDatum.mutual_induct
  case case1 =>
    intro pointer package type format description properties order items allOf oneOf anyOf
      additional values ofProperties ofItems ofAllOf ofOneOf ofAnyOf ofAdditional distinct
    obtain - | - | - | - | - | - | ⟨members⟩ := distinct
    rw [Node.ofDatum, Node.ofKeywords]
    split
    · exact Node.distinct_ref _
    · obtain ⟨keys, values⟩ := ofProperties (members _ (by simp))
      refine (Node.distinct_inline _).mpr ⟨keys, fun child member => ?_⟩
      simp only [Schema.children, List.mem_append, List.mem_map] at member
      rcases member with ((((⟨entry, inside, rfl⟩ | inside) | inside) | inside) | inside) | inside
      · exact values entry inside
      · exact ofItems (members _ (by simp)) child inside
      · exact ofAllOf (members _ (by simp)) child inside
      · exact ofOneOf (members _ (by simp)) child inside
      · exact ofAnyOf (members _ (by simp)) child inside
      · exact ofAdditional (members _ (by simp)) child inside
  case case2 =>
    intro datum other _
    rw [Node.ofDatum.eq_2 datum other]
    exact (Node.distinct_inline _).mpr (by simp [Schema.children, Entries.keys])
  case case3 => simp [Node.additionalOfDatum, Additional.node?]
  case case4 =>
    intro members ofRecord
    simpa [Node.additionalOfDatum, Additional.node?] using ofRecord
  case case5 =>
    intro datum notFlag notRecord
    cases datum <;> simp_all [Node.additionalOfDatum]
  case case6 =>
    rintro items ofItems (- | - | - | - | each)
    rw [Node.listOfDatum]
    exact ofItems each
  case case7 =>
    intro datum notList
    cases datum <;> simp_all [Node.listOfDatum]
  case case8 => simp [Node.ofData]
  case case9 =>
    intro datum rest ofHead ofRest each
    rw [List.forall_mem_cons] at each
    rw [Node.ofData]
    exact List.forall_mem_cons.mpr ⟨ofHead each.1, ofRest each.2⟩
  case case10 =>
    intro members ofRecord
    simpa [Node.optionOfDatum] using ofRecord
  case case11 =>
    intro datum notRecord
    cases datum <;> simp_all [Node.optionOfDatum]
  case case12 =>
    rintro entries ofEntries (- | - | - | - | - | ⟨keys, values⟩)
    rw [Node.entriesOfDatum, Node.keys_ofEntries]
    exact ⟨keys, ofEntries values⟩
  case case13 =>
    intro datum notMap
    cases datum <;> simp_all [Node.entriesOfDatum, Entries.keys]
  case case14 => simp [Node.ofEntries]
  case case15 =>
    intro name datum rest ofHead ofRest each
    rw [List.forall_mem_cons] at each
    rw [Node.ofEntries]
    exact List.forall_mem_cons.mpr ⟨ofHead each.1, ofRest each.2⟩

theorem Format.distinct_read (format : Format) (record : Record) (text : String) :
    Yields Datum.Distinct (format.read record text) := by
  cases format with
  | json => exact Json.yields_read.1 _ _ _ _
  | yaml => exact Yaml.distinct_read record text

/-- Names are distinct in a document that has been read. -/
theorem Document.distinct_of_ofText {format : Format} {text : String} {document : Document}
    (read : Document.ofText format text = .ok document) : document.Distinct := by
  obtain ⟨_, _, _, _, _, ofEntries, _⟩ := distinct_ofDatum
  have empty : (default : Document).Distinct := ⟨List.nodup_nil, List.forall_mem_nil _⟩
  have ofDatum {datum : Datum} (distinct : datum.Distinct) :
      (Document.ofDatum datum).Distinct := by
    unfold Document.ofDatum
    split
    next openapi info schemas =>
      obtain - | - | - | - | - | - | ⟨parts⟩ := distinct
      obtain - | - | - | - | - | - | ⟨maps⟩ := parts (.record [schemas]) (by simp)
      obtain ⟨names, nodes⟩ := ofEntries schemas (maps schemas (by simp))
      exact ⟨names, nodes⟩
    · exact ⟨empty.names, empty.nodes⟩
    · exact empty
  unfold Document.ofText at read
  cases datum : format.read .document text with
  | error fault => simp [datum, Except.map] at read
  | ok datum' =>
    simp only [datum, Except.map, Except.ok.injEq] at read
    exact read ▸ ofDatum (format.distinct_read .document text datum' datum)

end Protoschema
