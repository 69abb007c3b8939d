import Mathlib.Data.Nat.Find
import Protoschema.Proofs.Bound
import Protoschema.Proofs.Derivation
/-!
The guards against cycles are exact. A guard compares pointers: one that comes up again while it is
being followed is an error. In a document whose references have been bound through one directory,
equal pointers lead to the same node, so what comes up again has no end; and what has an end is not
stopped on the way. Hence declaring finishes with a run if and only if the rules derive that run.
-/

namespace Protoschema

theorem Document.BoundIn.closed {directory : Directory} {document : Document}
    (bound : document.BoundIn directory) : document.Closed (Node.BoundIn directory) where
  child inside member reference listed :=
    inside reference (Node.references_subset_of_child member listed)
  lookup found reference listed := bound reference (references_subset_of_lookup found listed)

/-! ### Members of compositions -/

/-- A node is a reference to another. -/
def Document.Refers (document : Document) (node next : Node) : Prop :=
  ∃ reference name target, node = .ref reference ∧
    reference.binding = some (.here name target) ∧ document.lookup target = some next

theorem Document.Refers.unique {document : Document} {node next next' : Node}
    (refers : document.Refers node next) (refers' : document.Refers node next') : next = next' := by
  obtain ⟨reference, name, target, rfl, bound, found⟩ := refers
  obtain ⟨_, _, _, same, bound', found'⟩ := refers'
  cases same
  rw [bound] at bound'
  cases bound'
  exact Option.some.inj (found.symm.trans found')

/-- References with the same pointer refer to the same node. -/
theorem Document.Refers.of_pointer_eq {document : Document} {directory : Directory}
    {reference reference' : Reference} {next : Node}
    (refers : document.Refers (.ref reference) next) (bound : reference.BoundIn directory)
    (bound' : reference'.BoundIn directory)
    (same : reference.pointer = reference'.pointer) : document.Refers (.ref reference') next := by
  obtain ⟨_, name, target, self, here, found⟩ := refers
  cases self
  exact ⟨reference', name, target, rfl, bound.here_of_pointer_eq bound' same here, found⟩

open Relation (TransGen)

/-- A member that stands for something does not lead back to itself. -/
theorem StandsFor.not_cyclic {document : Document} {hint : String} {position : Nat} {node : Node}
    {outcome : Except SchemaError (Schema Node)}
    (stands : StandsFor document hint position node outcome) :
    ¬TransGen document.Refers node node := by
  intro cycle
  induction stands with
  | @followed reference name target next outcome bound found _ induction =>
    -- a cycle through a node is a cycle through the one that it refers to
    have step : document.Refers (.ref reference) next :=
      ⟨reference, name, target, rfl, bound, found⟩
    obtain ⟨first, refers, back⟩ := TransGen.head'_iff.mp cycle
    rw [← step.unique refers] at back
    exact induction (TransGen.tail' back step)
  | object | other | lost | elsewhere | unbound =>
    obtain ⟨first, ⟨_, _, _, same, _, _⟩, _⟩ := TransGen.head'_iff.mp cycle
    simp_all

/-- Every reference that can come up has not been passed, or leads to a node that is not met again
on the way from a node. -/
def Document.OnlyAhead (document : Document) (fresh : List String) (node : Node) : Prop :=
  ∀ reference, reference ∈ node.references ∨ reference ∈ document.references →
    reference.pointer ∈ fresh ∨
      ∃ next, document.Refers (.ref reference) next ∧ ¬TransGen document.Refers node next

theorem Document.OnlyAhead.mem_fresh {document : Document} {fresh : List String}
    {reference : Reference} (ahead : document.OnlyAhead fresh (.ref reference)) :
    reference.pointer ∈ fresh := by
  refine (ahead reference (.inl (by simp))).resolve_right ?_
  rintro ⟨next, refers, apart⟩
  exact apart (.single refers)

/-- A member that stands for something is not stopped by the guard. -/
theorem StandsFor.memberObject_eq {directory : Directory} {document : Document}
    (boundDocument : document.BoundIn directory) {hint : String} {position : Nat} {node : Node}
    {outcome : Except SchemaError (Schema Node)}
    (stands : StandsFor document hint position node outcome) (bound : node.BoundIn directory)
    {fresh : List String} (ahead : document.OnlyAhead fresh node) :
    memberObject document hint position fresh node = outcome := by
  induction stands generalizing fresh with
  | object isObject => rw [memberObject, if_pos isObject]
  | other isOther => rw [memberObject, if_neg isOther]
  | @followed reference name target next outcome here found stands induction =>
    have step : document.Refers (.ref reference) next := ⟨reference, name, target, rfl, here, found⟩
    rw [memberObject, dif_pos ahead.mem_fresh]
    simp only [here, found]
    refine induction (boundDocument.closed.lookup found) fun reference' inside => ?_
    have listed : reference' ∈ document.references :=
      inside.elim (fun inner => Document.references_subset_of_lookup found inner) id
    by_cases same : reference.pointer = reference'.pointer
    · -- the same pointer leads to the same node, which is not met again
      have again := step.of_pointer_eq (bound reference (by simp)) (boundDocument _ listed) same
      exact .inr ⟨next, again, stands.not_cyclic⟩
    · rcases ahead reference' (.inr listed) with free | ⟨other, refers, apart⟩
      · exact .inl (List.mem_filter.mpr ⟨free, by simpa using Ne.symm same⟩)
      · exact .inr ⟨other, refers, fun way => apart (.head step way)⟩
  | lost here missing => simp only [memberObject, dif_pos ahead.mem_fresh, here, missing]
  | elsewhere there => simp only [memberObject, dif_pos ahead.mem_fresh, there]
  | unbound none => simp only [memberObject, dif_pos ahead.mem_fresh, none]

theorem Document.onlyAhead_freshPointers (document : Document) (node : Node) :
    document.OnlyAhead (freshPointers document node) node := by
  intro reference inside
  exact .inl (List.mem_map.mpr ⟨reference, List.mem_append.mpr inside, rfl⟩)

/-! ### Followed references -/

section Following

variable {scope : Scope}

/-- A run that the guard does not stop is the one without a guard. -/
theorem declareWithin_eq_declareFreely {steps : Nat} {following : List String} {hint : String}
    {node : Node} (finishes : (declareWithin scope steps following hint node).Finishes) :
    declareWithin scope steps following hint node = declareFreely scope steps hint node := by
  induction steps generalizing following hint node with
  | zero => rfl
  | succ steps induction =>
    revert finishes
    cases node with
    | ref reference =>
      change Run.Congruence.finished.Rel
        (declareReference scope (declareWithin scope steps) following hint reference)
        (declareReference scope (fun _ => declareFreely scope steps) [] hint reference)
      refine declareReference_onward fun name target node here found => ?_
      rw [if_neg (List.not_mem_nil (a := reference.pointer))]
      split
      · intro finishes
        cases (Run.finishes_error _ _).mp finishes
      · exact induction
    | inline schema =>
      refine declareShape_within (c := .finished) scope.document.closed_true ?_ hint trivial
      intro hint node _
      exact induction

/-- What a pointer leads to cannot be declared within some steps. -/
def Unending (scope : Scope) (directory : Directory) (steps : Nat) (pointer : String) : Prop :=
  ∀ reference : Reference, reference.BoundIn directory → reference.pointer = pointer →
    ∀ node, scope.document.Refers (.ref reference) node → ¬EndsWithin scope steps node

theorem Unending.anti {directory : Directory} {steps steps' : Nat} (fewer : steps' ≤ steps)
    {pointer : String} (unending : Unending scope directory steps pointer) :
    Unending scope directory steps' pointer :=
  fun reference bound same node refers ends =>
    unending reference bound same node refers (ends.mono fewer)

/-- A node that can be declared can be declared within a least number of steps. -/
private theorem exists_least {steps : Nat} {node : Node} (ends : EndsWithin scope steps node) :
    ∃ least, least ≤ steps ∧ EndsWithin scope least node ∧ ¬EndsWithin scope (least - 1) node := by
  classical
  have some : ∃ steps, EndsWithin scope steps node := ⟨steps, ends⟩
  refine ⟨Nat.find some, Nat.find_min' some ends, Nat.find_spec some, fun before => ?_⟩
  have positive : Nat.find some ≠ 0 := fun zero =>
    not_finishes_zero "" node (zero ▸ Nat.find_spec some "")
  exact Nat.find_min some (by omega) before

/-- What can be declared without a guard is not stopped by the guard. The pointers that are being
followed lead to nodes that take at least as many steps as are still to be made. -/
theorem declareFreely_eq_declareWithin {directory : Directory}
    (closed : scope.document.Closed (Node.BoundIn directory)) {count steps : Nat}
    (enough : count ≤ steps) {following : List String}
    (unending : ∀ pointer ∈ following, Unending scope directory (count - 1) pointer)
    {hint : String} {node : Node} (bound : node.BoundIn directory)
    (finishes : (declareFreely scope count hint node).Finishes) :
    declareFreely scope count hint node = declareWithin scope steps following hint node := by
  induction count using Nat.strong_induction_on generalizing steps following hint node with
  | _ count induction =>
    cases count with
    | zero => exact absurd finishes (not_finishes_zero hint node)
    | succ count =>
      obtain ⟨steps, rfl⟩ : ∃ fewer, steps = fewer + 1 := ⟨steps - 1, by omega⟩
      cases node with
      | inline schema =>
        refine declareShape_within (c := .finished) closed ?_ hint bound finishes
        intro hint node bound finishes
        refine induction count (Nat.lt_succ_self count) (by omega) ?_ bound finishes
        exact fun pointer member => (unending pointer member).anti (by omega)
      | ref reference =>
        revert finishes
        change Run.Congruence.finished.Rel
          (declareReference scope (fun _ => declareFreely scope count) [] hint reference)
          (declareReference scope (declareWithin scope steps) following hint reference)
        refine declareReference_onward fun name target next here found => ?_
        rw [if_neg (List.not_mem_nil (a := reference.pointer))]
        intro finishes
        have boundReference : reference.BoundIn directory := bound reference (by simp)
        have refers : scope.document.Refers (.ref reference) next :=
          ⟨reference, name, target, rfl, here, found⟩
        have ends := endsWithin_of_finishes finishes
        -- were the pointer being followed, its node would take more steps than it has taken
        have unfollowed : reference.pointer ∉ following := fun member =>
          unending reference.pointer member reference boundReference rfl next refers ends
        rw [if_neg unfollowed]
        -- with the least number of steps, the pointer itself may be counted as followed
        obtain ⟨least, atMost, leastEnds, minimal⟩ := exists_least ends
        rw [← declareFreely_mono atMost (leastEnds hint)]
        refine induction least (by omega) (by omega) ?_ (closed.lookup found) (leastEnds hint)
        intro pointer member
        rcases List.mem_cons.mp member with rfl | earlier
        · intro reference' boundReference' same next' refers'
          rw [(refers'.of_pointer_eq boundReference' boundReference same).unique refers]
          exact minimal
        · exact (unending pointer earlier).anti (by omega)

end Following

/-- The guards against cycles are exact: in a document whose references have all been bound, a node
is declared by a run that was not stopped for going round if and only if the rules, which have no
guard, derive that run. The node may be any whose references are bound as the document's are, so all
nodes of the document are among them. -/
theorem Document.declare_iff_derives (document : Document) (unbound : document.Unbound)
    (options : Options) (hint : String) (node : Node)
    (bound : node.BoundIn (Directory.ofDocument document)) (run : Run Decl) :
    declare ⟨(document.bind none).1, options⟩ hint node = run ∧ run.Finishes ↔
      Derives ⟨(document.bind none).1, options⟩ (.declares hint node run) := by
  have boundDocument := unbound.boundIn (Directory.ofDocument document)
  constructor
  · rintro ⟨rfl, finishes⟩
    have free := declareWithin_eq_declareFreely finishes
    rw [declare, free] at finishes ⊢
    exact derives_declareFreely _ hint node finishes
  · intro derives
    obtain ⟨steps, rfl, finishes⟩ := derives.holdsWithin boundDocument.closed
      (fun member bound hint position outcome stands =>
        stands.memberObject_eq boundDocument bound (onlyAhead_freshPointers _ member)) bound
    -- the derivation may be long, but the budget is enough for whatever finishes
    have within := (endsWithin_of_finishes finishes).of_stepBudget hint
    have guarded := declareFreely_eq_declareWithin boundDocument.closed (Nat.le_refl _)
      (fun pointer member => absurd member List.not_mem_nil) bound within
    exact ⟨guarded.symm.trans (declareFreely_unique within finishes), finishes⟩

/-- A text, and an alias of it. -/
def aliasedText : Document where
  schemas := [
    ("Cell", .ref { pointer := "#/components/schemas/Text" }),
    ("Text", .inline { type := some .string })]

/-- A list whose items are given by the alias. -/
def aliasedList : Node :=
  .inline {
    type := some .array
    items := some (.ref (Reference.bind (Directory.ofDocument aliasedText)
      { pointer := "#/components/schemas/Cell" })) }

theorem Document.declare_iff_derives_aliasedList :
    aliasedText.Unbound ∧ aliasedList.BoundIn (Directory.ofDocument aliasedText) ∧
    declare ⟨(aliasedText.bind none).1, {}⟩ "Row" aliasedList
      = ⟨[], .ok (.repeated (.named "string"))⟩ ∧
    (⟨[], .ok (.repeated (.named "string"))⟩ : Run Decl).Finishes := by
  have unbound : aliasedText.Unbound := by
    simp [Unbound, references, aliasedText, Schema.children]
  have bound : aliasedList.BoundIn (Directory.ofDocument aliasedText) := by
    intro reference listed
    obtain rfl := by simpa [aliasedList, Schema.children] using listed
    rfl
  refine ⟨unbound, bound, ?_⟩
  refine (declare_iff_derives aliasedText unbound {} "Row" aliasedList bound _).mpr ?_
  have cell : (Reference.bind (Directory.ofDocument aliasedText)
      { pointer := "#/components/schemas/Cell" }).binding = some (.here "Cell" ⟨"Cell", []⟩) := by
    decide +kernel
  have text : (Reference.bind (Directory.ofDocument aliasedText)
      { pointer := "#/components/schemas/Text" }).binding = some (.here "Text" ⟨"Text", []⟩) := by
    decide +kernel
  have item : Derives ⟨(aliasedText.bind none).1, {}⟩
      (.declares (elementHint "Row") (.ref _) ⟨[], .ok (.named "string")⟩) :=
    .followed cell rfl rfl (.followed text rfl rfl (.scalar rfl rfl))
  exact .array rfl rfl item

end Protoschema
