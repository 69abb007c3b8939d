import Protoschema.Proofs.Unguarded
/-!
The step budget is enough. Declaring is given a number of nested steps, and a run that uses them up
is told by its error from one that comes to an end. While the same pointers are being followed, as
many steps as there are nodes to lead to decide whether a node comes to an end, because afterwards
nothing new can happen; and no pointer is followed again while it is being followed. So the budget,
which has room for all nodes once for every pointer, lets everything come to its end that does so in
any number of steps, cyclic references included.
-/

namespace Protoschema

@[simp] theorem SchemaError.isOutOfSteps_anonymous (error : SchemaError) :
    error.anonymous.isOutOfSteps = error.isOutOfSteps := by
  cases error <;> rfl

/-- A run that came to an end within its steps, whatever the outcome. -/
def Run.Ends {α : Type} (run : Run α) : Prop :=
  run.Avoids SchemaError.isOutOfSteps

theorem Run.not_ends_iff {α : Type} {run : Run α} :
    ¬run.Ends ↔ ∃ hint, run.outcome = .error (.endlessComposition hint) := by
  constructor
  · intro usedUp
    by_contra other
    refine usedUp fun error failed => ?_
    cases error with
    | endlessComposition hint => exact absurd ⟨hint, failed⟩ other
    | _ => rfl
  · rintro ⟨hint, failed⟩ ends
    exact nomatch ends _ failed

/-- Declaring a node has no end: no number of steps is enough. -/
def Endless (scope : Scope) (hint : String) (node : Node) : Prop :=
  ∀ steps, ¬(declareWithin scope steps [] hint node).Ends

/-- Declaring a schema of a document has no end. -/
def Document.Endless (document : Document) (options : Options) (name : String) : Prop :=
  ∃ node, document.schema? name = some node ∧ Protoschema.Endless ⟨document, options⟩ name node

variable {scope : Scope}

/-! ### One level of declaring -/

/-- One level of declaring keeps a congruence between two ways to go on, be it to inner nodes while
the same pointers are being followed, or to what a pointer that is not being followed leads to. -/
theorem declareShape_guarded {c : Run.Congruence} {within : Node → Prop}
    (closed : scope.document.Closed within) {declare declare' : List String → Declarer}
    {following : List String}
    (below : ∀ hint node, within node →
      c.Rel (declare following hint node) (declare' following hint node))
    (onward : ∀ reference, within (.ref reference) → reference.pointer ∉ following →
      ∀ hint node, within node → c.Rel (declare (reference.pointer :: following) hint node)
        (declare' (reference.pointer :: following) hint node))
    (hint : String) {node : Node} (inside : within node) :
    c.Rel (declareShape scope declare following hint node)
      (declareShape scope declare' following hint node) := by
  cases node with
  | inline schema => exact declareShape_within closed below hint inside
  | ref reference =>
    simp only [declareShape, Shape.of]
    refine declareReference_onward fun name target node bound found => ?_
    split
    · exact c.refl _
    next unfollowed => exact onward reference inside unfollowed hint node (closed.lookup found)

/-- Steps that are used up at once. -/
theorem not_ends_zero (following : List String) (hint : String) (node : Node) :
    ¬(declareWithin scope 0 following hint node).Ends := by
  simp [declareWithin, Run.fail, Run.Ends, SchemaError.isOutOfSteps]

/-- More steps keep a run that has come to its end. -/
theorem declareWithin_mono {steps steps' : Nat} (more : steps ≤ steps') {following : List String}
    {hint : String} {node : Node} (ends : (declareWithin scope steps following hint node).Ends) :
    declareWithin scope steps following hint node
      = declareWithin scope steps' following hint node := by
  induction steps generalizing steps' following hint node with
  | zero => exact absurd ends (not_ends_zero following hint node)
  | succ steps induction =>
    obtain ⟨steps', rfl⟩ : ∃ fewer, steps' = fewer + 1 := ⟨steps' - 1, by omega⟩
    have fewer : steps ≤ steps' := by omega
    refine declareShape_guarded (c := .avoiding _) scope.document.closed_true ?_ ?_ hint trivial
      ends
    · intro hint node _ ends
      exact induction fewer ends
    · intro reference _ _ hint node _ ends
      exact induction fewer ends

theorem declareWithin_unique {steps steps' : Nat} {following : List String} {hint : String}
    {node : Node} (ends : (declareWithin scope steps following hint node).Ends)
    (ends' : (declareWithin scope steps' following hint node).Ends) :
    declareWithin scope steps following hint node
      = declareWithin scope steps' following hint node := by
  rcases Nat.le_total steps steps' with more | fewer
  · exact declareWithin_mono more ends
  · exact (declareWithin_mono fewer ends').symm

/-! ### Nodes that come to an end -/

/-- A node that comes to an end within some steps while some pointers are being followed, under
whatever hint. -/
def EndsFollowing (scope : Scope) (following : List String) (steps : Nat) (node : Node) : Prop :=
  ∀ hint, (declareWithin scope steps following hint node).Ends

theorem declareWithin_fareAlike (steps : Nat) (following : List String) (hint hint' : String)
    (node : Node) :
    Run.FareAlike (fun _ _ => True) (declareWithin scope steps following hint node)
      (declareWithin scope steps following hint' node) := by
  induction steps generalizing following hint hint' node with
  | zero => exact .error rfl
  | succ steps induction => exact declareShape_fareAlike induction following hint hint' node

theorem endsFollowing_of_ends {steps : Nat} {following : List String} {hint : String} {node : Node}
    (ends : (declareWithin scope steps following hint node).Ends) :
    EndsFollowing scope following steps node := by
  intro hint'
  have alike : Run.FareAlike (fun _ _ => True) (declareWithin scope steps following hint node)
      (declareWithin scope steps following hint' node) :=
    declareWithin_fareAlike steps following hint hint' node
  exact (alike.avoids_iff SchemaError.isOutOfSteps_anonymous).mp ends

theorem EndsFollowing.mono {steps steps' : Nat} (more : steps ≤ steps') {following : List String}
    {node : Node} (ends : EndsFollowing scope following steps node) :
    EndsFollowing scope following steps' node := by
  intro hint
  rw [← declareWithin_mono more (ends hint)]
  exact ends hint

/-- Suppose that `base` steps are enough once a further pointer is being followed. Then with as many
steps more as there are nodes, all come to an end that do so in any number of steps. -/
theorem EndsFollowing.of_length {nodes : List Node} (closed : scope.document.Closed (· ∈ nodes))
    {following : List String} {base : Nat}
    (onward : ∀ reference, .ref reference ∈ nodes → reference.pointer ∉ following →
      ∀ node ∈ nodes, ∀ steps, EndsFollowing scope (reference.pointer :: following) steps node →
        EndsFollowing scope (reference.pointer :: following) base node)
    {steps : Nat} {node : Node} (member : node ∈ nodes)
    (ends : EndsFollowing scope following steps node) :
    EndsFollowing scope following (base + nodes.length) node := by
  refine settled_of_length (P := fun more => EndsFollowing scope following (base + more)) ?_ ?_
    member (ends.mono (Nat.le_add_left steps base))
  · intro more node ends
    exact ends.mono (by omega)
  · -- a level on top of steps that add nothing adds nothing either
    intro more same node member ends hint
    have alike : (Run.Congruence.avoiding SchemaError.isOutOfSteps).flip.Rel
        (declareWithin scope (base + more + 1) following hint node)
        (declareWithin scope (base + more + 2) following hint node) := by
      refine declareShape_guarded closed ?_ ?_ hint member
      · intro hint node inside ends
        have earlier := same node inside (endsFollowing_of_ends ends)
        exact (declareWithin_mono (by omega) (earlier hint)).symm
      · intro reference listed unfollowed hint node inside ends
        have earlier := onward reference listed unfollowed node inside _
          (endsFollowing_of_ends ends)
        exact declareWithin_unique ends ((earlier.mono (Nat.le_add_right base more)) hint)
    have equal := alike (ends hint)
    change (declareWithin scope (base + more + 1) following hint node).Ends
    rw [← equal]
    exact ends hint

/-- All nodes come to an end that do so at all, within as many steps as there are nodes, for every
pointer that can still be followed and once more. -/
theorem EndsFollowing.of_count {nodes : List Node} (closed : scope.document.Closed (· ∈ nodes))
    {pointers : List String}
    (listed : ∀ reference, .ref reference ∈ nodes → reference.pointer ∈ pointers) {left : Nat}
    {following : List String} (few : (pointers.filter (· ∉ following)).length ≤ left) {steps : Nat}
    {node : Node} (member : node ∈ nodes) (ends : EndsFollowing scope following steps node) :
    EndsFollowing scope following (left * nodes.length + nodes.length) node := by
  have remaining {following : List String} {reference : Reference}
      (inside : .ref reference ∈ nodes) (unfollowed : reference.pointer ∉ following) :
      reference.pointer ∈ pointers.filter (· ∉ following) :=
    List.mem_filter.mpr ⟨listed reference inside, by simpa using unfollowed⟩
  induction left generalizing following steps node with
  | zero =>
    -- all pointers are being followed already
    rw [Nat.zero_mul]
    refine EndsFollowing.of_length closed ?_ member ends
    intro reference inside unfollowed
    have another := remaining inside unfollowed
    rw [List.length_eq_zero_iff.mp (Nat.le_zero.mp few)] at another
    cases another
  | succ left induction =>
    -- once a pointer is being followed, there is one less that can be
    refine EndsFollowing.of_length closed ?_ member ends
    intro reference inside unfollowed node member steps ends
    have fewer := length_without_lt (remaining inside unfollowed)
    have rest : pointers.filter (· ∉ reference.pointer :: following)
        = without (pointers.filter (· ∉ following)) reference.pointer := by
      rw [without, List.filter_filter]
      exact List.filter_congr fun pointer _ => by simp
    rw [Nat.succ_mul]
    exact induction (by rw [rest]; omega) member ends

/-! ### The budget -/

/-- The pointer of a reference. -/
def Node.pointer? : Node → Option String
  | .ref reference => some reference.pointer
  | .inline _ => none

/-- Declares a node while some pointers are being followed, within enough steps for it. -/
def declareOnward (scope : Scope) (following : List String) : Declarer :=
  fun hint node => declareWithin scope (stepBudget scope.document node) following hint node

/-- The budget is enough for whatever comes to an end. -/
theorem ends_declareOnward {following : List String} {hint : String} {node : Node} {steps : Nat}
    (ends : (declareWithin scope steps following hint node).Ends) :
    (declareOnward scope following hint node).Ends := by
  -- there are no more pointers than nodes, and no more nodes than the sizes say
  obtain ⟨nodes, length, self, closed⟩ := scope.document.exists_closed node
  have listed (reference : Reference) (inside : .ref reference ∈ nodes) :
      reference.pointer ∈ nodes.filterMap Node.pointer? :=
    List.mem_filterMap.mpr ⟨_, inside, rfl⟩
  have few : ((nodes.filterMap Node.pointer?).filter (· ∉ following)).length ≤ nodes.length :=
    Nat.le_trans (List.length_filter_le _ _) (List.length_filterMap_le _ _)
  have within := EndsFollowing.of_count closed listed few self (endsFollowing_of_ends ends)
  have enough : nodes.length * nodes.length + nodes.length ≤ stepBudget scope.document node := by
    rw [length, stepBudget]
    nlinarith [Nat.zero_le (scope.document.size + node.size)]
  exact within.mono enough hint

/-- What comes to an end within some steps is what comes of enough steps. -/
theorem declareWithin_eq_declareOnward {following : List String} {hint : String} {node : Node}
    {steps : Nat} (ends : (declareWithin scope steps following hint node).Ends) :
    declareWithin scope steps following hint node = declareOnward scope following hint node :=
  declareWithin_unique ends (ends_declareOnward ends)

theorem ends_declare {hint : String} {node : Node} {steps : Nat}
    (ends : (declareWithin scope steps [] hint node).Ends) : (declare scope hint node).Ends :=
  ends_declareOnward ends

theorem declareWithin_eq_declare {hint : String} {node : Node} {steps : Nat}
    (ends : (declareWithin scope steps [] hint node).Ends) :
    declareWithin scope steps [] hint node = declare scope hint node :=
  declareWithin_eq_declareOnward ends

/-- Steps are used up only where declaring has no end. -/
theorem endless_iff {hint : String} {node : Node} :
    Endless scope hint node ↔ ¬(declare scope hint node).Ends := by
  constructor
  · intro endless
    exact endless _
  · intro usedUp steps ends
    exact usedUp (ends_declare ends)

/-- The error for an endless composition is reported of those schemas whose declaring has no end. -/
theorem Document.endless_iff_declareSchema {document : Document} {options : Options}
    {name : String} :
    document.Endless options name ↔
      ∃ hint, document.declareSchema options name = some (.error (.endlessComposition hint)) := by
  unfold Document.Endless Document.declareSchema
  cases document.schema? name with
  | none => simp
  | some node =>
    simp only [Option.some.injEq, exists_eq_left', Option.map_some]
    rw [endless_iff, Run.not_ends_iff, declareTopLevel]
    generalize declare ⟨document, options⟩ name node = run
    obtain ⟨events, error | decl⟩ := run
    · simp [Run.bind_error, Run.declared, Except.map]
    · -- after declaring, all that can go wrong is that boxing is off
      simp only [Run.bind_ok, Run.declared, reduceCtorEq, exists_false, false_iff, not_exists]
      intro hint
      split
      · split
        · simp [Except.map]
        · simp [Run.fail, Except.map]
      · simp [Except.map]

instance (document : Document) (options : Options) (name : String) :
    Decidable (document.Endless options name) :=
  decidable_of_iff
    ((document.declareSchema options name).any fun
      | .error error => error.isOutOfSteps
      | .ok _ => false) <| by
    rw [Document.endless_iff_declareSchema]
    rcases document.declareSchema options name with _ | error | declared
    · simp
    · cases error <;> simp [SchemaError.isOutOfSteps]
    · simp

end Protoschema
