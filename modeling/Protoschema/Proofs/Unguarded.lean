import Mathlib.Tactic.Linarith
import Protoschema.Proofs.Agreement
/-!
Declaring without a guard against cycles. `declareFreely` follows references as often as they come
up; what stops it is the number of steps alone. A run that is stopped is told from one that finishes
by its error. More steps keep what has finished, the hint does not decide whether a run finishes,
and as many steps as there are nodes to lead to are enough for all that finishes at all.
-/

namespace Protoschema

/-- Whether an error is for going round without an end: a pointer came up again while it was being
followed, or the steps were used up. -/
def SchemaError.isEndless : SchemaError → Bool
  | .cyclicReference _ _ | .endlessComposition _ => true
  | _ => false

/-- An error with the name of its schema left out. -/
def SchemaError.anonymous : SchemaError → SchemaError
  | .unresolvedReference _ pointer => .unresolvedReference "" pointer
  | .invalidOpenMap _ reason => .invalidOpenMap "" reason
  | .invalidMember _ position reason => .invalidMember "" position reason
  | .invalidEnum _ reason => .invalidEnum "" reason
  | .unboxedTopLevel _ shape => .unboxedTopLevel "" shape
  | .duplicateAlternative _ field => .duplicateAlternative "" field
  | .missingItems _ => .missingItems ""
  | .unknownOrderedProperty _ property => .unknownOrderedProperty "" property
  | .cyclicReference _ pointer => .cyclicReference "" pointer
  | .untypedSchema _ => .untypedSchema ""
  | .endlessComposition _ => .endlessComposition ""

@[simp] theorem SchemaError.isEndless_anonymous (error : SchemaError) :
    error.anonymous.isEndless = error.isEndless := by
  cases error <;> rfl

namespace Run

variable {α β γ δ : Type}

/-- A run that does not fail for a reason of some kind. -/
def Avoids (kind : SchemaError → Bool) (run : Run α) : Prop :=
  ∀ error, run.outcome = .error error → kind error = false

section Avoiding

variable {kind : SchemaError → Bool}

@[simp] theorem avoids_ok (events : List Event) (value : α) :
    (⟨events, .ok value⟩ : Run α).Avoids kind := by
  simp [Avoids]

@[simp] theorem avoids_error (events : List Event) (error : SchemaError) :
    (⟨events, .error error⟩ : Run α).Avoids kind ↔ kind error = false := by
  simp [Avoids]

/-- A run avoids what it goes on from avoids. -/
theorem Avoids.of_bind {run : Run α} {next : α → Run β} (avoids : (run >>= next).Avoids kind) :
    run.Avoids kind := by
  obtain ⟨events, outcome⟩ := run
  rintro error failed
  obtain rfl : outcome = .error error := failed
  exact avoids error rfl

theorem Avoids.next {events : List Event} {value : α} {next : α → Run β}
    (avoids : (⟨events, .ok value⟩ >>= next : Run β).Avoids kind) : (next value).Avoids kind :=
  fun error failed => avoids error failed

/-- Equality, as far as the first run does not fail for a reason of some kind. -/
def Congruence.avoiding (kind : SchemaError → Bool) : Congruence where
  Rel run run' := run.Avoids kind → run = run'
  refl _ _ := rfl
  bind := by
    intro α β run run' next next' same sameNext avoids
    obtain rfl := same avoids.of_bind
    obtain ⟨events, error | value⟩ := run
    · rfl
    · rw [bind_ok, bind_ok, sameNext value avoids.next]

end Avoiding

/-- A run that was not stopped for going round. -/
def Finishes (run : Run α) : Prop :=
  run.Avoids SchemaError.isEndless

@[simp] theorem finishes_ok (events : List Event) (value : α) :
    (⟨events, .ok value⟩ : Run α).Finishes :=
  avoids_ok events value

@[simp] theorem finishes_error (events : List Event) (error : SchemaError) :
    (⟨events, .error error⟩ : Run α).Finishes ↔ error.isEndless = false :=
  avoids_error events error

/-- A run finishes only if what it goes on from does. -/
theorem Finishes.of_bind {run : Run α} {next : α → Run β} (finishes : (run >>= next).Finishes) :
    run.Finishes :=
  Avoids.of_bind finishes

theorem Finishes.next {events : List Event} {value : α} {next : α → Run β}
    (finishes : (⟨events, .ok value⟩ >>= next : Run β).Finishes) : (next value).Finishes :=
  Avoids.next finishes

namespace Congruence

/-- Equality, as far as the first run finishes. -/
def finished : Congruence := avoiding SchemaError.isEndless

/-- A congruence, the other way round. -/
def flip (c : Congruence) : Congruence where
  Rel run run' := c.Rel run' run
  refl := c.refl
  bind related next := c.bind related next

end Congruence

/-! ### Runs that fare alike -/

/-- Two runs that fare alike: both succeed, with related values, or both fail for the same reason,
but for the name under which it is reported. -/
inductive FareAlike (ρ : α → β → Prop) : Run α → Run β → Prop
  | ok {events events' : List Event} {value : α} {value' : β} : ρ value value' →
      FareAlike ρ ⟨events, .ok value⟩ ⟨events', .ok value'⟩
  | error {events events' : List Event} {error error' : SchemaError} :
      error.anonymous = error'.anonymous →
      FareAlike ρ ⟨events, .error error⟩ ⟨events', .error error'⟩

namespace FareAlike

variable {ρ : α → β → Prop} {σ : γ → δ → Prop}

theorem same (run : Run α) : FareAlike Eq run run := by
  obtain ⟨events, error | value⟩ := run
  · exact .error rfl
  · exact .ok rfl

theorem bind {run : Run α} {run' : Run β} {next : α → Run γ} {next' : β → Run δ}
    (alike : FareAlike ρ run run')
    (onward : ∀ value value', ρ value value' → FareAlike σ (next value) (next' value')) :
    FareAlike σ (run >>= next) (run' >>= next') := by
  cases alike with
  | error reason => exact .error reason
  | @ok events events' value value' related =>
    rw [bind_ok, bind_ok]
    generalize next value = later, next' value' = later', onward value value' related = rest
    cases rest with
    | ok values => exact .ok values
    | error reason => exact .error reason

theorem map {f : α → γ} {g : β → δ} {run : Run α} {run' : Run β} (alike : FareAlike ρ run run')
    (kept : ∀ value value', ρ value value' → σ (f value) (g value')) :
    FareAlike σ (f <$> run) (g <$> run') :=
  alike.bind fun value value' related => .ok (kept value value' related)

theorem foldlM {step : α → γ → Run α} {step' : β → γ → Run β} (items : List γ)
    (steps : ∀ state state' item, ρ state state' →
      FareAlike ρ (step state item) (step' state' item))
    {state : α} {state' : β} (start : ρ state state') :
    FareAlike ρ (items.foldlM step state) (items.foldlM step' state') := by
  induction items generalizing state state' with
  | nil => exact .ok start
  | cons item rest induction =>
    simp only [List.foldlM_cons]
    exact (steps state state' item start).bind fun _ _ related => induction related

/-- Runs that fare alike fail for reasons of the same kind, if the kind is not told by the name. -/
theorem avoids_iff {kind : SchemaError → Bool}
    (nameless : ∀ error : SchemaError, kind error.anonymous = kind error) {run : Run α}
    {run' : Run β} (alike : FareAlike ρ run run') : run.Avoids kind ↔ run'.Avoids kind := by
  cases alike with
  | ok => simp
  | @error _ _ error error' reason =>
    rw [avoids_error, avoids_error, ← nameless error, reason, nameless error']

theorem finishes_iff {run : Run α} {run' : Run β} (alike : FareAlike ρ run run') :
    run.Finishes ↔ run'.Finishes :=
  alike.avoids_iff SchemaError.isEndless_anonymous

end FareAlike

end Run

/-! ### One level of declaring -/

/-- A property of nodes that goes over to all that declaring them leads to. -/
structure Document.Closed (document : Document) (within : Node → Prop) : Prop where
  child : ∀ {schema : Schema Node} {child : Node}, within (.inline schema) →
    child ∈ schema.children → within child
  lookup : ∀ {location : Location} {node : Node}, document.lookup location = some node → within node

theorem Document.Closed.memberObject {document : Document} {within : Node → Prop}
    (closed : document.Closed within) {hint : String} {position : Nat} {fresh : List String}
    {node : Node} {object : Schema Node} (inside : within node)
    (stands : memberObject document hint position fresh node = .ok object) :
    within (.inline object) := by
  fun_induction Protoschema.memberObject document hint position fresh node with
  | case1 fresh schema isObject =>
    cases stands
    exact inside
  | case3 fresh reference unpassed name target bound next found induction =>
    exact induction (closed.lookup found) stands
  | _ => cases stands

section Levels

variable {c : Run.Congruence} {scope : Scope} {within : Node → Prop}

/-- One level of declaring keeps a congruence, whatever pointers are being followed. -/
theorem declareShape_within (closed : scope.document.Closed within)
    {declare declare' : List String → Declarer} {following following' : List String}
    (below : ∀ hint node, within node →
      c.Rel (declare following hint node) (declare' following' hint node))
    (hint : String) {schema : Schema Node} (inside : within (.inline schema)) :
    c.Rel (declareShape scope declare following hint (.inline schema))
      (declareShape scope declare' following' hint (.inline schema)) := by
  have agree {object : Schema Node} (inside : within (.inline object)) :
      object.Agree c (fun node node' => node = node' ∧ within node) object :=
    .of_children c fun child member => ⟨rfl, closed.child inside member⟩
  refine declareShape_agree rfl ?_ ?_ hint (agree inside) ?_
  · rintro hint node _ ⟨rfl, inside⟩
    exact below hint node inside
  · rintro node _ ⟨rfl, _⟩
    rfl
  · refine List.forall₂_same.mpr fun node member hint position => ?_
    have inner := closed.child inside (Schema.mem_children_of_allOf member)
    cases stands : memberObject scope.document hint position
      (freshPointers scope.document node) node with
    | error error => exact .error error
    | ok object => exact .ok (agree (closed.memberObject inner stands))

/-- Two ways of declaring a reference can differ only in how they go on to a node that has no
declaration of its own. -/
theorem declareReference_onward {declare declare' : List String → Declarer}
    {following following' : List String} {hint : String} {reference : Reference}
    (onward : ∀ name target node, reference.binding = some (.here name target) →
      scope.document.lookup target = some node →
      c.Rel (if reference.pointer ∈ following then
          Run.fail (.cyclicReference hint reference.pointer)
        else declare (reference.pointer :: following) hint node)
        (if reference.pointer ∈ following' then
          Run.fail (.cyclicReference hint reference.pointer)
        else declare' (reference.pointer :: following') hint node)) :
    c.Rel (declareReference scope declare following hint reference)
      (declareReference scope declare' following' hint reference) := by
  unfold declareReference
  split
  · exact c.refl _
  next name target bound =>
    split
    · exact c.refl _
    next node found =>
      split
      · exact c.refl _
      · exact onward name target node bound found
  · exact c.refl _

/-- `declareShape_within` for declaring without a guard, references included. -/
theorem declareShape_freely (closed : scope.document.Closed within) {declare declare' : Declarer}
    (below : ∀ hint node, within node → c.Rel (declare hint node) (declare' hint node))
    (hint : String) {node : Node} (inside : within node) :
    c.Rel (declareShape scope (fun _ => declare) [] hint node)
      (declareShape scope (fun _ => declare') [] hint node) := by
  cases node with
  | ref reference =>
    simp only [declareShape, Shape.of]
    refine declareReference_onward fun name target node bound found => ?_
    rw [if_neg List.not_mem_nil, if_neg List.not_mem_nil]
    exact below hint node (closed.lookup found)
  | inline schema => exact declareShape_within closed below hint inside

end Levels

/-! ### Declaring without a guard -/

/-- Declares a node within a number of nested steps, following every reference that comes up. -/
def declareFreely (scope : Scope) : Nat → Declarer
  | 0, hint, _ => Run.fail (.endlessComposition hint)
  | steps + 1, hint, node => declareShape scope (fun _ => declareFreely scope steps) [] hint node

variable {scope : Scope}

theorem Document.closed_true (document : Document) : document.Closed fun _ => True :=
  ⟨fun _ _ => trivial, fun _ => trivial⟩

theorem not_finishes_zero (hint : String) (node : Node) :
    ¬(declareFreely scope 0 hint node).Finishes := by
  simp [declareFreely, Run.fail, SchemaError.isEndless]

/-- More steps keep what has finished. -/
theorem declareFreely_mono {steps steps' : Nat} (more : steps ≤ steps') {hint : String}
    {node : Node} (finishes : (declareFreely scope steps hint node).Finishes) :
    declareFreely scope steps hint node = declareFreely scope steps' hint node := by
  induction steps generalizing steps' hint node with
  | zero => exact absurd finishes (not_finishes_zero hint node)
  | succ steps induction =>
    obtain ⟨steps', rfl⟩ : ∃ fewer, steps' = fewer + 1 := ⟨steps' - 1, by omega⟩
    refine declareShape_freely (c := .finished) scope.document.closed_true ?_ hint trivial finishes
    intro hint node _ finishes
    exact induction (by omega) finishes

theorem declareFreely_unique {steps steps' : Nat} {hint : String} {node : Node}
    (finishes : (declareFreely scope steps hint node).Finishes)
    (finishes' : (declareFreely scope steps' hint node).Finishes) :
    declareFreely scope steps hint node = declareFreely scope steps' hint node := by
  rcases Nat.le_total steps steps' with more | fewer
  · exact declareFreely_mono more finishes
  · exact (declareFreely_mono fewer finishes').symm

/-! ### Hints -/

/-- Messages with fields of the same names. -/
def Message.SameNames (message message' : Message Decl) : Prop :=
  message.fields.map Field.name = message'.fields.map Field.name

theorem Message.SameNames.hasField {message message' : Message Decl}
    (same : message.SameNames message') (name : String) :
    message.hasField name = message'.hasField name := by
  have taken (message : Message Decl) : message.hasField name
      = (message.fields.map Field.name).any (Ident.normalize · == Ident.normalize name) := by
    simp [Message.hasField, Function.comp_def]
  rw [taken, taken, same]

theorem Message.SameNames.addField {message message' : Message Decl}
    (same : message.SameNames message') (name : String) (type type' : Decl)
    (comment comment' : Option String) :
    (message.addField name type comment).SameNames (message'.addField name type' comment') := by
  unfold SameNames at same ⊢
  simp only [Message.addField, List.map_append, List.map_cons, List.map_nil, same]

section Hints

variable {declare : Declarer}
  (below : ∀ hint hint' node,
    Run.FareAlike (fun _ _ => True) (declare hint node) (declare hint' node))

include below

private theorem addProperty_fareAlike (schema : Schema Node) (message message' : Message Decl)
    (property : String) (same : message.SameNames message') :
    Run.FareAlike Message.SameNames (addProperty declare schema message property)
      (addProperty declare schema message' property) := by
  unfold addProperty
  rw [same.hasField]
  split
  · exact .error rfl
  next node found =>
    split
    · exact .ok same
    · exact (below _ _ node).bind fun _ _ _ => .ok (same.addField _ _ _ _ _)

private theorem addProperties_fareAlike (schema : Schema Node) (message message' : Message Decl)
    (same : message.SameNames message') :
    Run.FareAlike Message.SameNames (addProperties declare message schema)
      (addProperties declare message' schema) := by
  simp only [addProperties, Run.forM_note]
  refine Run.FareAlike.bind (ρ := Eq) (.ok rfl) fun _ _ _ => .foldlM _ ?_ same
  intro state state' property same
  exact addProperty_fareAlike below schema state state' property same

omit below in
private theorem memberObject_fareAlike (document : Document) (hint hint' : String) (position : Nat)
    (fresh : List String) (node : Node) :
    Run.FareAlike Eq (Run.ofExcept (memberObject document hint position fresh node))
      (Run.ofExcept (memberObject document hint' position fresh node)) := by
  fun_induction memberObject document hint position fresh node with
  | case1 fresh schema object =>
    rw [memberObject, if_pos object]
    exact .ok rfl
  | case2 fresh schema other =>
    rw [memberObject, if_neg other]
    exact .error rfl
  | case3 fresh reference unpassed name target bound next found induction =>
    simpa only [memberObject, dif_pos unpassed, bound, found] using induction
  | case4 fresh reference unpassed name target bound missing =>
    simp only [memberObject, dif_pos unpassed, bound, missing]
    exact .error rfl
  | case5 fresh reference unpassed package name path bound =>
    simp only [memberObject, dif_pos unpassed, bound]
    exact .error rfl
  | case6 fresh reference unpassed unbound =>
    simp only [memberObject, dif_pos unpassed, unbound]
    exact .error rfl
  | case7 fresh reference passed =>
    rw [memberObject, dif_neg passed]
    exact .error rfl

private theorem declareOpenMap_fareAlike (hint hint' : String) (schema : Schema Node)
    (additional : Additional Node) :
    Run.FareAlike (fun _ _ => True) (declareOpenMap declare hint schema additional)
      (declareOpenMap declare hint' schema additional) := by
  unfold declareOpenMap
  split
  · exact .error rfl
  · cases additional with
    | flag value => exact .error rfl
    | node node =>
      have value : Run.FareAlike (fun _ _ => True)
          (declare (elementHint hint) node >>= fun value =>
            pure (Decl.map hint "string" (value.boxed (elementHint hint) none)))
          (declare (elementHint hint') node >>= fun value =>
            pure (Decl.map hint' "string" (value.boxed (elementHint hint') none))) :=
        (below _ _ node).bind fun _ _ _ => .ok trivial
      dsimp only
      split
      · exact Run.FareAlike.bind (ρ := Eq) (.ok rfl) fun _ _ _ => value
      · exact value

omit below in
private theorem declareEnum_fareAlike (options : Options) (hint hint' : String)
    (schema : Schema Node) (values : List Json.Value) :
    Run.FareAlike (fun _ _ => True) (declareEnum options hint schema values)
      (declareEnum options hint' schema values) := by
  unfold declareEnum
  split
  · exact .error rfl
  · split
    · exact .error rfl
    · exact .error rfl
    · exact .ok trivial

omit below in
/-- Whatever the hint, one level of declaring fares alike if the levels below do. -/
theorem declareShape_fareAlike {declare : List String → Declarer}
    (below : ∀ following hint hint' node, Run.FareAlike (fun _ _ => True)
      (declare following hint node) (declare following hint' node))
    (following : List String) (hint hint' : String) (node : Node) :
    Run.FareAlike (fun _ _ => True) (declareShape scope declare following hint node)
      (declareShape scope declare following hint' node) := by
  unfold declareShape
  split
  next reference shape =>
    unfold declareReference
    split
    · exact .ok trivial
    · split
      · exact .ok trivial
      · split
        · exact .ok trivial
        · split
          · exact .error rfl
          · exact below _ _ _ _
    · exact .ok trivial
  next schema shape =>
    refine Run.FareAlike.map (ρ := Message.SameNames) (.foldlM _ ?_ rfl) fun _ _ _ => trivial
    intro message message' alternative same
    -- alternatives are declared under one hint, so both sides go on from the same run
    refine (Run.FareAlike.same (declare following alternativeHint alternative)).bind ?_
    rintro type _ rfl
    dsimp only
    rw [same.hasField]
    split
    · exact .error rfl
    · exact .ok (same.addField _ _ _ _ _)
  next schema shape =>
    refine Run.FareAlike.map (ρ := Message.SameNames) (.foldlM _ ?_ rfl) fun _ _ _ => trivial
    intro message message' member same
    -- members are told apart by where they lead, the hint is for errors only
    refine (memberObject_fareAlike _ hint hint' _ _ _).bind ?_
    rintro object _ rfl
    exact addProperties_fareAlike (below following) object message message' same
  next schema additional shape =>
    exact declareOpenMap_fareAlike (below following) hint hint' schema additional
  next schema shape =>
    refine Run.FareAlike.map (ρ := Message.SameNames) ?_ fun _ _ _ => trivial
    exact addProperties_fareAlike (below following) schema _ _ rfl
  next schema shape =>
    unfold declareArray
    split
    · exact .error rfl
    · exact (below following _ _ _).bind fun _ _ _ => .ok trivial
  next schema values shape => exact declareEnum_fareAlike scope.options hint hint' schema values
  next schema shape =>
    split
    · exact .ok trivial
    · exact .error rfl

omit below in
/-- The hint does not decide how declaring fares. -/
theorem declareFreely_fareAlike (steps : Nat) (hint hint' : String) (node : Node) :
    Run.FareAlike (fun _ _ => True) (declareFreely scope steps hint node)
      (declareFreely scope steps hint' node) := by
  induction steps generalizing hint hint' node with
  | zero => exact .error rfl
  | succ steps induction =>
    exact declareShape_fareAlike (fun _ => induction) [] hint hint' node

end Hints

/-- A node that can be declared within some steps, under whatever hint. -/
def EndsWithin (scope : Scope) (steps : Nat) (node : Node) : Prop :=
  ∀ hint, (declareFreely scope steps hint node).Finishes

theorem endsWithin_of_finishes {steps : Nat} {hint : String} {node : Node}
    (finishes : (declareFreely scope steps hint node).Finishes) : EndsWithin scope steps node :=
  fun hint' => (declareFreely_fareAlike steps hint hint' node).finishes_iff.mp finishes

theorem EndsWithin.mono {steps steps' : Nat} (more : steps ≤ steps') {node : Node}
    (ends : EndsWithin scope steps node) : EndsWithin scope steps' node := by
  intro hint
  rw [← declareFreely_mono more (ends hint)]
  exact ends hint

/-! ### Enough steps -/

section Settling

variable {α : Type} {P : Nat → α → Prop} {items : List α}

open Classical in
/-- A property that nothing has at first, and that some item gains at each step, has come to all
items after as many steps as there are items. -/
private theorem all_of_growing (kept : ∀ step item, P step item → P (step + 1) item)
    (gained : ∀ step < items.length, ∃ item ∈ items, P (step + 1) item ∧ ¬P step item) :
    ∀ item ∈ items, P items.length item := by
  have count (step : Nat) (early : step ≤ items.length) :
      step ≤ (items.filter fun item => P step item).length := by
    induction step with
    | zero => exact Nat.zero_le _
    | succ step induction =>
      -- the items of this step are among those of the next, which has one more at least
      obtain ⟨item, member, now, before⟩ := gained step early
      have nested : items.filter (fun item => P step item)
          = (items.filter fun item => P (step + 1) item).filter fun item => P step item := by
        rw [List.filter_filter]
        refine List.filter_congr fun other _ => ?_
        by_cases held : P step other
        · simp [held, kept step other held]
        · simp [held]
      have fewer : (items.filter fun item => P step item).length
          < (items.filter fun item => P (step + 1) item).length := by
        rw [nested]
        exact List.length_filter_lt_length_iff_exists.mpr
          ⟨item, List.mem_filter.mpr ⟨member, by simpa using now⟩, by simpa using before⟩
      exact Nat.lt_of_le_of_lt (induction (Nat.le_of_succ_le early)) fewer
  intro item member
  have all := List.length_filter_eq_length_iff.mp
    (Nat.le_antisymm (List.length_filter_le _ items) (count items.length le_rfl))
  simpa using all item member

/-- A growing property that has stopped growing once it does not grow for a step has come, after as
many steps as there are items, to all items that it ever comes to. -/
theorem settled_of_length (kept : ∀ step item, P step item → P (step + 1) item)
    (settled : ∀ step, (∀ item ∈ items, P (step + 1) item → P step item) →
      ∀ item ∈ items, P (step + 2) item → P (step + 1) item)
    {step : Nat} {item : α} (member : item ∈ items) (holds : P step item) :
    P items.length item := by
  have later {step : Nat} {item : α} (holds : P step item) (more : Nat) : P (step + more) item := by
    induction more with
    | zero => exact holds
    | succ more induction => exact kept _ item induction
  by_cases growing : ∀ step < items.length, ∃ item ∈ items, P (step + 1) item ∧ ¬P step item
  · exact all_of_growing kept growing item member
  · push Not at growing
    obtain ⟨still, early, same⟩ := growing
    -- after a step without gain there is none, and so `still` steps do what any number does
    have stays (more : Nat) :
        ∀ item ∈ items, P (still + more + 1) item → P (still + more) item := by
      induction more with
      | zero => exact same
      | succ more induction => exact settled _ induction
    have back (more : Nat) : P (still + more) item → P still item := by
      induction more with
      | zero => exact id
      | succ more induction => exact fun holds => induction (stays more item member holds)
    have found : P still item := back step (Nat.add_comm step still ▸ later holds still)
    have enough := later found (items.length - still)
    rwa [Nat.add_sub_cancel' early.le] at enough

end Settling

/-- If no node among those that declaring leads to gains from one more step, none gains from two. -/
private theorem endsWithin_settled {nodes : List Node} (closed : scope.document.Closed (· ∈ nodes))
    {steps : Nat}
    (same : ∀ node ∈ nodes, EndsWithin scope (steps + 1) node → EndsWithin scope steps node)
    {node : Node} (member : node ∈ nodes) (ends : EndsWithin scope (steps + 2) node) :
    EndsWithin scope (steps + 1) node := by
  intro hint
  have alike : (Run.Congruence.finished.flip).Rel (declareFreely scope (steps + 1) hint node)
      (declareFreely scope (steps + 2) hint node) := by
    refine declareShape_freely closed ?_ hint member
    -- what finishes with one step more has finished already, and stays as it was
    intro hint node inside finishes
    exact declareFreely_mono (Nat.le_succ steps)
      (same node inside (endsWithin_of_finishes finishes) hint) |>.symm
  rw [← alike (ends hint)]
  exact ends hint

/-- As many steps as there are nodes to lead to are enough for every node that can be declared. -/
theorem EndsWithin.of_length {nodes : List Node} (closed : scope.document.Closed (· ∈ nodes))
    {steps : Nat} {node : Node} (member : node ∈ nodes) (ends : EndsWithin scope steps node) :
    EndsWithin scope nodes.length node :=
  settled_of_length (fun _ _ ends => ends.mono (Nat.le_succ _))
    (fun _ same _ member ends => endsWithin_settled closed same member ends) member ends

theorem Document.Closed.of_schemas {document : Document} {within : Node → Prop}
    (child : ∀ schema, within (.inline schema) → ∀ node ∈ schema.children, within node)
    (schemas : ∀ name node, document.schema? name = some node → within node) :
    document.Closed within where
  child inside member := child _ inside _ member
  lookup found := by
    obtain ⟨top, atRoot, reached⟩ := Option.bind_eq_some_iff.mp found
    exact Node.holds_of_descend child reached (schemas _ _ atRoot)

/-- The nodes that declaring a node can lead to are among those of the node and the document. -/
theorem Document.exists_closed (document : Document) (node : Node) :
    ∃ nodes : List Node, nodes.length = document.size + node.size ∧ node ∈ nodes ∧
      document.Closed (· ∈ nodes) := by
  obtain ⟨above, aboveLength, tops, aboveClosed⟩ := document.exists_nodes
  obtain ⟨below, belowLength, self, belowClosed⟩ := node.exists_nodes
  refine ⟨above ++ below, ?_, List.mem_append_right _ self, .of_schemas ?_ ?_⟩
  · rw [List.length_append, aboveLength, belowLength]
  · intro schema inside child member
    rcases List.mem_append.mp inside with inside | inside
    · exact List.mem_append_left _ (aboveClosed schema inside child member)
    · exact List.mem_append_right _ (belowClosed schema inside child member)
  · exact fun name top found => List.mem_append_left _ (tops name top found)

/-- The step budget is enough for every node that can be declared. -/
theorem EndsWithin.of_stepBudget {steps : Nat} {node : Node} (ends : EndsWithin scope steps node) :
    EndsWithin scope (stepBudget scope.document node) node := by
  obtain ⟨nodes, length, self, closed⟩ := scope.document.exists_closed node
  have enough : nodes.length ≤ stepBudget scope.document node := by
    rw [length, stepBudget]
    nlinarith [Nat.zero_le (scope.document.size + node.size)]
  exact (ends.of_length closed self).mono enough

end Protoschema
