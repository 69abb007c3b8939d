import Mathlib.Logic.Relation
import Protoschema.Proofs.Derivation
import Protoschema.Proofs.Invariants
import Protoschema.Proofs.StepBudget
/-!
Where declaring goes on. A visit is a node that is declared, with its hint and the pointers that are
being followed, and `Visit.Next` says which visits it goes on to. A loop stops at the first error,
so that only those count that it comes to: properties in their order whose identifiers are not
taken, alternatives, members up to one that stands for no object. The run of a visit goes through
the run of each visit that it goes on to, and it ends exactly if all of these do.
-/

namespace Protoschema

/-! ### Runs that go through others -/

namespace Run

variable {α β γ : Type}

instance : LawfulMonad Run :=
  .mk' Run
    (by
      rintro α ⟨events, error | value⟩
      · rfl
      · simp [Functor.map, Run.bind, Run.pure])
    (fun _ _ => rfl)
    (by
      rintro α β γ ⟨events, error | value⟩ next later
      · rfl
      · exact ok_bind_bind events value next later)

/-- A run goes through another: what it meets and what it comes to depend on that one. -/
def Through (inner : Run α) (whole : Run β) : Prop :=
  ∃ events next, whole = (inner >>= next).after events

namespace Through

variable {inner : Run α} {middle : Run β} {whole : Run γ}

theorem first (run : Run α) (next : α → Run β) : run.Through (run >>= next) :=
  ⟨[], next, rfl⟩

theorem refl (run : Run α) : run.Through run :=
  ⟨[], pure, by rw [bind_pure]; rfl⟩

theorem trans (into : inner.Through middle) (through : middle.Through whole) :
    inner.Through whole := by
  obtain ⟨events, next, rfl⟩ := into
  obtain ⟨before, later, rfl⟩ := through
  refine ⟨before ++ events, fun value => next value >>= later, ?_⟩
  rw [after_bind, bind_assoc]
  simp [after]

theorem map (into : inner.Through middle) (f : β → γ) : inner.Through (f <$> middle) :=
  into.trans (first _ _)

theorem after (into : inner.Through middle) (events : List Event) :
    inner.Through (middle.after events) := by
  obtain ⟨before, next, rfl⟩ := into
  exact ⟨events ++ before, next, by simp [Run.after]⟩

/-- What goes through a run without an end has no end. -/
theorem ends (through : inner.Through whole) (ends : whole.Ends) : inner.Ends := by
  obtain ⟨events, next, rfl⟩ := through
  have whole : (inner >>= next).Ends := ends
  exact whole.of_bind

/-- What succeeds goes through runs that succeed, and meets all that they meet. -/
theorem of_ok (through : inner.Through whole) {value : γ} (outcome : whole.outcome = .ok value) :
    (∃ value', inner.outcome = .ok value') ∧ inner.events ⊆ whole.events := by
  obtain ⟨before, next, rfl⟩ := through
  obtain ⟨events, error | value'⟩ := inner
  · cases outcome
  · exact ⟨⟨value', rfl⟩, fun event met => by simp [Run.after, show event ∈ events from met]⟩

end Through

/-! ### Runs that end -/

theorem Ends.bind {run : Run α} {next : α → Run β} (first : run.Ends)
    (later : ∀ value, (next value).Ends) : (run >>= next).Ends := by
  obtain ⟨events, error | value⟩ := run
  · exact fun other failed => first other (by simpa using failed)
  · exact fun error failed => later value error failed

theorem Ends.map {run : Run α} {f : α → β} (ends : run.Ends) : (f <$> run).Ends :=
  ends.bind fun value => avoids_ok [] (f value)

theorem Ends.after {run : Run α} (ends : run.Ends) (events : List Event) :
    (run.after events).Ends :=
  ends

theorem ends_fail {error : SchemaError} (other : error.isOutOfSteps = false) :
    (Run.fail error : Run α).Ends :=
  (avoids_error [] error).mpr other

theorem ends_of_ok {run : Run α} {value : α} (outcome : run.outcome = .ok value) : run.Ends := by
  intro error failed
  rw [outcome] at failed
  cases failed

/-! ### Loops -/

variable {step step' : α → γ → Run α} {items : List γ} {start state : α} {item : γ}

theorem LoopReaches.through (reaches : LoopReaches step items start item state) :
    (step state item).Through (items.foldlM step start) := by
  obtain ⟨before, after, rfl, outcome⟩ := reaches
  rw [List.foldlM_append]
  generalize before.foldlM step start = run at outcome
  obtain ⟨events, _⟩ := run
  obtain rfl : _ = Except.ok state := outcome
  exact ⟨events, fun state => after.foldlM step state, rfl⟩

/-- A loop ends if all steps end that it comes to. -/
theorem ends_foldlM
    (each : ∀ item state, LoopReaches step items start item state → (step state item).Ends) :
    (items.foldlM step start).Ends := by
  induction items generalizing start with
  | nil => exact avoids_ok [] start
  | cons item rest induction =>
    rw [List.foldlM_cons]
    have first := each item start (.first rest)
    have later (middle : α) (taken : (step start item).outcome = .ok middle) :
        (rest.foldlM step middle).Ends :=
      induction fun other state reaches => each other state (.cons taken reaches)
    generalize step start item = run at first later
    obtain ⟨events, error | middle⟩ := run
    · exact first
    · exact later middle rfl

theorem foldlM_eq_of_ends (same : ∀ state item, (step state item).Ends →
      step state item = step' state item) (ends : (items.foldlM step start).Ends) :
    items.foldlM step start = items.foldlM step' start := by
  refine (Congruence.avoiding SchemaError.isOutOfSteps).foldlM (ρ := Eq) ?_
    (List.forall₂_same.mpr fun _ _ => rfl) start ends
  rintro state item _ rfl
  exact same state item

/-- Where a loop comes to is the same with steps that do the same as long as they end. -/
theorem LoopReaches.mono (same : ∀ state item, (step state item).Ends →
      step state item = step' state item) (reaches : LoopReaches step items start item state) :
    LoopReaches step' items start item state := by
  obtain ⟨before, after, split, outcome⟩ := reaches
  exact ⟨before, after, split, by rw [← foldlM_eq_of_ends same (ends_of_ok outcome), outcome]⟩

theorem LoopReaches.of_ends (same : ∀ state item, (step state item).Ends →
      step state item = step' state item) (ends : (items.foldlM step start).Ends)
    (reaches : LoopReaches step' items start item state) :
    LoopReaches step items start item state := by
  obtain ⟨before, after, rfl, outcome⟩ := reaches
  rw [List.foldlM_append] at ends
  exact ⟨before, after, rfl, by rw [foldlM_eq_of_ends same ends.of_bind, outcome]⟩

end Run

/-! ### Steps that are enough -/

section Enough

variable {scope : Scope} {steps : Nat} {following : List String}

theorem addProperty_enough (object : Schema Node) (message : Message Decl) (property : String) :
    (addProperty (declareWithin scope steps following) object message property).Ends →
      addProperty (declareWithin scope steps following) object message property
        = addProperty (declareOnward scope following) object message property := by
  refine addProperty_agree (c := .avoiding _) (ρ := Eq) ?_ ?_ (.of_children _ fun _ _ => rfl) _ _
  · rintro hint node _ rfl
    exact declareWithin_eq_declareOnward
  · rintro node _ rfl
    rfl

theorem addMember_enough (hint : String) (message : Message Decl) (member : Node × Nat) :
    (addMember scope (declareWithin scope steps following) hint message member).Ends →
      addMember scope (declareWithin scope steps following) hint message member
        = addMember scope (declareOnward scope following) hint message member := by
  refine addMember_agree (c := .avoiding _) (ρ := Eq) ?_ ?_ _ _ ?_ _
  · rintro hint node _ rfl
    exact declareWithin_eq_declareOnward
  · rintro node _ rfl
    rfl
  · intro hint position
    cases memberObject scope.document hint position (freshPointers scope.document member.1)
      member.1 with
    | error error => exact .error error
    | ok object => exact .ok (.of_children _ fun _ _ => rfl)

theorem addAlternative_enough (hint : String) (message : Message Decl) (alternative : Node) :
    (addAlternative (declareWithin scope steps following) hint message alternative).Ends →
      addAlternative (declareWithin scope steps following) hint message alternative
        = addAlternative (declareOnward scope following) hint message alternative := by
  refine addAlternative_agree (c := .avoiding _) (ρ := Eq) ?_ ?_ _ _ rfl
  · rintro hint node _ rfl
    exact declareWithin_eq_declareOnward
  · rintro node _ rfl
    rfl

end Enough

/-! ### Visits -/

/-- A node that is declared, with its hint and the pointers that are being followed. -/
structure Visit where
  following : List String
  hint : String
  node : Node

namespace Visit

/-- The visit for a top-level schema. -/
def top (name : String) (node : Node) : Visit :=
  ⟨[], name, node⟩

/-- What a visit comes to within a number of steps. -/
def within (scope : Scope) (steps : Nat) (visit : Visit) : Run Decl :=
  declareWithin scope steps visit.following visit.hint visit.node

/-- What a visit comes to. -/
def run (scope : Scope) (visit : Visit) : Run Decl :=
  declareOnward scope visit.following visit.hint visit.node

/-- A composition takes in the object that one of its members stands for, after those before it have
been added to the message. -/
inductive TakesIn (scope : Scope) : Visit → Schema Node → Message Decl → Prop
  | member {following : List String} {hint : String} {schema object : Schema Node} {member : Node}
      {position : Nat} {message : Message Decl} :
      Shape.ofSchema schema = .composition schema →
      Run.LoopReaches (addMember scope (declareOnward scope following) hint) schema.allOf.zipIdx
        { name := hint, comment := schema.description } (member, position) message →
      memberObject scope.document hint (position + 1) (freshPointers scope.document member) member
        = .ok object →
      TakesIn scope ⟨following, hint, .inline schema⟩ object message

/-- The properties of an object are added to a message: it is declared, or it is taken in. -/
inductive Fills (scope : Scope) : Visit → Schema Node → Message Decl → Prop
  | object {following : List String} {hint : String} {schema : Schema Node} :
      Shape.ofSchema schema = .object schema →
      Fills scope ⟨following, hint, .inline schema⟩ schema
        { name := hint, comment := schema.description }
  | member {visit : Visit} {object : Schema Node} {message : Message Decl} :
      TakesIn scope visit object message → Fills scope visit object message

/-- A property of such an object is declared: its order lists it, and its identifier is free when it
is its turn. -/
inductive Enters (scope : Scope) : Visit → Schema Node → Visit → Prop
  | property {visit : Visit} {object : Schema Node} {start message : Message Decl}
      {property : String} {node : Node} :
      Fills scope visit object start →
      Run.LoopReaches (addProperty (declareOnward scope visit.following) object) object.orderedNames
        start property message →
      Entries.get? object.properties property = some node → message.hasField property = false →
      Enters scope visit object ⟨visit.following, propertyHint message.name property, node⟩

/-- The visits that a visit goes on to. -/
inductive Next (scope : Scope) : Visit → Visit → Prop
  -- what has a declaration of its own is linked, not declared again
  | followed {following : List String} {hint : String} {reference : Reference} {name : String}
      {target : Location} {node : Node} :
      reference.binding = some (.here name target) → scope.document.lookup target = some node →
      (Shape.of node).declares = false → reference.pointer ∉ following →
      Next scope ⟨following, hint, .ref reference⟩ ⟨reference.pointer :: following, hint, node⟩
  | alternative {following : List String} {hint : String} {schema : Schema Node} {node : Node}
      {message : Message Decl} :
      Shape.ofSchema schema = .union schema →
      Run.LoopReaches (addAlternative (declareOnward scope following) hint) schema.oneOf
        { name := hint, comment := schema.description } node message →
      Next scope ⟨following, hint, .inline schema⟩ ⟨following, alternativeHint, node⟩
  | property {visit inner : Visit} {object : Schema Node} :
      Enters scope visit object inner → Next scope visit inner
  | value {following : List String} {hint : String} {schema : Schema Node} {node : Node} :
      Shape.ofSchema schema = .openMap schema (.node node) → schema.type = some .object →
      Next scope ⟨following, hint, .inline schema⟩ ⟨following, elementHint hint, node⟩
  | item {following : List String} {hint : String} {schema : Schema Node} {node : Node} :
      Shape.ofSchema schema = .array schema → schema.items = some node →
      Next scope ⟨following, hint, .inline schema⟩ ⟨following, elementHint hint, node⟩

variable {scope : Scope}

/-! ### One step -/

/-- What a visit does, where a number of steps is left for the visits that it goes on to. -/
inductive Step (scope : Scope) (steps : Nat) : Visit → Run Decl → Prop
  | named {visit : Visit} (events : List Event) (name : String) :
      Step scope steps visit ⟨events, .ok (.named name)⟩
  | enum {visit : Visit} (body : Enum) : Step scope steps visit ⟨[], .ok (.enum body)⟩
  | failed {visit : Visit} {error : SchemaError} : error.isOutOfSteps = false →
      Step scope steps visit (Run.fail error)
  | followed {visit inner : Visit} : Next scope visit inner →
      Step scope steps visit (inner.within scope steps)
  | list {visit inner : Visit} : Next scope visit inner →
      Step scope steps visit
        ((fun item => .repeated (item.boxed inner.hint none)) <$> inner.within scope steps)
  | map {visit inner : Visit} (events : List Event) : Next scope visit inner →
      Step scope steps visit
        ((fun value => .map visit.hint "string" (value.boxed inner.hint none))
          <$> (inner.within scope steps).after events)
  | object {following : List String} {hint : String} {schema : Schema Node} :
      Shape.ofSchema schema = .object schema →
      Step scope steps ⟨following, hint, .inline schema⟩
        (.message <$> declareObject (declareWithin scope steps following) hint schema)
  | composition {following : List String} {hint : String} {schema : Schema Node} :
      Shape.ofSchema schema = .composition schema →
      Step scope steps ⟨following, hint, .inline schema⟩
        (.message <$> declareComposition scope (declareWithin scope steps following) hint schema)
  | union {following : List String} {hint : String} {schema : Schema Node} :
      Shape.ofSchema schema = .union schema →
      Step scope steps ⟨following, hint, .inline schema⟩
        (.union <$> declareUnion (declareWithin scope steps following) hint schema)

theorem step_within (scope : Scope) (steps : Nat) (visit : Visit) :
    Step scope steps visit (visit.within scope (steps + 1)) := by
  obtain ⟨following, hint, node⟩ := visit
  cases node with
  | ref reference =>
    change Step scope steps _ (declareReference scope (declareWithin scope steps) _ _ _)
    unfold declareReference
    split
    · exact .named _ _
    next name target bound =>
      split
      · exact .named _ _
      next node found =>
        split
        · exact .named _ _
        next inPassing =>
          split
          · exact .failed rfl
          next unfollowed =>
            exact .followed (.followed bound found (by simpa using inPassing) unfollowed)
    · exact .named _ _
  | inline schema =>
    have self := Shape.alike_self schema
    simp only [within, declareWithin, declareShape, Shape.of]
    generalize shape : Shape.ofSchema schema = kind at self ⊢
    cases self with
    | union => exact .union shape
    | composition => exact .composition shape
    | object => exact .object shape
    | openMap parts =>
      rename_i additional
      dsimp only
      by_cases object : schema.type = some .object
      · cases additional with
        | flag value =>
          rw [declareOpenMap_flag object]
          exact .failed rfl
        | node child =>
          rw [declareOpenMap_node object]
          exact .map _ (.value shape object)
      · rw [declareOpenMap_other object]
        exact .failed rfl
    | array =>
      dsimp only
      unfold declareArray
      cases items : schema.items with
      | none => exact .failed rfl
      | some child => exact .list (.item shape items)
    | enum values =>
      dsimp only
      unfold declareEnum
      split
      · exact .failed rfl
      · split
        · exact .failed rfl
        · exact .failed rfl
        · exact .enum _
    | scalar =>
      dsimp only
      cases schema.scalar? with
      | none => exact .failed rfl
      | some name => exact .named [] name

/-! ### From a visit to the next ones -/

theorem within_eq_run {steps : Nat} {visit : Visit} (ends : (visit.within scope steps).Ends) :
    visit.within scope steps = visit.run scope :=
  declareWithin_eq_declareOnward ends

theorem exists_within (scope : Scope) (visit : Visit) :
    ∃ steps, visit.run scope = visit.within scope (steps + 1) := by
  have positive : 0 < stepBudget scope.document visit.node := by
    rw [stepBudget]
    positivity
  exact ⟨stepBudget scope.document visit.node - 1, by rw [Nat.sub_add_cancel positive]; rfl⟩

theorem declareReference_followed {declare : List String → Declarer} {following : List String}
    {hint : String} {reference : Reference} {name : String} {target : Location} {node : Node}
    (bound : reference.binding = some (.here name target))
    (found : scope.document.lookup target = some node)
    (undeclared : (Shape.of node).declares = false) (unfollowed : reference.pointer ∉ following) :
    declareReference scope declare following hint reference
      = declare (reference.pointer :: following) hint node := by
  simp only [declareReference, bound, found, undeclared, Bool.false_eq_true, if_false,
    if_neg unfollowed]

theorem addMember_of_stands {declare : Declarer} {hint : String} {message : Message Decl}
    {member : Node} {position : Nat} {object : Schema Node}
    (stands : memberObject scope.document hint (position + 1) (freshPointers scope.document member)
      member = .ok object) :
    addMember scope declare hint message (member, position)
      = addProperties declare message object := by
  simp only [addMember, stands]
  rfl

/-- While the properties of an object are added, all of them that are declared are gone through. -/
theorem Enters.through_addProperties {visit inner : Visit} {object : Schema Node}
    (enters : Enters scope visit object inner) (steps : Nat) :
    ∃ message, Fills scope visit object message ∧
      ((addProperties (declareWithin scope steps visit.following) message object).Ends →
        (inner.within scope steps).Through
          (addProperties (declareWithin scope steps visit.following) message object)) := by
  obtain ⟨fills, reaches, found, free⟩ := enters
  refine ⟨_, fills, fun ends => ?_⟩
  rw [addProperties_eq_after] at ends ⊢
  have here := reaches.of_ends (fun _ _ => addProperty_enough _ _ _) ends
  have through := here.through
  rw [addProperty_new found free] at through
  exact ((Run.Through.first _ _).trans through).after _

/-- A visit that ends goes through each visit that it goes on to, with a step less. -/
theorem Next.through_within {visit inner : Visit} (next : Next scope visit inner) {steps : Nat}
    (ends : (visit.within scope (steps + 1)).Ends) :
    (inner.within scope steps).Through (visit.within scope (steps + 1)) := by
  cases next with
  | followed bound found undeclared unfollowed =>
    change Run.Through _ (declareReference scope (declareWithin scope steps) _ _ _)
    rw [declareReference_followed bound found undeclared unfollowed]
    exact .refl _
  | alternative shape reaches =>
    simp only [within, declareWithin, declareShape, Shape.of, shape] at ends ⊢
    have here := reaches.of_ends (fun _ _ => addAlternative_enough _ _ _) ends.of_bind
    exact ((Run.Through.first _ _).trans here.through).map _
  | property enters =>
    obtain ⟨message, fills, through⟩ := enters.through_addProperties steps
    cases fills with
    | object shape =>
      simp only [within, declareWithin, declareShape, Shape.of, shape, declareObject] at ends ⊢
      exact (through ends.of_bind).map _
    | member takesIn =>
      obtain ⟨shape, reaches, stands⟩ := takesIn
      simp only [within, declareWithin, declareShape, Shape.of, shape] at ends ⊢
      have here := reaches.of_ends (fun _ _ => addMember_enough _ _ _) ends.of_bind
      have member := here.through
      rw [addMember_of_stands stands] at member
      exact ((through (member.ends ends.of_bind)).trans member).map _
  | value shape object =>
    simp only [within, declareWithin, declareShape, Shape.of, shape, declareOpenMap_node object]
    exact ((Run.Through.refl _).after _).map _
  | item shape items =>
    simp only [within, declareWithin, declareShape, Shape.of, shape, declareArray, items]
    exact .first _ _

theorem Next.through {visit inner : Visit} (next : Next scope visit inner)
    (ends : (visit.run scope).Ends) : (inner.run scope).Through (visit.run scope) := by
  obtain ⟨steps, enough⟩ := exists_within scope visit
  rw [enough] at ends ⊢
  have through := next.through_within ends
  rw [within_eq_run (through.ends ends)] at through
  exact through

theorem through_of_reached {outer visit : Visit}
    (reached : Relation.ReflTransGen (Next scope) outer visit) (ends : (outer.run scope).Ends) :
    (visit.run scope).Through (outer.run scope) := by
  induction reached with
  | refl => exact .refl _
  | tail _ next induction => exact (next.through (induction.ends ends)).trans induction

/-! ### What visits stay within -/

theorem TakesIn.composed {visit : Visit} {object : Schema Node} {message : Message Decl}
    (takesIn : TakesIn scope visit object message) :
    ∃ schema, visit.node = .inline schema ∧ schema.allOf ≠ [] := by
  obtain ⟨_, reaches, _⟩ := takesIn
  exact ⟨_, rfl, List.ne_nil_of_mem (List.fst_mem_of_mem_zipIdx reaches.mem)⟩

theorem Enters.listed {visit inner : Visit} {object : Schema Node}
    (enters : Enters scope visit object inner) :
    ∃ property ∈ object.orderedNames,
      Entries.get? object.properties property = some inner.node := by
  obtain ⟨_, reaches, found, _⟩ := enters
  exact ⟨_, reaches.mem, found⟩

theorem TakesIn.inside {nodes : Node → Prop} (closed : scope.document.Closed nodes) {visit : Visit}
    {object : Schema Node} {message : Message Decl} (takesIn : TakesIn scope visit object message)
    (inside : nodes visit.node) : nodes (.inline object) := by
  obtain ⟨_, reaches, stands⟩ := takesIn
  have listed := List.fst_mem_of_mem_zipIdx reaches.mem
  exact closed.memberObject (closed.child inside (Schema.mem_children_of_allOf listed)) stands

theorem Enters.inside {nodes : Node → Prop} (closed : scope.document.Closed nodes)
    {visit inner : Visit} {object : Schema Node} (enters : Enters scope visit object inner)
    (inside : nodes visit.node) : nodes inner.node := by
  obtain ⟨fills, _, found, _⟩ := enters
  have property := Schema.mem_children_of_property (Entries.mem_of_get? found)
  cases fills with
  | object shape => exact closed.child inside property
  | member takesIn => exact closed.child (takesIn.inside closed inside) property

theorem Next.inside {nodes : Node → Prop} (closed : scope.document.Closed nodes)
    {visit inner : Visit} (next : Next scope visit inner) (inside : nodes visit.node) :
    nodes inner.node := by
  cases next with
  | followed _ found => exact closed.lookup found
  | alternative _ reaches => exact closed.child inside (Schema.mem_children_of_oneOf reaches.mem)
  | property enters => exact enters.inside closed inside
  | value shape =>
    exact closed.child inside
      (Schema.mem_children_of_additional (Shape.additional_of_openMap shape))
  | item _ items => exact closed.child inside (Schema.mem_children_of_items items)

/-! ### Visits that end -/

theorem memberObject_ends (document : Document) (hint : String) (position : Nat)
    (fresh : List String) (node : Node) :
    (Run.ofExcept (memberObject document hint position fresh node)).Ends := by
  fun_induction memberObject document hint position fresh node with
  | case1 => exact Run.avoids_ok _ _
  | case3 _ _ _ _ _ _ _ _ induction => exact induction
  | case2 | case4 | case5 | case6 | case7 => exact (Run.avoids_error _ _).mpr rfl

theorem addProperties_ends {visit : Visit} {steps : Nat}
    (below : ∀ inner, Next scope visit inner → (inner.within scope steps).Ends)
    {object : Schema Node} {start : Message Decl} (fills : Fills scope visit object start) :
    (addProperties (declareWithin scope steps visit.following) start object).Ends := by
  rw [addProperties_eq_after]
  refine Run.Ends.after (Run.ends_foldlM fun property message reaches => ?_) _
  cases found : Entries.get? object.properties property with
  | none =>
    rw [addProperty_unknown found]
    exact Run.ends_fail rfl
  | some node =>
    cases taken : message.hasField property with
    | true =>
      rw [addProperty_taken found taken]
      exact Run.avoids_ok _ _
    | false =>
      rw [addProperty_new found taken]
      have here := reaches.mono fun _ _ => addProperty_enough _ _ _
      have declared := below _ (.property (.property fills here found taken))
      exact Run.Ends.bind declared fun type => Run.avoids_ok _ _

/-- A visit ends, with a step more, if all visits end that it goes on to. -/
theorem within_ends {visit : Visit} {steps : Nat}
    (below : ∀ inner, Next scope visit inner → (inner.within scope steps).Ends) :
    (visit.within scope (steps + 1)).Ends := by
  have step := step_within scope steps visit
  generalize visit.within scope (steps + 1) = run at step
  cases step with
  | named | enum => exact Run.avoids_ok _ _
  | failed reported => exact Run.ends_fail reported
  | followed next => exact below _ next
  | list next => exact Run.Ends.map (below _ next)
  | map events next => exact Run.Ends.map (Run.Ends.after (below _ next) events)
  | object shape => exact Run.Ends.map (addProperties_ends below (.object shape))
  | @composition _ hint _ shape =>
    refine Run.Ends.map (Run.ends_foldlM ?_)
    rintro ⟨member, position⟩ message reaches
    have here := reaches.mono fun _ _ => addMember_enough _ _ _
    cases stands : memberObject scope.document hint (position + 1)
      (freshPointers scope.document member) member with
    | error error =>
      have ends := memberObject_ends scope.document hint (position + 1)
        (freshPointers scope.document member) member
      simp only [addMember, stands] at ends ⊢
      exact Run.ends_fail ((Run.avoids_error _ _).mp ends)
    | ok object =>
      rw [addMember_of_stands stands]
      exact addProperties_ends below (.member (.member shape here stands))
  | union shape =>
    refine Run.Ends.map (Run.ends_foldlM fun alternative message reaches => ?_)
    have here := reaches.mono fun _ _ => addAlternative_enough _ _ _
    refine Run.Ends.bind (below _ (.alternative shape here)) fun type => ?_
    dsimp only
    split
    · exact Run.ends_fail rfl
    · exact Run.avoids_ok _ _

theorem run_ends {visit : Visit}
    (below : ∀ inner, Next scope visit inner → (inner.run scope).Ends) :
    (visit.run scope).Ends := by
  -- one number of steps is enough for all nodes that the visit leads to
  obtain ⟨nodes, _, self, closed⟩ := scope.document.exists_closed visit.node
  have listed (reference : Reference) (inside : .ref reference ∈ nodes) :
      reference.pointer ∈ nodes.filterMap Node.pointer? :=
    List.mem_filterMap.mpr ⟨_, inside, rfl⟩
  have few (following : List String) :
      ((nodes.filterMap Node.pointer?).filter (· ∉ following)).length ≤ nodes.length :=
    Nat.le_trans (List.length_filter_le _ _) (List.length_filterMap_le _ _)
  have ends : (visit.within scope (nodes.length * nodes.length + nodes.length + 1)).Ends := by
    refine within_ends fun inner next => ?_
    have inside : inner.node ∈ nodes := next.inside closed self
    exact EndsFollowing.of_count closed listed (few _) inside
      (endsFollowing_of_ends (below inner next)) inner.hint
  exact ends_declareOnward ends

/-- With every visit there is a step less. -/
theorem acc_of_within {visit : Visit} {steps : Nat} (ends : (visit.within scope steps).Ends) :
    Acc (fun inner visit => Next scope visit inner) visit := by
  induction steps generalizing visit with
  | zero => exact absurd ends (not_ends_zero _ _ _)
  | succ steps induction =>
    exact ⟨_, fun inner next => induction ((next.through_within ends).ends ends)⟩

/-- A visit ends exactly if no infinite chain of visits starts from it. -/
theorem ends_iff_acc {visit : Visit} :
    (visit.run scope).Ends ↔ Acc (fun inner visit => Next scope visit inner) visit := by
  refine ⟨fun ends => acc_of_within ends, fun acc => ?_⟩
  induction acc with
  | intro visit _ induction => exact run_ends induction

end Visit

end Protoschema
