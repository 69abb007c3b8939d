import Protoschema.Decl.OfNode
import Protoschema.Proofs.Agreement
/-!
What holds of everything that is declared. A `DeclInvariant` says what holds of the types that nodes
become and of the messages that are built up field by field, and that each way of making one keeps
it. The main result, `DeclInvariant.declareWithin_ensures`, carries it through the recursion.
-/

namespace Protoschema

namespace Run

variable {α β γ : Type}

/-- If a run succeeds, its value has a property. -/
def Ensures (post : α → Prop) (run : Run α) : Prop :=
  ∀ value, run.outcome = .ok value → post value

theorem ensures_ok {post : α → Prop} {events : List Event} {value : α} (holds : post value) :
    (⟨events, .ok value⟩ : Run α).Ensures post := by
  rintro _ ⟨⟩
  exact holds

theorem ensures_fail {post : α → Prop} (error : SchemaError) :
    (Run.fail error : Run α).Ensures post := by
  rintro _ ⟨⟩

theorem Ensures.bind {pre : α → Prop} {post : β → Prop} {run : Run α} {next : α → Run β}
    (first : run.Ensures pre) (later : ∀ value, pre value → (next value).Ensures post) :
    (run >>= next).Ensures post := by
  obtain ⟨events, error | value⟩ := run
  · rintro _ ⟨⟩
  · exact fun result succeeded => later value (first value rfl) result succeeded

/-- What holds whatever a run goes on from. -/
theorem ensures_bind {post : β → Prop} {run : Run α} {next : α → Run β}
    (later : ∀ value, (next value).Ensures post) : (run >>= next).Ensures post :=
  Ensures.bind (fun _ _ => trivial) fun value (_ : True) => later value

theorem Ensures.map {pre : α → Prop} {post : β → Prop} {run : Run α} {f : α → β}
    (first : run.Ensures pre) (kept : ∀ value, pre value → post (f value)) :
    (f <$> run).Ensures post :=
  first.bind fun value holds => ensures_ok (kept value holds)

/-! ### Loops -/

/-- A loop comes to an item in some state, since it succeeds on all items before. -/
def LoopReaches (step : α → γ → Run α) (items : List γ) (start : α) (item : γ) (state : α) : Prop :=
  ∃ before after, items = before ++ item :: after ∧ (before.foldlM step start).outcome = .ok state

section Loops

variable {step : α → γ → Run α} {items : List γ} {start state : α} {item : γ}

theorem LoopReaches.mem (reaches : LoopReaches step items start item state) : item ∈ items := by
  obtain ⟨before, after, rfl, _⟩ := reaches
  simp

theorem LoopReaches.first (rest : List γ) : LoopReaches step (item :: rest) start item start :=
  ⟨[], rest, rfl, rfl⟩

theorem LoopReaches.cons {middle : α} {other : γ} (taken : (step start other).outcome = .ok middle)
    (reaches : LoopReaches step items middle item state) :
    LoopReaches step (other :: items) start item state := by
  obtain ⟨before, after, rfl, outcome⟩ := reaches
  refine ⟨other :: before, after, rfl, ?_⟩
  rw [List.foldlM_cons]
  generalize step start other = run at taken
  obtain ⟨events, _⟩ := run
  obtain rfl : _ = Except.ok middle := taken
  exact outcome

/-- A loop keeps what is kept by each step that it comes to. -/
theorem ensures_foldlM_of_reaches {invariant : α → Prop} (holds : invariant start)
    (steps : ∀ item state, LoopReaches step items start item state → invariant state →
      (step state item).Ensures invariant) :
    (items.foldlM step start).Ensures invariant := by
  induction items generalizing start with
  | nil => exact ensures_ok holds
  | cons item rest induction =>
    rw [List.foldlM_cons]
    have first : (step start item).Ensures fun middle =>
        (step start item).outcome = .ok middle ∧ invariant middle :=
      fun middle taken => ⟨taken, steps item start (.first rest) holds middle taken⟩
    refine first.bind fun middle ⟨taken, kept⟩ => induction kept ?_
    exact fun other state reaches => steps other state (.cons taken reaches)

end Loops

theorem ensures_foldlM {invariant : α → Prop} {step : α → γ → Run α} (items : List γ)
    (steps : ∀ state item, invariant state → (step state item).Ensures invariant) {state : α}
    (start : invariant state) : (items.foldlM step state).Ensures invariant :=
  ensures_foldlM_of_reaches start fun item state _ => steps state item

end Run

/-! ### Top-level schemas -/

/-- What a top-level node becomes is boxed if it cannot stand alone. -/
theorem declareTopLevel_ensures (scope : Scope) (name : String) (node : Node) :
    (declareTopLevel scope name node).Ensures fun decl =>
      ∃ type, (declare scope name node).outcome = .ok type ∧
        decl = type.boxed name node.description := by
  have become : (declare scope name node).Ensures fun type =>
      (declare scope name node).outcome = .ok type := fun _ => id
  refine become.bind fun type become => ?_
  split
  next shape loose =>
    split
    · exact Run.ensures_ok ⟨type, become, rfl⟩
    · exact Run.ensures_fail _
  next alone =>
    -- what can stand alone is left as it is by boxing
    have same : type = type.boxed name node.description := by
      cases type <;> first | rfl | cases alone
    exact Run.ensures_ok ⟨type, become, same⟩

theorem Document.declareSchema_ok {document : Document} {options : Options} {name : String}
    {declared : Declared} (compiled : document.declareSchema options name = some (.ok declared)) :
    ∃ node type, document.schema? name = some node ∧
      (declare ⟨document, options⟩ name node).outcome = .ok type ∧
      declared.decl = type.boxed name node.description := by
  obtain ⟨node, found, outcome⟩ := Option.map_eq_some_iff.mp compiled
  have ensures := declareTopLevel_ensures ⟨document, options⟩ name node
  generalize declareTopLevel ⟨document, options⟩ name node = run at ensures outcome
  obtain ⟨events, error | decl⟩ := run
  · cases outcome
  · cases outcome
    obtain ⟨type, become, same⟩ := ensures decl rfl
    exact ⟨node, type, found, become, same⟩

/-! ### Invariants -/

/-- What holds of types and messages however they are made. -/
structure DeclInvariant where
  /-- What holds of the type that a node becomes under a hint. -/
  type : String → Decl → Prop
  /-- What holds of the message of an object or a composition while it is built. -/
  message : Message Decl → Prop
  /-- What holds of the message of a union while it is built. -/
  union : Message Decl → Prop
  named : ∀ hint name, type hint (.named name)
  /-- An enum's values carry nothing in front, or the lead of its own name. -/
  enum : ∀ body : Enum, (∀ lead ∈ body.lead, lead = enumLead body.name) →
    type body.name (.enum body)
  list : ∀ hint item, type (elementHint hint) item →
    type hint (.repeated (item.boxed (elementHint hint) none))
  map : ∀ hint value, type (elementHint hint) value →
    type hint (.map hint "string" (value.boxed (elementHint hint) none))
  noField : ∀ name comment, message ⟨name, [], [], comment⟩
  property : ∀ body name type' comment, message body → body.hasField name = false →
    type (propertyHint body.name name) type' → message (body.addField name type' comment)
  ofMessage : ∀ body : Message Decl, message body → type body.name (.message body)
  noAlternative : ∀ name comment, union ⟨name, [], [], comment⟩
  /-- The field of an alternative is named after its type. -/
  alternative : ∀ body name type' comment, union body → body.hasField name = false →
    name = Ident.unqualified (type'.boxed alternativeHint none).name ++ "Value" →
    type alternativeHint type' →
    union (body.addField name (type'.boxed alternativeHint none) comment)
  ofUnion : ∀ body : Message Decl, union body → type body.name (.union body)

namespace DeclInvariant

variable (invariant : DeclInvariant)

section Levels

variable {scope : Scope} {declare : Declarer}
  (below : ∀ hint node, (declare hint node).Ensures (invariant.type hint))

include below

theorem addProperties_ensures {name : String} {body : Message Decl} (start : invariant.message body)
    (named : body.name = name) (schema : Schema Node) :
    (addProperties declare body schema).Ensures fun body =>
      invariant.message body ∧ body.name = name := by
  rw [addProperties, Run.forM_note]
  -- the name is carried along, because properties are declared under it
  refine Run.ensures_bind fun _ => Run.ensures_foldlM _ ?_ ⟨start, named⟩
  rintro body property ⟨holds, named⟩
  unfold addProperty
  split
  · exact Run.ensures_fail _
  next node found =>
    cases taken : body.hasField property with
    | true => exact Run.ensures_ok ⟨holds, named⟩
    | false =>
      exact (below _ node).bind fun type declared =>
        Run.ensures_ok ⟨invariant.property body property type _ holds taken declared, named⟩

theorem declareObject_ensures (hint : String) (schema : Schema Node) :
    (declareObject declare hint schema).Ensures fun body =>
      invariant.message body ∧ body.name = hint :=
  invariant.addProperties_ensures below (invariant.noField hint schema.description) rfl schema

theorem declareComposition_ensures (hint : String) (schema : Schema Node) :
    (declareComposition scope declare hint schema).Ensures fun body =>
      invariant.message body ∧ body.name = hint := by
  refine Run.ensures_foldlM _ ?_ ⟨invariant.noField hint schema.description, rfl⟩
  rintro body member ⟨holds, named⟩
  exact Run.ensures_bind (invariant.addProperties_ensures below holds named)

theorem declareUnion_ensures (hint : String) (schema : Schema Node) :
    (declareUnion declare hint schema).Ensures fun body =>
      invariant.union body ∧ body.name = hint := by
  refine Run.ensures_foldlM _ ?_ ⟨invariant.noAlternative hint schema.description, rfl⟩
  rintro body node ⟨holds, named⟩
  refine (below alternativeHint node).bind fun type declared => ?_
  dsimp only
  split
  · exact Run.ensures_fail _
  next free =>
    refine Run.ensures_ok ⟨?_, named⟩
    exact invariant.alternative body _ type _ holds (by simpa using free) rfl declared

theorem declareOpenMap_ensures (hint : String) (schema : Schema Node)
    (additional : Additional Node) :
    (declareOpenMap declare hint schema additional).Ensures (invariant.type hint) := by
  unfold declareOpenMap
  split
  · exact Run.ensures_fail _
  · cases additional with
    | flag value => exact Run.ensures_fail _
    | node node =>
      have value : (declare (elementHint hint) node >>= fun value =>
          pure (Decl.map hint "string" (value.boxed (elementHint hint) none))).Ensures
          (invariant.type hint) :=
        (below _ node).bind fun value declared => Run.ensures_ok (invariant.map hint value declared)
      dsimp only
      split
      · exact Run.ensures_bind fun _ => value
      · exact value

omit below in
theorem declareReference_ensures {declare : List String → Declarer}
    (below : ∀ following hint node, (declare following hint node).Ensures (invariant.type hint))
    (following : List String) (hint : String) (reference : Reference) :
    (declareReference scope declare following hint reference).Ensures (invariant.type hint) := by
  unfold declareReference
  split
  · exact Run.ensures_ok (invariant.named _ _)
  · split
    · exact Run.ensures_ok (invariant.named _ _)
    · split
      · exact Run.ensures_ok (invariant.named _ _)
      · split
        · exact Run.ensures_fail _
        · exact below _ _ _
  · exact Run.ensures_ok (invariant.named _ _)

omit below in
theorem declareEnum_ensures (options : Options) (hint : String) (schema : Schema Node)
    (values : List Json.Value) :
    (declareEnum options hint schema values).Ensures (invariant.type hint) := by
  unfold declareEnum
  split
  · exact Run.ensures_fail _
  · split
    · exact Run.ensures_fail _
    · exact Run.ensures_fail _
    · refine Run.ensures_ok (invariant.enum ⟨hint, _, _, _⟩ ?_)
      intro lead carried
      split at carried
      · exact (Option.mem_some.mp carried).symm
      · cases carried

omit below in
/-- One level of declaring keeps an invariant that the levels below have. -/
theorem declareShape_ensures {declare : List String → Declarer}
    (below : ∀ following hint node, (declare following hint node).Ensures (invariant.type hint))
    (following : List String) (hint : String) (node : Node) :
    (declareShape scope declare following hint node).Ensures (invariant.type hint) := by
  unfold declareShape
  split
  next reference shape => exact invariant.declareReference_ensures below following hint reference
  next schema shape =>
    refine (invariant.declareUnion_ensures (below following) hint schema).map ?_
    rintro body ⟨holds, rfl⟩
    exact invariant.ofUnion body holds
  next schema shape =>
    refine (invariant.declareComposition_ensures (below following) hint schema).map ?_
    rintro body ⟨holds, rfl⟩
    exact invariant.ofMessage body holds
  next schema additional shape =>
    exact invariant.declareOpenMap_ensures (below following) hint schema additional
  next schema shape =>
    refine (invariant.declareObject_ensures (below following) hint schema).map ?_
    rintro body ⟨holds, rfl⟩
    exact invariant.ofMessage body holds
  next schema shape =>
    unfold declareArray
    split
    · exact Run.ensures_fail _
    next items found =>
      exact (below following _ items).bind fun item declared =>
        Run.ensures_ok (invariant.list hint item declared)
  next schema values shape => exact invariant.declareEnum_ensures scope.options hint schema values
  next schema shape =>
    split
    · exact Run.ensures_ok (invariant.named _ _)
    · exact Run.ensures_fail _

end Levels

/-- Whatever is declared has the invariant. -/
theorem declareWithin_ensures (scope : Scope) (steps : Nat) (following : List String)
    (hint : String) (node : Node) :
    (declareWithin scope steps following hint node).Ensures (invariant.type hint) := by
  induction steps generalizing following hint node with
  | zero => exact Run.ensures_fail _
  | succ steps induction => exact invariant.declareShape_ensures induction following hint node

theorem of_declareSchema {document : Document} {options : Options} {name : String}
    {declared : Declared} (compiled : document.declareSchema options name = some (.ok declared)) :
    ∃ type comment, invariant.type name type ∧ declared.decl = type.boxed name comment := by
  obtain ⟨node, type, _, become, same⟩ := Document.declareSchema_ok compiled
  exact ⟨type, _, invariant.declareWithin_ensures _ _ [] name node type become, same⟩

end DeclInvariant

/-! ### Messages at any depth -/

namespace Decl

/-- The declarations that a declaration owns. -/
def nested : Decl → List Decl
  | .message body | .union body => body.nested
  | .named _ | .enum _ | .map _ _ _ | .repeated _ => []

/-- A declaration is another one itself, or is nested in it at any depth. -/
inductive Encloses : Decl → Decl → Prop
  | self {decl : Decl} : Encloses decl decl
  | nested {outer middle inner : Decl} : middle ∈ outer.nested → Encloses middle inner →
      Encloses outer inner

/-- A message or union is a declaration itself, or nested in one at any depth. -/
def Contains (decl : Decl) (body : Message Decl) : Prop :=
  decl.Encloses (.message body) ∨ decl.Encloses (.union body)

theorem Contains.self_or_nested {decl : Decl} {body : Message Decl}
    (contains : decl.Contains body) :
    decl = .message body ∨ decl = .union body ∨ ∃ inner ∈ decl.nested, inner.Contains body := by
  rcases contains with encloses | encloses
  · cases encloses with
    | self => exact .inl rfl
    | nested member inside => exact .inr (.inr ⟨_, member, .inl inside⟩)
  · cases encloses with
    | self => exact .inr (.inl rfl)
    | nested member inside => exact .inr (.inr ⟨_, member, .inr inside⟩)

end Decl

/-- All messages and unions in some declarations have a property. -/
def AllBodies (fine : Message Decl → Prop) (decls : List Decl) : Prop :=
  ∀ decl ∈ decls, ∀ body, decl.Contains body → fine body

namespace AllBodies

variable {fine : Message Decl → Prop}

theorem append {decls decls' : List Decl} (all : AllBodies fine decls)
    (all' : AllBodies fine decls') : AllBodies fine (decls ++ decls') := by
  intro decl member
  rcases List.mem_append.mp member with first | second
  · exact all decl first
  · exact all' decl second

theorem message {body : Message Decl} (self : fine body) (nested : AllBodies fine body.nested) :
    AllBodies fine [.message body] := by
  intro decl member inner contains
  cases List.mem_singleton.mp member
  rcases contains.self_or_nested with same | same | ⟨_, inside, contains⟩
  · cases same
    exact self
  · cases same
  · exact nested _ inside inner contains

theorem union {body : Message Decl} (self : fine body) (nested : AllBodies fine body.nested) :
    AllBodies fine [.union body] := by
  intro decl member inner contains
  cases List.mem_singleton.mp member
  rcases contains.self_or_nested with same | same | ⟨_, inside, contains⟩
  · cases same
  · cases same
    exact self
  · exact nested _ inside inner contains

/-- What a declaration contains is in the declarations that its user owns. -/
theorem of_owned {decl : Decl} (owned : AllBodies fine decl.owned) : AllBodies fine [decl] := by
  intro decl' member
  cases List.mem_singleton.mp member
  cases decl with
  | message body => exact owned _ List.mem_cons_self
  | union body => exact owned _ List.mem_cons_self
  | named | enum | map | repeated =>
    intro body contains
    rcases contains.self_or_nested with same | same | ⟨_, inside, _⟩
    · cases same
    · cases same
    · cases inside

end AllBodies

/-- A property of messages that they have when they are empty and keep with every new field. -/
structure FieldInvariant where
  holds : Message Decl → Prop
  empty : ∀ name comment, holds ⟨name, [], [], comment⟩
  grows : ∀ body name type comment, holds body → body.hasField name = false →
    holds (body.addField name type comment)

namespace FieldInvariant

variable (invariant : FieldInvariant)

theorem addField {body : Message Decl} {name : String} {type : Decl} (comment : Option String)
    (all : invariant.holds body ∧ AllBodies invariant.holds body.nested)
    (free : body.hasField name = false) (owned : AllBodies invariant.holds type.owned) :
    invariant.holds (body.addField name type comment) ∧
      AllBodies invariant.holds (body.addField name type comment).nested :=
  ⟨invariant.grows body name type comment all.1 free, all.2.append owned⟩

theorem noNested : AllBodies invariant.holds [] :=
  fun _ member => absurd member List.not_mem_nil

theorem boxed (name : String) (comment : Option String) {decl : Decl}
    (owned : AllBodies invariant.holds decl.owned) :
    AllBodies invariant.holds (decl.boxed name comment).owned := by
  have box (label field : String) :
      AllBodies invariant.holds
        [.message (Message.addField ⟨label, [], [], comment⟩ field decl none)] := by
    have start := And.intro (invariant.empty label comment) invariant.noNested
    have free : Message.hasField (δ := Decl) ⟨label, [], [], comment⟩ field = false := rfl
    have all := invariant.addField none start free owned
    exact .message all.1 all.2
  cases decl with
  | repeated item => exact box _ _
  | map label key value => exact box _ _
  | named | enum | message | union => exact owned

/-- Such a property holds of all messages and unions that are declared. -/
def toDeclInvariant : DeclInvariant where
  type _ decl := AllBodies invariant.holds decl.owned
  message body := invariant.holds body ∧ AllBodies invariant.holds body.nested
  union body := invariant.holds body ∧ AllBodies invariant.holds body.nested
  named _ _ := invariant.noNested
  enum body _ decl member inner contains := by
    cases List.mem_singleton.mp member
    rcases contains.self_or_nested with same | same | ⟨_, inside, _⟩
    · cases same
    · cases same
    · cases inside
  list _ _ item := invariant.boxed _ _ item
  map _ _ value := invariant.boxed _ _ value
  noField name comment := ⟨invariant.empty name comment, invariant.noNested⟩
  property _ _ _ comment all free owned := invariant.addField comment all free owned
  ofMessage _ all := .message all.1 all.2
  noAlternative name comment := ⟨invariant.empty name comment, invariant.noNested⟩
  alternative _ _ _ comment all free _ owned :=
    invariant.addField comment all free (invariant.boxed _ _ owned)
  ofUnion _ all := .union all.1 all.2

theorem of_contains {document : Document} {options : Options} {name : String} {declared : Declared}
    (compiled : document.declareSchema options name = some (.ok declared)) {body : Message Decl}
    (contains : declared.decl.Contains body) : invariant.holds body := by
  obtain ⟨type, comment, owned, same⟩ := invariant.toDeclInvariant.of_declareSchema compiled
  have all := AllBodies.of_owned (invariant.boxed name comment owned)
  exact all _ List.mem_cons_self body (same ▸ contains)

end FieldInvariant

end Protoschema
