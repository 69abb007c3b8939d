import Mathlib.Data.List.Forall2
import Protoschema.Decl.OfNode
import Protoschema.Proofs.Nodes
/-!
Two ways of declaring that agree. A congruence is a relation between runs that going on with related
runs keeps; equality is one, and so is equality up to a kind of failure. The main result,
`declareShape_agree`, says that one level of declaring keeps every congruence: if two schemas have
the same keywords and related inner nodes, and the levels below are related, then so are the runs.
-/

namespace Protoschema

namespace Run

theorem forM_note (names : List String) (event : String → Event) :
    (names.forM fun name => note (event name)) = ⟨names.map event, .ok ()⟩ := by
  induction names with
  | nil => rfl
  | cons name rest induction =>
    rw [List.forM, induction]
    rfl

/-- A relation between runs that is kept by going on from related runs. -/
structure Congruence where
  Rel : {α : Type} → Run α → Run α → Prop
  refl : ∀ {α : Type} (run : Run α), Rel run run
  bind : ∀ {α β : Type} {run run' : Run α} {next next' : α → Run β}, Rel run run' →
    (∀ value, Rel (next value) (next' value)) → Rel (run >>= next) (run' >>= next')

/-- Equality of runs. -/
def Congruence.equality : Congruence where
  Rel := Eq
  refl _ := rfl
  bind := by
    intro α β run run' next next' same sameNext
    rw [same, funext sameNext]

namespace Congruence

variable (c : Congruence) {α β γ : Type}

theorem map (f : α → β) {run run' : Run α} (related : c.Rel run run') :
    c.Rel (f <$> run) (f <$> run') :=
  c.bind related fun value => c.refl (pure (f value))

/-- Folds with related steps over related lists are related. -/
theorem foldlM {ρ : β → γ → Prop} {step : α → β → Run α} {step' : α → γ → Run α}
    (steps : ∀ state item item', ρ item item' → c.Rel (step state item) (step' state item'))
    {items : List β} {items' : List γ} (pairs : List.Forall₂ ρ items items') (state : α) :
    c.Rel (items.foldlM step state) (items'.foldlM step' state) := by
  induction pairs generalizing state with
  | nil => exact c.refl _
  | cons pair _ induction =>
    simp only [List.foldlM_cons]
    exact c.bind (steps state _ _ pair) induction

end Congruence

end Run

/-! ### Lists that are related -/

theorem exists_of_mem_right {α β : Type} {ρ : α → β → Prop} {items : List α}
    {items' : List β} (pairs : List.Forall₂ ρ items items') {item' : β} (member : item' ∈ items') :
    ∃ item ∈ items, ρ item item' := by
  induction pairs with
  | nil => cases member
  | cons pair _ induction =>
    rcases List.mem_cons.mp member with rfl | later
    · exact ⟨_, List.mem_cons_self, pair⟩
    · obtain ⟨item, inside, related⟩ := induction later
      exact ⟨item, List.mem_cons_of_mem _ inside, related⟩

theorem exists_of_mem_left {α β : Type} {ρ : α → β → Prop} {items : List α} {items' : List β}
    (pairs : List.Forall₂ ρ items items') {item : α} (member : item ∈ items) :
    ∃ item' ∈ items', ρ item item' :=
  exists_of_mem_right (List.Forall₂.flip (R := flip ρ) pairs) member

theorem exists_forall₂ {α β : Type} {ρ : α → β → Prop} {items : List α}
    (each : ∀ item ∈ items, ∃ value, ρ item value) : ∃ values, List.Forall₂ ρ items values := by
  induction items with
  | nil => exact ⟨[], .nil⟩
  | cons item rest induction =>
    obtain ⟨value, related⟩ := each item List.mem_cons_self
    obtain ⟨values, pairs⟩ :=
      induction fun other member => each other (List.mem_cons_of_mem _ member)
    exact ⟨value :: values, .cons related pairs⟩

section Mapped

variable {α β γ ε : Type} {f : α → Except ε β} {items : List α}

/-- All items are mapped exactly if each of them is, to the value in its place. -/
theorem mapM_ok_iff {values : List β} :
    items.mapM f = .ok values ↔
      List.Forall₂ (fun item value => f item = .ok value) items values := by
  induction items generalizing values with
  | nil => simp [pure, Except.pure, eq_comm]
  | cons item rest induction =>
    rw [List.mapM_cons, List.forall₂_cons_left_iff]
    cases first : f item with
    | error error => simp [bind, Except.bind]
    | ok value =>
      cases others : rest.mapM f with
      | error error => simp [bind, Except.bind, ← induction, others]
      | ok later => simp [bind, Except.bind, pure, Except.pure, ← induction, others, eq_comm]

theorem map_of_mapM {ofValue : β → γ} {ofItem : α → γ}
    (kept : ∀ item value, f item = .ok value → ofValue value = ofItem item) {values : List β}
    (mapped : items.mapM f = .ok values) : values.map ofValue = items.map ofItem := by
  rw [← List.forall₂_eq_eq_eq, List.forall₂_map_left_iff, List.forall₂_map_right_iff]
  exact ((mapM_ok_iff.mp mapped).imp kept).flip

/-- All items are mapped, to values with a property, exactly when each of them is. -/
theorem exists_mapM_iff {P : β → Prop} :
    (∃ values, items.mapM f = .ok values ∧ ∀ value ∈ values, P value) ↔
      ∀ item ∈ items, ∃ value, f item = .ok value ∧ P value := by
  constructor
  · rintro ⟨values, mapped, all⟩ item member
    obtain ⟨value, inside, same⟩ := exists_of_mem_left (mapM_ok_iff.mp mapped) member
    exact ⟨value, same, all value inside⟩
  · intro each
    obtain ⟨values, pairs⟩ := exists_forall₂ each
    refine ⟨values, mapM_ok_iff.mpr (pairs.imp fun _ _ => And.left), fun value member => ?_⟩
    obtain ⟨item, _, _, holds⟩ := exists_of_mem_right pairs member
    exact holds

end Mapped

/-! ### Schemas that agree -/

/-- Two outcomes of the same kind: the same error, or related values. -/
inductive Outcomes {α β : Type} (ρ : α → β → Prop) :
    Except SchemaError α → Except SchemaError β → Prop
  | ok {value : α} {value' : β} : ρ value value' → Outcomes ρ (.ok value) (.ok value')
  | error (error : SchemaError) : Outcomes ρ (.error error) (.error error)

theorem Outcomes.mono {α β : Type} {ρ σ : α → β → Prop} {outcome : Except SchemaError α}
    {outcome' : Except SchemaError β} (outcomes : Outcomes ρ outcome outcome')
    (weaker : ∀ value value', ρ value value' → σ value value') : Outcomes σ outcome outcome' := by
  cases outcomes with
  | ok related => exact .ok (weaker _ _ related)
  | error error => exact .error error

/-- Two additional parts of the same kind: the same flag, or related nodes. -/
inductive Additional.Agree {ν μ : Type} (ρ : ν → μ → Prop) : Additional ν → Additional μ → Prop
  | flag (value : Bool) : Agree ρ (.flag value) (.flag value)
  | node {value : ν} {value' : μ} : ρ value value' → Agree ρ (.node value) (.node value')

/-- Schemas with the same keywords and related inner nodes. Properties are compared name by name;
of their order only the warnings about unlisted ones may tell. -/
structure Schema.Agree (c : Run.Congruence) (ρ : Node → Node → Prop)
    (schema schema' : Schema Node) : Prop where
  type : schema.type = schema'.type
  format : schema.format = schema'.format
  description : schema.description = schema'.description
  property : ∀ name, Option.Rel ρ (Entries.get? schema.properties name)
    (Entries.get? schema'.properties name)
  bare : schema.properties = [] ↔ schema'.properties = []
  ordered : schema.orderedNames = schema'.orderedNames
  unlisted : ∀ text : String → String,
    c.Rel ((unordered schema).forM fun property => Run.note (.warned (text property)))
      ((unordered schema').forM fun property => Run.note (.warned (text property)))
  items : Option.Rel ρ schema.items schema'.items
  allOf : List.Forall₂ ρ schema.allOf schema'.allOf
  oneOf : List.Forall₂ ρ schema.oneOf schema'.oneOf
  additional : Option.Rel (Additional.Agree ρ) schema.additional schema'.additional
  values : schema.values = schema'.values

/-- A schema agrees with itself as far as its inner nodes are related to themselves. -/
theorem Schema.Agree.of_children (c : Run.Congruence) {ρ : Node → Node → Prop}
    {schema : Schema Node} (children : ∀ child ∈ schema.children, ρ child child) :
    schema.Agree c ρ schema where
  type := rfl
  format := rfl
  description := rfl
  property name := by
    cases found : Entries.get? schema.properties name with
    | none => exact .none
    | some node =>
      exact .some (children node (mem_children_of_property (Entries.mem_of_get? found)))
  bare := Iff.rfl
  ordered := rfl
  unlisted _ := c.refl _
  items := by
    cases found : schema.items with
    | none => exact .none
    | some node => exact .some (children node (mem_children_of_items found))
  allOf := List.forall₂_same.mpr fun node member => children node (mem_children_of_allOf member)
  oneOf := List.forall₂_same.mpr fun node member => children node (mem_children_of_oneOf member)
  additional := by
    cases found : schema.additional with
    | none => exact .none
    | some additional =>
      cases additional with
      | flag value => exact .some (.flag value)
      | node value => exact .some (.node (children value (mem_children_of_additional found)))
  values := rfl

/-- Two shapes of the same kind, of one schema and of another. -/
inductive Shape.Alike (ρ : Node → Node → Prop) (schema schema' : Schema Node) : Shape → Shape → Prop
  | union : Alike ρ schema schema' (.union schema) (.union schema')
  | composition : Alike ρ schema schema' (.composition schema) (.composition schema')
  | openMap {additional additional' : Additional Node} : additional.Agree ρ additional' →
      Alike ρ schema schema' (.openMap schema additional) (.openMap schema' additional')
  | object : Alike ρ schema schema' (.object schema) (.object schema')
  | array : Alike ρ schema schema' (.array schema) (.array schema')
  | enum (values : List Json.Value) :
      Alike ρ schema schema' (.enum schema values) (.enum schema' values)
  | scalar : Alike ρ schema schema' (.scalar schema) (.scalar schema')

theorem Shape.Alike.declares {ρ : Node → Node → Prop} {schema schema' : Schema Node}
    {shape shape' : Shape} (alike : Alike ρ schema schema' shape shape') :
    shape.declares = shape'.declares := by
  cases alike <;> rfl

/-- Schemas that agree are of the same shape. -/
theorem Schema.Agree.shape {c : Run.Congruence} {ρ : Node → Node → Prop}
    {schema schema' : Schema Node} (agree : schema.Agree c ρ schema') :
    Shape.Alike ρ schema schema' (Shape.ofSchema schema) (Shape.ofSchema schema') := by
  have unions : schema.oneOf = [] ↔ schema'.oneOf = [] := by
    rw [← List.length_eq_zero_iff, agree.oneOf.length_eq, List.length_eq_zero_iff]
  have compositions : schema.allOf = [] ↔ schema'.allOf = [] := by
    rw [← List.length_eq_zero_iff, agree.allOf.length_eq, List.length_eq_zero_iff]
  have additional := agree.additional
  -- the keywords are asked in the order of precedence, and answer alike for both schemas
  unfold Shape.ofSchema
  by_cases union : schema.oneOf = []
  · rw [if_neg (not_not.mpr union), if_neg (not_not.mpr (unions.mp union))]
    by_cases composition : schema.allOf = []
    · rw [if_neg (not_not.mpr composition), if_neg (not_not.mpr (compositions.mp composition)),
        ← agree.type, ← agree.values]
      cases found : schema.additional <;> cases found' : schema'.additional <;>
        rw [found, found'] at additional <;> cases additional
      · split
        · simp_all
        · exact .object
        · exact .array
        · exact .enum _
        · exact .enum _
        · exact .scalar
      next parts => exact .openMap parts
    · rw [if_pos composition, if_pos (mt compositions.mpr composition)]
      exact .composition
  · rw [if_pos union, if_pos (mt unions.mpr union)]
    exact .union

/-- The shape of a schema is one of the schema itself. -/
theorem Shape.alike_self (schema : Schema Node) :
    Alike Eq schema schema (Shape.ofSchema schema) (Shape.ofSchema schema) :=
  (Schema.Agree.of_children .equality fun _ _ => rfl).shape

theorem Shape.additional_of_openMap {schema schema' : Schema Node} {additional : Additional Node}
    (shape : Shape.ofSchema schema = .openMap schema' additional) :
    schema.additional = some additional := by
  unfold ofSchema at shape
  split at shape
  · cases shape
  · split at shape
    · cases shape
    · split at shape <;> cases shape
      assumption

/-- Members of compositions that stand for objects that agree, or fail alike. -/
def MembersAgree (c : Run.Congruence) (ρ : Node → Node → Prop) (document document' : Document)
    (node node' : Node) : Prop :=
  ∀ hint position, Outcomes (Schema.Agree c ρ)
    (memberObject document hint position (freshPointers document node) node)
    (memberObject document' hint position (freshPointers document' node') node')

/-! ### One level of declaring -/

section Levels

variable {c : Run.Congruence} {ρ : Node → Node → Prop} {scope scope' : Scope}
  {declare declare' : Declarer}

theorem declareArray_agree (below : ∀ hint node node', ρ node node' →
      c.Rel (declare hint node) (declare' hint node'))
    (hint : String) {schema schema' : Schema Node} (agree : schema.Agree c ρ schema') :
    c.Rel (declareArray declare hint schema) (declareArray declare' hint schema') := by
  have items := agree.items
  unfold declareArray
  cases found : schema.items <;> cases found' : schema'.items <;> rw [found, found'] at items <;>
    cases items
  · exact c.refl _
  next related => exact c.bind (below _ _ _ related) fun _ => c.refl _

theorem declareOpenMap_agree (below : ∀ hint node node', ρ node node' →
      c.Rel (declare hint node) (declare' hint node'))
    (hint : String) {schema schema' : Schema Node} (agree : schema.Agree c ρ schema')
    {additional additional' : Additional Node} (parts : additional.Agree ρ additional') :
    c.Rel (declareOpenMap declare hint schema additional)
      (declareOpenMap declare' hint schema' additional') := by
  unfold declareOpenMap
  rw [Schema.typeName, Schema.typeName, agree.type]
  split
  · exact c.refl _
  · cases parts with
    | flag value => exact c.refl _
    | node related =>
      -- the same goes on with and without a warning in front
      have rest : c.Rel
          (declare (elementHint hint) _ >>= fun value =>
            pure (Decl.map hint "string" (value.boxed (elementHint hint) none)))
          (declare' (elementHint hint) _ >>= fun value =>
            pure (Decl.map hint "string" (value.boxed (elementHint hint) none))) :=
        c.bind (below _ _ _ related) fun _ => c.refl _
      dsimp only
      by_cases bare : schema.properties = []
      · rw [if_neg (not_not.mpr bare), if_neg (not_not.mpr (agree.bare.mp bare))]
        exact rest
      · rw [if_pos bare, if_pos (mt agree.bare.mpr bare)]
        exact c.bind (c.refl _) fun _ => rest

theorem addAlternative_agree (below : ∀ hint node node', ρ node node' →
      c.Rel (declare hint node) (declare' hint node'))
    (described : ∀ node node', ρ node node' → node.description = node'.description)
    (hint : String) (message : Message Decl) {node node' : Node} (related : ρ node node') :
    c.Rel (addAlternative declare hint message node)
      (addAlternative declare' hint message node') := by
  simp only [addAlternative, described _ _ related]
  exact c.bind (below _ _ _ related) fun _ => c.refl _

theorem addProperty_agree (below : ∀ hint node node', ρ node node' →
      c.Rel (declare hint node) (declare' hint node'))
    (described : ∀ node node', ρ node node' → node.description = node'.description)
    {schema schema' : Schema Node} (agree : schema.Agree c ρ schema') (message : Message Decl)
    (property : String) :
    c.Rel (addProperty declare schema message property)
      (addProperty declare' schema' message property) := by
  have nodes := agree.property property
  unfold addProperty
  cases found : Entries.get? schema.properties property <;>
    cases found' : Entries.get? schema'.properties property <;> rw [found, found'] at nodes <;>
    cases nodes
  · exact c.refl _
  next related =>
    simp only [described _ _ related]
    split
    · exact c.refl _
    · exact c.bind (below _ _ _ related) fun _ => c.refl _

theorem addProperties_agree (below : ∀ hint node node', ρ node node' →
      c.Rel (declare hint node) (declare' hint node'))
    (described : ∀ node node', ρ node node' → node.description = node'.description)
    (message : Message Decl) {schema schema' : Schema Node} (agree : schema.Agree c ρ schema') :
    c.Rel (addProperties declare message schema) (addProperties declare' message schema') := by
  unfold addProperties
  refine c.bind (agree.unlisted _) fun _ => ?_
  rw [agree.ordered]
  refine c.foldlM (ρ := Eq) ?_ (List.forall₂_same.mpr fun _ _ => rfl) message
  rintro state property _ rfl
  exact addProperty_agree below described agree state property

theorem addMember_agree (below : ∀ hint node node', ρ node node' →
      c.Rel (declare hint node) (declare' hint node'))
    (described : ∀ node node', ρ node node' → node.description = node'.description)
    (hint : String) (message : Message Decl) {node node' : Node}
    (members : MembersAgree c ρ scope.document scope'.document node node') (position : Nat) :
    c.Rel (addMember scope declare hint message (node, position))
      (addMember scope' declare' hint message (node', position)) := by
  have objects := members hint (position + 1)
  simp only [addMember]
  generalize memberObject scope.document hint _ _ node = outcome at objects ⊢
  generalize memberObject scope'.document hint _ _ node' = outcome' at objects ⊢
  cases objects with
  | error error => exact c.refl _
  | ok agree => exact addProperties_agree below described message agree

private theorem forall₂_zipIdx {α β : Type} {σ : α → β → Prop} {items : List α} {items' : List β}
    (pairs : List.Forall₂ σ items items') (start : Nat) :
    List.Forall₂ (fun item item' => σ item.1 item'.1 ∧ item.2 = item'.2) (items.zipIdx start)
      (items'.zipIdx start) := by
  induction pairs generalizing start with
  | nil => exact .nil
  | cons pair _ induction => exact .cons ⟨pair, rfl⟩ (induction (start + 1))

/-- One level of declaring keeps a congruence: schemas that agree are declared by related runs if
their inner nodes are, and the objects that members of compositions stand for agree. -/
theorem declareShape_agree {declare declare' : List String → Declarer}
    {following following' : List String}
    (enumPrefix : scope.options.enumPrefix = scope'.options.enumPrefix)
    (below : ∀ hint node node', ρ node node' →
      c.Rel (declare following hint node) (declare' following' hint node'))
    (described : ∀ node node', ρ node node' → node.description = node'.description)
    (hint : String) {schema schema' : Schema Node} (agree : schema.Agree c ρ schema')
    (members : List.Forall₂ (MembersAgree c ρ scope.document scope'.document) schema.allOf
      schema'.allOf) :
    c.Rel (declareShape scope declare following hint (.inline schema))
      (declareShape scope' declare' following' hint (.inline schema')) := by
  have shapes := agree.shape
  unfold declareShape Shape.of
  dsimp only
  generalize Shape.ofSchema schema = shape at shapes ⊢
  generalize Shape.ofSchema schema' = shape' at shapes ⊢
  cases shapes with
  | union =>
    simp only [declareUnion, agree.description]
    refine c.map _ (c.foldlM ?_ agree.oneOf _)
    intro message node node' related
    exact addAlternative_agree below described hint message related
  | composition =>
    simp only [declareComposition, agree.description]
    refine c.map _ (c.foldlM ?_ (forall₂_zipIdx members 0) _)
    rintro message ⟨node, position⟩ ⟨node', _⟩ ⟨related, rfl⟩
    exact addMember_agree below described hint message related position
  | openMap parts => exact declareOpenMap_agree below hint agree parts
  | object =>
    simp only [declareObject, agree.description]
    exact c.map _ (addProperties_agree below described _ agree)
  | array => exact declareArray_agree below hint agree
  | enum values =>
    have same : declareEnum scope.options hint schema values
        = declareEnum scope'.options hint schema' values := by
      rw [declareEnum, declareEnum, Schema.typeName, Schema.typeName, agree.type,
        agree.description, enumPrefix]
    dsimp only
    rw [same]
    exact c.refl _
  | scalar =>
    have same : schema.scalar? = schema'.scalar? := by
      rw [Schema.scalar?, Schema.scalar?, agree.type, agree.format]
    dsimp only
    rw [same]
    exact c.refl _

end Levels

/-! ### Members of compositions -/

/-- What two references must share for what they stand for to be related: everything, and the places
that they are bound to hold related nodes. -/
structure Reference.Agree (ρ : Node → Node → Prop) (document document' : Document)
    (reference reference' : Reference) : Prop where
  pointer : reference.pointer = reference'.pointer
  description : reference.description = reference'.description
  binding : reference.binding = reference'.binding
  target : ∀ name target, reference.binding = some (.here name target) →
    Option.Rel ρ (document.lookup target) (document'.lookup target)

theorem Reference.Agree.mono {ρ σ : Node → Node → Prop} {document document' : Document}
    {reference reference' : Reference} (agree : reference.Agree ρ document document' reference')
    (weaker : ∀ node node', ρ node node' → σ node node') :
    reference.Agree σ document document' reference' where
  pointer := agree.pointer
  description := agree.description
  binding := agree.binding
  target name target bound := by
    have targets := agree.target name target bound
    generalize document.lookup target = found at targets ⊢
    generalize document'.lookup target = found' at targets ⊢
    cases targets with
    | none => exact .none
    | some related => exact .some (weaker _ _ related)

/-- Members that are related at each reference on the way stand for objects that agree. What has
been passed needs to be the same only among the pointers that can come up. -/
theorem memberObject_agree {c : Run.Congruence} {ρ σ : Node → Node → Prop}
    {document document' : Document}
    (ref : ∀ reference node', ρ (.ref reference) node' → ∃ reference', node' = .ref reference' ∧
      reference.Agree ρ document document' reference')
    (inline : ∀ schema node', ρ (.inline schema) node' → ∃ schema', node' = .inline schema' ∧
      schema.Agree c σ schema')
    (hint : String) (position : Nat) {node node' : Node} (related : ρ node node')
    {fresh fresh' : List String}
    (same : ∀ reference node', ρ (.ref reference) node' →
      (reference.pointer ∈ fresh ↔ reference.pointer ∈ fresh')) :
    Outcomes (Schema.Agree c σ) (memberObject document hint position fresh node)
      (memberObject document' hint position fresh' node') := by
  fun_induction memberObject document hint position fresh node generalizing node' fresh' with
  | case1 fresh schema object =>
    obtain ⟨schema', rfl, agree⟩ := inline _ _ related
    rw [memberObject, if_pos (agree.type ▸ object)]
    exact .ok agree
  | case2 fresh schema other =>
    obtain ⟨schema', rfl, agree⟩ := inline _ _ related
    rw [memberObject, if_neg (agree.type ▸ other), Schema.typeName, Schema.typeName, agree.type]
    exact .error _
  | case3 fresh reference unpassed name target bound next found induction =>
    obtain ⟨reference', rfl, agree⟩ := ref _ _ related
    have unpassed' := agree.pointer ▸ (same _ _ related).mp unpassed
    have targets := agree.target name target bound
    rw [found] at targets
    cases found' : document'.lookup target <;> rw [found'] at targets <;> cases targets
    next onward =>
      rw [memberObject, dif_pos unpassed', ← agree.binding, bound]
      dsimp only
      rw [found']
      -- the same pointer is passed on both sides
      refine induction onward fun other node' comes => ?_
      simp [without, same other node' comes, agree.pointer]
  | case4 fresh reference unpassed name target bound missing =>
    obtain ⟨reference', rfl, agree⟩ := ref _ _ related
    have unpassed' := agree.pointer ▸ (same _ _ related).mp unpassed
    have targets := agree.target name target bound
    rw [missing] at targets
    cases found' : document'.lookup target <;> rw [found'] at targets <;> cases targets
    rw [memberObject, dif_pos unpassed', ← agree.binding, bound]
    dsimp only
    rw [found', agree.pointer]
    exact .error _
  | case5 fresh reference unpassed package name path bound =>
    obtain ⟨reference', rfl, agree⟩ := ref _ _ related
    have unpassed' := agree.pointer ▸ (same _ _ related).mp unpassed
    rw [memberObject, dif_pos unpassed', ← agree.binding, bound,
      agree.pointer]
    exact .error _
  | case6 fresh reference unpassed unbound =>
    obtain ⟨reference', rfl, agree⟩ := ref _ _ related
    have unpassed' := agree.pointer ▸ (same _ _ related).mp unpassed
    rw [memberObject, dif_pos unpassed', ← agree.binding, unbound,
      agree.pointer]
    exact .error _
  | case7 fresh reference passed =>
    obtain ⟨reference', rfl, agree⟩ := ref _ _ related
    rw [memberObject, dif_neg (agree.pointer ▸ mt (same _ _ related).mpr passed), agree.pointer]
    exact .error _

/-! ### Declaring as a whole -/

/-- Two scopes in which related nodes have the same keywords, lead to related nodes, or link to
declarations by the same name. -/
structure Simulation (c : Run.Congruence) (ρ : Node → Node → Prop) (scope scope' : Scope) :
    Prop where
  renames : scope.options.renames = scope'.options.renames
  enumPrefix : scope.options.enumPrefix = scope'.options.enumPrefix
  ref : ∀ reference node', ρ (.ref reference) node' → ∃ reference', node' = .ref reference' ∧
    reference.Agree (fun node node' => (Shape.of node).declares ∧ (Shape.of node').declares ∨
      ρ node node') scope.document scope'.document reference'
  inline : ∀ schema node', ρ (.inline schema) node' → ∃ schema', node' = .inline schema' ∧
    schema.Agree c ρ schema' ∧
    List.Forall₂ (MembersAgree c ρ scope.document scope'.document) schema.allOf schema'.allOf

namespace Simulation

variable {c : Run.Congruence} {ρ : Node → Node → Prop} {scope scope' : Scope}

theorem description (simulation : Simulation c ρ scope scope') (node node' : Node)
    (related : ρ node node') : node.description = node'.description := by
  cases node with
  | ref reference =>
    obtain ⟨reference', rfl, agree⟩ := simulation.ref _ _ related
    exact agree.description
  | inline schema =>
    obtain ⟨schema', rfl, agree, _⟩ := simulation.inline _ _ related
    exact agree.description

theorem declares (simulation : Simulation c ρ scope scope') {node node' : Node}
    (related : ρ node node') : (Shape.of node).declares = (Shape.of node').declares := by
  cases node with
  | ref reference =>
    obtain ⟨reference', rfl, _⟩ := simulation.ref _ _ related
    rfl
  | inline schema =>
    obtain ⟨schema', rfl, agree, _⟩ := simulation.inline _ _ related
    exact agree.shape.declares

theorem declareReference_rel (simulation : Simulation c ρ scope scope')
    {declare declare' : List String → Declarer}
    (below : ∀ following hint node node', ρ node node' →
      c.Rel (declare following hint node) (declare' following hint node'))
    (following : List String) (hint : String) {reference reference' : Reference}
    (agree : reference.Agree (fun node node' =>
      (Shape.of node).declares ∧ (Shape.of node').declares ∨ ρ node node') scope.document
      scope'.document reference') :
    c.Rel (declareReference scope declare following hint reference)
      (declareReference scope' declare' following hint reference') := by
  have guesses : guess reference = guess reference' := by rw [guess, guess, agree.pointer]
  unfold declareReference
  rw [← agree.binding]
  split
  next package name importPath bound =>
    rw [Options.packageName, Options.packageName, simulation.renames]
    exact c.refl _
  next name target bound =>
    have targets := agree.target name target bound
    cases found : scope.document.lookup target <;> cases found' : scope'.document.lookup target <;>
      rw [found, found'] at targets <;> cases targets
    · dsimp only
      rw [guesses]
      exact c.refl _
    next related =>
      dsimp only
      -- a link needs no more than that both nodes have declarations
      rcases related with ⟨declares, declares'⟩ | related
      · rw [if_pos declares, if_pos declares']
        exact c.refl _
      · rw [simulation.declares related, agree.pointer]
        split
        · exact c.refl _
        · split
          · exact c.refl _
          · exact below _ _ _ _ related
  next unbound =>
    rw [guesses]
    exact c.refl _

/-- Related nodes are declared by related runs, within as many steps. -/
theorem declareWithin_rel (simulation : Simulation c ρ scope scope') (steps : Nat)
    (following : List String) (hint : String) {node node' : Node} (related : ρ node node') :
    c.Rel (declareWithin scope steps following hint node)
      (declareWithin scope' steps following hint node') := by
  induction steps generalizing following hint node node' with
  | zero => exact c.refl _
  | succ steps induction =>
    simp only [declareWithin]
    cases node with
    | ref reference =>
      obtain ⟨reference', rfl, agree⟩ := simulation.ref _ _ related
      exact simulation.declareReference_rel (fun following hint _ _ => induction following hint)
        following hint agree
    | inline schema =>
      obtain ⟨schema', rfl, agree, members⟩ := simulation.inline _ _ related
      exact declareShape_agree simulation.enumPrefix (fun hint _ _ => induction following hint)
        simulation.description hint agree members

/-- Nodes that two documents share are declared alike, if what they hold is shared, if what they
refer to is shared or linked by name on both sides, and if the members of their compositions are
`clear`: what these stand for is shared as well, reference by reference. -/
theorem of_shared {shared : Node → Prop} (clear : Node → Prop)
    (renames : scope.options.renames = scope'.options.renames)
    (enumPrefix : scope.options.enumPrefix = scope'.options.enumPrefix)
    (child : ∀ schema, shared (.inline schema) → ∀ node ∈ schema.children, shared node)
    (reference : ∀ reference, shared (.ref reference) → reference.Agree (fun node node' =>
      (Shape.of node).declares ∧ (Shape.of node').declares ∨ node = node' ∧ shared node)
      scope.document scope'.document reference)
    (member : ∀ schema, shared (.inline schema) → ∀ node ∈ schema.allOf, clear node)
    (copied : ∀ schema, clear (.inline schema) → shared (.inline schema))
    (onward : ∀ reference, clear (.ref reference) → reference.Agree
      (fun node node' => node = node' ∧ clear node) scope.document scope'.document reference)
    (fresh : ∀ reference, clear (.ref reference) → ∀ node,
      (reference.pointer ∈ freshPointers scope.document node ↔
        reference.pointer ∈ freshPointers scope'.document node)) :
    Simulation .equality (fun node node' => node = node' ∧ shared node) scope scope' where
  renames := renames
  enumPrefix := enumPrefix
  ref := by
    rintro source _ ⟨rfl, inside⟩
    exact ⟨source, rfl, reference source inside⟩
  inline := by
    have agree (schema : Schema Node) (inside : shared (.inline schema)) :
        schema.Agree .equality (fun node node' => node = node' ∧ shared node) schema :=
      .of_children _ fun node listed => ⟨rfl, child schema inside node listed⟩
    rintro schema _ ⟨rfl, inside⟩
    refine ⟨schema, rfl, agree schema inside, List.forall₂_same.mpr ?_⟩
    intro node listed hint position
    refine memberObject_agree (ρ := fun node node' => node = node' ∧ clear node) ?_ ?_ hint position
      ⟨rfl, member schema inside node listed⟩ ?_
    · rintro source _ ⟨rfl, inside⟩
      exact ⟨source, rfl, onward source inside⟩
    · rintro object _ ⟨rfl, inside⟩
      exact ⟨object, rfl, agree object (copied object inside)⟩
    · rintro source _ ⟨_, inside⟩
      exact fresh source inside node

end Simulation

end Protoschema
