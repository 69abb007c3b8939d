import Protoschema.Proofs.Derivation
import Protoschema.Proofs.Invariants
/-!
Which references declaring comes across. A run keeps a log of events, but not where each of them
happened. `sightings` goes the way of a run once more and lists the references on it in order, each
with the top-level schema in whose tree it stands: a reference that is followed leads into the tree
of its target, and so does one that a member of a composition stands for.

The list is exact. `declareWithin_accounts` reads the events of a run off it, says that every type
name it stands for is found in what was declared, and finds on it the reference that was rejected as
unresolved.
-/

namespace Protoschema

/-- A reference that declaring comes across: the top-level schema in whose tree it stands, and
whether it was passed on the way from a member of a composition to the object behind it. All others
are declared in their place. -/
structure Sighting where
  owner : String
  reference : Reference
  asMember : Bool := false
deriving DecidableEq

/-- Lists the references that declaring a node under a hint comes across. -/
abbrev Spotter := String → Node → List Sighting

/-- The references between a member of a composition and its object, and the top-level schema in
whose tree that object stands. -/
def memberWay (document : Document) (owner : String) (fresh : List String) (node : Node) :
    List Sighting × String :=
  match node with
  | .inline _ => ([], owner)
  | .ref reference =>
    if _unpassed : reference.pointer ∈ fresh then
      match reference.binding with
      | some (.here _ target) =>
        match document.lookup target with
        | some next =>
          let (rest, home) :=
            memberWay document target.root (without fresh reference.pointer) next
          (⟨owner, reference, true⟩ :: rest, home)
        | none => ([⟨owner, reference, true⟩], owner)
      | _ => ([⟨owner, reference, true⟩], owner)
    else ([⟨owner, reference, true⟩], owner)
termination_by fresh.length
decreasing_by exact length_without_lt _unpassed

/-- What is come across when a run is gone on from; nothing if it fails. -/
def Run.onward {α : Type} (run : Run α) (seen : α → List Sighting) : List Sighting :=
  match run.outcome with
  | .ok value => seen value
  | .error _ => []

/-- What the steps of a fold come across, up to the first that fails. -/
def Run.trail {α β : Type} (step : α → β → Run α) (seen : α → β → List Sighting) :
    α → List β → List Sighting
  | _, [] => []
  | state, item :: rest =>
    seen state item ++ (step state item).onward fun next => trail step seen next rest

def propertySightings (spot : Spotter) (schema : Schema Node) (message : Message Decl)
    (property : String) : List Sighting :=
  match Entries.get? schema.properties property with
  | none => []
  | some node =>
    if message.hasField property then [] else spot (propertyHint message.name property) node

def objectSightings (declare : Declarer) (spot : Spotter) (message : Message Decl)
    (schema : Schema Node) : List Sighting :=
  Run.trail (addProperty declare schema) (propertySightings spot schema) message
    schema.orderedNames

def memberSightings (scope : Scope) (declare : Declarer) (spot : String → Spotter) (owner : String)
    (hint : String) (message : Message Decl) (member : Node × Nat) : List Sighting :=
  let fresh := freshPointers scope.document member.1
  let (way, home) := memberWay scope.document owner fresh member.1
  way ++ (Run.ofExcept (memberObject scope.document hint (member.2 + 1) fresh member.1)).onward
    (objectSightings declare (spot home) message)

def referenceSightings (scope : Scope) (spot : String → List String → Spotter) (owner : String)
    (following : List String) (hint : String) (reference : Reference) : List Sighting :=
  ⟨owner, reference, false⟩ ::
    match reference.binding with
    | some (.here _ target) =>
      match scope.document.lookup target with
      | some node =>
        if (Shape.of node).declares then []
        else if reference.pointer ∈ following then []
        else spot target.root (reference.pointer :: following) hint node
      | none => []
    | _ => []

def openMapSightings (spot : Spotter) (hint : String) (schema : Schema Node) :
    Additional Node → List Sighting
  | .flag _ => []
  | .node node => if schema.type = some .object then spot (elementHint hint) node else []

/-- What one level of declaring comes across, given the levels below. -/
def shapeSightings (scope : Scope) (declare : List String → Declarer)
    (spot : String → List String → Spotter) (owner : String) (following : List String)
    (hint : String) (node : Node) : List Sighting :=
  match Shape.of node with
  | .link reference => referenceSightings scope spot owner following hint reference
  | .union schema =>
    Run.trail (addAlternative (declare following) hint)
      (fun _ alternative => spot owner following alternativeHint alternative)
      { name := hint, comment := schema.description } schema.oneOf
  | .composition schema =>
    Run.trail (addMember scope (declare following) hint)
      (memberSightings scope (declare following) (fun home => spot home following) owner hint)
      { name := hint, comment := schema.description } schema.allOf.zipIdx
  | .openMap schema additional => openMapSightings (spot owner following) hint schema additional
  | .object schema =>
    objectSightings (declare following) (spot owner following)
      { name := hint, comment := schema.description } schema
  | .array schema => schema.items.toList.flatMap (spot owner following (elementHint hint))
  | .enum _ _ | .scalar _ => []

/-- The references that declaring a node within a number of nested steps comes across. -/
def sightingsWithin (scope : Scope) : Nat → String → List String → Spotter
  | 0, _, _, _, _ => []
  | steps + 1, owner, following, hint, node =>
    shapeSightings scope (declareWithin scope steps) (sightingsWithin scope steps) owner following
      hint node

/-- The references that declaring a top-level schema comes across, in order. -/
def Scope.sightings (scope : Scope) (name : String) (node : Node) : List Sighting :=
  sightingsWithin scope (stepBudget scope.document node) name [] name node

/-! ### What a reference is declared as -/

/-- The event and the type name for a reference that is declared in its place. One that is followed
has none of its own. -/
def Reference.standing? (scope : Scope) (reference : Reference) : Option (Event × String) :=
  let guessed := (Event.guessed reference.pointer,
    Ident.normalize (Pointer.lastName reference.pointer))
  match reference.binding with
  | some (.elsewhere package name path) =>
    some (.imported package path, scope.options.packageName package ++ "." ++ Ident.normalize name)
  | some (.here name target) =>
    match scope.document.lookup target with
    | none => some guessed
    | some node => if (Shape.of node).declares then some (.linked name target, name) else none
  | none => some guessed

def Sighting.standing? (scope : Scope) (sighting : Sighting) : Option (Event × String) :=
  if sighting.asMember then none else sighting.reference.standing? scope

/-- A reference that nothing is known to stand behind: it is not bound, or bound to a place where
nothing stands. -/
def Reference.Lost (document : Document) (reference : Reference) : Prop :=
  match reference.binding with
  | none => True
  | some (.here _ target) => document.lookup target = none
  | some (.elsewhere _ _ _) => False

/-- Whether an event is about a reference. -/
def Event.isOfReference : Event → Bool
  | .warned _ => false
  | _ => true

/-- A type of this name is used in a declaration, at any depth. -/
inductive Decl.Mentions : Decl → String → Prop
  | named (name : String) : Mentions (.named name) name
  | item {item : Decl} {name : String} : Mentions item name → Mentions (.repeated item) name
  | value {label key : String} {value : Decl} {name : String} : Mentions value name →
      Mentions (.map label key value) name
  | field {decl : Decl} {body : Message Decl} {field : Field Decl} {name : String} :
      decl = .message body ∨ decl = .union body → field ∈ body.fields →
      Mentions field.type name → Mentions decl name
  | nested {decl inner : Decl} {body : Message Decl} {name : String} :
      decl = .message body ∨ decl = .union body → inner ∈ body.nested →
      Mentions inner name → Mentions decl name

/-! ### Runs that are accounted for -/

/-- The references of a trail that were declared in their place, each with its event and type
name. -/
def standings (scope : Scope) (trail : List Sighting) : List (Event × String) :=
  trail.filterMap (Sighting.standing? scope)

@[simp] theorem standings_nil (scope : Scope) : standings scope [] = [] := rfl

@[simp] theorem standings_append (scope : Scope) (first later : List Sighting) :
    standings scope (first ++ later) = standings scope first ++ standings scope later :=
  List.filterMap_append ..

namespace Run

variable {α β γ : Type} {scope : Scope}

/-- The references that a run came across account for it: its events about references are theirs,
its value shows their type names, and if it failed for a reference that leads nowhere, that one is
among them. If it succeeded, the members of compositions were found in the document. -/
structure Accounts (scope : Scope) (shows : α → String → Prop) (run : Run α)
    (trail : List Sighting) : Prop where
  events : run.events.filter Event.isOfReference = (standings scope trail).map Prod.fst
  shown : ∀ value, run.outcome = .ok value →
    ∀ standing ∈ standings scope trail, shows value standing.2
  rejected : ∀ hint pointer, run.outcome = .error (.unresolvedReference hint pointer) →
    ∃ sighting ∈ trail, sighting.reference.Lost scope.document ∧
      sighting.reference.pointer = pointer
  members : ∀ value, run.outcome = .ok value → ∀ sighting ∈ trail, sighting.asMember = true →
    ∃ name target, sighting.reference.binding = some (.here name target)

theorem accounts_ok {shows : α → String → Prop} (value : α) :
    (⟨[], .ok value⟩ : Run α).Accounts scope shows [] where
  events := rfl
  shown := by simp
  rejected := by simp
  members := by simp

theorem append_onward_nil (run : Run α) (trail : List Sighting) :
    trail ++ run.onward (fun _ => []) = trail := by
  unfold onward
  split <;> simp

/-- An error that is not about a reference needs none to account for it. -/
theorem accounts_fail {shows : α → String → Prop} {error : SchemaError}
    (other : ∀ hint pointer, error ≠ .unresolvedReference hint pointer) :
    (Run.fail error : Run α).Accounts scope shows [] where
  events := rfl
  shown := by simp
  rejected hint pointer failed := absurd (Except.error.inj failed) (other hint pointer)
  members := by simp

namespace Accounts

variable {shows : α → String → Prop} {shows' : β → String → Prop}

/-- Warnings are not about references. -/
theorem after {run : Run α} {trail : List Sighting} (accounts : run.Accounts scope shows trail)
    {events : List Event} (warnings : ∀ event ∈ events, event.isOfReference = false) :
    (run.after events).Accounts scope shows trail where
  events := by
    have none : events.filter Event.isOfReference = [] := by
      simpa [List.filter_eq_nil_iff] using warnings
    rw [Run.after, List.filter_append, none, List.nil_append, accounts.events]
  shown := accounts.shown
  rejected := accounts.rejected
  members := accounts.members

theorem bind {run : Run α} {next : α → Run β} {trail : List Sighting}
    {seen : α → List Sighting} (first : run.Accounts scope shows trail)
    (later : ∀ value, (next value).Accounts scope shows' (seen value))
    (kept : ∀ value result, (next value).outcome = .ok result →
      ∀ name, shows value name → shows' result name) :
    (run >>= next).Accounts scope shows' (trail ++ run.onward seen) := by
  obtain ⟨events, error | value⟩ := run
  · -- nothing comes after an error
    simp only [onward, List.append_nil, bind_error]
    refine ⟨first.events, by simp, fun hint pointer failed => ?_, by simp⟩
    exact first.rejected hint pointer (congrArg _ (Except.error.inj failed))
  · have rest := later value
    simp only [onward, bind_ok]
    refine ⟨?_, fun result succeeded standing member => ?_, fun hint pointer failed => ?_,
      fun result succeeded sighting member => ?_⟩
    · rw [List.filter_append, standings_append, List.map_append, rest.events]
      exact congrArg (· ++ _) first.events
    · rw [standings_append, List.mem_append] at member
      rcases member with early | late
      · exact kept value result succeeded _ (first.shown value rfl standing early)
      · exact rest.shown result succeeded standing late
    · obtain ⟨sighting, member, lost⟩ := rest.rejected hint pointer failed
      exact ⟨sighting, List.mem_append_right _ member, lost⟩
    · rcases List.mem_append.mp member with early | late
      · exact first.members value rfl sighting early
      · exact rest.members result succeeded sighting late

theorem map {f : α → β} {run : Run α} {trail : List Sighting}
    (accounts : run.Accounts scope shows trail)
    (kept : ∀ value name, shows value name → shows' (f value) name) :
    (f <$> run).Accounts scope shows' trail := by
  rw [← append_onward_nil run trail]
  refine accounts.bind (fun value => accounts_ok (f value)) ?_
  rintro value result succeeded name shown
  cases succeeded
  exact kept value name shown

/-- A fold is accounted for if each step is, and if what is shown once stays. -/
theorem foldlM {step : α → γ → Run α} {seen : α → γ → List Sighting}
    (steps : ∀ state item, (step state item).Accounts scope shows (seen state item))
    (kept : ∀ name state item, shows state name →
      (step state item).Ensures fun result => shows result name)
    (items : List γ) (state : α) :
    (items.foldlM step state).Accounts scope shows (trail step seen state items) := by
  induction items generalizing state with
  | nil => exact accounts_ok state
  | cons item rest induction =>
    rw [List.foldlM_cons, trail]
    refine (steps state item).bind (fun next => induction next) ?_
    intro next result succeeded name shown
    exact ensures_foldlM rest (kept name) shown result succeeded

/-- What is picked from the events of a run, warnings aside, is picked from the references that
account for it. -/
theorem filterMap_events {run : Run α} {trail : List Sighting}
    (accounts : run.Accounts scope shows trail) {pick : Event → Option β}
    (other : ∀ message, pick (.warned message) = none) :
    run.events.filterMap pick
      = trail.filterMap fun sighting => (sighting.standing? scope).bind fun standing =>
          pick standing.1 := by
  have relevant : run.events.filterMap pick
      = (run.events.filter Event.isOfReference).filterMap pick := by
    rw [List.filterMap_filter]
    refine List.filterMap_congr fun event _ => ?_
    cases event with
    | warned message => exact other message
    | _ => rfl
  rw [relevant, accounts.events, List.filterMap_map, standings, List.filterMap_filterMap]
  rfl

end Accounts

end Run

/-! ### Type names that are kept -/

/-- A type of this name is used in a message or in what it owns. -/
def Message.Mentions (body : Message Decl) (name : String) : Prop :=
  (∃ field ∈ body.fields, field.type.Mentions name) ∨ ∃ inner ∈ body.nested, inner.Mentions name

namespace Decl.Mentions

variable {name : String}

theorem ofBody {decl : Decl} {body : Message Decl}
    (isBody : decl = .message body ∨ decl = .union body) (mentions : body.Mentions name) :
    decl.Mentions name := by
  rcases mentions with ⟨field, member, inside⟩ | ⟨inner, member, inside⟩
  · exact .field isBody member inside
  · exact .nested isBody member inside

/-- What a type mentions is in the link that a field keeps of it, or in what is owned. -/
theorem link_or_owned {type : Decl} (mentions : type.Mentions name) :
    type.link.Mentions name ∨ ∃ inner ∈ type.owned, inner.Mentions name := by
  induction mentions with
  | named name => exact .inl (.named name)
  | item _ induction =>
    rcases induction with inside | owned
    · exact .inl (.item inside)
    · exact .inr owned
  | value _ induction =>
    rcases induction with inside | owned
    · exact .inl (.value inside)
    · exact .inr owned
  | field isBody member inside =>
    rcases isBody with rfl | rfl <;>
      exact .inr ⟨_, List.mem_cons_self, .field (by simp) member inside⟩
  | nested isBody member inside =>
    rcases isBody with rfl | rfl <;>
      exact .inr ⟨_, List.mem_cons_self, .nested (by simp) member inside⟩

end Decl.Mentions

namespace Message

variable {name : String}

theorem Mentions.addField {body : Message Decl} (mentions : body.Mentions name) (field : String)
    (type : Decl) (comment : Option String) : (body.addField field type comment).Mentions name := by
  rcases mentions with ⟨old, member, inside⟩ | ⟨inner, member, inside⟩
  · exact .inl ⟨old, List.mem_append_left _ member, inside⟩
  · exact .inr ⟨inner, List.mem_append_left _ member, inside⟩

theorem mentions_addField {type : Decl} (mentions : type.Mentions name) (body : Message Decl)
    (field : String) (comment : Option String) :
    (body.addField field type comment).Mentions name := by
  rcases mentions.link_or_owned with inside | ⟨inner, member, inside⟩
  · exact .inl ⟨_, List.mem_append_right _ List.mem_cons_self, inside⟩
  · exact .inr ⟨inner, List.mem_append_right _ member, inside⟩

end Message

theorem Decl.Mentions.boxed {name : String} {type : Decl} (mentions : type.Mentions name)
    (hint : String) (comment : Option String) : (type.boxed hint comment).Mentions name := by
  cases type with
  | repeated | map => exact .ofBody (.inl rfl) (Message.mentions_addField mentions _ _ _)
  | named | enum | message | union => exact mentions

/-! ### One level of declaring -/

section Levels

variable {scope : Scope}

/-- A reference that is declared in its place. -/
theorem accounts_standing {owner name : String} {reference : Reference} {event : Event}
    (standing : reference.standing? scope = some (event, name)) (known : event.isOfReference) :
    Run.Accounts scope Decl.Mentions ⟨[event], .ok (.named name)⟩ [⟨owner, reference, false⟩] := by
  have only : standings scope [⟨owner, reference, false⟩] = [(event, name)] := by
    simp [standings, Sighting.standing?, standing]
  refine ⟨?_, ?_, by simp, by simp⟩
  · simp [only, known]
  · rintro value ⟨⟩ standing member
    rw [only, List.mem_singleton] at member
    subst member
    exact .named name

/-- A reference that is followed only leads on. -/
theorem Run.Accounts.passing {α : Type} {shows : α → String → Prop} {run : Run α}
    {trail : List Sighting} {sighting : Sighting} (accounts : run.Accounts scope shows trail)
    (passed : sighting.standing? scope = none)
    (known : ∀ value, run.outcome = .ok value →
      ∃ name target, sighting.reference.binding = some (.here name target)) :
    run.Accounts scope shows (sighting :: trail) := by
  have same : standings scope (sighting :: trail) = standings scope trail :=
    List.filterMap_cons_none passed
  refine ⟨by rw [same, accounts.events], by rw [same]; exact accounts.shown, ?_, ?_⟩
  · intro hint pointer failed
    obtain ⟨found, member, lost⟩ := accounts.rejected hint pointer failed
    exact ⟨found, List.mem_cons_of_mem _ member, lost⟩
  · intro value succeeded other member
    rcases List.mem_cons.mp member with rfl | later
    · exact fun _ => known value succeeded
    · exact accounts.members value succeeded other later

/-- A reference that leads nowhere accounts for being rejected. -/
theorem accounts_lost {α : Type} {shows : α → String → Prop} {owner hint : String}
    {reference : Reference} (lost : reference.Lost scope.document) :
    (Run.fail (.unresolvedReference hint reference.pointer) : Run α).Accounts scope shows
      [⟨owner, reference, true⟩] := by
  refine ⟨rfl, ?_, ?_, ?_⟩
  · rintro _ ⟨⟩
  · rintro _ _ ⟨⟩
    exact ⟨_, List.mem_cons_self, lost, rfl⟩
  · rintro _ ⟨⟩

theorem declareReference_accounts {declare : List String → Declarer}
    {spot : String → List String → Spotter}
    (below : ∀ owner following hint node,
      (declare following hint node).Accounts scope Decl.Mentions (spot owner following hint node))
    (owner : String) (following : List String) (hint : String) (reference : Reference) :
    (declareReference scope declare following hint reference).Accounts scope Decl.Mentions
      (referenceSightings scope spot owner following hint reference) := by
  unfold declareReference referenceSightings
  cases bound : reference.binding with
  | none => exact accounts_standing (by simp only [Reference.standing?, bound]) rfl
  | some binding =>
    cases binding with
    | elsewhere package name path =>
      exact accounts_standing (by simp only [Reference.standing?, bound]) rfl
    | here name target =>
      dsimp only
      cases found : scope.document.lookup target with
      | none => exact accounts_standing (by simp only [Reference.standing?, bound, found]) rfl
      | some node =>
        dsimp only
        cases declares : (Shape.of node).declares with
        | true =>
          exact accounts_standing (by simp [Reference.standing?, bound, found, declares]) rfl
        | false =>
          -- the reference is followed, or has been followed before
          have passed : Sighting.standing? scope ⟨owner, reference, false⟩ = none := by
            simp [Sighting.standing?, Reference.standing?, bound, found, declares]
          simp only [Bool.false_eq_true, if_false]
          split
          · exact (Run.accounts_fail (by simp)).passing passed fun _ _ => ⟨name, target, bound⟩
          · exact (below _ _ hint node).passing passed fun _ _ => ⟨name, target, bound⟩

section Objects

variable {declare : Declarer} {spot : Spotter}
  (below : ∀ hint node, (declare hint node).Accounts scope Decl.Mentions (spot hint node))

include below

theorem addProperty_accounts (schema : Schema Node) (message : Message Decl) (property : String) :
    (addProperty declare schema message property).Accounts scope Message.Mentions
      (propertySightings spot schema message property) := by
  unfold propertySightings
  cases found : Entries.get? schema.properties property with
  | none =>
    rw [addProperty_unknown found]
    exact Run.accounts_fail (by simp)
  | some node =>
    cases taken : message.hasField property with
    | true =>
      rw [addProperty_taken found taken]
      exact ⟨rfl, by simp, by simp, by simp⟩
    | false =>
      rw [addProperty_new found taken]
      refine (below _ node).map ?_
      intro type name mentions
      exact Message.mentions_addField mentions message property node.description

omit below in
theorem addProperty_keeps (schema : Schema Node) {name : String} {message : Message Decl}
    (mentions : message.Mentions name) (property : String) :
    (addProperty declare schema message property).Ensures fun result => result.Mentions name := by
  unfold addProperty
  split
  · exact Run.ensures_fail _
  next node found =>
    split
    · exact Run.ensures_ok mentions
    · exact Run.ensures_bind fun type => Run.ensures_ok (mentions.addField property type _)

omit below in
theorem addProperties_keeps (schema : Schema Node) {name : String} {message : Message Decl}
    (mentions : message.Mentions name) :
    (addProperties declare message schema).Ensures fun result => result.Mentions name := by
  rw [addProperties_eq_after]
  exact Run.ensures_foldlM _ (fun _ property kept => addProperty_keeps schema kept property)
    mentions

theorem addProperties_accounts (message : Message Decl) (schema : Schema Node) :
    (addProperties declare message schema).Accounts scope Message.Mentions
      (objectSightings declare spot message schema) := by
  rw [addProperties_eq_after]
  refine Run.Accounts.after (.foldlM (addProperty_accounts below schema) ?_ _ _) ?_
  · intro name message property mentions
    exact addProperty_keeps schema mentions property
  · simp [unlistedWarnings, Event.isOfReference]

theorem addAlternative_accounts (hint : String) (message : Message Decl) (alternative : Node) :
    (addAlternative declare hint message alternative).Accounts scope Message.Mentions
      (spot alternativeHint alternative) := by
  rw [addAlternative_eq,
    ← Run.append_onward_nil (declare alternativeHint alternative)
      (spot alternativeHint alternative)]
  refine (below alternativeHint alternative).bind (fun type => ?_) ?_
  · split
    · exact Run.accounts_fail (by simp)
    · exact Run.accounts_ok _
  · intro type result succeeded name mentions
    split at succeeded
    · cases succeeded
    · cases succeeded
      exact Message.mentions_addField (mentions.boxed _ _) message _ _

theorem declareOpenMap_accounts (hint : String) (schema : Schema Node)
    (additional : Additional Node) :
    (declareOpenMap declare hint schema additional).Accounts scope Decl.Mentions
      (openMapSightings spot hint schema additional) := by
  by_cases object : schema.type = some .object
  · cases additional with
    | flag value =>
      rw [declareOpenMap_flag object]
      exact Run.accounts_fail (by simp)
    | node node =>
      rw [declareOpenMap_node object, openMapSightings, if_pos object]
      refine Run.Accounts.map ((below _ node).after ?_) ?_
      · unfold ignoredWarnings
        split <;> simp [Event.isOfReference]
      · intro value name mentions
        exact .value (mentions.boxed _ _)
  · rw [declareOpenMap_other object]
    have none : openMapSightings spot hint schema additional = [] := by
      cases additional with
      | flag => rfl
      | node => exact if_neg object
    rw [none]
    exact Run.accounts_fail (by simp)

theorem declareArray_accounts (hint : String) (schema : Schema Node) :
    (declareArray declare hint schema).Accounts scope Decl.Mentions
      (schema.items.toList.flatMap (spot (elementHint hint))) := by
  unfold declareArray
  cases schema.items with
  | none => exact Run.accounts_fail (by simp)
  | some items =>
    rw [Option.toList_some, List.flatMap_singleton]
    refine (below _ items).map ?_
    intro item name mentions
    exact .item (mentions.boxed _ _)

end Objects

/-- The way from a member to its object passes the reference that leads nowhere, if there is one.
No reference on it has a type name. -/
theorem memberWay_accounts (hint : String) (position : Nat) (owner : String) (fresh : List String)
    (node : Node) :
    (Run.ofExcept (memberObject scope.document hint position fresh node)).Accounts scope
      (fun _ _ => False) (memberWay scope.document owner fresh node).1 := by
  fun_induction memberObject scope.document hint position fresh node generalizing owner with
  | case1 fresh schema object =>
    rw [memberWay]
    exact Run.accounts_ok schema
  | case2 fresh schema other =>
    rw [memberWay]
    exact Run.accounts_fail (by simp)
  | case3 fresh reference unpassed name target bound next found induction =>
    have way : (memberWay scope.document owner fresh (.ref reference)).1
        = ⟨owner, reference, true⟩ ::
          (memberWay scope.document target.root (without fresh reference.pointer) next).1 := by
      rw [memberWay, dif_pos unpassed]
      simp only [bound, found]
    rw [way]
    exact (induction target.root).passing rfl fun _ _ => ⟨name, target, bound⟩
  | case4 fresh reference unpassed name target bound missing =>
    have way : (memberWay scope.document owner fresh (.ref reference)).1
        = [⟨owner, reference, true⟩] := by
      rw [memberWay, dif_pos unpassed]
      simp only [bound, missing]
    rw [way]
    exact accounts_lost (by simp only [Reference.Lost, bound, missing])
  | case5 fresh reference unpassed package name path bound =>
    have way : (memberWay scope.document owner fresh (.ref reference)).1
        = [⟨owner, reference, true⟩] := by
      rw [memberWay, dif_pos unpassed]
      simp only [bound]
    rw [way]
    exact (Run.accounts_fail (by simp)).passing rfl (by rintro _ ⟨⟩)
  | case6 fresh reference unpassed unbound =>
    have way : (memberWay scope.document owner fresh (.ref reference)).1
        = [⟨owner, reference, true⟩] := by
      rw [memberWay, dif_pos unpassed]
      simp only [unbound]
    rw [way]
    exact accounts_lost (by simp only [Reference.Lost, unbound])
  | case7 fresh reference passed =>
    rw [memberWay, dif_neg passed]
    exact (Run.accounts_fail (by simp)).passing rfl (by rintro _ ⟨⟩)

theorem addMember_accounts {declare : Declarer} {spot : String → Spotter}
    (below : ∀ owner hint node,
      (declare hint node).Accounts scope Decl.Mentions (spot owner hint node))
    (owner hint : String) (message : Message Decl) (member : Node × Nat) :
    (addMember scope declare hint message member).Accounts scope Message.Mentions
      (memberSightings scope declare spot owner hint message member) := by
  refine (memberWay_accounts hint (member.2 + 1) owner _ member.1).bind (fun object => ?_) ?_
  · exact addProperties_accounts (below _) message object
  · intro object result _ name none
    exact none.elim

theorem addMember_keeps {declare : Declarer} (hint : String) {name : String}
    {message : Message Decl} (mentions : message.Mentions name) (member : Node × Nat) :
    (addMember scope declare hint message member).Ensures fun result => result.Mentions name :=
  Run.ensures_bind fun object => addProperties_keeps object mentions

theorem addAlternative_keeps {declare : Declarer} (hint : String) {name : String}
    {message : Message Decl} (mentions : message.Mentions name) (alternative : Node) :
    (addAlternative declare hint message alternative).Ensures
      fun result => result.Mentions name := by
  rw [addAlternative_eq]
  refine Run.ensures_bind fun type => ?_
  split
  · exact Run.ensures_fail _
  · exact Run.ensures_ok (mentions.addField _ _ _)

theorem declareEnum_accounts (options : Options) (hint : String) (schema : Schema Node)
    (values : List Json.Value) :
    (declareEnum options hint schema values).Accounts scope Decl.Mentions [] := by
  unfold declareEnum
  split
  · exact Run.accounts_fail (by simp)
  · split
    · exact Run.accounts_fail (by simp)
    · exact Run.accounts_fail (by simp)
    · exact Run.accounts_ok _

/-- One level of declaring is accounted for if the levels below are. -/
theorem declareShape_accounts {declare : List String → Declarer}
    {spot : String → List String → Spotter}
    (below : ∀ owner following hint node,
      (declare following hint node).Accounts scope Decl.Mentions (spot owner following hint node))
    (owner : String) (following : List String) (hint : String) (node : Node) :
    (declareShape scope declare following hint node).Accounts scope Decl.Mentions
      (shapeSightings scope declare spot owner following hint node) := by
  unfold declareShape shapeSightings
  cases Shape.of node with
  | link reference => exact declareReference_accounts below owner following hint reference
  | union schema =>
    refine Run.Accounts.map (.foldlM ?_ ?_ _ _) fun body name => .ofBody (.inr rfl)
    · exact addAlternative_accounts (below owner following) hint
    · intro name message alternative mentions
      exact addAlternative_keeps hint mentions alternative
  | composition schema =>
    refine Run.Accounts.map (.foldlM ?_ ?_ _ _) fun body name => .ofBody (.inl rfl)
    · exact addMember_accounts (fun home => below home following) owner hint
    · intro name message member mentions
      exact addMember_keeps hint mentions member
  | openMap schema additional =>
    exact declareOpenMap_accounts (below owner following) hint schema additional
  | object schema =>
    refine Run.Accounts.map ?_ fun body name => .ofBody (.inl rfl)
    exact addProperties_accounts (below owner following) _ schema
  | array schema => exact declareArray_accounts (below owner following) hint schema
  | enum schema values => exact declareEnum_accounts scope.options hint schema values
  | scalar schema =>
    dsimp only
    cases found : schema.scalar? with
    | none => exact Run.accounts_fail (by simp)
    | some name => exact Run.accounts_ok _

theorem declareWithin_accounts (steps : Nat) (owner : String) (following : List String)
    (hint : String) (node : Node) :
    (declareWithin scope steps following hint node).Accounts scope Decl.Mentions
      (sightingsWithin scope steps owner following hint node) := by
  induction steps generalizing owner following hint node with
  | zero => exact Run.accounts_fail (by simp)
  | succ steps induction => exact declareShape_accounts induction owner following hint node

/-- A top-level schema is accounted for by the references that declaring it comes across. -/
theorem declareTopLevel_accounts (scope : Scope) (name : String) (node : Node) :
    (declareTopLevel scope name node).Accounts scope Decl.Mentions (scope.sightings name node) := by
  unfold declareTopLevel Scope.sightings
  rw [← Run.append_onward_nil (declare scope name node)
    (sightingsWithin scope (stepBudget scope.document node) name [] name node)]
  refine (declareWithin_accounts _ name [] name node).bind (fun decl => ?_) ?_
  · split
    · split
      · exact Run.accounts_ok _
      · exact Run.accounts_fail (by simp)
    · exact Run.accounts_ok _
  · intro decl result succeeded used mentions
    split at succeeded
    · split at succeeded
      · cases succeeded
        exact mentions.boxed _ _
      · cases succeeded
    · cases succeeded
      exact mentions

end Levels

/-! ### Where the references stand -/

theorem Run.mem_onward {α : Type} {run : Run α} {seen : α → List Sighting} {sighting : Sighting}
    (member : sighting ∈ run.onward seen) :
    ∃ value, run.outcome = .ok value ∧ sighting ∈ seen value := by
  unfold onward at member
  split at member
  next value outcome => exact ⟨value, outcome, member⟩
  · cases member

theorem Run.mem_trail {α β : Type} {step : α → β → Run α} {seen : α → β → List Sighting}
    {items : List β} {state : α} {sighting : Sighting}
    (member : sighting ∈ trail step seen state items) :
    ∃ state, ∃ item ∈ items, sighting ∈ seen state item := by
  induction items generalizing state with
  | nil => cases member
  | cons item rest induction =>
    rcases List.mem_append.mp member with first | later
    · exact ⟨state, item, List.mem_cons_self, first⟩
    · obtain ⟨next, _, onward⟩ := Run.mem_onward later
      obtain ⟨state, other, listed, inside⟩ := induction onward
      exact ⟨state, other, List.mem_cons_of_mem _ listed, inside⟩

/-- A property of nodes in the trees of top-level schemas that goes over to all that declaring them
leads to, within the tree and into others. -/
structure Document.ClosedAcross (document : Document) (within : String → Node → Prop) : Prop where
  child : ∀ {owner : String} {schema : Schema Node} {child : Node},
    within owner (.inline schema) → child ∈ schema.children → within owner child
  lookup : ∀ {owner : String} {reference : Reference} {name : String} {target : Location}
    {node : Node}, within owner (.ref reference) → reference.binding = some (.here name target) →
    document.lookup target = some node → within target.root node

/-- All sightings have a property that is stated of their references, each in its tree. -/
def AllWithin (within : String → Node → Prop) (trail : List Sighting) : Prop :=
  ∀ sighting ∈ trail, within sighting.owner (.ref sighting.reference)

section Within

variable {scope : Scope} {within : String → Node → Prop}
  (closed : scope.document.ClosedAcross within)

include closed

theorem memberWay_within (hint : String) (position : Nat) {owner : String} {fresh : List String}
    {node : Node} (inside : within owner node) :
    AllWithin within (memberWay scope.document owner fresh node).1 ∧
      ∀ object, memberObject scope.document hint position fresh node = .ok object →
        within (memberWay scope.document owner fresh node).2 (.inline object) := by
  have alone {owner : String} {reference : Reference} (inside : within owner (.ref reference)) :
      AllWithin within [⟨owner, reference, true⟩] := by
    intro sighting member
    cases List.mem_singleton.mp member
    exact inside
  fun_induction memberWay scope.document owner fresh node with
  | case1 owner fresh schema =>
    refine ⟨by simp [AllWithin], fun object stands => ?_⟩
    rw [memberObject] at stands
    split at stands
    · cases stands
      exact inside
    · cases stands
  | case2 owner fresh reference unpassed name target bound next found rest home way induction =>
    obtain ⟨others, stands⟩ := induction (closed.lookup inside bound found)
    rw [way] at others stands
    rw [memberObject, dif_pos unpassed]
    simp only [bound, found]
    exact ⟨List.forall_mem_cons.mpr ⟨inside, others⟩, stands⟩
  | case3 owner fresh reference unpassed name target bound missing =>
    rw [memberObject, dif_pos unpassed]
    simp only [bound, missing]
    exact ⟨alone inside, by simp⟩
  | case4 owner fresh reference unpassed other =>
    rw [memberObject, dif_pos unpassed]
    refine ⟨alone inside, fun object stands => ?_⟩
    cases bound : reference.binding with
    | none => simp [bound] at stands
    | some binding =>
      cases binding with
      | here name target => exact absurd bound (other name target)
      | elsewhere package name path => simp [bound] at stands
  | case5 owner fresh reference passed =>
    rw [memberObject, dif_neg passed]
    exact ⟨alone inside, by simp⟩

theorem objectSightings_within {declare : Declarer} {spot : Spotter} {owner : String}
    (below : ∀ hint node, within owner node → AllWithin within (spot hint node))
    (message : Message Decl) {schema : Schema Node} (inside : within owner (.inline schema)) :
    AllWithin within (objectSightings declare spot message schema) := by
  intro sighting member
  obtain ⟨message, property, _, seen⟩ := Run.mem_trail member
  unfold propertySightings at seen
  split at seen
  · cases seen
  next node found =>
    split at seen
    · cases seen
    · exact below _ node (closed.child inside
        (Schema.mem_children_of_property (Entries.mem_of_get? found))) sighting seen

theorem openMapSightings_within {spot : Spotter} {owner : String}
    (below : ∀ hint node, within owner node → AllWithin within (spot hint node)) (hint : String)
    {schema : Schema Node} (inside : within owner (.inline schema)) {additional : Additional Node}
    (found : schema.additional = some additional) :
    AllWithin within (openMapSightings spot hint schema additional) := by
  intro sighting member
  unfold openMapSightings at member
  split at member
  · cases member
  next node =>
    split at member
    · exact below _ node (closed.child inside (Schema.mem_children_of_additional found)) sighting
        member
    · cases member

theorem referenceSightings_within {spot : String → List String → Spotter}
    (below : ∀ owner following hint node, within owner node →
      AllWithin within (spot owner following hint node)) {owner : String}
    (following : List String) (hint : String) {reference : Reference}
    (inside : within owner (.ref reference)) :
    AllWithin within (referenceSightings scope spot owner following hint reference) := by
  intro sighting member
  rcases List.mem_cons.mp member with rfl | later
  · exact inside
  · split at later
    next name target bound =>
      split at later
      next node found =>
        split at later
        · cases later
        · split at later
          · cases later
          · exact below _ _ _ node (closed.lookup inside bound found) sighting later
      · cases later
    · cases later

theorem shapeSightings_within {declare : List String → Declarer}
    {spot : String → List String → Spotter}
    (below : ∀ owner following hint node, within owner node →
      AllWithin within (spot owner following hint node)) {owner : String}
    (following : List String) (hint : String) {node : Node} (inside : within owner node) :
    AllWithin within (shapeSightings scope declare spot owner following hint node) := by
  cases node with
  | ref reference => exact referenceSightings_within closed below following hint inside
  | inline schema =>
    have self := Shape.alike_self schema
    simp only [shapeSightings, Shape.of]
    generalize shape : Shape.ofSchema schema = kind at self ⊢
    cases self with
    | union =>
      intro sighting member
      obtain ⟨_, alternative, listed, seen⟩ := Run.mem_trail member
      have inner := closed.child inside (Schema.mem_children_of_oneOf listed)
      exact below _ _ _ alternative inner sighting seen
    | composition =>
      intro sighting member
      obtain ⟨message, ⟨node, position⟩, listed, seen⟩ := Run.mem_trail member
      have inner := closed.child inside
        (Schema.mem_children_of_allOf (List.fst_mem_of_mem_zipIdx listed))
      obtain ⟨way, stands⟩ := memberWay_within closed hint (position + 1) inner
      rcases List.mem_append.mp seen with passed | later
      · exact way sighting passed
      · -- the properties of the object stand in the tree that the way has led into
        obtain ⟨object, found, seen⟩ := Run.mem_onward later
        exact objectSightings_within closed (below _ following) message (stands object found)
          sighting seen
    | openMap parts =>
      exact openMapSightings_within closed (below owner following) hint inside
        (Shape.additional_of_openMap shape)
    | object => exact objectSightings_within closed (below owner following) _ inside
    | array =>
      intro sighting member
      obtain ⟨items, found, seen⟩ := List.mem_flatMap.mp member
      have inner := closed.child inside
        (Schema.mem_children_of_items (Option.mem_toList.mp found))
      exact below _ _ _ items inner sighting seen
    | enum values =>
      intro sighting member
      cases member
    | scalar =>
      intro sighting member
      cases member

/-- Whatever declaring comes across has a property that goes over to all it leads to. -/
theorem sightingsWithin_within (steps : Nat) {owner : String} (following : List String)
    (hint : String) {node : Node} (inside : within owner node) :
    AllWithin within (sightingsWithin scope steps owner following hint node) := by
  induction steps generalizing owner following hint node with
  | zero =>
    intro sighting member
    cases member
  | succ steps induction =>
    exact shapeSightings_within closed (fun _ following hint _ => induction following hint)
      following hint inside

end Within

end Protoschema
