import Mathlib.Order.WellFounded
import Protoschema.Proofs.VisitedNodes
import Protoschema.Proofs.SeparateCompilation
/-!
Declaring terminates. A reference is not followed while it is being followed, so that all cycles of
references come to an end. Members of compositions are taken in without such a guard: an object can
hold a composition that takes in the object again. `Scope.Expands` is that relation between objects
whose properties are declared; declaring a node ends exactly if it meets no infinite chain of it,
whatever the references are bound to.
-/

namespace Protoschema

/-! ### Objects that are taken in -/

/-- Declaring the properties of an object, as they are filled in by some visit, meets a composition
that takes in another object. -/
def Scope.Expands (scope : Scope) (filled filled' : Visit × Schema Node) : Prop :=
  ∃ inner message, Visit.Enters scope filled.1 filled.2 inner ∧
    Relation.ReflTransGen (Visit.Next scope) inner filled'.1 ∧
    Visit.TakesIn scope filled'.1 filled'.2 message

/-- Declaring meets an infinite chain of objects, each of which takes in the next. -/
def Scope.ExpandsFrom (scope : Scope) (visit : Visit) : Prop :=
  ∃ chain : Nat → Visit × Schema Node, Relation.ReflTransGen (Visit.Next scope) visit (chain 0).1 ∧
    ∀ index, scope.Expands (chain index) (chain (index + 1))

/-- A node stands somewhere in the document. -/
def Document.Holds (document : Document) (node : Node) : Prop :=
  ∃ name top, document.schema? name = some top ∧ top.Contains node

/-- An infinite chain of objects, each of which takes in the next, starts in the document. -/
def Scope.ExpandsForever (scope : Scope) : Prop :=
  ∃ chain : Nat → Visit × Schema Node, scope.document.Holds (.inline (chain 0).2) ∧
    ∀ index, scope.Expands (chain index) (chain (index + 1))

theorem Document.closed_holds (document : Document) : document.Closed document.Holds := by
  refine .of_schemas ?_ fun name top found => ⟨name, top, found, .self top⟩
  rintro schema ⟨name, top, found, contains⟩ node inner
  exact ⟨name, top, found, contains.inner inner⟩

variable {scope : Scope}

theorem Visit.inside_of_path {nodes : Node → Prop} (closed : scope.document.Closed nodes)
    {visit met : Visit} (path : Relation.ReflTransGen (Visit.Next scope) visit met)
    (inside : nodes visit.node) : nodes met.node := by
  induction path with
  | refl => exact inside
  | tail _ next induction => exact next.inside closed induction

/-! ### Chains of visits -/

/-- An inline schema leads to its inner nodes, and to the properties of objects that it takes in. -/
theorem Visit.Next.inner {following : List String} {hint : String} {schema : Schema Node}
    {inner : Visit} (next : Visit.Next scope ⟨following, hint, .inline schema⟩ inner) :
    inner.following = following ∧ (inner.node ∈ schema.children ∨ ∃ object message,
      Visit.TakesIn scope ⟨following, hint, .inline schema⟩ object message ∧
        Visit.Enters scope ⟨following, hint, .inline schema⟩ object inner) := by
  cases next with
  | alternative _ reaches => exact ⟨rfl, .inl (Schema.mem_children_of_oneOf reaches.mem)⟩
  | value shape =>
    exact ⟨rfl, .inl (Schema.mem_children_of_additional (Shape.additional_of_openMap shape))⟩
  | item _ items => exact ⟨rfl, .inl (Schema.mem_children_of_items items)⟩
  | property enters =>
    cases enters with
    | property fills reaches found free =>
      refine ⟨rfl, ?_⟩
      cases fills with
      | object => exact .inl (Schema.mem_children_of_property (Entries.mem_of_get? found))
      | member takesIn =>
        exact .inr ⟨_, _, takesIn, .property (.member takesIn) reaches found free⟩

/-- As long as visits do not lead into a composition, a pointer more is being followed or the node
gets smaller. So there is no infinite chain of visits if there is none from the objects that are
taken in on the way. -/
theorem acc_of_members (met : Visit → Prop)
    (onward : ∀ visit inner, met visit → Visit.Next scope visit inner → met inner)
    (members : ∀ visit object message, met visit → Visit.TakesIn scope visit object message →
      ∀ inner, Visit.Enters scope visit object inner →
        Acc (fun inner visit => Visit.Next scope visit inner) inner)
    {visit : Visit} (start : met visit) :
    Acc (fun inner visit => Visit.Next scope visit inner) visit := by
  obtain ⟨following, hint, node⟩ := visit
  obtain ⟨nodes, -, self, closed⟩ := scope.document.exists_closed node
  -- outer induction: the pointers that are not being followed
  induction left : ((nodes.filterMap Node.pointer?).filter (· ∉ following)).length
    using Nat.strong_induction_on generalizing following hint node with
  | _ left fewer =>
    -- inner induction: the node
    induction node using Node.childInduction generalizing hint with
    | ref reference =>
      refine ⟨_, fun inner next => ?_⟩
      have enters := next
      cases next with
      | property enters =>
        obtain ⟨_ | takesIn, _⟩ := enters
        cases takesIn
      | @followed _ _ _ _ _ node bound found _ free =>
        have remaining : reference.pointer
            ∈ (nodes.filterMap Node.pointer?).filter (· ∉ following) :=
          List.mem_filter.mpr ⟨List.mem_filterMap.mpr ⟨_, self, rfl⟩, by simpa using free⟩
        have rest : (nodes.filterMap Node.pointer?).filter (· ∉ reference.pointer :: following)
            = without ((nodes.filterMap Node.pointer?).filter (· ∉ following))
                reference.pointer := by
          rw [without, List.filter_filter]
          exact List.filter_congr fun pointer _ => by simp
        refine fewer _ ?_ (reference.pointer :: following) hint node (onward _ _ start enters)
          (closed.lookup found) rfl
        rw [rest, ← left]
        exact length_without_lt remaining
    | inline schema smaller =>
      refine ⟨_, fun inner next => ?_⟩
      obtain ⟨same, child | ⟨object, message, takesIn, enters⟩⟩ := next.inner
      · obtain ⟨_, hint', node⟩ := inner
        obtain rfl : _ = following := same
        exact smaller node child hint' (onward _ _ start next) (next.inside closed self)
      · exact members _ object message start takesIn inner enters

/-- Declaring the properties of an object goes on forever only if the object expands forever. -/
theorem acc_of_expands {filled : Visit × Schema Node}
    (acc : Acc (fun filled' filled => scope.Expands filled filled') filled) {inner : Visit}
    (enters : Visit.Enters scope filled.1 filled.2 inner) :
    Acc (fun inner visit => Visit.Next scope visit inner) inner := by
  induction acc generalizing inner with
  | intro filled _ induction =>
    refine acc_of_members (Relation.ReflTransGen (Visit.Next scope) inner) ?_ ?_ .refl
    · exact fun visit next met step => met.tail step
    · intro visit object message met takesIn inner' enters'
      exact induction (visit, object) ⟨inner, message, enters, met, takesIn⟩ enters'

/-- There is an infinite chain of visits exactly if objects are taken in without an end. -/
theorem acc_iff_not_expandsFrom {visit : Visit} :
    Acc (fun inner visit => Visit.Next scope visit inner) visit ↔ ¬scope.ExpandsFrom visit := by
  constructor
  · intro acc
    induction acc with
    | intro visit _ induction =>
      rintro ⟨chain, path, steps⟩
      -- either there is a visit on the way to the first object, or one of its properties is next
      rcases path.cases_head with same | ⟨inner, next, path⟩
      · obtain ⟨inner, message, enters, path, _⟩ := steps 0
        rw [← same] at enters
        exact induction inner (.property enters)
          ⟨fun index => chain (index + 1), path, fun index => steps (index + 1)⟩
      · exact induction inner next ⟨chain, path, steps⟩
  · intro finite
    refine acc_of_members (Relation.ReflTransGen (Visit.Next scope) visit) ?_ ?_ .refl
    · exact fun visit next met step => met.tail step
    · intro met object message path takesIn inner enters
      have acc : Acc (fun filled' filled => scope.Expands filled filled') (met, object) := by
        by_contra endless
        obtain ⟨chain, start, steps⟩ := not_acc_iff_exists_descending_chain.mp endless
        exact finite ⟨chain, by rw [start]; exact path, steps⟩
      exact acc_of_expands acc enters

/-! ### Chains of objects -/

/-- An object expands into objects of the document or into objects inside of it. -/
theorem Scope.Expands.holds_or_inside {filled filled' : Visit × Schema Node}
    (expands : scope.Expands filled filled') :
    scope.document.Holds (.inline filled'.2) ∨
      ∃ child ∈ filled.2.children, child.Contains (.inline filled'.2) := by
  -- every reference leads into the document, and all else stays inside
  have closed : scope.document.Closed fun node =>
      scope.document.Holds node ∨ ∃ child ∈ filled.2.children, child.Contains node := by
    refine .of_schemas ?_ fun name top found => .inl ⟨name, top, found, .self top⟩
    rintro schema (holds | ⟨child, member, contains⟩) node inner
    · exact .inl (scope.document.closed_holds.child holds inner)
    · exact .inr ⟨child, member, contains.inner inner⟩
  obtain ⟨inner, message, enters, path, takesIn⟩ := expands
  obtain ⟨property, _, found⟩ := enters.listed
  have start := Schema.mem_children_of_property (Entries.mem_of_get? found)
  exact takesIn.inside closed (Visit.inside_of_path closed path (.inr ⟨_, start, .self _⟩))

theorem acc_expands_of_holds (finite : ¬scope.ExpandsForever) {filled : Visit × Schema Node}
    (holds : scope.document.Holds (.inline filled.2)) :
    Acc (fun filled' filled => scope.Expands filled filled') filled := by
  by_contra endless
  obtain ⟨chain, start, steps⟩ := not_acc_iff_exists_descending_chain.mp endless
  exact finite ⟨chain, by rw [start]; exact holds, steps⟩

theorem acc_expands (finite : ¬scope.ExpandsForever) (filled : Visit × Schema Node) :
    Acc (fun filled' filled => scope.Expands filled filled') filled := by
  have inside (node : Node) : ∀ filled : Visit × Schema Node, node.Contains (.inline filled.2) →
      Acc (fun filled' filled => scope.Expands filled filled') filled := by
    induction node using Node.childInduction with
    | ref reference =>
      intro filled contains
      cases Node.contains_ref_iff.mp contains
    | inline schema induction =>
      intro filled contains
      rcases Node.contains_inline_iff.mp contains with same | ⟨child, member, contains⟩
      · cases same
        refine ⟨_, fun filled' expands => ?_⟩
        rcases expands.holds_or_inside with holds | ⟨child, member, contains⟩
        · exact acc_expands_of_holds finite holds
        · exact induction child member filled' contains
      · exact induction child member filled contains
  exact inside (.inline filled.2) filled (.self _)

/-- Without an infinite chain of objects that starts in the document there is none from anywhere. -/
theorem not_expandsFrom (finite : ¬scope.ExpandsForever) (visit : Visit) :
    ¬scope.ExpandsFrom visit := by
  rintro ⟨chain, _, steps⟩
  exact not_acc_iff_exists_descending_chain.mpr ⟨chain, rfl, steps⟩ (acc_expands finite (chain 0))

/-! ### Members of compositions -/

/-- What a member of a composition stands for, told step by step. References are followed for as
long as their pointers have not been passed; nothing bounds the number of steps. -/
inductive MemberLoop (document : Document) (hint : String) (position : Nat) :
    List String → Node → Except SchemaError (Schema Node) → Prop
  | object {passed : List String} {schema : Schema Node} : schema.type = some .object →
      MemberLoop document hint position passed (.inline schema) (.ok schema)
  | other {passed : List String} {schema : Schema Node} : schema.type ≠ some .object →
      MemberLoop document hint position passed (.inline schema) (.error
        (.invalidMember hint position ("is " ++ schema.typeName "untyped" ++ ", not an object")))
  | again {passed : List String} {reference : Reference} : reference.pointer ∈ passed →
      MemberLoop document hint position passed (.ref reference)
        (.error (.cyclicReference hint reference.pointer))
  | followed {passed : List String} {reference : Reference} {name : String} {target : Location}
      {node : Node} {outcome : Except SchemaError (Schema Node)} :
      reference.pointer ∉ passed → reference.binding = some (.here name target) →
      document.lookup target = some node →
      MemberLoop document hint position (reference.pointer :: passed) node outcome →
      MemberLoop document hint position passed (.ref reference) outcome
  | lost {passed : List String} {reference : Reference} {name : String} {target : Location} :
      reference.pointer ∉ passed → reference.binding = some (.here name target) →
      document.lookup target = none →
      MemberLoop document hint position passed (.ref reference)
        (.error (.unresolvedReference hint reference.pointer))
  | elsewhere {passed : List String} {reference : Reference} {package name path : String} :
      reference.pointer ∉ passed → reference.binding = some (.elsewhere package name path) →
      MemberLoop document hint position passed (.ref reference) (.error
        (.invalidMember hint position ("`" ++ reference.pointer ++ "` lives in another document")))
  | unbound {passed : List String} {reference : Reference} :
      reference.pointer ∉ passed → reference.binding = none →
      MemberLoop document hint position passed (.ref reference)
        (.error (.unresolvedReference hint reference.pointer))

namespace MemberLoop

variable {document : Document} {hint : String} {position : Nat}

/-- The loop comes to an end, with what is found by counting off the pointers that can come up. -/
theorem memberObject {fresh passed : List String} {node : Node}
    (ahead : ∀ reference ∈ node.references ++ document.references,
      reference.pointer ∈ fresh ↔ reference.pointer ∉ passed) :
    MemberLoop document hint position passed node
      (Protoschema.memberObject document hint position fresh node) := by
  fun_induction Protoschema.memberObject document hint position fresh node
    generalizing passed with
  | case1 fresh schema typed => exact .object typed
  | case2 fresh schema other => exact .other other
  | case3 fresh reference unpassed name target bound next found induction =>
    have free := (ahead reference (by simp)).mp unpassed
    refine .followed free bound found (induction fun other listed => ?_)
    -- from here on all references are those of the document
    have known : other ∈ document.references := by
      rcases List.mem_append.mp listed with inside | inside
      · exact Document.references_subset_of_lookup found inside
      · exact inside
    have before := ahead other (List.mem_append_right _ known)
    simp [without, before, and_comm]
  | case4 fresh reference unpassed name target bound missing =>
    exact .lost ((ahead reference (by simp)).mp unpassed) bound missing
  | case5 fresh reference unpassed package name path bound =>
    exact .elsewhere ((ahead reference (by simp)).mp unpassed) bound
  | case6 fresh reference unpassed unbound =>
    exact .unbound ((ahead reference (by simp)).mp unpassed) unbound
  | case7 fresh reference again =>
    rw [ahead reference (by simp), not_not] at again
    exact .again again

theorem unique {passed : List String} {node : Node}
    {outcome outcome' : Except SchemaError (Schema Node)}
    (loop : MemberLoop document hint position passed node outcome)
    (loop' : MemberLoop document hint position passed node outcome') : outcome = outcome' := by
  induction loop with
  | object typed => cases loop' <;> simp_all
  | other typed => cases loop' <;> simp_all
  | again passed => cases loop' <;> simp_all
  | followed unpassed bound found _ induction =>
    cases loop' with
    | followed _ bound' found' rest =>
      simp_all
    | _ => simp_all
  | lost unpassed bound missing => cases loop' <;> simp_all
  | elsewhere unpassed bound => cases loop' <;> simp_all
  | unbound unpassed bound => cases loop' <;> simp_all

end MemberLoop

/-! ### Declaring -/

/-- A visit comes to an end: from some number of steps on, more of them make no difference. -/
def Visit.Settles (scope : Scope) (visit : Visit) : Prop :=
  ∃ steps, (visit.within scope steps).Ends ∧
    ∀ more, steps ≤ more → visit.within scope more = visit.within scope steps

/-- Declaring comes to an end from every node: within its step budget, and with whatever pointers
being followed. -/
structure Scope.Terminates (scope : Scope) : Prop where
  ends : ∀ hint node, (declare scope hint node).Ends
  settles : ∀ visit : Visit, visit.Settles scope

theorem Visit.settles_iff {visit : Visit} : visit.Settles scope ↔ (visit.run scope).Ends := by
  constructor
  · rintro ⟨steps, ends, _⟩
    exact ends_declareOnward ends
  · exact fun ends => ⟨_, ends, fun more enough => (declareWithin_mono enough ends).symm⟩

theorem Visit.settles_iff_not_expandsFrom {visit : Visit} :
    visit.Settles scope ↔ ¬scope.ExpandsFrom visit := by
  rw [settles_iff, ends_iff_acc, acc_iff_not_expandsFrom]

theorem Scope.terminates_iff : scope.Terminates ↔ ¬scope.ExpandsForever := by
  constructor
  · rintro terminates ⟨chain, _, steps⟩
    exact Visit.settles_iff_not_expandsFrom.mp (terminates.settles (chain 0).1)
      ⟨chain, .refl, steps⟩
  · intro finite
    have settles (visit : Visit) : visit.Settles scope :=
      Visit.settles_iff_not_expandsFrom.mpr (not_expandsFrom finite visit)
    exact ⟨fun hint node => Visit.settles_iff.mp (settles ⟨[], hint, node⟩), settles⟩

/-- There is no infinite chain without compositions. -/
theorem Scope.not_expandsForever
    (plain : ∀ schema, scope.document.Holds (.inline schema) → schema.allOf = []) :
    ¬scope.ExpandsForever := by
  rintro ⟨chain, holds, steps⟩
  obtain ⟨inner, message, enters, path, takesIn⟩ := steps 0
  obtain ⟨property, _, found⟩ := enters.listed
  have start := scope.document.closed_holds.child holds
    (Schema.mem_children_of_property (Entries.mem_of_get? found))
  have met := Visit.inside_of_path scope.document.closed_holds path start
  obtain ⟨schema, inline, composed⟩ := takesIn.composed
  rw [inline] at met
  exact composed (plain schema met)

/-- Declaring terminates. Declaring a node comes to an end exactly if it meets no infinite chain of
objects in which each is taken in by a composition that is met while declaring the properties of the
one before. So declaring ends at every node exactly if no such chain starts from an object of the
document; it does in a document without compositions. Finding out what a member stands for ends
without any condition, and as many steps as there are pointers are enough for it. -/
theorem declaring_terminates (scope : Scope) :
    (∀ visit : Visit, visit.Settles scope ↔ ¬scope.ExpandsFrom visit) ∧
    (scope.Terminates ↔ ¬scope.ExpandsForever) ∧
    ((∀ schema, scope.document.Holds (.inline schema) → schema.allOf = []) → scope.Terminates) ∧
    ∀ hint position node outcome,
      MemberLoop scope.document hint position [] node outcome ↔
        memberObject scope.document hint position (freshPointers scope.document node) node
          = outcome := by
  refine ⟨fun visit => Visit.settles_iff_not_expandsFrom, Scope.terminates_iff,
    fun plain => Scope.terminates_iff.mpr (Scope.not_expandsForever plain), ?_⟩
  intro hint position node outcome
  have loop : MemberLoop scope.document hint position [] node
      (memberObject scope.document hint position (freshPointers scope.document node) node) := by
    refine .memberObject fun reference listed => ?_
    have ahead : reference.pointer ∈ freshPointers scope.document node :=
      List.mem_map.mpr ⟨reference, listed, rfl⟩
    simp [ahead]
  constructor
  · intro other
    exact loop.unique other
  · rintro rfl
    exact loop

/-- A folder with a parent that is composed of a folder again but that its order leaves out; next to
it stands an alias of itself. -/
def folders : Document where
  schemas := [
    ("Folder", .inline {
      type := some .object
      order := ["name"]
      properties := [
        ("name", .inline { type := some .string }),
        ("parent", .inline { allOf := [.ref {
          pointer := "#/components/schemas/Folder"
          binding := some (.here "Folder" ⟨"Folder", []⟩) }] })] }),
    ("Alias", .ref {
      pointer := "#/components/schemas/Alias"
      binding := some (.here "Alias" ⟨"Alias", []⟩) })]

/-- The parent is not declared, so that nothing is taken in. -/
theorem folders_not_expandsForever : ¬Scope.ExpandsForever ⟨folders, {}⟩ := by
  rintro ⟨chain, holds, steps⟩
  obtain ⟨inner, message, enters, path, takesIn⟩ := steps 0
  -- the one property in the document that is declared leads nowhere
  have plain : inner.node = .inline { type := some .string } := by
    obtain ⟨property, listed, found⟩ := enters.listed
    obtain ⟨name, top, atTop, contains⟩ := holds
    have known := Entries.mem_of_get? atTop
    simp only [folders, List.mem_cons, List.not_mem_nil, or_false, Prod.mk.injEq] at known
    generalize (chain 0).2 = object at listed found contains
    rcases known with ⟨_, rfl⟩ | ⟨_, rfl⟩
    · simp [Node.contains_inline_iff, Node.contains_ref_iff, Schema.children] at contains
      rcases contains with rfl | rfl | rfl
      · obtain rfl := List.mem_singleton.mp listed
        exact (Option.some.inj found).symm
      · cases found
      · cases found
    · simp [Node.contains_ref_iff] at contains
  obtain ⟨following, hint, _⟩ := inner
  obtain rfl : _ = Node.inline { type := some .string } := plain
  have simple (object : Schema Node) (message : Message Decl) :
      ¬Visit.TakesIn ⟨folders, {}⟩ ⟨following, hint, .inline { type := some .string }⟩ object
        message := by
    intro takesIn
    obtain ⟨schema, inline, composed⟩ := takesIn.composed
    cases inline
    exact composed rfl
  rcases path.cases_head with same | ⟨next, step, _⟩
  · rw [← same] at takesIn
    exact simple _ _ takesIn
  · obtain ⟨_, child | ⟨object, message, takesIn, _⟩⟩ := step.inner
    · simp [Schema.children] at child
    · exact simple object message takesIn

theorem declaring_terminates_folders :
    ¬Scope.ExpandsForever ⟨folders, {}⟩ ∧ Scope.Terminates ⟨folders, {}⟩ :=
  ⟨folders_not_expandsForever,
    (declaring_terminates ⟨folders, {}⟩).2.1.mpr folders_not_expandsForever⟩

end Protoschema
