import Mathlib.Logic.Relation
import Protoschema.Binding
import Protoschema.Proofs.Nodes
/-!
Which schemas binding visits. Every name comes up once, and with given roots the names that come up
are exactly those that the roots lead to, in any number of steps.
-/

namespace Protoschema.Document

variable (document : Document) (directory : Directory)

/-- A reference of the one schema leads into the other. -/
def LeadsTo (name next : String) : Prop :=
  next ∈ document.successors directory name

theorem successors_of_missing {name : String} (missing : name ∉ document.names) :
    document.successors directory name = [] := by
  have none : document.schema? name = none := Entries.get?_eq_none_iff.mpr missing
  simp [successors, none]

/-! ### The visiting loop -/

/-- Induction over the visiting loop. A name that is not in the document leads nowhere, so that one
case serves for all names that are visited. -/
theorem visitOrder_induction {motive : List String → List String → List String → Prop}
    (done : ∀ visited, motive [] visited [])
    (seen : ∀ name rest visited order, name ∈ visited → motive rest visited order →
      motive (name :: rest) visited order)
    (visit : ∀ name rest visited order, name ∉ visited →
      motive (rest ++ document.successors directory name) (name :: visited) order →
      motive (name :: rest) visited (name :: order))
    (queue visited : List String) :
    motive queue visited (document.visitOrder directory queue visited) := by
  fun_induction visitOrder document directory queue visited with
  | case1 visited => exact done visited
  | case2 visited name rest known induction => exact seen name rest visited _ known induction
  | case3 visited name rest fresh known induction => exact visit name rest visited _ fresh induction
  | case4 visited name rest fresh missing induction =>
    refine visit name rest visited _ fresh ?_
    rw [successors_of_missing document directory missing, List.append_nil]
    exact induction

/-- A name is visited again neither within the order nor after it was visited before. -/
theorem visitOrder_fresh (queue visited : List String) :
    (document.visitOrder directory queue visited).Nodup ∧
      ∀ name ∈ document.visitOrder directory queue visited, name ∉ visited := by
  refine visitOrder_induction document directory
    (motive := fun _ visited order => order.Nodup ∧ ∀ name ∈ order, name ∉ visited) ?_ ?_ ?_
    queue visited
  · simp
  · intro name rest visited order _ induction
    exact induction
  · intro name rest visited order fresh ⟨distinct, outside⟩
    refine ⟨List.nodup_cons.mpr ⟨fun again => ?_, distinct⟩, ?_⟩
    · exact outside name again List.mem_cons_self
    · intro other member
      rcases List.mem_cons.mp member with rfl | later
      · exact fresh
      · exact fun seen => outside other later (List.mem_cons_of_mem _ seen)

/-- Whatever is queued is visited, and what a visited schema leads to is visited too, unless it was
visited before. -/
theorem visitOrder_complete (queue visited : List String) :
    (∀ name ∈ queue, name ∈ visited ∨ name ∈ document.visitOrder directory queue visited) ∧
      ∀ name ∈ document.visitOrder directory queue visited, ∀ next,
        document.LeadsTo directory name next →
          next ∈ visited ∨ next ∈ document.visitOrder directory queue visited := by
  refine visitOrder_induction document directory
    (motive := fun queue visited order => (∀ name ∈ queue, name ∈ visited ∨ name ∈ order) ∧
      ∀ name ∈ order, ∀ next, document.LeadsTo directory name next →
        next ∈ visited ∨ next ∈ order) ?_ ?_ ?_ queue visited
  · simp
  · intro name rest visited order seen ⟨covers, closed⟩
    refine ⟨fun other member => ?_, closed⟩
    rcases List.mem_cons.mp member with rfl | later
    · exact Or.inl seen
    · exact covers other later
  · intro name rest visited order fresh ⟨covers, closed⟩
    constructor
    · intro other member
      rcases List.mem_cons.mp member with rfl | later
      · exact Or.inr List.mem_cons_self
      · have covered := covers other (List.mem_append_left _ later)
        grind
    · -- what a name leads to is queued when the name is visited, so it is covered later on
      intro other member next leads
      rcases List.mem_cons.mp member with rfl | later
      · have covered := covers next (List.mem_append_right _ leads)
        grind
      · have reached := closed other later next leads
        grind

/-- Only what the queue leads to is visited. -/
theorem visitOrder_reached (queue visited : List String) :
    ∀ name ∈ document.visitOrder directory queue visited, ∃ start ∈ queue,
      Relation.ReflTransGen (document.LeadsTo directory) start name := by
  refine visitOrder_induction document directory
    (motive := fun queue _ order => ∀ name ∈ order, ∃ start ∈ queue,
      Relation.ReflTransGen (document.LeadsTo directory) start name) ?_ ?_ ?_ queue visited
  · simp
  · intro name rest visited order _ induction other member
    obtain ⟨start, queued, reached⟩ := induction other member
    exact ⟨start, List.mem_cons_of_mem _ queued, reached⟩
  · intro name rest visited order _ induction other member
    rcases List.mem_cons.mp member with rfl | later
    · exact ⟨other, List.mem_cons_self, .refl⟩
    · obtain ⟨start, queued, reached⟩ := induction other later
      rcases List.mem_append.mp queued with old | new
      · exact ⟨start, List.mem_cons_of_mem _ old, reached⟩
      · exact ⟨name, List.mem_cons_self, .head new reached⟩

/-! ### Visits -/

/-- Binding from roots visits exactly what the roots lead to. -/
theorem mem_visitOrder_iff (roots : List String) (name : String) :
    name ∈ document.visitOrder directory roots [] ↔
      ∃ root ∈ roots, Relation.ReflTransGen (document.LeadsTo directory) root name := by
  constructor
  · exact visitOrder_reached document directory roots [] name
  · rintro ⟨root, member, reached⟩
    obtain ⟨covers, closed⟩ := visitOrder_complete document directory roots []
    induction reached with
    | refl => simpa using covers root member
    | tail _ leads induction => simpa using closed _ induction _ leads

end Protoschema.Document
