import Protoschema.Proofs.FilterTransparency
import Protoschema.Proofs.Rebinding
/-!
What was done with a document before does not show in what it is compiled to. Binding leaves
bindings behind, for all schemas or for those that some roots lead to, and a compilation does so
too; but they are the bindings that the document's one directory gives, so that after any history
the document is what it was with some of its schemas bound.
-/

namespace Protoschema

/-! ### Documents that have been bound in part -/

namespace Document

variable (document : Document) (chosen : List String)

theorem bind_bindSome (roots : Option (List String)) :
    (document.bindSome (Directory.ofDocument document) chosen).bind roots
      = (document.bindSome (Directory.ofDocument document) chosen).bindFrom
        (Directory.ofDocument document) roots := by
  rw [bind, directory_bindSome]

/-- Binding everything makes up for whatever has not been bound. -/
theorem bindFrom_none_bindSome (directory : Directory) :
    ((document.bindSome directory chosen).bindFrom directory none).1
      = (document.bindFrom directory none).1 := by
  rw [bindFrom_eq_bindSome, visits_bindSome, bindSome_bindSome, bindFrom_eq_bindSome]
  refine bindSome_congr _ _ fun name known => ?_
  simp [visits, known]

/-- A schema that is visited is declared alike, whatever has been bound before: both ways, it is
declared as in the document that is bound as a whole. -/
theorem declareSchema_bindSome (directory : Directory) (options : Options)
    (roots : Option (List String)) {name : String}
    (visited : name ∈ document.visits directory roots) :
    ((document.bindSome directory chosen).bindFrom directory roots).1.declareSchema options name
      = (document.bindFrom directory roots).1.declareSchema options name := by
  cases roots with
  | none => rw [bindFrom_none_bindSome]
  | some roots =>
    have sameOptions : options.SameOutput options := ⟨rfl, rfl, rfl⟩
    have visitedAgain :
        name ∈ (document.bindSome directory chosen).visits directory (some roots) := by
      rwa [visits_bindSome]
    -- where the roots lead, either document agrees with the one that is bound as a whole
    have partly := (bindFrom_agreeOn (document.bindSome directory chosen) directory
      roots).declareSchema sameOptions visitedAgain
    have freshly := (bindFrom_agreeOn document directory roots).declareSchema sameOptions visited
    rw [partly, freshly, bindFrom_none_bindSome]

/-- What is selected is visited. -/
theorem mem_visits_of_selected (directory : Directory) {only : Option (List String)} {name : String}
    (member : name ∈ document.selected only) : name ∈ document.visits directory only := by
  obtain ⟨known, listed⟩ := (document.mem_selected_iff only name).mp member
  cases only with
  | none => exact known
  | some filter =>
    exact (mem_visitOrder_iff document directory filter name).mpr
      ⟨name, listed filter rfl, .refl⟩

theorem outcomes_bindSome (options : Options) (directory : Directory) :
    ((document.bindSome directory chosen).bindFrom directory options.only).1.outcomes options
      = (document.bindFrom directory options.only).1.outcomes options := by
  have names : ((document.bindSome directory chosen).bindFrom directory options.only).1.names
      = document.names := by
    rw [names_bindFrom, names_bindSome]
  have names' := document.names_bindFrom directory options.only
  -- the same names are selected, and whatever is selected has been visited
  rw [outcomes, outcomes, selected_congr names, selected_congr names']
  refine List.filterMap_congr fun name member => ?_
  rw [declareSchema_bindSome _ _ _ _ _ (document.mem_visits_of_selected directory member)]

/-- A document that has been bound in part compiles to what it compiles to without that. -/
theorem compile_bindSome (options : Options) :
    ((document.bindSome (Directory.ofDocument document) chosen).compile options).2
      = (document.compile options).2 := by
  rw [compile, compile, bind_bindSome, bind]
  dsimp only
  rw [compileBound, compileBound, outcomes_bindSome, diagnostics_bindFrom_bindSome]

end Document

/-! ### Sessions -/

/-- What can be asked for while a document is held. -/
inductive Call
  /-- To bind references through the document's own directory. -/
  | bind (roots : Option (List String))
  /-- To make a directory and keep it. -/
  | index
  /-- To bind references through a directory that has been kept. -/
  | bindThrough (position : Nat) (roots : Option (List String))
  /-- To declare a schema as the document is. -/
  | declare (options : Options) (name : String)
  | compile (options : Options)

/-- What is answered. -/
inductive Reply
  | bound (report : BindReport)
  | indexed (size : Nat)
  | noDirectory
  | declared (outcome : Option (Except SchemaError Declared))
  /-- A compilation and its text, or the error that ended it. -/
  | compiled (outcome : Except SchemaError (Compilation × String))

/-- A document and the directories that were made of it so far. -/
structure Session where
  document : Document
  directories : List Directory := []

namespace Session

/-- Does what is asked for. -/
def call (session : Session) : Call → Session × Reply
  | .bind roots =>
    let (document, report) := session.document.bind roots
    ({ session with document }, .bound report)
  | .index =>
    let directory := Directory.ofDocument session.document
    ({ session with directories := session.directories ++ [directory] }, .indexed directory.size)
  | .bindThrough position roots =>
    match session.directories[position]? with
    | none => (session, .noDirectory)
    | some directory =>
      let (document, report) := session.document.bindFrom directory roots
      ({ session with document }, .bound report)
  | .declare options name => (session, .declared (session.document.declareSchema options name))
  | .compile options =>
    let (document, outcome) := session.document.compile options
    ({ session with document },
      .compiled (outcome.map fun compilation => (compilation, compilation.text options)))

/-- The session after some calls. -/
def after (session : Session) (calls : List Call) : Session :=
  calls.foldl (fun session call => (session.call call).1) session

/-- A session that holds a document some of whose schemas have been bound, and no directories but
its own. -/
structure Holds (document : Document) (session : Session) : Prop where
  bound : ∃ chosen, session.document
    = document.bindSome (Directory.ofDocument document) chosen
  own : ∀ directory ∈ session.directories, directory = Directory.ofDocument document

namespace Holds

variable {document : Document} {session : Session}

theorem start (document : Document) : Holds document ⟨document, []⟩ where
  bound := ⟨[], by simp [Document.bindSome, Document.mapSchemas]⟩
  own := by simp

theorem directory_eq (holds : Holds document session) :
    Directory.ofDocument session.document = Directory.ofDocument document := by
  obtain ⟨chosen, same⟩ := holds.bound
  rw [same, Document.directory_bindSome]

theorem bindFrom (holds : Holds document session) (roots : Option (List String)) :
    Holds document { session with
      document := (session.document.bindFrom (Directory.ofDocument document) roots).1 } where
  bound := by
    obtain ⟨chosen, same⟩ := holds.bound
    rw [same, Document.bindFrom_eq_bindSome, Document.bindSome_bindSome]
    exact ⟨_, rfl⟩
  own := holds.own

/-- No call does more to the document than to bind further schemas. -/
theorem call (holds : Holds document session) (call : Call) :
    Holds document (session.call call).1 := by
  have binds (roots : Option (List String)) :
      Holds document { session with document := (session.document.bind roots).1 } := by
    rw [Document.bind, holds.directory_eq]
    exact holds.bindFrom roots
  cases call with
  | bind roots => exact binds roots
  | index =>
    refine ⟨holds.bound, fun directory member => ?_⟩
    -- a directory that is made now is the same as at the start
    rcases List.mem_append.mp member with kept | new
    · exact holds.own directory kept
    · rw [List.mem_singleton.mp new, holds.directory_eq]
  | bindThrough position roots =>
    simp only [Session.call]
    split
    · exact holds
    next directory kept =>
      rw [holds.own directory (List.mem_of_getElem? kept)]
      exact holds.bindFrom roots
  | declare options name => exact holds
  | compile options => exact binds options.only

theorem after (holds : Holds document session) (calls : List Call) :
    Holds document (session.after calls) := by
  induction calls generalizing session with
  | nil => exact holds
  | cons first rest induction => exact induction (holds.call first)

end Holds

/-- Compiling does not depend on what was done before. After any calls on a document, with any roots
and options and in any order, it is compiled to the same declarations, imports, diagnostics,
failures and text, or ends with the same error, as at the start; nor does it matter what had been
bound when the session started. -/
theorem compile_after (document : Document) (calls : List Call) (options : Options) :
    ((Session.after ⟨document, []⟩ calls).call (.compile options)).2
      = (Session.call ⟨document, []⟩ (.compile options)).2 := by
  obtain ⟨chosen, same⟩ := ((Holds.start document).after calls).bound
  simp only [call, same, Document.compile_bindSome]

end Session

end Protoschema
