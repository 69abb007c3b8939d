import Protoschema.Diagnostic
import Protoschema.Schema.Reference
/-!
A run of declaring a node: what it came across, in order, and its outcome. What was met before an
error is kept, so that it can be spoken about; only a run that succeeds hands it on.
-/

namespace Protoschema

/-- What declaring a node comes across. -/
inductive Event
  /-- A schema of another document is used. -/
  | imported (package path : String)
  /-- A declaration of this document is linked by name. -/
  | linked (name : String) (target : Location)
  /-- A reference that is not bound is taken for the name at its end. -/
  | guessed (pointer : String)
  | warned (message : String)
deriving DecidableEq, Repr

/-- Events, and an outcome. -/
structure Run (α : Type) where
  events : List Event
  outcome : Except SchemaError α

namespace Run

variable {α β : Type}

/-- A run that meets nothing. -/
protected def pure (value : α) : Run α :=
  ⟨[], .ok value⟩

/-- A run that goes on with the value of another. -/
protected def bind (run : Run α) (next : α → Run β) : Run β :=
  match run.outcome with
  | .error error => ⟨run.events, .error error⟩
  | .ok value =>
    let later := next value
    ⟨run.events ++ later.events, later.outcome⟩

instance : Monad Run where
  pure := Run.pure
  bind := Run.bind

/-- A run that fails. -/
def fail (error : SchemaError) : Run α :=
  ⟨[], .error error⟩

/-- A run that only meets something. -/
def note (event : Event) : Run Unit :=
  ⟨[event], .ok ()⟩

/-- An outcome without events. -/
def ofExcept (outcome : Except SchemaError α) : Run α :=
  ⟨[], outcome⟩

/-- The packages used, with the paths to import. -/
def uses (run : Run α) : List (String × String) :=
  run.events.filterMap fun event =>
    match event with
    | .imported package path => some (package, path)
    | _ => none

/-- The warnings met. -/
def warnings (run : Run α) : List String :=
  run.events.filterMap fun event =>
    match event with
    | .warned message => some message
    | _ => none

@[simp] theorem pure_eq (value : α) : (pure value : Run α) = ⟨[], .ok value⟩ := rfl

@[simp] theorem bind_ok (events : List Event) (value : α) (next : α → Run β) :
    (⟨events, .ok value⟩ >>= next) = ⟨events ++ (next value).events, (next value).outcome⟩ := rfl

@[simp] theorem bind_error (events : List Event) (error : SchemaError) (next : α → Run β) :
    (⟨events, .error error⟩ >>= next) = ⟨events, .error error⟩ := rfl

end Run

end Protoschema
