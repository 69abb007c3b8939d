/-!
Named entries in the order in which they were first put: a list of pairs whose keys are looked up
from the front. Putting a key that is already there keeps its place and takes the new value.
-/

namespace Protoschema

/-- Values by name, in the order of first mention. -/
abbrev Entries (α : Type) := List (String × α)

namespace Entries

variable {α : Type}

/-- The names, in order. -/
def keys (entries : Entries α) : List String :=
  entries.map Prod.fst

/-- The value under `key`. -/
def get? : Entries α → String → Option α
  | [], _ => none
  | (name, value) :: rest, key => if name = key then some value else get? rest key

/-- Whether `key` names a value. -/
def has (entries : Entries α) (key : String) : Bool :=
  (entries.get? key).isSome

/-- Gives `key` the value: in its place if it is there, at the end if it is new. -/
def put : Entries α → String → α → Entries α
  | [], key, value => [(key, value)]
  | (name, old) :: rest, key, value =>
    if name = key then (name, value) :: rest else (name, old) :: put rest key value

/-- Drops the first entry under `key`; the others keep their order. -/
def drop : Entries α → String → Entries α
  | [], _ => []
  | (name, value) :: rest, key => if name = key then rest else (name, value) :: drop rest key

/-- The entries a sequence of puts leaves behind. -/
def ofList (pairs : List (String × α)) : Entries α :=
  pairs.foldl (fun entries pair => put entries pair.1 pair.2) []

/-- Keeps the first entry of every name. -/
def addNew (entries : Entries α) (key : String) (value : α) : Entries α :=
  if entries.has key then entries else entries ++ [(key, value)]

@[simp] theorem keys_nil : keys ([] : Entries α) = [] := rfl

@[simp] theorem keys_cons (name : String) (value : α) (rest : Entries α) :
    keys ((name, value) :: rest) = name :: keys rest := rfl

theorem has_iff_mem_keys (entries : Entries α) (key : String) :
    entries.has key = true ↔ key ∈ entries.keys := by
  induction entries with
  | nil => simp [has, get?, keys]
  | cons head rest induction =>
    obtain ⟨name, value⟩ := head
    by_cases same : name = key
    · simp [has, get?, keys, same]
    · have other : key ≠ name := fun h => same h.symm
      simpa [has, get?, keys, same, other] using induction

theorem get?_put_self (entries : Entries α) (key : String) (value : α) :
    (entries.put key value).get? key = some value := by
  induction entries with
  | nil => simp [put, get?]
  | cons head rest induction =>
    obtain ⟨name, old⟩ := head
    by_cases same : name = key <;> simp [put, get?, same, induction]

end Entries

/-- Names in ascending order of their characters. -/
def sortedNames (names : List String) : List String :=
  names.mergeSort fun a b => decide (a ≤ b)

end Protoschema
