import Protoschema.Proofs.Bound
import Protoschema.Proofs.Sightings
/-!
The names that are read off pointers. A reference that is bound to another document, or to nothing,
is declared by the name at the end of its pointer. That is the escaped name of a schema, and it is
not unescaped. So a schema is called by the identifier that its own document declares it under
exactly if its name has nothing to escape.
-/

namespace Protoschema

namespace Pointer

/-- A name is its own segment of a pointer: it has no tilde and no slash. -/
def IsPlain (name : String) : Prop :=
  '~' ∉ name.toList ∧ '/' ∉ name.toList

instance (name : String) : Decidable (IsPlain name) :=
  inferInstanceAs (Decidable (_ ∧ _))

/-! ### The segments of a pointer -/

theorem length_escapeChars (name : List Char) :
    (escapeChars name).length = name.length + name.count '~' + name.count '/' := by
  induction name with
  | nil => rfl
  | cons c rest induction =>
    simp only [escapeChars]
    split
    next tilde =>
      subst tilde
      simp only [List.length_cons, List.count_cons_self, induction,
        List.count_cons_of_ne (by decide : '~' ≠ '/')]
      omega
    · split
      next slash =>
        subst slash
        simp only [List.length_cons, List.count_cons_self, induction,
          List.count_cons_of_ne (by decide : '/' ≠ '~')]
        omega
      next noTilde noSlash =>
        simp only [List.length_cons, List.count_cons_of_ne noTilde, List.count_cons_of_ne noSlash,
          induction]
        omega

theorem IsPlain.escape_eq {name : String} (plain : IsPlain name) : escape name = name := by
  have kept (chars : List Char) (tilde : '~' ∉ chars) (slash : '/' ∉ chars) :
      escapeChars chars = chars := by
    induction chars with
    | nil => rfl
    | cons c rest induction =>
      simp only [List.mem_cons, not_or] at tilde slash
      rw [escapeChars, if_neg (Ne.symm tilde.1), if_neg (Ne.symm slash.1),
        induction tilde.2 slash.2]
  rw [escape, kept _ plain.1 plain.2, String.ofList_toList]

theorem escapeChars_ne_nil {name : List Char} (named : name ≠ []) : escapeChars name ≠ [] := by
  intro none
  have long := length_escapeChars name
  rw [none, List.length_nil] at long
  have short : name.length = 0 := by omega
  exact named (List.length_eq_zero_iff.mp short)

/-- A pointer falls apart at its first `#`, wherever the schema's name has more of them. -/
theorem split_ofSchema {document : String} (whole : '#' ∉ document.toList) (name : String) :
    split (document ++ ofSchema name) = (document, "/components/schemas/" ++ escape name) := by
  have inside : ∀ c ∈ document.toList, (c != '#') = true := by
    intro c member
    simpa using fun same : c = '#' => whole (same ▸ member)
  have chars : (document ++ ofSchema name).toList
      = document.toList ++ '#' :: ("/components/schemas/" ++ escape name).toList := by
    simp [ofSchema, schemasRoot]
  rw [split, chars]
  generalize "/components/schemas/" ++ escape name = fragment
  simp [List.takeWhile_append_of_pos inside, List.dropWhile_append_of_pos inside]

/-- The name at the end of the pointer of a schema is the schema's name as it is escaped. -/
theorem lastName_ofSchema {document name : String} (whole : '#' ∉ document.toList)
    (named : name ≠ "") : lastName (document ++ ofSchema name) = escape name := by
  have nonempty : escapeChars name.toList ≠ [] := escapeChars_ne_nil (by simpa using named)
  have segments : ("/components/schemas/" ++ escape name).toList.splitOn '/'
      = [[], "components".toList, "schemas".toList, escapeChars name.toList] := by
    have joined : ("/components/schemas/" ++ escape name).toList = ['/'].intercalate
        [[], "components".toList, "schemas".toList, escapeChars name.toList] := by
      simp [escape, List.intercalate]
    rw [joined]
    apply List.splitOn_intercalate
    · -- none of the segments has a slash in it
      have escaped := slash_notMem_escapeChars name.toList
      simp [escaped]
    · simp
  have fragment : "/components/schemas/" ++ escape name ≠ "" := by simp
  unfold lastName
  simp only [split_ofSchema whole, if_neg fragment, segments]
  simp [nonempty, escape]

end Pointer

/-! ### Escaped names as identifiers -/

namespace Ident

/-- A name starts with a digit exactly if it does when it is escaped. -/
theorem head?_clean_escapeChars (name : List Char) :
    (clean (Pointer.escapeChars name)).head? = (clean name).head? := by
  cases name with
  | nil => rfl
  | cons c rest =>
    simp only [Pointer.escapeChars]
    split
    next tilde =>
      subst tilde
      rfl
    · split
      next slash =>
        subst slash
        rfl
      · rfl

/-- Every escape makes the identifier longer, so that it is another one. -/
theorem normalize_escape_iff (name : String) :
    normalize (Pointer.escape name) = normalize name ↔ Pointer.IsPlain name := by
  constructor
  · intro same
    have lengths := congrArg (fun text => text.toList.length) same
    simp only [length_normalize, Pointer.escape, String.toList_ofList,
      head?_clean_escapeChars, Pointer.length_escapeChars] at lengths
    have tildes : name.toList.count '~' = 0 := by omega
    have slashes : name.toList.count '/' = 0 := by omega
    exact ⟨List.count_eq_zero.mp tildes, List.count_eq_zero.mp slashes⟩
  · intro plain
    rw [plain.escape_eq]

end Ident

/-! ### What references are declared by -/

namespace Reference

variable {reference : Reference} {document name : String}

theorem guess_outcome (pointed : reference.pointer = document ++ Pointer.ofSchema name)
    (whole : '#' ∉ document.toList) (named : name ≠ "") :
    (guess reference).outcome = .ok (.named (Ident.normalize (Pointer.escape name))) := by
  have last := Pointer.lastName_ofSchema whole named
  rw [← pointed] at last
  rw [← last]
  rfl

theorem Lost.declareReference_eq {scope : Scope} (lost : reference.Lost scope.document)
    (declare : List String → Declarer) (following : List String) (hint : String) :
    declareReference scope declare following hint reference = guess reference := by
  unfold Lost at lost
  unfold declareReference
  cases bound : reference.binding with
  | none => rfl
  | some binding =>
    cases binding with
    | here label target =>
      simp only [bound] at lost
      simp only [lost]
    | elsewhere package label path => simp [bound] at lost

/-- A pointer that names a document binds the reference to it, whatever the directory holds. -/
theorem BoundIn.elsewhere {directory : Directory} (bound : reference.BoundIn directory)
    (pointed : reference.pointer = document ++ Pointer.ofSchema name)
    (whole : '#' ∉ document.toList) (given : document ≠ "") (named : name ≠ "") :
    ∃ package path,
      reference.binding = some (.elsewhere package (Pointer.escape name) path) := by
  have external : Pointer.isExternal reference.pointer = true := by
    rw [pointed, Pointer.isExternal, Pointer.split_ofSchema whole]
    simpa using given
  have last : Pointer.lastName reference.pointer = Pointer.escape name := by
    rw [pointed, Pointer.lastName_ofSchema whole named]
  rw [bound, bindingIn?, externalBinding?, if_pos external, last]
  exact ⟨_, _, rfl⟩

end Reference

/-- The identifier under which a document declares a schema, and by which its directory links it. -/
theorem Document.ident_of_declareSchema {owner : Document} {options : Options} {name : String}
    {node : Node} {declared : Declared} (found : owner.schema? name = some node)
    (declares : (Shape.of node).declares = true)
    (compiled : owner.declareSchema options name = some (.ok declared)) :
    declared.decl.ident = Ident.normalize name ∧
      (Directory.ofDocument owner).get? (Pointer.ofSchema name)
        = some ⟨Ident.normalize name, ⟨name, []⟩⟩ := by
  constructor
  · have become := declareSchema_becomes compiled found declares
    rw [Decl.ident, become.name declares]
  · have present : (owner.lookup ⟨name, []⟩).isSome := by
      rw [lookup, found]
      rfl
    exact directory_get?_of_lookup present

/-- Pointers name schemas as they are escaped. A reference to a schema of a name is declared by the
identifier of the escaped name: alone if nothing stands behind a local pointer, and behind the
package if the pointer names a document. That is the identifier under which the schema's own
document declares it exactly if the name has nothing to escape. -/
theorem Scope.names_from_pointers (scope : Scope) (declare : List String → Declarer)
    (following : List String) (hint document name : String) (reference : Reference)
    (named : name ≠ "") (whole : '#' ∉ document.toList)
    (pointed : reference.pointer = document ++ Pointer.ofSchema name) :
    let outcome := (declareReference scope declare following hint reference).outcome
    let emitted := Ident.normalize (Pointer.escape name)
    (document = "" → reference.Lost scope.document →
      outcome = .ok (.named emitted) ∧ Proto.typeText (.named emitted) = emitted) ∧
    (document ≠ "" → ∀ directory, reference.BoundIn directory →
      ∃ package path, reference.binding = some (.elsewhere package (Pointer.escape name) path) ∧
        let qualifier := scope.options.packageName package
        outcome = .ok (.named (qualifier ++ "." ++ emitted)) ∧
          Proto.typeText (.named (qualifier ++ "." ++ emitted))
            = Ident.qualified qualifier ++ "." ++ emitted) ∧
    (emitted = Ident.normalize name ↔ Pointer.IsPlain name) ∧
    ∀ (owner : Document) (options : Options) (node : Node) (declared : Declared),
      owner.schema? name = some node → (Shape.of node).declares = true →
      owner.declareSchema options name = some (.ok declared) →
      declared.decl.ident = Ident.normalize name ∧
        (Directory.ofDocument owner).get? (Pointer.ofSchema name)
          = some ⟨Ident.normalize name, ⟨name, []⟩⟩ := by
  intro outcome emitted
  refine ⟨fun _ lost => ⟨?_, ?_⟩, ?_, Ident.normalize_escape_iff name, ?_⟩
  · have guessed := Reference.guess_outcome pointed whole named
    rwa [← lost.declareReference_eq declare following hint] at guessed
  · exact Ident.qualified_normalize _
  · intro given directory bound
    obtain ⟨package, path, binding⟩ := bound.elsewhere pointed whole given named
    refine ⟨package, path, binding, ?_, ?_⟩
    · have run : outcome = (declareReference scope declare following hint reference).outcome := rfl
      rw [run, declareReference, binding]
      rfl
    · change Ident.qualified (_ ++ "." ++ Ident.normalize (Pointer.escape name)) = _
      rw [Ident.qualified_append, Ident.qualified_normalize]
  · intro owner options node declared found declares compiled
    exact Document.ident_of_declareSchema found declares compiled

/-- A document with a schema whose name has dots, starts with a digit and holds the sign at which
pointers are split. -/
def receipt : Document where
  schemas := [("2nd#line.item", .inline {
    type := some .object
    order := ["text"]
    properties := [("text", .inline { type := some .string })] })]

theorem Scope.names_from_pointers_receipt :
    let scope : Scope := ⟨{}, { renames := [("receipt", "till.v1")] }⟩
    let declareIn := declareReference scope (declareWithin scope 0) [] "Cart_item"
    let external : Reference :=
      Reference.bind {} { pointer := "receipt.yaml#/components/schemas/2nd#line.item" }
    let unknown : Reference := { pointer := "#/components/schemas/2nd#line.item" }
    Pointer.IsPlain "2nd#line.item" ∧ external.BoundIn {} ∧ unknown.Lost {} ∧
      (declareIn external).outcome = .ok (.named "till.v1._2nd_line_item") ∧
      (declareIn unknown).outcome = .ok (.named "_2nd_line_item") ∧
      ∃ declared, receipt.declareSchema {} "2nd#line.item" = some (.ok declared) ∧
        declared.decl.ident = "_2nd_line_item" := by
  intro scope declareIn external unknown
  have plain : Pointer.IsPlain "2nd#line.item" := by decide
  have bound : external.BoundIn {} := Reference.boundIn_bind rfl {}
  have lost : unknown.Lost {} := trivial
  obtain ⟨_, elsewhere, same, _⟩ := names_from_pointers scope (declareWithin scope 0) []
    "Cart_item" "receipt.yaml" "2nd#line.item" external (by decide) (by decide) (by decide)
  obtain ⟨guessed, _, _, owned⟩ := names_from_pointers scope (declareWithin scope 0) []
    "Cart_item" "" "2nd#line.item" unknown (by decide) (by decide) (by decide)
  have ident : Ident.normalize (Pointer.escape "2nd#line.item") = "_2nd_line_item" :=
    (same.mpr plain).trans (by decide)
  rw [ident] at elsewhere guessed
  obtain ⟨package, path, binding, outcome, _⟩ := elsewhere (by decide) {} bound
  cases binding
  refine ⟨plain, bound, lost, outcome, (guessed rfl lost).1, _, rfl, ?_⟩
  exact (owned receipt {} _ _ rfl rfl rfl).1.trans (by decide)

/-- A cart that refers to the prices of a shop, once by its document and once without it. -/
def cart : Document where
  schemas := [("Cart", .inline {
    type := some .object
    order := ["total", "each"]
    properties := [
      ("total", .ref { pointer := "shop.yaml#/components/schemas/price~1unit" }),
      ("each", .ref { pointer := "#/components/schemas/price~1unit" })] })]

def shop : Document where
  schemas := [("price/unit", .inline {
    type := some .object
    order := ["amount"]
    properties := [("amount", .inline { type := some .integer })] })]

/-- The shop declares its prices under another identifier than the one that the cart uses. -/
theorem Document.schema_misnamed_cart :
    (∃ declared, (cart.bind none).1.declareSchema {} "Cart" = some (.ok declared) ∧
      declared.decl = .message {
        name := "Cart"
        fields := [⟨"total", 1, .named "shop.price_1unit", none⟩,
          ⟨"each", 2, .named "price_1unit", none⟩] }) ∧
    ∃ declared, shop.declareSchema {} "price/unit" = some (.ok declared) ∧
      declared.decl.ident = "price_unit" := by
  refine ⟨⟨_, rfl, rfl⟩, ⟨_, rfl, ?_⟩⟩
  decide

end Protoschema
