import Mathlib.Data.List.Basic
import Protoschema.Entries
/-!
Looking up entries, and names in ascending order: sorting depends on nothing but which names there
are and how often.
-/

namespace Protoschema

namespace Entries

variable {α β : Type}

theorem mem_of_get? {entries : Entries α} {key : String} {value : α}
    (found : entries.get? key = some value) : (key, value) ∈ entries := by
  induction entries with
  | nil => simp [get?] at found
  | cons head rest induction =>
    obtain ⟨name, old⟩ := head
    simp only [get?] at found
    split at found
    next same =>
      cases found
      simp [same]
    next => exact List.mem_cons_of_mem _ (induction found)

theorem get?_map (f : String → α → β) (entries : Entries α) (key : String) :
    Entries.get? (entries.map fun entry => (entry.1, f entry.1 entry.2)) key
      = (entries.get? key).map (f key) := by
  induction entries with
  | nil => rfl
  | cons head rest induction =>
    obtain ⟨name, value⟩ := head
    by_cases same : name = key
    · simp [get?, same]
    · simpa [get?, same] using induction

theorem get?_eq_none_iff {entries : Entries α} {key : String} :
    entries.get? key = none ↔ key ∉ entries.keys := by
  rw [← has_iff_mem_keys, has]
  simp

/-- Which names are there does not depend on their values or their order. -/
theorem has_congr {entries : Entries α} {entries' : Entries β}
    (keys : entries.keys.Perm entries'.keys) : entries.has = entries'.has := by
  funext name
  apply Bool.eq_iff_iff.mpr
  rw [has_iff_mem_keys, has_iff_mem_keys]
  exact keys.mem_iff

theorem get?_eq_some_iff {entries : Entries α} (distinct : entries.keys.Nodup) {key : String}
    {value : α} : entries.get? key = some value ↔ (key, value) ∈ entries := by
  refine ⟨mem_of_get?, fun member => ?_⟩
  induction entries with
  | nil => cases member
  | cons head rest induction =>
    obtain ⟨name, old⟩ := head
    obtain ⟨fresh, distinct⟩ := List.nodup_cons.mp distinct
    rcases List.mem_cons.mp member with same | later
    · cases same
      simp [get?]
    · have other : name ≠ key := by
        rintro rfl
        exact fresh (List.mem_map.mpr ⟨_, later, rfl⟩)
      simpa [get?, other] using induction distinct later

theorem get?_put (entries : Entries α) (key other : String) (value : α) :
    (entries.put key value).get? other
      = if key = other then some value else entries.get? other := by
  induction entries with
  | nil => simp [put, get?]
  | cons head rest induction =>
    obtain ⟨name, old⟩ := head
    by_cases same : name = key
    · subst same
      by_cases wanted : name = other <;> simp [put, get?, wanted]
    · by_cases wanted : name = other
      · subst wanted
        simp [put, get?, same, Ne.symm same]
      · simp [put, get?, same, wanted, induction]

/-- Putting a value changes no entry under another key. -/
theorem mem_put_of_ne {entries : Entries α} {key : String} {value : α} {entry : String × α}
    (other : entry.1 ≠ key) : entry ∈ entries.put key value ↔ entry ∈ entries := by
  have new (old : α) : entry ≠ (key, old) := fun same => other (congrArg Prod.fst same)
  induction entries with
  | nil => simp [put, new]
  | cons head rest induction =>
    obtain ⟨name, old⟩ := head
    by_cases same : name = key
    · subst same
      simp [put, new]
    · simp [put, same, induction]

theorem keys_put (entries : Entries α) (key : String) (value : α) :
    (entries.put key value).keys
      = if key ∈ entries.keys then entries.keys else entries.keys ++ [key] := by
  induction entries with
  | nil => simp [put, keys]
  | cons head rest induction =>
    obtain ⟨name, old⟩ := head
    by_cases same : name = key
    · simp [put, same]
    · have other : key ≠ name := fun h => same h.symm
      by_cases known : key ∈ keys rest <;> simp [put, same, other, known, induction]

/-- However often a key was put, it is there once. -/
theorem nodup_keys_ofList (pairs : List (String × α)) : (ofList pairs).keys.Nodup := by
  have puts (entries : Entries α) (distinct : entries.keys.Nodup) :
      (pairs.foldl (fun entries pair => put entries pair.1 pair.2) entries).keys.Nodup := by
    induction pairs generalizing entries with
    | nil => exact distinct
    | cons head rest induction =>
      refine induction _ ?_
      rw [keys_put]
      split
      · exact distinct
      next new =>
        refine List.nodup_append.mpr ⟨distinct, by simp, ?_⟩
        rintro name known _ last rfl
        exact new (List.mem_singleton.mp last ▸ known)
  exact puts [] List.nodup_nil

theorem mem_of_mem_put {entries : Entries α} {key : String} {value : α} {entry : String × α}
    (listed : entry ∈ entries.put key value) : entry ∈ entries ∨ entry = (key, value) := by
  induction entries with
  | nil => exact .inr (List.mem_singleton.mp listed)
  | cons head rest induction =>
    rw [put] at listed
    split at listed
    next same =>
      rcases List.mem_cons.mp listed with new | old
      · exact .inr (same ▸ new)
      · exact .inl (List.mem_cons_of_mem _ old)
    · rcases List.mem_cons.mp listed with first | later
      · exact .inl (first ▸ List.mem_cons_self)
      · exact (induction later).imp_left (List.mem_cons_of_mem _)

/-- Every entry was put. -/
theorem mem_of_mem_ofList {pairs : List (String × α)} {entry : String × α}
    (listed : entry ∈ ofList pairs) : entry ∈ pairs := by
  have puts (pairs : List (String × α)) (entries : Entries α) (listed : entry ∈
      pairs.foldl (fun entries pair => put entries pair.1 pair.2) entries) :
      entry ∈ entries ∨ entry ∈ pairs := by
    induction pairs generalizing entries with
    | nil => exact .inl listed
    | cons head rest induction =>
      rcases induction _ listed with before | later
      · exact (mem_of_mem_put before).imp_right fun (same : entry = head) =>
          same ▸ List.mem_cons_self
      · exact .inr (List.mem_cons_of_mem _ later)
  exact (puts pairs [] listed).resolve_left List.not_mem_nil

/-- When no two values were put under one key, exactly the values that were put are found. -/
theorem get?_ofList_eq_some_iff {pairs : List (String × α)}
    (consistent : ∀ key value value', (key, value) ∈ pairs → (key, value') ∈ pairs → value = value')
    {key : String} {value : α} : (ofList pairs).get? key = some value ↔ (key, value) ∈ pairs := by
  have puts (entries : Entries α) :
      (pairs.foldl (fun entries pair => put entries pair.1 pair.2) entries).get? key = some value ↔
        (key, value) ∈ pairs ∨ (entries.get? key = some value ∧ key ∉ pairs.map Prod.fst) := by
    induction pairs generalizing entries with
    | nil => simp
    | cons head rest induction =>
      obtain ⟨name, put⟩ := head
      have later := induction fun key value value' first second =>
        consistent key value value' (List.mem_cons_of_mem _ first) (List.mem_cons_of_mem _ second)
      simp only [List.foldl_cons, later, get?_put, List.mem_cons, List.map_cons, Prod.mk.injEq,
        not_or]
      by_cases same : name = key
      · subst same
        -- a later value under the same key is the same value, so it does not matter which one stays
        by_cases again : name ∈ rest.map Prod.fst
        · obtain ⟨⟨name', value'⟩, member, rfl⟩ := List.mem_map.mp again
          have equal := consistent name' put value' List.mem_cons_self
            (List.mem_cons_of_mem _ member)
          subst equal
          grind
        · grind
      · grind
  simpa [ofList, get?] using puts []

end Entries

/-! ### Sorted names -/

theorem sortedNames_perm (names : List String) : (sortedNames names).Perm names :=
  List.mergeSort_perm names _

@[simp] theorem mem_sortedNames {names : List String} {name : String} :
    name ∈ sortedNames names ↔ name ∈ names :=
  (sortedNames_perm names).mem_iff

theorem sortedNames_pairwise (names : List String) : (sortedNames names).Pairwise (· ≤ ·) := by
  have trans (a b c : String) (first : decide (a ≤ b) = true) (second : decide (b ≤ c) = true) :
      decide (a ≤ c) = true := by
    simp only [decide_eq_true_eq] at first second ⊢
    exact String.le_trans first second
  have total (a b : String) : (decide (a ≤ b) || decide (b ≤ a)) = true := by
    simpa using String.le_total a b
  simpa only [sortedNames, decide_eq_true_eq] using List.pairwise_mergeSort trans total names

theorem sortedNames_strict {names : List String} (distinct : names.Nodup) :
    (sortedNames names).Pairwise (· < ·) := by
  refine (sortedNames_pairwise names).imp₂ (fun a b below different => ?_)
    ((sortedNames_perm names).nodup_iff.mpr distinct)
  exact String.not_le.mp fun above => different (String.le_antisymm below above)

/-- Ascending lists of the same names are equal. -/
theorem eq_of_perm_of_ascending {names names' : List String} (perm : names.Perm names')
    (ascending : names.Pairwise (· ≤ ·)) (ascending' : names'.Pairwise (· ≤ ·)) :
    names = names' :=
  perm.eq_of_pairwise (fun _ _ _ _ => String.le_antisymm) ascending ascending'

theorem sortedNames_eq_of_perm {names names' : List String} (perm : names.Perm names') :
    sortedNames names = sortedNames names' :=
  eq_of_perm_of_ascending
    ((sortedNames_perm names).trans (perm.trans (sortedNames_perm names').symm))
    (sortedNames_pairwise names) (sortedNames_pairwise names')

theorem nodup_eraseDups (names : List String) : names.eraseDups.Nodup := by
  match names with
  | [] => exact List.nodup_nil
  | name :: rest =>
    rw [List.eraseDups_cons]
    refine List.nodup_cons.mpr ⟨fun again => ?_, nodup_eraseDups _⟩
    simp [List.mem_eraseDups] at again
-- the rest is filtered before it is gone through, hence the measure
termination_by names.length
decreasing_by exact Nat.lt_succ_of_le (List.length_filter_le _ rest)

end Protoschema
