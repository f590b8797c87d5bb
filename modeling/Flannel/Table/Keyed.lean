import Mathlib.Data.List.Nodup
import Mathlib.Logic.Function.Basic

/-!
# Keyed lists

A list of rows read as a finite table. As long as no key occurs twice, `lookup`, `upsert` and
`erase` are lookup, update and removal in a partial function.
-/

namespace Flannel.Table

universe u v

variable {α : Type u} {κ : Type v} [DecidableEq κ] {key : α → κ}

def lookup (key : α → κ) (rows : List α) (k : κ) : Option α :=
  rows.find? fun row => decide (key row = k)

/-- Overwrite the first row with the key of `row`, or append it. -/
def upsert (key : α → κ) (row : α) (rows : List α) : List α :=
  match rows.findIdx? fun other => decide (key other = key row) with
  | some index => rows.set index row
  | none => rows ++ [row]

def erase (key : α → κ) (k : κ) (rows : List α) : List α :=
  rows.eraseP fun row => decide (key row = k)

@[simp]
theorem lookup_nil (k : κ) : lookup key [] k = none :=
  rfl

theorem lookup_cons (row : α) (rows : List α) (k : κ) :
    lookup key (row :: rows) k = if key row = k then some row else lookup key rows k := by
  by_cases here : key row = k <;> simp [lookup, here]

theorem lookup_eq_none_iff (rows : List α) (k : κ) :
    lookup key rows k = none ↔ k ∉ rows.map key := by
  simp [lookup]

variable {rows : List α} {row : α}

theorem mem_of_lookup {k : κ} (found : lookup key rows k = some row) :
    row ∈ rows :=
  List.mem_of_find?_eq_some found

theorem key_of_lookup {k : κ} (found : lookup key rows k = some row) :
    key row = k := by
  simpa using List.find?_some found

theorem lookup_eq_some_of_mem (distinct : (rows.map key).Nodup)
    (mem : row ∈ rows) : lookup key rows (key row) = some row := by
  induction rows with
  | nil => contradiction
  | cons first rows ih =>
    rw [List.map_cons, List.nodup_cons] at distinct
    rw [lookup_cons]
    rcases List.mem_cons.mp mem with rfl | mem
    · rw [if_pos rfl]
    · have other : key first ≠ key row := fun equal =>
        distinct.1 (equal ▸ List.mem_map_of_mem mem)
      rw [if_neg other, ih distinct.2 mem]

theorem upsert_cons (row first : α) (rows : List α) :
    upsert key row (first :: rows) =
      if key first = key row then row :: rows else first :: upsert key row rows := by
  by_cases here : key first = key row
  · simp [upsert, List.findIdx?_cons, here]
  · simp only [upsert, List.findIdx?_cons, here, decide_false, Bool.false_eq_true, if_false]
    cases rows.findIdx? fun other => decide (key other = key row) <;> rfl

theorem lookup_upsert (row : α) (rows : List α) (k : κ) :
    lookup key (upsert key row rows) k =
      if k = key row then some row else lookup key rows k := by
  induction rows with
  | nil =>
    have single : upsert key row [] = [row] := rfl
    rw [single, lookup_cons]
    by_cases here : key row = k
    · rw [if_pos here, if_pos here.symm]
    · rw [if_neg here, if_neg (Ne.symm here)]
  | cons first rows ih =>
    rw [upsert_cons]
    by_cases replaced : key first = key row
    · rw [if_pos replaced, lookup_cons, lookup_cons, replaced]
      by_cases here : k = key row
      · rw [if_pos here.symm, if_pos here]
      · rw [if_neg (Ne.symm here), if_neg here, if_neg (Ne.symm here)]
    · rw [if_neg replaced, lookup_cons, lookup_cons, ih]
      by_cases here : key first = k
      · rw [if_pos here, if_pos here, if_neg (here ▸ replaced)]
      · rw [if_neg here, if_neg here]

theorem map_key_upsert (row : α) (rows : List α) :
    (upsert key row rows).map key =
      if key row ∈ rows.map key then rows.map key else rows.map key ++ [key row] := by
  induction rows with
  | nil => rfl
  | cons first rows ih =>
    rw [upsert_cons]
    by_cases replaced : key first = key row
    · simp [replaced]
    · rw [if_neg replaced, List.map_cons, ih]
      by_cases later : key row ∈ rows.map key
      · have present : key row ∈ (first :: rows).map key := List.mem_cons_of_mem _ later
        rw [if_pos later, if_pos present, List.map_cons]
      · have absent : key row ∉ (first :: rows).map key := by
          simpa [Ne.symm replaced] using later
        rw [if_neg later, if_neg absent, List.map_cons, List.cons_append]

theorem nodup_upsert (distinct : (rows.map key).Nodup) (row : α) :
    ((upsert key row rows).map key).Nodup := by
  rw [map_key_upsert]
  by_cases present : key row ∈ rows.map key
  · rw [if_pos present]
    exact distinct
  · rw [if_neg present, List.nodup_append]
    refine ⟨distinct, List.nodup_singleton _, ?_⟩
    rintro k mem _ memSingle rfl
    exact present (List.mem_singleton.mp memSingle ▸ mem)

theorem mem_upsert {other : α} (mem : other ∈ upsert key row rows) :
    other = row ∨ other ∈ rows := by
  rw [upsert] at mem
  split at mem
  · exact (List.mem_or_eq_of_mem_set mem).symm
  · simpa [or_comm] using mem

theorem upsert_eq_self (found : lookup key rows (key row) = some row) :
    upsert key row rows = rows := by
  induction rows with
  | nil => contradiction
  | cons first rows ih =>
    rw [lookup_cons] at found
    rw [upsert_cons]
    by_cases here : key first = key row
    · rw [if_pos here] at found ⊢
      rw [Option.some.inj found]
    · rw [if_neg here] at found ⊢
      rw [ih found]

theorem filter_upsert {p : α → Bool} (byKey : ∀ other, key other = key row → p other = p row)
    (rows : List α) :
    (upsert key row rows).filter p =
      if p row then upsert key row (rows.filter p) else rows.filter p := by
  induction rows with
  | nil => cases kept : p row <;> simp [upsert, kept]
  | cons first rows ih =>
    rw [upsert_cons]
    by_cases here : key first = key row
    · have same := byKey first here
      rw [if_pos here]
      cases kept : p row <;> simp [kept, same, upsert_cons, here]
    · rw [if_neg here]
      cases first_kept : p first with
      | true =>
        rw [List.filter_cons_of_pos first_kept, List.filter_cons_of_pos first_kept, ih,
          upsert_cons, if_neg here]
        split <;> rfl
      | false =>
        rw [List.filter_cons_of_neg (by simp [first_kept]),
          List.filter_cons_of_neg (by simp [first_kept]), ih]

theorem lookup_filter {p : α → Bool} {k : κ} (keeps : ∀ row ∈ rows, key row = k → p row) :
    lookup key (rows.filter p) k = lookup key rows k := by
  induction rows with
  | nil => rfl
  | cons first rows ih =>
    have later := ih fun row mem => keeps row (.tail first mem)
    rw [lookup_cons]
    by_cases here : key first = k
    · rw [List.filter_cons_of_pos (keeps first (.head _) here), lookup_cons, if_pos here,
        if_pos here]
    · rw [if_neg here, ← later, List.filter_cons]
      split
      · rw [lookup_cons, if_neg here]
      · rfl

theorem erase_sublist (k : κ) (rows : List α) : (erase key k rows).Sublist rows :=
  List.eraseP_sublist

theorem erase_of_lookup_eq_none {k : κ} (absent : lookup key rows k = none) :
    erase key k rows = rows := by
  refine List.eraseP_of_forall_not fun row mem isKey => ?_
  exact (lookup_eq_none_iff rows k).mp absent (List.mem_map.mpr ⟨row, mem, of_decide_eq_true isKey⟩)

theorem nodup_erase (distinct : (rows.map key).Nodup) (k : κ) :
    ((erase key k rows).map key).Nodup :=
  distinct.sublist ((erase_sublist k rows).map key)

theorem erase_eq_filter (distinct : (rows.map key).Nodup) (k : κ) :
    erase key k rows = rows.filter fun row => !decide (key row = k) := by
  induction rows with
  | nil => rfl
  | cons row rows ih =>
    rw [List.map_cons, List.nodup_cons] at distinct
    by_cases here : key row = k
    · have others : ∀ other ∈ rows, (!decide (key other = k)) := by
        intro other mem
        have differ : key other ≠ k := fun equal =>
          distinct.1 (here.trans equal.symm ▸ List.mem_map_of_mem mem)
        simp [differ]
      simp [erase, here, List.filter_eq_self.mpr others]
    · have kept := ih distinct.2
      rw [erase] at kept
      simp [erase, here, kept]

theorem lookup_erase (distinct : (rows.map key).Nodup) (gone k : κ) :
    lookup key (erase key gone rows) k = if k = gone then none else lookup key rows k := by
  induction rows with
  | nil => simp [erase]
  | cons first rows ih =>
    rw [List.map_cons, List.nodup_cons] at distinct
    by_cases here : key first = gone
    · have erased : erase key gone (first :: rows) = rows := by simp [erase, here]
      rw [erased, lookup_cons]
      by_cases wanted : k = gone
      · rw [if_pos wanted, lookup_eq_none_iff, wanted, ← here]
        exact distinct.1
      · rw [if_neg wanted, if_neg (fun equal => wanted (equal.symm.trans here))]
    · have kept : erase key gone (first :: rows) = first :: erase key gone rows := by
        simp [erase, here]
      rw [kept, lookup_cons, lookup_cons, ih distinct.2]
      by_cases found : key first = k
      · rw [if_pos found, if_pos found, if_neg (found ▸ here)]
      · rw [if_neg found, if_neg found]

theorem mem_upsert_iff (distinct : (rows.map key).Nodup) {other : α} :
    other ∈ upsert key row rows ↔ other = row ∨ (other ∈ rows ∧ key other ≠ key row) := by
  have found : other ∈ upsert key row rows ↔
      lookup key (upsert key row rows) (key other) = some other :=
    ⟨lookup_eq_some_of_mem (nodup_upsert distinct row), mem_of_lookup⟩
  rw [found, lookup_upsert]
  by_cases same : key other = key row
  · rw [if_pos same, Option.some.injEq]
    exact ⟨fun equal => .inl equal.symm, fun either => by
      rcases either with rfl | ⟨_, differ⟩
      · rfl
      · exact absurd same differ⟩
  · rw [if_neg same]
    constructor
    · intro isOld
      exact .inr ⟨mem_of_lookup isOld, same⟩
    · rintro (rfl | ⟨mem, _⟩)
      · contradiction
      · exact lookup_eq_some_of_mem distinct mem

theorem mem_erase_iff (distinct : (rows.map key).Nodup) {k : κ} :
    row ∈ erase key k rows ↔ row ∈ rows ∧ key row ≠ k := by
  rw [erase_eq_filter distinct, List.mem_filter]
  simp

theorem mem_keys_erase_iff (distinct : (rows.map key).Nodup) {gone k : κ}
    (other : k ≠ gone) : k ∈ (erase key gone rows).map key ↔ k ∈ rows.map key := by
  rw [← not_iff_not, ← lookup_eq_none_iff, lookup_erase distinct, if_neg other,
    lookup_eq_none_iff]

end Flannel.Table
