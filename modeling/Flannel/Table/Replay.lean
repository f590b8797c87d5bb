import Flannel.Table.Keyed
import Mathlib.Data.List.Induction

/-!
# Replaying changes on a table

`replay` is the partial function that a consumer holds after a list of changes, and `lastSet` the
value it last saw for a key, even if the key is gone since.
-/

namespace Flannel.Table

universe u v

variable {κ : Type v} [DecidableEq κ] {β : Type u}

inductive Change (κ : Type v) (β : Type u)
  | set (k : κ) (value : β)
  | unset (k : κ)
  deriving DecidableEq

def Change.about : Change κ β → κ
  | .set k _ => k
  | .unset k => k

def Change.apply (table : κ → Option β) : Change κ β → κ → Option β
  | .set k value => Function.update table k (some value)
  | .unset k => Function.update table k none

def replay (table : κ → Option β) (changes : List (Change κ β)) : κ → Option β :=
  changes.foldl Change.apply table

@[simp]
theorem replay_nil (table : κ → Option β) : replay table [] = table :=
  rfl

@[simp]
theorem replay_cons (table : κ → Option β) (change : Change κ β) (changes : List (Change κ β)) :
    replay table (change :: changes) = replay (change.apply table) changes :=
  rfl

@[simp]
theorem replay_append (table : κ → Option β) (first second : List (Change κ β)) :
    replay table (first ++ second) = replay (replay table first) second :=
  List.foldl_append

theorem Change.apply_of_ne {change : Change κ β} {k : κ} (other : k ≠ change.about)
    (table : κ → Option β) : change.apply table k = table k := by
  cases change <;> exact Function.update_of_ne other _ _

theorem replay_of_forall_ne {changes : List (Change κ β)} {k : κ}
    (others : ∀ change ∈ changes, k ≠ change.about) (table : κ → Option β) :
    replay table changes k = table k := by
  induction changes generalizing table with
  | nil => rfl
  | cons change changes ih =>
    rw [replay_cons, ih fun other mem => others other (.tail _ mem)]
    exact Change.apply_of_ne (others change (.head _)) table

section Rows

variable {α : Type u} {key : α → κ}

theorem replay_set {rows : List α} (distinct : (rows.map key).Nodup) (value : α → β)
    (table : κ → Option β) (k : κ) :
    replay table (rows.map fun row => .set (key row) (value row)) k =
      ((lookup key rows k).map value).or (table k) := by
  induction rows generalizing table with
  | nil => rfl
  | cons row rows ih =>
    rw [List.map_cons, List.nodup_cons] at distinct
    rw [List.map_cons, replay_cons, ih distinct.2, lookup_cons, Change.apply]
    by_cases here : key row = k
    · subst here
      rw [if_pos rfl, (lookup_eq_none_iff rows (key row)).mpr distinct.1, Function.update_self]
      rfl
    · rw [if_neg here, Function.update_of_ne (Ne.symm here)]

theorem replay_unset_of_mem {rows : List α} {k : κ} (mem : k ∈ rows.map key)
    (table : κ → Option β) :
    replay table (rows.map fun row => .unset (key row)) k = none := by
  induction rows using List.reverseRecOn with
  | nil => contradiction
  | append_singleton rows row ih =>
    rw [List.map_append, replay_append, List.map_singleton, replay_cons, replay_nil,
      Change.apply]
    by_cases here : k = key row
    · rw [here, Function.update_self]
    · rw [Function.update_of_ne here]
      apply ih
      simpa [here] using mem

end Rows

def lastSet (changes : List (Change κ β)) (k : κ) : Option β :=
  changes.foldl (fun last change =>
    match change with
    | .set k' value => if k' = k then some value else last
    | .unset _ => last) none

theorem lastSet_append_singleton (changes : List (Change κ β)) (change : Change κ β) (k : κ) :
    lastSet (changes ++ [change]) k =
      match change with
      | .set k' value => if k' = k then some value else lastSet changes k
      | .unset _ => lastSet changes k := by
  rw [lastSet, List.foldl_append]
  rfl

theorem lastSet_of_replay {changes : List (Change κ β)} {k : κ} {value : β}
    (current : replay (fun _ => none) changes k = some value) : lastSet changes k = some value := by
  induction changes using List.reverseRecOn with
  | nil => contradiction
  | append_singleton changes change ih =>
    rw [replay_append, replay_cons, replay_nil] at current
    rw [lastSet_append_singleton]
    cases change with
    | set k' value' =>
      by_cases here : k' = k
      · subst here
        rw [Change.apply, Function.update_self] at current
        simpa using current
      · rw [Change.apply, Function.update_of_ne (Ne.symm here)] at current
        simpa [here] using ih current
    | unset k' =>
      by_cases here : k' = k
      · subst here
        rw [Change.apply, Function.update_self] at current
        contradiction
      · rw [Change.apply, Function.update_of_ne (Ne.symm here)] at current
        exact ih current

theorem lastSet_append_of_forall {changes later : List (Change κ β)} {k : κ}
    (others : ∀ value, Change.set k value ∉ later) :
    lastSet (changes ++ later) k = lastSet changes k := by
  induction later using List.reverseRecOn with
  | nil => rw [List.append_nil]
  | append_singleton later change ih =>
    rw [← List.append_assoc, lastSet_append_singleton]
    have earlier := ih fun value mem => others value (List.mem_append_left _ mem)
    cases change with
    | set k' value =>
      have other : k' ≠ k := by
        rintro rfl
        exact others value (List.mem_append_right _ (.head _))
      simpa [other] using earlier
    | unset k' => exact earlier

end Flannel.Table
