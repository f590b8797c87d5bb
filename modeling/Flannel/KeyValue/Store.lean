import Flannel.Table.Replay

/-!
# A revisioned key-value store

Every effective write makes a new revision, a row remembers that of its last write, a guarded
write creates a key only if it is absent, and a range read lists rows in the order of their keys.
That no key has two rows is part of the type.
-/

namespace Flannel.KeyValue

open Table

universe u v

structure Row (κ : Type u) (ν : Type v) where
  key : κ
  value : ν
  modRevision : Nat
  deriving DecidableEq

structure Store (κ : Type u) (ν : Type v) where
  rows : List (Row κ ν)
  revision : Nat
  distinct : (rows.map Row.key).Nodup

namespace Store

variable {κ : Type u} {ν : Type v} [DecidableEq κ]

def empty : Store κ ν :=
  ⟨[], 0, List.nodup_nil⟩

theorem distinct_upsert (store : Store κ ν) (row : Row κ ν) :
    ((upsert Row.key row store.rows).map Row.key).Nodup :=
  nodup_upsert store.distinct row

theorem distinct_erase (store : Store κ ν) (k : κ) :
    ((erase Row.key k store.rows).map Row.key).Nodup :=
  nodup_erase store.distinct k

def get? (store : Store κ ν) (k : κ) : Option (Row κ ν) :=
  lookup Row.key store.rows k

def put (store : Store κ ν) (k : κ) (value : ν) : Store κ ν :=
  ⟨upsert Row.key ⟨k, value, store.revision + 1⟩ store.rows, store.revision + 1,
    store.distinct_upsert _⟩

def delete (store : Store κ ν) (k : κ) : Store κ ν :=
  if (store.get? k).isSome then
    ⟨erase Row.key k store.rows, store.revision + 1, store.distinct_erase k⟩
  else store

def create (store : Store κ ν) (k : κ) (value : ν) : Option (Store κ ν) :=
  if (store.get? k).isSome then none else some (store.put k value)

def range (store : Store κ ν) (le : κ → κ → Bool) (select : κ → Bool) : List (Row κ ν) :=
  (store.rows.filter fun row => select row.key).mergeSort fun row row' => le row.key row'.key

variable {store : Store κ ν} {k k' : κ} {value : ν} {row : Row κ ν}

theorem get?_put (store : Store κ ν) (k k' : κ) (value : ν) :
    (store.put k value).get? k' =
      if k' = k then some ⟨k, value, store.revision + 1⟩ else store.get? k' :=
  lookup_upsert _ _ _

theorem get?_delete (store : Store κ ν) (k k' : κ) :
    (store.delete k).get? k' = if k' = k then none else store.get? k' := by
  rw [delete]
  split
  · exact lookup_erase store.distinct k k'
  · rename_i absent
    rw [Option.not_isSome_iff_eq_none] at absent
    by_cases here : k' = k
    · rw [if_pos here, here, absent]
    · rw [if_neg here]

theorem get?_put_eq_some (found : (store.put k value).get? k' = some row) :
    (k' = k ∧ row = ⟨k, value, store.revision + 1⟩) ∨ (k' ≠ k ∧ store.get? k' = some row) := by
  rw [get?_put] at found
  split_ifs at found with here
  · exact .inl ⟨here, (Option.some.inj found).symm⟩
  · exact .inr ⟨here, found⟩

theorem get?_delete_eq_some (found : (store.delete k).get? k' = some row) :
    k' ≠ k ∧ store.get? k' = some row := by
  rw [get?_delete] at found
  split_ifs at found with here
  exact ⟨here, found⟩

theorem mem_rows_iff : row ∈ store.rows ↔ store.get? row.key = some row :=
  ⟨lookup_eq_some_of_mem store.distinct, mem_of_lookup⟩

theorem key_of_get? (found : store.get? k = some row) : row.key = k :=
  key_of_lookup found

theorem mem_range_iff {le : κ → κ → Bool} {select : κ → Bool} :
    row ∈ store.range le select ↔ select row.key ∧ store.get? row.key = some row := by
  rw [range, List.mem_mergeSort, List.mem_filter, mem_rows_iff, and_comm]

theorem create_eq_some_iff {target : Store κ ν} :
    store.create k value = some target ↔ store.get? k = none ∧ target = store.put k value := by
  rw [create]
  cases found : store.get? k with
  | none => simp [eq_comm]
  | some row => simp

end Store

end Flannel.KeyValue
