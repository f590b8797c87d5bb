import Flannel.Table.Keyed

/-!
# Tables derived from rows

A table beside a keyed list of rows, indexed by another field. It *covers* the rows if every row
has its entry, and *mirrors* them if there are no other entries. An overwritten row must have had
the same field, because its entry is not taken back.
-/

namespace Flannel.Table

universe u v w z

variable {α : Type u} {κ : Type v} {ξ : Type w} {υ : Type z} [DecidableEq κ] [DecidableEq ξ]

def Covers (field : α → ξ) (value : α → υ) (rows : List α) (table : ξ → Option υ) : Prop :=
  ∀ row ∈ rows, table (field row) = some (value row)

structure Mirrors (field : α → ξ) (value : α → υ) (rows : List α) (table : ξ → Option υ) : Prop where
  covers : Covers field value rows table
  only : ∀ x y, table x = some y → ∃ row ∈ rows, field row = x ∧ value row = y

variable {key : α → κ} {field : α → ξ} {value : α → υ} {rows : List α} {table : ξ → Option υ}

omit [DecidableEq ξ] in
theorem mirrors_nil : Mirrors field value [] (fun _ => none : ξ → Option υ) :=
  ⟨by simp [Covers], by simp⟩

theorem Covers.set (covers : Covers field value rows table) (distinct : (rows.map key).Nodup)
    {row : α} (apart : ∀ old ∈ rows, field old = field row → key old = key row) :
    Covers field value (upsert key row rows)
      (Function.update table (field row) (some (value row))) := by
  intro other mem
  rcases (mem_upsert_iff distinct).mp mem with rfl | ⟨old, differ⟩
  · exact Function.update_self _ _ _
  · rw [Function.update_of_ne fun same => differ (apart other old same)]
    exact covers other old

theorem Covers.unset (covers : Covers field value rows table) (distinct : (rows.map key).Nodup)
    {k : κ} {x : ξ} (apart : ∀ old ∈ rows, field old = x → key old = k) :
    Covers field value (erase key k rows) (Function.update table x none) := by
  intro other mem
  obtain ⟨old, differ⟩ := (mem_erase_iff distinct).mp mem
  rw [Function.update_of_ne fun same => differ (apart other old same)]
  exact covers other old

theorem Mirrors.set (mirrors : Mirrors field value rows table) (distinct : (rows.map key).Nodup)
    {row : α} (apart : ∀ old ∈ rows, field old = field row → key old = key row)
    (kept : ∀ old ∈ rows, key old = key row → field old = field row) :
    Mirrors field value (upsert key row rows)
      (Function.update table (field row) (some (value row))) where
  covers := mirrors.covers.set distinct apart
  only := by
    intro x y entry
    by_cases here : x = field row
    · subst here
      rw [Function.update_self] at entry
      exact ⟨row, (mem_upsert_iff distinct).mpr (.inl rfl), rfl, Option.some.inj entry⟩
    · rw [Function.update_of_ne here] at entry
      obtain ⟨old, mem, rfl, isValue⟩ := mirrors.only x y entry
      refine ⟨old, (mem_upsert_iff distinct).mpr (.inr ⟨mem, fun same => ?_⟩), rfl, isValue⟩
      exact here (kept old mem same)

theorem Mirrors.unset (mirrors : Mirrors field value rows table) (distinct : (rows.map key).Nodup)
    {k : κ} {x : ξ} (apart : ∀ old ∈ rows, field old = x → key old = k)
    (kept : ∀ old ∈ rows, key old = k → field old = x) :
    Mirrors field value (erase key k rows) (Function.update table x none) where
  covers := mirrors.covers.unset distinct apart
  only := by
    intro x' y entry
    by_cases here : x' = x
    · subst here
      rw [Function.update_self] at entry
      contradiction
    · rw [Function.update_of_ne here] at entry
      obtain ⟨old, mem, rfl, isValue⟩ := mirrors.only x' y entry
      refine ⟨old, (mem_erase_iff distinct).mpr ⟨mem, fun same => ?_⟩, rfl, isValue⟩
      exact here (kept old mem same)

end Flannel.Table
