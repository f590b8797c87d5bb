import Mathlib.Data.List.Chain
import Mathlib.Data.List.Sort

/-!
# Sorting by a comparison that may be inconsistent

A sort is correct if the comparison is a strict weak order; otherwise the elements are permuted,
and short lists are sorted by insertion. Insertion leaves every two neighbours in an order that
the comparison does not object to, so the result is a chain of such steps, and every chain is the
result of some order.
-/

namespace Flannel.Order

variable {α : Type*} (cmp : α → α → Int)

def NotAfter (a b : α) : Prop :=
  ¬ cmp b a < 0

instance (a b : α) : Decidable (NotAfter cmp a b) :=
  inferInstanceAs (Decidable (¬ _))

/-- The comparison is a strict weak order on the elements of a list: it is asymmetric, and not coming
after is transitive. -/
structure StrictWeak (xs : List α) : Prop where
  asymm : ∀ a ∈ xs, ∀ b ∈ xs, cmp a b < 0 → NotAfter cmp a b
  trans : ∀ a ∈ xs, ∀ b ∈ xs, ∀ c ∈ xs, NotAfter cmp a b → NotAfter cmp b c → NotAfter cmp a c

/-- Sorting by insertion from the left: each element moves to the left past those it comes before. The
part that is sorted is kept in reverse. -/
def insertionSort (xs : List α) : List α :=
  (xs.foldl (fun sorted x => sorted.orderedInsert (fun a b => NotAfter cmp b a) x) []).reverse

/-- What is assumed of a sort: it permutes, it sorts if the comparison is a strict weak order, and
otherwise it sorts lists below `limit` by insertion. -/
structure Sorting (limit : Nat) where
  sort : List α → List α
  perm : ∀ xs, (sort xs).Perm xs
  sorted : ∀ xs, StrictWeak cmp xs → (sort xs).Pairwise (NotAfter cmp)
  inserted : ∀ xs, ¬ StrictWeak cmp xs → xs.length < limit → sort xs = insertionSort cmp xs

section Insertion

variable {cmp} {x : α} {xs ys zs : List α}

theorem insertionSort_eq (xs : List α) :
    insertionSort cmp xs =
      (xs.reverse.insertionSort fun a b => NotAfter cmp b a).reverse := by
  rw [insertionSort, List.insertionSort, List.foldr_reverse]

theorem perm_insertionSort (xs : List α) : (insertionSort cmp xs).Perm xs := by
  rw [insertionSort_eq]
  exact (List.reverse_perm _).trans ((List.perm_insertionSort _ _).trans (List.reverse_perm _))

theorem isChain_orderedInsert (asymm : ∀ a b, cmp a b < 0 → NotAfter cmp a b) (x : α)
    (chain : xs.IsChain fun a b => NotAfter cmp b a) :
    (xs.orderedInsert (fun a b => NotAfter cmp b a) x).IsChain fun a b => NotAfter cmp b a := by
  induction xs with
  | nil => exact List.IsChain.singleton x
  | cons y ys ih =>
    rw [List.orderedInsert]
    split
    next stops => exact List.isChain_cons_cons.mpr ⟨stops, chain⟩
    next passes =>
      have later := ih chain.tail
      have before : NotAfter cmp x y := asymm x y (not_not.mp passes)
      cases ys with
      | nil => exact List.isChain_cons_cons.mpr ⟨before, later⟩
      | cons z ys =>
        rw [List.orderedInsert] at later ⊢
        split at later
        next stops =>
          rw [if_pos stops]
          exact List.isChain_cons_cons.mpr ⟨before, later⟩
        next passes' =>
          rw [if_neg passes']
          exact List.isChain_cons_cons.mpr ⟨(List.isChain_cons_cons.mp chain).1, later⟩

theorem isChain_insertionSort (asymm : ∀ a b, cmp a b < 0 → NotAfter cmp a b) (xs : List α) :
    (insertionSort cmp xs).IsChain (NotAfter cmp) := by
  rw [insertionSort_eq, List.isChain_reverse]
  induction xs.reverse with
  | nil => exact List.IsChain.nil
  | cons x xs ih => exact isChain_orderedInsert asymm x ih

theorem insertionSort_eq_self (chain : xs.IsChain fun a b => NotAfter cmp b a) :
    (xs.insertionSort fun a b => NotAfter cmp b a) = xs := by
  induction xs with
  | nil => rfl
  | cons y ys ih =>
    rw [List.insertionSort_cons, ih chain.tail]
    cases ys with
    | nil => rfl
    | cons z zs => exact if_pos (List.isChain_cons_cons.mp chain).1

theorem insertionSort_of_isChain (chain : xs.IsChain (NotAfter cmp)) :
    insertionSort cmp xs = xs := by
  rw [insertionSort_eq, insertionSort_eq_self (List.isChain_reverse.mpr chain), List.reverse_reverse]

theorem insertionSort_sublist_append (xs ys : List α) :
    (insertionSort cmp xs).Sublist (insertionSort cmp (xs ++ ys)) := by
  rw [insertionSort, insertionSort, List.foldl_append, List.reverse_sublist]
  generalize xs.foldl _ [] = sorted
  induction ys generalizing sorted with
  | nil => exact List.Sublist.refl _
  | cons y ys ih => exact (List.sublist_orderedInsert y sorted).trans (ih _)

theorem pairwise_insertionSort (asymm : ∀ a b, cmp a b < 0 → NotAfter cmp a b)
    (weak : StrictWeak cmp xs) : (insertionSort cmp xs).Pairwise (NotAfter cmp) := by
  have member : ∀ {a}, a ∈ insertionSort cmp xs → a ∈ xs := (perm_insertionSort xs).mem_iff.mp
  have chain : (insertionSort cmp xs).IsChain fun a b => a ∈ xs ∧ b ∈ xs ∧ NotAfter cmp a b :=
    (isChain_insertionSort asymm xs).imp_of_mem_imp fun _ _ first second notAfter =>
      ⟨member first, member second, notAfter⟩
  have : Trans (fun a b => a ∈ xs ∧ b ∈ xs ∧ NotAfter cmp a b)
      (fun a b => a ∈ xs ∧ b ∈ xs ∧ NotAfter cmp a b) fun a b => a ∈ xs ∧ b ∈ xs ∧ NotAfter cmp a b :=
    ⟨fun ⟨memA, memB, first⟩ ⟨_, memC, second⟩ =>
      ⟨memA, memC, weak.trans _ memA _ memB _ memC first second⟩⟩
  exact chain.pairwise.imp fun related => related.2.2

def Sorting.byInsertion (limit : Nat) (asymm : ∀ a b, cmp a b < 0 → NotAfter cmp a b) :
    Sorting cmp limit where
  sort := insertionSort cmp
  perm := perm_insertionSort
  sorted := fun _ => pairwise_insertionSort asymm
  inserted := fun _ _ _ => rfl

def Sorting.adverse [DecidableEq α] {limit : Nat} (sorting : Sorting cmp limit)
    (notWeak : ¬ StrictWeak cmp xs) (long : limit ≤ xs.length) (perm : ys.Perm xs) :
    Sorting cmp limit where
  sort := fun zs => if zs = xs then ys else sorting.sort zs
  perm := by
    intro zs
    split
    next same => exact same ▸ perm
    next => exact sorting.perm zs
  sorted := by
    intro zs weak
    split
    next same => exact absurd (same ▸ weak) notWeak
    next => exact sorting.sorted zs weak
  inserted := by
    intro zs notWeak' short
    split
    next same => exact absurd (same ▸ short) (Nat.not_lt.mpr long)
    next => exact sorting.inserted zs notWeak' short

end Insertion

end Flannel.Order
