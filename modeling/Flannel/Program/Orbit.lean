import Mathlib.Data.Set.Card
import Mathlib.Logic.Function.Iterate

/-!
# Loops that collect along an orbit

A loop moves from point to point while it is inside a bound, and collects the points that it keeps
until it has enough. On an orbit that returns to its start it ends exactly if it meets a point
outside of the bound or one that it keeps.
-/

namespace Flannel.Program

universe u

structure Loop (α : Type u) where
  next : α → α
  inside : α → Bool
  keep : α → Bool
  limit : Nat

namespace Loop

variable {α : Type u} (loop : Loop α)

def gather : Nat → α → List α → Option (List α)
  | 0, _, _ => none
  | rounds + 1, x, found =>
    if loop.inside x ∧ found.length < loop.limit then
      gather rounds (loop.next x) (if loop.keep x then found ++ [x] else found)
    else some found

def point (x : α) (k : Nat) : α :=
  loop.next^[k] x

def kept (x : α) (m : Nat) : List α :=
  ((List.range m).map (loop.point x)).filter loop.keep

/-- The loop ends after a number of rounds, if it gets that far. -/
def Ends (x : α) (m : Nat) : Prop :=
  ¬ (loop.inside (loop.point x m) = true ∧ (loop.kept x m).length < loop.limit)

def EndsAt (x : α) (m : Nat) : Prop :=
  loop.Ends x m ∧ ∀ k < m, ¬ loop.Ends x k

variable {loop} {x a : α} {m k : Nat}

@[simp]
theorem point_zero : loop.point x 0 = x :=
  rfl

theorem point_succ : loop.point x (k + 1) = loop.next (loop.point x k) :=
  Function.iterate_succ_apply' loop.next k x

theorem point_add : loop.point x (m + k) = loop.point (loop.point x k) m :=
  Function.iterate_add_apply loop.next m k x

@[simp]
theorem kept_zero : loop.kept x 0 = [] :=
  rfl

theorem kept_succ :
    loop.kept x (m + 1) =
      if loop.keep (loop.point x m) then loop.kept x m ++ [loop.point x m] else loop.kept x m := by
  rw [kept, List.range_succ, List.map_append, List.filter_append, List.map_singleton,
    List.filter_singleton]
  cases loop.keep (loop.point x m) with
  | false => exact List.append_nil _
  | true => rfl

theorem mem_kept_iff :
    a ∈ loop.kept x m ↔ loop.keep a ∧ ∃ k < m, loop.point x k = a := by
  simp only [kept, List.mem_filter, List.mem_map, List.mem_range]
  exact and_comm

theorem length_kept_le : (loop.kept x m).length ≤ m := by
  apply (List.length_filter_le _ _).trans_eq
  rw [List.length_map, List.length_range]

theorem kept_of_all (all : ∀ a, loop.keep a) :
    loop.kept x m = (List.range m).map (loop.point x) :=
  List.filter_eq_self.mpr fun a _ => all a

theorem kept_prefix_add : loop.kept x m <+: loop.kept x (m + k) := by
  rw [kept, kept, List.range_add, List.map_append, List.filter_append]
  exact List.prefix_append _ _

theorem length_kept_mono (le : m ≤ k) : (loop.kept x m).length ≤ (loop.kept x k).length := by
  obtain ⟨d, rfl⟩ := Nat.exists_eq_add_of_le le
  exact kept_prefix_add.length_le

theorem exists_of_length_lt (fewer : (loop.kept x k).length < (loop.kept x m).length) :
    ∃ j, k ≤ j ∧ j < m ∧ loop.keep (loop.point x j) := by
  induction m with
  | zero => exact absurd fewer (Nat.not_lt_zero _)
  | succ m ih =>
    rcases Nat.lt_or_ge m k with before | after
    · exact absurd fewer (Nat.not_lt.mpr (length_kept_mono before))
    · by_cases kept : loop.keep (loop.point x m)
      · exact ⟨m, after, Nat.lt_succ_self m, kept⟩
      · rw [kept_succ, if_neg kept] at fewer
        obtain ⟨j, le, lt, kept'⟩ := ih fewer
        exact ⟨j, le, Nat.lt_succ_of_lt lt, kept'⟩

theorem length_kept_eq_ncard (distinct : ∀ i < m, ∀ j < m, loop.point x i = loop.point x j → i = j) :
    (loop.kept x m).length = {a | loop.keep a ∧ ∃ k < m, loop.point x k = a}.ncard := by
  classical
  have nodup : (loop.kept x m).Nodup := by
    apply List.Nodup.filter
    apply List.Nodup.map_on _ List.nodup_range
    intro i memI j memJ same
    exact distinct i (List.mem_range.mp memI) j (List.mem_range.mp memJ) same
  have isSet : {a | loop.keep a ∧ ∃ k < m, loop.point x k = a} =
      ((loop.kept x m).toFinset : Set α) := by
    ext a
    rw [Finset.mem_coe, List.mem_toFinset, mem_kept_iff]
    rfl
  rw [isSet, Set.ncard_coe_finset, List.toFinset_card_of_nodup nodup]

/-! ## Rounds -/

theorem gather_add {rounds : Nat} (goesOn : ∀ k < m, ¬ loop.Ends x k) :
    loop.gather (rounds + m) x [] = loop.gather rounds (loop.point x m) (loop.kept x m) := by
  induction m generalizing rounds with
  | zero => rfl
  | succ m ih =>
    have here := Decidable.not_not.mp (goesOn m (Nat.lt_succ_self m))
    rw [← Nat.add_assoc, Nat.add_right_comm, ih fun k lt => goesOn k (Nat.lt_succ_of_lt lt), gather, if_pos here,
      point_succ, kept_succ]

theorem gather_of_endsAt (ends : loop.EndsAt x m) (rounds : Nat) :
    loop.gather (rounds + 1 + m) x [] = some (loop.kept x m) := by
  rw [gather_add ends.2, gather, if_neg ends.1]

theorem exists_endsAt (ends : loop.Ends x m) : ∃ k ≤ m, loop.EndsAt x k := by
  classical
  have some : ∃ m, loop.Ends x m := ⟨m, ends⟩
  exact ⟨Nat.find some, Nat.find_le ends, Nat.find_spec some, fun _ lt => Nat.find_min some lt⟩

theorem gather_eq_some_iff {rounds : Nat} {result : List α} :
    loop.gather rounds x [] = some result ↔
      ∃ m < rounds, loop.EndsAt x m ∧ result = loop.kept x m := by
  constructor
  · intro returns
    by_cases some : ∃ m < rounds, loop.Ends x m
    · obtain ⟨m, lt, ends⟩ := some
      obtain ⟨k, le, endsAt⟩ := exists_endsAt ends
      obtain ⟨d, rfl⟩ := Nat.exists_eq_add_of_lt (Nat.lt_of_le_of_lt le lt)
      have same := gather_of_endsAt endsAt d
      rw [Nat.add_right_comm, Nat.add_comm d k, returns] at same
      exact ⟨k, Nat.lt_of_le_of_lt le lt, endsAt, Option.some.inj same⟩
    · have goesOn : ∀ k < rounds, ¬ loop.Ends x k := fun k lt ends => some ⟨k, lt, ends⟩
      have stuck := @gather_add α loop x rounds 0 goesOn
      rw [Nat.zero_add, returns] at stuck
      cases stuck
  · rintro ⟨m, lt, endsAt, rfl⟩
    obtain ⟨d, rfl⟩ := Nat.exists_eq_add_of_lt lt
    rw [Nat.add_comm m d, Nat.add_right_comm]
    exact gather_of_endsAt endsAt d

theorem isSome_gather_iff {rounds : Nat} :
    (loop.gather rounds x []).isSome ↔ ∃ m < rounds, loop.Ends x m := by
  rw [Option.isSome_iff_exists]
  constructor
  · rintro ⟨result, returns⟩
    obtain ⟨m, lt, endsAt, _⟩ := gather_eq_some_iff.1 returns
    exact ⟨m, lt, endsAt.1⟩
  · rintro ⟨m, lt, ends⟩
    obtain ⟨k, le, endsAt⟩ := exists_endsAt ends
    exact ⟨_, gather_eq_some_iff.2 ⟨k, Nat.lt_of_le_of_lt le lt, endsAt, rfl⟩⟩

theorem exists_of_ends (some : 0 < loop.limit) (ends : loop.Ends x m) :
    ∃ k, loop.inside (loop.point x k) = false ∨ loop.keep (loop.point x k) := by
  by_cases inside : loop.inside (loop.point x m)
  · have enough : loop.limit ≤ (loop.kept x m).length :=
      Nat.not_lt.mp fun fewer => ends ⟨inside, fewer⟩
    obtain ⟨a, mem⟩ := List.exists_mem_of_length_pos (Nat.lt_of_lt_of_le some enough)
    obtain ⟨kept, k, _, rfl⟩ := mem_kept_iff.1 mem
    exact ⟨k, .inr kept⟩
  · exact ⟨m, .inl (Bool.eq_false_of_not_eq_true inside)⟩

/-! ## The points collected -/

section EndsAt

variable (ends : loop.EndsAt x m)
include ends

theorem EndsAt.inside_of_lt (lt : k < m) : loop.inside (loop.point x k) :=
  (Decidable.not_not.mp (ends.2 k lt)).1

theorem EndsAt.length_lt_of_lt (lt : k < m) : (loop.kept x k).length < loop.limit :=
  (Decidable.not_not.mp (ends.2 k lt)).2

theorem EndsAt.length_of_inside (inside : loop.inside (loop.point x m))
    (some : 0 < loop.limit) : (loop.kept x m).length = loop.limit := by
  have enough : loop.limit ≤ (loop.kept x m).length :=
    Nat.not_lt.mp fun fewer => ends.1 ⟨inside, fewer⟩
  apply Nat.le_antisymm _ enough
  cases m with
  | zero =>
    rw [kept_zero] at enough ⊢
    exact absurd enough (Nat.not_le.mpr some)
  | succ m =>
    have before := ends.length_lt_of_lt (Nat.lt_succ_self m)
    rw [kept_succ]
    split_ifs
    · rw [List.length_append]
      exact before
    · exact Nat.le_of_lt before

theorem EndsAt.kept_ne_nil (some : 0 < loop.limit)
    (upTo : ∀ j ≤ k, loop.inside (loop.point x j)) (kept : loop.keep (loop.point x k)) :
    loop.kept x m ≠ [] := by
  rcases Nat.lt_or_ge k m with reached | passed
  · exact List.ne_nil_of_mem (mem_kept_iff.2 ⟨kept, k, reached, rfl⟩)
  · have length := ends.length_of_inside (upTo m passed) some
    intro none
    rw [none] at length
    exact absurd length.symm (Nat.ne_of_gt some)

end EndsAt

/-! ## Orbits that return -/

section Periodic

variable {period : Nat} (returns : ∀ a, loop.next^[period] a = a) (positive : 0 < period)
include returns

theorem point_add_mul (j : Nat) : loop.point x (k + j * period) = loop.point x k := by
  induction j with
  | zero => rw [Nat.zero_mul, Nat.add_zero]
  | succ j ih =>
    rw [Nat.succ_mul, ← Nat.add_assoc, Nat.add_comm _ period, point_add]
    exact (returns _).trans ih

theorem point_mod : loop.point x (k % period) = loop.point x k := by
  nth_rewrite 2 [← Nat.mod_add_div k period]
  rw [Nat.mul_comm]
  exact (point_add_mul returns _).symm

include positive

theorem le_length_kept (kept : loop.keep (loop.point x k)) (j : Nat) :
    j + 1 ≤ (loop.kept x (k + j * period + 1)).length := by
  have again : loop.keep (loop.point x (k + j * period)) := by
    rw [point_add_mul returns]
    exact kept
  rw [kept_succ, if_pos again, List.length_append]
  apply Nat.succ_le_succ
  cases j with
  | zero => exact Nat.zero_le _
  | succ j =>
    have earlier := le_length_kept kept j
    apply earlier.trans (length_kept_mono _)
    rw [Nat.succ_mul]
    omega

/-- A loop on an orbit that returns ends, within as many turns as it has to collect points,
exactly if it meets a point outside of the bound or one that it keeps. -/
theorem exists_ends_iff (some : 0 < loop.limit) :
    (∃ m ≤ loop.limit * period, loop.Ends x m) ↔
      ∃ k, loop.inside (loop.point x k) = false ∨ loop.keep (loop.point x k) := by
  constructor
  · rintro ⟨m, _, ends⟩
    exact exists_of_ends some ends
  · rintro ⟨k, leaves | kept⟩
    · refine ⟨k % period, ?_, fun goesOn => ?_⟩
      · exact (Nat.mod_lt k positive).le.trans (Nat.le_mul_of_pos_left _ some)
      · rw [point_mod returns, leaves] at goesOn
        exact Bool.false_ne_true goesOn.1
    · rw [← point_mod returns] at kept
      have enough := le_length_kept returns positive kept (loop.limit - 1)
      refine ⟨k % period + (loop.limit - 1) * period + 1, ?_, fun goesOn => ?_⟩
      · have turn := Nat.mod_lt k positive
        obtain ⟨limit, isLimit⟩ := Nat.exists_eq_add_of_lt some
        rw [isLimit, Nat.zero_add, Nat.add_sub_cancel, Nat.succ_mul]
        omega
      · exact absurd goesOn.2 (by omega)

end Periodic

end Loop

end Flannel.Program
