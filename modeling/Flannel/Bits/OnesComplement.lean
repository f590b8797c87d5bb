import Mathlib.Algebra.BigOperators.Group.List.Basic
import Mathlib.Data.BitVec
import Mathlib.Data.Nat.ModEq
import Mathlib.Tactic.Ring

/-!
# One's-complement sums

Addition in which the carry out of the top bit is added back at the bottom. A sum of `w`-bit words
is determined by its class modulo `2 ^ w - 1` and by whether it is zero, since only a sum of zeros
is `0` and not `2 ^ w - 1`. `residue` is the number with these two properties.
-/

namespace Flannel.Bits

/-- The number in `0, …, m` that is congruent to `n` modulo `m` and zero only
for `n = 0`. -/
def residue (m n : Nat) : Nat :=
  if n = 0 then 0 else (n - 1) % m + 1

section Residue

variable {m n : Nat}

@[simp]
theorem residue_zero (m : Nat) : residue m 0 = 0 :=
  rfl

theorem residue_of_pos (pos : 0 < n) : residue m n = (n - 1) % m + 1 :=
  if_neg (Nat.ne_of_gt pos)

@[simp]
theorem residue_eq_zero_iff : residue m n = 0 ↔ n = 0 := by
  rcases Nat.eq_zero_or_pos n with rfl | pos
  · simp
  · rw [residue_of_pos pos]
    omega

theorem residue_modEq (m n : Nat) : residue m n ≡ n [MOD m] := by
  rcases Nat.eq_zero_or_pos n with rfl | pos
  · rfl
  · rw [residue_of_pos pos]
    have shifted : (n - 1) % m + 1 ≡ n - 1 + 1 [MOD m] := (Nat.mod_modEq (n - 1) m).add_right 1
    rwa [Nat.sub_add_cancel pos] at shifted

theorem residue_of_le (le : n ≤ m) : residue m n = n := by
  rcases Nat.eq_zero_or_pos n with rfl | pos
  · rfl
  · rw [residue_of_pos pos, Nat.mod_eq_of_lt (by omega)]
    omega

theorem residue_congr {a b : Nat} (congruent : a ≡ b [MOD m]) (zero : a = 0 ↔ b = 0) :
    residue m a = residue m b := by
  rcases Nat.eq_zero_or_pos a with rfl | aPos
  · rw [zero.mp rfl]
  · have bPos : 0 < b := by omega
    have shifted : a - 1 ≡ b - 1 [MOD m] := by
      apply Nat.ModEq.add_right_cancel' 1
      rwa [Nat.sub_add_cancel aPos, Nat.sub_add_cancel bPos]
    rw [residue_of_pos aPos, residue_of_pos bPos, shifted]

theorem residue_residue_add (m a b : Nat) : residue m (residue m a + b) = residue m (a + b) := by
  apply residue_congr ((residue_modEq m a).add_right b)
  rw [Nat.add_eq_zero_iff, Nat.add_eq_zero_iff, residue_eq_zero_iff]

theorem residue_eq_self_iff (pos : 0 < m) : residue m n = m ↔ m ∣ n ∧ 0 < n := by
  rcases Nat.eq_zero_or_pos n with rfl | nPos
  · simp only [residue_zero, Nat.lt_irrefl, and_false, iff_false]
    omega
  · rw [residue_of_pos nPos]
    have below := Nat.mod_lt (n - 1) pos
    constructor
    · intro largest
      refine ⟨(Nat.modEq_zero_iff_dvd).mp ?_, nPos⟩
      have self : residue m n = m := by rwa [residue_of_pos nPos]
      have congruent := (residue_modEq m n).symm
      rw [self] at congruent
      exact congruent.trans (Nat.modEq_zero_iff_dvd.mpr dvd_rfl)
    · rintro ⟨⟨quotient, rfl⟩, -⟩
      obtain ⟨q, rfl⟩ : ∃ q, quotient = q + 1 :=
        Nat.exists_eq_succ_of_ne_zero (by rintro rfl; simp at nPos)
      have last : m * (q + 1) - 1 = (m - 1) + m * q := by
        rw [Nat.mul_succ]
        omega
      rw [last, Nat.add_mul_mod_self_left, Nat.mod_eq_of_lt (by omega)]
      omega

end Residue

variable {w : Nat}

def endAround (a b : BitVec w) : BitVec w :=
  if a.toNat + b.toNat < 2 ^ w then a + b else a + b + 1

def onesSum (words : List (BitVec w)) : BitVec w :=
  words.foldl endAround 0

def total (words : List (BitVec w)) : Nat :=
  (words.map BitVec.toNat).sum

@[simp]
theorem total_nil : total ([] : List (BitVec w)) = 0 :=
  rfl

@[simp]
theorem total_cons (word : BitVec w) (words : List (BitVec w)) :
    total (word :: words) = word.toNat + total words :=
  rfl

@[simp]
theorem total_append (first second : List (BitVec w)) :
    total (first ++ second) = total first + total second := by
  simp [total]

theorem total_set_add {words : List (BitVec w)} {i : Nat} {old : BitVec w}
    (held : words[i]? = some old) (new : BitVec w) :
    total (words.set i new) + old.toNat = total words + new.toNat := by
  induction words generalizing i with
  | nil => cases held
  | cons word words ih =>
    cases i with
    | zero =>
      cases held
      simp only [List.set_cons_zero, total_cons]
      omega
    | succ i =>
      have later := ih held
      simp only [List.set_cons_succ, total_cons]
      omega

theorem toNat_endAround (a b : BitVec w) :
    (endAround a b).toNat = residue (2 ^ w - 1) (a.toNat + b.toNat) := by
  have aBound := a.isLt
  have bBound := b.isLt
  unfold endAround
  by_cases fits : a.toNat + b.toNat < 2 ^ w
  · rw [if_pos fits, BitVec.toNat_add, Nat.mod_eq_of_lt fits, residue_of_le (by omega)]
  · have sum : a.toNat + b.toNat - 1 = (a.toNat + b.toNat - 2 ^ w) + (2 ^ w - 1) := by omega
    have wrapped : (a.toNat + b.toNat) % 2 ^ w = a.toNat + b.toNat - 2 ^ w := by
      rw [Nat.mod_eq_sub_mod (by omega), Nat.mod_eq_of_lt (by omega)]
    have wide : 1 < 2 ^ w := by omega
    have one : (1 : BitVec w).toNat = 1 := Nat.mod_eq_of_lt wide
    rw [if_neg fits, residue_of_pos (by omega), sum, Nat.add_mod_right,
      Nat.mod_eq_of_lt (by omega), BitVec.toNat_add, BitVec.toNat_add, wrapped, one,
      Nat.mod_eq_of_lt (by omega)]

theorem endAround_eq_ite_lt (a b : BitVec w) :
    (if a + b < b then a + b + 1 else a + b) = endAround a b := by
  have aBound := a.isLt
  have bBound := b.isLt
  unfold endAround
  by_cases fits : a.toNat + b.toNat < 2 ^ w
  · have large : ¬ a + b < b := by
      rw [BitVec.lt_def, BitVec.toNat_add, Nat.mod_eq_of_lt fits]
      omega
    rw [if_neg large, if_pos fits]
  · have wrapped : (a.toNat + b.toNat) % 2 ^ w = a.toNat + b.toNat - 2 ^ w := by
      rw [Nat.mod_eq_sub_mod (by omega), Nat.mod_eq_of_lt (by omega)]
    have small : a + b < b := by
      rw [BitVec.lt_def, BitVec.toNat_add, wrapped]
      omega
    rw [if_pos small, if_neg fits]

theorem toNat_foldl_endAround (sum : BitVec w) (words : List (BitVec w)) :
    (words.foldl endAround sum).toNat = residue (2 ^ w - 1) (sum.toNat + total words) := by
  induction words generalizing sum with
  | nil =>
    exact (residue_of_le (Nat.le_sub_one_of_lt sum.isLt)).symm
  | cons word words ih =>
    rw [List.foldl_cons, ih, toNat_endAround, residue_residue_add, total_cons, Nat.add_assoc]

theorem toNat_onesSum (words : List (BitVec w)) :
    (onesSum words).toNat = residue (2 ^ w - 1) (total words) := by
  rw [onesSum, toNat_foldl_endAround]
  simp

theorem onesSum_eq_allOnes_iff (pos : 0 < w) (words : List (BitVec w)) :
    onesSum words = BitVec.allOnes w ↔ 2 ^ w - 1 ∣ total words ∧ 0 < total words := by
  have wide : 1 < 2 ^ w := Nat.one_lt_two_pow (Nat.ne_of_gt pos)
  rw [← BitVec.toNat_inj, toNat_onesSum, BitVec.toNat_allOnes, residue_eq_self_iff (by omega)]

theorem onesSum_set_complement (pos : 0 < w) {words : List (BitVec w)} {i : Nat}
    (zero : words[i]? = some 0#w) :
    onesSum (words.set i (~~~ onesSum words)) = BitVec.allOnes w := by
  have wide : 1 < 2 ^ w := Nat.one_lt_two_pow (Nat.ne_of_gt pos)
  have sum : total (words.set i (~~~ onesSum words)) =
      total words + (2 ^ w - 1 - residue (2 ^ w - 1) (total words)) := by
    have moved := total_set_add zero (~~~ onesSum words)
    rw [BitVec.toNat_not, toNat_onesSum] at moved
    simpa using moved
  have small : residue (2 ^ w - 1) (total words) ≤ 2 ^ w - 1 := by
    rw [← toNat_onesSum]
    have bound := (onesSum words).isLt
    omega
  rw [onesSum_eq_allOnes_iff pos, sum]
  constructor
  · rw [← Nat.modEq_zero_iff_dvd]
    calc total words + (2 ^ w - 1 - residue (2 ^ w - 1) (total words))
        ≡ residue (2 ^ w - 1) (total words) + (2 ^ w - 1 - residue (2 ^ w - 1) (total words))
          [MOD 2 ^ w - 1] := (residue_modEq _ _).symm.add_right _
      _ = 2 ^ w - 1 := Nat.add_sub_cancel' small
      _ ≡ 0 [MOD 2 ^ w - 1] := Nat.modEq_zero_iff_dvd.mpr dvd_rfl
  · rcases Nat.eq_zero_or_pos (total words) with zeroSum | posSum
    · rw [zeroSum, residue_zero]
      omega
    · omega

end Flannel.Bits
