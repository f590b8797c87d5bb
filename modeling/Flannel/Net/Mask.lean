import Flannel.Net.Address
import Mathlib.Data.Set.Basic

/-!
# Prefix masks

Shorter masks are coarser, and the addresses a mask leaves unchanged are the multiples of the
block size, so that blocks of one length are equal or disjoint.
-/

namespace Flannel.Net

variable {width : Nat}

theorem getLsbD_cidrMask (ones position : Nat) :
    (cidrMask width ones).getLsbD position =
      (decide (position < width) && decide (width - ones ≤ position)) := by
  by_cases low : position < width
  · by_cases kept : width - ones ≤ position
    · simp [cidrMask, low, kept, Nat.not_lt.mpr kept]
    · simp [cidrMask, low, kept, Nat.lt_of_not_le kept]
  · simp [cidrMask, low]

theorem cidrMask_and_of_le {short long : Nat} (le : short ≤ long) :
    cidrMask width long &&& cidrMask width short = cidrMask width short := by
  apply BitVec.eq_of_getLsbD_eq
  intro position _
  rw [BitVec.getLsbD_and, getLsbD_cidrMask, getLsbD_cidrMask]
  by_cases kept : width - short ≤ position
  · have kept' : width - long ≤ position := by omega
    simp [kept, kept']
  · simp [kept]

theorem and_cidrMask_eq_of_le {short long : Nat} (le : short ≤ long) {a b : BitVec width}
    (agree : a &&& cidrMask width long = b &&& cidrMask width long) :
    a &&& cidrMask width short = b &&& cidrMask width short := by
  rw [← cidrMask_and_of_le le, ← BitVec.and_assoc, ← BitVec.and_assoc, agree]

/-- An address on the boundary of a block of the given prefix length. -/
def Aligned (ones : Nat) (bits : BitVec width) : Prop :=
  bits &&& cidrMask width ones = bits

instance (ones : Nat) (bits : BitVec width) : Decidable (Aligned ones bits) :=
  inferInstanceAs (Decidable (_ = _))

theorem and_cidrMask_eq_shift (ones : Nat) (bits : BitVec width) :
    bits &&& cidrMask width ones = bits >>> (width - ones) <<< (width - ones) := by
  apply BitVec.eq_of_getLsbD_eq
  intro position low
  rw [BitVec.getLsbD_and, getLsbD_cidrMask, BitVec.getLsbD_shiftLeft, BitVec.getLsbD_ushiftRight]
  by_cases kept : width - ones ≤ position
  · simp [low, kept, Nat.add_sub_cancel' kept, Nat.not_lt.mpr kept]
  · simp [kept, Nat.lt_of_not_le kept]

theorem aligned_and_cidrMask (ones : Nat) (bits : BitVec width) :
    Aligned ones (bits &&& cidrMask width ones) := by
  rw [Aligned, BitVec.and_assoc, BitVec.and_self]

theorem toNat_and_cidrMask (ones : Nat) (bits : BitVec width) :
    (bits &&& cidrMask width ones).toNat =
      bits.toNat / 2 ^ (width - ones) * 2 ^ (width - ones) := by
  rw [and_cidrMask_eq_shift, BitVec.toNat_shiftLeft, BitVec.toNat_ushiftRight,
    Nat.shiftRight_eq_div_pow, Nat.shiftLeft_eq]
  exact Nat.mod_eq_of_lt (lt_of_le_of_lt (Nat.div_mul_le_self _ _) bits.isLt)

theorem aligned_iff_dvd (ones : Nat) (bits : BitVec width) :
    Aligned ones bits ↔ 2 ^ (width - ones) ∣ bits.toNat := by
  rw [Aligned, ← BitVec.toNat_inj, toNat_and_cidrMask]
  constructor
  · intro equal
    exact ⟨bits.toNat / 2 ^ (width - ones), by rw [Nat.mul_comm, equal]⟩
  · exact Nat.div_mul_cancel

variable {ones : Nat}

theorem Aligned.add {a b : BitVec width} (first : Aligned ones a)
    (second : Aligned ones b) : Aligned ones (a + b) := by
  rw [aligned_iff_dvd] at first second ⊢
  rw [BitVec.toNat_add]
  exact (Nat.dvd_mod_iff (pow_dvd_pow 2 (Nat.sub_le width ones))).mpr (Nat.dvd_add first second)

theorem aligned_one_shiftLeft (ones : Nat) : Aligned ones (BitVec.ofNat width 1 <<< (width - ones)) := by
  rw [aligned_iff_dvd, BitVec.toNat_shiftLeft, Nat.shiftLeft_eq]
  exact (Nat.dvd_mod_iff (pow_dvd_pow 2 (Nat.sub_le width ones))).mpr (Nat.dvd_mul_left _ _)

/-- The addresses that agree with `bits` on its first `ones` bits. -/
def block (ones : Nat) (bits : BitVec width) : Set (BitVec width) :=
  {address | bits &&& cidrMask width ones = address &&& cidrMask width ones}

theorem self_mem_block (ones : Nat) (bits : BitVec width) : bits ∈ block ones bits :=
  rfl

theorem mem_block_iff {base bits : BitVec width} (aligned : Aligned ones base) :
    bits ∈ block ones base ↔
      base.toNat ≤ bits.toNat ∧ bits.toNat < base.toNat + 2 ^ (width - ones) := by
  have size : 0 < 2 ^ (width - ones) := Nat.two_pow_pos _
  obtain ⟨quotient, number⟩ := (aligned_iff_dvd ones base).mp aligned
  change base &&& cidrMask width ones = bits &&& cidrMask width ones ↔ _
  rw [aligned, ← BitVec.toNat_inj, toNat_and_cidrMask, number, Nat.mul_comm]
  generalize 2 ^ (width - ones) = m at size
  rw [Nat.mul_left_inj (Nat.ne_of_gt size), eq_comm, Nat.div_eq_iff size]
  constructor
  · rintro ⟨low, high⟩
    constructor <;> omega
  · rintro ⟨low, high⟩
    constructor <;> omega

theorem block_and_cidrMask (ones : Nat) (bits : BitVec width) :
    block ones (bits &&& cidrMask width ones) = block ones bits := by
  rw [block, aligned_and_cidrMask]
  rfl

theorem mem_block_of_between {base low high bits : BitVec width}
    (isLow : low ∈ block ones base) (isHigh : high ∈ block ones base) (le : low.toNat ≤ bits.toNat)
    (le' : bits.toNat ≤ high.toNat) : bits ∈ block ones base := by
  rw [← block_and_cidrMask, mem_block_iff (aligned_and_cidrMask _ _)] at isLow isHigh ⊢
  omega

theorem Aligned.add_le {base : BitVec width} (aligned : Aligned ones base) :
    base.toNat + 2 ^ (width - ones) ≤ 2 ^ width := by
  obtain ⟨quotient, number⟩ := (aligned_iff_dvd ones base).mp aligned
  have whole : 2 ^ width = 2 ^ (width - ones) * 2 ^ (min ones width) := by
    rw [← pow_add]
    congr 1
    omega
  have small := base.isLt
  rw [number, whole] at small ⊢
  rw [← Nat.mul_succ]
  exact Nat.mul_le_mul_left _ (Nat.lt_of_mul_lt_mul_left small)

theorem block_inter_nonempty_iff {short long : Nat} (le : short ≤ long) (a b : BitVec width) :
    (block short a ∩ block long b).Nonempty ↔
      a &&& cidrMask width short = b &&& cidrMask width short := by
  constructor
  · rintro ⟨address, first, second⟩
    have first : a &&& cidrMask width short = address &&& cidrMask width short := first
    exact first.trans (and_cidrMask_eq_of_le le second).symm
  · intro agree
    exact ⟨b, agree, self_mem_block long b⟩

theorem block_subset {short long : Nat} (le : short ≤ long) {a b : BitVec width}
    (agree : a &&& cidrMask width short = b &&& cidrMask width short) :
    block long b ⊆ block short a := by
  intro address mem
  exact agree.trans (and_cidrMask_eq_of_le le mem)

theorem block_subset_iff {ones' : Nat} (valid : ones ≤ width) (valid' : ones' ≤ width)
    (a b : BitVec width) :
    block ones' b ⊆ block ones a ↔
      ones ≤ ones' ∧ a &&& cidrMask width ones = b &&& cidrMask width ones := by
  constructor
  · intro subset
    have here : b ∈ block ones a := subset (self_mem_block _ _)
    refine ⟨?_, here⟩
    -- the first and the last address of the smaller block lie in the larger one
    have aligned := aligned_and_cidrMask ones' b
    have ends := aligned.add_le
    have size : 0 < 2 ^ (width - ones') := Nat.two_pow_pos _
    have each : ∀ bits : BitVec width, bits ∈ block ones' (b &&& cidrMask width ones') →
        bits ∈ block ones (a &&& cidrMask width ones) := by
      intro bits mem
      rw [block_and_cidrMask] at mem ⊢
      exact subset mem
    have first := each _ (self_mem_block _ _)
    have lastValue : (BitVec.ofNat width
        ((b &&& cidrMask width ones').toNat + 2 ^ (width - ones') - 1)).toNat =
          (b &&& cidrMask width ones').toNat + 2 ^ (width - ones') - 1 := by
      rw [BitVec.toNat_ofNat, Nat.mod_eq_of_lt (by omega)]
    have last := each (BitVec.ofNat width
        ((b &&& cidrMask width ones').toNat + 2 ^ (width - ones') - 1))
      (by rw [mem_block_iff aligned, lastValue]; omega)
    rw [mem_block_iff (aligned_and_cidrMask _ _)] at first last
    rw [lastValue] at last
    have le : 2 ^ (width - ones') ≤ 2 ^ (width - ones) := by omega
    have := (Nat.pow_le_pow_iff_right (by decide)).mp le
    omega
  · rintro ⟨le, agree⟩
    exact block_subset le agree

def sharing (ones : Nat) (bits : BitVec width) : Set (BitVec width) :=
  {address | ∀ i < ones, address.getMsbD i = bits.getMsbD i}

theorem sharing_eq_block (valid : ones ≤ width) (bits : BitVec width) :
    sharing ones bits = block ones bits := by
  ext address
  constructor
  · intro shares
    change bits &&& cidrMask width ones = address &&& cidrMask width ones
    apply BitVec.eq_of_getLsbD_eq
    intro position low
    rw [BitVec.getLsbD_and, BitVec.getLsbD_and, getLsbD_cidrMask]
    by_cases kept : width - ones ≤ position
    · have same := shares (width - 1 - position) (by omega)
      have mirrored : width - 1 - (width - 1 - position) = position := by omega
      have inside : width - 1 - position < width := by omega
      rw [BitVec.getMsbD, BitVec.getMsbD, mirrored, decide_eq_true inside, Bool.true_and,
        Bool.true_and] at same
      rw [same]
    · simp [kept]
  · intro agree i lt
    have agree : bits &&& cidrMask width ones = address &&& cidrMask width ones := agree
    have bit := congrArg (fun word => word.getLsbD (width - 1 - i)) agree
    have inside : i < width := by omega
    have kept : width - ones ≤ width - 1 - i := by omega
    have low : width - 1 - i < width := by omega
    simp only [BitVec.getLsbD_and, getLsbD_cidrMask, kept, low, decide_true, Bool.and_true] at bit
    rw [BitVec.getMsbD, BitVec.getMsbD, bit]

end Flannel.Net
