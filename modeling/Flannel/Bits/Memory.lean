import Flannel.Bits.OnesComplement

/-!
# Little-endian memory

A region of memory is a list of bytes. `halves` and `words` read it as an array
of 16-bit and of 32-bit words of a little-endian machine.
-/

namespace Flannel.Bits

abbrev Byte := BitVec 8

theorem toNat_append_eq {m n : Nat} (high : BitVec m) (low : BitVec n) :
    (high ++ low).toNat = high.toNat * 2 ^ n + low.toNat := by
  rw [BitVec.toNat_append, ← Nat.shiftLeft_add_eq_or_of_lt low.isLt, Nat.shiftLeft_eq]

def lowHalf (word : BitVec 32) : BitVec 16 :=
  word.setWidth 16

def highHalf (word : BitVec 32) : BitVec 16 :=
  (word >>> 16).setWidth 16

def halvesOf (word : BitVec 32) : List (BitVec 16) :=
  [lowHalf word, highHalf word]

theorem toNat_eq_halves (word : BitVec 32) :
    word.toNat = (highHalf word).toNat * 65536 + (lowHalf word).toNat := by
  have bound := word.isLt
  simp only [highHalf, lowHalf, BitVec.toNat_setWidth, BitVec.toNat_ushiftRight,
    Nat.shiftRight_eq_div_pow]
  omega

@[simp]
theorem lowHalf_append (high low : BitVec 16) : lowHalf (high ++ low) = low :=
  BitVec.setWidth_append_eq_right

@[simp]
theorem highHalf_append (high low : BitVec 16) : highHalf (high ++ low) = high := by
  apply BitVec.eq_of_toNat_eq
  have lowBound := low.isLt
  have highBound := high.isLt
  rw [highHalf, BitVec.toNat_setWidth, BitVec.toNat_ushiftRight, Nat.shiftRight_eq_div_pow,
    toNat_append_eq]
  omega

def lowByte (half : BitVec 16) : Byte :=
  half.setWidth 8

def highByte (half : BitVec 16) : Byte :=
  (half >>> 8).setWidth 8

@[simp]
theorem highByte_append_lowByte (half : BitVec 16) : highByte half ++ lowByte half = half := by
  apply BitVec.eq_of_toNat_eq
  have bound := half.isLt
  rw [toNat_append_eq, highByte, lowByte, BitVec.toNat_setWidth, BitVec.toNat_setWidth,
    BitVec.toNat_ushiftRight, Nat.shiftRight_eq_div_pow]
  omega

@[simp]
theorem lowByte_append (high low : Byte) : lowByte (high ++ low) = low :=
  BitVec.setWidth_append_eq_right

@[simp]
theorem highByte_append (high low : Byte) : highByte (high ++ low) = high := by
  apply BitVec.eq_of_toNat_eq
  have lowBound := low.isLt
  have highBound := high.isLt
  rw [highByte, BitVec.toNat_setWidth, BitVec.toNat_ushiftRight, Nat.shiftRight_eq_div_pow,
    toNat_append_eq]
  omega

def bytes16 (half : BitVec 16) : List Byte :=
  [lowByte half, highByte half]

def bytes32 (word : BitVec 32) : List Byte :=
  bytes16 (lowHalf word) ++ bytes16 (highHalf word)

def swap16 (half : BitVec 16) : BitVec 16 :=
  lowByte half ++ highByte half

@[simp]
theorem swap16_swap16 (half : BitVec 16) : swap16 (swap16 half) = half := by
  rw [swap16, swap16, lowByte_append, highByte_append, highByte_append_lowByte]

def swap32 (word : BitVec 32) : BitVec 32 :=
  swap16 (lowHalf word) ++ swap16 (highHalf word)

def halves : List Byte → List (BitVec 16)
  | low :: high :: rest => (high ++ low) :: halves rest
  | _ => []

def words : List Byte → List (BitVec 32)
  | a :: b :: c :: d :: rest => ((d ++ c : BitVec 16) ++ (b ++ a : BitVec 16)) :: words rest
  | _ => []

theorem halves_eq_flatMap_words : {memory : List Byte} → 4 ∣ memory.length →
    halves memory = (words memory).flatMap halvesOf
  | [], _ => rfl
  | [_], full | [_, _], full | [_, _, _], full => by
    simp only [List.length_cons, List.length_nil] at full
    omega
  | a :: b :: c :: d :: rest, full => by
    have fullRest : 4 ∣ rest.length := by
      simp only [List.length_cons] at full
      omega
    rw [words, List.flatMap_cons, ← halves_eq_flatMap_words fullRest, halvesOf, lowHalf_append,
      highHalf_append]
    rfl

def Verifies (region : List Byte) : Prop :=
  onesSum (halves region) = BitVec.allOnes 16

instance (region : List Byte) : Decidable (Verifies region) :=
  inferInstanceAs (Decidable (_ = _))

end Flannel.Bits
