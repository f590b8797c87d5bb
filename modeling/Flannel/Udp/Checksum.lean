import Flannel.Bits.Memory

/-!
# The checksum routine of the UDP proxy

`cksum` adds 32-bit words and folds the sum once. It computes the Internet
checksum of the 16-bit halves, including the choice between the two zeros.
-/

namespace Flannel.Udp

open Bits

def cksumLoop (sum : BitVec 32) : List (BitVec 32) → BitVec 32
  | [] => sum
  | s :: buf =>
    let sum := sum + s
    cksumLoop (if sum < s then sum + 1 else sum) buf

def cksum (buf : List (BitVec 32)) : BitVec 16 :=
  let sum := cksumLoop 0 buf
  -- fold down to 16 bits
  let t1 := sum.setWidth 16
  let t2 := (sum >>> 16).setWidth 16
  let t1 := t1 + t2
  let t1 := if t1 < t2 then t1 + 1 else t1
  ~~~ t1

theorem cksumLoop_eq_foldl (sum : BitVec 32) (buf : List (BitVec 32)) :
    cksumLoop sum buf = buf.foldl endAround sum := by
  induction buf generalizing sum with
  | nil => rfl
  | cons s buf ih =>
    rw [cksumLoop, ih, List.foldl_cons, endAround_eq_ite_lt]

theorem cksum_eq_endAround (buf : List (BitVec 32)) :
    cksum buf = ~~~ endAround (lowHalf (onesSum buf)) (highHalf (onesSum buf)) := by
  simp only [cksum, cksumLoop_eq_foldl, endAround_eq_ite_lt]
  rfl

theorem total_halves_modEq (buf : List (BitVec 32)) :
    total (buf.flatMap halvesOf) ≡ total buf [MOD 2 ^ 16 - 1] := by
  induction buf with
  | nil => rfl
  | cons word buf ih =>
    rw [List.flatMap_cons, total_append, total_cons]
    refine Nat.ModEq.add ?_ ih
    have split : word.toNat = total (halvesOf word) + (2 ^ 16 - 1) * (highHalf word).toNat := by
      rw [toNat_eq_halves word, halvesOf, total_cons, total_cons, total_nil]
      omega
    rw [split]
    exact (Nat.add_mul_mod_self_left _ _ _).symm

theorem total_halves_eq_zero_iff (buf : List (BitVec 32)) :
    total (buf.flatMap halvesOf) = 0 ↔ total buf = 0 := by
  induction buf with
  | nil => rfl
  | cons word buf ih =>
    rw [List.flatMap_cons, total_append, total_cons, Nat.add_eq_zero_iff, Nat.add_eq_zero_iff, ih,
      toNat_eq_halves word, halvesOf, total_cons, total_cons, total_nil]
    omega

/-- The folded 32-bit sum is the 16-bit sum of the halves. The classes agree
because `2 ^ 16 - 1` divides `2 ^ 32 - 1`, and each of the three sums is zero only
for an array of zeros. -/
theorem endAround_onesSum (buf : List (BitVec 32)) :
    endAround (lowHalf (onesSum buf)) (highHalf (onesSum buf)) = onesSum (buf.flatMap halvesOf) := by
  apply BitVec.eq_of_toNat_eq
  have split := toNat_eq_halves (onesSum buf)
  have value := toNat_onesSum buf
  rw [toNat_endAround, toNat_onesSum]
  apply residue_congr
  · have folded : (lowHalf (onesSum buf)).toNat + (highHalf (onesSum buf)).toNat ≡
        (onesSum buf).toNat [MOD 2 ^ 16 - 1] := by
      have moved : (onesSum buf).toNat = (lowHalf (onesSum buf)).toNat +
          (highHalf (onesSum buf)).toNat + (2 ^ 16 - 1) * (highHalf (onesSum buf)).toNat := by omega
      rw [moved]
      exact (Nat.add_mul_mod_self_left _ _ _).symm
    have summed : (onesSum buf).toNat ≡ total buf [MOD 2 ^ 16 - 1] := by
      rw [value]
      exact (residue_modEq (2 ^ 32 - 1) (total buf)).of_dvd (by decide)
    exact (folded.trans summed).trans (total_halves_modEq buf).symm
  · rw [total_halves_eq_zero_iff, ← residue_eq_zero_iff (m := 2 ^ 32 - 1) (n := total buf), ← value]
    omega

theorem cksum_eq (buf : List (BitVec 32)) : cksum buf = ~~~ onesSum (buf.flatMap halvesOf) := by
  rw [cksum_eq_endAround, endAround_onesSum]

theorem verifies_cksum {region stored : List Byte} (full : 4 ∣ region.length) {i : Nat}
    (zero : (halves region)[i]? = some 0#16)
    (isStored : halves stored = (halves region).set i (cksum (words region))) : Verifies stored := by
  rw [Verifies, isStored, cksum_eq, ← halves_eq_flatMap_words full]
  exact onesSum_set_complement (by decide) zero

/-- Store a 16-bit field of an array of words; field `i` lies in word `i / 2`. -/
def storeField (buf : List (BitVec 32)) (i : Nat) (half : BitVec 16) : List (BitVec 32) :=
  buf.modify (i / 2) fun word => if i % 2 = 0 then highHalf word ++ half else half ++ lowHalf word

theorem halves_storeField (buf : List (BitVec 32)) (i : Nat) (half : BitVec 16) :
    (storeField buf i half).flatMap halvesOf = (buf.flatMap halvesOf).set i half := by
  induction buf generalizing i with
  | nil => simp [storeField]
  | cons word buf ih =>
    match i with
    | 0 => simp [storeField, halvesOf]
    | 1 => simp [storeField, halvesOf]
    | i + 2 =>
      have further : storeField (word :: buf) (i + 2) half = word :: storeField buf i half := by
        simp [storeField]
      rw [further, List.flatMap_cons, List.flatMap_cons, ih]
      rfl

/-- On every array of 32-bit words `cksum` is the complement of the
one's-complement sum of the halves, and stored in a field that was zero it makes
the sum of the array `0xFFFF`. -/
theorem cksum_eq_internetChecksum (buf : List (BitVec 32)) :
    cksum buf = ~~~ onesSum (buf.flatMap halvesOf) ∧
      ∀ i, (buf.flatMap halvesOf)[i]? = some 0#16 →
        onesSum ((storeField buf i (cksum buf)).flatMap halvesOf) = 0xFFFF#16 := by
  refine ⟨cksum_eq buf, fun i zero => ?_⟩
  rw [halves_storeField, cksum_eq]
  exact onesSum_set_complement (by decide) zero

end Flannel.Udp
