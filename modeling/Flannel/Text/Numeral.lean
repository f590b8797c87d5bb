import Mathlib.Data.Nat.Basic
import Mathlib.Data.List.TakeDrop

/-!
# Numerals

Reading back the digits that `Nat.toDigits` writes, in any base up to sixteen,
and the shape of the texts it produces.
-/

namespace Flannel.Text

def isDecimal (c : Char) : Bool :=
  '0' ≤ c && c ≤ '9'

def isHex (c : Char) : Bool :=
  isDecimal c || ('a' ≤ c && c ≤ 'f') || ('A' ≤ c && c ≤ 'F')

def digitValue (c : Char) : Nat :=
  if isDecimal c then c.toNat - '0'.toNat
  else if 'a' ≤ c then c.toNat - 'a'.toNat + 10
  else c.toNat - 'A'.toNat + 10

def numeral (base : Nat) (digits : List Char) : Nat :=
  digits.foldl (fun value c => base * value + digitValue c) 0

@[simp]
theorem numeral_append_singleton (base : Nat) (digits : List Char) (c : Char) :
    numeral base (digits ++ [c]) = base * numeral base digits + digitValue c := by
  simp [numeral]

theorem digitValue_digitChar {n : Nat} (small : n < 16) : digitValue n.digitChar = n := by
  have all : ∀ k : Fin 16, digitValue (k : Nat).digitChar = k := by decide
  exact all ⟨n, small⟩

theorem isDecimal_digitChar {n : Nat} (small : n < 10) : isDecimal n.digitChar := by
  have all : ∀ k : Fin 10, isDecimal (k : Nat).digitChar := by decide
  exact all ⟨n, small⟩

theorem isHex_digitChar {n : Nat} (small : n < 16) : isHex n.digitChar := by
  have all : ∀ k : Fin 16, isHex (k : Nat).digitChar := by decide
  exact all ⟨n, small⟩

theorem forall_mem_toDigits {base : Nat} (large : 1 < base) {P : Char → Prop}
    (digit : ∀ k, k < base → P k.digitChar) (n : Nat) : ∀ c ∈ Nat.toDigits base n, P c := by
  induction n using Nat.strong_induction_on with
  | _ n ih =>
    rw [Nat.toDigits_eq_if large]
    split
    · rename_i small
      intro c mem
      rw [List.mem_singleton] at mem
      exact mem ▸ digit n small
    · intro c mem
      rcases List.mem_append.mp mem with mem | mem
      · exact ih (n / base) (Nat.div_lt_self (by omega) large) c mem
      · rw [List.mem_singleton] at mem
        exact mem ▸ digit (n % base) (Nat.mod_lt n (by omega))

theorem isDecimal_of_mem_toDigits {n : Nat} {c : Char} (mem : c ∈ Nat.toDigits 10 n) :
    isDecimal c :=
  forall_mem_toDigits (P := fun c => isDecimal c) (by decide)
    (fun _ small => isDecimal_digitChar small) n c mem

theorem isHex_of_mem_toDigits {n : Nat} {c : Char} (mem : c ∈ Nat.toDigits 16 n) :
    isHex c :=
  forall_mem_toDigits (P := fun c => isHex c) (by decide)
    (fun _ small => isHex_digitChar small) n c mem

theorem numeral_toDigits {base : Nat} (large : 1 < base) (small : base ≤ 16) (n : Nat) :
    numeral base (Nat.toDigits base n) = n := by
  induction n using Nat.strong_induction_on with
  | _ n ih =>
    rw [Nat.toDigits_eq_if large]
    split
    · rename_i below
      simp [numeral, digitValue_digitChar (lt_of_lt_of_le below small)]
    · rw [numeral_append_singleton, ih (n / base) (Nat.div_lt_self (by omega) large),
        digitValue_digitChar (lt_of_lt_of_le (Nat.mod_lt n (by omega)) small)]
      exact Nat.div_add_mod n base

theorem head_toDigits_ne_zero {base : Nat} (large : 1 < base) {n : Nat} {c d : Char}
    {digits : List Char} (shape : Nat.toDigits base n = c :: d :: digits) : c ≠ '0' := by
  induction n using Nat.strong_induction_on generalizing c d digits with
  | _ n ih =>
    rw [Nat.toDigits_eq_if large] at shape
    split at shape
    · simp at shape
    · rename_i big
      -- The leading digit is that of the quotient, which is positive.
      have positive : 0 < n / base := Nat.div_pos (by omega) (by omega)
      cases quotient : Nat.toDigits base (n / base) with
      | nil => exact absurd quotient Nat.toDigits_ne_nil
      | cons first rest =>
        rw [quotient] at shape
        have first_eq : first = c := by simpa using congrArg List.head? shape
        subst first_eq
        cases rest with
        | cons second rest =>
          exact ih (n / base) (Nat.div_lt_self (by omega) large) quotient
        | nil =>
          rw [Nat.toDigits_eq_if large] at quotient
          split at quotient
          · rw [List.cons.injEq] at quotient
            rw [← quotient.1]
            intro zero
            rw [Nat.digitChar_eq_zero] at zero
            omega
          · have lengths := congrArg List.length quotient
            have nonempty : 0 < (Nat.toDigits base (n / base / base)).length :=
              Nat.length_toDigits_pos
            simp at lengths

end Flannel.Text
