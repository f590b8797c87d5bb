import Mathlib.Data.BitVec
import Mathlib.Data.List.Basic

/-!
# Base64

`encoding/base64`: two alphabets, with or without padding. The decoders skip line breaks and
ignore spare bits. What one encoding writes, another one rejects or reads alike.
-/

namespace Flannel.Text.Base64

structure Encoding where
  url : Bool
  padded : Bool
  deriving DecidableEq

def alphabet (url : Bool) : List Char :=
  "ABCDEFGHIJKLMNOPQRSTUVWXYZabcdefghijklmnopqrstuvwxyz0123456789".toList ++
    if url then ['-', '_'] else ['+', '/']

def char (url : Bool) (value : Nat) : Char :=
  (alphabet url).getD value 'A'

def digit (url : Bool) (c : Char) : Option Nat :=
  (alphabet url).idxOf? c

def encode (e : Encoding) : List (BitVec 8) → List Char
  | [] => []
  | [a] =>
    [char e.url (a.toNat / 4), char e.url (a.toNat % 4 * 16)] ++ if e.padded then ['=', '='] else []
  | [a, b] =>
    [char e.url (a.toNat / 4), char e.url (a.toNat % 4 * 16 + b.toNat / 16),
      char e.url (b.toNat % 16 * 4)] ++ if e.padded then ['='] else []
  | a :: b :: c :: rest =>
    char e.url (a.toNat / 4) :: char e.url (a.toNat % 4 * 16 + b.toNat / 16) ::
      char e.url (b.toNat % 16 * 4 + c.toNat / 64) :: char e.url (c.toNat % 64) :: encode e rest

def byte₁ (x y : Nat) : BitVec 8 := BitVec.ofNat 8 (x * 4 + y / 16)
def byte₂ (y z : Nat) : BitVec 8 := BitVec.ofNat 8 (y % 16 * 16 + z / 4)
def byte₃ (z w : Nat) : BitVec 8 := BitVec.ofNat 8 (z % 4 * 64 + w)

def decodeQuanta (e : Encoding) : List Char → Option (List (BitVec 8))
  | [] => some []
  | [_] => none
  | [a, b] => do
    let x ← digit e.url a
    let y ← digit e.url b
    if e.padded then none else some [byte₁ x y]
  | [a, b, c] => do
    let x ← digit e.url a
    let y ← digit e.url b
    let z ← digit e.url c
    if e.padded then none else some [byte₁ x y, byte₂ y z]
  | a :: b :: c :: d :: rest => do
    let x ← digit e.url a
    let y ← digit e.url b
    match digit e.url c, digit e.url d with
    | some z, some w => (decodeQuanta e rest).map (byte₁ x y :: byte₂ y z :: byte₃ z w :: ·)
    | some z, none =>
      if e.padded ∧ d = '=' ∧ rest = [] then some [byte₁ x y, byte₂ y z] else none
    | none, _ => if e.padded ∧ c = '=' ∧ d = '=' ∧ rest = [] then some [byte₁ x y] else none

def decodeString (e : Encoding) (text : List Char) : Option (List (BitVec 8)) :=
  decodeQuanta e (text.filter fun c => c != '\n' && c != '\r')

def encodings : List Encoding :=
  [⟨false, false⟩, ⟨false, true⟩, ⟨true, false⟩, ⟨true, true⟩]

def decodeAny (text : List Char) : Option (List (BitVec 8)) :=
  encodings.findSome? (decodeString · text)

/-! ## Reading what was written -/

attribute [local simp] encode decodeQuanta

theorem digit_char {e e' : Encoding} {value : Nat} (small : value < 64) :
    digit e.url (char e'.url value) = some value ∨
      (e ≠ e' ∧ digit e.url (char e'.url value) = none) := by
  have all : ∀ (url url' : Bool) (value : Fin 64), digit url (char url' value) = some value.val ∨
      (url ≠ url' ∧ digit url (char url' value) = none) := by
    decide +kernel
  refine (all e.url e'.url ⟨value, small⟩).imp id fun ⟨other, isNone⟩ => ⟨?_, isNone⟩
  exact fun same => other (congrArg Encoding.url same)

theorem char_mem (url : Bool) (value : Nat) : char url value ∈ alphabet url := by
  rw [char, List.getD_eq_getElem?_getD]
  cases found : (alphabet url)[value]? with
  | none => exact List.mem_append_left _ (by decide)
  | some c => exact List.mem_of_getElem? found

theorem notMem_alphabet {c : Char} (mem : c ∈ ['=', '\n', '\r']) (url : Bool) : c ∉ alphabet url := by
  have letters : ∀ url, (alphabet url).all fun c => !(['=', '\n', '\r'].contains c) := by
    decide +kernel
  intro isLetter
  simpa [mem] using List.all_eq_true.mp (letters url) c isLetter

theorem char_ne_pad (url : Bool) (value : Nat) : char url value ≠ '=' :=
  fun isPad => notMem_alphabet (.head _) url (isPad ▸ char_mem url value)

theorem digit_pad (url : Bool) : digit url '=' = none :=
  List.idxOf?_eq_none_iff.mpr (notMem_alphabet (.head _) url)

theorem byte₁_eq (a : BitVec 8) {n : Nat} (small : n < 16) :
    byte₁ (a.toNat / 4) (a.toNat % 4 * 16 + n) = a := by
  have bound := a.isLt
  apply BitVec.eq_of_toNat_eq
  rw [byte₁, BitVec.toNat_ofNat]
  omega

theorem byte₂_eq (b : BitVec 8) {m n : Nat} (small : n < 4) :
    byte₂ (m * 16 + b.toNat / 16) (b.toNat % 16 * 4 + n) = b := by
  have bound := b.isLt
  apply BitVec.eq_of_toNat_eq
  rw [byte₂, BitVec.toNat_ofNat]
  omega

theorem byte₃_eq (c : BitVec 8) {n : Nat} :
    byte₃ (n * 4 + c.toNat / 64) (c.toNat % 64) = c := by
  have bound := c.isLt
  apply BitVec.eq_of_toNat_eq
  rw [byte₃, BitVec.toNat_ofNat]
  omega

theorem decodeQuanta_encode (e e' : Encoding) : (bytes : List (BitVec 8)) →
    decodeQuanta e (encode e' bytes) = some bytes ∨
      (e ≠ e' ∧ decodeQuanta e (encode e' bytes) = none)
  | [] => .inl rfl
  | [a] => by
    have bound := a.isLt
    have first := byte₁_eq a (n := 0) (by omega)
    obtain ⟨url, padded⟩ := e
    obtain ⟨url', padded'⟩ := e'
    have x := @digit_char ⟨url, padded⟩ ⟨url', padded'⟩ (a.toNat / 4) (by omega)
    have y := @digit_char ⟨url, padded⟩ ⟨url', padded'⟩ (a.toNat % 4 * 16) (by omega)
    rcases x with x | ⟨other, x⟩
    · rcases y with y | ⟨other, y⟩ <;> cases padded <;> cases padded' <;>
        simp_all [digit_pad]
    · cases padded' <;> simp_all
  | [a, b] => by
    have aBound := a.isLt
    have bBound := b.isLt
    have first := byte₁_eq a (n := b.toNat / 16) (by omega)
    have second := byte₂_eq b (m := a.toNat % 4) (n := 0) (by omega)
    obtain ⟨url, padded⟩ := e
    obtain ⟨url', padded'⟩ := e'
    have x := @digit_char ⟨url, padded⟩ ⟨url', padded'⟩ (a.toNat / 4) (by omega)
    have y := @digit_char ⟨url, padded⟩ ⟨url', padded'⟩ (a.toNat % 4 * 16 + b.toNat / 16) (by omega)
    have z := @digit_char ⟨url, padded⟩ ⟨url', padded'⟩ (b.toNat % 16 * 4) (by omega)
    have noPad := char_ne_pad url' (b.toNat % 16 * 4)
    rcases x with x | ⟨other, x⟩
    · rcases y with y | ⟨other, y⟩
      · rcases z with z | ⟨other, z⟩ <;> cases padded <;> cases padded' <;>
          simp_all [digit_pad]
      · cases padded' <;> simp_all
    · cases padded' <;> simp_all
  | a :: b :: c :: rest => by
    have aBound := a.isLt
    have bBound := b.isLt
    have cBound := c.isLt
    have first := byte₁_eq a (n := b.toNat / 16) (by omega)
    have second := byte₂_eq b (m := a.toNat % 4) (n := c.toNat / 64) (by omega)
    have third := byte₃_eq c (n := b.toNat % 16)
    have later := decodeQuanta_encode e e' rest
    have w := @digit_char e e' (c.toNat % 64) (by omega)
    rcases @digit_char e e' (a.toNat / 4) (by omega) with x | ⟨other, x⟩
    · rcases @digit_char e e' (a.toNat % 4 * 16 + b.toNat / 16) (by omega) with y | ⟨other, y⟩
      · rcases @digit_char e e' (b.toNat % 16 * 4 + c.toNat / 64) (by omega) with z | ⟨other, z⟩
        · rcases w with w | ⟨other, w⟩
          · rcases later with later | ⟨other, later⟩ <;> simp_all
          · simp [x, y, z, w, other, char_ne_pad]
        · simp [x, y, z, other, char_ne_pad]
      · simp [x, y, other]
    · simp [x, other]

theorem mem_encode {e : Encoding} {c : Char} : (bytes : List (BitVec 8)) → c ∈ encode e bytes →
    c = '=' ∨ c ∈ alphabet e.url
  | [], mem => by cases mem
  | [a], mem => by
    cases isPadded : e.padded <;> simp [isPadded] at mem <;>
      rcases mem with rfl | rfl | rfl <;> simp [char_mem]
  | [a, b], mem => by
    cases isPadded : e.padded <;> simp [isPadded] at mem <;>
      rcases mem with rfl | rfl | rfl | rfl <;> simp [char_mem]
  | a :: b :: c :: rest, mem => by
    simp only [encode, List.mem_cons] at mem
    rcases mem with rfl | rfl | rfl | rfl | mem
    · exact .inr (char_mem _ _)
    · exact .inr (char_mem _ _)
    · exact .inr (char_mem _ _)
    · exact .inr (char_mem _ _)
    · exact mem_encode rest mem

theorem length_encode (e : Encoding) : (bytes : List (BitVec 8)) → (encode e bytes).length =
    if e.padded then (bytes.length + 2) / 3 * 4 else (bytes.length * 4 + 2) / 3
  | [] => by simp
  | [_] | [_, _] => by cases isPadded : e.padded <;> simp [isPadded]
  | _ :: _ :: _ :: rest => by
    have later := length_encode e rest
    cases isPadded : e.padded <;> simp [isPadded] at later ⊢ <;> omega

theorem decodeAny_encode (e : Encoding) (bytes : List (BitVec 8)) :
    decodeAny (encode e bytes) = some bytes := by
  have plain : (encode e bytes).filter (fun c => c != '\n' && c != '\r') = encode e bytes := by
    refine List.filter_eq_self.mpr fun c mem => ?_
    rcases mem_encode bytes mem with rfl | mem
    · decide
    · have notBreak : c ∉ ['=', '\n', '\r'] := fun isBreak => notMem_alphabet isBreak e.url mem
      simp_all
  have member : e ∈ encodings := by
    obtain ⟨_ | _, _ | _⟩ := e <;> decide
  simp only [decodeAny, decodeString, plain]
  cases found : encodings.findSome? (decodeQuanta · (encode e bytes)) with
  | none =>
    have rejected := List.findSome?_eq_none_iff.mp found e member
    rcases decodeQuanta_encode e e bytes with read | ⟨other, -⟩
    · rw [read] at rejected
      cases rejected
    · exact absurd rfl other
  | some result =>
    obtain ⟨e', -, read'⟩ := List.exists_of_findSome?_eq_some found
    rcases decodeQuanta_encode e' e bytes with read | ⟨-, rejected⟩
    · exact read'.symm.trans read
    · rw [rejected] at read'
      cases read'

end Flannel.Text.Base64
