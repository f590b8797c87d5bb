import Flannel.Net.Mac
import Flannel.Text.Base64
import Flannel.Text.Json
import Flannel.Text.Lines

/-!
# The account of a connector token

`connectorAccountID`: a token is JSON in base64, and its field `a` holds the account as
hexadecimal digits, as these in base64, or as raw bytes in base64.
-/

namespace Flannel.Mesh

open Text Text.Base64 Net

def hexText (bytes : List (BitVec 8)) : List Char :=
  bytes.flatMap fun byte => [(byte.toNat / 16).digitChar, (byte.toNat % 16).digitChar]

def utf8 (text : String) : List (BitVec 8) :=
  text.toByteArray.data.toList.map UInt8.toBitVec

def ofUtf8 (bytes : List (BitVec 8)) : Option String :=
  String.fromUTF8? ⟨(bytes.map UInt8.ofBitVec).toArray⟩

def accountField : Text.Field String :=
  ⟨"a", storeString fun account _ => account⟩

def accountOf (field : List Char) : Except String (List Char) :=
  if field.length = 32 ∧ (hexBytes field).isSome then .ok field
  else
    match decodeAny field with
    | none => .error "decode connector account: invalid base64"
    | some account =>
      if account.length = 16 then .ok (hexText account)
      else
        let value := account.map fun byte => Char.ofNat byte.toNat
        if value.length = 32 ∧ (hexBytes value).isSome then .ok (value.map Char.toLower)
        else .error ("connector token account has invalid encoding (decoded length " ++
          toString account.length ++ ")")

def connectorAccountID (token : List Char) : Except String (List Char) :=
  match decodeAny (trimSpace token) with
  | none => .error "decode connector token: invalid base64"
  | some raw =>
    match (ofUtf8 raw).bind (unmarshal [accountField] "") with
    | none => .error "connector token has no account"
    | some field => if field = "" then .error "connector token has no account" else accountOf field.toList

/-! ## Tokens -/

def IsToken (text : String) (token : List Char) : Prop :=
  ∃ before e after, token = before ++ (encode e (utf8 text) ++ after) ∧
    (∀ c ∈ before, isUnicodeSpace c = true) ∧ ∀ c ∈ after, isUnicodeSpace c = true

inductive Holds (account : List (BitVec 8)) : List Char → Prop
  | digits {field : List Char} (read : hexBytes field = some account) : Holds account field
  | digitsEncoded {field : List Char} (e : Encoding) (read : hexBytes field = some account) :
    Holds account (encode e (field.map fun c => BitVec.ofNat 8 c.toNat))
  | bytesEncoded (e : Encoding) : Holds account (encode e account)

theorem ofUtf8_utf8 (text : String) : ofUtf8 (utf8 text) = some text := by
  have same : (⟨((utf8 text).map UInt8.ofBitVec).toArray⟩ : ByteArray) = text.toByteArray := by
    rw [utf8, List.map_map]
    exact congrArg (fun bytes : List UInt8 => ByteArray.mk bytes.toArray) (List.map_id _)
  rw [ofUtf8, same, String.fromUTF8?, dif_pos text.isValidUTF8]
  rfl

theorem trimSpace_append {before text after : List Char}
    (blank : ∀ c ∈ before, isUnicodeSpace c) (plain : ∀ c ∈ text, isUnicodeSpace c = false)
    (blank' : ∀ c ∈ after, isUnicodeSpace c) :
    trimSpace (before ++ (text ++ after)) = text := by
  have trailing : (text ++ after).rdropWhile isUnicodeSpace = text := by
    rw [List.rdropWhile, List.reverse_append, List.dropWhile_append_of_pos (by simpa using blank'),
      ← List.rdropWhile, List.rdropWhile_eq_self_iff]
    exact fun nonempty => by simp [plain _ (List.getLast_mem nonempty)]
  rw [trimSpace, List.dropWhile_append_of_pos blank]
  cases text with
  | nil =>
    rw [List.nil_append, List.dropWhile_eq_nil_iff.mpr blank']
    rfl
  | cons c text =>
    rw [List.cons_append, List.dropWhile_cons_of_neg (by simp [plain c (.head _)]), ← List.cons_append,
      trailing]

theorem connectorAccountID_of_isToken {text field : String} {token : List Char}
    (isToken : IsToken text token) (reads : unmarshal [accountField] "" text = some field)
    (nonempty : field ≠ "") : connectorAccountID token = accountOf field.toList := by
  obtain ⟨before, e, after, rfl, blank, blank'⟩ := isToken
  have plain : ∀ c ∈ encode e (utf8 text), isUnicodeSpace c = false := by
    have letters : ∀ url, ('=' :: alphabet url).all (!isUnicodeSpace ·) := by decide +kernel
    intro c mem
    simpa using List.all_eq_true.mp (letters e.url) c (List.mem_cons.mpr (mem_encode _ mem))
  simp only [connectorAccountID, trimSpace_append blank plain blank', decodeAny_encode, ofUtf8_utf8,
    Option.bind_some, reads, nonempty, if_false]

theorem digit_of_isHex {c : Char} (hex : isHex c) : digitValue c < 16 ∧
    c.toLower = (digitValue c).digitChar ∧ Char.ofNat (c.toNat % 256) = c := by
  have all : ∀ n : Fin 128, isHex (Char.ofNat n) → digitValue (Char.ofNat n) < 16 ∧
      (Char.ofNat n).toLower = (digitValue (Char.ofNat n)).digitChar ∧
      Char.ofNat ((Char.ofNat n).toNat % 256) = Char.ofNat n := by
    decide +kernel
  have small : c.toNat < 128 := by
    simp only [isHex, isDecimal, Bool.or_eq_true, Bool.and_eq_true, decide_eq_true_eq] at hex
    rcases hex with (⟨-, upper⟩ | ⟨-, upper⟩) | ⟨-, upper⟩ <;>
      exact lt_of_le_of_lt (show c.toNat ≤ _ from upper) (by decide)
  have at_c := all ⟨c.toNat, small⟩
  simp only [Char.ofNat_toNat] at at_c
  exact at_c hex

theorem digits_of_hexBytes : (field : List Char) → {account : List (BitVec 8)} →
    hexBytes field = some account → field.map Char.toLower = hexText account ∧
      field.length = 2 * account.length ∧
      ((field.map fun c => BitVec.ofNat 8 c.toNat).map fun byte => Char.ofNat byte.toNat) = field
  | [], account, read => by
    cases read
    exact ⟨rfl, rfl, rfl⟩
  | [_], account, read => by cases read
  | high :: low :: rest, account, read => by
    rw [hexBytes] at read
    split at read
    · next hex =>
      obtain ⟨highHex, lowHex⟩ := Bool.and_eq_true_iff.mp hex
      obtain ⟨account, restRead, rfl⟩ := Option.map_eq_some_iff.mp read
      obtain ⟨digits, length, chars⟩ := digits_of_hexBytes rest restRead
      obtain ⟨highSmall, highDigit, highChar⟩ := digit_of_isHex highHex
      obtain ⟨lowSmall, lowDigit, lowChar⟩ := digit_of_isHex lowHex
      have value : (BitVec.ofNat 8 (numeral 16 [high, low])).toNat =
          digitValue high * 16 + digitValue low := by
        simp only [numeral, List.foldl_cons, List.foldl_nil, BitVec.toNat_ofNat]
        omega
      have highValue : (digitValue high * 16 + digitValue low) / 16 = digitValue high := by omega
      have lowValue : (digitValue high * 16 + digitValue low) % 16 = digitValue low := by omega
      refine ⟨?_, by simp only [List.length_cons, length]; omega, ?_⟩
      · rw [hexText, List.flatMap_cons, value, highValue, lowValue, ← hexText, ← digits, ← highDigit,
          ← lowDigit]
        rfl
      · simp only [List.map_cons, chars, BitVec.toNat_ofNat, Nat.reducePow, highChar, lowChar]
    · cases read

/-- Whatever the form, the account is its digits in lower case, except that digits
which are not encoded are returned as they are. -/
theorem accountOf_of_holds {account : List (BitVec 8)} (size : account.length = 16)
    {field : List Char} (holds : Holds account field) :
    accountOf field = .ok (if field.length = 32 then field else hexText account) := by
  cases holds with
  | digits read =>
    obtain ⟨-, length, -⟩ := digits_of_hexBytes field read
    have long : field.length = 32 := by omega
    rw [accountOf, if_pos ⟨long, by rw [read]; rfl⟩, if_pos long]
  | @digitsEncoded field e read =>
    obtain ⟨digits, length, chars⟩ := digits_of_hexBytes field read
    have short : (encode e (field.map fun c => BitVec.ofNat 8 c.toNat)).length ≠ 32 := by
      rw [length_encode, List.length_map, length, size]
      split <;> decide
    rw [accountOf, if_neg fun h => short h.1, if_neg short, decodeAny_encode]
    simp only [chars, List.length_map, length, size, read, Option.isSome_some, digits]
    rfl
  | bytesEncoded e =>
    have short : (encode e account).length ≠ 32 := by
      rw [length_encode, size]
      split <;> decide
    rw [accountOf, if_neg fun h => short h.1, if_neg short, decodeAny_encode]
    simp only [size, if_true]

theorem Holds.toLower {account : List (BitVec 8)} (size : account.length = 16) {field : List Char}
    (holds : Holds account field) (long : field.length = 32) :
    field.map Char.toLower = hexText account := by
  cases holds with
  | digits read => exact (digits_of_hexBytes field read).1
  | @digitsEncoded field e read =>
    rw [length_encode, List.length_map, (digits_of_hexBytes field read).2.1, size] at long
    split at long <;> cases long
  | bytesEncoded e =>
    rw [length_encode, size] at long
    split at long <;> cases long

/-- The account is the same text whatever the encoding, namely its digits in lower case,
exactly if digits that are not encoded are in lower case. -/
theorem connectorAccountID_independent_iff {account : List (BitVec 8)} (size : account.length = 16)
    {text field : String} (holds : Holds account field.toList)
    (reads : unmarshal [accountField] "" text = some field) {token : List Char}
    (isToken : IsToken text token) :
    connectorAccountID token = .ok (hexText account) ↔
      (field.toList.length = 32 → field.toList.map Char.toLower = field.toList) := by
  have nonempty : field ≠ "" := by
    rintro rfl
    have nothing : accountOf [] = .error _ := rfl
    cases nothing.symm.trans (accountOf_of_holds size holds)
  rw [connectorAccountID_of_isToken isToken reads nonempty, accountOf_of_holds size holds,
    Except.ok.injEq]
  by_cases long : field.toList.length = 32
  · rw [if_pos long, holds.toLower size long]
    exact ⟨fun same _ => same.symm, fun lower => (lower long).symm⟩
  · rw [if_neg long]
    exact ⟨fun _ isLong => absurd isLong long, fun _ => rfl⟩

theorem connectorAccountID_independent_of_raw_bytes :
    connectorAccountID " eyJhIjoiQUFBQUFBQUFBQUFBQUFBQUFBQUFBQSJ9\n".toList =
      .ok (hexText (List.replicate 16 0#8)) :=
  (@connectorAccountID_independent_iff (List.replicate 16 0#8) rfl
    "\x7b\"a\":\"AAAAAAAAAAAAAAAAAAAAAA\"\x7d" "AAAAAAAAAAAAAAAAAAAAAA"
    (.bytesEncoded ⟨false, false⟩) (by decide +kernel) _ ⟨[' '], ⟨true, true⟩, ['\n'],
      by decide, List.forall_mem_singleton.mpr rfl, List.forall_mem_singleton.mpr rfl⟩).mpr
    (by decide)

theorem token_keeps_letter_case : ∃ account field, account.length = 16 ∧ Holds account field ∧
    connectorAccountID "eyJhIjoiMDEyMzQ1Njc4OUFCQ0RFRjAxMjM0NTY3ODlhYmNkZWYifQ==".toList = .ok field ∧
    field ≠ hexText account := by
  refine ⟨[0x01#8, 0x23#8, 0x45#8, 0x67#8, 0x89#8, 0xab#8, 0xcd#8, 0xef#8, 0x01#8, 0x23#8, 0x45#8,
    0x67#8, 0x89#8, 0xab#8, 0xcd#8, 0xef#8], "0123456789ABCDEF0123456789abcdef".toList, rfl,
    .digits (by decide), ?_, by decide +kernel⟩
  have isToken : IsToken "\x7b\"a\":\"0123456789ABCDEF0123456789abcdef\"\x7d"
      "eyJhIjoiMDEyMzQ1Njc4OUFCQ0RFRjAxMjM0NTY3ODlhYmNkZWYifQ==".toList :=
    ⟨[], ⟨false, true⟩, [], by decide +kernel, by simp, by simp⟩
  rw [@connectorAccountID_of_isToken _ "0123456789ABCDEF0123456789abcdef" _ isToken
    (by decide +kernel) (by decide)]
  decide

end Flannel.Mesh
