import Flannel.Text.Numeral
import Mathlib.Algebra.Group.Nat.Defs

/-!
# JSON texts

A reader for the grammar of `encoding/json`, in which numbers and strings keep their literal text,
the decoding of strings, and the writer's escapes. A member goes to the field of its name, up to
letter case; members without a field are skipped, and `null` leaves a field alone.
-/

namespace Flannel.Text

inductive Json
  | null
  | bool (value : Bool)
  | number (literal : List Char)
  | string (body : List Char)
  | array (elements : List Json)
  | object (members : List (List Char × Json))

/-! ## Reading -/

def isSpace (c : Char) : Bool :=
  c == ' ' || c == '\t' || c == '\n' || c == '\r'

def skipSpace (text : List Char) : List Char :=
  text.dropWhile isSpace

/-- The letters that may follow a backslash, apart from `u`. -/
def isEscape (c : Char) : Bool :=
  ['"', '\\', '/', 'b', 'f', 'n', 'r', 't'].contains c

def readString : List Char → Option (List Char × List Char)
  | [] => none
  | '"' :: rest => some ([], rest)
  | '\\' :: 'u' :: a :: b :: c :: d :: rest =>
    if [a, b, c, d].all isHex then
      (readString rest).map fun result => ('\\' :: 'u' :: a :: b :: c :: d :: result.1, result.2)
    else none
  | '\\' :: c :: rest =>
    if isEscape c then (readString rest).map fun result => ('\\' :: c :: result.1, result.2)
    else none
  | c :: rest =>
    if c < ' ' || c == '\\' then none
    else (readString rest).map fun result => (c :: result.1, result.2)

def readDigits (text : List Char) : Option (List Char × List Char) :=
  match text.takeWhile isDecimal with
  | [] => none
  | digits => some (digits, text.dropWhile isDecimal)

def readInteger (text : List Char) : Option (List Char × List Char) :=
  match text with
  | '0' :: rest => some (['0'], rest)
  | _ => readDigits text

def readFraction (text : List Char) : Option (List Char × List Char) :=
  match text with
  | '.' :: rest => (readDigits rest).map fun result => ('.' :: result.1, result.2)
  | _ => some ([], text)

def readExponent (text : List Char) : Option (List Char × List Char) :=
  match text with
  | c :: rest =>
    if c == 'e' || c == 'E' then
      match rest with
      | s :: digits =>
        if s == '+' || s == '-' then
          (readDigits digits).map fun result => (c :: s :: result.1, result.2)
        else (readDigits rest).map fun result => (c :: result.1, result.2)
      | [] => none
    else some ([], text)
  | [] => some ([], [])

def readUnsigned (text : List Char) : Option (List Char × List Char) := do
  let (integer, text) ← readInteger text
  let (fraction, text) ← readFraction text
  let (exponent, text) ← readExponent text
  some (integer ++ fraction ++ exponent, text)

def readNumber (text : List Char) : Option (List Char × List Char) :=
  match text with
  | '-' :: rest => (readUnsigned rest).map fun result => ('-' :: result.1, result.2)
  | _ => readUnsigned text

mutual

def readValue : Nat → List Char → Option (Json × List Char)
  | 0, _ => none
  | fuel + 1, text =>
    match skipSpace text with
    | '"' :: rest => (readString rest).map fun result => (.string result.1, result.2)
    | '\x7b' :: rest =>
      match skipSpace rest with
      | '\x7d' :: after => some (.object [], after)
      | _ => (readMembers fuel rest).map fun result => (.object result.1, result.2)
    | '[' :: rest =>
      match skipSpace rest with
      | ']' :: after => some (.array [], after)
      | _ => (readElements fuel rest).map fun result => (.array result.1, result.2)
    | 't' :: 'r' :: 'u' :: 'e' :: rest => some (.bool true, rest)
    | 'f' :: 'a' :: 'l' :: 's' :: 'e' :: rest => some (.bool false, rest)
    | 'n' :: 'u' :: 'l' :: 'l' :: rest => some (.null, rest)
    | start => (readNumber start).map fun result => (.number result.1, result.2)

def readElements : Nat → List Char → Option (List Json × List Char)
  | 0, _ => none
  | fuel + 1, text => do
    let (element, text) ← readValue fuel text
    match skipSpace text with
    | ',' :: rest => (readElements fuel rest).map fun result => (element :: result.1, result.2)
    | ']' :: rest => some ([element], rest)
    | _ => none

def readMembers : Nat → List Char → Option (List (List Char × Json) × List Char)
  | 0, _ => none
  | fuel + 1, text =>
    match skipSpace text with
    | '"' :: rest => do
      let (name, text) ← readString rest
      match skipSpace text with
      | ':' :: rest =>
        let (value, text) ← readValue fuel rest
        match skipSpace text with
        | ',' :: rest =>
          (readMembers fuel rest).map fun result => ((name, value) :: result.1, result.2)
        | '\x7d' :: rest => some ([(name, value)], rest)
        | _ => none
      | _ => none
    | _ => none

end

def parseJson (text : List Char) : Option Json :=
  match readValue (text.length + 1) text with
  | some (value, rest) => if (skipSpace rest).isEmpty then some value else none
  | none => none

/-! ## Strings -/

def codeUnit (a b c d : Char) : Nat :=
  numeral 16 [a, b, c, d]

def charOf (code : Nat) : Char :=
  if code.isValidChar then Char.ofNat code else '\ufffd'

def escaped (c : Char) : Char :=
  if c == 'b' then '\x08'
  else if c == 'f' then '\x0c'
  else if c == 'n' then '\n'
  else if c == 'r' then '\r'
  else if c == 't' then '\t'
  else c

/-- The text that the body of a string stands for. Two escaped surrogates make one
character, and a lone one the replacement character. -/
def unquote : List Char → List Char
  | [] => []
  | '\\' :: 'u' :: a :: b :: c :: d :: '\\' :: 'u' :: a' :: b' :: c' :: d' :: rest =>
    let high := codeUnit a b c d
    let low := codeUnit a' b' c' d'
    if 0xd800 ≤ high ∧ high < 0xdc00 ∧ 0xdc00 ≤ low ∧ low < 0xe000 then
      charOf (0x10000 + (high - 0xd800) * 0x400 + (low - 0xdc00)) :: unquote rest
    else charOf high :: unquote ('\\' :: 'u' :: a' :: b' :: c' :: d' :: rest)
  | '\\' :: 'u' :: a :: b :: c :: d :: rest => charOf (codeUnit a b c d) :: unquote rest
  | '\\' :: c :: rest => escaped c :: unquote rest
  | c :: rest => c :: unquote rest

def unicodeEscape (code : Nat) : List Char :=
  '\\' :: 'u' :: [(code / 4096 % 16).digitChar, (code / 256 % 16).digitChar,
    (code / 16 % 16).digitChar, (code % 16).digitChar]

def escapeChar (c : Char) : List Char :=
  if c == '"' || c == '\\' then ['\\', c]
  else if c == '\x08' then ['\\', 'b']
  else if c == '\x0c' then ['\\', 'f']
  else if c == '\n' then ['\\', 'n']
  else if c == '\r' then ['\\', 'r']
  else if c == '\t' then ['\\', 't']
  else if c < ' ' || c == '<' || c == '>' || c == '&' || c == '\u2028' || c == '\u2029' then
    unicodeEscape c.toNat
  else [c]

def quote (text : List Char) : List Char :=
  text.flatMap escapeChar

attribute [local simp] readString unquote

theorem readString_escape {c : Char} (isEsc : isEscape c) (tail : List Char) :
    readString ('\\' :: c :: tail) =
      (readString tail).map fun result => ('\\' :: c :: result.1, result.2) := by
  have notU : c ≠ 'u' := by
    rintro rfl
    contradiction
  simp [notU, isEsc]

theorem isHex_nibble (code : Nat) : isHex (code % 16).digitChar :=
  isHex_digitChar (Nat.mod_lt code (by decide))

theorem readString_unicodeEscape (code : Nat) (tail : List Char) :
    readString (unicodeEscape code ++ tail) =
      (readString tail).map fun result => (unicodeEscape code ++ result.1, result.2) := by
  simp [unicodeEscape, isHex_nibble]

theorem readString_plain {c : Char} (printable : ¬ c < ' ') (notSlash : c ≠ '\\') (notQuote : c ≠ '"')
    (tail : List Char) :
    readString (c :: tail) = (readString tail).map fun result => (c :: result.1, result.2) := by
  simp [notSlash, printable]

theorem readString_escapeChar (c : Char) (tail : List Char) :
    readString (escapeChar c ++ tail) =
      (readString tail).map fun result => (escapeChar c ++ result.1, result.2) := by
  unfold escapeChar
  split_ifs with special backspace feed newline carriage tab coded
  · have isEsc : isEscape c := by
      simp only [Bool.or_eq_true, beq_iff_eq] at special
      rcases special with rfl | rfl <;> rfl
    exact readString_escape isEsc tail
  · exact readString_escape rfl tail
  · exact readString_escape rfl tail
  · exact readString_escape rfl tail
  · exact readString_escape rfl tail
  · exact readString_escape rfl tail
  · exact readString_unicodeEscape _ tail
  · simp only [Bool.or_eq_true, beq_iff_eq, not_or, decide_eq_true_eq] at special coded
    exact readString_plain coded.1.1.1.1.1 special.2 special.1 tail

theorem readString_quote (text rest : List Char) :
    readString (quote text ++ '"' :: rest) = some (quote text, rest) := by
  induction text with
  | nil => rfl
  | cons c text ih =>
    rw [quote, List.flatMap_cons, List.append_assoc, readString_escapeChar]
    rw [quote] at ih
    rw [ih]
    rfl

theorem unquote_unicode {a b c d : Char} (single : ¬ (0xd800 ≤ codeUnit a b c d ∧ codeUnit a b c d < 0xdc00))
    (tail : List Char) :
    unquote ('\\' :: 'u' :: a :: b :: c :: d :: tail) = charOf (codeUnit a b c d) :: unquote tail := by
  rw [unquote.eq_def]
  split
  · contradiction
  · rename_i shape
    cases shape
    rw [if_neg fun pair => single ⟨pair.1, pair.2.1⟩]
  · rename_i shape
    cases shape
    rfl
  · rename_i notUnicode shape
    cases shape
    exact absurd rfl (notUnicode a b c d tail rfl)
  · rename_i notEscape shape
    cases shape
    exact absurd rfl (notEscape _ _ rfl)

theorem unquote_escape {c : Char} (notUnicode : c ≠ 'u') (tail : List Char) :
    unquote ('\\' :: c :: tail) = escaped c :: unquote tail := by
  simp [notUnicode]

theorem codeUnit_unicodeEscape {code : Nat} (small : code < 0x10000) :
    codeUnit (code / 4096 % 16).digitChar (code / 256 % 16).digitChar (code / 16 % 16).digitChar
      (code % 16).digitChar = code := by
  have nibble : ∀ n, digitValue (n % 16).digitChar = n % 16 := fun n =>
    digitValue_digitChar (Nat.mod_lt n (by decide))
  simp only [codeUnit, numeral, List.foldl_cons, List.foldl_nil, nibble]
  omega

theorem charOf_toNat (c : Char) : charOf c.toNat = c := by
  have valid : c.toNat.isValidChar := c.valid
  rw [charOf, if_pos valid, Char.ofNat_toNat]

theorem unquote_unicodeEscape {c : Char} (small : c.toNat < 0xd800) (tail : List Char) :
    unquote (unicodeEscape c.toNat ++ tail) = c :: unquote tail := by
  have code := codeUnit_unicodeEscape (lt_trans small (by decide))
  have single := @unquote_unicode _ _ _ _ (by rw [code]; omega) tail
  rw [code, charOf_toNat] at single
  exact single

theorem unquote_escapeChar (c : Char) (tail : List Char) :
    unquote (escapeChar c ++ tail) = c :: unquote tail := by
  unfold escapeChar
  split_ifs with special backspace feed newline carriage tab coded
  · simp only [Bool.or_eq_true, beq_iff_eq] at special
    rcases special with rfl | rfl <;> exact unquote_escape (by decide) tail
  · rw [beq_iff_eq] at backspace
    exact backspace ▸ unquote_escape (by decide) tail
  · rw [beq_iff_eq] at feed
    exact feed ▸ unquote_escape (by decide) tail
  · rw [beq_iff_eq] at newline
    exact newline ▸ unquote_escape (by decide) tail
  · rw [beq_iff_eq] at carriage
    exact carriage ▸ unquote_escape (by decide) tail
  · rw [beq_iff_eq] at tab
    exact tab ▸ unquote_escape (by decide) tail
  · apply unquote_unicodeEscape
    simp only [Bool.or_eq_true, beq_iff_eq, decide_eq_true_eq] at coded
    rcases coded with ((((control | rfl) | rfl) | rfl) | rfl) | rfl
    · exact lt_trans (Char.lt_def.mp control) (by decide)
    all_goals decide
  · simp only [Bool.or_eq_true, beq_iff_eq, not_or] at special
    simp [special.2]

theorem unquote_quote (text : List Char) : unquote (quote text) = text := by
  induction text with
  | nil => rfl
  | cons c text ih =>
    rw [quote, List.flatMap_cons, unquote_escapeChar]
    rw [quote] at ih
    rw [ih]

/-! ## Objects -/

def writeString (text : List Char) : List Char :=
  '"' :: (quote text ++ ['"'])

def writeMember (name value : List Char) : List Char :=
  writeString name ++ ':' :: value

def writeObject (members : List (List Char × List Char)) : List Char :=
  '\x7b' :: ([','].intercalate (members.map fun member => writeMember member.1 member.2) ++ ['\x7d'])

def EndsMember (rest : List Char) : Prop :=
  ∃ after, rest = ',' :: after ∨ rest = '\x7d' :: after

def Reads (text : List Char) (value : Json) : Prop :=
  ∀ fuel rest, EndsMember rest → readValue (fuel + 1) (text ++ rest) = some (value, rest)

theorem reads_string (text : List Char) : Reads (writeString text) (.string (quote text)) := by
  intro fuel rest _
  simp [writeString, readValue, skipSpace, isSpace, readString_quote]

theorem not_isDecimal_of_endsMember {rest : List Char} (ends : EndsMember rest) :
    rest.takeWhile isDecimal = [] ∧ rest.dropWhile isDecimal = rest ∧
      readFraction rest = some ([], rest) ∧ readExponent rest = some ([], rest) := by
  obtain ⟨after, rfl | rfl⟩ := ends <;> exact ⟨rfl, rfl, rfl, rfl⟩

theorem readInteger_toDigits (n : Nat) {rest : List Char} (ends : EndsMember rest) :
    readInteger (Nat.toDigits 10 n ++ rest) = some (Nat.toDigits 10 n, rest) := by
  have decimal : ∀ c ∈ Nat.toDigits 10 n, isDecimal c := fun c => isDecimal_of_mem_toDigits
  obtain ⟨noDigit, kept, _⟩ := not_isDecimal_of_endsMember ends
  have digits : readDigits (Nat.toDigits 10 n ++ rest) = some (Nat.toDigits 10 n, rest) := by
    rw [readDigits, List.takeWhile_append_of_pos decimal, List.dropWhile_append_of_pos decimal,
      noDigit, kept, List.append_nil]
    cases shape : Nat.toDigits 10 n with
    | nil => exact absurd shape Nat.toDigits_ne_nil
    | cons c more => rfl
  cases shape : Nat.toDigits 10 n with
  | nil => exact absurd shape Nat.toDigits_ne_nil
  | cons c more =>
    rw [shape] at digits
    by_cases zero : c = '0'
    · -- a numeral that starts with a zero is that zero
      cases more with
      | nil => simp [readInteger, zero]
      | cons d more => exact absurd zero (head_toDigits_ne_zero (by decide) shape)
    · simpa [readInteger, zero] using digits

theorem readValue_of_isDecimal {c : Char} (isDigit : isDecimal c) (fuel : Nat)
    (tail : List Char) :
    readValue (fuel + 1) (c :: tail) =
      (readNumber (c :: tail)).map fun result => (.number result.1, result.2) := by
  have other : ∀ d, isDecimal d = false → c ≠ d := by
    rintro d notDigit rfl
    rw [isDigit] at notDigit
    contradiction
  have notSpace : isSpace c = false := by
    simp [isSpace, other ' ' rfl, other '\t' rfl, other '\n' rfl, other '\r' rfl]
  simp [readValue, skipSpace, notSpace, other '"' rfl, other '\x7b' rfl, other '[' rfl,
    other 't' rfl, other 'f' rfl, other 'n' rfl]

theorem reads_toDigits (n : Nat) : Reads (Nat.toDigits 10 n) (.number (Nat.toDigits 10 n)) := by
  intro fuel rest ends
  have decimal : ∀ c ∈ Nat.toDigits 10 n, isDecimal c := fun c => isDecimal_of_mem_toDigits
  obtain ⟨_, _, fraction, exponent⟩ := not_isDecimal_of_endsMember ends
  have unsigned : readUnsigned (Nat.toDigits 10 n ++ rest) = some (Nat.toDigits 10 n, rest) := by
    simp [readUnsigned, readInteger_toDigits n ends, fraction, exponent]
  cases shape : Nat.toDigits 10 n with
  | nil => exact absurd shape Nat.toDigits_ne_nil
  | cons c more =>
    have isDigit := decimal c (shape ▸ (.head _))
    rw [shape] at unsigned
    have number : readNumber (c :: (more ++ rest)) = some (c :: more, rest) := by
      rw [readNumber]
      · exact unsigned
      · intro digits signed
        cases signed
        contradiction
    rw [List.cons_append, readValue_of_isDecimal isDigit, number]
    rfl

theorem readMembers_comma {name value after : List Char} {json : Json} (reads : Reads value json)
    (fuel : Nat) :
    readMembers (fuel + 2) (writeMember name value ++ ',' :: after) =
      (readMembers (fuel + 1) after).map fun result =>
        ((quote name, json) :: result.1, result.2) := by
  have valueRead := reads fuel (',' :: after) ⟨after, .inl rfl⟩
  rw [readMembers]
  simp [writeMember, writeString, skipSpace, isSpace, readString_quote, valueRead]

theorem readMembers_brace {name value after : List Char} {json : Json} (reads : Reads value json)
    (fuel : Nat) :
    readMembers (fuel + 2) (writeMember name value ++ '\x7d' :: after) =
      some ([(quote name, json)], after) := by
  have valueRead := reads fuel ('\x7d' :: after) ⟨after, .inr rfl⟩
  rw [readMembers]
  simp [writeMember, writeString, skipSpace, isSpace, readString_quote, valueRead]

theorem readMembers_intercalate {members : List (List Char × List Char × Json)}
    (nonempty : members ≠ []) (reads : ∀ member ∈ members, Reads member.2.1 member.2.2)
    {fuel : Nat} (enough : members.length < fuel) :
    readMembers fuel ([','].intercalate (members.map fun member => writeMember member.1 member.2.1) ++
        ['\x7d']) =
      some (members.map fun member => (quote member.1, member.2.2), []) := by
  induction members generalizing fuel with
  | nil => contradiction
  | cons member members ih =>
    obtain ⟨fuel, rfl⟩ : ∃ less, fuel = less + 2 := ⟨fuel - 2, by
      rw [List.length_cons] at enough
      omega⟩
    have first := reads member (.head _)
    cases members with
    | nil => simpa using @readMembers_brace member.1 member.2.1 [] member.2.2 first fuel
    | cons next members =>
      have rest := @ih (by simp) (fun other mem => reads other (.tail _ mem))
        (fuel + 1) (by simpa using enough)
      rw [List.map_cons] at rest
      rw [List.map_cons, List.map_cons, List.intercalate_cons_cons, List.append_assoc,
        List.append_assoc, List.singleton_append, readMembers_comma first, rest]
      rfl

theorem length_intercalate_le {α : Type} (separator : List α) {parts : List (List α)}
    (nonempty : ∀ part ∈ parts, part ≠ []) :
    parts.length ≤ (separator.intercalate parts).length := by
  induction parts with
  | nil => exact Nat.zero_le _
  | cons part parts ih =>
    have first := List.length_pos_iff.mpr (nonempty part (.head _))
    have rest := ih fun other mem => nonempty other (.tail _ mem)
    cases parts with
    | nil => simpa using Nat.succ_le_of_lt first
    | cons next parts =>
      simp only [List.intercalate_cons_cons, List.length_append, List.length_cons] at rest ⊢
      omega

theorem parseJson_writeObject {members : List (List Char × List Char × Json)}
    (nonempty : members ≠ []) (reads : ∀ member ∈ members, Reads member.2.1 member.2.2) :
    parseJson (writeObject (members.map fun member => (member.1, member.2.1))) =
      some (.object (members.map fun member => (quote member.1, member.2.2))) := by
  have texts : (members.map fun member => (member.1, member.2.1)).map
      (fun member => writeMember member.1 member.2) =
      members.map fun member => writeMember member.1 member.2.1 := by
    rw [List.map_map]
    rfl
  have enough : members.length ≤
      ([','].intercalate (members.map fun member => writeMember member.1 member.2.1)).length := by
    rw [← List.length_map (fun member => writeMember member.1 member.2.1)]
    apply length_intercalate_le
    intro part mem
    obtain ⟨member, _, rfl⟩ := List.mem_map.mp mem
    simp [writeMember, writeString]
  obtain ⟨inner, starts⟩ : ∃ inner, [','].intercalate
      (members.map fun member => writeMember member.1 member.2.1) = '"' :: inner := by
    cases members with
    | nil => contradiction
    | cons member members => cases members <;> simp [writeMember, writeString]
  have whole := @readMembers_intercalate members nonempty reads
  rw [starts] at whole enough
  rw [writeObject, texts, starts, parseJson, List.length_cons, readValue]
  simp only [List.cons_append, List.length_cons, List.length_append] at whole enough ⊢
  simp [skipSpace, isSpace, whole (Nat.lt_succ_of_le (Nat.le_succ_of_le enough))]

/-! ## Structures -/

structure Field (α : Type) where
  name : String
  store : Json → α → Option α

def foldChar (c : Char) : Char :=
  if c == '\u212a' then 'k' else if c == '\u017f' then 's' else c.toLower

def fieldOf {α : Type} (fields : List (Field α)) (name : List Char) : Option (Field α) :=
  (fields.find? fun field => field.name.toList == name).or
    (fields.find? fun field => field.name.toList.map foldChar == name.map foldChar)

def storeMember {α : Type} (fields : List (Field α)) (value : α) (member : List Char × Json) :
    Option α :=
  match fieldOf fields (unquote member.1) with
  | some field => field.store member.2 value
  | none => some value

def unmarshal {α : Type} (fields : List (Field α)) (value : α) (text : String) : Option α :=
  match parseJson text.toList with
  | some .null => some value
  | some (.object members) => members.foldlM (storeMember fields) value
  | _ => none

def storeString {α : Type} (set : String → α → α) : Json → α → Option α
  | .null, value => some value
  | .string body, value => some (set (String.ofList (unquote body)) value)
  | _, _ => none

def storeUint {α : Type} (width : Nat) (set : Nat → α → α) : Json → α → Option α
  | .null, value => some value
  | .number literal, value =>
    if literal.all isDecimal && numeral 10 literal < 2 ^ width then
      some (set (numeral 10 literal) value)
    else none
  | _, _ => none

def storeBool {α : Type} (set : Bool → α → α) : Json → α → Option α
  | .null, value => some value
  | .bool flag, value => some (set flag value)
  | _, _ => none

def scalarText : Json → Option (List Char)
  | .null => some ['n', 'u', 'l', 'l']
  | .bool true => some ['t', 'r', 'u', 'e']
  | .bool false => some ['f', 'a', 'l', 's', 'e']
  | .number literal => some literal
  | .string body => some ('"' :: body ++ ['"'])
  | .array _ => none
  | .object _ => none

/-- Store in a type whose `UnmarshalJSON` accepts no array and no object. -/
def storeText {α β : Type} (decode : String → Except String β) (set : β → α → α) (json : Json)
    (value : α) : Option α :=
  match (scalarText json).map fun text => decode (String.ofList text) with
  | some (.ok decoded) => some (set decoded value)
  | _ => none

/-- Store in a pointer to such a type; `null` is the nil pointer. -/
def storePointer {α β : Type} (decode : String → Except String β) (set : Option β → α → α) :
    Json → α → Option α
  | .null, value => some (set none value)
  | json, value => storeText decode (fun decoded => set (some decoded)) json value

def storeObject {α : Type} (fields : List (Field α)) : Json → α → Option α
  | .null, value => some value
  | .object members, value => members.foldlM (storeMember fields) value
  | _, _ => none

theorem unmarshal_induct {α : Type} {P : α → Prop} {fields : List (Field α)} {value result : α}
    {text : String} (start : P value)
    (step : ∀ field ∈ fields, ∀ json value later, P value → field.store json value = some later →
      P later)
    (decoded : unmarshal fields value text = some result) : P result := by
  have members : ∀ (members : List (List Char × Json)) {value result : α}, P value →
      members.foldlM (storeMember fields) value = some result → P result := by
    intro members
    induction members with
    | nil =>
      intro value result start stored
      cases stored
      exact start
    | cons member members ih =>
      intro value result start stored
      simp only [List.foldlM_cons, Option.bind_eq_bind, Option.bind_eq_some_iff] at stored
      obtain ⟨middle, first, rest⟩ := stored
      refine ih ?_ rest
      rw [storeMember] at first
      split at first
      next field isField =>
        have mem : field ∈ fields := by
          rw [fieldOf, Option.or_eq_some_iff] at isField
          rcases isField with found | ⟨_, found⟩
          · exact List.mem_of_find?_eq_some found
          · exact List.mem_of_find?_eq_some found
        exact step field mem _ _ _ start first
      · cases first
        exact start
  rw [unmarshal] at decoded
  split at decoded
  · cases decoded
    exact start
  · exact members _ start decoded
  · contradiction

section Stored

variable {α β : Type} {json : Json} {value later : α}

theorem storeBool_eq_some {set : Bool → α → α} (stored : storeBool set json value = some later) :
    later = value ∨ ∃ flag, later = set flag value := by
  cases json with
  | null => exact .inl (Option.some.inj stored).symm
  | bool flag => exact .inr ⟨flag, (Option.some.inj stored).symm⟩
  | number | string | array | object => cases stored

theorem storeUint_eq_some {width : Nat} {set : Nat → α → α}
    (stored : storeUint width set json value = some later) :
    later = value ∨ ∃ n, later = set n value := by
  cases json with
  | null => exact .inl (Option.some.inj stored).symm
  | number literal =>
    rw [storeUint] at stored
    split_ifs at stored
    exact .inr ⟨_, (Option.some.inj stored).symm⟩
  | bool | string | array | object => cases stored

theorem storeText_eq_some {decode : String → Except String β} {set : β → α → α}
    (stored : storeText decode set json value = some later) :
    ∃ text decoded, decode text = .ok decoded ∧ later = set decoded value := by
  rw [storeText] at stored
  split at stored
  next decoded isDecoded =>
    obtain ⟨text, _, isDecoded⟩ := Option.map_eq_some_iff.mp isDecoded
    exact ⟨_, decoded, isDecoded, (Option.some.inj stored).symm⟩
  · cases stored

theorem storePointer_eq_some {decode : String → Except String β} {set : Option β → α → α}
    (stored : storePointer decode set json value = some later) :
    later = set none value ∨
      ∃ text decoded, decode text = .ok decoded ∧ later = set (some decoded) value := by
  rw [storePointer.eq_def] at stored
  split at stored
  · exact .inl (Option.some.inj stored).symm
  · exact .inr (storeText_eq_some stored)

end Stored

theorem unmarshal_writeObject {α : Type} (fields : List (Field α)) (value : α)
    {members : List (List Char × List Char × Json)} (nonempty : members ≠ [])
    (reads : ∀ member ∈ members, Reads member.2.1 member.2.2) :
    unmarshal fields value
        (String.ofList (writeObject (members.map fun member => (member.1, member.2.1)))) =
      (members.map fun member => (quote member.1, member.2.2)).foldlM (storeMember fields) value := by
  rw [unmarshal, String.toList_ofList, parseJson_writeObject nonempty reads]

@[simp]
theorem storeString_quote {α : Type} (set : String → α → α) (text : String) (value : α) :
    storeString set (.string (quote text.toList)) value = some (set text value) := by
  rw [storeString, unquote_quote, String.ofList_toList]

@[simp]
theorem storeUint_toDigits {α : Type} {width n : Nat} (set : Nat → α → α) (fits : n < 2 ^ width)
    (value : α) : storeUint width set (.number (Nat.toDigits 10 n)) value = some (set n value) := by
  have decimal : (Nat.toDigits 10 n).all isDecimal :=
    List.all_eq_true.mpr fun c mem => isDecimal_of_mem_toDigits mem
  rw [storeUint, numeral_toDigits (by decide) (by decide), decimal, decide_eq_true fits]
  rfl

end Flannel.Text
