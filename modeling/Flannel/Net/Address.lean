import Flannel.Text.Numeral
import Mathlib.Data.BitVec

/-!
# Address texts of the Go standard library

`net.IP`, `netip.ParseAddr`, `net.ParseIP` and `net.ParseCIDR`, as documented. A 4-byte or
IPv4-mapped address prints in dotted form; every other one as hexadecimal groups, the longest run
of at least two zero groups (the first among equals) as `::`.
-/

namespace Flannel.Net

open Text

/-! ## Positional digits -/

/-- The `count` low digits of `value` in the given base, most significant first. -/
def bigEndian (base : Nat) : Nat → Nat → List Nat
  | 0, _ => []
  | count + 1, value => bigEndian base count (value / base) ++ [value % base]

def ofBigEndian (base : Nat) (digits : List Nat) : Nat :=
  digits.foldl (fun value digit => base * value + digit) 0

attribute [local simp] bigEndian

@[simp]
theorem length_bigEndian (base count value : Nat) :
    (bigEndian base count value).length = count := by
  induction count generalizing value with
  | zero => rfl
  | succ count ih => simp [ih]

theorem lt_of_mem_bigEndian {base : Nat} (positive : 0 < base) {count value digit : Nat}
    (mem : digit ∈ bigEndian base count value) : digit < base := by
  induction count generalizing value with
  | zero => simp at mem
  | succ count ih =>
    rcases List.mem_append.mp mem with mem | mem
    · exact ih mem
    · rw [List.mem_singleton] at mem
      exact mem ▸ Nat.mod_lt value positive

theorem ofBigEndian_bigEndian (base count value : Nat) :
    ofBigEndian base (bigEndian base count value) = value % base ^ count := by
  induction count generalizing value with
  | zero => simp [ofBigEndian, Nat.mod_one]
  | succ count ih =>
    have step : ofBigEndian base (bigEndian base (count + 1) value) =
        base * ofBigEndian base (bigEndian base count (value / base)) + value % base := by
      simp [ofBigEndian]
    rw [step, ih, Nat.pow_succ, Nat.mul_comm (base ^ count) base, Nat.mod_mul]
    exact Nat.add_comm _ _

/-! ## Addresses -/

/-- An address as a byte slice of length 4 or 16. -/
inductive IP
  | v4 (bits : BitVec 32)
  | v16 (bits : BitVec 128)
  deriving DecidableEq

namespace IP

def mapped (bits : BitVec 32) : BitVec 128 :=
  0xffff#96 ++ bits

def to4 : IP → Option (BitVec 32)
  | v4 bits => some bits
  | v16 bits =>
    if bits.extractLsb' 32 96 = 0xffff#96 then some (bits.extractLsb' 0 32) else none

def to16 : IP → BitVec 128
  | v4 bits => mapped bits
  | v16 bits => bits

end IP

/-! ## Printing -/

def dotted (bits : BitVec 32) : List Char :=
  ['.'].intercalate ((bigEndian 256 4 bits.toNat).map (Nat.toDigits 10))

def groups (bits : BitVec 128) : List Nat :=
  bigEndian 65536 8 bits.toNat

/-- The number of zero groups in a row from position `start` on. -/
def zerosFrom (parts : List Nat) (start : Nat) : Nat :=
  ((parts.drop start).takeWhile (· == 0)).length

def zeroRun (parts : List Nat) : Option (Nat × Nat) :=
  (List.range parts.length).foldl (fun best start =>
    let zeros := zerosFrom parts start
    let current := match best with
      | none => 0
      | some (first, last) => last - first
    if 2 ≤ zeros ∧ current < zeros then some (start, start + zeros) else best) none

def joinGroups (parts : List Nat) : List Char :=
  [':'].intercalate (parts.map (Nat.toDigits 16))

def groupsText (parts : List Nat) : List Char :=
  match zeroRun parts with
  | none => joinGroups parts
  | some (first, last) => joinGroups (parts.take first) ++ ':' :: ':' :: joinGroups (parts.drop last)

def IP.string (ip : IP) : String :=
  match ip.to4 with
  | some bits => String.ofList (dotted bits)
  | none => String.ofList (groupsText (groups ip.to16))

/-! ## Parsing -/

def parseOctet (field : List Char) : Option Nat :=
  match field with
  | [] => none
  | first :: rest =>
    if !field.all isDecimal then none
    else if first == '0' && !rest.isEmpty then none
    else if 255 < numeral 10 field then none
    else some (numeral 10 field)

def parseIPv4 (text : List Char) : Option (BitVec 32) := do
  let fields ← (text.splitOn '.').mapM parseOctet
  if fields.length = 4 then some (BitVec.ofNat 32 (ofBigEndian 256 fields)) else none

def parseGroup (text : List Char) : Option (Nat × List Char) :=
  let digits := text.takeWhile isHex
  if digits.length = 0 ∨ 4 < digits.length then none
  else some (numeral 16 digits, text.dropWhile isHex)

/-- The group loop of `netip.parseIPv6`: `fuel` groups are still missing, `ellipsis` is the
position of a `::` already seen; the text left is returned. -/
def parseGroups : Nat → List Nat → Option Nat → List Char →
    Option (List Nat × Option Nat × List Char)
  | 0, parts, ellipsis, text => some (parts, ellipsis, text)
  | fuel + 1, parts, ellipsis, text =>
    match parseGroup text with
    | none => none
    | some (value, after) =>
      match after with
      | [] => some (parts ++ [value], ellipsis, [])
      | '.' :: _ =>
        -- An embedded IPv4 address stands for the last two groups.
        if ellipsis.isNone ∧ parts.length ≠ 6 ∨ 8 < parts.length + 2 then none
        else
          match parseIPv4 text with
          | none => none
          | some bits =>
            some (parts ++ [bits.toNat / 65536, bits.toNat % 65536], ellipsis, [])
      | ':' :: [] => none
      | ':' :: ':' :: rest =>
        if ellipsis.isSome then none
        else if rest = [] then
          some (parts ++ [value], some (parts.length + 1), [])
        else parseGroups fuel (parts ++ [value]) (some (parts.length + 1)) rest
      | ':' :: rest => parseGroups fuel (parts ++ [value]) ellipsis rest
      | _ :: _ => none

/-- What `netip.parseIPv6` does after its loop: the whole text must be used, and
a `::` stands for at least one missing group. -/
def finishGroups : Option (List Nat × Option Nat × List Char) → Option (BitVec 128)
  | some (parts, ellipsis, []) =>
    if parts.length < 8 then
      ellipsis.map fun position =>
        BitVec.ofNat 128 (ofBigEndian 65536
          (parts.take position ++ List.replicate (8 - parts.length) 0 ++ parts.drop position))
    else if ellipsis.isSome then none
    else some (BitVec.ofNat 128 (ofBigEndian 65536 parts))
  | _ => none

def parseIPv6 : List Char → Option (BitVec 128)
  | [':', ':'] => some 0
  | ':' :: ':' :: text => finishGroups (parseGroups 8 [] (some 0) text)
  | text => finishGroups (parseGroups 8 [] none text)

def parseAddr (text : List Char) : Option IP :=
  match text.find? (fun c => c == '.' || c == ':' || c == '%') with
  | some '.' => (parseIPv4 text).map IP.v4
  | some ':' => (parseIPv6 text).map IP.v16
  | _ => none

def parseIP (text : String) : Option IP :=
  (parseAddr text.toList).map fun ip => IP.v16 ip.to16

/-! ## Networks -/

structure IPNet where
  ip : IP
  ones : Nat
  deriving DecidableEq

def cidrMask (width ones : Nat) : BitVec width :=
  BitVec.allOnes width <<< (width - ones)

def IPNet.masked (n : IPNet) : IPNet :=
  match n.ip with
  | .v4 bits => ⟨.v4 (bits &&& cidrMask 32 n.ones), n.ones⟩
  | .v16 bits => ⟨.v16 (bits &&& cidrMask 128 n.ones), n.ones⟩

def parseCIDR (text : String) : Option IPNet :=
  match text.toList.span (· != '/') with
  | (address, '/' :: length) =>
    if length.isEmpty || !length.all isDecimal then none
    else
      match parseAddr address with
      | none => none
      | some (.v4 bits) =>
        if numeral 10 length ≤ 32 then
          some ⟨.v4 (bits &&& cidrMask 32 (numeral 10 length)), numeral 10 length⟩
        else none
      | some (.v16 bits) =>
        if numeral 10 length ≤ 128 then
          some ⟨.v16 (bits &&& cidrMask 128 (numeral 10 length)), numeral 10 length⟩
        else none
  | _ => none

example : (parseIP "10.1.5.0").bind IP.to4 = some 0x0a010500#32 := by decide
example : (IP.v16 0xfc000000000000000000000000010000#128).string = "fc00::1:0" := by decide
example : parseAddr "fc00::1:0".toList = some (.v16 0xfc000000000000000000000000010000#128) := by
  decide

end Flannel.Net
