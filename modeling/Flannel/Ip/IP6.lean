import Flannel.Net.Mask
import Flannel.Net.RoundTrip
import Mathlib.Data.Set.BooleanAlgebra
import Mathlib.Order.CompletePartialOrder

/-!
# IPv6 addresses and networks

`ip.IP6` is an arbitrary-precision integer behind a pointer, so operations return `none` where the
source panics: on nil, or on more than sixteen bytes. An address of exactly four bytes is printed
as one of IPv4.
-/

namespace Flannel.Ip

open Net

abbrev IP6 := Nat

def IP6.ofBits (bits : BitVec 128) : Net.IP :=
  if 2 ^ 24 ≤ bits.toNat ∧ bits.toNat < 2 ^ 32 then .v4 (bits.setWidth 32) else .v16 bits

def IP6.toIP (ip6 : IP6) : Option Net.IP :=
  if ip6 < 2 ^ 128 then some (IP6.ofBits (BitVec.ofNat 128 ip6)) else none

def IP6.string (ip6 : IP6) : Option String :=
  (IP6.toIP ip6).map Net.IP.string

def fromIP6 (ip : Net.IP) : IP6 :=
  ip.to16.toNat

/-- `IP6.IsPrivate` looks at the first byte that is not zero; the address without
one has no first byte. -/
def IP6.isPrivate (ip6 : IP6) : Option Bool :=
  ((bigEndian 256 16 ip6).find? (· != 0)).map fun first => first &&& 0xfe == 0xfc

def parseIP6 (s : String) : Except String IP6 :=
  match parseIP s with
  | none => .error "invalid IP address format"
  | some ip => .ok (fromIP6 ip)

def isEmpty (subnet : Option IP6) : Bool :=
  subnet == none || subnet == some 0

/-- `IP6.Cmp` on two non-nil addresses; comparing a pointer with itself, nil
included, gives equality. -/
def IP6.cmp : Option IP6 → Option IP6 → Option Ordering
  | none, none => some .eq
  | some ip6, some other => some (compare ip6 other)
  | _, _ => none

@[ext]
structure IP6Net where
  ip : Option IP6
  prefixLen : Nat
  deriving DecidableEq

namespace IP6Net

def zero : IP6Net :=
  ⟨none, 0⟩

def string (n : IP6Net) : Option String :=
  (IP6.string (n.ip.getD 0)).map fun address => address ++ "/" ++ toString n.prefixLen

def stringSep (n : IP6Net) : Option String :=
  n.ip.bind fun ip6 => (IP6.string ip6).map fun address =>
    address ++ "-" ++ toString n.prefixLen

def mask (n : IP6Net) : BitVec 128 :=
  if n.prefixLen ≤ 128 then cidrMask 128 n.prefixLen else 0

def next (n : IP6Net) : Option IP6Net :=
  if n.prefixLen ≤ 128 then
    n.ip.map fun ip6 => ⟨some (ip6 + 2 ^ (128 - n.prefixLen)), n.prefixLen⟩
  else none

def fromIP6Net (n : IPNet) : IP6Net :=
  ⟨some (fromIP6 n.ip), n.ones⟩

def toIPNet (n : IP6Net) : Option IPNet :=
  (n.ip.bind IP6.toIP).map fun address => ⟨address, n.prefixLen⟩

/-- The text that `Overlaps` and `Contains` compare: the masked address. -/
def maskedText (ip6 : IP6) (mask : BitVec 128) : String :=
  (IP6.ofBits (BitVec.ofNat 128 ip6 &&& mask)).string

def overlaps (n other : IP6Net) : Option Bool :=
  let mask := if n.prefixLen < other.prefixLen then n.mask else other.mask
  n.ip.bind fun ip6 => other.ip.map fun ip6' =>
    maskedText ip6 mask == maskedText ip6' mask

def equal (n other : IP6Net) : Option Bool :=
  (IP6.cmp n.ip other.ip).map fun order => order == .eq && n.prefixLen == other.prefixLen

def contains (n : IP6Net) (ip6 : Option IP6) : Option Bool :=
  n.ip.bind fun network => ip6.map fun subnet =>
    maskedText network n.mask == maskedText subnet n.mask

def empty (n : IP6Net) : Bool :=
  isEmpty n.ip && n.prefixLen == 0

theorem equal_eq_some {n other : IP6Net} (comparable : n.ip.isSome = other.ip.isSome) :
    n.equal other = some (decide (n = other)) := by
  rcases n with ⟨_ | ip6, length⟩ <;> rcases other with ⟨_ | ip6', length'⟩
  · by_cases same : length = length' <;> simp [equal, IP6.cmp, same]
  · contradiction
  · contradiction
  · simp [equal, IP6.cmp, Bool.beq_eq_decide_eq]

def addresses (n : IP6Net) : Set (BitVec 128) :=
  match n.ip with
  | none => ∅
  | some ip6 => block n.prefixLen (BitVec.ofNat 128 ip6)

theorem disjoint_of_overlaps_eq_false {n other : IP6Net} (valid : n.prefixLen ≤ 128)
    (apart : n.overlaps other = some false) : Disjoint n.addresses other.addresses := by
  rw [Set.disjoint_iff_inter_eq_empty, ← Set.not_nonempty_iff_eq_empty]
  rcases n with ⟨_ | ip6, length⟩
  · contradiction
  · rcases other with ⟨_ | ip6', length'⟩
    · contradiction
    · have texts := Option.some.inj apart
      intro meets
      by_cases shorter : length < length'
      · have agree := (block_inter_nonempty_iff (Nat.le_of_lt shorter) _ _).mp meets
        simp [mask, maskedText, shorter, agree, show length ≤ 128 from valid] at texts
      · have le : length' ≤ length := Nat.le_of_not_lt shorter
        rw [Set.inter_comm] at meets
        have agree := (block_inter_nonempty_iff le _ _).mp meets
        simp [mask, maskedText, shorter, agree, le.trans valid] at texts

end IP6Net

/-! ## Texts -/

def GroupForm (ip6 : IP6) : Prop :=
  ip6 < 2 ^ 128 ∧ (IP6.ofBits (BitVec.ofNat 128 ip6)).to4 = none

theorem ofBits_eq_v16 {bits : BitVec 128} (groupForm : (IP6.ofBits bits).to4 = none) :
    IP6.ofBits bits = .v16 bits := by
  rw [IP6.ofBits] at groupForm ⊢
  split_ifs at groupForm ⊢ with short
  · contradiction
  · rfl

theorem groupForm_of_le {ip6 : Nat} (large : 2 ^ 48 ≤ ip6) (small : ip6 < 2 ^ 128) :
    GroupForm ip6 := by
  have value : (BitVec.ofNat 128 ip6).toNat = ip6 := Nat.mod_eq_of_lt small
  refine ⟨small, ?_⟩
  rw [IP6.ofBits, value, if_neg (by omega), IP.to4, if_neg]
  intro mapped
  have high : ip6 / 2 ^ 32 % 2 ^ 96 = 0xffff := by
    have := congrArg BitVec.toNat mapped
    rwa [BitVec.extractLsb'_toNat, value, Nat.shiftRight_eq_div_pow] at this
  omega

theorem string_of_groupForm {ip6 : IP6} (groupForm : GroupForm ip6) :
    IP6.string ip6 = some (String.ofList (groupsText (groups (BitVec.ofNat 128 ip6)))) := by
  rcases groupForm with ⟨small, form⟩
  have shape := ofBits_eq_v16 form
  rw [IP6.string, IP6.toIP, if_pos small, Option.map_some, Net.IP.string, form, shape]
  rfl

theorem IP6Net.parseCIDR_string {ip6 : IP6} {length : Nat} (groupForm : GroupForm ip6)
    (valid : length ≤ 128) :
    ∃ text, IP6Net.string ⟨some ip6, length⟩ = some text ∧
      parseCIDR text = some ⟨.v16 (BitVec.ofNat 128 ip6 &&& cidrMask 128 length), length⟩ := by
  refine ⟨String.ofList (groupsText (groups (BitVec.ofNat 128 ip6)) ++ '/' :: Nat.toDigits 10 length),
    ?_, ?_⟩
  · simp only [IP6Net.string, Option.getD_some, string_of_groupForm groupForm, Option.map_some,
      Option.some.injEq]
    apply String.toList_injective
    simp
  · exact parseCIDR_v16 (slash_notMem_groupsText _) (parseAddr_groupsText _) valid

end Flannel.Ip
