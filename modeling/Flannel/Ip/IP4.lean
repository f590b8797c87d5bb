import Flannel.Net.Mask
import Flannel.Net.RoundTrip

/-!
# IPv4 addresses and networks

`ip.IP4` is a 32-bit word and `ip.IP4Net` an address with a prefix length. A length above 32 makes
the shift distance wrap, so that the mask and the block size become zero.
-/

namespace Flannel.Ip

open Net

abbrev IP4 := BitVec 32

def fromIP (ip : Net.IP) : Option IP4 :=
  ip.to4

def IP4.toIP (ip : IP4) : Net.IP :=
  .v4 ip

def parseIP4 (s : String) : Except String IP4 :=
  match parseIP s with
  | none => .error "invalid IP address format"
  | some ip =>
    match fromIP ip with
    | none => .error "invalid IPv4 address format"
    | some address => .ok address

def IP4.string (ip : IP4) : String :=
  (Net.IP.v4 ip).string

def IP4.isPrivate (ip : IP4) : Bool :=
  let a := ip.extractLsb' 24 8
  let b := ip.extractLsb' 16 8
  a == 10 || (a == 172 && b &&& 0xf0 == 16) || (a == 192 && b == 168)

@[ext]
structure IP4Net where
  ip : IP4
  prefixLen : Nat
  deriving DecidableEq

namespace IP4Net

def string (n : IP4Net) : String :=
  IP4.string n.ip ++ "/" ++ toString n.prefixLen

/-- `IP4Net.StringSep(".", "-")`, the only separators the sources use. -/
def stringSep (n : IP4Net) : String :=
  IP4.string n.ip ++ "-" ++ toString n.prefixLen

def mask (n : IP4Net) : IP4 :=
  if n.prefixLen ≤ 32 then cidrMask 32 n.prefixLen else 0

def network (n : IP4Net) : IP4Net :=
  ⟨n.ip &&& n.mask, n.prefixLen⟩

def next (n : IP4Net) : IP4Net :=
  ⟨n.ip + (if n.prefixLen ≤ 32 then 1#32 <<< (32 - n.prefixLen) else 0), n.prefixLen⟩

def fromIPNet (n : IPNet) : Option IP4Net :=
  (fromIP n.ip).map fun address => ⟨address, n.ones⟩

def toIPNet (n : IP4Net) : IPNet :=
  ⟨n.ip.toIP, n.prefixLen⟩

def overlaps (n other : IP4Net) : Bool :=
  let mask := if n.prefixLen < other.prefixLen then n.mask else other.mask
  n.ip &&& mask == other.ip &&& mask

def equal (n other : IP4Net) : Bool :=
  n.ip == other.ip && n.prefixLen == other.prefixLen

def contains (n : IP4Net) (ip : IP4) : Bool :=
  n.ip &&& n.mask == ip &&& n.mask

def empty (n : IP4Net) : Bool :=
  n.ip == 0 && n.prefixLen == 0

@[simp]
theorem equal_iff (n other : IP4Net) : n.equal other ↔ n = other := by
  rw [equal, Bool.and_eq_true, beq_iff_eq, beq_iff_eq, IP4Net.ext_iff]

/-! ## Networks as sets of addresses -/

def addresses (n : IP4Net) : Set IP4 :=
  {ip | n.contains ip = true}

variable {n : IP4Net}

theorem addresses_eq_block (valid : n.prefixLen ≤ 32) :
    n.addresses = block n.prefixLen n.ip := by
  ext ip
  simp [addresses, contains, mask, valid, block]

theorem overlaps_iff {other : IP4Net} (valid : n.prefixLen ≤ 32)
    (validOther : other.prefixLen ≤ 32) :
    n.overlaps other ↔ (n.addresses ∩ other.addresses).Nonempty := by
  rw [addresses_eq_block valid, addresses_eq_block validOther]
  by_cases shorter : n.prefixLen < other.prefixLen
  · rw [block_inter_nonempty_iff (Nat.le_of_lt shorter)]
    rw [overlaps, if_pos shorter, mask, if_pos valid, beq_iff_eq]
  · rw [Set.inter_comm, block_inter_nonempty_iff (Nat.le_of_not_lt shorter)]
    rw [overlaps, if_neg shorter, mask, if_pos validOther, beq_iff_eq]
    exact eq_comm

def InNetworkForm (n : IP4Net) : Prop :=
  n.network = n

instance (n : IP4Net) : Decidable n.InNetworkForm :=
  inferInstanceAs (Decidable (_ = _))

theorem inNetworkForm_iff (valid : n.prefixLen ≤ 32) :
    n.InNetworkForm ↔ Aligned n.prefixLen n.ip := by
  simp [InNetworkForm, network, mask, valid, Aligned, IP4Net.ext_iff]

theorem next_inNetworkForm (valid : n.prefixLen ≤ 32) (form : n.InNetworkForm) :
    n.next.InNetworkForm := by
  have validNext : n.next.prefixLen ≤ 32 := valid
  rw [inNetworkForm_iff valid] at form
  rw [inNetworkForm_iff validNext]
  have shape : n.next.ip = n.ip + 1#32 <<< (32 - n.prefixLen) := by simp [next, valid]
  rw [shape]
  exact form.add (aligned_one_shiftLeft n.prefixLen)

end IP4Net

/-! ## Texts -/

theorem IP4.string_eq (ip : IP4) : IP4.string ip = String.ofList (dotted ip) :=
  rfl

theorem to4_mapped (ip : IP4) : (Net.IP.v16 (Net.IP.mapped ip)).to4 = some ip := by
  rw [IP.to4, IP.mapped, BitVec.extractLsb'_append_eq_left, if_pos rfl,
    BitVec.extractLsb'_append_eq_right]

theorem parseIP4_string (ip : IP4) : parseIP4 (IP4.string ip) = .ok ip := by
  have parsed : parseIP (IP4.string ip) = some (Net.IP.v16 (Net.IP.mapped ip)) := by
    rw [IP4.string_eq, parseIP, String.toList_ofList, parseAddr_dotted]
    rfl
  rw [parseIP4, parsed]
  simp only [fromIP, to4_mapped]

theorem IP4Net.parseCIDR_string {n : IP4Net} (valid : n.prefixLen ≤ 32) :
    parseCIDR n.string = some ⟨.v4 (n.ip &&& cidrMask 32 n.prefixLen), n.prefixLen⟩ := by
  have text : n.string = String.ofList (dotted n.ip ++ '/' :: Nat.toDigits 10 n.prefixLen) := by
    apply String.toList_injective
    simp [IP4Net.string, IP4.string_eq]
  rw [text]
  exact parseCIDR_v4 (slash_notMem_dotted _) (parseAddr_dotted _) valid

end Flannel.Ip
