import Flannel.Net.Address

/-!
# Scopes of addresses

The predicates of `net.IP`; an IPv4-mapped address is judged as the IPv4 address in it.
-/

namespace Flannel.Net.IP

def equal (ip other : IP) : Bool :=
  ip.to16 == other.to16

def isUnspecified (ip : IP) : Bool :=
  ip.equal (.v4 0) || ip.equal (.v16 0)

def isLoopback (ip : IP) : Bool :=
  match ip.to4 with
  | some ip4 => ip4.extractLsb' 24 8 == 127
  | none => ip.equal (.v16 1)

def isMulticast (ip : IP) : Bool :=
  match ip.to4 with
  | some ip4 => ip4.extractLsb' 24 8 &&& 0xf0 == 0xe0
  | none => ip.to16.extractLsb' 120 8 == 0xff

def isLinkLocalUnicast (ip : IP) : Bool :=
  match ip.to4 with
  | some ip4 => ip4.extractLsb' 24 8 == 169 && ip4.extractLsb' 16 8 == 254
  | none => ip.to16.extractLsb' 120 8 == 0xfe && ip.to16.extractLsb' 112 8 &&& 0xc0 == 0x80

def isGlobalUnicast (ip : IP) : Bool :=
  !ip.equal (.v4 0xffffffff) && !ip.isUnspecified && !ip.isLoopback && !ip.isMulticast &&
    !ip.isLinkLocalUnicast

theorem equal_iff {ip other : IP} : ip.equal other ↔ ip.to16 = other.to16 :=
  beq_iff_eq

theorem isGlobalUnicast_eq_false {ip : IP} (linkLocal : ip.isLinkLocalUnicast) :
    ip.isGlobalUnicast = false := by
  simp [isGlobalUnicast, linkLocal]

end Flannel.Net.IP
