import Flannel.Net.Scope
import Flannel.Order.Sorting

/-!
# Addresses of network interfaces

The addresses that the kernel lists for an interface and the order in which they are preferred.
-/

namespace Flannel.Ip

open Net Flannel.Order

/-! ## Addresses -/

structure Addr where
  ipNet : IPNet
  flags : BitVec 32
  label : String
  deriving DecidableEq

def Addr.ip (addr : Addr) : Net.IP :=
  addr.ipNet.ip

def ifaFTemporary : BitVec 32 :=
  0x01

def ifaFDeprecated : BitVec 32 :=
  0x20

def ifaFPermanent : BitVec 32 :=
  0x80

def compareAddrs (a b : Addr) : Int :=
  if a.ip.isGlobalUnicast && b.ip.isLinkLocalUnicast then -1
  else if a.ip.isLinkLocalUnicast && b.ip.isGlobalUnicast then 1
  else if a.flags &&& ifaFPermanent == ifaFPermanent && b.flags &&& ifaFPermanent == 0 then -1
  else if a.flags &&& ifaFPermanent == 0 && b.flags &&& ifaFPermanent == ifaFPermanent then 1
  else if a.flags &&& ifaFTemporary == 0 && b.flags &&& ifaFTemporary == ifaFTemporary then -1
  else if a.flags &&& ifaFTemporary == ifaFTemporary && b.flags &&& ifaFTemporary == 0 then 1
  else 0

inductive AddrFamily
  | inet
  | inet6
  deriving DecidableEq

/-- `IP.To4() != nil` and `IP.To16() != nil`. -/
def AddrFamily.admits (f : AddrFamily) (ip : Net.IP) : Bool :=
  match f with
  | .inet => ip.to4.isSome
  | .inet6 => true

def AddrFamily.usable (f : AddrFamily) (addr : Addr) : Bool :=
  f.admits addr.ip && (addr.ip.isGlobalUnicast || addr.ip.isLinkLocalUnicast) &&
    addr.flags &&& ifaFDeprecated == 0

def AddrFamily.missing (f : AddrFamily) : String :=
  match f with
  | .inet => "no IPv4 address found for given interface"
  | .inet6 => "no IPv6 address found for given interface"

abbrev AddrSorting := Sorting compareAddrs 12

def keptAddrs (sorting : AddrSorting) (f : AddrFamily) (addrs : List Addr) : List Addr :=
  (sorting.sort addrs).filter f.usable

def interfaceAddrs (sorting : AddrSorting) (f : AddrFamily) (listed : Except String (List Addr)) :
    Except String (List Net.IP) :=
  match listed with
  | .error err => .error err
  | .ok addrs =>
    let ipAddrs := (keptAddrs sorting f addrs).map Addr.ip
    if ipAddrs.length > 0 then .ok ipAddrs else .error f.missing

theorem interfaceAddrs_eq_ok_iff {sorting : AddrSorting} {f : AddrFamily}
    {listed : Except String (List Addr)} {ips : List Net.IP} :
    interfaceAddrs sorting f listed = .ok ips ↔
      ∃ addrs, listed = .ok addrs ∧ ips = (keptAddrs sorting f addrs).map Addr.ip ∧ ips ≠ [] := by
  cases listed with
  | error err => simp [interfaceAddrs]
  | ok addrs =>
    simp only [interfaceAddrs, Except.ok.injEq, exists_eq_left']
    split
    next some =>
      have nonempty := List.ne_nil_of_length_pos some
      constructor
      · rintro ⟨rfl⟩
        exact ⟨rfl, nonempty⟩
      · exact fun result => congrArg Except.ok result.1.symm
    next none =>
      have empty := List.eq_nil_of_length_eq_zero (Nat.eq_zero_of_not_pos none)
      constructor
      · exact nofun
      · exact fun result => absurd (result.1.trans empty) result.2

theorem mem_of_mem_keptAddrs {sorting : AddrSorting} {f : AddrFamily} {addrs : List Addr} {addr : Addr}
    (kept : addr ∈ keptAddrs sorting f addrs) : addr ∈ addrs ∧ f.usable addr := by
  obtain ⟨mem, usable⟩ := List.mem_filter.mp kept
  exact ⟨(sorting.perm addrs).mem_iff.mp mem, usable⟩

end Flannel.Ip
