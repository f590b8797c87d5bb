import Flannel.Leases.Core
import Flannel.Net.Mac
import Mathlib.Data.Fintype.Basic

/-!
# What backends tell the kernel

The netlink records that the backends fill in, and the fields of a lease they take, one family at
a time. A pointer to an IPv6 address is dereferenced, so the conversions are partial.
-/

namespace Flannel.Backend

open Leases Net

inductive Family
  | ipv4
  | ipv6
  deriving DecidableEq

instance : Fintype Family :=
  ⟨{.ipv4, .ipv6}, fun f => by cases f <;> simp⟩

inductive Scope
  | universe
  | link
  deriving DecidableEq

structure Route where
  linkIndex : Nat := 0
  scope : Scope := .universe
  dst : Option IPNet := none
  gw : Option Net.IP := none
  onlink : Bool := false
  deriving DecidableEq

structure Neigh where
  linkIndex : Nat
  bridge : Bool
  ip : Net.IP
  hardwareAddr : HardwareAddr
  deriving DecidableEq

def Family.enabled (f : Family) (lease : Lease) : Bool :=
  match f with
  | .ipv4 => lease.enableIPv4
  | .ipv6 => lease.enableIPv6

def Family.isSet (f : Family) (lease : Lease) : Bool :=
  match f with
  | .ipv4 => true
  | .ipv6 => lease.ipv6Subnet.ip != none

def Family.address (f : Family) (lease : Lease) : Option Net.IP :=
  match f with
  | .ipv4 => some lease.subnet.ip.toIP
  | .ipv6 => lease.ipv6Subnet.ip.bind Ip.IP6.toIP

def Family.network (f : Family) (lease : Lease) : Option IPNet :=
  match f with
  | .ipv4 => some lease.subnet.toIPNet
  | .ipv6 => lease.ipv6Subnet.toIPNet

def Family.publicIP (f : Family) (attrs : LeaseAttrs) : Option Net.IP :=
  match f with
  | .ipv4 => some attrs.publicIP.toIP
  | .ipv6 => attrs.publicIPv6.bind Ip.IP6.toIP

def Family.backendData (f : Family) (attrs : LeaseAttrs) : String :=
  match f with
  | .ipv4 => attrs.backendData.getD ""
  | .ipv6 => attrs.backendV6Data.getD ""

structure Sized (lease : Lease) : Prop where
  publicIPv6 : ∀ ip6 ∈ lease.attrs.publicIPv6, ip6 < 2 ^ 128
  ipv6Subnet : ∀ ip6 ∈ lease.ipv6Subnet.ip, ip6 < 2 ^ 128

theorem Sized.exists_address {lease : Lease} (sized : Sized lease) {f : Family}
    (isSet : f.isSet lease) : ∃ address, f.address lease = some address := by
  cases f with
  | ipv4 => exact ⟨_, rfl⟩
  | ipv6 =>
    obtain ⟨ip6, isIp⟩ := Option.ne_none_iff_exists'.mp (bne_iff_ne.mp isSet)
    have small : ip6 < 2 ^ 128 := sized.ipv6Subnet ip6 isIp
    refine ⟨Ip.IP6.ofBits (BitVec.ofNat 128 ip6), ?_⟩
    rw [Family.address, isIp, Option.bind_some, Ip.IP6.toIP, if_pos small]

theorem Sized.exists_network {lease : Lease} (sized : Sized lease) {f : Family}
    (isSet : f.isSet lease) : ∃ network, f.network lease = some network := by
  obtain ⟨address, isAddress⟩ := sized.exists_address isSet
  cases f with
  | ipv4 => exact ⟨_, rfl⟩
  | ipv6 =>
    rw [Family.address] at isAddress
    refine ⟨⟨address, lease.ipv6Subnet.prefixLen⟩, ?_⟩
    rw [Family.network, Ip.IP6Net.toIPNet, isAddress, Option.map_some]

structure Complete (lease : Lease) : Prop extends Sized lease where
  set : lease.enableIPv6 = true → lease.ipv6Subnet.ip.isSome = true

theorem Complete.isSet {lease : Lease} (complete : Complete lease) {f : Family}
    (enabled : f.enabled lease) : f.isSet lease := by
  cases f with
  | ipv4 => rfl
  | ipv6 =>
    rw [Family.isSet, bne_iff_ne]
    exact Option.isSome_iff_ne_none.mp (complete.set enabled)

end Flannel.Backend
