import Flannel.Ip.IP4
import Flannel.Ip.IP6
import Flannel.Table.Keyed

/-!
# Leases and the lease watcher

Comparing the IPv6 halves of two leases dereferences both pointers, so every operation that
compares leases returns `none` where the source would panic on a nil address.
-/

namespace Flannel.Leases

open Ip

abbrev Time := Int

def Time.isZero (time : Time) : Bool :=
  time == 0

structure LeaseAttrs where
  publicIP : IP4
  publicIPv6 : Option IP6
  backendType : String
  backendData : Option String
  backendV6Data : Option String
  deriving DecidableEq

def LeaseAttrs.zero : LeaseAttrs :=
  ⟨0, none, "", none, none⟩

structure Lease where
  enableIPv4 : Bool
  enableIPv6 : Bool
  subnet : IP4Net
  ipv6Subnet : IP6Net
  attrs : LeaseAttrs
  expiration : Time
  asof : Int
  deriving DecidableEq

inductive EventType
  | added
  | removed
  deriving DecidableEq

structure Event where
  type : EventType
  lease : Lease
  deriving DecidableEq

structure LeaseWatchResult where
  events : List Event
  snapshot : List Lease
  cursor : Option Int
  deriving DecidableEq

def sameSubnet (ipv4Enabled ipv6Enabled : Bool) (first second : Lease) : Option Bool :=
  match ipv4Enabled, ipv6Enabled with
  | true, false => some (first.subnet.equal second.subnet)
  | false, true => first.ipv6Subnet.equal second.ipv6Subnet
  | true, true =>
    if first.subnet.equal second.subnet then first.ipv6Subnet.equal second.ipv6Subnet
    else some false
  | false, false => some (first.subnet.equal second.subnet)

/-- The search all loops over the stored leases make: the position of the first
stored lease with the subnet of `lease`. -/
def indexOfSame (lease : Lease) : List Lease → Option (Option Nat)
  | [] => some none
  | l :: leases => do
    if ← sameSubnet l.enableIPv4 l.enableIPv6 l lease then some (some 0)
    else (indexOfSame lease leases).map (Option.map (· + 1))

structure LeaseWatcher where
  ownLease : Lease
  leases : List Lease
  deriving DecidableEq

namespace LeaseWatcher

/-- The outer loop of `Reset`: the events for new leases, and the stored leases
that no lease of the snapshot took away. -/
def resetLoop (ownLease : Lease) : List Lease → List Lease → Option (List Event × List Lease)
  | [], stored => some ([], stored)
  | nl :: leases, stored => do
    if ← sameSubnet nl.enableIPv4 nl.enableIPv6 ownLease nl then
      resetLoop ownLease leases stored
    else
      match ← indexOfSame nl stored with
      | some i => resetLoop ownLease leases (stored.eraseIdx i)
      | none =>
        let (batch, left) ← resetLoop ownLease leases stored
        some (⟨.added, nl⟩ :: batch, left)

def reset (lw : LeaseWatcher) (leases : List Lease) : Option (List Event × LeaseWatcher) := do
  let (batch, left) ← resetLoop lw.ownLease leases lw.leases
  some (batch ++ left.map (⟨.removed, ·⟩), { lw with leases := leases })

def add (lw : LeaseWatcher) (lease : Lease) : Option (Event × LeaseWatcher) := do
  match ← indexOfSame lease lw.leases with
  | some i => some (⟨.added, lease⟩, { lw with leases := lw.leases.set i lease })
  | none => some (⟨.added, lease⟩, { lw with leases := lw.leases ++ [lease] })

def remove (lw : LeaseWatcher) (lease : Lease) : Option (Event × LeaseWatcher) := do
  match ← indexOfSame lease lw.leases with
  | some i =>
    some (⟨.removed, (lw.leases[i]?).getD lease⟩, { lw with leases := lw.leases.eraseIdx i })
  | none => some (⟨.removed, lease⟩, lw)

def update (lw : LeaseWatcher) : List Event → Option (List Event × LeaseWatcher)
  | [] => some ([], lw)
  | e :: events => do
    if ← sameSubnet e.lease.enableIPv4 e.lease.enableIPv6 lw.ownLease e.lease then
      lw.update events
    else
      let (event, lw) ←
        match e.type with
        | .added => lw.add e.lease
        | .removed => lw.remove e.lease
      let (batch, lw) ← lw.update events
      some (event :: batch, lw)

end LeaseWatcher

/-! ## Subnets as keys -/

theorem indexOfSame_eq_findIdx? {κ : Type} [DecidableEq κ] {key : Lease → κ} {lease : Lease}
    {stored : List Lease}
    (compares : ∀ l ∈ stored,
      sameSubnet l.enableIPv4 l.enableIPv6 l lease = some (decide (key l = key lease))) :
    indexOfSame lease stored = some (stored.findIdx? fun l => decide (key l = key lease)) := by
  induction stored with
  | nil => rfl
  | cons l stored ih =>
    have first := compares l (.head _)
    have rest := ih fun other mem => compares other (.tail l mem)
    by_cases same : key l = key lease
    · simp [indexOfSame, first, same, List.findIdx?_cons]
    · simp [indexOfSame, first, same, rest, List.findIdx?_cons]

def Lease.key (lease : Lease) : IP4Net × Option IP6Net :=
  (lease.subnet, if lease.enableIPv6 then some lease.ipv6Subnet else none)

/-- Leases that can be compared with one another: IPv4 is enabled, whether IPv6
is depends on the IPv4 subnet only, and an enabled IPv6 subnet is not nil. -/
structure Comparable (dual : IP4Net → Bool) (lease : Lease) : Prop where
  ipv4 : lease.enableIPv4 = true
  family : lease.enableIPv6 = dual lease.subnet
  set : lease.enableIPv6 = true → lease.ipv6Subnet.ip.isSome = true

section Comparable

variable {dual : IP4Net → Bool}

theorem sameSubnet_eq {first second flags : Lease} (comparable : Comparable dual first)
    (comparable' : Comparable dual second) (flagged : flags = first ∨ flags = second) :
    sameSubnet flags.enableIPv4 flags.enableIPv6 first second =
      some (decide (first.key = second.key)) := by
  have ipv4 : flags.enableIPv4 := by
    rcases flagged with rfl | rfl
    · exact comparable.ipv4
    · exact comparable'.ipv4
  by_cases same : first.subnet = second.subnet
  · have families : first.enableIPv6 = second.enableIPv6 := by
      rw [comparable.family, comparable'.family, same]
    have ipv6 : flags.enableIPv6 = first.enableIPv6 := by
      rcases flagged with rfl | rfl
      · rfl
      · exact families.symm
    cases enabled : first.enableIPv6 with
    | false =>
      simp [sameSubnet, ipv4, ipv6, enabled, Lease.key, ← families, same]
    | true =>
      have set := comparable.set enabled
      have set' := comparable'.set (families ▸ enabled)
      simp [sameSubnet, ipv4, ipv6, enabled, Lease.key, ← families, same,
        IP6Net.equal_eq_some (set.trans set'.symm)]
  · have differ : first.subnet.equal second.subnet = false := by
      rw [Bool.eq_false_iff, ne_eq, IP4Net.equal_iff]
      exact same
    cases flags.enableIPv6 <;> simp [sameSubnet, ipv4, differ, Lease.key, same]

theorem indexOfSame_eq {lease : Lease} {stored : List Lease} (comparable : Comparable dual lease)
    (comparables : ∀ l ∈ stored, Comparable dual l) :
    indexOfSame lease stored =
      some (stored.findIdx? fun l => decide (l.key = lease.key)) :=
  indexOfSame_eq_findIdx? fun l mem => sameSubnet_eq (comparables l mem) comparable (.inl rfl)

end Comparable

def plainLease (subnet publicIP : IP4) : Lease :=
  ⟨true, false, ⟨subnet, 24⟩, IP6Net.zero, { LeaseAttrs.zero with publicIP := publicIP }, 1, 0⟩

theorem comparable_plainLease (subnet publicIP : IP4) :
    Comparable (fun _ => false) (plainLease subnet publicIP) :=
  ⟨rfl, rfl, nofun⟩

end Flannel.Leases
