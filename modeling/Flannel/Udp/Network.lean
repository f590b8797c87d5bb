import Flannel.Backend.Mirroring
import Flannel.Ip.IP4
import Flannel.Leases.Families
import Flannel.Table.Mirror
import Flannel.Udp.Routes
import Mathlib.Tactic.IntervalCases

/-!
# The leases and the routes of the UDP proxy

The Go side writes a command to the control socket for every lease event, and the
proxy reads the commands between packets. The socket keeps messages whole and in
order, so the commands the proxy has executed are always a first part of those
written. Once it has executed all of them its route table is that of the leases
present, whatever packets were looked up in between.
-/

namespace Flannel.Udp

open Backend Bits Ip Leases Net Table Transition

def networkOrder (ip : IP4) : BitVec 32 :=
  let a := (ip >>> 24).setWidth 8
  let b := (ip >>> 16).setWidth 8
  let c := (ip >>> 8).setWidth 8
  let d := ip.setWidth 8
  a.setWidth 32 ||| b.setWidth 32 <<< 8 ||| c.setWidth 32 <<< 16 ||| d.setWidth 32 <<< 24

namespace Ctl

/-- The destination of a command; for other lengths the shift in `netmask` is
undefined. -/
def dest (dst : IP4Net) : Option Dest :=
  if valid : 1 ≤ dst.prefixLen ∧ dst.prefixLen ≤ 32 then
    some ⟨networkOrder dst.ip, dst.prefixLen, valid⟩
  else none

def setRoute (dst : IP4Net) (nextHopIP : IP4) (nextHopPort : Int) : Option Op :=
  (dest dst).map fun d => .set d (networkOrder nextHopIP) (BitVec.ofInt 16 nextHopPort)

def removeRoute (dst : IP4Net) : Option Op :=
  (dest dst).map .del

end Ctl

def eventCommand (port : Int) (evt : Event) : Option Op :=
  match evt.type with
  | .added => Ctl.setRoute evt.lease.subnet evt.lease.attrs.publicIP port
  | .removed => Ctl.removeRoute evt.lease.subnet

def processSubnetEvents (port : Int) : Handler (List Op) := fun sent batch =>
  batch.foldlM (fun sent evt => (eventCommand port evt).map fun command => sent ++ [command]) sent

/-! ## Addresses in network order -/

theorem getLsbD_swap32 (word : BitVec 32) {i : Nat} (inside : i < 32) :
    (swap32 word).getLsbD i = word.getLsbD (8 * (3 - i / 8) + i % 8) := by
  simp only [swap32, swap16, lowHalf, highHalf, lowByte, highByte, BitVec.getLsbD_append,
    BitVec.getLsbD_setWidth, BitVec.getLsbD_ushiftRight]
  interval_cases i <;> rfl

theorem networkOrder_eq_swap32 (ip : IP4) : networkOrder ip = swap32 ip := by
  apply BitVec.eq_of_getLsbD_eq
  intro i inside
  rw [getLsbD_swap32 ip inside]
  simp only [networkOrder, BitVec.getLsbD_or, BitVec.getLsbD_shiftLeft, BitVec.getLsbD_setWidth,
    BitVec.getLsbD_ushiftRight]
  interval_cases i <;> simp

theorem networkOrder_and (ip mask : IP4) :
    networkOrder (ip &&& mask) = networkOrder ip &&& networkOrder mask := by
  apply BitVec.eq_of_getLsbD_eq
  intro i inside
  simp only [networkOrder_eq_swap32, BitVec.getLsbD_and, getLsbD_swap32 _ inside]

@[simp]
theorem networkOrder_networkOrder (ip : IP4) : networkOrder (networkOrder ip) = ip := by
  apply BitVec.eq_of_getLsbD_eq
  intro i inside
  rw [networkOrder_eq_swap32, networkOrder_eq_swap32, getLsbD_swap32 _ inside,
    getLsbD_swap32 _ (by omega)]
  congr 1
  omega

/-- The net that the proxy forms for a subnet. -/
def ipNet (n : IP4Net) : IpNet where
  ip := networkOrder n.ip &&& netmask n.prefixLen
  mask := netmask n.prefixLen

theorem contains_ipNet {n : IP4Net} (valid : n.prefixLen ≤ 32) (ip : IP4) :
    (ipNet n).contains (networkOrder ip) = n.contains ip := by
  have isMask : netmask n.prefixLen = networkOrder n.mask := by
    rw [netmask, networkOrder_eq_swap32, IP4Net.mask, if_pos valid]
    rfl
  rw [Bool.eq_iff_iff, IpNet.contains, IP4Net.contains, beq_iff_eq, beq_iff_eq, ipNet, isMask,
    ← networkOrder_and, ← networkOrder_and]
  exact ⟨fun same => by simpa using congrArg networkOrder same, congrArg networkOrder⟩

/-! ## One event -/

/-- A lease for which the proxy can form a net. -/
structure Routable (lease : Lease) : Prop where
  families : OfFamilies true false lease
  positive : 1 ≤ lease.subnet.prefixLen
  valid : lease.subnet.prefixLen ≤ 32

/-- The leases are of one subnet, or of subnets that do not overlap. -/
def Apart (first second : Lease) : Prop :=
  first.subnet = second.subnet ∨
    (first.subnet.overlaps second.subnet = false ∧ second.subnet.overlaps first.subnet = false)

instance : DecidableRel Apart := fun _ _ => inferInstanceAs (Decidable (_ ∨ _))

def nextHop (port : Int) (lease : Lease) : SockaddrIn :=
  ⟨networkOrder lease.attrs.publicIP, swap16 (BitVec.ofInt 16 port)⟩

/-- The commands describe the routes of the leases, and at no time two nets that
share an address. -/
structure Installed (port : Int) (leases : List Lease) (sent : List Op) : Prop where
  routable : ∀ lease ∈ leases, Routable lease
  mirrors : Mirrors (fun lease => ipNet lease.subnet) (nextHop port) leases (held sent)
  separate : ∀ done, done <+: sent → Separate (held done)

section Event

variable {port : Int} {leases : List Lease} {sent : List Op} {lease : Lease}

theorem eq_of_ipNet_contains {old : Lease} (routable : Routable old) (routable' : Routable lease)
    (apart : Apart old lease) {ip : BitVec 32} (here : (ipNet old.subnet).contains ip)
    (here' : (ipNet lease.subnet).contains ip) : old.subnet = lease.subnet := by
  rw [← networkOrder_networkOrder ip, contains_ipNet routable.valid] at here
  rw [← networkOrder_networkOrder ip, contains_ipNet routable'.valid] at here'
  rcases apart with same | ⟨disjoint, -⟩
  · exact same
  · have overlap := (IP4Net.overlaps_iff routable.valid routable'.valid).mpr ⟨_, here, here'⟩
    rw [disjoint] at overlap
    contradiction

theorem eq_of_ipNet_eq {old : Lease} (routable : Routable old) (routable' : Routable lease)
    (apart : Apart old lease) (same : ipNet old.subnet = ipNet lease.subnet) :
    old.subnet = lease.subnet := by
  have own : (ipNet lease.subnet).contains (networkOrder lease.subnet.ip) := by
    rw [contains_ipNet routable'.valid, IP4Net.contains, beq_self_eq_true]
  exact eq_of_ipNet_contains routable routable' apart (same ▸ own) own

theorem forall_prefix_append_singleton {P : List Op → Prop} {op : Op}
    (before : ∀ done, done <+: sent → P done) (last : P (sent ++ [op])) :
    ∀ done, done <+: sent ++ [op] → P done := by
  intro done earlier
  rcases List.prefix_concat_iff.mp earlier with rfl | earlier
  · exact last
  · exact before done earlier

theorem Separate.set {table : IpNet → Option SockaddrIn} (separate : Separate table) {net : IpNet}
    {hop : SockaddrIn}
    (others : ∀ other, (table other).isSome → ∀ ip, other.contains ip → net.contains ip → other = net) :
    Separate (Function.update table net (some hop)) := by
  intro a b ip heldA heldB inA inB
  by_cases isA : a = net
  · by_cases isB : b = net
    · rw [isA, isB]
    · rw [Function.update_of_ne isB] at heldB
      exact absurd (others b heldB ip inB (isA ▸ inA)) isB
  · rw [Function.update_of_ne isA] at heldA
    by_cases isB : b = net
    · exact absurd (others a heldA ip inA (isB ▸ inB)) isA
    · rw [Function.update_of_ne isB] at heldB
      exact separate a b ip heldA heldB inA inB

theorem Separate.unset {table : IpNet → Option SockaddrIn} (separate : Separate table) (net : IpNet) :
    Separate (Function.update table net none) := by
  have fewer : ∀ other, (Function.update table net none other).isSome → (table other).isSome := by
    intro other present
    by_cases here : other = net
    · simp [here] at present
    · rwa [Function.update_of_ne here] at present
  exact fun a b ip heldA heldB => separate a b ip (fewer a heldA) (fewer b heldB)

theorem Installed.added (installed : Installed port leases sent)
    (distinct : (leases.map Lease.subnet).Nodup) (routable : Routable lease)
    (apart : ∀ old ∈ leases, Apart old lease) :
    ∃ target, processSubnetEvents port sent [⟨.added, lease⟩] = some target ∧
      Installed port (upsert Lease.subnet lease leases) target := by
  let op : Op := .set ⟨networkOrder lease.subnet.ip, lease.subnet.prefixLen, routable.positive,
    routable.valid⟩ (networkOrder lease.attrs.publicIP) (BitVec.ofInt 16 port)
  have holds : held (sent ++ [op]) =
      Function.update (held sent) (ipNet lease.subnet) (some (nextHop port lease)) := held_append _ _
  refine ⟨sent ++ [op], ?_, ?_, ?_, ?_⟩
  · simp [processSubnetEvents, eventCommand, Ctl.setRoute, Ctl.dest, routable.positive,
      routable.valid, op]
  · intro l mem
    rcases mem_upsert mem with rfl | old
    · exact routable
    · exact installed.routable l old
  · rw [holds]
    exact installed.mirrors.set distinct
      (fun old mem => eq_of_ipNet_eq (installed.routable old mem) routable (apart old mem))
      fun old _ equal => congrArg ipNet equal
  · apply forall_prefix_append_singleton installed.separate
    rw [holds]
    apply (installed.separate sent List.prefix_rfl).set
    intro other present ip here here'
    obtain ⟨hop, isHeld⟩ := Option.isSome_iff_exists.mp present
    obtain ⟨old, mem, rfl, -⟩ := installed.mirrors.only other hop isHeld
    exact congrArg ipNet
      (eq_of_ipNet_contains (installed.routable old mem) routable (apart old mem) here here')

theorem Installed.removed (installed : Installed port leases sent)
    (distinct : (leases.map Lease.subnet).Nodup) (routable : Routable lease)
    (apart : ∀ old ∈ leases, Apart old lease) :
    ∃ target, processSubnetEvents port sent [⟨.removed, lease⟩] = some target ∧
      Installed port (erase Lease.subnet lease.subnet leases) target := by
  let op : Op := .del ⟨networkOrder lease.subnet.ip, lease.subnet.prefixLen, routable.positive,
    routable.valid⟩
  have holds : held (sent ++ [op]) = Function.update (held sent) (ipNet lease.subnet) none :=
    held_append _ _
  refine ⟨sent ++ [op], ?_, ?_, ?_, ?_⟩
  · simp [processSubnetEvents, eventCommand, Ctl.removeRoute, Ctl.dest, routable.positive,
      routable.valid, op]
  · exact fun l mem => installed.routable l ((erase_sublist _ _).subset mem)
  · rw [holds]
    exact installed.mirrors.unset distinct
      (fun old mem => eq_of_ipNet_eq (installed.routable old mem) routable (apart old mem))
      fun old _ equal => congrArg ipNet equal
  · apply forall_prefix_append_singleton installed.separate
    rw [holds]
    exact (installed.separate sent List.prefix_rfl).unset _

end Event

end Flannel.Udp
