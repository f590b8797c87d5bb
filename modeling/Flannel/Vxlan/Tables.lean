import Flannel.Backend.Mirroring
import Flannel.Leases.Families
import Flannel.Table.Mirror
import Flannel.Vxlan.Kernel

/-!
# The kernel tables and the leases

With IPv4 only and without direct routing, the tables of the vxlan device are to hold the entries
of the leases. An announcement takes nothing back, so they stay exact as long as the leases with
the hardware address of an announced lease are those of its subnet: a lease that comes back with
another hardware address leaves its old forwarding entry behind.
-/

namespace Flannel.Vxlan

open Backend Leases Net Table Transition

def ipv4Network (index : Nat) : Network :=
  ⟨some ⟨index, false⟩, none⟩

def vtepMAC (lease : Lease) : HardwareAddr :=
  ((unmarshalAttrs (Family.ipv4.backendData lease.attrs)).getD {}).vtepMAC

/-- The lease is one of this backend and its backend data decodes. -/
def Announces (lease : Lease) : Prop :=
  lease.attrs.backendType = "vxlan" ∧
    (unmarshalAttrs (Family.ipv4.backendData lease.attrs)).isSome = true

instance (lease : Lease) : Decidable (Announces lease) :=
  inferInstanceAs (Decidable (_ ∧ _))

structure Exact (leases : List Lease) (tables : Tables) : Prop where
  neigh : Mirrors (fun l : Lease => l.subnet.ip.toIP) vtepMAC leases tables.neigh
  fdb : Mirrors vtepMAC (fun l : Lease => l.attrs.publicIP.toIP) leases tables.fdb
  route : Mirrors (fun l : Lease => l.subnet.toIPNet) (fun l : Lease => l.subnet.ip.toIP) leases
    tables.route

/-- The leases with the hardware address of the given one are those of its subnet,
and no lease has another subnet with the same address. -/
def Fits (leases : List Lease) (lease : Lease) : Prop :=
  ∀ old ∈ leases, (vtepMAC old = vtepMAC lease ↔ old.subnet = lease.subnet) ∧
    (old.subnet.ip = lease.subnet.ip → old.subnet = lease.subnet)

instance (leases : List Lease) (lease : Lease) : Decidable (Fits leases lease) :=
  inferInstanceAs (Decidable (∀ old ∈ leases, _))

/-- An announced lease fits the leases present; so does a withdrawn one, unless the event is
dropped or its stored lease is withdrawn. -/
def Clean (leases : List Lease) : Event → Prop
  | ⟨.added, lease⟩ => Fits leases lease
  | ⟨.removed, lease⟩ =>
    lease.subnet ∈ leases.map Lease.subnet ∨ ¬ Announces lease ∨ Fits leases lease

instance (leases : List Lease) : ∀ e, Decidable (Clean leases e)
  | ⟨.added, lease⟩ => inferInstanceAs (Decidable (Fits leases lease))
  | ⟨.removed, _⟩ => inferInstanceAs (Decidable (_ ∨ _))

def entryFor (lease : Lease) : Entry :=
  ⟨lease.subnet.ip.toIP, lease.subnet.toIPNet, vtepMAC lease, lease.attrs.publicIP.toIP⟩

theorem entryOf_ipv4 {lease : Lease} (announces : Announces lease) :
    entryOf .ipv4 lease = some (entryFor lease) := by
  obtain ⟨attrs, decoded⟩ := Option.isSome_iff_exists.mp announces.2
  refine entryOf_eq_some_iff.mpr ⟨attrs, decoded, ?_, rfl, rfl, rfl⟩
  simp [entryFor, vtepMAC, decoded]

theorem subnets_ipv4_iff (first second : Lease) :
    first.subnets true false = second.subnets true false ↔ first.subnet = second.subnet := by
  simp [Lease.subnets]

theorem toIPNet_inj {first second : Ip.IP4Net} :
    first.toIPNet = second.toIPNet ↔ first = second := by
  rcases first with ⟨_, _⟩
  rcases second with ⟨_, _⟩
  simp [Ip.IP4Net.toIPNet, Ip.IP4.toIP]

/-! ## One event -/

section Event

variable {leases : List Lease} {tables : Tables} {lease ownLease : Lease}

theorem Exact.install (exact_ : Exact leases tables)
    (distinct : (leases.map (Lease.subnets true false)).Nodup) (fits : Fits leases lease) :
    Exact (upsert (Lease.subnets true false) lease leases) (tables.install (entryFor lease)) where
  neigh := by
    apply exact_.neigh.set distinct
    · intro old mem same
      exact (subnets_ipv4_iff old lease).mpr ((fits old mem).2 (Net.IP.v4.inj same))
    · intro old mem same
      rw [(subnets_ipv4_iff old lease).mp same]
  fdb := by
    apply exact_.fdb.set distinct
    · intro old mem same
      exact (subnets_ipv4_iff old lease).mpr ((fits old mem).1.mp same)
    · intro old mem same
      exact (fits old mem).1.mpr ((subnets_ipv4_iff old lease).mp same)
  route := by
    apply exact_.route.set distinct
    · intro old mem same
      exact (subnets_ipv4_iff old lease).mpr (toIPNet_inj.mp same)
    · intro old mem same
      rw [(subnets_ipv4_iff old lease).mp same]

theorem Exact.uninstall (exact_ : Exact leases tables)
    (distinct : (leases.map (Lease.subnets true false)).Nodup) (fits : Fits leases lease) :
    Exact (erase (Lease.subnets true false) (lease.subnets true false) leases)
      (tables.uninstall (entryFor lease)) where
  neigh := by
    apply exact_.neigh.unset distinct
    · intro old mem same
      exact (subnets_ipv4_iff old lease).mpr ((fits old mem).2 (Net.IP.v4.inj same))
    · intro old mem same
      rw [(subnets_ipv4_iff old lease).mp same]
      rfl
  fdb := by
    apply exact_.fdb.unset distinct
    · intro old mem same
      exact (subnets_ipv4_iff old lease).mpr ((fits old mem).1.mp same)
    · intro old mem same
      exact (fits old mem).1.mpr ((subnets_ipv4_iff old lease).mp same)
  route := by
    apply exact_.route.unset distinct
    · intro old mem same
      exact (subnets_ipv4_iff old lease).mpr (toIPNet_inj.mp same)
    · intro old mem same
      rw [(subnets_ipv4_iff old lease).mp same]
      rfl

variable {direct : Net.IP → Option Bool} {further index : Nat} {kernel : Kernel}

theorem handle_ipv4 (announces : Announces lease) (families : OfFamilies true false lease)
    (type : EventType) :
    handle direct further (ipv4Network index) kernel [⟨type, lease⟩] =
      some (kernel.onLink index (change type (entryFor lease))) := by
  have routable : Routable direct (ipv4Network index) lease := by
    refine ⟨announces.1, fun f enabled => ?_⟩
    cases f with
    | ipv4 => exact ⟨_, _, rfl, entryOf_ipv4 announces, nofun⟩
    | ipv6 => exact absurd (families.enableIPv6.symm.trans enabled) (by decide)
  have event := @handle_of_routable direct kernel further (ipv4Network index) ⟨type, lease⟩ routable
  rw [event]
  simp [carriedOut, applied, Family.enabled, families.enableIPv4, families.enableIPv6, entryOf_ipv4 announces,
    ipv4Network, Network.device]

theorem ignored_of_not_announces (notAnnounced : ¬ Announces lease)
    (families : OfFamilies true false lease) : Ignored (ipv4Network index) lease := by
  by_cases type : lease.attrs.backendType = "vxlan"
  · refine .inr ⟨.ipv4, families.enableIPv4, Option.some_ne_none _, ?_⟩
    rw [Announces, not_and] at notAnnounced
    exact Option.not_isSome_iff_eq_none.mp (notAnnounced type)
  · exact .inl type

def Fitting (first second : Lease) : Prop :=
  (vtepMAC first = vtepMAC second ↔ first.subnet = second.subnet) ∧
    (first.subnet.ip = second.subnet.ip → first.subnet = second.subnet)

def Tracks (index : Nat) (leases : List Lease) (kernel : Kernel) : Prop :=
  ∃ tables, kernel index = some tables ∧ Exact leases tables

theorem mirroring_handle (direct : Net.IP → Option Bool) (further index : Nat) :
    Mirroring (OfFamilies true false) (Lease.subnets true false)
      (handle direct further (ipv4Network index)) (Tracks index) Announces Fitting where
  refl := fun _ => ⟨by simp, by simp⟩
  symm := by
    intro first second fitting
    exact ⟨eq_comm.trans (fitting.1.trans eq_comm), fun same => (fitting.2 same.symm).symm⟩
  added := by
    rintro leases kernel lease distinct families announces fits ⟨tables, isTables, exact_⟩
    refine ⟨_, handle_ipv4 announces families .added, tables.install (entryFor lease), ?_, ?_⟩
    · simp [Kernel.onLink, isTables, change]
    · exact exact_.install distinct fits
  removed := by
    rintro leases kernel lease distinct families announces fits ⟨tables, isTables, exact_⟩
    refine ⟨_, handle_ipv4 announces families .removed, tables.uninstall (entryFor lease), ?_, ?_⟩
    · simp [Kernel.onLink, isTables, change]
    · exact exact_.uninstall distinct fits
  ignored := by
    intro kernel lease families notAnnounced
    exact handle_of_ignored direct kernel further (ignored_of_not_announces notAnnounced families)

theorem cleanFor_of_clean {e : Event} (clean : Clean leases e) :
    CleanFor (Lease.subnets true false) Announces Fitting leases e := by
  rcases e with ⟨_ | _, lease⟩
  · exact fun _ => clean
  · rintro (added | ⟨absent, announces⟩)
    · contradiction
    · refine (clean.resolve_left fun present => absent ?_).resolve_left (not_not_intro announces)
      obtain ⟨old, mem, same⟩ := List.mem_map.mp present
      exact List.mem_map.mpr ⟨old, mem, (subnets_ipv4_iff old lease).mpr same⟩

end Event

/-! ## Runs -/

/-- In every run whose events are clean, no batch crashes the backend and after
every batch the tables of the device are exactly the entries of the leases. -/
theorem tables_follow_leases (direct : Net.IP → Option Bool) (further index : Nat)
    {ownLease : Lease} {kernel : Kernel} (empty : kernel index = some Tables.empty)
    {calls : List (List Event)}
    (families : ∀ events ∈ calls, ∀ e ∈ events, OfFamilies true false e.lease)
    (valid : ∀ events ∈ calls, ∀ e ∈ events, e.type = .added → Announces e.lease)
    (clean : Along watch (fun lw e => ownLease.subnet ≠ e.lease.subnet → Clean lw.leases e)
      ⟨ownLease, []⟩ calls.flatten) :
    (∃ target, run (Follower.step (handle direct further (ipv4Network index)))
        ⟨⟨ownLease, []⟩, kernel⟩ calls = some target) ∧
      Throughout (Follower.step (handle direct further (ipv4Network index)))
        (fun follower => ∃ tables, follower.state index = some tables ∧
          Exact follower.watcher.leases tables)
        ⟨⟨ownLease, []⟩, kernel⟩ calls := by
  have keying := @keying_ofFamilies true false (.inl rfl) ownLease nofun
  have start : Tracks index [] kernel :=
    ⟨Tables.empty, empty, mirrors_nil, mirrors_nil, mirrors_nil⟩
  exact (mirroring_handle direct further index).throughout
    (sequential_handle direct further (ipv4Network index)) keying start families valid
    (clean.mono fun lw e isClean differ =>
      cleanFor_of_clean (isClean fun same => differ ((subnets_ipv4_iff _ _).mpr same)))

def vxlanLease (subnet publicIP : Ip.IP4) (mac : String) : Lease where
  enableIPv4 := true
  enableIPv6 := false
  subnet := ⟨subnet, 24⟩
  ipv6Subnet := Ip.IP6Net.zero
  attrs := ⟨publicIP, none, "vxlan", some ("\x7b\"VNI\":1,\"VtepMAC\":\"" ++ mac ++ "\"\x7d"), none⟩
  expiration := 0
  asof := 0

def movingNode : List (List Event) :=
  [[⟨.added, vxlanLease 0x0a010100 0xc0a80001 "02:00:00:00:00:01"⟩,
      ⟨.added, vxlanLease 0x0a010200 0xc0a80002 "02:00:00:00:00:02"⟩],
    [⟨.added, vxlanLease 0x0a010100 0xc0a80003 "02:00:00:00:00:01"⟩],
    [⟨.removed, plainLease 0x0a010200 0⟩]]

theorem tables_follow_moving_node :
    (∃ target, run (Follower.step (handle (fun _ => none) 9 (ipv4Network 7)))
        ⟨⟨plainLease 0x0a010000 0, []⟩, fun _ => some Tables.empty⟩ movingNode = some target) ∧
      Throughout (Follower.step (handle (fun _ => none) 9 (ipv4Network 7)))
        (fun follower => ∃ tables, follower.state 7 = some tables ∧
          Exact follower.watcher.leases tables)
        ⟨⟨plainLease 0x0a010000 0, []⟩, fun _ => some Tables.empty⟩ movingNode :=
  tables_follow_leases (fun _ => none) 9 7 rfl
    (by
      intro events isCall e isEvent
      simp only [movingNode, List.mem_cons, List.not_mem_nil, or_false] at isCall
      rcases isCall with rfl | rfl | rfl <;> simp at isEvent
      · rcases isEvent with rfl | rfl <;> exact ⟨rfl, rfl, nofun⟩
      · exact isEvent ▸ ⟨rfl, rfl, nofun⟩
      · exact isEvent ▸ ⟨rfl, rfl, nofun⟩)
    (by decide +kernel) (by decide +kernel)

def renewedDevice : List (List Event) :=
  [[⟨.added, vxlanLease 0x0a010100 0xc0a80001 "02:00:00:00:00:01"⟩],
    [⟨.added, vxlanLease 0x0a010100 0xc0a80001 "02:00:00:00:00:02"⟩]]

/-- The old forwarding entry stays: the leases present always have different
hardware addresses, the backend does not crash, and the tables are not exact. -/
theorem stale_forwarding_entry :
    (∀ events ∈ renewedDevice, ∀ e ∈ events, e.lease.enableIPv4 = true ∧
        e.lease.enableIPv6 = false ∧ Announces e.lease) ∧
      Along watch (fun lw e => ((watch lw e).all fun after =>
          (after.leases.map vtepMAC).Nodup) = true)
        ⟨plainLease 0x0a010000 0, []⟩ renewedDevice.flatten ∧
      ¬ Throughout (Follower.step (handle (fun _ => none) 9 (ipv4Network 7)))
        (fun follower => ∃ tables, follower.state 7 = some tables ∧
          Exact follower.watcher.leases tables)
        ⟨⟨plainLease 0x0a010000 0, []⟩, fun _ => some Tables.empty⟩ renewedDevice := by
  refine ⟨by decide +kernel, by decide, fun exact_ => ?_⟩
  have leases : (run (Follower.step (handle (fun _ => none) 9 (ipv4Network 7)))
      ⟨⟨plainLease 0x0a010000 0, []⟩, fun _ => some Tables.empty⟩ renewedDevice).map
      (fun follower => (follower.watcher.leases.map vtepMAC,
        (follower.state 7).bind fun tables => tables.fdb [2, 0, 0, 0, 0, 1])) =
      some ([[2, 0, 0, 0, 0, 2]], some (.v4 0xc0a80001)) := by
    decide +kernel
  obtain ⟨target, reached, seen⟩ := Option.map_eq_some_iff.mp leases
  obtain ⟨tables, isTables, mirrored⟩ := exact_ renewedDevice List.prefix_rfl target reached
  simp only [isTables, Prod.mk.injEq, Option.bind_some] at seen
  obtain ⟨lease, present, isMac, _⟩ := mirrored.fdb.only _ _ seen.2
  have inMacs := List.mem_map_of_mem (f := vtepMAC) present
  rw [seen.1, isMac] at inMacs
  exact absurd inMacs (by decide)

end Flannel.Vxlan
