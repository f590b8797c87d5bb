import Flannel.Backend.Follower
import Flannel.Vxlan.Network

/-!
# A kernel on which nothing fails

What `handleSubnetEvents` does to the entries of every link: an announced subnet is installed on
the device of each of its families and a withdrawn one is taken off. A request about a link that
is gone has no effect.
-/

namespace Flannel.Vxlan

open Backend Leases Net Program

structure Tables where
  neigh : Net.IP → Option HardwareAddr
  fdb : HardwareAddr → Option Net.IP
  route : IPNet → Option Net.IP

structure Entry where
  address : Net.IP
  network : IPNet
  mac : HardwareAddr
  publicIP : Net.IP
  deriving DecidableEq

namespace Tables

def empty : Tables :=
  ⟨fun _ => none, fun _ => none, fun _ => none⟩

def setNeigh (tables : Tables) (n : Neigh) (present : Bool) : Tables :=
  if n.bridge then
    { tables with
      fdb := Function.update tables.fdb n.hardwareAddr (if present then some n.ip else none) }
  else
    { tables with
      neigh := Function.update tables.neigh n.ip (if present then some n.hardwareAddr else none) }

def setRoute (tables : Tables) (r : Route) (present : Bool) : Tables :=
  match r.dst, r.gw with
  | some dst, some gw =>
    { tables with route := Function.update tables.route dst (if present then some gw else none) }
  | _, _ => tables

def install (entry : Entry) (tables : Tables) : Tables where
  neigh := Function.update tables.neigh entry.address (some entry.mac)
  fdb := Function.update tables.fdb entry.mac (some entry.publicIP)
  route := Function.update tables.route entry.network (some entry.address)

def uninstall (entry : Entry) (tables : Tables) : Tables where
  neigh := Function.update tables.neigh entry.address none
  fdb := Function.update tables.fdb entry.mac none
  route := Function.update tables.route entry.network none

end Tables

abbrev Kernel := Nat → Option Tables

def Kernel.onLink (kernel : Kernel) (index : Nat) (change : Tables → Tables) : Kernel :=
  Function.update kernel index ((kernel index).map change)

@[simp]
theorem Kernel.onLink_onLink (kernel : Kernel) (index : Nat) (first second : Tables → Tables) :
    (kernel.onLink index first).onLink index second =
      kernel.onLink index fun tables => second (first tables) := by
  simp [Kernel.onLink, Function.comp_def]

/-- The kernel's answers: every request succeeds. `direct` is the answer of
`ip.DirectRouting`. -/
def netlink (direct : Net.IP → Option Bool) (kernel : Kernel) : (op : Op) → Res op × Kernel
  | .neighSet n => (true, kernel.onLink n.linkIndex (·.setNeigh n true))
  | .neighDel n => (true, kernel.onLink n.linkIndex (·.setNeigh n false))
  | .routeReplace r => (true, kernel.onLink r.linkIndex (·.setRoute r true))
  | .routeDel r => (true, kernel.onLink r.linkIndex (·.setRoute r false))
  | .directRouting ip => (direct ip, kernel)

/-- What a lease puts on the device of a family, if its attributes decode and its
addresses are set. -/
def entryOf (f : Family) (lease : Lease) : Option Entry := do
  let attrs ← unmarshalAttrs (f.backendData lease.attrs)
  some ⟨← f.address lease, ← f.network lease, attrs.vtepMAC, ← f.publicIP lease.attrs⟩

variable (direct : Net.IP → Option Bool) (kernel : Kernel) (further : Nat)

/-! ## Requests that succeed at once -/

section Requests

variable (dev : VxlanDevice) (ip : Net.IP) (mac : HardwareAddr) (r : Route)

@[simp]
theorem exec_retry_addARP :
    exec (netlink direct) kernel (retry (addARP (some dev) (some ip) mac) further) =
      some (true, kernel.onLink dev.linkIndex (·.setNeigh ⟨dev.linkIndex, false, ip, mac⟩ true)) :=
  exec_retry _ _ rfl further

@[simp]
theorem exec_retry_addFDB :
    exec (netlink direct) kernel (retry (addFDB (some dev) (some ip) mac) further) =
      some (true, kernel.onLink dev.linkIndex (·.setNeigh ⟨dev.linkIndex, true, ip, mac⟩ true)) :=
  exec_retry _ _ rfl further

@[simp]
theorem exec_retry_delARP :
    exec (netlink direct) kernel (retry (delARP (some dev) (some ip) mac) further) =
      some (true, kernel.onLink dev.linkIndex (·.setNeigh ⟨dev.linkIndex, false, ip, mac⟩ false)) :=
  exec_retry _ _ rfl further

@[simp]
theorem exec_retry_delFDB :
    exec (netlink direct) kernel (retry (delFDB (some dev) (some ip) mac) further) =
      some (true, kernel.onLink dev.linkIndex (·.setNeigh ⟨dev.linkIndex, true, ip, mac⟩ false)) :=
  exec_retry _ _ rfl further

@[simp]
theorem exec_retry_routeReplace :
    exec (netlink direct) kernel (retry (routeReplace r) further) =
      some (true, kernel.onLink r.linkIndex (·.setRoute r true)) :=
  exec_retry _ _ rfl further

@[simp]
theorem exec_retry_routeDel :
    exec (netlink direct) kernel (retry (routeDel r) further) =
      some (true, kernel.onLink r.linkIndex (·.setRoute r false)) :=
  exec_retry _ _ rfl further

end Requests

/-! ## One family of one event -/

section Family

variable {nw : Network} {f : Family} {lease : Lease} {dev : VxlanDevice} {entry : Entry}

def preparedFor (dev : VxlanDevice) (attrs : VxlanLeaseAttrs) (entry : Entry) : Prepared where
  attrs := attrs
  directRoute := { dst := some entry.network, gw := some entry.publicIP }
  vxlanRoute :=
    { linkIndex := dev.linkIndex, dst := some entry.network, gw := some entry.address, onlink := true }

theorem entryOf_eq_some_iff :
    entryOf f lease = some entry ↔
      ∃ attrs, unmarshalAttrs (f.backendData lease.attrs) = some attrs ∧
        attrs.vtepMAC = entry.mac ∧ f.address lease = some entry.address ∧
        f.network lease = some entry.network ∧ f.publicIP lease.attrs = some entry.publicIP := by
  rcases entry with ⟨address, network, mac, publicIP⟩
  simp only [entryOf, Option.bind_eq_bind, Option.bind_eq_some_iff, Option.some.injEq, Entry.mk.injEq]
  constructor
  · rintro ⟨attrs, decoded, _, isAddress, _, isNetwork, _, isPublic, rfl, rfl, rfl, rfl⟩
    exact ⟨attrs, decoded, rfl, isAddress, isNetwork, isPublic⟩
  · rintro ⟨attrs, decoded, rfl, isAddress, isNetwork, isPublic⟩
    exact ⟨attrs, decoded, address, isAddress, network, isNetwork, publicIP, isPublic, rfl, rfl, rfl, rfl⟩

theorem isSet_of_address {address : Net.IP} (isAddress : f.address lease = some address) :
    f.isSet lease := by
  cases f with
  | ipv4 => rfl
  | ipv6 =>
    have ⟨ip6, isIp, _⟩ := Option.bind_eq_some_iff.mp isAddress
    simp [Family.isSet, isIp]

variable {attrs : VxlanLeaseAttrs}

theorem exec_prepare (enabled : f.enabled lease)
    (isDev : nw.device f = some dev) (isEntry : entryOf f lease = some entry)
    (decoded : unmarshalAttrs (f.backendData lease.attrs) = some attrs)
    (indirect : dev.directRouting → direct entry.publicIP ≠ some true) :
    exec (netlink direct) kernel (prepare nw f lease) =
      some (some (preparedFor dev attrs entry), kernel) := by
  obtain ⟨_, _, _, isAddress, isNetwork, isPublic⟩ := entryOf_eq_some_iff.1 isEntry
  simp only [prepare, enabled, isDev, decoded, isSet_of_address isAddress, isNetwork, isAddress,
    isPublic, preparedFor, if_true]
  cases routes : dev.directRouting with
  | false => simp
  | true =>
    have notDirect := indirect routes
    have answered : (direct entry.publicIP).getD false = false := by
      rcases found : direct entry.publicIP with _ | _ | _
      · rfl
      · rfl
      · exact absurd found notDirect
    simp [directRouting, netlink, answered]

theorem exec_addSubnet (isMac : attrs.vtepMAC = entry.mac)
    (isDev : nw.device f = some dev) (isEntry : entryOf f lease = some entry)
    (afterFDB afterRoute : Nat) :
    exec (netlink direct) kernel
        (addSubnet further afterFDB afterRoute nw f lease (preparedFor dev attrs entry)) =
      some (true, kernel.onLink dev.linkIndex (Tables.install entry)) := by
  obtain ⟨_, _, _, isAddress, _, isPublic⟩ := entryOf_eq_some_iff.1 isEntry
  simp [addSubnet, preparedFor, isDev, isAddress, isPublic, isMac, Tables.setNeigh, Tables.setRoute]
  rfl

theorem exec_removeSubnet (isMac : attrs.vtepMAC = entry.mac)
    (isDev : nw.device f = some dev) (isEntry : entryOf f lease = some entry) :
    exec (netlink direct) kernel (removeSubnet further nw f lease (preparedFor dev attrs entry)) =
      some ((), kernel.onLink dev.linkIndex (Tables.uninstall entry)) := by
  obtain ⟨_, _, _, isAddress, _, isPublic⟩ := entryOf_eq_some_iff.1 isEntry
  simp [removeSubnet, preparedFor, isDev, isAddress, isPublic, isMac, Tables.setNeigh, Tables.setRoute]
  rfl

end Family

/-! ## One event -/

def change : EventType → Entry → Tables → Tables
  | .added, entry => Tables.install entry
  | .removed, entry => Tables.uninstall entry

def applied (nw : Network) (f : Family) (event : Event) (kernel : Kernel) : Kernel :=
  match f.enabled event.lease, nw.device f, entryOf f event.lease with
  | true, some dev, some entry => kernel.onLink dev.linkIndex (change event.type entry)
  | _, _, _ => kernel

def carriedOut (nw : Network) (event : Event) (kernel : Kernel) : Kernel :=
  applied nw .ipv6 event (applied nw .ipv4 event kernel)

structure Routable (direct : Net.IP → Option Bool) (nw : Network) (lease : Lease) : Prop where
  backendType : lease.attrs.backendType = "vxlan"
  entries : ∀ f : Family, f.enabled lease = true → ∃ dev entry, nw.device f = some dev ∧
    entryOf f lease = some entry ∧ (dev.directRouting = true → direct entry.publicIP ≠ some true)

def Ignored (nw : Network) (lease : Lease) : Prop :=
  lease.attrs.backendType ≠ "vxlan" ∨ ∃ f : Family, f.enabled lease = true ∧ nw.device f ≠ none ∧
    unmarshalAttrs (f.backendData lease.attrs) = none

theorem exec_family {nw : Network} {event : Event} (routable : Routable direct nw event.lease)
    (f : Family) :
    ∃ vars, (∀ kernel, exec (netlink direct) kernel (prepare nw f event.lease) =
        some (some vars, kernel)) ∧
      (event.type = .added → ∀ kernel afterFDB afterRoute,
        exec (netlink direct) kernel (ifEnabled f event.lease true
            (addSubnet further afterFDB afterRoute nw f event.lease vars)) =
          some (true, applied nw f event kernel)) ∧
      (event.type = .removed → ∀ kernel,
        exec (netlink direct) kernel (ifEnabled f event.lease ()
            (removeSubnet further nw f event.lease vars)) =
          some ((), applied nw f event kernel)) := by
  cases enabled : f.enabled event.lease with
  | false =>
    refine ⟨{}, fun _ => ?_, fun _ _ _ _ => ?_, fun _ _ => ?_⟩
    · simp [prepare, enabled]
    · simp [ifEnabled, enabled, applied]
    · simp [ifEnabled, enabled, applied]
  | true =>
    obtain ⟨dev, entry, isDev, isEntry, indirect⟩ := routable.entries f enabled
    obtain ⟨attrs, decoded, isMac, _⟩ := entryOf_eq_some_iff.1 isEntry
    refine ⟨preparedFor dev attrs entry, fun kernel => ?_, fun added kernel _ _ => ?_,
      fun removed kernel => ?_⟩
    · exact exec_prepare direct kernel enabled isDev isEntry decoded indirect
    · rw [ifEnabled, if_pos enabled, exec_addSubnet direct kernel further isMac isDev isEntry]
      simp only [applied, enabled, isDev, isEntry, added, change]
    · rw [ifEnabled, if_pos enabled, exec_removeSubnet direct kernel further isMac isDev isEntry]
      simp only [applied, enabled, isDev, isEntry, removed, change]

theorem exec_handleSubnetEvent {nw : Network} {event : Event}
    (routable : Routable direct nw event.lease) :
    exec (netlink direct) kernel (handleSubnetEvent further nw event) =
      some ((), carriedOut nw event kernel) := by
  obtain ⟨v4, prepares4, adds4, removes4⟩ := exec_family direct further routable .ipv4
  obtain ⟨v6, prepares6, adds6, removes6⟩ := exec_family direct further routable .ipv6
  have dispatches : exec (netlink direct) kernel (dispatch further nw event v4 v6) =
      some ((), carriedOut nw event kernel) := by
    cases type : event.type with
    | added => simp [dispatch, type, adds4 type, adds6 type, carriedOut]
    | removed => simp [dispatch, type, removes4 type, removes6 type, carriedOut]
  simp [handleSubnetEvent, routable.backendType, prepares4, prepares6, dispatches]

theorem exists_exec_prepare_ipv4 (nw : Network) (lease : Lease) :
    ∃ vars, exec (netlink direct) kernel (prepare nw .ipv4 lease) = some (vars, kernel) := by
  cases enabled : lease.enableIPv4 with
  | false => exact ⟨some {}, by simp [prepare, Family.enabled, enabled]⟩
  | true =>
    cases isDev : nw.dev with
    | none =>
      exact ⟨some {}, by simp [prepare, Family.enabled, Network.device, enabled, isDev]⟩
    | some dev =>
      cases decoded : unmarshalAttrs (Family.ipv4.backendData lease.attrs) with
      | none =>
        exact ⟨none, by simp [prepare, Family.enabled, Network.device, enabled, isDev, decoded]⟩
      | some attrs =>
        cases routes : dev.directRouting
        all_goals
          exact ⟨_, by
            simp [prepare, Family.enabled, Network.device, enabled, isDev, decoded, routes,
              Family.isSet, Family.network, Family.address, Family.publicIP, directRouting,
              netlink]
            rfl⟩

theorem exec_of_ignored {nw : Network} {event : Event} (ignored : Ignored nw event.lease) :
    exec (netlink direct) kernel (handleSubnetEvent further nw event) = some ((), kernel) := by
  by_cases type : event.lease.attrs.backendType = "vxlan"
  · obtain ⟨f, enabled, exists_, undecodable⟩ := ignored.resolve_left (not_not_intro type)
    obtain ⟨dev, isDev⟩ := Option.ne_none_iff_exists'.mp exists_
    have drops : prepare nw f event.lease = .ret none := by
      simp [prepare, enabled, isDev, undecodable]
    cases f with
    | ipv4 => simp [handleSubnetEvent, type, drops]
    | ipv6 =>
      obtain ⟨vars, prepares⟩ := exists_exec_prepare_ipv4 direct kernel nw event.lease
      cases vars <;> simp [handleSubnetEvent, type, prepares, drops]
  · simp [handleSubnetEvent, type]

/-! ## Batches -/

def handle (nw : Network) : Handler Kernel := fun kernel batch =>
  (exec (netlink direct) kernel (handleSubnetEvents further nw batch)).map Prod.snd

theorem sequential_handle (nw : Network) : (handle direct further nw).Sequential :=
  sequential_executed (netlink direct) (handleSubnetEvent further nw)

theorem handle_singleton (nw : Network) (event : Event) :
    handle direct further nw kernel [event] =
      (exec (netlink direct) kernel (handleSubnetEvent further nw event)).map Prod.snd :=
  executed_singleton (netlink direct) (handleSubnetEvent further nw) kernel event

theorem handle_of_routable {nw : Network} {event : Event}
    (routable : Routable direct nw event.lease) :
    handle direct further nw kernel [event] = some (carriedOut nw event kernel) := by
  rw [handle_singleton, exec_handleSubnetEvent direct kernel further routable, Option.map_some]

theorem handle_of_ignored {nw : Network} {event : Event} (ignored : Ignored nw event.lease) :
    handle direct further nw kernel [event] = some kernel := by
  rw [handle_singleton, exec_of_ignored direct kernel further ignored, Option.map_some]

end Flannel.Vxlan
