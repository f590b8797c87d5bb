import Flannel.Backend.Mirroring
import Flannel.Leases.Families
import Flannel.Table.Mirror
import Flannel.Wireguard.Network

/-!
# The peers and the leases

In the mode `separate` with IPv4 only, the peers are to be the public keys of the leases, each
with its subnet. An announcement takes no peer away, so they stay exact as long as a lease that
comes back keeps its public key: the peer of an old key stays, without allowed addresses.
-/

namespace Flannel.Wireguard

open Backend Leases Net Program Subnet Table
open Transition

/-! ## Devices on which nothing fails -/

structure Peer where
  endpoint : Option UDPAddr
  allowedIPs : List IPNet
  deriving DecidableEq

abbrev Peers := Key → Option Peer

def Peers.configure (peers : Peers) (peer : PeerConfig) : Peers :=
  if peer.remove then Function.update peers peer.publicKey none
  else
    let allowedIPs := peer.allowedIPs.map IPNet.masked
    let endpoint := peer.endpoint.or ((peers peer.publicKey).bind Peer.endpoint)
    Function.update
      (fun key => (peers key).map fun other =>
        { other with allowedIPs := other.allowedIPs.filter (· ∉ allowedIPs) })
      peer.publicKey (some ⟨endpoint, allowedIPs⟩)

abbrev Devices := String → Peers

def wireguard (config : Config) (devices : Devices) : (op : Op) → Res op × Devices
  | .newClient => (true, devices)
  | .configureDevice name peer =>
    (true, Function.update devices name ((devices name).configure peer))
  | .routeReplace _ => (true, devices)
  | .getNetworkConfig => (some config, devices)

def ipv4Network (dev : WgDevice) (extAddr extV6Addr : Option Net.IP) : Network :=
  ⟨some dev, none, .separate, extAddr, extV6Addr⟩

/-! ## What a lease stands for -/

section Lease

variable (parseKey : String → Option Key)

def announcedKey (lease : Lease) : Option Key :=
  (unmarshalAttrs {} (Family.ipv4.backendData lease.attrs)).bind fun attrs =>
    parseKey attrs.publicKey

def publicKey (lease : Lease) : Key :=
  (announcedKey parseKey lease).getD 0

def Announces (lease : Lease) : Prop :=
  lease.attrs.backendType = "wireguard" ∧ (announcedKey parseKey lease).isSome = true

instance : DecidablePred (Announces parseKey) := fun _ => inferInstanceAs (Decidable (_ ∧ _))

/-- The peers are exactly the public keys of the leases, with their subnets. -/
def Exact (leases : List Lease) (peers : Peers) : Prop :=
  Mirrors (publicKey parseKey) (fun l : Lease => [l.subnet.toIPNet.masked]) leases
    fun key => (peers key).map Peer.allowedIPs

/-- Two leases have the same public key exactly if they are of the same subnet, and
different subnets do not have the same network. -/
def Fitting (first second : Lease) : Prop :=
  (publicKey parseKey first = publicKey parseKey second ↔ first.subnet = second.subnet) ∧
    (first.subnet.toIPNet.masked = second.subnet.toIPNet.masked → first.subnet = second.subnet)

instance : DecidableRel (Fitting parseKey) := fun _ _ => inferInstanceAs (Decidable (_ ∧ _))

variable {parseKey} {lease : Lease}

theorem announcedKey_of_announces (announces : Announces parseKey lease) :
    announcedKey parseKey lease = some (publicKey parseKey lease) := by
  obtain ⟨key, isKey⟩ := Option.isSome_iff_exists.mp announces.2
  rw [publicKey, isKey, Option.getD_some]

end Lease

/-! ## One event -/

section Event

variable {parseKey : String → Option Key} {config : Config} {devices : Devices} {dev : WgDevice}
  {extAddr extV6Addr : Option Net.IP} {lease : Lease}

def peerOf (parseKey : String → Option Key) (dev : WgDevice) (lease : Lease) : PeerConfig where
  publicKey := publicKey parseKey lease
  endpoint := resolveUDPAddr (v4PeerEndpoint lease.attrs
    (peerPort ((unmarshalAttrs {} (Family.ipv4.backendData lease.attrs)).getD {}) (some dev)))
  allowedIPs := [lease.subnet.toIPNet]

theorem exec_added (announces : Announces parseKey lease) (families : OfFamilies true false lease)
    (sized : Sized lease) :
    exec (wireguard config) devices
        (handleSubnetEvent parseKey (ipv4Network dev extAddr extV6Addr) ⟨.added, lease⟩) =
      some ((), Function.update devices dev.name
        ((devices dev.name).configure (peerOf parseKey dev lease))) := by
  obtain ⟨attrs, decoded, isKey⟩ := Option.bind_eq_some_iff.mp (announcedKey_of_announces announces)
  obtain ⟨v6Endpoint, prints⟩ :=
    exists_v6PeerEndpoint sized.publicIPv6 (peerPort {} (none : Option WgDevice))
  simp [handleSubnetEvent, announces.1, addSubnet, decode, Family.enabled, families.enableIPv4,
    families.enableIPv6, decoded, Family.network, ipv4Network, prints, addSeparate, addPeer,
    Network.device, isKey, resolveUDPAddr_v4PeerEndpoint, newClient, configureDevice,
    getNetworkConfig, wireguard, addNetworkRoute, flannelNetwork, addRoute, routeReplace, peerOf]

theorem exec_removed (announces : Announces parseKey lease) (families : OfFamilies true false lease) :
    exec (wireguard config) devices
        (handleSubnetEvent parseKey (ipv4Network dev extAddr extV6Addr) ⟨.removed, lease⟩) =
      some ((), Function.update devices dev.name
        (Function.update (devices dev.name) (publicKey parseKey lease) none)) := by
  obtain ⟨attrs, decoded, isKey⟩ := Option.bind_eq_some_iff.mp (announcedKey_of_announces announces)
  simp [handleSubnetEvent, announces.1, removeSubnet, families.enableIPv4, families.enableIPv6,
    decoded, ipv4Network, removePeer, isKey, newClient, configureDevice, wireguard, removeIPv6,
    Peers.configure]

theorem exec_ignored (notAnnounced : ¬ Announces parseKey lease)
    (families : OfFamilies true false lease) :
    exec (wireguard config) devices
        (handleSubnetEvent parseKey (ipv4Network dev extAddr extV6Addr) ⟨.removed, lease⟩) =
      some ((), devices) := by
  by_cases type : lease.attrs.backendType = "wireguard"
  · have noKey : announcedKey parseKey lease = none := by
      rw [Announces, not_and] at notAnnounced
      exact Option.not_isSome_iff_eq_none.mp (notAnnounced type)
    cases decoded : unmarshalAttrs {} (Family.ipv4.backendData lease.attrs) with
    | none =>
      simp [handleSubnetEvent, type, removeSubnet, families.enableIPv4, decoded, ipv4Network]
    | some attrs =>
      have unparsed : parseKey attrs.publicKey = none := by
        simpa [announcedKey, decoded] using noKey
      simp [handleSubnetEvent, type, removeSubnet, families.enableIPv4, families.enableIPv6,
        decoded, ipv4Network, removePeer, unparsed, removeIPv6]
  · simp [handleSubnetEvent, type]

variable {leases : List Lease} {peers : Peers}

theorem allowedIPs_configure (exact_ : Exact parseKey leases peers)
    (fits : ∀ old ∈ leases, Fitting parseKey old lease) :
    (fun key => ((peers.configure (peerOf parseKey dev lease)) key).map Peer.allowedIPs) =
      Function.update (fun key => (peers key).map Peer.allowedIPs) (publicKey parseKey lease)
        (some [lease.subnet.toIPNet.masked]) := by
  funext key
  by_cases here : key = publicKey parseKey lease
  · subst here
    simp [Peers.configure, peerOf]
  · rw [Function.update_of_ne here]
    cases entry : peers key with
    | none => simp [Peers.configure, peerOf, here, entry]
    | some peer =>
      obtain ⟨old, mem, isKey, isAllowed⟩ := exact_.only key peer.allowedIPs (by simp [entry])
      have differ : old.subnet.toIPNet.masked ≠ lease.subnet.toIPNet.masked := by
        intro same
        have sameKey := (fits old mem).1.mpr ((fits old mem).2 same)
        exact here (isKey.symm.trans sameKey)
      simp [Peers.configure, peerOf, here, entry, ← isAllowed, differ]

theorem Exact.configure (exact_ : Exact parseKey leases peers)
    (distinct : (leases.map Lease.subnet).Nodup) (fits : ∀ old ∈ leases, Fitting parseKey old lease) :
    Exact parseKey (upsert Lease.subnet lease leases)
      (peers.configure (peerOf parseKey dev lease)) := by
  rw [Exact, allowedIPs_configure exact_ fits]
  exact Mirrors.set exact_ distinct (fun old mem => (fits old mem).1.mp)
    fun old mem => (fits old mem).1.mpr

theorem Exact.remove (exact_ : Exact parseKey leases peers)
    (distinct : (leases.map Lease.subnet).Nodup) (fits : ∀ old ∈ leases, Fitting parseKey old lease) :
    Exact parseKey (erase Lease.subnet lease.subnet leases)
      (Function.update peers (publicKey parseKey lease) none) := by
  have table : (fun key => (Function.update peers (publicKey parseKey lease) none key).map
        Peer.allowedIPs) =
      Function.update (fun key => (peers key).map Peer.allowedIPs) (publicKey parseKey lease) none := by
    funext key
    by_cases here : key = publicKey parseKey lease
    · simp [here]
    · simp [here]
  rw [Exact, table]
  exact Mirrors.unset exact_ distinct (fun old mem => (fits old mem).1.mp)
    fun old mem => (fits old mem).1.mpr

end Event

/-! ## Runs -/

section Runs

variable (parseKey : String → Option Key) (config : Config)

def handle (n : Network) : Handler Devices := fun devices batch =>
  (exec (wireguard config) devices (handleSubnetEvents parseKey n batch)).map Prod.snd

theorem sequential_handle (n : Network) : (handle parseKey config n).Sequential :=
  sequential_executed (wireguard config) (handleSubnetEvent parseKey n)

theorem handle_singleton (n : Network) (devices : Devices) (event : Event) :
    handle parseKey config n devices [event] =
      (exec (wireguard config) devices (handleSubnetEvent parseKey n event)).map Prod.snd :=
  executed_singleton (wireguard config) (handleSubnetEvent parseKey n) devices event

theorem mirroring_handle (dev : WgDevice) (extAddr extV6Addr : Option Net.IP) :
    Mirroring (fun lease => OfFamilies true false lease ∧ Sized lease) Lease.subnet
      (handle parseKey config (ipv4Network dev extAddr extV6Addr))
      (fun leases devices => Exact parseKey leases (devices dev.name)) (Announces parseKey)
      (Fitting parseKey) where
  refl := fun _ => ⟨by simp, by simp⟩
  symm := by
    intro first second fitting
    exact ⟨eq_comm.trans (fitting.1.trans eq_comm), fun same => (fitting.2 same.symm).symm⟩
  added := by
    intro leases devices lease distinct kindOf announces fits exact_
    refine ⟨_, by rw [handle_singleton, exec_added announces kindOf.1 kindOf.2, Option.map_some], ?_⟩
    simp only [Function.update_self]
    exact exact_.configure distinct fits
  removed := by
    intro leases devices lease distinct kindOf announces fits exact_
    refine ⟨_, by rw [handle_singleton, exec_removed announces kindOf.1, Option.map_some], ?_⟩
    simp only [Function.update_self]
    exact exact_.remove distinct fits
  ignored := by
    intro devices lease kindOf notAnnounced
    rw [handle_singleton, exec_ignored notAnnounced kindOf.1, Option.map_some]

/-- In every run in which an announced lease has the public key of the leases of its
subnet and no other, no batch crashes the backend and after every batch the peers
are exactly the public keys of the leases, with their subnets. -/
theorem peers_follow_leases (dev : WgDevice) (extAddr extV6Addr : Option Net.IP) {ownLease : Lease}
    {devices : Devices} (empty : devices dev.name = fun _ => none) {calls : List (List Event)}
    (families : ∀ events ∈ calls, ∀ e ∈ events, OfFamilies true false e.lease ∧ Sized e.lease)
    (valid : ∀ events ∈ calls, ∀ e ∈ events, e.type = .added → Announces parseKey e.lease)
    (clean : Along watch (fun lw e => ownLease.subnet ≠ e.lease.subnet →
      CleanFor Lease.subnet (Announces parseKey) (Fitting parseKey) lw.leases e)
      ⟨ownLease, []⟩ calls.flatten) :
    (∃ target, run (Follower.step (handle parseKey config (ipv4Network dev extAddr extV6Addr)))
        ⟨⟨ownLease, []⟩, devices⟩ calls = some target) ∧
      Throughout (Follower.step (handle parseKey config (ipv4Network dev extAddr extV6Addr)))
        (fun follower => Exact parseKey follower.watcher.leases (follower.state dev.name))
        ⟨⟨ownLease, []⟩, devices⟩ calls := by
  have bySubnets := @keying_ofFamilies true false (.inl rfl) ownLease nofun
  have keying := (bySubnets.congr fun first second =>
    (by simp [Lease.subnets] : _ ↔ first.subnet = second.subnet)).mono
      fun lease (kindOf : OfFamilies true false lease ∧ Sized lease) => kindOf.1
  have start : Exact parseKey [] (devices dev.name) := by
    rw [Exact, empty]
    exact mirrors_nil
  exact (mirroring_handle parseKey config dev extAddr extV6Addr).throughout
    (sequential_handle parseKey config _) keying start families valid clean

end Runs

def twoKeys (text : String) : Option Key :=
  if text = "one" then some 1 else if text = "two" then some 2 else none

def wireguardLease (subnet publicIP : Ip.IP4) (key : String) : Lease where
  enableIPv4 := true
  enableIPv6 := false
  subnet := ⟨subnet, 24⟩
  ipv6Subnet := Ip.IP6Net.zero
  attrs := ⟨publicIP, none, "wireguard",
    some ("\x7b\"PublicKey\":\"" ++ key ++ "\",\"Port\":51820\x7d"), none⟩
  expiration := 0
  asof := 0

def flannelWg : WgDevice :=
  ⟨"flannel-wg", 7, 51820⟩

def ipv4Config : Config :=
  ⟨true, false, ⟨0x0a010000, 16⟩, Ip.IP6Net.zero, 0x0a010100, 0x0a01ff00, none, none, 24, 0⟩

def movingNode : List (List Event) :=
  [[⟨.added, wireguardLease 0x0a010100 0xc0a80001 "one"⟩,
      ⟨.added, wireguardLease 0x0a010200 0xc0a80002 "two"⟩],
    [⟨.added, wireguardLease 0x0a010100 0xc0a80003 "one"⟩],
    [⟨.removed, plainLease 0x0a010200 0⟩]]

theorem peers_follow_moving_node :
    (∃ target, run (Follower.step (handle twoKeys ipv4Config (ipv4Network flannelWg none none)))
        ⟨⟨plainLease 0x0a010000 0, []⟩, fun _ _ => none⟩ movingNode = some target) ∧
      Throughout (Follower.step (handle twoKeys ipv4Config (ipv4Network flannelWg none none)))
        (fun follower => Exact twoKeys follower.watcher.leases (follower.state "flannel-wg"))
        ⟨⟨plainLease 0x0a010000 0, []⟩, fun _ _ => none⟩ movingNode :=
  peers_follow_leases twoKeys ipv4Config flannelWg none none rfl
    (by
      intro events isCall e isEvent
      simp only [movingNode, List.mem_cons, List.not_mem_nil, or_false] at isCall
      rcases isCall with rfl | rfl | rfl <;> simp at isEvent
      · rcases isEvent with rfl | rfl <;> exact ⟨⟨rfl, rfl, nofun⟩, nofun, nofun⟩
      · exact isEvent ▸ ⟨⟨rfl, rfl, nofun⟩, nofun, nofun⟩
      · exact isEvent ▸ ⟨⟨rfl, rfl, nofun⟩, nofun, nofun⟩)
    (by decide +kernel) (by decide +kernel)

def renewedKey : List (List Event) :=
  [[⟨.added, wireguardLease 0x0a010100 0xc0a80001 "one"⟩],
    [⟨.added, wireguardLease 0x0a010100 0xc0a80001 "two"⟩]]

/-- The peer of the old key stays: the leases present always have different public
keys, the backend does not crash, and the peers are not exact. -/
theorem stale_peer :
    (∀ events ∈ renewedKey, ∀ e ∈ events, e.lease.enableIPv4 = true ∧
        e.lease.enableIPv6 = false ∧ Announces twoKeys e.lease) ∧
      Along watch (fun lw e => ((watch lw e).all fun after =>
          (after.leases.map (publicKey twoKeys)).Nodup) = true)
        ⟨plainLease 0x0a010000 0, []⟩ renewedKey.flatten ∧
      ¬ Throughout (Follower.step (handle twoKeys ipv4Config (ipv4Network flannelWg none none)))
        (fun follower => Exact twoKeys follower.watcher.leases (follower.state "flannel-wg"))
        ⟨⟨plainLease 0x0a010000 0, []⟩, fun _ _ => none⟩ renewedKey := by
  refine ⟨by decide +kernel, by decide, fun exact_ => ?_⟩
  have after : (run (Follower.step (handle twoKeys ipv4Config (ipv4Network flannelWg none none)))
      ⟨⟨plainLease 0x0a010000 0, []⟩, fun _ _ => none⟩ renewedKey).map
      (fun follower => (follower.watcher.leases.map (publicKey twoKeys),
        (follower.state "flannel-wg" 1).map Peer.allowedIPs)) =
      some ([2], some []) := by
    decide +kernel
  obtain ⟨target, reached, seen⟩ := Option.map_eq_some_iff.mp after
  simp only [Prod.mk.injEq] at seen
  have mirrored := exact_ renewedKey List.prefix_rfl target reached
  obtain ⟨lease, present, isKey, _⟩ := mirrored.only 1 [] seen.2
  have inKeys := List.mem_map_of_mem (f := publicKey twoKeys) present
  rw [seen.1, isKey] at inKeys
  exact absurd inKeys (by decide)

end Flannel.Wireguard
