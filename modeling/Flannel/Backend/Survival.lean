import Flannel.Backend.RouteNetwork
import Flannel.Etcd.Acquire
import Flannel.Etcd.Watch
import Flannel.Kube.Manager
import Flannel.Vxlan.Survival
import Flannel.Wireguard.Peers
import Flannel.Wireguard.Ports
import Flannel.Wireguard.Survival

/-!
# Nil pointers

Which pointers of a backend are nil depends on the families that the configuration enables; the
handlers branch on the families of the leases. For every backend and every event that a subnet
manager can deliver: exactly when handling it meets a nil pointer or function.
-/

namespace Flannel.Backend

open Leases Net Program Subnet

def Family.configured (f : Family) (config : Config) : Bool :=
  match f with
  | .ipv4 => config.enableIPv4
  | .ipv6 => config.enableIPv6

/-! ## Routes -/

namespace RouteNetwork

variable {n : Network} {f : Family} {lease : Lease} {event : Event}

def Routeless (n : Network) (f : Family) (lease : Lease) : Prop :=
  (n.getRoute f).bind (fun getRoute => getRoute lease) = none

theorem reaches_routeOf :
    Reaches Any (routeOf n f lease) (.inl .nilPointer) ↔ Routeless n f lease := by
  cases isSet : n.getRoute f with
  | none => simp [routeOf, Routeless, isSet]
  | some getRoute => simp [routeOf, Routeless, isSet]

theorem returns_routeOf {route : Route} :
    Returns Any (routeOf n f lease) route ↔
      (n.getRoute f).bind (fun getRoute => getRoute lease) = some route := by
  cases isSet : n.getRoute f with
  | none => simp [routeOf, isSet]
  | some getRoute => simp [routeOf, isSet]

theorem not_reaches_routeAddMissing {route : Route} {fault : Fault} :
    ¬ Reaches Any (routeAddMissing f route) (.inl fault) := by
  simp only [routeAddMissing, routeListFiltered, reaches_bind, reaches_ask, reduceCtorEq, false_or,
    not_exists, not_and]
  intro routeList _
  split
  · simp
  · simp only [reaches_bind, reaches_ask, reduceCtorEq, false_or, not_exists, not_and]
    rintro (_ | _) _ <;> simp

theorem not_reaches_routeAdd {route : Route} {fault : Fault} :
    ¬ Reaches Any (routeAdd f route) (.inl fault) := by
  simp only [routeAdd, routeListFiltered, reaches_bind, reaches_ask, reduceCtorEq, false_or,
    not_exists, not_and]
  intro _ _ routeList _
  split
  · exact not_reaches_routeAddMissing
  · split
    · exact not_reaches_routeAddMissing
    · simp only [reaches_bind, reaches_ask, reduceCtorEq, false_or, not_exists, not_and]
      rintro (_ | _) _
      · simp
      · simp [not_reaches_routeAddMissing]

theorem returns_routeAdd {route : Route} : Returns Any (routeAdd f route) () := by
  refine (returns_bind _ _ _).mpr ⟨(), returns_ask.mpr trivial, ?_⟩
  refine (returns_bind _ _ _).mpr ⟨[], returns_ask.mpr trivial, ?_⟩
  refine (returns_bind _ _ _).mpr ⟨[], returns_ask.mpr trivial, ?_⟩
  exact (returns_bind _ _ _).mpr ⟨false, returns_ask.mpr trivial, rfl⟩

def treat (n : Network) (event : Event) (f : Family) : Proc Op Res Unit :=
  match event.type with
  | .added => addSubnet n f event.lease
  | .removed => removeSubnet n f event.lease

theorem reaches_treat :
    Reaches Any (treat n event f) (.inl .nilPointer) ↔
      f.enabled event.lease ∧ Routeless n f event.lease := by
  cases enabled : f.enabled event.lease with
  | false => cases type : event.type <;> simp [treat, type, addSubnet, removeSubnet, enabled]
  | true =>
    cases type : event.type with
    | added => simp [treat, type, addSubnet, enabled, reaches_routeOf, not_reaches_routeAdd]
    | removed => simp [treat, type, removeSubnet, enabled, reaches_routeOf]

theorem returns_treat (routed : f.enabled event.lease → ¬ Routeless n f event.lease) :
    Returns Any (treat n event f) () := by
  cases enabled : f.enabled event.lease with
  | false => cases type : event.type <;> simp [treat, type, addSubnet, removeSubnet, enabled]
  | true =>
    obtain ⟨route, isRoute⟩ := Option.ne_none_iff_exists'.mp (routed enabled)
    cases type : event.type with
    | added =>
      simp only [treat, type, addSubnet, enabled, if_true]
      exact (returns_bind _ _ _).mpr ⟨route, returns_routeOf.mpr isRoute, returns_routeAdd⟩
    | removed =>
      simp only [treat, type, removeSubnet, enabled, if_true]
      refine (returns_bind _ _ _).mpr ⟨route, returns_routeOf.mpr isRoute, ?_⟩
      refine (returns_bind _ _ _).mpr ⟨(), returns_ask.mpr trivial, ?_⟩
      exact (returns_bind _ _ _).mpr ⟨false, returns_ask.mpr trivial, rfl⟩

theorem reaches_handleSubnetEvents :
    Reaches Any (handleSubnetEvents n [event]) (.inl .nilPointer) ↔
      event.lease.attrs.backendType = n.backendType ∧
        ∃ f : Family, f.enabled event.lease ∧ Routeless n f event.lease := by
  have program : event.lease.attrs.backendType = n.backendType →
      handleSubnetEvent n event = treat n event .ipv4 >>= fun _ => treat n event .ipv6 := by
    intro same
    cases type : event.type <;> simp [handleSubnetEvent, same, treat, type]
  by_cases same : event.lease.attrs.backendType = n.backendType
  · rw [handleSubnetEvents, reaches_each_singleton, program same, reaches_bind, reaches_treat]
    simp only [same, true_and]
    constructor
    · rintro (first | ⟨_, _, second⟩)
      · exact ⟨.ipv4, first⟩
      · exact ⟨.ipv6, reaches_treat.mp second⟩
    · rintro ⟨f, bad⟩
      by_cases first : Family.ipv4.enabled event.lease ∧ Routeless n .ipv4 event.lease
      · exact .inl first
      · cases f with
        | ipv4 => exact absurd bad first
        | ipv6 => exact .inr ⟨(), returns_treat (not_and.mp first), reaches_treat.mpr bad⟩
  · simp [handleSubnetEvents, handleSubnetEvent, same]

end RouteNetwork

/-! ## The subnet managers -/

inductive Manager
  | etcd
  | kube
  deriving DecidableEq

/-- The leases that a manager delivers under a configuration. With etcd any node can have written
any key and any attributes. -/
def Manager.Delivers (manager : Manager) (config : Config) (lease : Lease) : Prop :=
  match manager with
  | .etcd =>
    (∃ key, Etcd.keySubnets key = some (lease.subnet, lease.ipv6Subnet)) ∧
      lease.enableIPv4 = true ∧ lease.enableIPv6 = !lease.ipv6Subnet.empty ∧
      ∀ ip6 ∈ lease.attrs.publicIPv6, ip6 < 2 ^ 128
  | .kube =>
    ∃ (ksm : Kube.KubeSubnetManager) (node : Kube.Node), ksm.enableIPv4 = config.enableIPv4 ∧
      ksm.enableIPv6 = config.enableIPv6 ∧ ksm.nodeToLease node = .ok lease

theorem delivers_of_kvToIPLease {config : Config} {kv : Etcd.KV} {ttl : Int} {now : Time}
    {lease : Lease} (listed : Etcd.kvToIPLease kv ttl now = some lease)
    (sized : ∀ ip6 ∈ lease.attrs.publicIPv6, ip6 < 2 ^ 128) : Manager.etcd.Delivers config lease := by
  simp only [Etcd.kvToIPLease, Option.bind_eq_bind, Option.bind_eq_some_iff, Option.some.injEq]
    at listed
  obtain ⟨⟨sn, sn6⟩, decoded, attrs, _, rfl⟩ := listed
  exact ⟨⟨kv.key, decoded⟩, rfl, rfl, sized⟩

theorem delivers_of_parseSubnetWatchResponse {config : Config} {answers : Etcd.Answers}
    {ev : Etcd.EtcdEvent} {event : Event} (parsed : Etcd.parseSubnetWatchResponse answers ev = .ok event)
    (sized : ∀ ip6 ∈ event.lease.attrs.publicIPv6, ip6 < 2 ^ 128) :
    Manager.etcd.Delivers config event.lease := by
  unfold Etcd.parseSubnetWatchResponse at parsed
  split at parsed
  · contradiction
  · rename_i sn sn6 decoded
    split at parsed
    · obtain rfl := Except.ok.inj parsed
      exact ⟨⟨ev.kv.key, decoded⟩, rfl, rfl, sized⟩
    · split at parsed
      · contradiction
      · contradiction
      · obtain rfl := Except.ok.inj parsed
        exact ⟨⟨ev.kv.key, decoded⟩, rfl, rfl, sized⟩

theorem complete_of_etcd {config : Config} {lease : Lease}
    (delivers : Manager.etcd.Delivers config lease) : Complete lease := by
  obtain ⟨⟨key, decoded⟩, _, enabled, sized⟩ := delivers
  have printable := Etcd.printable_of_keySubnets decoded
  refine ⟨⟨sized, ?_⟩, ?_⟩
  · intro ip6 isIp
    cases isEmpty : lease.ipv6Subnet.empty with
    | false =>
      obtain ⟨other, isOther, small⟩ := printable isEmpty
      obtain rfl := Option.some.inj (isOther.symm.trans isIp)
      exact small
    | true =>
      have isZero : ip6 = 0 := by
        have zero := (Bool.and_eq_true_iff.mp isEmpty).1
        rw [Option.mem_def.mp isIp] at zero
        simpa [Ip.isEmpty] using zero
      rw [isZero]
      exact Nat.two_pow_pos 128
  · intro on
    rw [enabled, Bool.not_eq_true'] at on
    obtain ⟨ip6, isIp, _⟩ := printable on
    rw [isIp, Option.isSome_some]

theorem exists_chosen {α : Type} {choose : IPNet → Option α} {texts : List String} {result : α}
    (found : Kube.findCidr choose texts = .ok (some result)) :
    ∃ network, choose network = some result := by
  induction texts with
  | nil => simp [Kube.findCidr] at found
  | cons text rest ih =>
    rw [Kube.findCidr] at found
    split at found
    · contradiction
    · rename_i network _
      split at found
      · rename_i chosen isChosen
        exact ⟨network, by rw [isChosen, Option.some.inj (Except.ok.inj found)]⟩
      · exact ih found

theorem exists_chosen_of_cidr {α : Type} {ksm : Kube.KubeSubnetManager} {node : Kube.Node}
    {choose : IPNet → Option α} {missing : String} {result : α}
    (found : ksm.cidr node choose missing = .ok result) :
    ∃ network, choose network = some result := by
  unfold Kube.KubeSubnetManager.cidr at found
  split_ifs at found
  all_goals
    obtain ⟨middle, isMiddle, isResult⟩ := bind_eq_ok_iff.mp found
    rcases middle with _ | chosen
    · contradiction
    obtain rfl := Except.ok.inj isResult
    first
      | exact exists_chosen isMiddle
      | contradiction

theorem complete_of_fillIPv6 {ksm : Kube.KubeSubnetManager} {node : Kube.Node} {before after : Lease}
    (off : before.enableIPv6 = false) (sized : Sized before)
    (filled : ksm.fillIPv6 node before = .ok after) : Complete after := by
  unfold Kube.KubeSubnetManager.fillIPv6 at filled
  split_ifs at filled with enabled
  · simp only [bind_eq_ok_iff] at filled
    obtain ⟨publicIPv6, parsed, subnet, found, result⟩ := filled
    obtain ⟨network, chosen⟩ := exists_chosen_of_cidr found
    obtain rfl : Ip.IP6Net.fromIP6Net network = subnet := by
      split_ifs at chosen
      exact Option.some.inj chosen
    have small : publicIPv6 < 2 ^ 128 := by
      unfold Ip.parseIP6 at parsed
      split at parsed
      · contradiction
      · obtain rfl := Except.ok.inj parsed
        exact BitVec.isLt _
    obtain rfl := Except.ok.inj result
    refine ⟨⟨?_, ?_⟩, fun _ => rfl⟩
    · intro ip6 isIp
      exact Option.some.inj isIp ▸ small
    · intro ip6 isIp
      exact Option.some.inj isIp ▸ BitVec.isLt _
  · obtain rfl := Except.ok.inj filled
    exact ⟨sized, fun on => absurd on (by simp [off])⟩

theorem sized_of_unset {lease : Lease} (noPublic : lease.attrs.publicIPv6 = none)
    (noSubnet : lease.ipv6Subnet.ip = none) : Sized lease := by
  constructor
  · simp [noPublic]
  · simp [noSubnet]

theorem complete_of_kube {config : Config} {lease : Lease}
    (delivers : Manager.kube.Delivers config lease) : Complete lease := by
  obtain ⟨ksm, node, _, _, converted⟩ := delivers
  simp only [Kube.KubeSubnetManager.nodeToLease, bind_eq_ok_iff] at converted
  obtain ⟨first, ipv4, second, ipv6, result⟩ := converted
  have untouched : first.enableIPv6 = false ∧ Sized first := by
    unfold Kube.KubeSubnetManager.fillIPv4 at ipv4
    split_ifs at ipv4
    · simp only [bind_eq_ok_iff] at ipv4
      obtain ⟨publicIP, _, subnet, _, result⟩ := ipv4
      obtain rfl := Except.ok.inj result
      exact ⟨rfl, sized_of_unset rfl rfl⟩
    · obtain rfl := Except.ok.inj ipv4
      exact ⟨rfl, sized_of_unset rfl rfl⟩
  obtain ⟨⟨sized4, sized6⟩, set⟩ := complete_of_fillIPv6 untouched.1 untouched.2 ipv6
  obtain rfl := Except.ok.inj result
  exact ⟨⟨sized4, sized6⟩, set⟩

theorem Manager.Delivers.complete {manager : Manager} {config : Config} {lease : Lease}
    (delivers : manager.Delivers config lease) : Complete lease := by
  cases manager with
  | etcd => exact complete_of_etcd delivers
  | kube => exact complete_of_kube delivers

/-! ## The backends -/

inductive Network
  | ipip (linkIndex extIndex : Nat) (direct : Net.IP → Bool)
  | hostgw (linkIndex : Nat)
  | vxlan (further : Nat) (dev v6Dev : Vxlan.VxlanDevice)
  | wireguard (parseKey : String → Option Wireguard.Key) (cfg : Wireguard.BackendConfig)
      (extIface : Wireguard.ExternalInterface) (index indexV6 : Nat)

def vxlanNetwork (config : Config) (dev v6Dev : Vxlan.VxlanDevice) : Vxlan.Network :=
  ⟨if config.enableIPv4 then some dev else none, if config.enableIPv6 then some v6Dev else none⟩

/-- Handling the event can dereference a nil pointer or call a nil function; `netconf` is
what `GetNetworkConfig` returns. -/
def Network.MeetsNil (config : Config) (netconf : Option Config) (event : Event) : Network → Prop
  | .ipip linkIndex extIndex direct =>
    Reaches Any (RouteNetwork.handleSubnetEvents (RouteNetwork.ipip linkIndex extIndex direct)
      [event]) (.inl .nilPointer)
  | .hostgw linkIndex =>
    Reaches Any (RouteNetwork.handleSubnetEvents
      (RouteNetwork.hostgw (fun f => f.configured config) linkIndex) [event]) (.inl .nilPointer)
  | .vxlan further dev v6Dev =>
    Reaches Any (Vxlan.handleSubnetEvents further (vxlanNetwork config dev v6Dev) [event])
      (.inl .nilPointer)
  | .wireguard parseKey cfg extIface index indexV6 =>
    Reaches (Wireguard.Reads netconf) (Wireguard.handleSubnetEvents parseKey
      (Wireguard.registered cfg config extIface index indexV6) [event]) (.inl .nilPointer)

def Served (config : Config) (lease : Lease) : Prop :=
  ∀ f : Family, f.enabled lease = true →
    f.configured config = true ∧ f.publicIP lease.attrs ≠ none

def Network.Suits (config : Config) (netconf : Option Config) (event : Event) : Network → Prop
  | .ipip _ _ _ => event.lease.attrs.backendType ≠ "ipip" ∨ event.lease.enableIPv6 = false
  | .hostgw _ => event.lease.attrs.backendType ≠ "host-gw" ∨ Served config event.lease
  | .vxlan _ dev v6Dev =>
    Vxlan.Ignored (vxlanNetwork config dev v6Dev) event.lease ∨ Served config event.lease
  | .wireguard _ cfg extIface _ _ =>
    event.type = .removed ∨ event.lease.attrs.backendType ≠ "wireguard" ∨
      Wireguard.Undecodable event.lease ∨
      if cfg.mode = .separate then
        ∀ f : Family, f.enabled event.lease = true →
          f.configured config = true ∧ Wireguard.HasNetwork f netconf
      else
        Wireguard.HasNetwork .ipv6 netconf ∨
          cfg.mode = .auto ∧ Wireguard.Stops extIface event.lease.attrs

section Backends

variable {config : Config} {netconf : Option Config} {event : Event}

theorem hostgw_routeless {linkIndex : Nat} {f : Family} (complete : Complete event.lease)
    (enabled : f.enabled event.lease) :
    RouteNetwork.Routeless (RouteNetwork.hostgw (fun f => f.configured config) linkIndex) f
        event.lease ↔
      ¬ (f.configured config ∧ f.publicIP event.lease.attrs ≠ none) := by
  obtain ⟨network, isNetwork⟩ := complete.exists_network (complete.isSet enabled)
  cases on : f.configured config with
  | false => simp [RouteNetwork.Routeless, RouteNetwork.hostgw, on]
  | true =>
    cases isPublic : f.publicIP event.lease.attrs <;>
      simp [RouteNetwork.Routeless, RouteNetwork.hostgw, on, RouteNetwork.hostgwRoute, isNetwork,
        isPublic]

theorem vxlan_device_eq_none {dev v6Dev : Vxlan.VxlanDevice} {f : Family} :
    (vxlanNetwork config dev v6Dev).device f = none ↔ ¬ f.configured config := by
  cases f <;> simp [vxlanNetwork, Vxlan.Network.device, Family.configured]

variable {cfg : Wireguard.BackendConfig} {extIface : Wireguard.ExternalInterface}

theorem wireguard_meets {index indexV6 : Nat} :
    ¬ Wireguard.Meets (Wireguard.registered cfg config extIface index indexV6) netconf event.lease ↔
      if cfg.mode = .separate then
        ∀ f : Family, f.enabled event.lease →
          f.configured config ∧ Wireguard.HasNetwork f netconf
      else
        Wireguard.HasNetwork .ipv6 netconf ∨
          cfg.mode = .auto ∧ Wireguard.Stops extIface event.lease.attrs := by
  have isMode : (Wireguard.registered cfg config extIface index indexV6).mode = cfg.mode := rfl
  by_cases separate : cfg.mode = .separate
  · have device : ∀ f : Family,
        (Wireguard.registered cfg config extIface index indexV6).device f = none ↔
          ¬ f.configured config := by
      intro f
      cases f <;> simp [Wireguard.registered, Wireguard.Network.device, Family.configured, separate]
    simp only [Wireguard.Meets, isMode, separate, if_true, device, not_exists, not_and, not_or,
      not_not]
  · rw [Wireguard.Meets, isMode, if_neg separate, if_neg separate, not_and, not_not]
    constructor
    · intro good
      by_cases stops : cfg.mode = .auto ∧ Wireguard.Stops extIface event.lease.attrs
      · exact .inr stops
      · exact .inl (good stops)
    · exact fun good notStopped => good.resolve_right notStopped

theorem shared_device {index indexV6 : Nat}
    (shared : (Wireguard.registered cfg config extIface index indexV6).mode ≠ .separate) :
    (Wireguard.registered cfg config extIface index indexV6).dev ≠ none := by
  have mode : cfg.mode ≠ .separate := shared
  simp [Wireguard.registered, mode]

theorem separate_device (families : config.enableIPv4 ∨ config.enableIPv6) {index indexV6 : Nat}
    (separate : (Wireguard.registered cfg config extIface index indexV6).mode = .separate) :
    (Wireguard.registered cfg config extIface index indexV6).dev ≠ none ∨
      (Wireguard.registered cfg config extIface index indexV6).v6Dev ≠ none := by
  have mode : cfg.mode = .separate := separate
  rcases families with on | on <;> simp [Wireguard.registered, mode, on]

/-- Under every configuration of at least one family, for every backend and every event
that a subnet manager can deliver: handling the event meets no nil pointer exactly if
the backend suits the event. -/
theorem survives_iff_suits (families : config.enableIPv4 = true ∨ config.enableIPv6 = true)
    {manager : Manager} (delivers : manager.Delivers config event.lease) (network : Network) :
    ¬ network.MeetsNil config netconf event ↔ network.Suits config netconf event := by
  have complete := delivers.complete
  cases network with
  | ipip linkIndex extIndex direct =>
    rw [Network.MeetsNil, Network.Suits, RouteNetwork.reaches_handleSubnetEvents,
      not_and_or]
    apply or_congr Iff.rfl
    constructor
    · intro routed
      apply Bool.eq_false_of_not_eq_true
      exact fun on => routed ⟨.ipv6, on, rfl⟩
    · rintro off ⟨_ | _, enabled, routeless⟩
      · exact absurd routeless (Option.some_ne_none _)
      · exact absurd enabled (by simp [Family.enabled, off])
  | hostgw linkIndex =>
    rw [Network.MeetsNil, Network.Suits, RouteNetwork.reaches_handleSubnetEvents,
      not_and_or]
    apply or_congr Iff.rfl
    simp only [Served, not_exists, not_and]
    refine forall_congr' fun f => forall_congr' fun enabled => ?_
    rw [hostgw_routeless complete enabled, not_not]
  | vxlan further dev v6Dev =>
    rw [Network.MeetsNil, Network.Suits, Vxlan.reaches_handleSubnetEvents complete, not_and_or,
      not_not]
    apply or_congr Iff.rfl
    simp only [Served, not_exists, not_and]
    refine forall_congr' fun f => forall_congr' fun _ => ?_
    rw [vxlan_device_eq_none, not_or, not_not]
  | wireguard parseKey cfg extIface index indexV6 =>
    rw [Network.MeetsNil, Network.Suits,
      Wireguard.reaches_handleSubnetEvents complete (shared_device ·) (separate_device families ·),
      not_and_or, not_and_or, not_and_or, wireguard_meets, not_not]
    apply or_congr _ Iff.rfl
    cases event.type <;> simp

end Backends

def dualLease : Lease := Wireguard.dualLease {} Wireguard.nodeB 0x0a010200 0xc0a80002

theorem dualLease_delivers : Manager.etcd.Delivers Wireguard.dualConfig dualLease := by
  refine ⟨⟨"/coreos.com/network/subnets/10.1.2.0-24&fc00:0:0:1::-64", by decide⟩, rfl,
    by decide, ?_⟩
  simp [dualLease, Wireguard.dualLease, Wireguard.publishedAttrs, Wireguard.nodeB, Ip.fromIP6,
    IP.to16]

theorem dual_stack_survives :
    Manager.etcd.Delivers Wireguard.dualConfig dualLease ∧
      ¬ (Network.wireguard Wireguard.oneKey {} Wireguard.nodeA 7 8).MeetsNil Wireguard.dualConfig
        (some Wireguard.dualConfig) ⟨.added, dualLease⟩ := by
  refine ⟨dualLease_delivers, (survives_iff_suits (.inl rfl) dualLease_delivers _).mpr ?_⟩
  refine .inr (.inr (.inr ?_))
  rintro (_ | _) _
  · exact ⟨rfl, Option.some_ne_none _⟩
  · exact ⟨rfl, Option.some_ne_none _⟩

def autoMode : Wireguard.BackendConfig where
  mode := .auto

def ipv4Lease (extIface : Wireguard.ExternalInterface) (subnet publicIP : Ip.IP4) : Lease where
  enableIPv4 := true
  enableIPv6 := false
  subnet := ⟨subnet, 24⟩
  ipv6Subnet := Ip.IP6Net.zero
  attrs := Wireguard.publishedAttrs autoMode Wireguard.ipv4Config extIface publicIP "key"
  expiration := 0
  asof := 0

/-- With IPv4 alone and the mode `auto`, a node is registered and then does not survive
the lease of another node, which is registered under the same configuration. -/
theorem ipv4_only_auto_crashes :
    Returns (Wireguard.Genuine Wireguard.oneKey)
        (Wireguard.registerNetwork autoMode Wireguard.ipv4Config ⟨some (.v4 0xc0a80001), none⟩)
        (some (Wireguard.registered autoMode Wireguard.ipv4Config ⟨some (.v4 0xc0a80001), none⟩ 7 8,
          ipv4Lease ⟨some (.v4 0xc0a80001), none⟩ 0x0a010100 0xc0a80001)) ∧
      Returns (Wireguard.Genuine Wireguard.oneKey)
        (Wireguard.registerNetwork autoMode Wireguard.ipv4Config ⟨some (.v4 0xc0a80002), none⟩)
        (some (Wireguard.registered autoMode Wireguard.ipv4Config ⟨some (.v4 0xc0a80002), none⟩ 7 8,
          ipv4Lease ⟨some (.v4 0xc0a80002), none⟩ 0x0a010200 0xc0a80002)) ∧
      Manager.etcd.Delivers Wireguard.ipv4Config
        (ipv4Lease ⟨some (.v4 0xc0a80002), none⟩ 0x0a010200 0xc0a80002) ∧
      (Network.wireguard Wireguard.oneKey autoMode ⟨some (.v4 0xc0a80001), none⟩ 7 8).MeetsNil
        Wireguard.ipv4Config (some Wireguard.ipv4Config)
        ⟨.added, ipv4Lease ⟨some (.v4 0xc0a80002), none⟩ 0x0a010200 0xc0a80002⟩ := by
  have delivers : Manager.etcd.Delivers Wireguard.ipv4Config
      (ipv4Lease ⟨some (.v4 0xc0a80002), none⟩ 0x0a010200 0xc0a80002) :=
    ⟨⟨"/coreos.com/network/subnets/10.1.2.0-24", by decide⟩, rfl, rfl,
      by simp [ipv4Lease, Wireguard.publishedAttrs]⟩
  have decodes : ¬ Wireguard.Undecodable
      (ipv4Lease ⟨some (.v4 0xc0a80002), none⟩ 0x0a010200 0xc0a80002) := by
    rintro ⟨_ | _, on, undecoded⟩
    · exact absurd ((Wireguard.unmarshalAttrs_marshalAttrs _).symm.trans undecoded)
        (Option.some_ne_none _)
    · exact absurd on Bool.false_ne_true
  refine ⟨?_, ?_, delivers, ?_⟩
  · exact Wireguard.registerNetwork_returns (.inl rfl) rfl rfl rfl (fun _ => rfl)
      (fun on => absurd on Bool.false_ne_true) 7 8
  · exact Wireguard.registerNetwork_returns (.inl rfl) rfl rfl rfl (fun _ => rfl)
      (fun on => absurd on Bool.false_ne_true) 7 8
  · rw [Network.MeetsNil, Wireguard.reaches_handleSubnetEvents delivers.complete
      (shared_device ·) (separate_device (.inl rfl) ·)]
    refine ⟨rfl, rfl, decodes, ?_⟩
    rw [Wireguard.Meets, if_neg (by decide)]
    refine ⟨?_, fun has => has rfl⟩
    rintro ⟨_, _, ip6, isIp, _⟩
    exact absurd isIp.symm (Option.some_ne_none _)

end Flannel.Backend
