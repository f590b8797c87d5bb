import Flannel.Wireguard.Register

/-!
# The ports that peers dial

One node publishes its key and both ports; another configures a peer for it. The port of that
endpoint is to be the one on which the device of the same name listens. In the modes with one
device, an endpoint of IPv6 carries the port of the device that only exists in the mode
`separate`.
-/

namespace Flannel.Wireguard

open Backend Leases Net Program Subnet Text

def Network.named (n : Network) (name : String) : Option WgDevice :=
  (n.dev.toList ++ n.v6Dev.toList).find? fun dev => dev.name == name

/-- Every peer that `a` configures for the announced lease has an endpoint with the
port of the device of `b` that has the name of the device of `a`. -/
def Dials (parseKey : String → Option Key) (a b : Network) (lease : Lease) : Prop :=
  ∀ name peer,
    Reaches Any (handleSubnetEvents parseKey a [⟨.added, lease⟩]) (.inr (.configureDevice name peer)) →
      ∃ endpoint dev, peer.endpoint = some endpoint ∧ b.named name = some dev ∧
        endpoint.port = dev.listenPort

/-- The lease that other nodes are told of: it has the families that were enabled, and the
backend's data as published. -/
structure Delivered (config : Config) (attrs : LeaseAttrs) (lease : Lease) : Prop where
  ipv4 : config.enableIPv4 = true → lease.enableIPv4 = true
  ipv6 : config.enableIPv6 = true → lease.enableIPv6 = true
  set : lease.enableIPv6 = true → lease.ipv6Subnet.ip.isSome = true
  sized : Sized lease
  backendType : lease.attrs.backendType = attrs.backendType
  backendData : lease.attrs.backendData = attrs.backendData
  backendV6Data : lease.attrs.backendV6Data = attrs.backendV6Data

/-! ## Requests of the parts of the handler -/

section Requests

variable {allowed : (op : Op) → Res op → Prop} {parseKey : String → Option Key} {name : String}
  {peer : PeerConfig}

theorem reaches_addPeer {dev : Option WgDevice} {endpoint raw : String} {subnets : List IPNet} :
    Reaches Any (addPeer parseKey dev endpoint raw subnets) (.inr (.configureDevice name peer)) ↔
      ∃ udp key d, resolveUDPAddr endpoint = some udp ∧ parseKey raw = some key ∧ dev = some d ∧
        name = d.name ∧ peer = { publicKey := key, endpoint := some udp, allowedIPs := subnets } := by
  cases resolves : resolveUDPAddr endpoint with
  | none => simp [addPeer, resolves]
  | some udp =>
    cases parses : parseKey raw with
    | none => simp [addPeer, resolves, parses]
    | some key =>
      cases dev with
      | none => simp [addPeer, resolves, parses]
      | some d =>
        simp [addPeer, resolves, parses, newClient, configureDevice, Any]

theorem returns_addPeer {dev : WgDevice} {endpoint raw : String} {subnets : List IPNet} :
    ∃ done, Returns Any (addPeer parseKey (some dev) endpoint raw subnets) done := by
  cases resolves : resolveUDPAddr endpoint with
  | none => exact ⟨false, by simp [addPeer, resolves]⟩
  | some udp =>
    cases parses : parseKey raw with
    | none => exact ⟨false, by simp [addPeer, resolves, parses]⟩
    | some key => exact ⟨false, by simp [addPeer, resolves, parses, newClient, configureDevice, Any]⟩

theorem not_reaches_addNetworkRoute {dev : Option WgDevice} {f : Family} {netconf : Option Config} :
    ¬ Reaches allowed (addNetworkRoute dev f netconf) (.inr (.configureDevice name peer)) := by
  simp [addNetworkRoute, addRoute, routeReplace]

theorem reaches_addSeparate {n : Network} {f : Family} {lease : Lease} {attrs : WireguardLeaseAttrs}
    {endpoint : String} :
    Reaches Any (addSeparate parseKey n f lease attrs endpoint) (.inr (.configureDevice name peer)) ↔
      f.enabled lease ∧ ∃ subnet, f.network lease = some subnet ∧
        Reaches Any (addPeer parseKey (n.device f) endpoint attrs.publicKey [subnet])
          (.inr (.configureDevice name peer)) := by
  cases enabled : f.enabled lease with
  | false => simp [addSeparate, enabled]
  | true =>
    cases network : f.network lease with
    | none => simp [addSeparate, enabled, network]
    | some subnet =>
      simp [addSeparate, enabled, network, getNetworkConfig, not_reaches_addNetworkRoute]

def someConfig : Config :=
  ⟨true, true, ⟨0, 0⟩, ⟨some 0, 0⟩, 0, 0, none, none, 0, 0⟩

theorem returns_addSeparate_ipv4 {n : Network} {lease : Lease} {attrs : WireguardLeaseAttrs}
    {endpoint : String} {result : Unit} :
    Returns Any (addSeparate parseKey n .ipv4 lease attrs endpoint) result ↔
      (lease.enableIPv4 → n.dev ≠ none) := by
  cases enabled : lease.enableIPv4 with
  | false => simp [addSeparate, Family.enabled, enabled]
  | true =>
    cases isDev : n.dev with
    | none =>
      simp [addSeparate, Family.enabled, enabled, Network.device, isDev, addNetworkRoute, addRoute]
    | some dev =>
      obtain ⟨done, returns⟩ := @returns_addPeer parseKey dev endpoint attrs.publicKey
        [lease.subnet.toIPNet]
      refine iff_of_true ?_ (by simp)
      simp only [addSeparate, Family.enabled, enabled, Network.device, isDev, Family.network,
        if_true, returns_bind, returns_deref, getNetworkConfig, returns_ask]
      refine ⟨_, rfl, done, returns, some someConfig, trivial, ?_⟩
      simp [addNetworkRoute, flannelNetwork, addRoute, routeReplace, Any]

end Requests

def SelectsIPv6 (extIface : ExternalInterface) (attrs : LeaseAttrs) : Prop :=
  (attrs.publicIP.isPrivate = true ∨ extIface.extAddr = none) ∧
    (∃ ip6, attrs.publicIPv6 = some ip6 ∧ Ip.IP6.isPrivate ip6 = some false) ∧
    ∃ ext, extIface.extV6Addr = some ext ∧ Ip.IP6.isPrivate (Ip.fromIP6 ext) = some false

theorem not_reaches_modeFor {n : Network} {attrs : LeaseAttrs} {op : Op} :
    ¬ Reaches Any (n.modeFor attrs) (.inr op) := by
  have noRequest : ∀ ip6, ¬ Reaches Any (isPrivate ip6) (.inr op) := by
    intro ip6
    rw [isPrivate]
    split <;> simp
  rw [Network.modeFor]
  split
  · simp
  · cases attrs.publicIPv6 with
    | none => simp [Network.selectMode]
    | some ip6 =>
      simp only [Network.selectMode]
      split
      · simp
      · simp only [reaches_bind, noRequest, false_or, not_exists, not_and]
        rintro (_ | _) _
        · cases n.extV6Addr with
          | none => simp
          | some ext =>
            simp only [Bool.false_eq_true, if_false, reaches_bind, noRequest, false_or,
              not_exists, not_and]
            rintro (_ | _) _ <;> simp
        · simp

theorem returns_selectMode {n : Network} {attrs : LeaseAttrs} :
    Returns Any (n.selectMode attrs.publicIP attrs.publicIPv6) .ipv6 ↔
      SelectsIPv6 ⟨n.extAddr, n.extV6Addr⟩ attrs := by
  cases isSet : attrs.publicIPv6 with
  | none => simp [Network.selectMode, SelectsIPv6, isSet]
  | some ip6 =>
    by_cases direct : (!attrs.publicIP.isPrivate && n.extAddr != none)
    · have public_ := direct
      simp only [Bool.and_eq_true, Bool.not_eq_true', bne_iff_ne, ne_eq] at public_
      simp [Network.selectMode, SelectsIPv6, public_]
    · have private_ : attrs.publicIP.isPrivate ∨ n.extAddr = none := by
        simpa [Classical.or_iff_not_imp_left] using direct
      cases isExt : n.extV6Addr with
      | none =>
        simp [Network.selectMode, SelectsIPv6, direct, isExt, returns_isPrivate]
      | some ext =>
        simp [Network.selectMode, SelectsIPv6, direct, isExt, returns_isPrivate, isSet, private_]

/-! ## What is read of the published data -/

def v4Attrs (cfg : BackendConfig) (config : Config) (publicKey : String) : WireguardLeaseAttrs :=
  if config.enableIPv4 then ⟨publicKey, .ofNat cfg.listenPort⟩ else {}

def v6Attrs (cfg : BackendConfig) (config : Config) (publicKey : String) : WireguardLeaseAttrs :=
  if config.enableIPv6 then ⟨publicKey, .ofNat cfg.listenPortV6⟩ else {}

section Published

variable {parseKey : String → Option Key} {cfg : BackendConfig} {config : Config}
  {publicKey : String} {attrs : LeaseAttrs} {lease : Lease}

theorem decode_eq {f : Family} {published : Bool} {attrs : WireguardLeaseAttrs}
    (on : published → f.enabled lease)
    (hasNetwork : f.enabled lease → ∃ network, f.network lease = some network)
    (data : f.backendData lease.attrs = if published then marshalAttrs attrs else "") :
    ∃ subnets, decode f lease = .ret (some (if published then attrs else {}, subnets)) := by
  cases enabled : f.enabled lease with
  | false =>
    cases published with
    | false => exact ⟨[], by simp [decode, enabled]⟩
    | true => exact absurd (on rfl) (by simp [enabled])
  | true =>
    obtain ⟨network, isNetwork⟩ := hasNetwork enabled
    refine ⟨[network], ?_⟩
    have decoded : unmarshalAttrs {} (f.backendData lease.attrs) =
        some (if published then attrs else {}) := by
      rw [data]
      cases published with
      | false => rfl
      | true => exact unmarshalAttrs_marshalAttrs attrs
    simp only [decode, enabled, decoded, isNetwork, if_true]
    rfl

theorem Delivered.decode_ipv4 (delivered : Delivered config attrs lease)
    (publishes : Publishes parseKey cfg config publicKey attrs) :
    ∃ subnets, decode .ipv4 lease = .ret (some (v4Attrs cfg config publicKey, subnets)) := by
  apply decode_eq (f := .ipv4) delivered.ipv4 fun _ => ⟨_, rfl⟩
  rw [Family.backendData, delivered.backendData, publishes.backendData]
  split <;> rfl

theorem Delivered.exists_network6 (delivered : Delivered config attrs lease)
    (enabled : lease.enableIPv6) : ∃ network, Family.ipv6.network lease = some network := by
  apply delivered.sized.exists_network
  rw [Family.isSet, bne_iff_ne]
  exact Option.isSome_iff_ne_none.mp (delivered.set enabled)

theorem Delivered.decode_ipv6 (delivered : Delivered config attrs lease)
    (publishes : Publishes parseKey cfg config publicKey attrs) :
    ∃ subnets, decode .ipv6 lease = .ret (some (v6Attrs cfg config publicKey, subnets)) := by
  apply decode_eq (f := .ipv6) delivered.ipv6 delivered.exists_network6
  rw [Family.backendData, delivered.backendV6Data, publishes.backendV6Data]
  split <;> rfl

end Published

/-! ## Agreement -/

structure BackendConfig.Usable (cfg : BackendConfig) : Prop where
  listenPort : 0 < cfg.listenPort ∧ cfg.listenPort < 65536
  listenPortV6 : 0 < cfg.listenPortV6 ∧ cfg.listenPortV6 < 65536
  distinct : cfg.listenPort ≠ cfg.listenPortV6

theorem toNat_peerPort {port : Nat} (usable : 0 < port ∧ port < 65536) (publicKey : String)
    (dev : Option WgDevice) : (peerPort ⟨publicKey, .ofNat port⟩ dev).toNat = port := by
  have value : (UInt16.ofNat port).toNat = port := UInt16.toNat_ofNat_of_lt' usable.2
  have nonzero : UInt16.ofNat port ≠ 0 := by
    intro isZero
    rw [isZero] at value
    exact absurd value (Nat.ne_of_lt usable.1)
  rw [peerPort, if_neg nonzero, value]

section Agreement

variable {parseKey : String → Option Key} {cfg : BackendConfig} {config : Config}
  {publicKey : String} {attrs : LeaseAttrs} {lease : Lease} {extA extB : ExternalInterface}
  {indexA indexA6 indexB indexB6 : Nat}

theorem named_flannelWg :
    (registered cfg config extB indexB indexB6).named "flannel-wg" =
      (registered cfg config extB indexB indexB6).dev := by
  simp only [Network.named, registered]
  split_ifs <;> simp

theorem named_flannelWgV6 :
    (registered cfg config extB indexB indexB6).named "flannel-wg-v6" =
      (registered cfg config extB indexB indexB6).v6Dev := by
  simp only [Network.named, registered]
  split_ifs <;> simp

theorem reaches_separate {n : Network} (separate : n.mode = .separate)
    (publishes : Publishes parseKey cfg config publicKey attrs)
    (delivered : Delivered config attrs lease) :
    ∃ text udp, resolveUDPAddr text = some udp ∧
      udp.port = (if lease.attrs.publicIPv6 = none then 0
        else (peerPort (v6Attrs cfg config publicKey) n.v6Dev).toNat) ∧
      ∀ name peer, Reaches Any (handleSubnetEvents parseKey n [⟨.added, lease⟩])
          (.inr (.configureDevice name peer)) ↔
        Reaches Any (addSeparate parseKey n .ipv4 lease (v4Attrs cfg config publicKey)
          (v4PeerEndpoint lease.attrs (peerPort (v4Attrs cfg config publicKey) n.dev)))
          (.inr (.configureDevice name peer)) ∨
        (lease.enableIPv4 → n.dev ≠ none) ∧
          Reaches Any (addSeparate parseKey n .ipv6 lease (v6Attrs cfg config publicKey) text)
            (.inr (.configureDevice name peer)) := by
  obtain ⟨subnets4, decodes4⟩ := delivered.decode_ipv4 publishes
  obtain ⟨subnets6, decodes6⟩ := delivered.decode_ipv6 publishes
  obtain ⟨text, udp, isText, resolves, isPort⟩ := exists_resolved_v6PeerEndpoint
    delivered.sized.publicIPv6 (peerPort (v6Attrs cfg config publicKey) n.v6Dev)
  have type : lease.attrs.backendType = "wireguard" :=
    delivered.backendType.trans publishes.backendType
  refine ⟨text, udp, resolves, isPort, fun name peer => ?_⟩
  simp only [handleSubnetEvents, reaches_each_singleton, handleSubnetEvent, type, addSubnet,
    decodes4, decodes6, isText, separate, Prog.ret_bind, ne_eq, not_true, if_false, if_true,
    reaches_bind, returns_addSeparate_ipv4, exists_const]

theorem dials_separate_iff (usable : cfg.Usable) (separate : cfg.mode = .separate)
    (publishes : Publishes parseKey cfg config publicKey attrs)
    (delivered : Delivered config attrs lease) :
    Dials parseKey (registered cfg config extA indexA indexA6)
        (registered cfg config extB indexB indexB6) lease ↔
      (config.enableIPv6 → (lease.enableIPv4 → config.enableIPv4) →
        lease.attrs.publicIPv6 ≠ none) := by
  have isMode : (registered cfg config extA indexA indexA6).mode = .separate := separate
  obtain ⟨text, udp, resolves, isPort, requests⟩ := reaches_separate isMode publishes delivered
  constructor
  · intro dials on only4 isNone
    obtain ⟨key, isKey⟩ := Option.isSome_iff_exists.mp (publishes.parses (.inr on))
    obtain ⟨network, isNetwork⟩ := delivered.exists_network6 (delivered.ipv6 on)
    have reaches : Reaches Any (handleSubnetEvents parseKey
        (registered cfg config extA indexA indexA6) [⟨.added, lease⟩])
        (.inr (.configureDevice "flannel-wg-v6"
          { publicKey := key, endpoint := some udp, allowedIPs := [network] })) := by
      rw [requests]
      refine .inr ⟨fun enabled => by simp [registered, only4 enabled], ?_⟩
      rw [reaches_addSeparate]
      refine ⟨delivered.ipv6 on, network, isNetwork, ?_⟩
      rw [reaches_addPeer]
      exact ⟨udp, key, ⟨"flannel-wg-v6", indexA6, cfg.listenPortV6⟩, resolves,
        by simp [v6Attrs, on, isKey], by simp [Network.device, registered, separate, on], rfl, rfl⟩
    obtain ⟨endpoint, dev, isEndpoint, isNamed, same⟩ := dials _ _ reaches
    obtain rfl := Option.some.inj isEndpoint
    rw [named_flannelWgV6] at isNamed
    obtain rfl : ⟨"flannel-wg-v6", indexB6, cfg.listenPortV6⟩ = dev := by
      simpa [registered, separate, on] using isNamed
    rw [isPort, if_pos isNone] at same
    exact absurd same (Nat.ne_of_lt usable.listenPortV6.1)
  · intro cond name peer reaches
    rcases (requests name peer).mp reaches with first | ⟨passed, second⟩
    · obtain ⟨_, _, _, adds⟩ := reaches_addSeparate.mp first
      rw [reaches_addPeer] at adds
      obtain ⟨udp4, key, dev, resolves4, _, isDev, rfl, rfl⟩ := adds
      rw [resolveUDPAddr_v4PeerEndpoint] at resolves4
      obtain ⟨on, rfl⟩ : config.enableIPv4 ∧
          ⟨"flannel-wg", indexA, cfg.listenPort⟩ = dev := by
        simpa [Network.device, registered, separate] using isDev
      refine ⟨_, ⟨"flannel-wg", indexB, cfg.listenPort⟩, rfl, ?_, ?_⟩
      · rw [named_flannelWg]
        simp [registered, on]
      · rw [← Option.some.inj resolves4, v4Attrs, if_pos on, toNat_peerPort usable.listenPort]
    · obtain ⟨_, _, _, adds⟩ := reaches_addSeparate.mp second
      rw [reaches_addPeer] at adds
      obtain ⟨udp6, key, dev, resolves6, _, isDev, rfl, rfl⟩ := adds
      obtain ⟨on, rfl⟩ : config.enableIPv6 ∧
          ⟨"flannel-wg-v6", indexA6, cfg.listenPortV6⟩ = dev := by
        simpa [Network.device, registered, separate] using isDev
      have only4 : lease.enableIPv4 → config.enableIPv4 := by
        simpa [registered, separate] using passed
      refine ⟨_, ⟨"flannel-wg-v6", indexB6, cfg.listenPortV6⟩, rfl, ?_, ?_⟩
      · rw [named_flannelWgV6]
        simp [registered, separate, on]
      · rw [← Option.some.inj (resolves.symm.trans resolves6), isPort, if_neg (cond on only4), v6Attrs,
          if_pos on, toNat_peerPort usable.listenPortV6]

def Peered (config : Config) (lease : Lease) : Prop :=
  (lease.enableIPv6 = true → config.enableIPv6 = true) ∧
    (config.enableIPv4 = true ∨ config.enableIPv6 = true)

theorem exists_key_iff_peered (noKey : parseKey "" = none)
    (publishes : Publishes parseKey cfg config publicKey attrs)
    (delivered : Delivered config attrs lease) :
    (∃ key, parseKey (if lease.enableIPv6 then v6Attrs cfg config publicKey
        else v4Attrs cfg config publicKey).publicKey = some key) ↔ Peered config lease := by
  have parses := fun on => Option.isSome_iff_exists.mp (publishes.parses on)
  have off6 : lease.enableIPv6 = false → config.enableIPv6 = false := by
    intro off
    apply Bool.eq_false_of_not_eq_true
    exact fun on => absurd (delivered.ipv6 on) (by simp [off])
  cases enabled : lease.enableIPv6 with
  | true =>
    cases on : config.enableIPv6 with
    | true => simpa [v6Attrs, on, Peered, enabled] using parses (.inr on)
    | false => simp [v6Attrs, on, Peered, enabled, noKey]
  | false =>
    cases on : config.enableIPv4 with
    | true => simpa [v4Attrs, on, Peered, enabled] using parses (.inl on)
    | false => simp [v4Attrs, on, Peered, enabled, noKey, off6 enabled]

theorem reaches_shared {n : Network} (shared : n.mode ≠ .separate)
    (publishes : Publishes parseKey cfg config publicKey attrs)
    (delivered : Delivered config attrs lease) :
    ∃ text udp subnets, resolveUDPAddr text = some udp ∧
      udp.port = (if lease.attrs.publicIPv6 = none then 0
        else (peerPort (v6Attrs cfg config publicKey) n.v6Dev).toNat) ∧
      ∀ name peer, Reaches Any (handleSubnetEvents parseKey n [⟨.added, lease⟩])
          (.inr (.configureDevice name peer)) ↔
        ∃ mode, Returns Any (n.modeFor lease.attrs) mode ∧
          Reaches Any (addPeer parseKey n.dev
            (if mode = .ipv6 then text
              else v4PeerEndpoint lease.attrs (peerPort (v4Attrs cfg config publicKey) n.dev))
            (if lease.enableIPv6 then v6Attrs cfg config publicKey
              else v4Attrs cfg config publicKey).publicKey subnets)
            (.inr (.configureDevice name peer)) := by
  obtain ⟨subnets4, decodes4⟩ := delivered.decode_ipv4 publishes
  obtain ⟨subnets6, decodes6⟩ := delivered.decode_ipv6 publishes
  obtain ⟨text, udp, isText, resolves, isPort⟩ := exists_resolved_v6PeerEndpoint
    delivered.sized.publicIPv6 (peerPort (v6Attrs cfg config publicKey) n.v6Dev)
  have type : lease.attrs.backendType = "wireguard" :=
    delivered.backendType.trans publishes.backendType
  refine ⟨text, udp, subnets4 ++ subnets6, resolves, isPort, fun name peer => ?_⟩
  simp only [handleSubnetEvents, reaches_each_singleton, handleSubnetEvent, type, addSubnet,
    decodes4, decodes6, isText, shared, Prog.ret_bind, ne_eq, not_true, if_false, addShared,
    reaches_bind, not_reaches_modeFor, getNetworkConfig, reaches_ask, not_reaches_addNetworkRoute,
    and_false, or_false, false_or, exists_false, Sum.inr.injEq, reduceCtorEq]

theorem dials_shared_iff (noKey : parseKey "" = none) (usable : cfg.Usable)
    (shared : cfg.mode ≠ .separate) (publishes : Publishes parseKey cfg config publicKey attrs)
    (delivered : Delivered config attrs lease) :
    Dials parseKey (registered cfg config extA indexA indexA6)
        (registered cfg config extB indexB indexB6) lease ↔
      (Peered config lease →
        ¬ Returns Any ((registered cfg config extA indexA indexA6).modeFor lease.attrs) .ipv6) := by
  have isDev : (registered cfg config extA indexA indexA6).dev =
      some ⟨"flannel-wg", indexA, cfg.listenPort⟩ := by
    simp [registered, shared]
  have noV6Dev : (registered cfg config extA indexA indexA6).v6Dev = none := by
    simp [registered, shared]
  have isNamed : (registered cfg config extB indexB indexB6).named "flannel-wg" =
      some ⟨"flannel-wg", indexB, cfg.listenPort⟩ := by
    rw [named_flannelWg]
    simp [registered, shared]
  have isMode : (registered cfg config extA indexA indexA6).mode ≠ .separate := shared
  obtain ⟨text, udp, subnets, resolves, isPort, requests⟩ :=
    reaches_shared isMode publishes delivered
  rw [← exists_key_iff_peered noKey publishes delivered]
  constructor
  · rintro dials ⟨key, isKey⟩ returns
    have reaches := (requests "flannel-wg"
      { publicKey := key, endpoint := some udp, allowedIPs := subnets }).mpr
        ⟨.ipv6, returns, by
          rw [if_pos rfl, reaches_addPeer]
          exact ⟨udp, key, _, resolves, isKey, isDev, rfl, rfl⟩⟩
    obtain ⟨endpoint, dev, isEndpoint, isDev', same⟩ := dials _ _ reaches
    obtain rfl := Option.some.inj isEndpoint
    obtain rfl := Option.some.inj (isNamed.symm.trans isDev')
    have wrong : udp.port = 0 ∨ udp.port = cfg.listenPortV6 := by
      rw [isPort, noV6Dev]
      by_cases isNone : lease.attrs.publicIPv6 = none
      · exact .inl (if_pos isNone)
      · rw [if_neg isNone]
        cases on : config.enableIPv6 with
        | true => exact .inr (by rw [v6Attrs, if_pos on, toNat_peerPort usable.listenPortV6])
        | false => exact .inl (by simp [v6Attrs, on, peerPort])
    rw [same] at wrong
    rcases wrong with isZero | isV6
    · exact absurd isZero (Nat.ne_of_gt usable.listenPort.1)
    · exact usable.distinct isV6
  · intro notIPv6 name peer reaches
    obtain ⟨mode, returns, adds⟩ := (requests name peer).mp reaches
    rw [reaches_addPeer] at adds
    obtain ⟨udp4, key, dev, resolves4, isKey, isDev', rfl, rfl⟩ := adds
    obtain rfl := Option.some.inj (isDev.symm.trans isDev')
    have isIPv4 : mode ≠ .ipv6 := by
      rintro rfl
      exact notIPv6 ⟨key, isKey⟩ returns
    rw [if_neg isIPv4, resolveUDPAddr_v4PeerEndpoint] at resolves4
    refine ⟨_, _, rfl, isNamed, ?_⟩
    rw [← Option.some.inj resolves4, isDev]
    cases on : config.enableIPv4 with
    | true => rw [v4Attrs, if_pos on, toNat_peerPort usable.listenPort]
    | false =>
      simp only [v4Attrs, on, Bool.false_eq_true, if_false, peerPort, if_true, Option.map_some,
        Option.getD_some]
      exact UInt16.toNat_ofNat_of_lt' usable.listenPort.2

end Agreement

/-- The configurations and leases for which the ports agree. -/
def PortsAgree (cfg : BackendConfig) (config : Config) (extIface : ExternalInterface)
    (lease : Lease) : Prop :=
  match cfg.mode with
  | .separate => config.enableIPv6 = true → (lease.enableIPv4 = true → config.enableIPv4 = true) →
      lease.attrs.publicIPv6 ≠ none
  | .auto => Peered config lease → ¬ SelectsIPv6 extIface lease.attrs
  | .ipv4 => True
  | .ipv6 => ¬ Peered config lease

/-- Of two registered nodes that share their configuration, one dials the port on which
the other listens exactly if the mode does not make it use an endpoint of IPv6 for a
device that listens on the other port, or one without an address. -/
theorem peers_dial_listening_port_iff {parseKey : String → Option Key} (noKey : parseKey "" = none)
    {cfg : BackendConfig} (usable : cfg.Usable) {config : Config} {extA extB : ExternalInterface}
    {a b : Network} {leaseA leaseB : Lease}
    (registersA : Returns (Genuine parseKey) (registerNetwork cfg config extA) (some (a, leaseA)))
    (registersB : Returns (Genuine parseKey) (registerNetwork cfg config extB) (some (b, leaseB)))
    {lease : Lease} (delivered : Delivered config leaseB.attrs lease) :
    Dials parseKey a b lease ↔ PortsAgree cfg config extA lease := by
  obtain ⟨⟨indexA, indexA6, rfl⟩, _⟩ := returns_registerNetwork registersA
  obtain ⟨⟨indexB, indexB6, rfl⟩, publicKey, publishes⟩ := returns_registerNetwork registersB
  by_cases separate : cfg.mode = .separate
  · rw [dials_separate_iff usable separate publishes delivered, PortsAgree, separate]
  · rw [dials_shared_iff noKey usable separate publishes delivered, PortsAgree]
    cases isMode : cfg.mode with
    | separate => exact absurd isMode separate
    | auto =>
      have selects := @returns_selectMode (registered cfg config extA indexA indexA6) lease.attrs
      simp only [Network.modeFor, registered, isMode, reduceCtorEq, or_self, if_false]
        at selects ⊢
      rw [selects]
    | ipv4 => simp [Network.modeFor, registered, isMode]
    | ipv6 => simp [Network.modeFor, registered, isMode]

def oneKey (text : String) : Option Key :=
  if text = "key" then some 1 else none

def nodeA : ExternalInterface :=
  ⟨some (.v4 0xc0a80001), some (.v16 0x20010db8000000000000000000000001#128)⟩

def nodeB : ExternalInterface :=
  ⟨some (.v4 0xc0a80002), some (.v16 0x20010db8000000000000000000000002#128)⟩

def dualConfig : Config :=
  ⟨true, true, ⟨0x0a010000, 16⟩, ⟨some 0xfc000000000000000000000000000000, 48⟩, 0x0a010100,
    0x0a01ff00, some 0xfc000000000000010000000000000000, some 0xfc00000000ff00000000000000000000,
    24, 64⟩

def dualLease (cfg : BackendConfig) (extIface : ExternalInterface) (subnet publicIP : Ip.IP4) :
    Lease where
  enableIPv4 := true
  enableIPv6 := true
  subnet := ⟨subnet, 24⟩
  ipv6Subnet := ⟨some 0xfc000000000000010000000000000000, 64⟩
  attrs := publishedAttrs cfg dualConfig extIface publicIP "key"
  expiration := 0
  asof := 0

theorem dualLease_registers (cfg : BackendConfig) {extIface : ExternalInterface}
    {subnet publicIP : Ip.IP4} (isIPv4 : publicIPv4 extIface.extAddr = .ret publicIP)
    (set : (⟨subnet, 24⟩ : Ip.IP4Net).empty = false) :
    Returns (Genuine oneKey) (registerNetwork cfg dualConfig extIface)
      (some (registered cfg dualConfig extIface 7 8, dualLease cfg extIface subnet publicIP)) :=
  registerNetwork_returns (.inl rfl) rfl isIPv4 rfl (fun _ => set) (fun _ => rfl) 7 8

theorem dualLease_delivered (cfg : BackendConfig) (subnet publicIP : Ip.IP4) :
    Delivered dualConfig (dualLease cfg nodeB subnet publicIP).attrs
      (dualLease cfg nodeB subnet publicIP) where
  ipv4 := fun _ => rfl
  ipv6 := fun _ => rfl
  set := fun _ => rfl
  sized := by
    constructor
    · simp [dualLease, publishedAttrs, nodeB, Ip.fromIP6, IP.to16]
    · simp [dualLease]
  backendType := rfl
  backendData := rfl
  backendV6Data := rfl

theorem peers_dial_separate :
    Dials oneKey (registered {} dualConfig nodeA 7 8) (registered {} dualConfig nodeB 7 8)
        (dualLease {} nodeB 0x0a010200 0xc0a80002) ↔
      PortsAgree {} dualConfig nodeA (dualLease {} nodeB 0x0a010200 0xc0a80002) :=
  peers_dial_listening_port_iff rfl ⟨by decide, by decide, by decide⟩
    (@dualLease_registers {} nodeA 0x0a010100 0xc0a80001 rfl rfl)
    (@dualLease_registers {} nodeB 0x0a010200 0xc0a80002 rfl rfl)
    (dualLease_delivered {} 0x0a010200 0xc0a80002)

def ipv6Mode : BackendConfig where
  mode := .ipv6

/-- In the mode `ipv6` they do not: the peer on the device that listens on 51820 is
dialled on 51821. -/
theorem ipv6_mode_dials_other_port :
    ipv6Mode.Usable ∧
      Returns (Genuine oneKey) (registerNetwork ipv6Mode dualConfig nodeA)
        (some (registered ipv6Mode dualConfig nodeA 7 8,
          dualLease ipv6Mode nodeA 0x0a010100 0xc0a80001)) ∧
      Returns (Genuine oneKey) (registerNetwork ipv6Mode dualConfig nodeB)
        (some (registered ipv6Mode dualConfig nodeB 7 8,
          dualLease ipv6Mode nodeB 0x0a010200 0xc0a80002)) ∧
      Delivered dualConfig (dualLease ipv6Mode nodeB 0x0a010200 0xc0a80002).attrs
        (dualLease ipv6Mode nodeB 0x0a010200 0xc0a80002) ∧
      ¬ Dials oneKey (registered ipv6Mode dualConfig nodeA 7 8)
        (registered ipv6Mode dualConfig nodeB 7 8) (dualLease ipv6Mode nodeB 0x0a010200 0xc0a80002) := by
  have usable : ipv6Mode.Usable := ⟨by decide, by decide, by decide⟩
  have delivered := dualLease_delivered ipv6Mode 0x0a010200 0xc0a80002
  have registersB := @dualLease_registers ipv6Mode nodeB 0x0a010200 0xc0a80002 rfl rfl
  obtain ⟨_, publicKey, publishes⟩ := returns_registerNetwork registersB
  refine ⟨usable, dualLease_registers ipv6Mode rfl rfl, registersB, delivered, ?_⟩
  rw [dials_shared_iff rfl usable (by decide) publishes delivered]
  intro never
  exact never ⟨fun _ => rfl, .inl rfl⟩ rfl

end Flannel.Wireguard
