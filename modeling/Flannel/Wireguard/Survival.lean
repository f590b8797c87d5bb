import Flannel.Wireguard.Register

/-!
# Nil pointers of the wireguard backend

An announced lease needs a device for each of its families in the mode `separate`, and in every
mode the networks of the configuration, which is nil where it could not be read; the modes with
one device need that of IPv6 even if only IPv4 is enabled.
-/

namespace Flannel.Wireguard

open Backend Leases Net Program Subnet

def Reads (netconf : Option Config) : (op : Op) → Res op → Prop
  | .getNetworkConfig, answer => answer = netconf
  | _, _ => True

def HasNetwork (f : Family) (netconf : Option Config) : Prop :=
  netconf.bind (flannelNetwork f) ≠ none

section Parts

variable {netconf : Option Config} {parseKey : String → Option Key} {dev : Option WgDevice}
  {n : Network} {f : Family} {lease : Lease} {attrs : WireguardLeaseAttrs} {endpoint raw : String}
  {subnets : List IPNet}

theorem not_reaches_addPeer {d : WgDevice} {fault : Fault} :
    ¬ Reaches (Reads netconf) (addPeer parseKey (some d) endpoint raw subnets) (.inl fault) := by
  rw [addPeer]
  split <;> simp [newClient, configureDevice, Bool.exists_bool]

theorem exists_returns_addPeer {d : WgDevice} :
    ∃ done, Returns (Reads netconf) (addPeer parseKey (some d) endpoint raw subnets) done := by
  refine ⟨false, ?_⟩
  rw [addPeer]
  split <;> simp [newClient, configureDevice, Reads, Bool.exists_bool]

theorem addPeer_none :
    Reaches (Reads netconf) (addPeer parseKey none endpoint raw subnets) (.inl .nilPointer) ∨
      ∃ done, Returns (Reads netconf) (addPeer parseKey none endpoint raw subnets) done := by
  rw [addPeer]
  split
  · exact .inl (by simp)
  · exact .inr ⟨false, rfl⟩

theorem reaches_addNetworkRoute :
    Reaches (Reads netconf) (addNetworkRoute dev f netconf) (.inl .nilPointer) ↔
      ¬ HasNetwork f netconf ∨ dev = none := by
  cases netconf with
  | none => simp [addNetworkRoute, HasNetwork]
  | some config =>
    cases isNetwork : flannelNetwork f config with
    | none => simp [addNetworkRoute, HasNetwork, isNetwork]
    | some network => simp [addNetworkRoute, HasNetwork, isNetwork, addRoute, routeReplace]

theorem returns_addNetworkRoute {d : WgDevice} (hasNetwork : HasNetwork f netconf) :
    Returns (Reads netconf) (addNetworkRoute (some d) f netconf) () := by
  obtain ⟨network, isNetwork⟩ := Option.ne_none_iff_exists'.mp hasNetwork
  obtain ⟨config, rfl, hasNet⟩ := Option.bind_eq_some_iff.mp isNetwork
  simp [addNetworkRoute, hasNet, addRoute, routeReplace, Reads]

theorem addSeparate_of_enabled {network : IPNet} (enabled : f.enabled lease)
    (isNetwork : f.network lease = some network) :
    addSeparate parseKey n f lease attrs endpoint =
      addPeer parseKey (n.device f) endpoint attrs.publicKey [network] >>= fun _ =>
        getNetworkConfig >>= addNetworkRoute (n.device f) f := by
  simp only [addSeparate, enabled, isNetwork, if_true]
  rfl

theorem reaches_addSeparate_nil (complete : Complete lease) :
    Reaches (Reads netconf) (addSeparate parseKey n f lease attrs endpoint) (.inl .nilPointer) ↔
      f.enabled lease ∧ (n.device f = none ∨ ¬ HasNetwork f netconf) := by
  cases enabled : f.enabled lease with
  | false => simp [addSeparate, enabled]
  | true =>
    obtain ⟨network, isNetwork⟩ := complete.exists_network (complete.isSet enabled)
    have routes : Reaches (Reads netconf) (getNetworkConfig >>= addNetworkRoute (n.device f) f)
        (.inl .nilPointer) ↔ n.device f = none ∨ ¬ HasNetwork f netconf := by
      simp [getNetworkConfig, Reads, reaches_addNetworkRoute, or_comm]
    rw [addSeparate_of_enabled enabled isNetwork, reaches_bind, routes]
    simp only [true_and]
    cases isDev : n.device f with
    | none =>
      refine iff_of_true ?_ (.inl rfl)
      exact addPeer_none.imp_right fun ⟨done, adds⟩ => ⟨done, adds, .inl rfl⟩
    | some d =>
      obtain ⟨done, adds⟩ :=
        @exists_returns_addPeer netconf parseKey endpoint attrs.publicKey [network] d
      simp only [not_reaches_addPeer, false_or]
      exact ⟨fun ⟨_, _, bad⟩ => bad, fun bad => ⟨done, adds, bad⟩⟩

theorem returns_addSeparate (complete : Complete lease)
    (good : f.enabled lease → n.device f ≠ none ∧ HasNetwork f netconf) :
    Returns (Reads netconf) (addSeparate parseKey n f lease attrs endpoint) () := by
  cases enabled : f.enabled lease with
  | false => simp [addSeparate, enabled]
  | true =>
    obtain ⟨network, isNetwork⟩ := complete.exists_network (complete.isSet enabled)
    obtain ⟨d, isDev⟩ := Option.ne_none_iff_exists'.mp (good enabled).1
    obtain ⟨done, adds⟩ :=
      @exists_returns_addPeer netconf parseKey endpoint attrs.publicKey [network] d
    rw [addSeparate_of_enabled enabled isNetwork, isDev]
    refine (returns_bind _ _ _).mpr ⟨done, adds, (returns_bind _ _ _).mpr ⟨netconf, ?_, ?_⟩⟩
    · exact returns_ask.mpr rfl
    · exact returns_addNetworkRoute (good enabled).2

/-! ### The mode -/

def Stops (extIface : ExternalInterface) (attrs : LeaseAttrs) : Prop :=
  (attrs.publicIP.isPrivate = true ∨ extIface.extAddr = none) ∧
    ∃ ip6, attrs.publicIPv6 = some ip6 ∧ (Ip.IP6.isPrivate ip6 = none ∨
      Ip.IP6.isPrivate ip6 = some false ∧
        ∃ ext, extIface.extV6Addr = some ext ∧ Ip.IP6.isPrivate (Ip.fromIP6 ext) = none)

variable {allowed : (op : Op) → Res op → Prop} {leaseAttrs : LeaseAttrs}

theorem isPrivate_not_nil {ip6 : Ip.IP6} :
    ¬ Reaches allowed (isPrivate ip6) (.inl .nilPointer) := by
  rw [isPrivate]
  split <;> simp

theorem selectMode_not_nil {ip4 : Ip.IP4} {ip6 : Option Ip.IP6} :
    ¬ Reaches allowed (n.selectMode ip4 ip6) (.inl .nilPointer) := by
  cases ip6 with
  | none => simp [Network.selectMode]
  | some ip6 =>
    simp only [Network.selectMode]
    split
    · simp
    · cases n.extV6Addr <;> simp [isPrivate_not_nil, Bool.exists_bool]

theorem exists_returns_selectMode :
    (∃ mode, Returns allowed (n.selectMode leaseAttrs.publicIP leaseAttrs.publicIPv6) mode) ↔
      ¬ Stops ⟨n.extAddr, n.extV6Addr⟩ leaseAttrs := by
  cases isSet : leaseAttrs.publicIPv6 with
  | none => simp [Network.selectMode, Stops, isSet]
  | some ip6 =>
    by_cases direct : (!leaseAttrs.publicIP.isPrivate && n.extAddr != none)
    · have public_ := direct
      simp only [Bool.and_eq_true, Bool.not_eq_true', bne_iff_ne, ne_eq] at public_
      simp [Network.selectMode, Stops, public_]
    · have private_ : leaseAttrs.publicIP.isPrivate ∨ n.extAddr = none := by
        simpa [Classical.or_iff_not_imp_left] using direct
      simp only [Network.selectMode, direct, Stops, private_, isSet, true_and, Option.some.injEq,
        exists_eq_left']
      rcases first : Ip.IP6.isPrivate ip6 with _ | _ | _
      · simp [returns_isPrivate, first]
      · cases n.extV6Addr with
        | none => simp [returns_isPrivate, first]
        | some ext =>
          rcases second : Ip.IP6.isPrivate (Ip.fromIP6 ext) with _ | _ | _
            <;> simp [returns_isPrivate, first, second]
      · simp [returns_isPrivate, first]

theorem reaches_addShared_nil {d : WgDevice} (isDev : n.dev = some d) {v4Endpoint v6Endpoint : String} :
    Reaches (Reads netconf) (addShared parseKey n lease raw subnets v4Endpoint v6Endpoint)
        (.inl .nilPointer) ↔
      (∃ mode, Returns (Reads netconf) (n.modeFor lease.attrs) mode) ∧
        ¬ HasNetwork .ipv6 netconf := by
  have selects : ¬ Reaches (Reads netconf) (n.modeFor lease.attrs) (.inl .nilPointer) := by
    rw [Network.modeFor]
    split
    · simp
    · exact selectMode_not_nil
  have routes : Reaches (Reads netconf) (getNetworkConfig >>= fun netconf =>
        addNetworkRoute (some d) .ipv4 netconf >>= fun _ => addNetworkRoute (some d) .ipv6 netconf)
      (.inl .nilPointer) ↔ ¬ HasNetwork .ipv6 netconf := by
    have first : ¬ HasNetwork .ipv4 netconf → ¬ HasNetwork .ipv6 netconf := by
      cases netconf <;> simp [HasNetwork, flannelNetwork]
    simp only [getNetworkConfig, reaches_bind, reaches_ask, reduceCtorEq, false_or, returns_ask, Reads,
      exists_eq_left, reaches_addNetworkRoute, or_false]
    constructor
    · rintro (bad | ⟨_, _, bad⟩)
      · exact first bad
      · exact bad
    · intro bad
      by_cases hasIPv4 : HasNetwork .ipv4 netconf
      · exact .inr ⟨(), returns_addNetworkRoute hasIPv4, bad⟩
      · exact .inl hasIPv4
  simp only [addShared, isDev, reaches_bind, selects, false_or]
  rw [reaches_bind] at routes
  constructor
  · rintro ⟨mode, returns, adds | ⟨done, adds, bad⟩⟩
    · exact absurd adds not_reaches_addPeer
    · exact ⟨⟨mode, returns⟩, routes.mp (by simpa only [reaches_bind] using bad)⟩
  · rintro ⟨⟨mode, returns⟩, bad⟩
    obtain ⟨done, adds⟩ := @exists_returns_addPeer netconf parseKey
      (if mode = .ipv6 then v6Endpoint else v4Endpoint) raw subnets d
    exact ⟨mode, returns, .inr ⟨done, adds, by simpa only [reaches_bind] using routes.mpr bad⟩⟩

/-! ### The handler -/

def Undecodable (lease : Lease) : Prop :=
  ∃ f : Family, f.enabled lease = true ∧ unmarshalAttrs {} (f.backendData lease.attrs) = none

theorem exists_decode (complete : Complete lease) (f : Family) :
    ∃ result, decode f lease = .ret result ∧
      (result = none ↔
        f.enabled lease ∧ unmarshalAttrs {} (f.backendData lease.attrs) = none) := by
  cases enabled : f.enabled lease with
  | false => exact ⟨some ({}, []), by simp [decode, enabled], by simp⟩
  | true =>
    obtain ⟨network, isNetwork⟩ := complete.exists_network (complete.isSet enabled)
    cases decoded : unmarshalAttrs {} (f.backendData lease.attrs) with
    | none => exact ⟨none, by simp [decode, enabled, decoded], by simp⟩
    | some attrs =>
      refine ⟨some (attrs, [network]), ?_, by simp⟩
      simp only [decode, enabled, decoded, isNetwork, if_true]
      rfl

/-- What an announced lease meets once its data has been decoded. -/
def Meets (n : Network) (netconf : Option Config) (lease : Lease) : Prop :=
  if n.mode = .separate then
    ∃ f : Family, f.enabled lease = true ∧ (n.device f = none ∨ ¬ HasNetwork f netconf)
  else
    ¬ (n.mode = .auto ∧ Stops ⟨n.extAddr, n.extV6Addr⟩ lease.attrs) ∧ ¬ HasNetwork .ipv6 netconf

theorem reaches_addSubnet_nil (complete : Complete lease)
    (hasDev : n.mode ≠ .separate → n.dev ≠ none) :
    Reaches (Reads netconf) (addSubnet parseKey n lease) (.inl .nilPointer) ↔
      ¬ Undecodable lease ∧ Meets n netconf lease := by
  obtain ⟨result4, decodes4, dropped4⟩ := exists_decode complete .ipv4
  obtain ⟨result6, decodes6, dropped6⟩ := exists_decode complete .ipv6
  have undecodable : Undecodable lease ↔ result4 = none ∨ result6 = none := by
    rw [dropped4, dropped6]
    constructor
    · rintro ⟨_ | _, bad⟩
      · exact .inl bad
      · exact .inr bad
    · rintro (bad | bad)
      · exact ⟨.ipv4, bad⟩
      · exact ⟨.ipv6, bad⟩
  rw [undecodable]
  rcases result4 with _ | ⟨v4, subnets4⟩
  · simp [addSubnet, decodes4]
  rcases result6 with _ | ⟨v6, subnets6⟩
  · simp [addSubnet, decodes4, decodes6]
  obtain ⟨v6Endpoint, prints⟩ := exists_v6PeerEndpoint complete.publicIPv6 (peerPort v6 n.v6Dev)
  simp only [addSubnet, decodes4, decodes6, prints, Prog.ret_bind, reduceCtorEq, or_self,
    not_false_eq_true, true_and, Meets]
  by_cases separate : n.mode = .separate
  · simp only [separate, if_true, reaches_bind, reaches_addSeparate_nil complete]
    constructor
    · rintro (first | ⟨_, _, second⟩)
      · exact ⟨.ipv4, first⟩
      · exact ⟨.ipv6, second⟩
    · rintro ⟨f, bad⟩
      by_cases first : Family.ipv4.enabled lease ∧
          (n.device .ipv4 = none ∨ ¬ HasNetwork .ipv4 netconf)
      · exact .inl first
      · cases f with
        | ipv4 => exact absurd bad first
        | ipv6 =>
          refine .inr ⟨(), returns_addSeparate complete fun enabled => ?_, bad⟩
          have good := not_or.mp (not_and.mp first enabled)
          exact ⟨good.1, not_not.mp good.2⟩
  · obtain ⟨d, isDev⟩ := Option.ne_none_iff_exists'.mp (hasDev separate)
    have selected : (∃ mode, Returns (Reads netconf) (n.modeFor lease.attrs) mode) ↔
        ¬ (n.mode = .auto ∧ Stops ⟨n.extAddr, n.extV6Addr⟩ lease.attrs) := by
      rw [Network.modeFor]
      cases isMode : n.mode with
      | separate => exact absurd isMode separate
      | auto => simpa using exists_returns_selectMode
      | ipv4 => simp
      | ipv6 => simp
    simp only [separate, if_false]
    rw [reaches_addShared_nil isDev, selected]

theorem not_reaches_removePeer {d : WgDevice} {fault : Fault} :
    ¬ Reaches allowed (removePeer parseKey (some d) raw) (.inl fault) := by
  rw [removePeer]
  split <;> simp [newClient, configureDevice, Bool.exists_bool]

theorem removeSubnet_not_nil (hasDev : n.dev ≠ none ∨ n.mode = .separate ∧ n.v6Dev ≠ none) :
    ¬ Reaches allowed (removeSubnet parseKey n lease) (.inl .nilPointer) := by
  have last : ∀ attrs, ¬ Reaches allowed (removeIPv6 parseKey n lease attrs) (.inl .nilPointer) := by
    intro attrs
    obtain ⟨d, isDev⟩ : ∃ d, (if n.mode = .separate ∧ n.v6Dev ≠ none then n.v6Dev else n.dev) =
        some d := by
      apply Option.ne_none_iff_exists'.mp
      split
      · rename_i both
        exact both.2
      · rename_i notBoth
        exact hasDev.resolve_right notBoth
    rw [removeIPv6]
    split
    · split
      · simp
      · simp [isDev, not_reaches_removePeer]
    · simp
  rw [removeSubnet]
  split
  · rename_i both
    obtain ⟨d, isDev⟩ := Option.ne_none_iff_exists'.mp
      (bne_iff_ne.mp (Bool.and_eq_true_iff.mp both).2)
    split
    · simp
    · simp [isDev, not_reaches_removePeer, last]
  · exact last _

theorem reaches_handleSubnetEvents {event : Event} (complete : Complete event.lease)
    (shared : n.mode ≠ .separate → n.dev ≠ none)
    (separate : n.mode = .separate → n.dev ≠ none ∨ n.v6Dev ≠ none) :
    Reaches (Reads netconf) (handleSubnetEvents parseKey n [event]) (.inl .nilPointer) ↔
      event.type = .added ∧ event.lease.attrs.backendType = "wireguard" ∧
        ¬ Undecodable event.lease ∧ Meets n netconf event.lease := by
  have hasDev : n.dev ≠ none ∨ n.mode = .separate ∧ n.v6Dev ≠ none := by
    by_cases isMode : n.mode = .separate
    · exact (separate isMode).imp_right fun hasV6 => ⟨isMode, hasV6⟩
    · exact .inl (shared isMode)
  rw [handleSubnetEvents, reaches_each_singleton, handleSubnetEvent]
  by_cases type : event.lease.attrs.backendType = "wireguard"
  · cases isType : event.type with
    | added => simp [type, reaches_addSubnet_nil complete shared]
    | removed => simp [type, removeSubnet_not_nil hasDev]
  · simp [type]

end Parts

end Flannel.Wireguard
