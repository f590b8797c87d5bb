import Flannel.Backend.Netlink
import Flannel.Net.Endpoint
import Flannel.Program.Crash
import Flannel.Subnet.Config
import Flannel.Text.Json

/-!
# The wireguard backend

`handleSubnetEvents` as a program. In the mode `separate` a lease becomes one peer for each of its
families; in the others one peer, reached over the family that the mode selects. Whatever fails is
passed over, also where the network configuration cannot be read.
-/

namespace Flannel.Wireguard

open Backend Leases Net Program Subnet Text

abbrev Key := BitVec 256

structure PeerConfig where
  publicKey : Key
  remove : Bool := false
  endpoint : Option UDPAddr := none
  allowedIPs : List IPNet := []
  deriving DecidableEq

inductive Op
  | newClient
  | configureDevice (name : String) (peer : PeerConfig)
  | routeReplace (route : Route)
  | getNetworkConfig

abbrev Res : Op → Type
  | .newClient => Bool
  | .configureDevice _ _ => Bool
  | .routeReplace _ => Bool
  | .getNetworkConfig => Option Config

def newClient : Proc Op Res Bool :=
  ask Op.newClient

def configureDevice (name : String) (peer : PeerConfig) : Proc Op Res Bool :=
  ask (Op.configureDevice name peer)

def routeReplace (route : Route) : Proc Op Res Bool :=
  ask (Op.routeReplace route)

def getNetworkConfig : Proc Op Res (Option Config) :=
  ask Op.getNetworkConfig

inductive Mode
  | separate
  | auto
  | ipv4
  | ipv6
  deriving DecidableEq

structure WgDevice where
  name : String
  linkIndex : Nat
  listenPort : Nat
  deriving DecidableEq

structure Network where
  dev : Option WgDevice
  v6Dev : Option WgDevice
  mode : Mode
  extAddr : Option Net.IP
  extV6Addr : Option Net.IP
  deriving DecidableEq

def Network.device (n : Network) : Family → Option WgDevice
  | .ipv4 => n.dev
  | .ipv6 => n.v6Dev

structure WireguardLeaseAttrs where
  publicKey : String := ""
  port : UInt16 := 0
  deriving DecidableEq

def attrFields : List (Text.Field WireguardLeaseAttrs) :=
  [⟨"PublicKey", storeString fun publicKey attrs => { attrs with publicKey := publicKey }⟩,
    ⟨"Port", storeUint 16 fun port attrs => { attrs with port := .ofNat port }⟩]

def unmarshalAttrs (attrs : WireguardLeaseAttrs) (text : String) : Option WireguardLeaseAttrs :=
  if text.isEmpty then some attrs else unmarshal attrFields attrs text

example : unmarshalAttrs {} "\x7b\"PublicKey\":\"a2V5\",\"Port\":51820\x7d" =
    some ⟨"a2V5", 51820⟩ := by
  decide +kernel

section Device

variable (parseKey : String → Option Key)

def addPeer (dev : Option WgDevice) (publicEndpoint peerPublicKeyRaw : String)
    (peerSubnets : List IPNet) : Proc Op Res Bool :=
  match resolveUDPAddr publicEndpoint, parseKey peerPublicKeyRaw with
  | some udpEndpoint, some peerPublicKey => do
    let dev ← deref dev
    if ← newClient then
      configureDevice dev.name
        { publicKey := peerPublicKey, endpoint := some udpEndpoint, allowedIPs := peerSubnets }
    else pure false
  | _, _ => pure false

def removePeer (dev : Option WgDevice) (peerPublicKeyRaw : String) : Proc Op Res Bool :=
  match parseKey peerPublicKeyRaw with
  | some peerPublicKey => do
    if ← newClient then
      let dev ← deref dev
      configureDevice dev.name { publicKey := peerPublicKey, remove := true }
    else pure false
  | none => pure false

end Device

def addRoute (dev : Option WgDevice) (dst : IPNet) : Proc Op Res Bool := do
  let dev ← deref dev
  routeReplace { linkIndex := dev.linkIndex, scope := .link, dst := some dst }

/-! ## The handler -/

def flannelNetwork (f : Family) (config : Config) : Option IPNet :=
  match f with
  | .ipv4 => some config.network.toIPNet
  | .ipv6 => config.ipv6Network.toIPNet

def isPrivate (ip6 : Ip.IP6) : Proc Op Res Bool :=
  match Ip.IP6.isPrivate ip6 with
  | none => crash .outOfRange
  | some result => pure result

theorem returns_isPrivate {allowed : (op : Op) → Res op → Prop} {ip6 : Ip.IP6} {result : Bool} :
    Returns allowed (isPrivate ip6) result ↔ Ip.IP6.isPrivate ip6 = some result := by
  cases isIt : Ip.IP6.isPrivate ip6 with
  | none => simp [isPrivate, isIt]
  | some value => simp [isPrivate, isIt, eq_comm]

def Network.selectMode (n : Network) (ip4 : Ip.IP4) (ip6 : Option Ip.IP6) : Proc Op Res Mode :=
  match ip6 with
  | none => pure .ipv4
  | some ip6 =>
    if !ip4.isPrivate && n.extAddr != none then pure .ipv4
    else do
      if ← isPrivate ip6 then pure .ipv4
      else
        match n.extV6Addr with
        | none => pure .ipv4
        | some extV6Addr => do
          if ← isPrivate (Ip.fromIP6 extV6Addr) then pure .ipv4 else pure .ipv6

/-- The attributes of one family of an announced lease and its subnets; none where the backend
data does not decode. -/
def decode (f : Family) (lease : Lease) :
    Proc Op Res (Option (WireguardLeaseAttrs × List IPNet)) :=
  if f.enabled lease then
    match unmarshalAttrs {} (f.backendData lease.attrs) with
    | none => pure none
    | some attrs => do
      let subnet ← deref (f.network lease)
      pure (some (attrs, [subnet]))
  else pure (some ({}, []))

/-- `v4Port` and `v6Port`: the announced port, else the one of the own device. -/
def peerPort (attrs : WireguardLeaseAttrs) (dev : Option WgDevice) : UInt16 :=
  if attrs.port = 0 then (dev.map fun dev => .ofNat dev.listenPort).getD 0 else attrs.port

def v4PeerEndpoint (attrs : LeaseAttrs) (port : UInt16) : String :=
  Ip.IP4.string attrs.publicIP ++ ":" ++ toString port.toNat

def v6PeerEndpoint (attrs : LeaseAttrs) (port : UInt16) : Proc Op Res String :=
  match attrs.publicIPv6 with
  | none => pure ""
  | some publicIPv6 => do
    let text ← deref (Ip.IP6.string publicIPv6)
    pure ("[" ++ text ++ "]:" ++ toString port.toNat)

theorem v6PeerEndpoint_of_lt {attrs : LeaseAttrs} {ip6 : Ip.IP6} (isSet : attrs.publicIPv6 = some ip6)
    (small : ip6 < 2 ^ 128) (port : UInt16) :
    v6PeerEndpoint attrs port =
      .ret ("[" ++ (Ip.IP6.ofBits (BitVec.ofNat 128 ip6)).string ++ "]:" ++ toString port.toNat) := by
  have isText : Ip.IP6.string ip6 = some (Ip.IP6.ofBits (BitVec.ofNat 128 ip6)).string := by
    rw [Ip.IP6.string, Ip.IP6.toIP, if_pos small, Option.map_some]
  simp only [v6PeerEndpoint, isSet, isText]
  rfl

theorem exists_v6PeerEndpoint {attrs : LeaseAttrs} (sized : ∀ ip6 ∈ attrs.publicIPv6, ip6 < 2 ^ 128)
    (port : UInt16) : ∃ text, v6PeerEndpoint attrs port = .ret text := by
  cases shape : attrs.publicIPv6 with
  | none => exact ⟨"", by simp [v6PeerEndpoint, shape]⟩
  | some ip6 => exact ⟨_, v6PeerEndpoint_of_lt shape (sized ip6 shape) port⟩

theorem resolveUDPAddr_v4PeerEndpoint (attrs : LeaseAttrs) (port : UInt16) :
    resolveUDPAddr (v4PeerEndpoint attrs port) =
      some ⟨some (.v16 (Net.IP.v4 attrs.publicIP).to16), port.toNat⟩ := by
  apply resolveUDPAddr_dotted attrs.publicIP port.toNat_lt
  simp [v4PeerEndpoint, Ip.IP4.string_eq]

theorem exists_resolved_v6PeerEndpoint {attrs : LeaseAttrs}
    (sized : ∀ ip6 ∈ attrs.publicIPv6, ip6 < 2 ^ 128) (port : UInt16) :
    ∃ text udp, v6PeerEndpoint attrs port = .ret text ∧ resolveUDPAddr text = some udp ∧
      udp.port = if attrs.publicIPv6 = none then 0 else port.toNat := by
  cases shape : attrs.publicIPv6 with
  | none => exact ⟨"", ⟨none, 0⟩, by simp [v6PeerEndpoint, shape], by decide, by simp⟩
  | some ip6 =>
    obtain ⟨resolved, resolves⟩ := @resolveUDPAddr_bracketed
      ("[" ++ (Ip.IP6.ofBits (BitVec.ofNat 128 ip6)).string ++ "]:" ++ toString port.toNat)
      port.toNat (Ip.IP6.ofBits (BitVec.ofNat 128 ip6)) port.toNat_lt (by simp)
    exact ⟨_, _, v6PeerEndpoint_of_lt shape (sized ip6 shape) port, resolves, by simp⟩

section Handler

variable (parseKey : String → Option Key)

def addNetworkRoute (dev : Option WgDevice) (f : Family) (netconf : Option Config) :
    Proc Op Res Unit := do
  let netconf ← deref netconf
  let dst ← deref (flannelNetwork f netconf)
  let _ ← addRoute dev dst

def addSeparate (n : Network) (f : Family) (lease : Lease) (attrs : WireguardLeaseAttrs)
    (endpoint : String) : Proc Op Res Unit := do
  if f.enabled lease then
    let subnet ← deref (f.network lease)
    let _ ← addPeer parseKey (n.device f) endpoint attrs.publicKey [subnet]
    let netconf ← getNetworkConfig
    addNetworkRoute (n.device f) f netconf

def Network.modeFor (n : Network) (attrs : LeaseAttrs) : Proc Op Res Mode :=
  if n.mode = .ipv4 ∨ n.mode = .ipv6 then pure n.mode
  else n.selectMode attrs.publicIP attrs.publicIPv6

def addShared (n : Network) (lease : Lease) (publicKey : String) (subnets : List IPNet)
    (v4Endpoint v6Endpoint : String) : Proc Op Res Unit := do
  let mode ← n.modeFor lease.attrs
  let publicEndpoint := if mode = .ipv6 then v6Endpoint else v4Endpoint
  let _ ← addPeer parseKey n.dev publicEndpoint publicKey subnets
  let netconf ← getNetworkConfig
  addNetworkRoute n.dev .ipv4 netconf
  addNetworkRoute n.dev .ipv6 netconf

def addSubnet (n : Network) (lease : Lease) : Proc Op Res Unit := do
  match ← decode .ipv4 lease with
  | none => pure ()
  | some (v4, v4Subnets) =>
    match ← decode .ipv6 lease with
    | none => pure ()
    | some (v6, v6Subnets) =>
      let v4Endpoint := v4PeerEndpoint lease.attrs (peerPort v4 n.dev)
      let v6Endpoint ← v6PeerEndpoint lease.attrs (peerPort v6 n.v6Dev)
      if n.mode = .separate then
        addSeparate parseKey n .ipv4 lease v4 v4Endpoint
        addSeparate parseKey n .ipv6 lease v6 v6Endpoint
      else
        let attrs := if lease.enableIPv6 then v6 else v4
        addShared parseKey n lease attrs.publicKey (v4Subnets ++ v6Subnets) v4Endpoint v6Endpoint

/-- The IPv6 part of `case lease.EventRemoved`; the attributes are decoded over those
of the IPv4 part. -/
def removeIPv6 (n : Network) (lease : Lease) (attrs : WireguardLeaseAttrs) : Proc Op Res Unit :=
  if lease.enableIPv6 then
    match unmarshalAttrs attrs (Family.ipv6.backendData lease.attrs) with
    | none => pure ()
    | some attrs => do
      let dev := if n.mode = .separate ∧ n.v6Dev ≠ none then n.v6Dev else n.dev
      let _ ← removePeer parseKey dev attrs.publicKey
  else pure ()

def removeSubnet (n : Network) (lease : Lease) : Proc Op Res Unit :=
  if lease.enableIPv4 && n.dev != none then
    match unmarshalAttrs {} (Family.ipv4.backendData lease.attrs) with
    | none => pure ()
    | some attrs => do
      let _ ← removePeer parseKey n.dev attrs.publicKey
      removeIPv6 parseKey n lease attrs
  else removeIPv6 parseKey n lease {}

def handleSubnetEvent (n : Network) (event : Event) : Proc Op Res Unit :=
  if event.lease.attrs.backendType ≠ "wireguard" then pure ()
  else
    match event.type with
    | .added => addSubnet parseKey n event.lease
    | .removed => removeSubnet parseKey n event.lease

def handleSubnetEvents (n : Network) : List Event → Proc Op Res Unit :=
  each (handleSubnetEvent parseKey n)

end Handler

end Flannel.Wireguard
