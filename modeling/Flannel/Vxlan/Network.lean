import Flannel.Backend.Netlink
import Flannel.Program.Crash
import Flannel.Text.Json

/-!
# The vxlan backend

`handleSubnetEvents` as a program. A subnet is reached through the neighbour entry, the forwarding
entry and the route on the vxlan device. The families differ only in the number of attempts to
take entries back; `further` is the number of attempts after the first.
-/

namespace Flannel.Vxlan

open Backend Leases Net Program Text

inductive Op
  | neighSet (neigh : Neigh)
  | neighDel (neigh : Neigh)
  | routeReplace (route : Route)
  | routeDel (route : Route)
  | directRouting (ip : Net.IP)

abbrev Res : Op → Type
  | .neighSet _ => Bool
  | .neighDel _ => Bool
  | .routeReplace _ => Bool
  | .routeDel _ => Bool
  | .directRouting _ => Option Bool

def neighSet (neigh : Neigh) : Proc Op Res Bool :=
  ask (Op.neighSet neigh)

def neighDel (neigh : Neigh) : Proc Op Res Bool :=
  ask (Op.neighDel neigh)

def routeReplace (route : Route) : Proc Op Res Bool :=
  ask (Op.routeReplace route)

def routeDel (route : Route) : Proc Op Res Bool :=
  ask (Op.routeDel route)

def directRouting (ip : Net.IP) : Proc Op Res (Option Bool) :=
  ask (Op.directRouting ip)

structure VxlanDevice where
  linkIndex : Nat
  directRouting : Bool
  deriving DecidableEq

structure Network where
  dev : Option VxlanDevice
  v6Dev : Option VxlanDevice
  deriving DecidableEq

def Network.device (nw : Network) : Family → Option VxlanDevice
  | .ipv4 => nw.dev
  | .ipv6 => nw.v6Dev

structure VxlanLeaseAttrs where
  vni : Nat := 0
  vtepMAC : HardwareAddr := []
  deriving DecidableEq

/-- `hardwareAddr.UnmarshalJSON`, which reads the text between the quotes as it
stands. -/
def storeHardwareAddr : Json → VxlanLeaseAttrs → Option VxlanLeaseAttrs
  | .string body, attrs => (parseMAC body).map fun mac => { attrs with vtepMAC := mac }
  | _, _ => none

def unmarshalAttrs (text : String) : Option VxlanLeaseAttrs :=
  unmarshal [⟨"VNI", storeUint 32 fun vni attrs => { attrs with vni := vni }⟩,
    ⟨"VtepMAC", storeHardwareAddr⟩] {} text

example : unmarshalAttrs "\x7b\"VNI\":1,\"VtepMAC\":\"c6:d2:32:6f:8f:44\"\x7d" =
    some ⟨1, [0xc6#8, 0xd2#8, 0x32#8, 0x6f#8, 0x8f#8, 0x44#8]⟩ := by
  decide +kernel

/-! ## The device -/

def neighbor (dev : Option VxlanDevice) (bridge : Bool) (ip : Option Net.IP) (mac : HardwareAddr) :
    Proc Op Res Neigh := do
  let dev ← deref dev
  let ip ← deref ip
  pure ⟨dev.linkIndex, bridge, ip, mac⟩

def addFDB (dev : Option VxlanDevice) (ip : Option Net.IP) (mac : HardwareAddr) :
    Proc Op Res Bool := do
  neighSet (← neighbor dev true ip mac)

def delFDB (dev : Option VxlanDevice) (ip : Option Net.IP) (mac : HardwareAddr) :
    Proc Op Res Bool := do
  neighDel (← neighbor dev true ip mac)

def addARP (dev : Option VxlanDevice) (ip : Option Net.IP) (mac : HardwareAddr) :
    Proc Op Res Bool := do
  neighSet (← neighbor dev false ip mac)

def delARP (dev : Option VxlanDevice) (ip : Option Net.IP) (mac : HardwareAddr) :
    Proc Op Res Bool := do
  neighDel (← neighbor dev false ip mac)

/-! ## The handler -/

structure Prepared where
  attrs : VxlanLeaseAttrs := {}
  directRoutingOK : Bool := false
  directRoute : Route := {}
  vxlanRoute : Route := {}

/-- The assignments to the local variables of one family; no result where the backend data does
not decode. -/
def prepare (nw : Network) (f : Family) (lease : Lease) : Proc Op Res (Option Prepared) :=
  match f.enabled lease, nw.device f with
  | true, some dev =>
    match unmarshalAttrs (f.backendData lease.attrs) with
    | none => pure none
    | some attrs =>
      if f.isSet lease then do
        let dst ← deref (f.network lease)
        let gw ← deref (f.address lease)
        let publicIP ← deref (f.publicIP lease.attrs)
        let direct ← if dev.directRouting then directRouting publicIP else pure none
        pure (some {
          attrs := attrs
          directRoutingOK := direct.getD false
          directRoute := { dst := some dst, gw := some publicIP }
          vxlanRoute :=
            { linkIndex := dev.linkIndex, dst := some dst, gw := some gw, onlink := true } })
      else pure (some { attrs := attrs })
  | _, _ => pure (some {})

/-- `case lease.EventAdded` for one family; the result says whether the other family is still to
be treated. Entries are taken back when a later one cannot be set, with `afterFDB` and
`afterRoute` further attempts. -/
def addSubnet (further afterFDB afterRoute : Nat) (nw : Network) (f : Family) (lease : Lease)
    (vars : Prepared) : Proc Op Res Bool :=
  let dev := nw.device f
  let mac := vars.attrs.vtepMAC
  let ip := f.address lease
  let publicIP := f.publicIP lease.attrs
  if vars.directRoutingOK then retry (routeReplace vars.directRoute) further
  else do
    if ← retry (addARP dev ip mac) further then
      if ← retry (addFDB dev publicIP mac) further then
        if ← retry (routeReplace vars.vxlanRoute) further then
          pure true
        else
          let _ ← retry (delARP dev ip mac) afterRoute
          let _ ← retry (delFDB dev publicIP mac) afterRoute
          pure false
      else
        let _ ← retry (delARP dev ip mac) afterFDB
        pure false
    else pure false

def removeSubnet (further : Nat) (nw : Network) (f : Family) (lease : Lease) (vars : Prepared) :
    Proc Op Res Unit :=
  let dev := nw.device f
  let mac := vars.attrs.vtepMAC
  if vars.directRoutingOK then do
    let _ ← retry (routeDel vars.directRoute) further
  else do
    let _ ← retry (delARP dev (f.address lease) mac) further
    let _ ← retry (delFDB dev (f.publicIP lease.attrs) mac) further
    let _ ← retry (routeDel vars.vxlanRoute) further

def ifEnabled {α : Type} (f : Family) (lease : Lease) (otherwise : α) (body : Proc Op Res α) :
    Proc Op Res α :=
  if f.enabled lease then body else pure otherwise

def dispatch (further : Nat) (nw : Network) (event : Event) (v4 v6 : Prepared) :
    Proc Op Res Unit :=
  match event.type with
  | .added => do
    if ← ifEnabled .ipv4 event.lease true
        (addSubnet further further 0 nw .ipv4 event.lease v4) then
      let _ ← ifEnabled .ipv6 event.lease true
        (addSubnet further 0 further nw .ipv6 event.lease v6)
  | .removed => do
    ifEnabled .ipv4 event.lease () (removeSubnet further nw .ipv4 event.lease v4)
    ifEnabled .ipv6 event.lease () (removeSubnet further nw .ipv6 event.lease v6)

def handleSubnetEvent (further : Nat) (nw : Network) (event : Event) : Proc Op Res Unit :=
  if event.lease.attrs.backendType ≠ "vxlan" then pure ()
  else do
    let some v4 ← prepare nw .ipv4 event.lease | pure ()
    let some v6 ← prepare nw .ipv6 event.lease | pure ()
    dispatch further nw event v4 v6

def handleSubnetEvents (further : Nat) (nw : Network) : List Event → Proc Op Res Unit :=
  each (handleSubnetEvent further nw)

end Flannel.Vxlan
