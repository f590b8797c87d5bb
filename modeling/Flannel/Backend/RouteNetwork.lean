import Flannel.Backend.Netlink
import Flannel.Program.Crash

/-!
# Networks made of routes

`backend.RouteNetwork`, which host-gw and ipip share. It keeps the routes it has asked for in a
list per family, from which a periodic check restores missing ones. The functions that change
these lists are passed to `routeAdd`, so they are requests like those to the kernel.
-/

namespace Flannel.Backend

open Leases Net Program

namespace Route

def target (route : Route) : Option (BitVec 128 × Nat) :=
  route.dst.map fun dst => (dst.ip.to16, dst.ones)

def via (route : Route) : Option (BitVec 128) :=
  route.gw.map IP.to16

def key (route : Route) : Option (BitVec 128 × Nat) × Option (BitVec 128) × Nat :=
  (route.target, route.via, route.linkIndex)

end Route

def routeEqual (x y : Route) : Bool :=
  x.target == y.target && x.via == y.via && x.linkIndex == y.linkIndex

theorem routeEqual_iff (x y : Route) : routeEqual x y ↔ x.key = y.key := by
  simp [routeEqual, Route.key, and_assoc]

theorem routeEqual_eq_decide (x y : Route) : routeEqual x y = decide (x.key = y.key) := by
  rw [Bool.eq_iff_iff, routeEqual_iff, decide_eq_true_iff]

def addToRouteList (route : Route) (routes : List Route) : List Route :=
  if routes.any fun r => routeEqual r route then routes else routes ++ [route]

def removeFromRouteList (route : Route) (routes : List Route) : List Route :=
  routes.eraseP fun r => routeEqual r route

namespace RouteNetwork

inductive Op
  | addToRouteList (f : Family) (route : Route)
  | removeFromRouteList (f : Family) (route : Route)
  | routeListFiltered (f : Family) (target : Option (BitVec 128 × Nat))
  | routeList (f : Family)
  | routeDel (f : Family) (route : Route)
  | routeAdd (f : Family) (route : Route)

abbrev Res : Op → Type
  | .addToRouteList _ _ => Unit
  | .removeFromRouteList _ _ => Unit
  | .routeListFiltered _ _ => List Route
  | .routeList _ => Option (List Route)
  | .routeDel _ _ => Bool
  | .routeAdd _ _ => Bool

/-- `backend.RouteNetwork`: the type of its leases, and `GetRoute` and `GetV6Route`,
which may be nil and which crash on a nil address. -/
structure Network where
  backendType : String
  getRoute : Family → Option (Lease → Option Route)

def routeOf (n : Network) (f : Family) (lease : Lease) : Proc Op Res Route := do
  let getRoute ← deref (n.getRoute f)
  deref (getRoute lease)

def routeListFiltered (f : Family) (route : Route) : Proc Op Res (List Route) :=
  ask (Op.routeListFiltered f route.target)

def routeAddMissing (f : Family) (route : Route) : Proc Op Res Unit := do
  let routeList ← routeListFiltered f route
  if routeList.head?.any fun first => routeEqual first route then pure ()
  else if ← (ask (Op.routeAdd f route) : Proc Op Res Bool) then
    let _ ← routeListFiltered f route

def routeAdd (f : Family) (route : Route) : Proc Op Res Unit := do
  ask (Op.addToRouteList f route)
  let routeList ← routeListFiltered f route
  match routeList.head? with
  | none => routeAddMissing f route
  | some first =>
    if routeEqual first route then routeAddMissing f route
    else if ← (ask (Op.routeDel f first) : Proc Op Res Bool) then
      ask (Op.removeFromRouteList f first)
      routeAddMissing f route

def addSubnet (n : Network) (f : Family) (lease : Lease) : Proc Op Res Unit := do
  if f.enabled lease then
    routeAdd f (← routeOf n f lease)

def removeSubnet (n : Network) (f : Family) (lease : Lease) : Proc Op Res Unit := do
  if f.enabled lease then
    let route ← routeOf n f lease
    ask (Op.removeFromRouteList f route)
    let _ ← (ask (Op.routeDel f route) : Proc Op Res Bool)

def handleSubnetEvent (n : Network) (evt : Event) : Proc Op Res Unit :=
  if evt.lease.attrs.backendType ≠ n.backendType then pure ()
  else
    match evt.type with
    | .added => do
      addSubnet n .ipv4 evt.lease
      addSubnet n .ipv6 evt.lease
    | .removed => do
      removeSubnet n .ipv4 evt.lease
      removeSubnet n .ipv6 evt.lease

def handleSubnetEvents (n : Network) : List Event → Proc Op Res Unit :=
  each (handleSubnetEvent n)

def checkSubnetExistInRoutes (routes : List Route) (f : Family) : Proc Op Res Unit := do
  match ← (ask (Op.routeList f) : Proc Op Res (Option (List Route))) with
  | none => pure ()
  | some routeList =>
    each (fun route => do
      if routeList.any fun r => r.dst != none && routeEqual r route then pure ()
      else
        let _ ← (ask (Op.routeAdd f route) : Proc Op Res Bool)) routes

/-! ## The two backends -/

def hostgwRoute (linkIndex : Nat) (f : Family) (lease : Lease) : Option Route := do
  some { dst := some (← f.network lease), gw := some (← f.publicIP lease.attrs), linkIndex := linkIndex }

def hostgw (enabled : Family → Bool) (linkIndex : Nat) : Network where
  backendType := "host-gw"
  getRoute := fun f => if enabled f then some (hostgwRoute linkIndex f) else none

/-- `GetRoute` of the ipip backend; `direct` says which hosts are reached without the
tunnel, if direct routing is on. -/
def ipipRoute (linkIndex extIndex : Nat) (direct : Net.IP → Bool) (lease : Lease) : Route :=
  let index := if direct lease.attrs.publicIP.toIP then extIndex else linkIndex
  { dst := some lease.subnet.toIPNet, gw := some lease.attrs.publicIP.toIP, linkIndex := index,
    onlink := true }

def ipip (linkIndex extIndex : Nat) (direct : Net.IP → Bool) : Network where
  backendType := "ipip"
  getRoute := fun f =>
    match f with
    | .ipv4 => some fun lease => some (ipipRoute linkIndex extIndex direct lease)
    | .ipv6 => none

end RouteNetwork

end Flannel.Backend
