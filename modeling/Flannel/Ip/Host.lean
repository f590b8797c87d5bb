import Flannel.Ip.IP4
import Flannel.Ip.Iface
import Flannel.Net.Cidr

/-!
# Looking for interfaces

The interfaces, addresses and routes of a host, and the functions that find an interface by an
address, by a route to an address or by the default route.
-/

namespace Flannel.Ip

open Net

structure Interface where
  name : String
  index : Nat
  mtu : Nat
  deriving DecidableEq

structure Route where
  linkIndex : Int
  dst : Option IPNet
  src : Option Net.IP
  deriving DecidableEq

structure Host where
  interfaces : Except String (List Interface)
  addrList : AddrFamily → Nat → Except String (List Addr)
  routeList : AddrFamily → Except String (List Route)
  routeGet : Option Net.IP → Except String (List Route)
  names : ∀ table, interfaces = .ok table → (table.map Interface.name).Nodup

namespace Host

variable (host : Host)

def interfaceByIndex (index : Int) : Except String Interface :=
  if index ≤ 0 then .error "route ip+net: invalid network interface index"
  else
    match host.interfaces with
    | .error err => .error err
    | .ok table =>
      match table.find? fun iface => (iface.index : Int) == index with
      | some iface => .ok iface
      | none => .error "route ip+net: no such network interface"

def interfaceByName (name : String) : Except String Interface :=
  if name = "" then .error "route ip+net: invalid network interface name"
  else
    match host.interfaces with
    | .error err => .error err
    | .ok table =>
      match table.find? (·.name == name) with
      | some iface => .ok iface
      | none => .error "route ip+net: no such network interface"

def getInterfaceAddrs (sorting : AddrSorting) (f : AddrFamily) (iface : Interface) :
    Except String (List Net.IP) :=
  interfaceAddrs sorting f (host.addrList f iface.index)

/-- `GetInterfaceIP4AddrMatch` and `GetInterfaceIP6AddrMatch`: whether there is no error. -/
def addrMatch (f : AddrFamily) (iface : Interface) (matchAddr : Net.IP) : Bool :=
  match host.addrList f iface.index with
  | .error _ => false
  | .ok addrs => addrs.any fun addr => f.admits addr.ip && addr.ip.equal matchAddr

def unassigned : AddrFamily → String
  | .inet => "no interface with given IP found"
  | .inet6 => "no interface with given IPv6 found"

def interfaceWith (f : AddrFamily) (ip : Net.IP) : Except String Interface :=
  match host.interfaces with
  | .error err => .error err
  | .ok table =>
    match table.find? (host.addrMatch f · ip) with
    | some iface => .ok iface
    | none => .error (unassigned f)

def getInterfaceByIP (ip : Net.IP) : Except String Interface :=
  host.interfaceWith .inet ip

def getInterfaceByIP6 (ip : Net.IP) : Except String Interface :=
  host.interfaceWith .inet6 ip

def getInterfaceBySpecificIPRouting (ip : Option Net.IP) : Except String (Interface × Option Net.IP) :=
  match host.routeGet ip with
  | .error err => .error ("couldn't lookup route to " ++ (ip.map IP.string).getD "<nil>" ++ ": " ++ err)
  | .ok [] => .error "no interface with given IP found"
  | .ok (route :: _) =>
    match host.interfaceByIndex route.linkIndex with
    | .error err => .error ("couldn't lookup interface: " ++ err)
    | .ok iface => .ok (iface, route.src)

def gatewayInterface (f : AddrFamily) (destination found missing : String) : Except String Interface :=
  match host.routeList f with
  | .error err => .error err
  | .ok routes =>
    match routes.find? fun route => route.dst.all (·.string == destination) with
    | none => .error missing
    | some route =>
      if route.linkIndex ≤ 0 then .error found else host.interfaceByIndex route.linkIndex

def getDefaultGatewayInterface : Except String Interface :=
  host.gatewayInterface .inet "0.0.0.0/0" "found default route but could not determine interface"
    "unable to find default route"

def getDefaultV6GatewayInterface : Except String Interface :=
  host.gatewayInterface .inet6 "::/0" "found default v6 route but could not determine interface"
    "unable to find default v6 route"

def Lists (iface : Interface) : Prop :=
  ∃ table, host.interfaces = .ok table ∧ iface ∈ table

def Assigned (f : AddrFamily) (iface : Interface) (ip : Net.IP) : Prop :=
  ∃ addrs, host.addrList f iface.index = .ok addrs ∧
    ∃ addr ∈ addrs, f.admits addr.ip = true ∧ addr.ip.equal ip = true

variable {host} {f : AddrFamily} {iface other : Interface} {ip : Net.IP}

theorem addrMatch_iff : host.addrMatch f iface ip ↔ host.Assigned f iface ip := by
  rw [addrMatch, Assigned]
  cases host.addrList f iface.index with
  | error err => simp
  | ok addrs => simp

theorem assigned_of_mem {sorting : AddrSorting} {ips : List Net.IP}
    (listed : host.getInterfaceAddrs sorting f iface = .ok ips) (mem : ip ∈ ips) :
    host.Assigned f iface ip := by
  obtain ⟨addrs, isList, isKept, _⟩ := interfaceAddrs_eq_ok_iff.mp listed
  obtain ⟨addr, kept, rfl⟩ := List.mem_map.mp (isKept ▸ mem)
  obtain ⟨memAddr, usable⟩ := mem_of_mem_keptAddrs kept
  have admits : f.admits addr.ip := by
    simp only [AddrFamily.usable, Bool.and_eq_true] at usable
    exact usable.1.1
  exact ⟨addrs, isList, addr, memAddr, admits, Net.IP.equal_iff.mpr rfl⟩

theorem to4_eq (ip : Net.IP) : ip.to4 = (Net.IP.v16 ip.to16).to4 := by
  cases ip with
  | v4 bits => exact (to4_mapped bits).symm
  | v16 bits => rfl

theorem to4_of_assigned (assigned : host.Assigned .inet iface ip) : ip.to4.isSome := by
  obtain ⟨_, _, addr, _, admits, same⟩ := assigned
  rw [to4_eq, ← Net.IP.equal_iff.mp same, ← to4_eq]
  exact admits

theorem assigned_of_interfaceWith (found : host.interfaceWith f ip = .ok iface) :
    host.Lists iface ∧ host.Assigned f iface ip := by
  rw [interfaceWith] at found
  cases isTable : host.interfaces with
  | error err => simp [isTable] at found
  | ok table =>
    rw [isTable] at found
    dsimp only at found
    cases isFound : table.find? (host.addrMatch f · ip) with
    | none => simp [isFound] at found
    | some first =>
      rw [isFound] at found
      cases found
      exact ⟨⟨table, isTable, List.mem_of_find?_eq_some isFound⟩,
        addrMatch_iff.mp (@List.find?_some _ (host.addrMatch f · ip) _ _ isFound)⟩

theorem eq_of_name_eq (listed : host.Lists iface) (listed' : host.Lists other)
    (same : iface.name = other.name) : iface = other := by
  obtain ⟨table, isTable, mem⟩ := listed
  obtain ⟨table', isTable', mem'⟩ := listed'
  obtain rfl := Except.ok.inj (isTable.symm.trans isTable')
  exact List.inj_on_of_nodup_map (host.names table isTable) mem mem' same

end Host

end Flannel.Ip
