import Flannel.Ip.Host
import Flannel.Ip.Preference

/-!
# Looking up the external interface

`LookupExtIface` selects an interface by an address or a name, a pattern, a route or the default
route, and then gives it addresses. The selection may leave the interface out, or pair it with an
address from elsewhere; then a nil pointer is dereferenced, or the result is not consistent.
-/

namespace Flannel.Ipmatch

open Ip Net

/-! ## The function -/

inductive Stack
  | ipv4Stack
  | ipv6Stack
  | dualStack
  | noneStack
  deriving DecidableEq

structure PublicIPOpts where
  publicIP : String
  publicIPv6 : String
  deriving DecidableEq

structure ExternalInterface where
  iface : Interface
  ifaceName : String
  ifaceAddr : Option Net.IP
  ifaceV6Addr : Option Net.IP
  extAddr : Option Net.IP
  extV6Addr : Option Net.IP
  deriving DecidableEq

inductive Failure
  | error (text : String)
  | nilPointer
  deriving DecidableEq

structure Selection where
  iface : Option Interface
  ifaceAddr : Option Net.IP
  ifaceV6Addr : Option Net.IP
  deriving DecidableEq

def orFail {α : Type} (text : String → String) : Except String α → Except Failure α
  | .error err => .error (.error (text err))
  | .ok value => .ok value

def deref {α : Type} : Option α → Except Failure α
  | none => .error .nilPointer
  | some value => .ok value

def matchIP (ifregex : String → Bool) (ifaceIPs : List Net.IP) : Option Net.IP :=
  ifaceIPs.find? fun ifaceIP => ifregex ifaceIP.string

section Function

variable (host : Host) (sorting : AddrSorting) (ipStack : Stack) (opts : PublicIPOpts)

def byIP (ifname : String) (ip : Net.IP) : Except Failure Interface :=
  orFail (fun err => "error looking up interface " ++ ifname ++ ": " ++ err) (host.getInterfaceByIP ip)

def byIP6 (name : String) (ip : Net.IP) : Except Failure Interface :=
  orFail (fun err => "error looking up v6 interface " ++ name ++ ": " ++ err) (host.getInterfaceByIP6 ip)

def withPublicIPv6 (ifaceAddr : Net.IP) (iface : Option Interface) : Except Failure Selection :=
  match if opts.publicIPv6 = "" then none else parseIP opts.publicIPv6 with
  | none => .ok ⟨iface, some ifaceAddr, none⟩
  | some ifaceV6Addr => do
    let v6Iface ← byIP6 host opts.publicIPv6 ifaceV6Addr
    if ifaceAddr.to4.isNone then pure ⟨some v6Iface, none, some ifaceV6Addr⟩
    else
      let v4Iface ← deref iface
      if v4Iface.name ≠ v6Iface.name then
        throw (.error ("v6 interface " ++ v6Iface.name ++ " must be the same with v4 interface " ++
          v4Iface.name))
      else pure ⟨iface, some ifaceAddr, some ifaceV6Addr⟩

def selectByIP (ifname : String) (ifaceAddr : Net.IP) : Except Failure Selection :=
  match ipStack with
  | .ipv4Stack => (byIP host ifname ifaceAddr).map fun iface => ⟨some iface, some ifaceAddr, none⟩
  | .ipv6Stack =>
    (byIP6 host ifname ifaceAddr).map fun iface => ⟨some iface, some ifaceAddr, some ifaceAddr⟩
  | .dualStack =>
    if ifaceAddr.to4.isSome then do
      let iface ← byIP host ifname ifaceAddr
      withPublicIPv6 host opts ifaceAddr (some iface)
    else withPublicIPv6 host opts ifaceAddr none
  | .noneStack => .ok ⟨none, some ifaceAddr, none⟩

def ifaceLoop (ifregex : String → Bool) :
    List Interface → Option Net.IP → Option Net.IP → Selection
  | [], ifaceAddr, ifaceV6Addr => ⟨none, ifaceAddr, ifaceV6Addr⟩
  | ifaceToMatch :: ifaces, ifaceAddr, ifaceV6Addr =>
    match ipStack with
    | .ipv4Stack =>
      match host.getInterfaceAddrs sorting .inet ifaceToMatch with
      | .error _ => ifaceLoop ifregex ifaces ifaceAddr ifaceV6Addr
      | .ok ifaceIPs =>
        match matchIP ifregex ifaceIPs with
        | some matched => ⟨some ifaceToMatch, some matched, ifaceV6Addr⟩
        | none => ifaceLoop ifregex ifaces ifaceAddr ifaceV6Addr
    | .ipv6Stack =>
      match host.getInterfaceAddrs sorting .inet6 ifaceToMatch with
      | .error _ => ifaceLoop ifregex ifaces ifaceAddr ifaceV6Addr
      | .ok ifaceIPs =>
        match matchIP ifregex ifaceIPs with
        | some matched => ⟨some ifaceToMatch, ifaceAddr, some matched⟩
        | none => ifaceLoop ifregex ifaces ifaceAddr ifaceV6Addr
    | .dualStack =>
      match host.getInterfaceAddrs sorting .inet ifaceToMatch,
        host.getInterfaceAddrs sorting .inet6 ifaceToMatch with
      | .ok ifaceIPs, .ok ifaceV6IPs =>
        match matchIP ifregex ifaceIPs, matchIP ifregex ifaceV6IPs with
        | none, _ => ifaceLoop ifregex ifaces ifaceAddr ifaceV6Addr
        -- The address stays recorded when the loop goes on to the next interface.
        | some matched, none => ifaceLoop ifregex ifaces (some matched) ifaceV6Addr
        | some matched, some matched6 => ⟨some ifaceToMatch, some matched, some matched6⟩
      | _, _ => ifaceLoop ifregex ifaces ifaceAddr ifaceV6Addr
    | .noneStack => ifaceLoop ifregex ifaces ifaceAddr ifaceV6Addr

def availableFace (iface : Interface) : String :=
  let family := if ipStack = .ipv6Stack then AddrFamily.inet6 else .inet
  let ipaddr := match host.getInterfaceAddrs sorting family iface with
    | .ok ips => ips
    | .error _ => []
  iface.name ++ ":[" ++ " ".intercalate (ipaddr.map IP.string) ++ "]"

def selectByRegex (ifregexS : String) (ifregex : String → Bool) : Except Failure Selection :=
  match host.interfaces with
  | .error err => .error (.error ("error listing all interfaces: " ++ err))
  | .ok ifaces =>
    let found := ifaceLoop host sorting ipStack ifregex ifaces none none
    let iface :=
      if found.iface.isNone && (found.ifaceAddr.isNone || found.ifaceV6Addr.isNone) then
        ifaces.find? (ifregex ·.name)
      else found.iface
    if iface.isNone then
      .error (.error ("could not match pattern " ++ ifregexS ++
        " to any of the available network interfaces (" ++
        ", ".intercalate (ifaces.map (availableFace host sorting ipStack)) ++ ")"))
    else .ok ⟨iface, found.ifaceAddr, found.ifaceV6Addr⟩

def selectByRoute (ifcanreach : String) : Except Failure Selection :=
  (orFail (fun err => "failed to get ifcanreach based interface: " ++ err)
    (host.getInterfaceBySpecificIPRouting (parseIP ifcanreach))).map fun found =>
      ⟨some found.1, found.2, none⟩

def selectDefault : Except Failure Selection :=
  match ipStack with
  | .ipv4Stack =>
    (orFail (fun err => "failed to get default interface: " ++ err)
      host.getDefaultGatewayInterface).map fun iface => ⟨some iface, none, none⟩
  | .ipv6Stack =>
    (orFail (fun err => "failed to get default v6 interface: " ++ err)
      host.getDefaultV6GatewayInterface).map fun iface => ⟨some iface, none, none⟩
  | .dualStack => do
    let iface ← orFail (fun err => "failed to get default interface: " ++ err)
      host.getDefaultGatewayInterface
    let v6Iface ← orFail (fun err => "failed to get default v6 interface: " ++ err)
      host.getDefaultV6GatewayInterface
    if iface.name ≠ v6Iface.name then
      throw (.error ("v6 default route interface " ++ v6Iface.name ++
        " must be the same with v4 default route interface " ++ iface.name))
    else pure ⟨some iface, none, none⟩
  | .noneStack => .ok ⟨none, none, none⟩

def select (ifname ifregexS : String) (ifregex : Option (String → Bool)) (ifcanreach : String) :
    Except Failure Selection :=
  if ifname ≠ "" then
    match parseIP ifname with
    | some ifaceAddr => selectByIP host ipStack opts ifname ifaceAddr
    | none =>
      (orFail (fun err => "error looking up interface " ++ ifname ++ ": " ++ err)
        (host.interfaceByName ifname)).map fun iface => ⟨some iface, none, none⟩
  else
    match ifregex with
    | some ifregex => selectByRegex host sorting ipStack ifregexS ifregex
    | none =>
      if ifcanreach ≠ "" then selectByRoute host ifcanreach else selectDefault host ipStack

def familyName : AddrFamily → String
  | .inet => "IPv4"
  | .inet6 => "IPv6"

def firstAddr (f : AddrFamily) (iface : Interface) : Except Failure Net.IP :=
  match host.getInterfaceAddrs sorting f iface with
  | .ok (first :: _) => .ok first
  | _ => .error (.error ("failed to find " ++ familyName f ++ " address for interface " ++ iface.name))

def addrOf (f : AddrFamily) (iface : Option Interface) : Option Net.IP → Except Failure Net.IP
  | some ip => .ok ip
  | none => deref iface >>= firstAddr host sorting f

def addrsOf (selection : Selection) : Except Failure Selection :=
  match ipStack with
  | .ipv4Stack =>
    (addrOf host sorting .inet selection.iface selection.ifaceAddr).map fun ifaceAddr =>
      ⟨selection.iface, some ifaceAddr, selection.ifaceV6Addr⟩
  | .ipv6Stack =>
    (addrOf host sorting .inet6 selection.iface selection.ifaceV6Addr).map fun ifaceV6Addr =>
      ⟨selection.iface, selection.ifaceAddr, some ifaceV6Addr⟩
  | .dualStack => do
    let ifaceAddr ← addrOf host sorting .inet selection.iface selection.ifaceAddr
    let ifaceV6Addr ← addrOf host sorting .inet6 selection.iface selection.ifaceV6Addr
    pure ⟨selection.iface, some ifaceAddr, some ifaceV6Addr⟩
  | .noneStack => .ok selection

def publicAddr (what text : String) : Except Failure (Option Net.IP) :=
  if text = "" then .ok none
  else
    match parseIP text with
    | none => .error (.error ("invalid public " ++ what ++ " address: " ++ text))
    | some ip => .ok (some ip)

def finish (selection : Selection) : Except Failure ExternalInterface := do
  let addrs ← addrsOf host sorting ipStack selection
  let iface ← deref addrs.iface
  if iface.mtu = 0 then
    throw (.error ("failed to determine MTU for " ++ (addrs.ifaceAddr.map IP.string).getD "<nil>" ++
      " interface"))
  else
    let extAddr ← publicAddr "IP" opts.publicIP
    let extV6Addr ← publicAddr "IPv6" opts.publicIPv6
    pure
      { iface := iface
        ifaceName := iface.name
        ifaceAddr := addrs.ifaceAddr
        ifaceV6Addr := addrs.ifaceV6Addr
        extAddr := if ipStack = .ipv6Stack then extAddr else extAddr.or addrs.ifaceAddr
        extV6Addr := if ipStack = .ipv4Stack then extV6Addr else extV6Addr.or addrs.ifaceV6Addr }

def lookupExtIface (compile : String → Except String (String → Bool))
    (ifname ifregexS ifcanreach : String) : Except Failure ExternalInterface := do
  let ifregex ←
    if ifregexS ≠ "" then
      (orFail (fun err => "could not compile the IP address regex '" ++ ifregexS ++ "': " ++ err)
        (compile ifregexS)).map some
    else pure none
  if ipStack = .noneStack then throw (.error "none matched ip stack")
  else
    let selection ← select host sorting ipStack opts ifname ifregexS ifregex ifcanreach
    finish host sorting ipStack opts selection

end Function

/-! ## Consistent results -/

section Consistency

variable (host : Host) (sorting : AddrSorting) (ipStack : Stack) (opts : PublicIPOpts)

structure ConsistentAddrs (iface : Interface) (ifaceAddr ifaceV6Addr : Option Net.IP) : Prop where
  addr : ipStack ≠ .ipv6Stack → ∀ ip, ifaceAddr = some ip →
    ip.to4.isSome = true ∧ host.Assigned .inet iface ip
  v6Addr : ∀ ip, ifaceV6Addr = some ip → host.Assigned .inet6 iface ip
  isSet : ipStack ≠ .ipv6Stack → ifaceAddr.isSome = true
  v6IsSet : ipStack ≠ .ipv4Stack → ifaceV6Addr.isSome = true

/-- No nil pointer is dereferenced, and the addresses that are returned are consistent. -/
def Consistent : Except Failure ExternalInterface → Prop
  | .error .nilPointer => False
  | .error (.error _) => True
  | .ok ext => ConsistentAddrs host ipStack ext.iface ext.ifaceAddr ext.ifaceV6Addr

def Acceptable (text : String) : Prop :=
  text = "" ∨ (parseIP text).isSome = true

structure Passes (iface : Interface) : Prop where
  mtu : iface.mtu ≠ 0
  publicIP : Acceptable opts.publicIP
  publicIPv6 : Acceptable opts.publicIPv6

variable {host sorting ipStack opts} {iface : Interface} {ip : Net.IP} {f : AddrFamily}
  {ifaceAddr ifaceV6Addr : Option Net.IP}

theorem publicAddr_cases (what text : String) :
    (Acceptable text ∧ ∃ ip, publicAddr what text = .ok ip) ∨
      (¬ Acceptable text ∧ ∃ err, publicAddr what text = .error (.error err)) := by
  unfold Acceptable publicAddr
  by_cases empty : text = ""
  · exact .inl ⟨.inl empty, none, if_pos empty⟩
  · rw [if_neg empty]
    cases parsed : parseIP text with
    | none => exact .inr ⟨by simp [empty], _, rfl⟩
    | some ip => exact .inl ⟨.inr rfl, some ip, rfl⟩

theorem finish_of_error {selection : Selection} {err : Failure}
    (failed : addrsOf host sorting ipStack selection = .error err) :
    finish host sorting ipStack opts selection = .error err := by
  rw [finish, failed]
  rfl

theorem consistent_finish_of_addrs {selection : Selection}
    (found : addrsOf host sorting ipStack selection = .ok ⟨some iface, ifaceAddr, ifaceV6Addr⟩) :
    Consistent host ipStack (finish host sorting ipStack opts selection) ↔
      (Passes opts iface → ConsistentAddrs host ipStack iface ifaceAddr ifaceV6Addr) := by
  have isFinish : finish host sorting ipStack opts selection =
      (if iface.mtu = 0 then
        throw (.error ("failed to determine MTU for " ++ (ifaceAddr.map IP.string).getD "<nil>" ++
          " interface"))
      else publicAddr "IP" opts.publicIP >>= fun extAddr =>
        publicAddr "IPv6" opts.publicIPv6 >>= fun extV6Addr =>
          pure ⟨iface, iface.name, ifaceAddr, ifaceV6Addr,
            if ipStack = .ipv6Stack then extAddr else extAddr.or ifaceAddr,
            if ipStack = .ipv4Stack then extV6Addr else extV6Addr.or ifaceV6Addr⟩) := by
    rw [finish, found]
    rfl
  rw [isFinish]
  by_cases noMtu : iface.mtu = 0
  · rw [if_pos noMtu]
    exact iff_of_true trivial fun passes => absurd noMtu passes.mtu
  · rw [if_neg noMtu]
    rcases publicAddr_cases "IP" opts.publicIP with ⟨good, ext, isExt⟩ | ⟨bad, err, isErr⟩
    · rcases publicAddr_cases "IPv6" opts.publicIPv6 with ⟨good6, ext6, isExt6⟩ | ⟨bad6, err, isErr⟩
      · rw [isExt, isExt6]
        constructor
        · exact fun consistent _ => consistent
        · exact fun consistent => consistent ⟨noMtu, good, good6⟩
      · rw [isExt, isErr]
        exact iff_of_true trivial fun passes => absurd passes.publicIPv6 bad6
    · rw [isErr]
      exact iff_of_true trivial fun passes => absurd passes.publicIP bad

theorem addrOf_cases (host : Host) (sorting : AddrSorting) (f : AddrFamily) (iface : Interface)
    (selected : Option Net.IP) :
    (∃ ip, addrOf host sorting f (some iface) selected = .ok ip ∧
      (selected = some ip ∨ selected = none ∧ host.Assigned f iface ip ∧
        ∃ ips, host.getInterfaceAddrs sorting f iface = .ok ips)) ∨
      (selected = none ∧ (¬ ∃ ips, host.getInterfaceAddrs sorting f iface = .ok ips) ∧
        ∃ err, addrOf host sorting f (some iface) selected = .error (.error err)) := by
  cases selected with
  | some ip => exact .inl ⟨ip, rfl, .inl rfl⟩
  | none =>
    have isAddr : addrOf host sorting f (some iface) none = firstAddr host sorting f iface := rfl
    rw [isAddr, firstAddr]
    cases listed : host.getInterfaceAddrs sorting f iface with
    | error err => exact .inr ⟨rfl, nofun, _, rfl⟩
    | ok ips =>
      cases ips with
      | nil =>
        obtain ⟨_, _, _, nonempty⟩ := interfaceAddrs_eq_ok_iff.mp listed
        exact absurd rfl nonempty
      | cons first ips =>
        refine .inl ⟨first, rfl, .inr ⟨rfl, ?_, _, rfl⟩⟩
        exact Host.assigned_of_mem listed (.head _)

theorem consistentAddrs_iff (isV4 : ipStack ≠ .ipv6Stack)
    (good6 : ∀ ip, ifaceV6Addr = some ip → host.Assigned .inet6 iface ip)
    (v6IsSet : ipStack ≠ .ipv4Stack → ifaceV6Addr.isSome) :
    ConsistentAddrs host ipStack iface (some ip) ifaceV6Addr ↔ host.Assigned .inet iface ip := by
  constructor
  · exact fun consistent => (consistent.addr isV4 ip rfl).2
  · intro assigned
    refine ⟨?_, good6, fun _ => rfl, v6IsSet⟩
    rintro _ _ ⟨rfl⟩
    exact ⟨Host.to4_of_assigned assigned, assigned⟩

def HasV6 (host : Host) (sorting : AddrSorting) (ipStack : Stack) (iface : Interface)
    (ifaceV6Addr : Option Net.IP) : Prop :=
  ipStack = .dualStack → ifaceV6Addr = none → ∃ ips, host.getInterfaceAddrs sorting .inet6 iface = .ok ips

def Fits (host : Host) (sorting : AddrSorting) (ipStack : Stack) (opts : PublicIPOpts)
    (iface : Interface) (ifaceAddr ifaceV6Addr : Option Net.IP) : Prop :=
  ipStack ≠ .ipv6Stack → ∀ ip, ifaceAddr = some ip → Passes opts iface →
    HasV6 host sorting ipStack iface ifaceV6Addr → host.Assigned .inet iface ip

theorem fits_iff (isV4 : ipStack ≠ .ipv6Stack) (hasV6 : HasV6 host sorting ipStack iface ifaceV6Addr)
    {P : Prop} (selected : ifaceAddr = some ip ∨ ifaceAddr = none ∧ host.Assigned .inet iface ip ∧ P) :
    Fits host sorting ipStack opts iface ifaceAddr ifaceV6Addr ↔
      (Passes opts iface → host.Assigned .inet iface ip) := by
  rcases selected with rfl | ⟨rfl, assigned, _⟩
  · constructor
    · exact fun fits passes => fits isV4 ip rfl passes hasV6
    · rintro assigned _ _ ⟨rfl⟩ passes _
      exact assigned passes
  · exact iff_of_true nofun fun _ => assigned

theorem fits_none : Fits host sorting ipStack opts iface none ifaceV6Addr :=
  nofun

theorem consistent_finish_iff (isStack : ipStack ≠ .noneStack)
    (good6 : ∀ ip, ifaceV6Addr = some ip → host.Assigned .inet6 iface ip) :
    Consistent host ipStack
        (finish host sorting ipStack opts ⟨some iface, ifaceAddr, ifaceV6Addr⟩) ↔
      Fits host sorting ipStack opts iface ifaceAddr ifaceV6Addr := by
  cases ipStack with
  | noneStack => exact absurd rfl isStack
  | ipv4Stack =>
    rcases addrOf_cases host sorting .inet iface ifaceAddr with
      ⟨ip, isAddr, selected⟩ | ⟨rfl, _, err, isErr⟩
    · have found : addrsOf host sorting .ipv4Stack ⟨some iface, ifaceAddr, ifaceV6Addr⟩ =
          .ok ⟨some iface, some ip, ifaceV6Addr⟩ := by
        rw [addrsOf, isAddr]
        rfl
      have hasV6 : HasV6 host sorting .ipv4Stack iface ifaceV6Addr :=
        fun isDual => Stack.noConfusion isDual
      rw [consistent_finish_of_addrs found, fits_iff Stack.noConfusion hasV6 selected,
        consistentAddrs_iff Stack.noConfusion good6 fun absurd => (absurd rfl).elim]
    · have failed : addrsOf host sorting .ipv4Stack ⟨some iface, none, ifaceV6Addr⟩ =
          .error (.error err) := by
        rw [addrsOf, isErr]
        rfl
      rw [finish_of_error failed]
      exact iff_of_true trivial fits_none
  | ipv6Stack =>
    refine iff_of_true ?_ fun absurd => (absurd rfl).elim
    rcases addrOf_cases host sorting .inet6 iface ifaceV6Addr with
      ⟨ip, isAddr, selected⟩ | ⟨rfl, _, err, isErr⟩
    · have found : addrsOf host sorting .ipv6Stack ⟨some iface, ifaceAddr, ifaceV6Addr⟩ =
          .ok ⟨some iface, ifaceAddr, some ip⟩ := by
        rw [addrsOf, isAddr]
        rfl
      have assigned : host.Assigned .inet6 iface ip := by
        rcases selected with selected | ⟨_, assigned, _⟩
        · exact good6 ip selected
        · exact assigned
      rw [consistent_finish_of_addrs found]
      refine fun _ => ⟨fun absurd => (absurd rfl).elim, ?_, fun absurd => (absurd rfl).elim, fun _ => rfl⟩
      rintro _ ⟨rfl⟩
      exact assigned
    · have failed : addrsOf host sorting .ipv6Stack ⟨some iface, ifaceAddr, none⟩ =
          .error (.error err) := by
        rw [addrsOf, isErr]
        rfl
      rw [finish_of_error failed]
      trivial
  | dualStack =>
    rcases addrOf_cases host sorting .inet iface ifaceAddr with
      ⟨ip, isAddr, selected⟩ | ⟨rfl, _, err, isErr⟩
    · rcases addrOf_cases host sorting .inet6 iface ifaceV6Addr with
        ⟨ip6, isAddr6, selected6⟩ | ⟨rfl, noV6, err, isErr⟩
      · have found : addrsOf host sorting .dualStack ⟨some iface, ifaceAddr, ifaceV6Addr⟩ =
            .ok ⟨some iface, some ip, some ip6⟩ := by
          rw [addrsOf, isAddr, isAddr6]
          rfl
        have hasV6 : HasV6 host sorting .dualStack iface ifaceV6Addr := by
          intro _ isNone
          rcases selected6 with selected6 | ⟨_, _, listed⟩
          · cases selected6.symm.trans isNone
          · exact listed
        have assigned6 : ∀ ip, some ip6 = some ip → host.Assigned .inet6 iface ip := by
          rintro _ ⟨rfl⟩
          rcases selected6 with selected6 | ⟨_, assigned, _⟩
          · exact good6 ip6 selected6
          · exact assigned
        rw [consistent_finish_of_addrs found, fits_iff Stack.noConfusion hasV6 selected,
          consistentAddrs_iff Stack.noConfusion assigned6 fun _ => rfl]
      · have failed : addrsOf host sorting .dualStack ⟨some iface, ifaceAddr, none⟩ =
            .error (.error err) := by
          rw [addrsOf, isAddr, isErr]
          rfl
        rw [finish_of_error failed]
        exact iff_of_true trivial fun _ _ _ _ hasV6 => absurd (hasV6 rfl rfl) noV6
    · have failed : addrsOf host sorting .dualStack ⟨some iface, none, ifaceV6Addr⟩ =
          .error (.error err) := by
        rw [addrsOf, isErr]
        rfl
      rw [finish_of_error failed]
      exact iff_of_true trivial fits_none

/-! ## The selections -/

theorem orFail_map_cases {α : Type} (text : String → String) (result : Except String α)
    (g : α → Selection) :
    (∃ value, result = .ok value ∧ (orFail text result).map g = .ok (g value)) ∨
      ∃ err, (orFail text result).map g = .error (.error err) := by
  cases result with
  | error err => exact .inr ⟨_, rfl⟩
  | ok value => exact .inl ⟨value, rfl, rfl⟩

def Completes (host : Host) (sorting : AddrSorting) (ipStack : Stack) (opts : PublicIPOpts)
    (selected : Except Failure Selection) : Prop :=
  Consistent host ipStack (selected >>= finish host sorting ipStack opts)

theorem completes_error {err : String} :
    Completes host sorting ipStack opts (.error (.error err)) :=
  trivial

theorem completes_ok_iff (isStack : ipStack ≠ .noneStack)
    (good6 : ∀ ip, ifaceV6Addr = some ip → host.Assigned .inet6 iface ip) :
    Completes host sorting ipStack opts (.ok ⟨some iface, ifaceAddr, ifaceV6Addr⟩) ↔
      Fits host sorting ipStack opts iface ifaceAddr ifaceV6Addr :=
  consistent_finish_iff isStack good6

theorem completes_iface (isStack : ipStack ≠ .noneStack) :
    Completes host sorting ipStack opts (.ok ⟨some iface, none, none⟩) :=
  (completes_ok_iff isStack (by simp)).mpr fits_none

theorem completes_orFail (isStack : ipStack ≠ .noneStack) (text : String → String)
    (result : Except String Interface) :
    Completes host sorting ipStack opts
      ((orFail text result).map fun iface => ⟨some iface, none, none⟩) := by
  rcases orFail_map_cases text result fun iface => ⟨some iface, none, none⟩ with
    ⟨iface, _, isOk⟩ | ⟨err, isErr⟩
  · rw [isOk]
    exact completes_iface isStack
  · rw [isErr]
    exact completes_error

theorem completes_selectDefault (isStack : ipStack ≠ .noneStack) :
    Completes host sorting ipStack opts (selectDefault host ipStack) := by
  cases ipStack with
  | noneStack => exact absurd rfl isStack
  | ipv4Stack => exact completes_orFail isStack _ _
  | ipv6Stack => exact completes_orFail isStack _ _
  | dualStack =>
    rw [selectDefault]
    cases host.getDefaultGatewayInterface with
    | error err => exact completes_error
    | ok iface =>
      cases host.getDefaultV6GatewayInterface with
      | error err => exact completes_error
      | ok v6Iface =>
        by_cases differ : iface.name ≠ v6Iface.name
        · change Completes host sorting .dualStack opts (if iface.name ≠ v6Iface.name then _ else _)
          rw [if_pos differ]
          exact completes_error
        · change Completes host sorting .dualStack opts (if iface.name ≠ v6Iface.name then _ else _)
          rw [if_neg differ]
          exact completes_iface isStack

/-! ### By an address -/

def NoInterface (ipStack : Stack) (opts : PublicIPOpts) (ifaceAddr : Net.IP) : Prop :=
  ipStack = .dualStack ∧ ifaceAddr.to4 = none ∧
    (opts.publicIPv6 = "" ∨ parseIP opts.publicIPv6 = none)

theorem byIP_cases (host : Host) (ifname : String) (ip : Net.IP) :
    (∃ iface, byIP host ifname ip = .ok iface ∧ host.Lists iface ∧ host.Assigned .inet iface ip) ∨
      ∃ err, byIP host ifname ip = .error (.error err) := by
  rw [byIP]
  cases found : host.getInterfaceByIP ip with
  | error err => exact .inr ⟨_, rfl⟩
  | ok iface => exact .inl ⟨iface, rfl, Host.assigned_of_interfaceWith found⟩

theorem byIP6_cases (host : Host) (name : String) (ip : Net.IP) :
    (∃ iface, byIP6 host name ip = .ok iface ∧ host.Lists iface ∧ host.Assigned .inet6 iface ip) ∨
      ∃ err, byIP6 host name ip = .error (.error err) := by
  rw [byIP6]
  cases found : host.getInterfaceByIP6 ip with
  | error err => exact .inr ⟨_, rfl⟩
  | ok iface => exact .inl ⟨iface, rfl, Host.assigned_of_interfaceWith found⟩

theorem publicIPv6_eq_none_iff :
    (if opts.publicIPv6 = "" then none else parseIP opts.publicIPv6) = none ↔
      opts.publicIPv6 = "" ∨ parseIP opts.publicIPv6 = none := by
  split
  next empty => exact iff_of_true rfl (.inl empty)
  next given => exact (or_iff_right given).symm

theorem completes_withPublicIPv6 {ifaceAddr : Net.IP} (isIPv4 : ifaceAddr.to4.isSome)
    (listed : host.Lists iface) (assigned : host.Assigned .inet iface ifaceAddr) :
    Completes host sorting .dualStack opts (withPublicIPv6 host opts ifaceAddr (some iface)) := by
  have fits : ∀ v6, Fits host sorting .dualStack opts iface (some ifaceAddr) v6 := by
    rintro _ _ _ ⟨rfl⟩ _ _
    exact assigned
  rw [withPublicIPv6]
  cases isV6 : (if opts.publicIPv6 = "" then none else parseIP opts.publicIPv6) with
  | none => exact (completes_ok_iff Stack.noConfusion (by simp)).mpr (fits none)
  | some ip6 =>
    dsimp only
    rcases byIP6_cases host opts.publicIPv6 ip6 with ⟨v6Iface, found, listed6, assigned6⟩ | ⟨err, isErr⟩
    · have isOther : ¬ ifaceAddr.to4.isNone := by simp [Option.isSome_iff_ne_none.mp isIPv4]
      rw [found]
      change Completes host sorting .dualStack opts (if ifaceAddr.to4.isNone then _
        else if iface.name ≠ v6Iface.name then _ else _)
      rw [if_neg isOther]
      by_cases differ : iface.name ≠ v6Iface.name
      · rw [if_pos differ]
        exact completes_error
      · rw [if_neg differ]
        obtain rfl := Host.eq_of_name_eq listed listed6 (not_not.mp differ)
        refine (@completes_ok_iff _ _ _ _ _ _ (some ip6) Stack.noConfusion ?_).mpr (fits _)
        rintro _ ⟨rfl⟩
        exact assigned6
    · rw [isErr]
      exact completes_error

theorem completes_withPublicIPv6_iff {ifaceAddr : Net.IP} (notIPv4 : ifaceAddr.to4 = none) :
    Completes host sorting .dualStack opts (withPublicIPv6 host opts ifaceAddr none) ↔
      ¬ (opts.publicIPv6 = "" ∨ parseIP opts.publicIPv6 = none) := by
  rw [← publicIPv6_eq_none_iff, withPublicIPv6]
  cases isV6 : (if opts.publicIPv6 = "" then none else parseIP opts.publicIPv6) with
  | none => exact iff_of_false (fun crash => crash) fun given => given rfl
  | some ip6 =>
    refine iff_of_true ?_ (by simp)
    dsimp only
    rcases byIP6_cases host opts.publicIPv6 ip6 with ⟨v6Iface, found, _, assigned6⟩ | ⟨err, isErr⟩
    · rw [found]
      change Completes host sorting .dualStack opts (if ifaceAddr.to4.isNone then _ else _)
      rw [if_pos (by simp [notIPv4])]
      refine (@completes_ok_iff _ _ _ _ _ _ (some ip6) Stack.noConfusion ?_).mpr fits_none
      rintro _ ⟨rfl⟩
      exact assigned6
    · rw [isErr]
      exact completes_error

theorem completes_selectByIP_iff (isStack : ipStack ≠ .noneStack) (ifname : String)
    (ifaceAddr : Net.IP) :
    Completes host sorting ipStack opts (selectByIP host ipStack opts ifname ifaceAddr) ↔
      ¬ NoInterface ipStack opts ifaceAddr := by
  cases ipStack with
  | noneStack => exact absurd rfl isStack
  | ipv4Stack =>
    refine iff_of_true ?_ fun noInterface => Stack.noConfusion noInterface.1
    rw [selectByIP]
    rcases byIP_cases host ifname ifaceAddr with ⟨iface, found, _, assigned⟩ | ⟨err, isErr⟩
    · rw [found]
      refine (@completes_ok_iff _ _ _ _ _ (some ifaceAddr) none isStack (by simp)).mpr ?_
      rintro _ _ ⟨rfl⟩ _ _
      exact assigned
    · rw [isErr]
      exact completes_error
  | ipv6Stack =>
    refine iff_of_true ?_ fun noInterface => Stack.noConfusion noInterface.1
    rw [selectByIP]
    rcases byIP6_cases host ifname ifaceAddr with ⟨iface, found, _, assigned⟩ | ⟨err, isErr⟩
    · rw [found]
      refine (@completes_ok_iff _ _ _ _ _ _ (some ifaceAddr) isStack ?_).mpr fun isV4 => (isV4 rfl).elim
      rintro _ ⟨rfl⟩
      exact assigned
    · rw [isErr]
      exact completes_error
  | dualStack =>
    rw [selectByIP, NoInterface]
    by_cases isIPv4 : ifaceAddr.to4.isSome
    · refine iff_of_true ?_ fun noInterface => by simp [noInterface.2.1] at isIPv4
      rw [if_pos isIPv4]
      rcases byIP_cases host ifname ifaceAddr with ⟨iface, found, listed, assigned⟩ | ⟨err, isErr⟩
      · rw [found]
        exact completes_withPublicIPv6 isIPv4 listed assigned
      · rw [isErr]
        exact completes_error
    · have notIPv4 : ifaceAddr.to4 = none := Option.not_isSome_iff_eq_none.mp isIPv4
      rw [if_neg isIPv4, completes_withPublicIPv6_iff notIPv4, and_iff_right rfl, and_iff_right notIPv4]

def ForeignSource (host : Host) (sorting : AddrSorting) (ipStack : Stack) (opts : PublicIPOpts)
    (ifcanreach : String) : Prop :=
  ∃ route routes iface, host.routeGet (parseIP ifcanreach) = .ok (route :: routes) ∧
    host.interfaceByIndex route.linkIndex = .ok iface ∧
    ¬ Fits host sorting ipStack opts iface route.src none

theorem completes_selectByRoute_iff (isStack : ipStack ≠ .noneStack) (ifcanreach : String) :
    Completes host sorting ipStack opts (selectByRoute host ifcanreach) ↔
      ¬ ForeignSource host sorting ipStack opts ifcanreach := by
  rw [selectByRoute, Host.getInterfaceBySpecificIPRouting, ForeignSource]
  cases isRoutes : host.routeGet (parseIP ifcanreach) with
  | error err => exact iff_of_true completes_error (by simp)
  | ok routes =>
    cases routes with
    | nil => exact iff_of_true completes_error (by simp)
    | cons route routes =>
      dsimp only
      cases isIface : host.interfaceByIndex route.linkIndex with
      | error err => exact iff_of_true completes_error (by simp [isIface])
      | ok iface =>
        refine (@completes_ok_iff _ _ _ _ _ route.src none isStack (by simp)).trans ?_
        constructor
        · rintro fits ⟨route', routes', iface', same, isIface', notFits⟩
          cases same
          cases isIface.symm.trans isIface'
          exact notFits fits
        · intro notForeign
          by_contra notFits
          exact notForeign ⟨route, routes, iface, rfl, isIface, notFits⟩

/-! ### By a pattern -/

section Pattern

variable (host) (sorting) (ifregex : String → Bool)

def matched (f : AddrFamily) (iface : Interface) : Option Net.IP :=
  match host.getInterfaceAddrs sorting f iface with
  | .ok ips => matchIP ifregex ips
  | .error _ => none

def matchesBoth (iface : Interface) : Bool :=
  (matched host sorting ifregex .inet iface).isSome && (matched host sorting ifregex .inet6 iface).isSome

/-- The address that an interface leaves recorded: it has addresses of both families, and one of IPv4 but
none of IPv6 matches. -/
def recordedBy (iface : Interface) : Option Net.IP :=
  match host.getInterfaceAddrs sorting .inet6 iface with
  | .ok ips => if (matchIP ifregex ips).isNone then matched host sorting ifregex .inet iface else none
  | .error _ => none

variable {host sorting ifregex}

attribute [local simp] ifaceLoop

theorem assigned_of_matched (isMatch : matched host sorting ifregex f iface = some ip) :
    host.Assigned f iface ip := by
  rw [matched] at isMatch
  cases listed : host.getInterfaceAddrs sorting f iface with
  | error err => simp [listed] at isMatch
  | ok ips =>
    rw [listed] at isMatch
    exact Host.assigned_of_mem listed (List.mem_of_find?_eq_some isMatch)

theorem ifaceLoop_cons_ipv4 (iface : Interface) (ifaces : List Interface)
    (ifaceAddr ifaceV6Addr : Option Net.IP) :
    ifaceLoop host sorting .ipv4Stack ifregex (iface :: ifaces) ifaceAddr ifaceV6Addr =
      if (matched host sorting ifregex .inet iface).isSome then
        ⟨some iface, matched host sorting ifregex .inet iface, ifaceV6Addr⟩
      else ifaceLoop host sorting .ipv4Stack ifregex ifaces ifaceAddr ifaceV6Addr := by
  rw [ifaceLoop, matched]
  cases host.getInterfaceAddrs sorting .inet iface with
  | error err => rfl
  | ok ips =>
    dsimp only
    split <;> simp [*]

theorem ifaceLoop_cons_ipv6 (iface : Interface) (ifaces : List Interface)
    (ifaceAddr ifaceV6Addr : Option Net.IP) :
    ifaceLoop host sorting .ipv6Stack ifregex (iface :: ifaces) ifaceAddr ifaceV6Addr =
      if (matched host sorting ifregex .inet6 iface).isSome then
        ⟨some iface, ifaceAddr, matched host sorting ifregex .inet6 iface⟩
      else ifaceLoop host sorting .ipv6Stack ifregex ifaces ifaceAddr ifaceV6Addr := by
  rw [ifaceLoop, matched]
  cases host.getInterfaceAddrs sorting .inet6 iface with
  | error err => rfl
  | ok ips =>
    dsimp only
    split <;> simp [*]

theorem ifaceLoop_cons_dual (iface : Interface) (ifaces : List Interface)
    (ifaceAddr ifaceV6Addr : Option Net.IP) :
    ifaceLoop host sorting .dualStack ifregex (iface :: ifaces) ifaceAddr ifaceV6Addr =
      if matchesBoth host sorting ifregex iface then
        ⟨some iface, matched host sorting ifregex .inet iface, matched host sorting ifregex .inet6 iface⟩
      else ifaceLoop host sorting .dualStack ifregex ifaces
        ((recordedBy host sorting ifregex iface).or ifaceAddr) ifaceV6Addr := by
  rw [ifaceLoop, matchesBoth, recordedBy, matched, matched]
  cases host.getInterfaceAddrs sorting .inet iface with
  | error err => cases host.getInterfaceAddrs sorting .inet6 iface <;> simp
  | ok ips =>
    cases host.getInterfaceAddrs sorting .inet6 iface with
    | error err => simp
    | ok ips6 =>
      dsimp only
      split <;> simp [*]

theorem ifaceLoop_cases (isStack : ipStack = .ipv4Stack ∨ ipStack = .ipv6Stack)
    (ifaces : List Interface) :
    (∃ iface ifaceAddr ifaceV6Addr,
      ifaceLoop host sorting ipStack ifregex ifaces none none = ⟨some iface, ifaceAddr, ifaceV6Addr⟩ ∧
        (∀ ip, ifaceAddr = some ip → host.Assigned .inet iface ip) ∧
        ∀ ip, ifaceV6Addr = some ip → host.Assigned .inet6 iface ip) ∨
      ifaceLoop host sorting ipStack ifregex ifaces none none = ⟨none, none, none⟩ := by
  induction ifaces with
  | nil => exact .inr (by rw [ifaceLoop])
  | cons iface ifaces ih =>
    rcases isStack with rfl | rfl
    · rw [ifaceLoop_cons_ipv4]
      split
      · exact .inl ⟨iface, _, none, rfl, fun ip => assigned_of_matched, by simp⟩
      · exact ih
    · rw [ifaceLoop_cons_ipv6]
      split
      · exact .inl ⟨iface, none, _, rfl, by simp, fun ip => assigned_of_matched⟩
      · exact ih

theorem ifaceLoop_dual_cases (ifaces : List Interface) (ifaceAddr : Option Net.IP) :
    (∃ iface ∈ ifaces, matchesBoth host sorting ifregex iface ∧
      ifaceLoop host sorting .dualStack ifregex ifaces ifaceAddr none =
        ⟨some iface, matched host sorting ifregex .inet iface,
          matched host sorting ifregex .inet6 iface⟩) ∨
      ((∀ iface ∈ ifaces, matchesBoth host sorting ifregex iface = false) ∧
        ifaceLoop host sorting .dualStack ifregex ifaces ifaceAddr none =
          ⟨none, ((ifaces.filterMap (recordedBy host sorting ifregex)).getLast?).or ifaceAddr, none⟩) := by
  induction ifaces generalizing ifaceAddr with
  | nil => exact .inr ⟨by simp, by simp⟩
  | cons iface ifaces ih =>
    rw [ifaceLoop_cons_dual]
    cases both : matchesBoth host sorting ifregex iface with
    | true => exact .inl ⟨iface, (.head _), both, rfl⟩
    | false =>
      rw [if_neg Bool.false_ne_true]
      rcases ih ((recordedBy host sorting ifregex iface).or ifaceAddr) with
        ⟨other, mem, isBoth, result⟩ | ⟨noneBoth, result⟩
      · exact .inl ⟨other, List.mem_cons_of_mem iface mem, isBoth, result⟩
      · refine .inr ⟨List.forall_mem_cons.mpr ⟨both, noneBoth⟩, result.trans ?_⟩
        cases recorded : recordedBy host sorting ifregex iface with
        | none => simp [recorded]
        | some ip =>
          rw [List.filterMap_cons_some recorded, List.getLast?_cons]
          cases (ifaces.filterMap (recordedBy host sorting ifregex)).getLast? <;> rfl

def Recorded (host : Host) (sorting : AddrSorting) (ipStack : Stack) (opts : PublicIPOpts)
    (ifregex : String → Bool) : Prop :=
  ipStack = .dualStack ∧ ∃ ifaces iface, host.interfaces = .ok ifaces ∧
    (∀ other ∈ ifaces, matchesBoth host sorting ifregex other = false) ∧
    ifaces.find? (ifregex ·.name) = some iface ∧
    ¬ Fits host sorting ipStack opts iface
      (ifaces.filterMap (recordedBy host sorting ifregex)).getLast? none

theorem completes_selectByRegex_of_none {ifaces : List Interface} (isStack : ipStack ≠ .noneStack)
    (listed : host.interfaces = .ok ifaces) (ifregexS : String)
    (found : ifaceLoop host sorting ipStack ifregex ifaces none none = ⟨none, ifaceAddr, none⟩) :
    Completes host sorting ipStack opts (selectByRegex host sorting ipStack ifregexS ifregex) ↔
      ∀ iface, ifaces.find? (ifregex ·.name) = some iface →
        Fits host sorting ipStack opts iface ifaceAddr none := by
  rw [selectByRegex, listed]
  dsimp only
  rw [found]
  cases byName : ifaces.find? (ifregex ·.name) with
  | none => exact iff_of_true (by simp [completes_error]) (by simp)
  | some iface =>
    have selected : Completes host sorting ipStack opts (.ok ⟨some iface, ifaceAddr, none⟩) ↔
        Fits host sorting ipStack opts iface ifaceAddr none := completes_ok_iff isStack (by simp)
    simpa [byName] using selected

theorem completes_selectByRegex_of_some {ifaces : List Interface} (isStack : ipStack ≠ .noneStack)
    (listed : host.interfaces = .ok ifaces) (ifregexS : String)
    (found : ifaceLoop host sorting ipStack ifregex ifaces none none =
      ⟨some iface, ifaceAddr, ifaceV6Addr⟩)
    (good : ∀ ip, ifaceAddr = some ip → host.Assigned .inet iface ip)
    (good6 : ∀ ip, ifaceV6Addr = some ip → host.Assigned .inet6 iface ip) :
    Completes host sorting ipStack opts (selectByRegex host sorting ipStack ifregexS ifregex) := by
  rw [selectByRegex, listed]
  dsimp only
  rw [found]
  exact (completes_ok_iff isStack good6).mpr fun _ ip isAddr _ _ => good ip isAddr

theorem completes_selectByRegex_iff (isStack : ipStack ≠ .noneStack) (ifregexS : String) :
    Completes host sorting ipStack opts (selectByRegex host sorting ipStack ifregexS ifregex) ↔
      ¬ Recorded host sorting ipStack opts ifregex := by
  cases listed : host.interfaces with
  | error err =>
    refine iff_of_true ?_ fun ⟨_, _, _, isOk, _⟩ => by cases listed.symm.trans isOk
    rw [selectByRegex, listed]
    exact completes_error
  | ok ifaces =>
    by_cases isDual : ipStack = .dualStack
    · subst isDual
      rcases ifaceLoop_dual_cases ifaces none with ⟨iface, mem, both, found⟩ | ⟨noneBoth, found⟩
      · refine iff_of_true ?_ ?_
        · exact completes_selectByRegex_of_some isStack listed ifregexS found
            (fun _ => assigned_of_matched) fun _ => assigned_of_matched
        · rintro ⟨_, _, _, isOk, noneBoth, _⟩
          cases listed.symm.trans isOk
          exact Bool.false_ne_true ((noneBoth iface mem).symm.trans both)
      · rw [Option.or_none] at found
        rw [completes_selectByRegex_of_none isStack listed ifregexS found, Recorded, listed]
        constructor
        · rintro fits ⟨_, _, iface, isOk, _, byName, notFits⟩
          cases isOk
          exact notFits (fits iface byName)
        · intro notRecorded iface byName
          by_contra notFits
          exact notRecorded ⟨rfl, ifaces, iface, rfl, noneBoth, byName, notFits⟩
    · refine iff_of_true ?_ fun recorded => isDual recorded.1
      have isSingle : ipStack = .ipv4Stack ∨ ipStack = .ipv6Stack := by
        cases ipStack <;> simp_all
      rcases ifaceLoop_cases isSingle ifaces with
        ⟨iface, ifaceAddr, ifaceV6Addr, found, good, good6⟩ | found
      · exact completes_selectByRegex_of_some isStack listed ifregexS found good good6
      · exact (completes_selectByRegex_of_none isStack listed ifregexS found).mpr
          fun _ _ => fits_none

end Pattern

/-! ### Every selection -/

/-- The selections that do not lead to a consistent result. -/
inductive Misled (host : Host) (sorting : AddrSorting) (ipStack : Stack) (opts : PublicIPOpts)
    (ifname : String) (ifregex : Option (String → Bool)) (ifcanreach : String) : Prop where
  | byIP (ifaceAddr : Net.IP) : ifname ≠ "" → parseIP ifname = some ifaceAddr →
      NoInterface ipStack opts ifaceAddr → Misled host sorting ipStack opts ifname ifregex ifcanreach
  | byRegex (pattern : String → Bool) : ifname = "" → ifregex = some pattern →
      Recorded host sorting ipStack opts pattern →
      Misled host sorting ipStack opts ifname ifregex ifcanreach
  | byRoute : ifname = "" → ifregex = none → ifcanreach ≠ "" →
      ForeignSource host sorting ipStack opts ifcanreach →
      Misled host sorting ipStack opts ifname ifregex ifcanreach

theorem completes_select_iff (isStack : ipStack ≠ .noneStack) (ifname ifregexS : String)
    (ifregex : Option (String → Bool)) (ifcanreach : String) :
    Completes host sorting ipStack opts
        (select host sorting ipStack opts ifname ifregexS ifregex ifcanreach) ↔
      ¬ Misled host sorting ipStack opts ifname ifregex ifcanreach := by
  unfold select
  by_cases named : ifname = ""
  · rw [if_neg (not_not.mpr named)]
    cases ifregex with
    | some ifregex =>
      refine (completes_selectByRegex_iff isStack ifregexS).trans (not_congr ⟨?_, ?_⟩)
      · exact .byRegex ifregex named rfl
      · rintro (⟨_, isNamed, _, _⟩ | ⟨_, _, isPattern, recorded⟩ | ⟨_, noPattern, _, _⟩)
        · exact absurd named isNamed
        · cases isPattern
          exact recorded
        · cases noPattern
    | none =>
      by_cases reach : ifcanreach = ""
      · rw [if_neg (not_not.mpr reach)]
        refine iff_of_true (completes_selectDefault isStack) ?_
        rintro (⟨_, isNamed, _, _⟩ | ⟨_, _, isPattern, _⟩ | ⟨_, _, isReach, _⟩)
        · exact isNamed named
        · cases isPattern
        · exact isReach reach
      · rw [if_pos reach]
        refine (completes_selectByRoute_iff isStack ifcanreach).trans (not_congr ⟨?_, ?_⟩)
        · exact .byRoute named rfl reach
        · rintro (⟨_, isNamed, _, _⟩ | ⟨_, _, isPattern, _⟩ | ⟨_, _, _, foreign⟩)
          · exact absurd named isNamed
          · cases isPattern
          · exact foreign
  · rw [if_pos named]
    cases parsed : parseIP ifname with
    | some ifaceAddr =>
      refine (completes_selectByIP_iff isStack ifname ifaceAddr).trans (not_congr ⟨?_, ?_⟩)
      · exact .byIP ifaceAddr named parsed
      · rintro (⟨_, _, isParsed, noInterface⟩ | ⟨_, isEmpty, _, _⟩ | ⟨isEmpty, _, _, _⟩)
        · cases parsed.symm.trans isParsed
          exact noInterface
        · exact absurd isEmpty named
        · exact absurd isEmpty named
    | none =>
      refine iff_of_true (completes_orFail isStack _ _) ?_
      rintro (⟨_, _, isParsed, _⟩ | ⟨_, isEmpty, _, _⟩ | ⟨isEmpty, _, _, _⟩)
      · cases parsed.symm.trans isParsed
      · exact named isEmpty
      · exact named isEmpty

inductive Given (compile : String → Except String (String → Bool)) (ifregexS : String) :
    Option (String → Bool) → Prop where
  | empty : ifregexS = "" → Given compile ifregexS none
  | pattern (ifregex : String → Bool) : ifregexS ≠ "" → compile ifregexS = .ok ifregex →
      Given compile ifregexS (some ifregex)

theorem lookupExtIface_cases (host : Host) (sorting : AddrSorting) (ipStack : Stack)
    (opts : PublicIPOpts) (compile : String → Except String (String → Bool))
    (ifname ifregexS ifcanreach : String) :
    (∃ ifregex, Given compile ifregexS ifregex ∧
      (∀ other, Given compile ifregexS other → other = ifregex) ∧
      lookupExtIface host sorting ipStack opts compile ifname ifregexS ifcanreach =
        if ipStack = .noneStack then .error (.error "none matched ip stack")
        else select host sorting ipStack opts ifname ifregexS ifregex ifcanreach >>=
          finish host sorting ipStack opts) ∨
      ((∀ ifregex, ¬ Given compile ifregexS ifregex) ∧
        ∃ err, lookupExtIface host sorting ipStack opts compile ifname ifregexS ifcanreach =
          .error (.error err)) := by
  rw [lookupExtIface]
  by_cases empty : ifregexS = ""
  · refine .inl ⟨none, .empty empty, ?_, ?_⟩
    · rintro _ (_ | ⟨_, given, _⟩)
      · rfl
      · exact absurd empty given
    · rw [if_neg (not_not.mpr empty)]
      rfl
  · rw [if_pos empty]
    cases compiled : compile ifregexS with
    | error err =>
      refine .inr ⟨?_, _, rfl⟩
      rintro _ (isEmpty | ⟨_, _, isOk⟩)
      · exact empty isEmpty
      · cases compiled.symm.trans isOk
    | ok ifregex =>
      refine .inl ⟨some ifregex, .pattern ifregex empty compiled, ?_, rfl⟩
      rintro _ (isEmpty | ⟨_, _, isOk⟩)
      · exact absurd isEmpty empty
      · cases compiled.symm.trans isOk
        rfl

/-- Whatever the host and the options are, the result is consistent unless the selection is misled. -/
theorem consistent_lookupExtIface_iff (host : Host) (sorting : AddrSorting) (ipStack : Stack)
    (opts : PublicIPOpts) (compile : String → Except String (String → Bool))
    (ifname ifregexS ifcanreach : String) :
    Consistent host ipStack
        (lookupExtIface host sorting ipStack opts compile ifname ifregexS ifcanreach) ↔
      ¬ (ipStack ≠ .noneStack ∧ ∃ ifregex, Given compile ifregexS ifregex ∧
        Misled host sorting ipStack opts ifname ifregex ifcanreach) := by
  rcases lookupExtIface_cases host sorting ipStack opts compile ifname ifregexS ifcanreach with
    ⟨ifregex, given, unique, result⟩ | ⟨notGiven, err, result⟩
  · rw [result]
    by_cases isNone : ipStack = .noneStack
    · rw [if_pos isNone]
      exact iff_of_true trivial fun misled => misled.1 isNone
    · rw [if_neg isNone]
      refine (completes_select_iff isNone ifname ifregexS ifregex ifcanreach).trans (not_congr ⟨?_, ?_⟩)
      · exact fun misled => ⟨isNone, ifregex, given, misled⟩
      · rintro ⟨_, other, isGiven, misled⟩
        exact unique other isGiven ▸ misled
  · rw [result]
    exact iff_of_true trivial fun ⟨_, ifregex, given, _⟩ => notGiven ifregex given

def singleHost : Host where
  interfaces := .ok [⟨"eth0", 2, 1500⟩]
  addrList := fun
    | .inet, _ => .ok [⟨⟨.v4 0x0a000001, 24⟩, 0, "eth0"⟩]
    | .inet6, _ => .ok [⟨⟨.v16 0x20010db8000000000000000000000001, 64⟩, 0, ""⟩]
  routeList := fun _ => .ok []
  routeGet := fun _ => .ok []
  names := by simp

/-- In a dual stack an interface is asked for by its own IPv6 address, and there are no other options. -/
theorem not_consistent_of_ipv6_ifname :
    ¬ Consistent singleHost .dualStack
      (lookupExtIface singleHost (.byInsertion 12 asymm_compareAddrs) .dualStack ⟨"", ""⟩
        (fun _ => .error "no pattern") "2001:db8::1" "" "") := by
  have parsed : parseIP "2001:db8::1" = some (.v16 0x20010db8000000000000000000000001) := by decide
  have misled : Misled singleHost (.byInsertion 12 asymm_compareAddrs) .dualStack ⟨"", ""⟩
      "2001:db8::1" none "" :=
    .byIP _ (by decide) parsed ⟨rfl, by decide, .inl rfl⟩
  intro consistent
  have completes : Completes singleHost (.byInsertion 12 asymm_compareAddrs) .dualStack ⟨"", ""⟩
      (select singleHost (.byInsertion 12 asymm_compareAddrs) .dualStack ⟨"", ""⟩
        "2001:db8::1" "" none "") := consistent
  exact (completes_select_iff Stack.noConfusion "2001:db8::1" "" none "").mp completes misled

end Consistency

end Flannel.Ipmatch
