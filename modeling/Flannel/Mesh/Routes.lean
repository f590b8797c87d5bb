import Flannel.Net.Cidr
import Flannel.Program.Outage
import Flannel.Text.Fields

/-!
# The route manager of the cloudflare-mesh backend

`netlinkRouteManager`: for each remote pod network a route in a table of its own, a policy rule
that leads to the table, and a SNAT rule. Its functions are programs over netlink and iptables
calls. Joined errors are a list of texts, empty for nil.
-/

namespace Flannel.Mesh

open Net Program Text

/-! ## Requests -/

inductive KernelError
  | eexist
  | esrch
  | enoent
  /-- An iptables error for which `IsNotExist` holds. -/
  | notExist
  | other (text : String)
  deriving DecidableEq

def KernelError.error : KernelError → String
  | .eexist => "file exists"
  | .esrch => "no such process"
  | .enoent => "no such file or directory"
  | .notExist => "No chain/target/match by that name."
  | .other text => text

structure Route where
  linkIndex : Nat
  dst : Option IPNet
  table : Nat
  deriving DecidableEq

structure Rule where
  priority : Nat
  table : Nat
  dst : Option IPNet
  selectors : List String := []
  deriving DecidableEq

/-- The calls of `netlinkOps` and `iptablesClient`, the latter for the chain
`FLANNEL-POSTRTG` of the table `nat`. -/
inductive Op
  | linkByName (name : String)
  | routeReplace (route : Route)
  /-- `RouteListFiltered` by the table, and by the destination if one is given. -/
  | routeListFiltered (dst : Option IPNet) (table : Nat)
  | routeDel (route : Route)
  | ruleAdd (rule : Rule)
  | ruleList
  | ruleDel (rule : Rule)
  | chainExists (rulespec : List String)
  | chainInsert (pos : Nat) (rulespec : List String)
  | chainDelete (rulespec : List String)
  | chainList
  deriving DecidableEq

abbrev Value : Op → Type
  | .linkByName _ => Nat
  | .routeListFiltered _ _ => List Route
  | .ruleList => List Rule
  | .chainExists _ => Bool
  | .chainList => List String
  | _ => Unit

abbrev Res (op : Op) : Type :=
  Except KernelError (Value op)

abbrev Action := Prog Op Res

abbrev call (op : Op) : Action (Res op) :=
  Prog.request op

/-! ## The source functions -/

def hostSNATComment : String :=
  "cloudflare-mesh hostNetwork SNAT"

def meshRulePriority : Nat :=
  109

def remoteRulePriority : Nat :=
  110

structure RouteManager where
  linkName : String
  table : Nat
  meshCIDR : String
  clusterCIDR : String
  localSNATIP : String
  deriving DecidableEq

/-- `%q` of a text without characters that have to be escaped. -/
def quoted (text : String) : String :=
  "\"" ++ text ++ "\""

def parseCIDR (value : String) : Except String IPNet :=
  match Net.parseCIDR value with
  | none => .error ("parse CIDR " ++ quoted value ++ ": invalid CIDR address: " ++ value)
  | some network =>
    match (cidrAddress value).bind IP.to4 with
    | none => .error ("CIDR " ++ quoted value ++ " is not IPv4")
    | some ip => .ok ⟨.v4 ip, network.length⟩

def cidrsOverlap (first second : IPNet) : Bool :=
  first.contains second.ip || second.contains first.ip

namespace RouteManager

variable (m : RouteManager)

def hostSNATRule (dst : IPNet) : List String :=
  ["!", "-s", m.clusterCIDR, "-d", dst.string, "-m", "addrtype", "--src-type", "LOCAL",
    "-o", m.linkName, "-m", "comment", "--comment", hostSNATComment,
    "-j", "SNAT", "--to-source", m.localSNATIP]

def remoteRule (dst : IPNet) : Rule :=
  { priority := remoteRulePriority, table := m.table, dst := some dst }

def meshRule (dst : IPNet) : Rule :=
  { priority := meshRulePriority, table := m.table, dst := some dst }

def ensureMeshRoute (linkIndex : Nat) (meshNetwork : IPNet) : Action (Option String) := do
  match ← call (.routeReplace ⟨linkIndex, some meshNetwork, m.table⟩) with
  | .error err => pure (some ("ensure Mesh CIDR route " ++ meshNetwork.string ++ " in table " ++
      toString m.table ++ ": " ++ err.error))
  | .ok _ =>
    match ← call (.ruleAdd (m.meshRule meshNetwork)) with
    | .ok _ | .error .eexist => pure none
    | .error err => pure (some ("ensure Mesh CIDR policy rule for " ++ meshNetwork.string ++ ": " ++
        err.error))

def ensureHostSNAT (dst : IPNet) : Action (Option String) := do
  match ← call (.chainExists (m.hostSNATRule dst)) with
  | .error err => pure (some ("check hostNetwork SNAT for " ++ dst.string ++ ": " ++ err.error))
  | .ok true => pure none
  | .ok false =>
    match ← call (.chainInsert 2 (m.hostSNATRule dst)) with
    | .error err => pure (some ("ensure hostNetwork SNAT for " ++ dst.string ++ ": " ++ err.error))
    | .ok _ => pure none

def removeHostSNAT (dst : IPNet) : Action (Option String) := do
  match ← call (.chainExists (m.hostSNATRule dst)) with
  | .error err => pure (some ("check hostNetwork SNAT for " ++ dst.string ++ ": " ++ err.error))
  | .ok false => pure none
  | .ok true =>
    match ← call (.chainDelete (m.hostSNATRule dst)) with
    | .error err => pure (some ("remove hostNetwork SNAT for " ++ dst.string ++ ": " ++ err.error))
    | .ok _ => pure none

def ensure (network : String) : Action (Option String) := do
  match ← call (.linkByName m.linkName) with
  | .error err => pure (some ("refresh native Mesh interface " ++ quoted m.linkName ++ ": " ++ err.error))
  | .ok linkIndex =>
    match parseCIDR network with
    | .error err => pure (some err)
    | .ok dst =>
      match ← call (.routeReplace ⟨linkIndex, some dst, m.table⟩) with
      | .error err => pure (some ("ensure native Mesh route " ++ network ++ " in table " ++
          toString m.table ++ ": " ++ err.error))
      | .ok _ =>
        match ← call (.ruleAdd (m.remoteRule dst)) with
        | .ok _ | .error .eexist => m.ensureHostSNAT dst
        | .error err => pure (some ("ensure native Mesh policy rule for " ++ network ++ ": " ++
            err.error))

def deleteRoute (message : String) (route : Route) : Action (List String) := do
  match ← call (.routeDel route) with
  | .ok _ | .error .esrch => pure []
  | .error err => pure [message ++ ": " ++ err.error]

def deleteRule (message : String) (rule : Rule) : Action (List String) := do
  match ← call (.ruleDel rule) with
  | .ok _ | .error .enoent => pure []
  | .error err => pure [message ++ ": " ++ err.error]

def deleteRoutes (dst : Option IPNet) (listing message : String) : Action (List String) := do
  match ← call (.routeListFiltered dst m.table) with
  | .error err => pure [listing ++ ": " ++ err.error]
  | .ok routes => collect (deleteRoute message) routes

def deleteRules (select : Rule → Bool) (message : String) : Action (List String) := do
  match ← call .ruleList with
  | .error err => pure ["list native Mesh policy rules: " ++ err.error]
  | .ok rules => collect (deleteRule message) (rules.filter select)

def isRemoteRule (rule : Rule) : Bool :=
  rule.table == m.table && rule.priority == remoteRulePriority && rule.dst.isSome

def remove (network : String) : Action (List String) :=
  match parseCIDR network with
  | .error err => pure [err]
  | .ok dst => do
    let routes ← m.deleteRoutes (some dst)
      ("list native Mesh route " ++ network ++ " in table " ++ toString m.table)
      ("remove native Mesh route " ++ network ++ " from table " ++ toString m.table)
    let rules ← deleteRules
      (fun rule => m.isRemoteRule rule && rule.dst.map IPNet.string == some dst.string)
      ("remove native Mesh policy rule for " ++ network)
    let snat ← m.removeHostSNAT dst
    pure (routes ++ rules ++ snat.toList)

/-- The destination of one line of `iptables -S`: the word after the first `-d`, if it
is a network. -/
def destinationOf : List (List Char) → Option String
  | flag :: value :: rest =>
    if flag = ['-', 'd'] then (Net.parseCIDR (String.ofList value)).map IPNet.string
    else destinationOf (value :: rest)
  | _ => none

def carriesComment (line : String) : Bool :=
  contains line.toList hostSNATComment.toList

def snatDestinations (rules : List String) : List String :=
  (rules.filter carriesComment).filterMap fun rule => destinationOf (fields rule.toList)

def managedSNATDestinations : Action (Except String (List String)) := do
  match ← call .chainList with
  | .ok rules => pure (.ok (snatDestinations rules))
  | .error .notExist => pure (.ok [])
  | .error err => pure (.error ("list hostNetwork SNAT rules: " ++ err.error))

def stale (desired found : List String) : List String :=
  (found.dedup.filter fun network => network != m.meshCIDR && !desired.contains network).mergeSort
    fun first second => !decide (second < first)

def staleDestinations (desired : List String) : Action (Except String (List String)) := do
  match ← call (.routeListFiltered none m.table) with
  | .error err => pure (.error ("list native Mesh routes in table " ++ toString m.table ++ ": " ++
      err.error))
  | .ok routes =>
    match ← call .ruleList with
    | .error err => pure (.error ("list native Mesh policy rules: " ++ err.error))
    | .ok rules =>
      match ← managedSNATDestinations with
      | .error err => pure (.error err)
      | .ok snat =>
        let routed := routes.filterMap fun route => route.dst.map IPNet.string
        let ruled := (rules.filter m.isRemoteRule).filterMap fun rule =>
          rule.dst.map IPNet.string
        pure (.ok (m.stale desired (routed ++ ruled ++ snat)))

def reconcile (desired : List String) : Action (List String) := do
  let errs ← collect (fun network => do pure (← m.ensure network).toList) desired
  match ← m.staleDestinations desired with
  | .error err => pure (errs ++ [err])
  | .ok stale =>
    let more ← collect m.remove stale
    pure (errs ++ more)

def cleanupSNAT (network : String) : Action (List String) :=
  match parseCIDR network with
  | .error err => pure [err]
  | .ok dst => do pure (← m.removeHostSNAT dst).toList

def isOwnRule (rule : Rule) : Bool :=
  rule.table == m.table &&
    (rule.priority == meshRulePriority || rule.priority == remoteRulePriority)

def cleanupChain : Action (List String) := do
  match ← managedSNATDestinations with
  | .error err => pure [err]
  | .ok networks => collect m.cleanupSNAT networks

def cleanup : Action (List String) := do
  let snat ← m.cleanupChain
  let routes ← m.deleteRoutes none ("list native Mesh routes in table " ++ toString m.table)
    ("remove native Mesh route from table " ++ toString m.table)
  let rules ← deleteRules m.isOwnRule "remove native Mesh policy rule"
  pure (snat ++ routes ++ rules)

end RouteManager

end Flannel.Mesh
