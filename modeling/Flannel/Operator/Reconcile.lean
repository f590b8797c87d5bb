import Flannel.Net.Cidr
import Flannel.Operator.Client
import Flannel.Text.Json

/-!
# The reconcile loop of the operator

`Reconcile` without the synchronisation of CoreDNS. For each node it ensures a connector, its
secret and, if the node advertises the backend, a route. If nothing failed, routes and connectors
of the cluster that were not found are deleted, and now and then registrations.
-/

namespace Flannel.Operator

open Net Program Text

structure LeaseData where
  connectorID : String := ""
  meshIP : String := ""
  deriving DecidableEq

def parseLeaseData (raw : String) : Except Text LeaseData :=
  if raw = "" then .error (bytes "backend-data annotation is empty")
  else
    match unmarshal [⟨"connectorID", storeString fun text data => { data with connectorID := text }⟩,
        ⟨"meshIP", storeString fun text data => { data with meshIP := text }⟩] {} raw with
    | none => .error (bytes "invalid JSON")
    | some data =>
      if data.connectorID = "" then .error (bytes "backend-data has no connectorID") else .ok data

def ipv4Network (cidr : String) : Option String :=
  match parseCIDR cidr, (cidrAddress cidr).bind IP.to4 with
  | some network, some _ => some network.string
  | _, _ => none

def nodeIPv4PodCIDR (node : Kube.Node) : Except Text String :=
  let cidrs :=
    if node.podCIDRs = [] ∧ node.podCIDR ≠ "" then [node.podCIDR] else node.podCIDRs
  match cidrs.findSome? ipv4Network with
  | some network => .ok network
  | none => .error (bytes "node " ++ bytes node.name ++ bytes " has no IPv4 PodCIDR")

def routeKey (connectorID network : String) : String :=
  connectorID ++ "\x00" ++ network

inductive RegistrationGC
  | dryRun
  | on
  | off
  deriving DecidableEq

def registrationGCGrace : Int :=
  30 * 60 * 1000000000

structure Config where
  clusterName : Text
  connectorPrefix : Text
  annotationPrefix : String
  connectorHA : Bool
  registrationGC : RegistrationGC
  registrationGCPeriod : Int
  deriving DecidableEq

structure Found where
  connector : Option String := none
  meshIP : Option String := none
  route : Option String := none
  err : Option Text := none
  deriving DecidableEq

namespace Config

variable (digest : Text → Text) (cfg : Config)

def connectorOf (node : Kube.Node) : Text :=
  connectorName digest cfg.connectorPrefix cfg.clusterName (bytes node.name)

def backendType (node : Kube.Node) : String :=
  node.annotation (cfg.annotationPrefix ++ "/backend-type")

def leaseData (node : Kube.Node) : Except Text LeaseData :=
  parseLeaseData (node.annotation (cfg.annotationPrefix ++ "/backend-data"))

def nodeError (step : String) (node : Kube.Node) (err : Text) : Option Text :=
  some (bytes step ++ bytes " for node " ++ bytes node.name ++ bytes ": " ++ err)

def reconcileAdvertised (node : Kube.Node) (connectorID : String) : Action Found := do
  let found : Found := { connector := some connectorID }
  match cfg.leaseData node with
  | .error err => pure { found with err := nodeError "parse backend data" node err }
  | .ok data =>
    if data.connectorID ≠ connectorID then
      pure { found with
        err := some (bytes "node " ++ bytes node.name ++ bytes " advertises connector " ++
          bytes data.connectorID ++ bytes ", operator owns " ++ bytes connectorID) }
    else
      match (parseIP data.meshIP).filter fun ip => ip.to4.isSome with
      | none =>
        pure { found with
          err := some (bytes "node " ++ bytes node.name ++ bytes " advertises invalid IPv4 Mesh IP \"" ++
            bytes data.meshIP ++ bytes "\"") }
      | some meshIP =>
        let found := { found with meshIP := some meshIP.string }
        match nodeIPv4PodCIDR node with
        | .error err => pure { found with err := some err }
        | .ok network =>
          let comment := routeComment digest cfg.clusterName (bytes node.name) (bytes network)
          match ← ensureRoute connectorID network comment with
          | .error err => pure { found with err := nodeError "ensure route" node err }
          | .ok route => pure { found with route := some (routeKey route.tunnelID route.network) }

def reconcileNode (node : Kube.Node) : Action Found := do
  match ← ensureConnector "" (cfg.connectorOf digest node) cfg.connectorHA with
  | .error err => pure { err := nodeError "ensure connector" node err }
  | .ok connector =>
    match ← Prog.request (.ensureBootstrapSecret node.name connector) with
    | .error err => pure { connector := some connector.id, err := some err }
    | .ok _ =>
      if cfg.backendType node ≠ "cloudflare-mesh" then pure { connector := some connector.id }
      else cfg.reconcileAdvertised digest node connector.id

def reconcileNodes (nodes : List Kube.Node) : Action (List Found) :=
  collect (fun node => do pure [← cfg.reconcileNode digest node]) nodes

def keepsRoute (desiredRoutes : List String) (route : Route) : Bool :=
  !hasStart route.comment (routeCommentPrefix cfg.clusterName) ||
    desiredRoutes.contains (routeKey route.tunnelID route.network)

def keepsConnector (desiredConnectors : List String) (connector : ConnectorCredentials) : Bool :=
  !hasStart connector.name (connectorNamePrefix cfg.connectorPrefix cfg.clusterName) ||
    desiredConnectors.contains connector.id

def keepsRegistration (desiredMeshIPs : List String) (now : Int) (registration : DeviceRegistration) :
    Bool :=
  !hasStart registration.name (connectorNamePrefix cfg.connectorPrefix cfg.clusterName) ||
    desiredMeshIPs.contains registration.virtualIPv4 ||
    decide (now - registrationGCGrace < registration.createdAt) ||
    decide (cfg.registrationGC = .dryRun)

def sweep {ι : Type} (keep : ι → Bool) (delete : ι → Action (Except Text Unit)) :
    List ι → Action (List Text) :=
  collect fun x =>
    if keep x then pure []
    else do
      match ← delete x with
      | .error err => pure [err]
      | .ok _ => pure []

def sweepListed {ι : Type} (text : String) (list : Action (Except Text (List ι))) (keep : ι → Bool)
    (delete : ι → Action (Except Text Unit)) : Action (List Text) := do
  match ← list with
  | .error err => pure [bytes text ++ bytes ": " ++ err]
  | .ok listed => sweep keep delete listed

/-- `collectRegistrations`: the errors, which are logged, and the time of the next sweep. -/
def collectRegistrations (desiredMeshIPs : List String) (now next : Int) : Action (List Text × Int) := do
  if cfg.registrationGC = .off then pure ([], next)
  else if now < next then pure ([], next)
  else
    let errs ← sweepListed "list device registrations for garbage collection" listDeviceRegistrations
      (cfg.keepsRegistration desiredMeshIPs now) fun registration =>
        wrap (bytes "delete orphaned registration " ++ bytes registration.id ++ bytes ": " ++ ·)
          (deleteDeviceRegistration registration.id)
    pure (errs, now + cfg.registrationGCPeriod)

def collectGarbage (found : List Found) (now next : Int) : Action (List Text × Int) := do
  let routeErrs ← sweepListed "list routes for garbage collection" (listRoutes "")
    (cfg.keepsRoute (found.filterMap Found.route)) fun route => deleteRoute route.id
  if routeErrs ≠ [] then pure (routeErrs, next)
  else
    match ← listConnectors with
    | .error err => pure ([bytes "list connectors for garbage collection: " ++ err], next)
    | .ok connectors =>
      let errs ← sweep (cfg.keepsConnector (found.filterMap Found.connector))
        (fun connector => deleteConnector connector.id) connectors
      let registrations ← cfg.collectRegistrations (found.filterMap Found.meshIP) now next
      pure (errs, registrations.2)

def reconcile (now next : Int) : Action (List Text × Int) := do
  match ← Prog.request .listNodes with
  | .error err => pure ([bytes "list Kubernetes nodes: " ++ err], next)
  | .ok nodes =>
    let found ← cfg.reconcileNodes digest nodes
    let errs := found.filterMap Found.err
    if errs ≠ [] then pure (errs, next) else cfg.collectGarbage found now next

end Config

end Flannel.Operator
