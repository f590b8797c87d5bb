import Flannel.Kube.Manager
import Flannel.Operator.Names
import Flannel.Program.Fallible

/-!
# The Cloudflare client of the operator

`EnsureConnector` and `EnsureRoute` as programs over the Cloudflare and Kubernetes calls. Lists
are answered as a whole: pages are not modelled.
-/

namespace Flannel.Operator

open Program

/-! ## Requests -/

structure ConnectorCredentials where
  id : String
  name : Text
  token : String
  deriving DecidableEq

structure Route where
  id : String
  network : String
  tunnelID : String
  comment : Text
  deriving DecidableEq

structure DeviceRegistration where
  id : String
  name : Text
  virtualIPv4 : String
  createdAt : Int
  deriving DecidableEq

inductive Call
  | listNodes
  /-- `ensureBootstrapSecret`: the secret of the node is given the credentials. -/
  | ensureBootstrapSecret (node : String) (connector : ConnectorCredentials)
  | listConnectors
  | createConnector (name : Text) (ha : Bool)
  | getConnectorToken (id : String)
  | deleteConnector (id : String)
  /-- The routes of a connector, or all routes if the text is empty. -/
  | listRoutes (connectorID : String)
  | createRoute (network connectorID : String) (comment : Text)
  | updateRouteComment (id network : String) (comment : Text)
  | deleteRoute (id : String)
  | listDeviceRegistrations
  | deleteDeviceRegistration (id : String)
  deriving DecidableEq

abbrev Value : Call → Type
  | .listNodes => List Kube.Node
  | .listConnectors => List ConnectorCredentials
  | .createConnector _ _ => ConnectorCredentials
  | .getConnectorToken _ => String
  | .listRoutes _ => List Route
  | .createRoute _ _ _ => Route
  | .updateRouteComment _ _ _ => Route
  | .listDeviceRegistrations => List DeviceRegistration
  | _ => Unit

abbrev Res (call : Call) : Type :=
  Except Text (Value call)

abbrev Action := Prog Call Res

def checked (text : Text) (call : Call) : Action (Except Text (Value call)) :=
  wrap (text ++ bytes ": " ++ ·) (Prog.request call)

/-! ## The source functions -/

def getConnectorToken (connectorID : String) : Action (Except Text String) :=
  attempt (checked (bytes "get token for Cloudflare Mesh node " ++ bytes connectorID)
      (.getConnectorToken connectorID)) fun token =>
    if token = "" then
      pure (.error (bytes "Cloudflare returned an empty token for Mesh node " ++ bytes connectorID))
    else pure (.ok token)

def createConnector (name : Text) (ha : Bool) : Action (Except Text ConnectorCredentials) :=
  attempt (checked (bytes "create Cloudflare Mesh node \"" ++ name ++ bytes "\"")
      (.createConnector name ha)) fun connector =>
    if connector.id = "" then
      pure (.error (bytes "Cloudflare created Mesh node \"" ++ name ++ bytes "\" without an ID"))
    else if connector.token = "" then
      attempt (getConnectorToken connector.id) fun token =>
        pure (.ok { connector with token := token })
    else pure (.ok connector)

def listConnectors : Action (Except Text (List ConnectorCredentials)) :=
  checked (bytes "list Cloudflare Mesh nodes") .listConnectors

def ensureConnector (connectorID : String) (name : Text) (ha : Bool) :
    Action (Except Text ConnectorCredentials) :=
  if connectorID ≠ "" then
    attempt (getConnectorToken connectorID) fun token => pure (.ok ⟨connectorID, name, token⟩)
  else
    attempt listConnectors fun connectors =>
      match connectors.filter (·.name = name) with
      | [] => createConnector name ha
      | [found] =>
        attempt (getConnectorToken found.id) fun token => pure (.ok { found with token := token })
      | _ => pure (.error (bytes "multiple Cloudflare Mesh nodes are named \"" ++ name ++ bytes "\""))

def listRoutes (connectorID : String) : Action (Except Text (List Route)) :=
  checked (bytes "list Cloudflare routes for connector " ++ bytes connectorID) (.listRoutes connectorID)

def ensureRoute (connectorID network : String) (comment : Text) : Action (Except Text Route) :=
  attempt (listRoutes connectorID) fun routes =>
    match routes.find? fun route => route.network = network ∧ route.tunnelID = connectorID with
    | some route =>
      if route.comment ≠ comment then
        checked (bytes "update ownership comment for Cloudflare route " ++ bytes route.id)
          (.updateRouteComment route.id route.network comment)
      else pure (.ok route)
    | none =>
      checked (bytes "create Cloudflare route " ++ bytes network ++ bytes " for connector " ++
        bytes connectorID) (.createRoute network connectorID comment)

def deleteRoute (routeID : String) : Action (Except Text Unit) :=
  checked (bytes "delete Cloudflare route " ++ bytes routeID) (.deleteRoute routeID)

def deleteConnector (connectorID : String) : Action (Except Text Unit) :=
  checked (bytes "delete Cloudflare Mesh node " ++ bytes connectorID) (.deleteConnector connectorID)

def listDeviceRegistrations : Action (Except Text (List DeviceRegistration)) :=
  checked (bytes "list Cloudflare device registrations") .listDeviceRegistrations

def deleteDeviceRegistration (registrationID : String) : Action (Except Text Unit) :=
  checked (bytes "delete Cloudflare device registration " ++ bytes registrationID)
    (.deleteDeviceRegistration registrationID)

end Flannel.Operator
