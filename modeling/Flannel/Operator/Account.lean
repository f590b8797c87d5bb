import Flannel.Operator.Reconcile

/-!
# The Cloudflare account

The connectors, routes and registrations of an account, each under an identifier of its own. Lists
are complete, and what is created or updated is what is listed later.
-/

namespace Flannel.Operator

open Net Program

structure Connector where
  id : String
  name : Text
  deriving DecidableEq

structure Account where
  connectors : List Connector
  routes : List Route
  registrations : List DeviceRegistration
  distinctConnectors : (connectors.map Connector.id).Nodup
  distinctRoutes : (routes.map Route.id).Nodup
  distinctRegistrations : (registrations.map DeviceRegistration.id).Nodup
  /-- The networks of routes are networks; at least they have no NUL. -/
  plain : ∀ route ∈ routes, '\x00' ∉ route.network.toList
  /-- The virtual addresses of registrations are printed in the usual way. -/
  printed : ∀ registration ∈ registrations, ∀ bits,
    (parseIP registration.virtualIPv4).bind IP.to4 = some bits →
      registration.virtualIPv4 = (IP.v4 bits).string

structure Cloud where
  nodes : List Kube.Node
  token : String → String
  tokenOnCreation : Bool
  newID : List String → String
  fresh : ∀ ids, newID ids ∉ ids
  nonempty : ∀ ids, newID ids ≠ ""

def Cloud.createdToken (cloud : Cloud) (id : String) : String :=
  if cloud.tokenOnCreation then cloud.token id else ""

namespace Account

variable (account : Account)

def addConnector (cloud : Cloud) (name : Text) : Account :=
  { account with
    connectors := account.connectors ++ [⟨cloud.newID (account.connectors.map Connector.id), name⟩]
    distinctConnectors := by
      rw [List.map_append, List.nodup_append]
      refine ⟨account.distinctConnectors, by simp, ?_⟩
      rintro id mem other isNew rfl
      rw [List.map_singleton, List.mem_singleton] at isNew
      exact cloud.fresh _ (isNew ▸ mem) }

def newRoute (cloud : Cloud) (network connectorID : String) (comment : Text) : Route :=
  ⟨cloud.newID (account.routes.map Route.id), network, connectorID, comment⟩

def addRoute (cloud : Cloud) (network connectorID : String) (comment : Text)
    (isPlain : '\x00' ∉ network.toList) : Account :=
  { account with
    routes := account.routes ++ [account.newRoute cloud network connectorID comment]
    distinctRoutes := by
      rw [List.map_append, List.nodup_append]
      refine ⟨account.distinctRoutes, by simp, ?_⟩
      rintro id mem other isNew rfl
      rw [List.map_singleton, List.mem_singleton] at isNew
      exact cloud.fresh _ (isNew ▸ mem)
    plain := by
      intro route mem
      rcases List.mem_append.mp mem with mem | mem
      · exact account.plain route mem
      · rw [List.mem_singleton.mp mem]
        exact isPlain }

theorem find?_route {route : Route} (mem : route ∈ account.routes) :
    (account.routes.find? fun other => other.id = route.id) = some route := by
  cases found : account.routes.find? fun other => other.id = route.id with
  | none => exact absurd (List.find?_eq_none.mp found route mem) (by simp)
  | some other =>
    have sameID : other.id = route.id := by simpa using List.find?_some found
    have memOther := List.mem_of_find?_eq_some found
    rw [List.inj_on_of_nodup_map account.distinctRoutes memOther mem sameID]

def revised (id network : String) (comment : Text) (route : Route) : Route :=
  if route.id = id then { route with network := network, comment := comment } else route

theorem id_revised (id network : String) (comment : Text) (route : Route) :
    (revised id network comment route).id = route.id := by
  rw [revised]
  split <;> rfl

def reviseRoute (id network : String) (comment : Text) (isPlain : '\x00' ∉ network.toList) : Account :=
  { account with
    routes := account.routes.map (revised id network comment)
    distinctRoutes := by
      rw [List.map_map]
      simpa [Function.comp_def, id_revised] using account.distinctRoutes
    plain := by
      intro route mem
      obtain ⟨old, memOld, rfl⟩ := List.mem_map.mp mem
      rw [revised]
      split
      · exact isPlain
      · exact account.plain old memOld }

def dropConnector (id : String) : Account :=
  { account with
    connectors := account.connectors.filter (·.id ≠ id)
    distinctConnectors := (List.filter_sublist.map _).nodup account.distinctConnectors }

def dropRoute (id : String) : Account :=
  { account with
    routes := account.routes.filter (·.id ≠ id)
    distinctRoutes := (List.filter_sublist.map _).nodup account.distinctRoutes
    plain := fun route mem => account.plain route (List.mem_filter.mp mem).1 }

def dropRegistration (id : String) : Account :=
  { account with
    registrations := account.registrations.filter (·.id ≠ id)
    distinctRegistrations := (List.filter_sublist.map _).nodup account.distinctRegistrations
    printed := fun registration mem => account.printed registration (List.mem_filter.mp mem).1 }

def enroll (registration : DeviceRegistration)
    (isNew : registration.id ∉ account.registrations.map DeviceRegistration.id)
    (isPrinted : ∀ bits, (parseIP registration.virtualIPv4).bind IP.to4 = some bits →
      registration.virtualIPv4 = (IP.v4 bits).string) : Account :=
  { account with
    registrations := account.registrations ++ [registration]
    distinctRegistrations := by
      rw [List.map_append, List.nodup_append]
      refine ⟨account.distinctRegistrations, by simp, ?_⟩
      rintro id mem other isOther rfl
      rw [List.map_singleton, List.mem_singleton] at isOther
      exact isNew (isOther ▸ mem)
    printed := by
      intro other mem
      rcases List.mem_append.mp mem with mem | mem
      · exact account.printed other mem
      · rw [List.mem_singleton.mp mem]
        exact isPrinted }

def credentials : List ConnectorCredentials :=
  account.connectors.map fun connector => ⟨connector.id, connector.name, ""⟩

end Account

def answer (cloud : Cloud) (account : Account) : (call : Call) → Res call × Account
  | .listNodes => (.ok cloud.nodes, account)
  | .ensureBootstrapSecret _ _ => (.ok (), account)
  | .listConnectors => (.ok account.credentials, account)
  | .createConnector name _ =>
    let id := cloud.newID (account.connectors.map Connector.id)
    (.ok ⟨id, name, cloud.createdToken id⟩, account.addConnector cloud name)
  | .getConnectorToken id => (.ok (cloud.token id), account)
  | .deleteConnector id => (.ok (), account.dropConnector id)
  | .listRoutes connectorID =>
    (.ok (account.routes.filter fun route => connectorID = "" ∨ route.tunnelID = connectorID), account)
  | .createRoute network connectorID comment =>
    if isPlain : '\x00' ∉ network.toList then
      (.ok (account.newRoute cloud network connectorID comment),
        account.addRoute cloud network connectorID comment isPlain)
    else (.error (bytes "invalid network"), account)
  | .updateRouteComment id network comment =>
    if isPlain : '\x00' ∉ network.toList then
      match account.routes.find? (·.id = id) with
      | some route =>
        (.ok (Account.revised id network comment route), account.reviseRoute id network comment isPlain)
      | none => (.error (bytes "route not found"), account)
    else (.error (bytes "invalid network"), account)
  | .deleteRoute id => (.ok (), account.dropRoute id)
  | .listDeviceRegistrations => (.ok account.registrations, account)
  | .deleteDeviceRegistration id => (.ok (), account.dropRegistration id)

def failure (text : Text) (call : Call) : Res call :=
  .error text

end Flannel.Operator
