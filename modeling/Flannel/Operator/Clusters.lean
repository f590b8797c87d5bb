import Flannel.Operator.Exactness
import Flannel.Transition.Core

/-!
# Operators that share an account

Two operators that reconcile on one account, call by call and in any order. An operator deletes
only what it has listed with the beginnings of its own cluster, but the comment of a route
changes, so a route may belong to the other cluster by the time that it is deleted. The beginnings
of one cluster are also those of names of another one, as with `a` and `a-b`.
-/

namespace Flannel.Operator

open Net Program Transition

/-! ## What an operator may delete -/

structure Listed where
  connectors : List ConnectorCredentials := []
  routes : List Route := []
  registrations : List DeviceRegistration := []

def Listed.note (listed : Listed) : (call : Call) → Res call → Listed
  | .listConnectors, .ok connectors => { listed with connectors := connectors }
  | .listRoutes _, .ok routes => { listed with routes := routes }
  | .listDeviceRegistrations, .ok registrations => { listed with registrations := registrations }
  | .updateRouteComment _ _ _, _ => { listed with routes := [] }
  | _, _ => listed

namespace Config

variable (digest : Text → Text) (cfg : Config)

def Claims (name : Text) : Prop :=
  hasStart name (connectorNamePrefix cfg.connectorPrefix cfg.clusterName) = true

def ClaimsRoute (comment : Text) : Prop :=
  hasStart comment (routeCommentPrefix cfg.clusterName) = true

def MayCall (listed : Listed) : Call → Prop
  | .deleteConnector id => ∃ connector ∈ listed.connectors, connector.id = id ∧ cfg.Claims connector.name
  | .deleteRoute id => ∃ route ∈ listed.routes, route.id = id ∧ cfg.ClaimsRoute route.comment
  | .deleteDeviceRegistration id =>
    ∃ registration ∈ listed.registrations, registration.id = id ∧ cfg.Claims registration.name
  | _ => True

def ownership : Contract Call Res Listed (List Text × Int) where
  note := Listed.note
  rely := fun _ _ _ => True
  guarantee := cfg.MayCall
  post := fun _ _ => True

def Constructive : Call → Prop
  | .deleteConnector _ => False
  | .deleteRoute _ => False
  | .deleteDeviceRegistration _ => False
  | _ => True

theorem within_checked {text : Text} (call : Call) (constructive : Constructive call) :
    Within Constructive (checked text call) :=
  within_wrap (within_request constructive)

theorem within_getConnectorToken (id : String) : Within Constructive (getConnectorToken id) := by
  refine within_attempt (within_checked (.getConnectorToken id) trivial) fun token => ?_
  split <;> exact .ret

theorem within_createConnector (name : Text) (ha : Bool) :
    Within Constructive (createConnector name ha) := by
  refine within_attempt (within_checked (.createConnector name ha) trivial) fun connector => ?_
  split_ifs
  · exact .ret
  · exact within_attempt (within_getConnectorToken _) fun token => .ret
  · exact .ret

theorem within_ensureConnector (name : Text) (ha : Bool) :
    Within Constructive (ensureConnector "" name ha) := by
  refine within_attempt (within_checked .listConnectors trivial) fun connectors => ?_
  split
  · exact within_createConnector name ha
  · exact within_attempt (within_getConnectorToken _) fun token => .ret
  · exact .ret

theorem within_ensureRoute (connectorID network : String) (comment : Text) :
    Within Constructive (ensureRoute connectorID network comment) := by
  refine within_attempt (within_checked (.listRoutes connectorID) trivial) fun routes => ?_
  split
  · split
    · exact within_checked (.updateRouteComment _ _ comment) trivial
    · exact .ret
  · exact within_checked (.createRoute network connectorID comment) trivial

theorem within_reconcileAdvertised (node : Kube.Node) (connectorID : String) :
    Within Constructive (cfg.reconcileAdvertised digest node connectorID) := by
  rw [reconcileAdvertised]
  split
  · exact .ret
  · split
    · exact .ret
    · split
      · exact .ret
      · split
        · exact .ret
        · refine within_bind (within_ensureRoute _ _ _) fun result => ?_
          cases result <;> exact .ret

theorem within_reconcileNode (node : Kube.Node) :
    Within Constructive (cfg.reconcileNode digest node) := by
  refine within_bind (within_ensureConnector _ _) fun result => ?_
  cases result with
  | error err => exact .ret
  | ok connector =>
    refine within_bind (within_request trivial) fun result => ?_
    cases result with
    | error err => exact .ret
    | ok value =>
      change Within _ (if _ then _ else _)
      split
      · exact .ret
      · exact within_reconcileAdvertised digest cfg node connector.id

theorem within_reconcileNodes (nodes : List Kube.Node) :
    Within Constructive (cfg.reconcileNodes digest nodes) :=
  within_collect (fun node => within_bind (within_reconcileNode digest cfg node) fun _ => .ret) nodes

variable {digest cfg} {listed : Listed}

theorem mayCall_of_constructive {call : Call} (constructive : Constructive call) :
    cfg.MayCall listed call := by
  cases call with
  | deleteConnector => exact constructive.elim
  | deleteRoute => exact constructive.elim
  | deleteDeviceRegistration => exact constructive.elim
  | _ => trivial

theorem safe_checked {text : Text} (call : Call) (allowed : cfg.MayCall listed call) :
    Safe (cfg.ownership.ensuring fun later result => ∃ answer, later = listed.note call answer ∧
        result = Except.mapError (text ++ bytes ": " ++ ·) answer) listed (checked text call) :=
  safe_request_bind allowed fun answer _ => .ret ⟨answer, rfl, rfl⟩

theorem safe_sweep {ι : Type} {keep : ι → Bool} {delete : ι → Action (Except Text Unit)} {xs : List ι}
    (allowed : ∀ x ∈ xs, keep x = false →
      Safe (cfg.ownership.ensuring fun later _ => later = listed) listed (delete x)) :
    Safe (cfg.ownership.ensuring fun later _ => later = listed) listed (sweep keep delete xs) := by
  refine safe_collect fun x mem => ?_
  split
  · exact .ret rfl
  next notKept =>
    refine (allowed x mem (by simpa using notKept)).bind_ensuring ?_
    rintro later result rfl
    cases result <;> exact .ret rfl

theorem safe_deleteRoute {route : Route} (mem : route ∈ listed.routes)
    (claimed : cfg.ClaimsRoute route.comment) :
    Safe (cfg.ownership.ensuring fun later _ => later = listed) listed (deleteRoute route.id) := by
  refine (safe_checked (.deleteRoute route.id) ⟨route, mem, rfl, claimed⟩).weaken ?_
  rintro later result ⟨answer, rfl, _⟩
  rfl

theorem safe_deleteConnector {connector : ConnectorCredentials} (mem : connector ∈ listed.connectors)
    (claimed : cfg.Claims connector.name) :
    Safe (cfg.ownership.ensuring fun later _ => later = listed) listed
      (deleteConnector connector.id) := by
  refine (safe_checked (.deleteConnector connector.id) ⟨connector, mem, rfl, claimed⟩).weaken ?_
  rintro later result ⟨answer, rfl, _⟩
  rfl

theorem safe_deleteDeviceRegistration {registration : DeviceRegistration}
    (mem : registration ∈ listed.registrations) (claimed : cfg.Claims registration.name) :
    Safe (cfg.ownership.ensuring fun later _ => later = listed) listed
      (deleteDeviceRegistration registration.id) := by
  refine (safe_checked (.deleteDeviceRegistration registration.id)
    ⟨registration, mem, rfl, claimed⟩).weaken ?_
  rintro later result ⟨answer, rfl, _⟩
  rfl

theorem safe_collectRegistrations {desiredMeshIPs : List String} {now next : Int} :
    Safe (cfg.ownership.ensuring fun _ _ => True) listed
      (cfg.collectRegistrations desiredMeshIPs now next) := by
  rw [collectRegistrations]
  split
  · exact .ret trivial
  · split
    · exact .ret trivial
    · have swept : Safe (cfg.ownership.ensuring fun _ _ => True) listed
          (sweepListed "list device registrations for garbage collection" listDeviceRegistrations
            (cfg.keepsRegistration desiredMeshIPs now) fun registration =>
              wrap (bytes "delete orphaned registration " ++ bytes registration.id ++ bytes ": " ++ ·)
                (deleteDeviceRegistration registration.id)) := by
        refine (safe_checked .listDeviceRegistrations trivial).bind_ensuring ?_
        rintro later result ⟨answer, rfl, rfl⟩
        cases answer with
        | error err => exact .ret trivial
        | ok registrations =>
          refine (safe_sweep fun registration mem notKept => ?_).weaken fun _ _ _ => trivial
          have claimed : cfg.Claims registration.name := by
            simp only [keepsRegistration, Bool.or_eq_false_iff, Bool.not_eq_false'] at notKept
            exact notKept.1.1.1
          refine (safe_deleteDeviceRegistration mem claimed).bind_ensuring ?_
          rintro later result rfl
          exact .ret rfl
      exact swept.bind_ensuring fun _ _ _ => .ret trivial

theorem safe_collectGarbage {founds : List Found} {now next : Int} :
    Safe cfg.ownership listed (cfg.collectGarbage founds now next) := by
  have routes : Safe (cfg.ownership.ensuring fun _ _ => True) listed
      (sweepListed "list routes for garbage collection" (listRoutes "")
        (cfg.keepsRoute (founds.filterMap Found.route)) fun route => deleteRoute route.id) := by
    refine (safe_checked (.listRoutes "") trivial).bind_ensuring ?_
    rintro later result ⟨answer, rfl, rfl⟩
    cases answer with
    | error err => exact .ret trivial
    | ok routes =>
      refine (safe_sweep fun route mem notKept => ?_).weaken fun _ _ _ => trivial
      have claimed : cfg.ClaimsRoute route.comment := by
        simp only [keepsRoute, Bool.or_eq_false_iff, Bool.not_eq_false'] at notKept
        exact notKept.1
      exact safe_deleteRoute mem claimed
  refine routes.bind fun later errs _ => ?_
  split
  · exact .ret trivial
  · refine (safe_checked .listConnectors trivial).bind ?_
    rintro later result ⟨answer, rfl, rfl⟩
    cases answer with
    | error err => exact .ret trivial
    | ok connectors =>
      refine (safe_sweep fun connector mem notKept => ?_).bind fun later errs _ => ?_
      · have claimed : cfg.Claims connector.name := by
          simp only [keepsConnector, Bool.or_eq_false_iff, Bool.not_eq_false'] at notKept
          exact notKept.1
        exact safe_deleteConnector mem claimed
      · exact safe_collectRegistrations.bind fun later result _ => .ret trivial

theorem safe_reconcile (digest : Text → Text) (now next : Int) :
    Safe cfg.ownership listed (cfg.reconcile digest now next) := by
  refine safe_request_bind trivial fun answer _ => ?_
  cases answer with
  | error err => exact .ret trivial
  | ok nodes =>
    have survey : Safe (cfg.ownership.ensuring fun _ _ => True)
        (listed.note .listNodes (.ok nodes)) (cfg.reconcileNodes digest nodes) :=
      safe_of_within (within_reconcileNodes digest cfg nodes)
        (fun _ _ constructive => mayCall_of_constructive constructive) (fun _ _ => trivial) _
    refine survey.bind fun later founds _ => ?_
    change Safe _ _ (if _ then _ else _)
    split
    · exact .ret trivial
    · exact safe_collectGarbage

end Config

/-! ## The shared account -/

inductive Side
  | a
  | b
  deriving DecidableEq

structure System where
  account : Account
  connectorIDs : List String
  routeIDs : List String
  registrationIDs : List String
  tasks : Side → Action (List Text × Int)
  knownConnectors : ∀ connector ∈ account.connectors, connector.id ∈ connectorIDs
  knownRoutes : ∀ route ∈ account.routes, route.id ∈ routeIDs
  knownRegistrations : ∀ registration ∈ account.registrations, registration.id ∈ registrationIDs

def respond (cloud : Cloud) (outcome : Outcome Text) (account : Account) (call : Call) :
    Res call × Account :=
  match outcome with
  | .performed => answer cloud account call
  | .refused text => (failure text call, account)
  | .lost text => (failure text call, (answer cloud account call).2)

/-- What happens next: an operator begins to reconcile, makes its call or stops, or a device makes
a registration. -/
inductive Label
  | reconcile (side : Side) (now next : Int)
  | call (side : Side) (cloud : Cloud) (outcome : Outcome Text)
  | stop (side : Side)
  | enroll (registration : DeviceRegistration)
      (isPrinted : ∀ bits, (parseIP registration.virtualIPv4).bind IP.to4 = some bits →
        registration.virtualIPv4 = (IP.v4 bits).string)

namespace System

def Admits (s : System) (target : Account) : Prop :=
  (∀ connector ∈ target.connectors, connector.id ∈ s.connectorIDs →
    connector.id ∈ s.account.connectors.map Connector.id) ∧
  ∀ route ∈ target.routes, route.id ∈ s.routeIDs → route.id ∈ s.account.routes.map Route.id

instance (s : System) (target : Account) : Decidable (s.Admits target) :=
  inferInstanceAs (Decidable (_ ∧ _))

def become (s : System) (target : Account) : System where
  account := target
  connectorIDs := s.connectorIDs ++ target.connectors.map Connector.id
  routeIDs := s.routeIDs ++ target.routes.map Route.id
  registrationIDs := s.registrationIDs ++ target.registrations.map DeviceRegistration.id
  tasks := s.tasks
  knownConnectors := fun _ mem => List.mem_append_right _ (List.mem_map_of_mem mem)
  knownRoutes := fun _ mem => List.mem_append_right _ (List.mem_map_of_mem mem)
  knownRegistrations := fun _ mem => List.mem_append_right _ (List.mem_map_of_mem mem)

def assign (s : System) (side : Side) (task : Action (List Text × Int)) : System :=
  { s with tasks := Function.update s.tasks side task }

def step (digest : Text → Text) (cfg : Side → Config) : Step System Label
  | s, .reconcile side now next =>
    match s.tasks side with
    | .ret _ => some (s.assign side ((cfg side).reconcile digest now next))
    | .call _ _ => none
  | s, .call side cloud outcome =>
    match s.tasks side with
    | .ret _ => none
    | .call call rest =>
      let result := respond cloud outcome s.account call
      if s.Admits result.2 then some ((s.become result.2).assign side (rest result.1)) else none
  | s, .stop side => some (s.assign side (.ret ([], 0)))
  | s, .enroll registration isPrinted =>
    if isNew : registration.id ∉ s.registrationIDs then
      some (s.become (s.account.enroll registration (fun mem => by
        obtain ⟨other, memOther, sameID⟩ := List.mem_map.mp mem
        exact isNew (sameID ▸ s.knownRegistrations other memOther)) isPrinted))
    else none

end System

/-! ## What a call changes -/

def Executes : Outcome Text → Prop
  | .refused _ => False
  | _ => True

inductive Changed (cloud : Cloud) (account : Account) : Call → Account → Prop
  | nothing {call : Call} : Changed cloud account call account
  | connector {name : Text} {ha : Bool} :
      Changed cloud account (.createConnector name ha) (account.addConnector cloud name)
  | route {network connectorID : String} {comment : Text} (isPlain : '\x00' ∉ network.toList) :
      Changed cloud account (.createRoute network connectorID comment)
        (account.addRoute cloud network connectorID comment isPlain)
  | revised {id network : String} {comment : Text} (isPlain : '\x00' ∉ network.toList) :
      Changed cloud account (.updateRouteComment id network comment)
        (account.reviseRoute id network comment isPlain)
  | noConnector {id : String} : Changed cloud account (.deleteConnector id) (account.dropConnector id)
  | noRoute {id : String} : Changed cloud account (.deleteRoute id) (account.dropRoute id)
  | noRegistration {id : String} :
      Changed cloud account (.deleteDeviceRegistration id) (account.dropRegistration id)

theorem changed_answer (cloud : Cloud) (account : Account) (call : Call) :
    Changed cloud account call (answer cloud account call).2 := by
  cases call with
  | createConnector name ha => exact .connector
  | deleteConnector id => exact .noConnector
  | createRoute network connectorID comment =>
    rw [answer]
    split
    next isPlain => exact .route isPlain
    next => exact .nothing
  | updateRouteComment id network comment =>
    rw [answer]
    split
    next isPlain =>
      split
      · exact .revised isPlain
      · exact .nothing
    next => exact .nothing
  | deleteRoute id => exact .noRoute
  | deleteDeviceRegistration id => exact .noRegistration
  | _ => exact .nothing

theorem account_respond (cloud : Cloud) (outcome : Outcome Text) (account : Account) (call : Call) :
    (respond cloud outcome account call).2 = account ∨
      Executes outcome ∧ Changed cloud account call (respond cloud outcome account call).2 := by
  cases outcome with
  | performed => exact .inr ⟨trivial, changed_answer cloud account call⟩
  | refused text => exact .inl rfl
  | lost text => exact .inr ⟨trivial, changed_answer cloud account call⟩

namespace Changed

variable {cloud : Cloud} {account after : Account} {call : Call}

theorem connectors (changed : Changed cloud account call after) {connector : Connector}
    (mem : connector ∈ after.connectors) :
    connector ∈ account.connectors ∨ connector.id ∉ account.connectors.map Connector.id := by
  cases changed with
  | connector =>
    rcases List.mem_append.mp mem with mem | mem
    · exact .inl mem
    · rw [List.mem_singleton.mp mem]
      exact .inr (cloud.fresh _)
  | noConnector => exact .inl (List.mem_filter.mp mem).1
  | _ => exact .inl mem

theorem routes (changed : Changed cloud account call after) {route : Route}
    (mem : route ∈ after.routes) :
    route ∈ account.routes ∨ route.id ∉ account.routes.map Route.id ∨
      ∃ old ∈ account.routes, old.id = route.id ∧ ∃ network comment,
        call = .updateRouteComment old.id network comment := by
  cases changed with
  | route =>
    rcases List.mem_append.mp mem with mem | mem
    · exact .inl mem
    · rw [List.mem_singleton.mp mem]
      exact .inr (.inl (cloud.fresh _))
  | @revised id network comment _ =>
    obtain ⟨old, memOld, rfl⟩ := List.mem_map.mp mem
    rw [Account.revised]
    split
    next sameID => exact .inr (.inr ⟨old, memOld, rfl, network, comment, by rw [sameID]⟩)
    next => exact .inl memOld
  | noRoute => exact .inl (List.mem_filter.mp mem).1
  | _ => exact .inl mem

theorem registrations (changed : Changed cloud account call after) :
    after.registrations ⊆ account.registrations := by
  intro registration mem
  cases changed with
  | noRegistration => exact (List.mem_filter.mp mem).1
  | _ => exact mem

theorem deletes_connector (changed : Changed cloud account call after) {connector : Connector}
    (mem : connector ∈ account.connectors) (gone : connector ∉ after.connectors) :
    call = .deleteConnector connector.id := by
  cases changed with
  | connector => exact absurd (List.mem_append_left _ mem) gone
  | noConnector =>
    by_contra other
    refine gone (List.mem_filter.mpr ⟨mem, decide_eq_true fun sameID => other ?_⟩)
    rw [sameID]
  | _ => exact absurd mem gone

theorem deletes_registration (changed : Changed cloud account call after)
    {registration : DeviceRegistration} (mem : registration ∈ account.registrations)
    (gone : registration ∉ after.registrations) :
    call = .deleteDeviceRegistration registration.id := by
  cases changed with
  | noRegistration =>
    by_contra other
    refine gone (List.mem_filter.mpr ⟨mem, decide_eq_true fun sameID => other ?_⟩)
    rw [sameID]
  | _ => exact absurd mem gone

theorem deletes_route (changed : Changed cloud account call after) {route : Route}
    (mem : route ∈ account.routes) (gone : ∀ kept ∈ after.routes, kept.id ≠ route.id) :
    call = .deleteRoute route.id := by
  cases changed with
  | route => exact absurd rfl (gone route (List.mem_append_left _ mem))
  | revised => exact absurd (Account.id_revised ..) (gone _ (List.mem_map_of_mem mem))
  | noRoute =>
    by_contra other
    refine gone route (List.mem_filter.mpr ⟨mem, decide_eq_true fun sameID => other ?_⟩) rfl
    rw [sameID]
  | _ => exact absurd rfl (gone route mem)

end Changed

/-! ## What is listed and what is there -/

structure Config.Faithful (cfg : Config) (listed : Listed) (s : System) : Prop where
  connectors : ∀ old ∈ listed.connectors, old.id ∈ s.connectorIDs ∧
    ∀ connector ∈ s.account.connectors, connector.id = old.id → connector.name = old.name
  routes : ∀ old ∈ listed.routes, cfg.ClaimsRoute old.comment → old.id ∈ s.routeIDs ∧
    ∀ route ∈ s.account.routes, route.id = old.id → route.comment = old.comment
  registrations : ∀ old ∈ listed.registrations, old.id ∈ s.registrationIDs ∧
    ∀ registration ∈ s.account.registrations, registration.id = old.id → registration.name = old.name

section Faithful

variable {cfg : Config} {listed : Listed} {s : System}

theorem faithful_empty : cfg.Faithful {} s :=
  ⟨by simp, by simp, by simp⟩

theorem Config.Faithful.become {target : Account} (faithful : cfg.Faithful listed s)
    (admits : s.Admits target)
    (connectors : ∀ connector ∈ target.connectors, connector ∈ s.account.connectors ∨
      connector.id ∉ s.account.connectors.map Connector.id)
    (routes : ∀ route ∈ target.routes, route ∈ s.account.routes ∨
      route.id ∉ s.account.routes.map Route.id ∨
      ∀ old ∈ listed.routes, cfg.ClaimsRoute old.comment → old.id ≠ route.id)
    (registrations : ∀ registration ∈ target.registrations,
      registration ∈ s.account.registrations ∨ registration.id ∉ s.registrationIDs) :
    cfg.Faithful listed (s.become target) where
  connectors := by
    intro old mem
    obtain ⟨known, same⟩ := faithful.connectors old mem
    refine ⟨List.mem_append_left _ known, fun connector memNew sameID => ?_⟩
    rcases connectors connector memNew with before | isNew
    · exact same connector before sameID
    · exact absurd (admits.1 connector memNew (sameID ▸ known)) isNew
  routes := by
    intro old mem claimed
    obtain ⟨known, same⟩ := faithful.routes old mem claimed
    refine ⟨List.mem_append_left _ known, fun route memNew sameID => ?_⟩
    rcases routes route memNew with before | isNew | updated
    · exact same route before sameID
    · exact absurd (admits.2 route memNew (sameID ▸ known)) isNew
    · exact absurd sameID.symm (updated old mem claimed)
  registrations := by
    intro old mem
    obtain ⟨known, same⟩ := faithful.registrations old mem
    refine ⟨List.mem_append_left _ known, fun registration memNew sameID => ?_⟩
    rcases registrations registration memNew with before | isNew
    · exact same registration before sameID
    · exact absurd (sameID ▸ known) isNew

theorem Config.Faithful.listConnectors (faithful : cfg.Faithful listed s) :
    cfg.Faithful { listed with connectors := s.account.credentials } s where
  connectors := by
    intro old mem
    obtain ⟨there, memThere, rfl⟩ := List.mem_map.mp mem
    refine ⟨s.knownConnectors there memThere, fun connector memConnector sameID => ?_⟩
    rw [List.inj_on_of_nodup_map s.account.distinctConnectors memConnector memThere sameID]
  routes := faithful.routes
  registrations := faithful.registrations

theorem Config.Faithful.listRoutes (faithful : cfg.Faithful listed s) {routes : List Route}
    (listing : routes ⊆ s.account.routes) : cfg.Faithful { listed with routes := routes } s where
  connectors := faithful.connectors
  routes := by
    intro old mem _
    refine ⟨s.knownRoutes old (listing mem), fun route memRoute sameID => ?_⟩
    rw [List.inj_on_of_nodup_map s.account.distinctRoutes memRoute (listing mem) sameID]
  registrations := faithful.registrations

theorem Config.Faithful.listRegistrations (faithful : cfg.Faithful listed s) :
    cfg.Faithful { listed with registrations := s.account.registrations } s where
  connectors := faithful.connectors
  routes := faithful.routes
  registrations := by
    intro old mem
    refine ⟨s.knownRegistrations old mem, fun registration memRegistration sameID => ?_⟩
    rw [List.inj_on_of_nodup_map s.account.distinctRegistrations memRegistration mem sameID]

variable {cloud : Cloud} {outcome : Outcome Text} {call : Call}

theorem Config.Faithful.respond (faithful : cfg.Faithful listed s)
    (admits : s.Admits (respond cloud outcome s.account call).2)
    (updates : Executes outcome → ∀ id network comment, call = .updateRouteComment id network comment →
      ∀ route ∈ s.account.routes, route.id = id →
        ∀ old ∈ listed.routes, cfg.ClaimsRoute old.comment → old.id ≠ id) :
    cfg.Faithful listed (s.become (Operator.respond cloud outcome s.account call).2) := by
  rcases account_respond cloud outcome s.account call with same | ⟨executes, changed⟩
  · rw [same] at admits ⊢
    exact faithful.become admits (fun _ mem => .inl mem) (fun _ mem => .inl mem) fun _ mem => .inl mem
  · refine faithful.become admits (fun _ mem => changed.connectors mem) ?_ fun _ mem =>
      .inl (changed.registrations mem)
    intro route mem
    rcases changed.routes mem with before | isNew | ⟨old, memOld, sameID, network, comment, isUpdate⟩
    · exact .inl before
    · exact .inr (.inl isNew)
    · rw [← sameID]
      exact .inr (.inr (updates executes old.id network comment isUpdate old memOld rfl))

theorem Config.Faithful.note (faithful : cfg.Faithful listed s)
    (admits : s.Admits (Operator.respond cloud outcome s.account call).2) :
    cfg.Faithful (listed.note call (Operator.respond cloud outcome s.account call).1)
      (s.become (Operator.respond cloud outcome s.account call).2) := by
  cases call with
  | listConnectors =>
    cases outcome with
    | performed => exact faithful.listConnectors.respond admits nofun
    | refused text => exact faithful.respond admits nofun
    | lost text => exact faithful.respond admits nofun
  | listRoutes connectorID =>
    cases outcome with
    | performed =>
      refine (faithful.listRoutes fun _ mem => ?_).respond admits nofun
      exact (List.mem_filter.mp mem).1
    | refused text => exact faithful.respond admits nofun
    | lost text => exact faithful.respond admits nofun
  | listDeviceRegistrations =>
    cases outcome with
    | performed => exact faithful.listRegistrations.respond admits nofun
    | refused text => exact faithful.respond admits nofun
    | lost text => exact faithful.respond admits nofun
  | updateRouteComment id network comment =>
    refine (faithful.listRoutes (List.nil_subset _)).respond admits fun _ _ _ _ _ _ _ _ old mem => ?_
    exact absurd mem List.not_mem_nil
  | _ => exact faithful.respond admits nofun

end Faithful

/-! ## Runs of the two operators -/

section Runs

variable (digest : Text → Text) (cfg : Side → Config)

/-- The names of the nodes of the cluster of `b` do not have the beginnings of that of `a`. -/
structure Apart (nodes : List Kube.Node) : Prop where
  connectors : ∀ node ∈ nodes, ¬ (cfg .a).Claims ((cfg .b).connectorOf digest node)
  routes : ∀ node ∈ nodes, ∀ network,
    ¬ (cfg .a).ClaimsRoute (routeComment digest (cfg .b).clusterName (bytes node.name) network)

/-- Operator `b` does not take over a route that has a comment of `a`. -/
def Label.LeavesComments (s : System) : Label → Prop
  | .call .b _ outcome => Executes outcome → ∀ id network comment rest,
      s.tasks .b = .call (.updateRouteComment id network comment) rest →
        ∀ route ∈ s.account.routes, route.id = id → ¬ (cfg .a).ClaimsRoute route.comment
  | _ => True

/-- A step of `a` deletes nothing that belongs to a node of `b`. -/
def Label.Spares (nodes : List Kube.Node) (s : System) (label : Label) : Prop :=
  ∀ cloud outcome, label = .call .a cloud outcome → ∀ target, System.step digest cfg s label = some target →
    (∀ node ∈ nodes, ∀ connector ∈ s.account.connectors,
      connector.name = (cfg .b).connectorOf digest node → connector ∈ target.account.connectors) ∧
    (∀ node ∈ nodes, ∀ registration ∈ s.account.registrations,
      registration.name = (cfg .b).connectorOf digest node →
        registration ∈ target.account.registrations) ∧
    ∀ node ∈ nodes, ∀ network, ∀ route ∈ s.account.routes,
      route.comment = routeComment digest (cfg .b).clusterName (bytes node.name) network →
        ∃ kept ∈ target.account.routes, kept.id = route.id

/-- What `a` is about to do is allowed by what it has listed, and that is still so. -/
def System.Lawful (s : System) : Prop :=
  ∃ listed, Safe (cfg .a).ownership listed (s.tasks .a) ∧ (cfg .a).Faithful listed s

variable {digest cfg} {s target : System} {label : Label} {nodes : List Kube.Node}

theorem System.step_cases (taken : System.step digest cfg s label = some target) :
    (∃ side now next, label = .reconcile side now next ∧
      target = s.assign side ((cfg side).reconcile digest now next)) ∨
    (∃ side cloud outcome call rest, label = .call side cloud outcome ∧ s.tasks side = .call call rest ∧
      s.Admits (respond cloud outcome s.account call).2 ∧
      target = (s.become (respond cloud outcome s.account call).2).assign side
        (rest (respond cloud outcome s.account call).1)) ∨
    (∃ side, label = .stop side ∧ target = s.assign side (.ret ([], 0))) ∨
    ∃ registration isPrinted isNew, label = .enroll registration isPrinted ∧
      registration.id ∉ s.registrationIDs ∧
      target = s.become (s.account.enroll registration isNew isPrinted) := by
  cases label with
  | reconcile side now next =>
    rw [System.step] at taken
    split at taken
    · exact .inl ⟨side, now, next, rfl, (Option.some.inj taken).symm⟩
    · contradiction
  | call side cloud outcome =>
    rw [System.step] at taken
    split at taken
    · contradiction
    next call rest isTask =>
      dsimp only at taken
      split at taken
      next admits =>
        exact .inr (.inl ⟨side, cloud, outcome, call, rest, rfl, isTask, admits,
          (Option.some.inj taken).symm⟩)
      next => contradiction
  | stop side => exact .inr (.inr (.inl ⟨side, rfl, (Option.some.inj taken).symm⟩))
  | enroll registration isPrinted =>
    rw [System.step] at taken
    split at taken
    next isNew =>
      exact .inr (.inr (.inr ⟨registration, isPrinted, _, rfl, isNew, (Option.some.inj taken).symm⟩))
    next => contradiction

theorem System.lawful_assign_a {listed : Listed} {task : Action (List Text × Int)}
    (safe : Safe (cfg .a).ownership listed task) (faithful : (cfg .a).Faithful listed s) :
    (s.assign .a task).Lawful cfg := by
  refine ⟨listed, ?_, faithful.connectors, faithful.routes, faithful.registrations⟩
  change Safe _ _ (Function.update s.tasks .a task .a)
  rw [Function.update_self]
  exact safe

theorem System.Lawful.assign_b {task : Action (List Text × Int)} (lawful : s.Lawful cfg) :
    (s.assign .b task).Lawful cfg := by
  obtain ⟨listed, safe, faithful⟩ := lawful
  refine ⟨listed, ?_, faithful.connectors, faithful.routes, faithful.registrations⟩
  change Safe _ _ (Function.update s.tasks .b task .a)
  rw [Function.update_of_ne (by decide)]
  exact safe

/-- Operator `a` stays lawful, whatever happens, as long as `b` leaves its comments alone. -/
theorem System.Lawful.step (lawful : s.Lawful cfg) (leaves : label.LeavesComments cfg s)
    (taken : System.step digest cfg s label = some target) : target.Lawful cfg := by
  have lawful' := lawful
  obtain ⟨listed, safe, faithful⟩ := lawful
  rcases System.step_cases taken with ⟨side, now, next, rfl, rfl⟩ |
    ⟨side, cloud, outcome, call, rest, rfl, isTask, admits, rfl⟩ | ⟨side, rfl, rfl⟩ |
    ⟨registration, isPrinted, isNew, rfl, notKnown, rfl⟩
  · cases side with
    | a => exact lawful_assign_a (Config.safe_reconcile digest now next) faithful_empty
    | b => exact lawful'.assign_b
  · cases side with
    | a =>
      rw [isTask] at safe
      obtain ⟨_, continues⟩ := safe_call_iff.mp safe
      exact lawful_assign_a (continues _ trivial) (faithful.note admits)
    | b =>
      refine System.Lawful.assign_b ⟨listed, safe, faithful.respond admits ?_⟩
      rintro executes id network comment rfl route mem sameID old memOld claimed rfl
      refine leaves executes old.id network comment rest isTask route mem sameID ?_
      rw [(faithful.routes old memOld claimed).2 route mem sameID]
      exact claimed
  · cases side with
    | a => exact lawful_assign_a (.ret trivial) faithful
    | b => exact lawful'.assign_b
  · refine ⟨listed, safe, faithful.become ⟨?_, ?_⟩ (fun _ mem => .inl mem) (fun _ mem => .inl mem) ?_⟩
    · exact fun connector mem _ => List.mem_map_of_mem mem
    · exact fun route mem _ => List.mem_map_of_mem mem
    · intro other mem
      rcases List.mem_append.mp mem with mem | mem
      · exact .inl mem
      · rw [List.mem_singleton.mp mem]
        exact .inr notKnown

/-- A call of `a` deletes only what has the beginnings of its cluster. -/
theorem System.Lawful.spares (lawful : s.Lawful cfg) (apart : Apart digest cfg nodes) :
    label.Spares digest cfg nodes s := by
  obtain ⟨listed, safe, faithful⟩ := lawful
  rintro cloud outcome rfl target taken
  rcases System.step_cases taken with ⟨side, now, next, isLabel, rfl⟩ |
    ⟨side, cloud', outcome', call, rest, isLabel, isTask, admits, rfl⟩ | ⟨side, isLabel, rfl⟩ |
    ⟨registration, isPrinted, isNew, isLabel, notKnown, rfl⟩
  · contradiction
  · cases isLabel
    rw [isTask] at safe
    obtain ⟨allowed, _⟩ := safe_call_iff.mp safe
    rcases account_respond cloud outcome s.account call with same | ⟨_, changed⟩
    · rw [same]
      exact ⟨fun _ _ _ mem _ => mem, fun _ _ _ mem _ => mem, fun _ _ _ route mem _ => ⟨route, mem, rfl⟩⟩
    · refine ⟨?_, ?_, ?_⟩
      · intro node listedNode connector mem isName
        by_contra gone
        obtain rfl := changed.deletes_connector mem gone
        obtain ⟨old, memOld, sameID, claimed⟩ := allowed
        rw [← (faithful.connectors old memOld).2 connector mem sameID.symm, isName] at claimed
        exact apart.connectors node listedNode claimed
      · intro node listedNode registration mem isName
        by_contra gone
        obtain rfl := changed.deletes_registration mem gone
        obtain ⟨old, memOld, sameID, claimed⟩ := allowed
        rw [← (faithful.registrations old memOld).2 registration mem sameID.symm, isName] at claimed
        exact apart.connectors node listedNode claimed
      · intro node listedNode network route mem isComment
        by_contra gone
        have noneKept : ∀ kept ∈ (respond cloud outcome s.account call).2.routes, kept.id ≠ route.id :=
          fun kept memKept sameID => gone ⟨kept, memKept, sameID⟩
        obtain rfl := changed.deletes_route mem noneKept
        obtain ⟨old, memOld, sameID, claimed⟩ := allowed
        have same := (faithful.routes old memOld claimed).2 route mem sameID.symm
        rw [← same, isComment] at claimed
        exact apart.routes node listedNode network claimed
  · contradiction
  · contradiction

/-- Two operators share an account, call by call and in any order, with calls that fail and
devices that enroll. If no name of a node of `b` has the beginning of `a`, and `b` takes
over no route that has a comment of `a`, then `a` deletes nothing of `b`. -/
theorem spares_other_cluster (digest : Text → Text) (cfg : Side → Config) (nodes : List Kube.Node)
    (apart : Apart digest cfg nodes) {initial : System}
    (idle : ∀ side, ∃ result, initial.tasks side = .ret result) {labels : List Label}
    (leaves : Along (System.step digest cfg) (fun s label => label.LeavesComments cfg s) initial
      labels) :
    Along (System.step digest cfg) (fun s label => label.Spares digest cfg nodes s) initial labels := by
  obtain ⟨result, isIdle⟩ := idle .a
  have start : initial.Lawful cfg := by
    refine ⟨{}, ?_, faithful_empty⟩
    rw [isIdle]
    exact .ret trivial
  exact leaves.imp_of_invariant (fun _ _ lawful _ => lawful.spares apart)
    (fun _ _ _ lawful leaves taken => lawful.step leaves taken) start

end Runs

/-! ## Two clusters -/

def samplePair (a b : String) : Side → Config
  | .a => { sampleConfig with clusterName := bytes a, registrationGC := .off }
  | .b => { sampleConfig with clusterName := bytes b, registrationGC := .off }

def sampleSystem (connectors : List Connector) (distinct : (connectors.map Connector.id).Nodup) :
    System where
  account :=
    { connectors := connectors
      routes := []
      registrations := []
      distinctConnectors := distinct
      distinctRoutes := List.nodup_nil
      distinctRegistrations := List.nodup_nil
      plain := fun _ mem => absurd mem List.not_mem_nil
      printed := fun _ mem => absurd mem List.not_mem_nil }
  connectorIDs := connectors.map Connector.id
  routeIDs := []
  registrationIDs := []
  tasks := fun _ => .ret ([], 0)
  knownConnectors := fun _ mem => List.mem_map_of_mem mem
  knownRoutes := fun _ mem => absurd mem List.not_mem_nil
  knownRegistrations := fun _ mem => absurd mem List.not_mem_nil

def sampleNode : Kube.Node :=
  ⟨"n", [], "", []⟩

def sampleLabels (side : Side) (nodes : List Kube.Node) (calls : Nat) : List Label :=
  .reconcile side 0 0 :: List.replicate calls (.call side { sampleCloud with nodes := nodes } .performed)

theorem spares_other_cluster_apart :
    (run (System.step (fun _ => []) (samplePair "a" "b"))
      (sampleSystem [⟨"c1", bytes "flannel-a-old"⟩, ⟨"c2", bytes "flannel-b-n"⟩] (by decide))
      (sampleLabels .a [] 4)).map (fun s => s.account.connectors) =
        some [⟨"c2", bytes "flannel-b-n"⟩] ∧
    Along (System.step (fun _ => []) (samplePair "a" "b"))
      (fun s label => label.Spares (fun _ => []) (samplePair "a" "b") [sampleNode] s)
      (sampleSystem [⟨"c1", bytes "flannel-a-old"⟩, ⟨"c2", bytes "flannel-b-n"⟩] (by decide))
      (sampleLabels .a [] 4) := by
  have apart : Apart (fun _ => []) (samplePair "a" "b") [sampleNode] := by
    constructor
    · intro node isNode
      rw [List.mem_singleton.mp isNode, Config.Claims]
      decide
    · intro node isNode network
      rw [List.mem_singleton.mp isNode, Config.ClaimsRoute, routeComment,
        hasStart_boundedName _ (by decide), Bool.not_eq_true]
      rfl
  refine ⟨by decide, spares_other_cluster _ _ _ apart (fun _ => ⟨_, rfl⟩) ?_⟩
  -- only `a` makes calls
  have onlyA : ∀ label ∈ sampleLabels .a [] 4, ∀ s, label.LeavesComments (samplePair "a" "b") s := by
    intro label mem s
    rcases List.mem_cons.mp mem with rfl | mem
    · trivial
    · rw [List.eq_of_mem_replicate mem]
      trivial
  exact (along_of_forall_mem onlyA).mono fun s label leaves => leaves s

/-- The beginning of `a` is also that of the names of `a-b`: operator `a-b` creates the
connector of its node, and operator `a` deletes it. -/
theorem deletes_connector_of_longer_cluster :
    let cfg := samplePair "a" "a-b"
    let created := run (System.step (fun _ => []) cfg) (sampleSystem [] List.nodup_nil)
      (sampleLabels .b [sampleNode] 6)
    let swept := created.bind fun s => run (System.step (fun _ => []) cfg) s (sampleLabels .a [] 4)
    (cfg .a).connectorPrefix = (cfg .b).connectorPrefix ∧ (cfg .a).clusterName ≠ (cfg .b).clusterName ∧
      (cfg .a).clusterName ≠ [] ∧ (cfg .b).clusterName ≠ [] ∧
      (created.map fun s => s.account.connectors.map Connector.name) =
        some [(cfg .b).connectorOf (fun _ => []) sampleNode] ∧
      (swept.map fun s => s.account.connectors) = some [] := by
  decide

end Flannel.Operator
