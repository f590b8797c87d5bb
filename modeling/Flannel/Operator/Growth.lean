import Flannel.Operator.Account
import Flannel.Program.Report

/-!
# The resources of the nodes

The loop over the nodes deletes nothing, and changes the comment of a route only if it is one of a
listed node. What it finds for a node describes the account at the end of the loop, and a node
without an error has all that it needs.
-/

namespace Flannel.Operator

open Net Program

namespace Config

variable (digest : Text → Text) (cfg : Config)

/-! ## What the loop leaves -/

def Owns (account : Account) (node : Kube.Node) (id : String) : Prop :=
  (account.connectors.filter fun connector => connector.name = cfg.connectorOf digest node) =
    [⟨id, cfg.connectorOf digest node⟩]

structure Routes (account : Account) (node : Kube.Node) (connectorID network : String) : Prop where
  advertises : cfg.backendType node = "cloudflare-mesh"
  owns : cfg.Owns digest account node connectorID
  podCIDR : nodeIPv4PodCIDR node = .ok network

structure Grown (nodes : List Kube.Node) (before after : Account) : Prop where
  connectors : ∀ name, (before.connectors.filter fun connector => connector.name = name) ≠ [] →
    (after.connectors.filter fun connector => connector.name = name) =
      before.connectors.filter fun connector => connector.name = name
  routes : ∀ route ∈ before.routes, ∃ kept ∈ after.routes, kept.id = route.id ∧
    kept.tunnelID = route.tunnelID ∧ kept.network = route.network ∧
    (kept.comment = route.comment ∨
      ∃ node ∈ nodes, cfg.Routes digest after node route.tunnelID route.network)
  registrations : after.registrations = before.registrations

variable {digest cfg} {nodes : List Kube.Node} {before middle after : Account} {node : Kube.Node}
  {connectorID network : String} {cloud : Cloud}

theorem Owns.grown (owns : cfg.Owns digest before node connectorID)
    (grown : cfg.Grown digest nodes before after) : cfg.Owns digest after node connectorID := by
  have kept := grown.connectors (cfg.connectorOf digest node) (by rw [owns]; simp)
  exact kept.trans owns

theorem Owns.unique {other : String} (owns : cfg.Owns digest before node connectorID)
    (owns' : cfg.Owns digest before node other) : other = connectorID := by
  have same := owns'.symm.trans owns
  simpa using same

theorem Routes.grown (routes : cfg.Routes digest before node connectorID network)
    (grown : cfg.Grown digest nodes before after) :
    cfg.Routes digest after node connectorID network :=
  ⟨routes.advertises, routes.owns.grown grown, routes.podCIDR⟩

@[refl]
theorem Grown.refl (account : Account) : cfg.Grown digest nodes account account :=
  ⟨fun _ _ => rfl, fun route mem => ⟨route, mem, rfl, rfl, rfl, .inl rfl⟩, rfl⟩

@[trans]
theorem Grown.trans (first : cfg.Grown digest nodes before middle)
    (second : cfg.Grown digest nodes middle after) : cfg.Grown digest nodes before after where
  connectors := by
    intro name taken
    have kept := first.connectors name taken
    exact (second.connectors name (kept ▸ taken)).trans kept
  routes := by
    intro route mem
    obtain ⟨kept, memKept, id, tunnelID, network, comment⟩ := first.routes route mem
    obtain ⟨last, memLast, id', tunnelID', network', comment'⟩ := second.routes kept memKept
    refine ⟨last, memLast, id'.trans id, tunnelID'.trans tunnelID, network'.trans network, ?_⟩
    rw [tunnelID, network] at comment'
    rcases comment' with same | claimed
    · rcases comment with same' | ⟨node, listed, routes⟩
      · exact .inl (same.trans same')
      · exact .inr ⟨node, listed, routes.grown second⟩
    · exact .inr claimed
  registrations := second.registrations.trans first.registrations

/-! ## What a call adds -/

theorem grown_addConnector {name : Text}
    (absent : (before.connectors.filter fun connector => connector.name = name) = []) :
    cfg.Grown digest nodes before (before.addConnector cloud name) where
  connectors := by
    intro other taken
    have differ : name ≠ other := fun same => taken (same ▸ absent)
    simp [Account.addConnector, List.filter_append, differ]
  routes := fun route mem => ⟨route, mem, rfl, rfl, rfl, .inl rfl⟩
  registrations := rfl

theorem filter_addConnector {name : Text}
    (absent : (before.connectors.filter fun connector => connector.name = name) = []) :
    ((before.addConnector cloud name).connectors.filter fun connector => connector.name = name) =
      [⟨cloud.newID (before.connectors.map Connector.id), name⟩] := by
  rw [Account.addConnector, List.filter_append, absent]
  simp

theorem grown_addRoute {comment : Text} (isPlain : '\x00' ∉ network.toList) :
    cfg.Grown digest nodes before (before.addRoute cloud network connectorID comment isPlain) where
  connectors := fun _ _ => rfl
  routes := fun route mem => ⟨route, List.mem_append_left _ mem, rfl, rfl, rfl, .inl rfl⟩
  registrations := rfl

theorem grown_reviseRoute {comment : Text} {claimed : Route} (mem : claimed ∈ before.routes)
    (listed : node ∈ nodes)
    (routes : cfg.Routes digest before node claimed.tunnelID claimed.network) :
    cfg.Grown digest nodes before
      (before.reviseRoute claimed.id claimed.network comment (before.plain claimed mem)) where
  connectors := fun _ _ => rfl
  routes := by
    intro route memRoute
    refine ⟨_, List.mem_map_of_mem memRoute, Account.id_revised .., ?_⟩
    rw [Account.revised]
    split
    next sameID =>
      obtain rfl := List.inj_on_of_nodup_map before.distinctRoutes memRoute mem sameID
      exact ⟨rfl, rfl, .inr ⟨node, listed, routes.advertises, routes.owns, routes.podCIDR⟩⟩
    next => exact ⟨rfl, rfl, .inl rfl⟩
  registrations := rfl

/-! ## The functions of the client -/

section Client

variable {C : Account → Prop} {account : Account}

theorem endures_checked {call : Call} {value : Value call} {target : Account} (text : Text)
    (answered : answer cloud account call = (.ok value, target)) (before : C account)
    (after : C target) :
    Endures (answer cloud) failure C (Ends (fun _ => C) fun result s => s = target ∧ result = value)
      (checked text call) account :=
  endures_wrap (endures_answered answered before after)

theorem endures_getConnectorToken (id : String) (holds : C account) :
    Endures (answer cloud) failure C (Ends (fun _ => C) fun _ s => s = account)
      (getConnectorToken id) account := by
  have asked : answer cloud account (.getConnectorToken id) = (.ok (cloud.token id), account) := rfl
  refine (endures_checked _ asked holds holds).attempt ?_
  rintro token s ⟨rfl, rfl⟩
  split
  · exact .ret holds
  · exact .ret rfl

variable {name : Text} {ha : Bool}

theorem endures_createConnector
    (absent : (account.connectors.filter fun connector => connector.name = name) = []) :
    Endures (answer cloud) failure (cfg.Grown digest nodes account)
      (Ends (fun _ => cfg.Grown digest nodes account) fun connector s =>
        cfg.Grown digest nodes account s ∧
          (s.connectors.filter fun other => other.name = name) = [⟨connector.id, name⟩])
      (createConnector name ha) account := by
  have grown : cfg.Grown digest nodes account (account.addConnector cloud name) :=
    grown_addConnector absent
  have only : ((account.addConnector cloud name).connectors.filter fun other => other.name = name) =
      [⟨cloud.newID (account.connectors.map Connector.id), name⟩] := filter_addConnector absent
  refine (endures_checked _ rfl (.refl _) grown).attempt ?_
  rintro connector s ⟨rfl, rfl⟩
  rw [if_neg (cloud.nonempty _)]
  split
  · refine (endures_getConnectorToken _ grown).attempt ?_
    rintro token s rfl
    exact .ret ⟨grown, only⟩
  · exact .ret ⟨grown, only⟩

theorem filter_credentials :
    account.credentials.filter (·.name = name) =
      (account.connectors.filter fun connector => connector.name = name).map
        fun connector => ⟨connector.id, connector.name, ""⟩ := by
  rw [Account.credentials, List.filter_map]
  rfl

theorem endures_ensureConnector :
    Endures (answer cloud) failure (cfg.Grown digest nodes account)
      (Ends (fun _ => cfg.Grown digest nodes account) fun connector s =>
        cfg.Grown digest nodes account s ∧
          (s.connectors.filter fun other => other.name = name) = [⟨connector.id, name⟩])
      (ensureConnector "" name ha) account := by
  have asked : answer cloud account .listConnectors = (.ok account.credentials, account) := rfl
  refine (endures_checked _ asked (.refl _) (.refl _)).attempt ?_
  rintro connectors s ⟨rfl, rfl⟩
  rw [filter_credentials]
  cases named : s.connectors.filter fun connector => connector.name = name with
  | nil => exact endures_createConnector named
  | cons found others =>
    cases others with
    | cons other others => exact .ret (.refl _)
    | nil =>
      have isNamed : found ∈ s.connectors.filter fun connector => connector.name = name := by
        rw [named]
        exact List.mem_singleton_self _
      have sameName : found.name = name := by simpa using (List.mem_filter.mp isNamed).2
      refine (endures_getConnectorToken _ (.refl _)).attempt ?_
      rintro token s rfl
      refine .ret ⟨.refl _, named.trans ?_⟩
      rw [← sameName]

theorem endures_ensureRoute {comment : Text} (listed : node ∈ nodes)
    (routes : cfg.Routes digest account node connectorID network) :
    Endures (answer cloud) failure (cfg.Grown digest nodes account)
      (Ends (fun _ => cfg.Grown digest nodes account) fun route s =>
        cfg.Grown digest nodes account s ∧ route ∈ s.routes ∧ route.tunnelID = connectorID ∧
          route.network = network)
      (ensureRoute connectorID network comment) account := by
  refine (endures_checked _ rfl (.refl _) (.refl _)).attempt ?_
  rintro listing s ⟨rfl, rfl⟩
  split
  next route found =>
    have isFound := List.find?_some found
    have mem := (List.mem_filter.mp (List.mem_of_find?_eq_some found)).1
    simp only [decide_eq_true_eq] at isFound
    obtain ⟨rfl, rfl⟩ := isFound
    split
    · have asked : answer cloud s (.updateRouteComment route.id route.network comment) =
          (.ok (Account.revised route.id route.network comment route),
            s.reviseRoute route.id route.network comment (s.plain route mem)) := by
        rw [answer, dif_pos (s.plain route mem), s.find?_route mem]
      have grown : cfg.Grown digest nodes s
          (s.reviseRoute route.id route.network comment (s.plain route mem)) :=
        grown_reviseRoute mem listed routes
      refine (endures_checked _ asked (.refl _) grown).imp ?_
      intro result later ends
      cases result with
      | error err => exact ends
      | ok updated =>
        obtain ⟨rfl, rfl⟩ := ends
        refine ⟨grown, List.mem_map_of_mem mem, ?_⟩
        simp [Account.revised]
    · exact .ret ⟨.refl _, mem, rfl, rfl⟩
  next =>
    by_cases isPlain : '\x00' ∉ network.toList
    · have asked : answer cloud s (.createRoute network connectorID comment) =
          (.ok (s.newRoute cloud network connectorID comment),
            s.addRoute cloud network connectorID comment isPlain) := by
        rw [answer, dif_pos isPlain]
      have grown : cfg.Grown digest nodes s
          (s.addRoute cloud network connectorID comment isPlain) := grown_addRoute isPlain
      refine (endures_checked _ asked (.refl _) grown).imp ?_
      intro result later ends
      cases result with
      | error err => exact ends
      | ok route =>
        obtain ⟨rfl, rfl⟩ := ends
        exact ⟨grown, List.mem_append_right _ (List.mem_singleton_self _), rfl, rfl⟩
    · have asked : answer cloud s (.createRoute network connectorID comment) =
          (.error (bytes "invalid network"), s) := by
        rw [answer, dif_neg isPlain]
      exact endures_wrap (endures_rejected asked (.refl _) (.refl _))

end Client

/-! ## The loop over the nodes -/

variable (cfg) in
def Advertises (node : Kube.Node) (bits : BitVec 32) : Prop :=
  cfg.backendType node = "cloudflare-mesh" ∧
    ∃ data, cfg.leaseData node = .ok data ∧ (parseIP data.meshIP).bind IP.to4 = some bits

variable (digest cfg) in
structure Describes (account : Account) (node : Kube.Node) (found : Found) : Prop where
  connector : ∀ id, found.connector = some id → cfg.Owns digest account node id
  route : ∀ key, found.route = some key → ∃ connectorID network,
    cfg.Routes digest account node connectorID network ∧ key = routeKey connectorID network ∧
      ∃ route ∈ account.routes, route.tunnelID = connectorID ∧ route.network = network
  hasConnector : found.err = none → ∃ id, found.connector = some id
  hasRoute : found.err = none → cfg.backendType node = "cloudflare-mesh" →
    ∃ key, found.route = some key
  hasMeshIP : found.err = none → ∀ bits, cfg.Advertises node bits →
    found.meshIP = some (IP.v4 bits).string

theorem Describes.grown {found : Found} (describes : cfg.Describes digest before node found)
    (grown : cfg.Grown digest nodes before after) : cfg.Describes digest after node found where
  connector := fun id isFound => (describes.connector id isFound).grown grown
  route := by
    intro key isFound
    obtain ⟨connectorID, network, routes, isKey, route, mem, sameTunnel, sameNetwork⟩ :=
      describes.route key isFound
    obtain ⟨kept, memKept, _, tunnelID, network', _⟩ := grown.routes route mem
    exact ⟨connectorID, network, routes.grown grown, isKey, kept, memKept,
      tunnelID.trans sameTunnel, network'.trans sameNetwork⟩
  hasConnector := describes.hasConnector
  hasRoute := describes.hasRoute
  hasMeshIP := describes.hasMeshIP

variable {account : Account}

theorem describes_of_err {found : Found} {err : Text} (isErr : found.err = some err)
    (noRoute : found.route = none)
    (owned : ∀ id, found.connector = some id → cfg.Owns digest account node id) :
    cfg.Describes digest account node found where
  connector := owned
  route := by simp [noRoute]
  hasConnector := by simp [isErr]
  hasRoute := by simp [isErr]
  hasMeshIP := by simp [isErr]

theorem string_of_to4 {ip : IP} {bits : BitVec 32} (isBits : ip.to4 = some bits) :
    ip.string = (IP.v4 bits).string := by
  rw [IP.string, IP.string, isBits]
  rfl

theorem endures_reconcileAdvertised (listed : node ∈ nodes)
    (advertises : cfg.backendType node = "cloudflare-mesh")
    (owns : cfg.Owns digest account node connectorID) :
    Endures (answer cloud) failure (cfg.Grown digest nodes account)
      (fun found s => cfg.Grown digest nodes account s ∧ cfg.Describes digest s node found)
      (cfg.reconcileAdvertised digest node connectorID) account := by
  have owned : ∀ id, some connectorID = some id → cfg.Owns digest account node id := by
    rintro id ⟨⟩
    exact owns
  rw [reconcileAdvertised]
  split
  next => exact .ret ⟨.refl _, describes_of_err rfl rfl owned⟩
  next data isData =>
    split
    · exact .ret ⟨.refl _, describes_of_err rfl rfl owned⟩
    · split
      next => exact .ret ⟨.refl _, describes_of_err rfl rfl owned⟩
      next meshIP isMeshIP =>
        split
        next => exact .ret ⟨.refl _, describes_of_err rfl rfl owned⟩
        next network isNetwork =>
          have routes : cfg.Routes digest account node connectorID network :=
            ⟨advertises, owns, isNetwork⟩
          apply endures_bind
          refine (endures_ensureRoute listed routes).imp ?_
          intro result s ends
          cases result with
          | error err =>
            refine .ret ⟨ends, describes_of_err rfl rfl fun id isFound => ?_⟩
            exact (owned id isFound).grown ends
          | ok route =>
            obtain ⟨grown, mem, rfl, rfl⟩ := ends
            refine .ret ⟨grown, ?_, ?_, ?_, ?_, ?_⟩
            · exact fun id isFound => (owned id isFound).grown grown
            · rintro key ⟨⟩
              exact ⟨_, _, routes.grown grown, rfl, route, mem, rfl, rfl⟩
            · exact fun _ => ⟨_, rfl⟩
            · exact fun _ _ => ⟨_, rfl⟩
            · rintro _ bits ⟨_, data', isData', isBits⟩
              obtain rfl := Except.ok.inj (isData.symm.trans isData')
              obtain ⟨isParsed, _⟩ := Option.filter_eq_some_iff.mp isMeshIP
              rw [isParsed] at isBits
              exact congrArg some (string_of_to4 isBits)

theorem endures_reconcileNode (listed : node ∈ nodes) :
    Endures (answer cloud) failure (cfg.Grown digest nodes account)
      (fun found s => cfg.Grown digest nodes account s ∧ cfg.Describes digest s node found)
      (cfg.reconcileNode digest node) account := by
  apply endures_bind
  refine endures_ensureConnector.imp ?_
  intro result s ends
  cases result with
  | error err => exact .ret ⟨ends, describes_of_err rfl rfl (by simp)⟩
  | ok connector =>
    obtain ⟨grown, owns⟩ := ends
    have owned : ∀ id, some connector.id = some id → cfg.Owns digest s node id := by
      rintro id ⟨⟩
      exact owns
    refine endures_request grown ?_ fun err => ?_
    · -- the secret is there
      change Endures _ _ _ _ (if _ then _ else _) s
      split
      next other =>
        refine .ret ⟨grown, owned, by simp, fun _ => ⟨_, rfl⟩, fun _ same => absurd same other, ?_⟩
        exact fun _ bits advertises => absurd advertises.1 other
      next same =>
        refine ((endures_reconcileAdvertised listed (not_not.mp same) owns).weaken ?_).imp ?_
        · exact fun later grown' => grown.trans grown'
        · exact fun found later described => ⟨grown.trans described.1, described.2⟩
    · exact ⟨.ret ⟨grown, describes_of_err rfl rfl owned⟩, .ret ⟨grown, describes_of_err rfl rfl owned⟩⟩

theorem endures_reconcileNodes :
    Endures (answer cloud) failure (cfg.Grown digest nodes account)
      (fun founds s => cfg.Grown digest nodes account s ∧
        (∀ node ∈ nodes, ∃ found ∈ founds, cfg.Describes digest s node found) ∧
        ∀ found ∈ founds, ∃ node ∈ nodes, cfg.Describes digest s node found)
      (cfg.reconcileNodes digest nodes) account := by
  refine Endures.imp (endures_collect_rounds (Q := fun node out s =>
    ∃ found, out = [found] ∧ cfg.Describes digest s node found) ?_ (.refl account)) ?_
  · intro node listed s grown
    apply endures_bind
    refine ((endures_reconcileNode listed).weaken fun later => grown.trans).imp ?_
    rintro found later ⟨grown', describes⟩
    refine .ret ⟨grown.trans grown', ⟨found, rfl, describes⟩, ?_⟩
    rintro other outs ⟨found, rfl, describes⟩
    exact ⟨found, rfl, describes.grown grown'⟩
  · rintro founds s ⟨grown, all, only, _⟩
    refine ⟨grown, ?_, ?_⟩
    · intro node listed
      obtain ⟨out, ⟨found, rfl, describes⟩, sub⟩ := all node listed
      exact ⟨found, sub (List.mem_singleton_self found), describes⟩
    · intro found mem
      obtain ⟨node, listed, out, ⟨other, rfl, describes⟩, isOther⟩ := only found mem
      obtain rfl := List.mem_singleton.mp isOther
      exact ⟨node, listed, describes⟩

/-! ## Calls that fail -/

section Reports

def Failed (call : Call) (result : Res call) : Prop :=
  IsError result

theorem tells_checked (text : Text) (call : Call) : Tells Failed IsError (checked text call) :=
  tells_wrap (tells_request call)

theorem tells_getConnectorToken (id : String) : Tells Failed IsError (getConnectorToken id) := by
  refine tells_attempt (tells_checked _ _) fun token => ?_
  split <;> exact .ret

theorem tells_createConnector (name : Text) (ha : Bool) :
    Tells Failed IsError (createConnector name ha) := by
  refine tells_attempt (tells_checked _ _) fun connector => ?_
  split_ifs
  · exact .ret
  · exact tells_attempt (tells_getConnectorToken _) fun token => .ret
  · exact .ret

theorem tells_ensureConnector (name : Text) (ha : Bool) :
    Tells Failed IsError (ensureConnector "" name ha) := by
  refine tells_attempt (tells_checked _ .listConnectors) fun connectors => ?_
  split
  · exact tells_createConnector name ha
  · exact tells_attempt (tells_getConnectorToken _) fun token => .ret
  · exact .ret

theorem tells_ensureRoute (connectorID network : String) (comment : Text) :
    Tells Failed IsError (ensureRoute connectorID network comment) := by
  refine tells_attempt (tells_checked _ (.listRoutes connectorID)) fun routes => ?_
  split
  · split
    · exact tells_checked _ (.updateRouteComment _ _ comment)
    · exact .ret
  · exact tells_checked _ (.createRoute network connectorID comment)

theorem tells_reconcileAdvertised (node : Kube.Node) (connectorID : String) :
    Tells Failed (fun found => found.err ≠ none) (cfg.reconcileAdvertised digest node connectorID) := by
  rw [reconcileAdvertised]
  split
  · exact .ret
  · split
    · exact .ret
    · split
      · exact .ret
      · split
        · exact .ret
        · refine tells_bind (tells_ensureRoute _ _ _) ?_ fun result => ?_
          · rintro _ ⟨err, rfl⟩
            exact .ret (by simp [nodeError])
          · cases result <;> exact .ret

theorem tells_reconcileNode (node : Kube.Node) :
    Tells Failed (fun found => found.err ≠ none) (cfg.reconcileNode digest node) := by
  refine tells_bind (tells_ensureConnector _ _) ?_ fun result => ?_
  · rintro _ ⟨err, rfl⟩
    exact .ret (by simp [nodeError])
  · cases result with
    | error err => exact .ret
    | ok connector =>
      refine tells_bind (tells_request _) ?_ fun result => ?_
      · rintro _ ⟨err, rfl⟩
        exact .ret (by simp)
      · cases result with
        | error err => exact .ret
        | ok value =>
          change Tells _ _ (if _ then _ else _)
          split
          · exact .ret
          · exact tells_reconcileAdvertised node connector.id

theorem tells_reconcileNodes (nodes : List Kube.Node) :
    Tells Failed (fun founds => ∃ found ∈ founds, found.err ≠ none)
      (cfg.reconcileNodes digest nodes) := by
  refine tells_collect (fun node => tells_bind (tells_reconcileNode node) ?_ fun found => .ret) nodes
  exact fun found told => .ret ⟨found, List.mem_singleton_self found, told⟩

end Reports

end Config

end Flannel.Operator
