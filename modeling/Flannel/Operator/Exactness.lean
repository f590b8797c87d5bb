import Flannel.Operator.Growth
import Mathlib.Algebra.Order.BigOperators.Group.List
import Mathlib.Algebra.Order.Group.Nat

/-!
# Exactness of the reconcile loop

A run in which something failed for a node deletes nothing; a run without an error leaves exactly
the routes and connectors of the nodes, among those that carry the beginnings of the cluster; and
in every run, cut short or not, what does not carry them stays.
-/

namespace Flannel.Operator

open Net Program

namespace Config

/-! ## Sweeps -/

structure Swept {ι : Type} (keep : ι → Bool) (before after : List ι) : Prop where
  kept : ∀ x ∈ before, keep x = true → x ∈ after
  only : after ⊆ before

section Sweep

variable {ι : Type} {keep : ι → Bool} {cloud : Cloud}

theorem Swept.refl (xs : List ι) : Swept keep xs xs :=
  ⟨fun _ mem _ => mem, fun _ mem => mem⟩

theorem Swept.drop {before after : List ι} {key : ι → String} {x : ι} (swept : Swept keep before after)
    (mem : x ∈ before) (spare : keep x = false) (distinct : (before.map key).Nodup) :
    Swept keep before (after.filter fun y => key y ≠ key x) where
  kept := by
    intro y memY isKept
    rw [List.mem_filter]
    refine ⟨swept.kept y memY isKept, decide_eq_true fun sameKey => ?_⟩
    obtain rfl := List.inj_on_of_nodup_map distinct memY mem sameKey
    exact absurd (isKept.symm.trans spare) (by simp)
  only := fun y memY => swept.only (List.mem_filter.mp memY).1

variable {C : Account → Prop} {account target : Account}

theorem endures_delete (call : Call) {value : Value call} (text : Text)
    (answered : answer cloud account call = (.ok value, target)) (holds : C account)
    (holds' : C target) :
    Endures (answer cloud) failure C
      (Ends (fun _ s => s = account ∨ s = target) fun _ s => s = target) (checked text call)
      account := by
  have endures : Endures (answer cloud) failure (fun s => s = account ∨ s = target) _
      (checked text call) account := endures_checked text answered (.inl rfl) (.inr rfl)
  refine (endures.weaken ?_).imp ?_
  · rintro s (rfl | rfl)
    · exact holds
    · exact holds'
  · intro result s ends
    cases result with
    | error err => exact ends
    | ok value => exact ends.1

structure Deletion (cloud : Cloud) (items : Account → List ι)
    (delete : ι → Action (Except Text Unit)) where
  key : ι → String
  drop : ι → Account → Account
  items_drop : ∀ x account, items (drop x account) = (items account).filter fun y => key y ≠ key x
  endures : ∀ {C : Account → Prop} (x : ι) (account : Account), C account → C (drop x account) →
    Endures (answer cloud) failure C
      (Ends (fun _ s => s = account ∨ s = drop x account) fun _ s => s = drop x account)
      (delete x) account

variable {items : Account → List ι} {delete : ι → Action (Except Text Unit)}

theorem endures_sweep (deletion : Deletion cloud items delete) {xs : List ι}
    (preserved : ∀ x ∈ xs, keep x = false → ∀ s, C s → C (deletion.drop x s)) (holds : C account) :
    Endures (answer cloud) failure C
      (fun errs s => C s ∧ (errs = [] → ∀ x ∈ xs, keep x = false → x ∉ items s))
      (sweep keep delete xs) account := by
  refine Endures.imp (endures_collect_rounds (Q := fun x out s =>
    out = [] → keep x = false → x ∉ items s) ?_ holds) ?_
  · intro x mem s holds
    split
    next isKept => exact .ret ⟨holds, fun _ spare => absurd (isKept.symm.trans spare) (by simp), by simp⟩
    next notKept =>
      have spare : keep x = false := by simpa using notKept
      have gone : x ∉ items (deletion.drop x s) := by simp [deletion.items_drop]
      have fewer : items (deletion.drop x s) ⊆ items s := by
        rw [deletion.items_drop]
        exact fun y memY => (List.mem_filter.mp memY).1
      have stable : ∀ y (outs : List Text), (outs = [] → keep y = false → y ∉ items s) →
          outs = [] → keep y = false → y ∉ items (deletion.drop x s) :=
        fun y outs absent none spareY memY => absent none spareY (fewer memY)
      have holds' := preserved x mem spare s holds
      apply endures_bind
      refine (deletion.endures x s holds holds').imp ?_
      intro result later ends
      cases result with
      | error err =>
        rcases ends with rfl | rfl
        · exact .ret ⟨holds, by simp, by simp⟩
        · exact .ret ⟨holds', by simp, stable⟩
      | ok value =>
        obtain rfl := ends
        exact .ret ⟨holds', fun _ _ => gone, stable⟩
  · rintro errs s ⟨holds, all, _, _⟩
    refine ⟨holds, fun none x mem spare => ?_⟩
    obtain ⟨out, absent, sub⟩ := all x mem
    exact absent (List.subset_nil.mp (none ▸ sub)) spare

theorem endures_sweepListed (deletion : Deletion cloud items delete) {text : String}
    {list : Action (Except Text (List ι))}
    (preserved : ∀ x ∈ items account, keep x = false → ∀ s, C s → C (deletion.drop x s))
    (lists : Endures (answer cloud) failure C
      (Ends (fun _ => C) fun listed s => s = account ∧ listed = items account) list account)
    (holds : C account) :
    Endures (answer cloud) failure C
      (fun errs s => C s ∧ (errs = [] → ∀ x ∈ items account, keep x = false → x ∉ items s))
      (sweepListed text list keep delete) account := by
  apply endures_bind
  refine lists.imp ?_
  intro result s ends
  cases result with
  | error err => exact .ret ⟨ends, by simp⟩
  | ok listed =>
    obtain ⟨rfl, rfl⟩ := ends
    exact endures_sweep deletion preserved holds

end Sweep

def routeDeletion (cloud : Cloud) :
    Deletion cloud Account.routes fun route => deleteRoute route.id where
  key := Route.id
  drop := fun route account => account.dropRoute route.id
  items_drop := fun _ _ => rfl
  endures := fun route _ => endures_delete (.deleteRoute route.id) _ rfl

theorem credentials_dropConnector (account : Account) (id : String) :
    (account.dropConnector id).credentials = account.credentials.filter fun listed => listed.id ≠ id := by
  rw [Account.credentials, Account.credentials, List.filter_map]
  rfl

def connectorDeletion (cloud : Cloud) :
    Deletion cloud Account.credentials fun connector => deleteConnector connector.id where
  key := ConnectorCredentials.id
  drop := fun connector account => account.dropConnector connector.id
  items_drop := fun _ _ => credentials_dropConnector _ _
  endures := fun connector _ => endures_delete (.deleteConnector connector.id) _ rfl

def registrationDeletion (cloud : Cloud) :
    Deletion cloud Account.registrations fun registration =>
      wrap (bytes "delete orphaned registration " ++ bytes registration.id ++ bytes ": " ++ ·)
        (deleteDeviceRegistration registration.id) where
  key := DeviceRegistration.id
  drop := fun registration account => account.dropRegistration registration.id
  items_drop := fun _ _ => rfl
  endures := fun registration _ holds holds' =>
    endures_wrap (endures_delete (.deleteDeviceRegistration registration.id) _ rfl holds holds')

/-! ## The collections -/

variable (digest : Text → Text) (cfg : Config)

def sparesRegistration (desiredMeshIPs : List String) (now : Int) (registration : DeviceRegistration) :
    Bool :=
  cfg.keepsRegistration desiredMeshIPs now registration || decide (cfg.registrationGC = .off)

structure Collected (founds : List Found) (now : Int) (before after : Account) : Prop where
  routes : Swept (cfg.keepsRoute (founds.filterMap Found.route)) before.routes after.routes
  connectors : Swept (cfg.keepsConnector (founds.filterMap Found.connector)) before.credentials
    after.credentials
  registrations : Swept (cfg.sparesRegistration (founds.filterMap Found.meshIP) now)
    before.registrations after.registrations

variable {digest cfg} {founds : List Found} {now next : Int} {before after account : Account}
  {cloud : Cloud} {nodes : List Kube.Node} {node : Kube.Node}

theorem Collected.refl (account : Account) : cfg.Collected founds now account account :=
  ⟨.refl _, .refl _, .refl _⟩

theorem Collected.dropRoute (collected : cfg.Collected founds now before after) {route : Route}
    (mem : route ∈ before.routes)
    (spare : cfg.keepsRoute (founds.filterMap Found.route) route = false) :
    cfg.Collected founds now before (after.dropRoute route.id) where
  routes := collected.routes.drop mem spare before.distinctRoutes
  connectors := collected.connectors
  registrations := collected.registrations

theorem Collected.dropConnector (collected : cfg.Collected founds now before after)
    {connector : ConnectorCredentials} (mem : connector ∈ before.credentials)
    (spare : cfg.keepsConnector (founds.filterMap Found.connector) connector = false) :
    cfg.Collected founds now before (after.dropConnector connector.id) where
  routes := collected.routes
  connectors := by
    have distinct : (before.credentials.map ConnectorCredentials.id).Nodup := by
      rw [Account.credentials, List.map_map]
      exact before.distinctConnectors
    rw [credentials_dropConnector]
    exact collected.connectors.drop mem spare distinct
  registrations := collected.registrations

theorem Collected.dropRegistration (collected : cfg.Collected founds now before after)
    {registration : DeviceRegistration} (mem : registration ∈ before.registrations)
    (spare : cfg.sparesRegistration (founds.filterMap Found.meshIP) now registration = false) :
    cfg.Collected founds now before (after.dropRegistration registration.id) where
  routes := collected.routes
  connectors := collected.connectors
  registrations := collected.registrations.drop mem spare before.distinctRegistrations

theorem endures_collectRegistrations {P : Account → Prop}
    (preserved : ∀ account id, P account → P (account.dropRegistration id))
    (collected : cfg.Collected founds now before account) (holds : P account) :
    Endures (answer cloud) failure (fun s => cfg.Collected founds now before s ∧ P s)
      (fun _ s => cfg.Collected founds now before s ∧ P s)
      (cfg.collectRegistrations (founds.filterMap Found.meshIP) now next) account := by
  have both : cfg.Collected founds now before account ∧ P account := ⟨collected, holds⟩
  rw [collectRegistrations]
  split
  · exact .ret both
  next notOff =>
    split
    · exact .ret both
    · have asked : answer cloud account .listDeviceRegistrations = (.ok account.registrations, account) :=
        rfl
      apply endures_bind
      refine (endures_sweepListed (registrationDeletion cloud) ?_ (endures_checked _ asked both both)
        both).imp fun errs s swept => .ret swept.1
      rintro registration mem spare s ⟨collected', holds'⟩
      refine ⟨collected'.dropRegistration (collected.registrations.only mem) ?_, preserved _ _ holds'⟩
      simp [sparesRegistration, spare, notOff]

theorem endures_collectGarbage :
    Endures (answer cloud) failure (cfg.Collected founds now before)
      (fun result s => cfg.Collected founds now before s ∧
        (result.1 = [] →
          (∀ route ∈ s.routes, cfg.keepsRoute (founds.filterMap Found.route) route) ∧
          ∀ connector ∈ s.credentials,
            cfg.keepsConnector (founds.filterMap Found.connector) connector))
      (cfg.collectGarbage founds now next) before := by
  have lists : Endures (answer cloud) failure (cfg.Collected founds now before)
      (Ends (fun _ => cfg.Collected founds now before) fun listed s => s = before ∧ listed = before.routes)
      (listRoutes "") before := by
    have asked : answer cloud before (.listRoutes "") = (.ok before.routes, before) := by
      simp [answer]
    exact endures_checked _ asked (.refl _) (.refl _)
  apply endures_bind
  refine (endures_sweepListed (routeDeletion cloud) ?_ lists (.refl _)).imp ?_
  · exact fun route mem spare s collected => collected.dropRoute mem spare
  rintro errs s ⟨collected, swept⟩
  split
  next someErrs => exact .ret ⟨collected, fun none => absurd none someErrs⟩
  next noErrs =>
    have routesKept : ∀ route ∈ s.routes,
        cfg.keepsRoute (founds.filterMap Found.route) route := by
      intro route mem
      by_contra spare
      exact swept (not_not.mp noErrs) route (collected.routes.only mem) (by simpa using spare) mem
    have asked : answer cloud s .listConnectors = (.ok s.credentials, s) := rfl
    apply endures_bind
    refine (endures_checked _ asked collected collected).imp ?_
    intro result later ends
    cases result with
    | error err => exact .ret ⟨ends, by simp⟩
    | ok listed =>
      obtain ⟨rfl, rfl⟩ := ends
      apply endures_bind
      refine ((endures_sweep (connectorDeletion cloud) (C := fun t =>
        cfg.Collected founds now before t ∧ t.routes = later.routes ∧
          t.credentials ⊆ later.credentials) ?_ ⟨collected, rfl, fun _ mem => mem⟩).weaken
        fun _ => And.left).imp ?_
      · rintro connector mem spare t ⟨collected', sameRoutes, fewer⟩
        refine ⟨collected'.dropConnector (collected.connectors.only mem) spare, sameRoutes, ?_⟩
        intro other memOther
        rw [(connectorDeletion cloud).items_drop] at memOther
        exact fewer (List.mem_filter.mp memOther).1
      · rintro errs t ⟨⟨collected', sameRoutes, fewer⟩, swept⟩
        have connectorsKept : errs = [] → ∀ connector ∈ t.credentials,
            cfg.keepsConnector (founds.filterMap Found.connector) connector := by
          intro none connector mem
          by_contra spare
          exact swept none connector (fewer mem) (by simpa using spare) mem
        apply endures_bind
        refine ((endures_collectRegistrations (P := fun u =>
          u.routes = later.routes ∧ u.credentials = t.credentials) (fun _ _ holds => holds) collected'
          ⟨sameRoutes, rfl⟩).weaken fun _ => And.left).imp ?_
        rintro result u ⟨collected, sameRoutes, sameConnectors⟩
        refine .ret ⟨collected, fun none => ⟨?_, ?_⟩⟩
        · rw [sameRoutes]
          exact routesKept
        · rw [sameConnectors]
          exact connectorsKept none

/-! ## What a run leaves -/

variable (digest cfg)

structure Undeleted (before after : Account) : Prop where
  connectors : before.connectors ⊆ after.connectors
  routes : ∀ route ∈ before.routes, ∃ kept ∈ after.routes, kept.id = route.id
  registrations : before.registrations ⊆ after.registrations

/-- Only what carries the beginnings of the cluster is deleted, and a registration only for good
reasons. -/
structure Spared (nodes : List Kube.Node) (now : Int) (before after : Account) : Prop where
  connectors : ∀ connector ∈ before.connectors,
    hasStart connector.name (connectorNamePrefix cfg.connectorPrefix cfg.clusterName) = false →
      connector ∈ after.connectors
  routes : ∀ route ∈ before.routes,
    hasStart route.comment (routeCommentPrefix cfg.clusterName) = false →
      ∃ kept ∈ after.routes, kept.id = route.id ∧ kept.tunnelID = route.tunnelID ∧
        kept.network = route.network
  registrations : ∀ registration ∈ before.registrations, registration ∉ after.registrations →
    cfg.registrationGC = .on ∧
      hasStart registration.name (connectorNamePrefix cfg.connectorPrefix cfg.clusterName) = true ∧
      (∀ node ∈ nodes, ∀ bits, cfg.Advertises node bits →
        (parseIP registration.virtualIPv4).bind IP.to4 ≠ some bits) ∧
      registrationGCGrace ≤ now - registration.createdAt

/-- The nodes have what they need, and of what carries the beginnings of the cluster there is
nothing else. -/
structure Converged (nodes : List Kube.Node) (account : Account) : Prop where
  connectors : ∀ node ∈ nodes, ∃ id, cfg.Owns digest account node id
  routes : ∀ node ∈ nodes, cfg.backendType node = "cloudflare-mesh" → ∃ connectorID network,
    cfg.Routes digest account node connectorID network ∧
      ∃ route ∈ account.routes, route.tunnelID = connectorID ∧ route.network = network
  onlyRoutes : ∀ route ∈ account.routes,
    hasStart route.comment (routeCommentPrefix cfg.clusterName) = true →
      ∃ node ∈ nodes, cfg.Routes digest account node route.tunnelID route.network
  onlyConnectors : ∀ connector ∈ account.connectors,
    hasStart connector.name (connectorNamePrefix cfg.connectorPrefix cfg.clusterName) = true →
      ∃ node ∈ nodes, cfg.Owns digest account node connector.id

structure Surveyed (nodes : List Kube.Node) (founds : List Found) (before after : Account) : Prop where
  grown : cfg.Grown digest nodes before after
  clean : ∀ found ∈ founds, found.err = none
  all : ∀ node ∈ nodes, ∃ found ∈ founds, cfg.Describes digest after node found
  only : ∀ found ∈ founds, ∃ node ∈ nodes, cfg.Describes digest after node found

variable {digest cfg}

theorem owns_iff {id : String} :
    cfg.Owns digest account node id ↔ ∀ connector,
      (connector ∈ account.connectors ∧ connector.name = cfg.connectorOf digest node) ↔
        connector = ⟨id, cfg.connectorOf digest node⟩ := by
  constructor
  · intro owns connector
    have named : connector ∈ (account.connectors.filter fun connector =>
        connector.name = cfg.connectorOf digest node) ↔
        connector ∈ [⟨id, cfg.connectorOf digest node⟩] := by rw [owns]
    rwa [List.mem_filter, decide_eq_true_eq, List.mem_singleton] at named
  · intro iff
    have distinct : (account.connectors.filter fun connector =>
        connector.name = cfg.connectorOf digest node).Nodup :=
      (List.Nodup.of_map _ account.distinctConnectors).filter _
    apply List.perm_singleton.mp
    rw [List.perm_ext_iff_of_nodup distinct (List.nodup_singleton _)]
    intro connector
    rw [List.mem_filter, decide_eq_true_eq, iff, List.mem_singleton]

theorem Grown.undeleted (grown : cfg.Grown digest nodes before after) : Undeleted before after where
  connectors := by
    intro connector mem
    have named : connector ∈ before.connectors.filter fun other => other.name = connector.name :=
      List.mem_filter.mpr ⟨mem, by simp⟩
    rw [← grown.connectors connector.name (List.ne_nil_of_mem named)] at named
    exact (List.mem_filter.mp named).1
  routes := by
    intro route mem
    obtain ⟨kept, memKept, id, _⟩ := grown.routes route mem
    exact ⟨kept, memKept, id⟩
  registrations := grown.registrations ▸ fun _ mem => mem

theorem Grown.spared (grown : cfg.Grown digest nodes before after) :
    cfg.Spared nodes now before after where
  connectors := fun connector mem _ => grown.undeleted.connectors mem
  routes := by
    intro route mem _
    obtain ⟨kept, memKept, id, tunnelID, network, _⟩ := grown.routes route mem
    exact ⟨kept, memKept, id, tunnelID, network⟩
  registrations := fun registration mem gone => absurd (grown.undeleted.registrations mem) gone

section Surveyed

variable {middle : Account} {connectorID network : String}

theorem Surveyed.connector_mem (surveyed : cfg.Surveyed digest nodes founds before middle)
    (listed : node ∈ nodes) (owns : cfg.Owns digest middle node connectorID) :
    connectorID ∈ founds.filterMap Found.connector := by
  obtain ⟨found, mem, describes⟩ := surveyed.all node listed
  obtain ⟨id, isFound⟩ := describes.hasConnector (surveyed.clean found mem)
  obtain rfl := owns.unique (describes.connector id isFound)
  exact List.mem_filterMap.mpr ⟨found, mem, isFound⟩

theorem Surveyed.route_mem (surveyed : cfg.Surveyed digest nodes founds before middle)
    (listed : node ∈ nodes) (routes : cfg.Routes digest middle node connectorID network) :
    routeKey connectorID network ∈ founds.filterMap Found.route ∧
      ∃ route ∈ middle.routes, route.tunnelID = connectorID ∧ route.network = network := by
  obtain ⟨found, mem, describes⟩ := surveyed.all node listed
  obtain ⟨key, isFound⟩ := describes.hasRoute (surveyed.clean found mem) routes.advertises
  obtain ⟨id, network', routes', rfl, there⟩ := describes.route key isFound
  obtain rfl := routes.owns.unique routes'.owns
  obtain rfl := Except.ok.inj (routes.podCIDR.symm.trans routes'.podCIDR)
  exact ⟨List.mem_filterMap.mpr ⟨found, mem, isFound⟩, there⟩

theorem Surveyed.meshIP_mem (surveyed : cfg.Surveyed digest nodes founds before middle)
    (listed : node ∈ nodes) {bits : BitVec 32} (advertises : cfg.Advertises node bits) :
    (IP.v4 bits).string ∈ founds.filterMap Found.meshIP := by
  obtain ⟨found, mem, describes⟩ := surveyed.all node listed
  have isFound := describes.hasMeshIP (surveyed.clean found mem) bits advertises
  exact List.mem_filterMap.mpr ⟨found, mem, isFound⟩

theorem keepsRoute_iff {desired : List String} {route : Route} :
    cfg.keepsRoute desired route ↔
      (hasStart route.comment (routeCommentPrefix cfg.clusterName) →
        routeKey route.tunnelID route.network ∈ desired) := by
  cases starts : hasStart route.comment (routeCommentPrefix cfg.clusterName) <;>
    simp [keepsRoute, starts]

theorem keepsConnector_iff {desired : List String} {connector : ConnectorCredentials} :
    cfg.keepsConnector desired connector ↔
      (hasStart connector.name (connectorNamePrefix cfg.connectorPrefix cfg.clusterName) →
        connector.id ∈ desired) := by
  cases starts : hasStart connector.name (connectorNamePrefix cfg.connectorPrefix cfg.clusterName) <;>
    simp [keepsConnector, starts]

theorem mem_credentials {connector : Connector} :
    (⟨connector.id, connector.name, ""⟩ : ConnectorCredentials) ∈ account.credentials ↔
      connector ∈ account.connectors := by
  rw [Account.credentials, List.mem_map]
  constructor
  · rintro ⟨other, mem, same⟩
    obtain ⟨sameID, sameName, _⟩ := ConnectorCredentials.mk.injEq .. ▸ same
    have isSame : other = connector := by
      cases other
      cases connector
      exact congrArg₂ Connector.mk sameID sameName
    exact isSame ▸ mem
  · exact fun mem => ⟨connector, mem, rfl⟩

theorem Surveyed.spared (surveyed : cfg.Surveyed digest nodes founds before middle)
    (collected : cfg.Collected founds now middle after) : cfg.Spared nodes now before after where
  connectors := by
    intro connector mem other
    have listed := mem_credentials.mpr (surveyed.grown.undeleted.connectors mem)
    refine mem_credentials.mp (collected.connectors.kept _ listed (keepsConnector_iff.mpr ?_))
    simp [other]
  routes := by
    intro route mem other
    obtain ⟨kept, memKept, id, tunnelID, network, comment⟩ := surveyed.grown.routes route mem
    refine ⟨kept, collected.routes.kept kept memKept (keepsRoute_iff.mpr fun starts => ?_), id, tunnelID,
      network⟩
    rcases comment with same | ⟨node, listed, routes⟩
    · rw [same, other] at starts
      exact absurd starts (by simp)
    · rw [tunnelID, network]
      exact (surveyed.route_mem listed routes).1
  registrations := by
    intro registration mem gone
    have mem' : registration ∈ middle.registrations := surveyed.grown.registrations ▸ mem
    have spare : cfg.sparesRegistration (founds.filterMap Found.meshIP) now registration = false := by
      by_contra isKept
      exact gone (collected.registrations.kept _ mem' (by simpa using isKept))
    simp only [sparesRegistration, keepsRegistration, Bool.or_eq_false_iff, Bool.not_eq_false',
      decide_eq_false_iff_not, List.contains_eq_mem, not_lt] at spare
    obtain ⟨⟨⟨⟨starts, notDesired⟩, old⟩, notDryRun⟩, notOff⟩ := spare
    refine ⟨?_, starts, ?_, by omega⟩
    · cases mode : cfg.registrationGC with
      | on => rfl
      | dryRun => exact absurd mode notDryRun
      | off => exact absurd mode notOff
    · intro node listed bits advertises reads
      rw [before.printed registration mem bits reads] at notDesired
      exact notDesired (surveyed.meshIP_mem listed advertises)

theorem Surveyed.owns (surveyed : cfg.Surveyed digest nodes founds before middle)
    (collected : cfg.Collected founds now middle after) (listed : node ∈ nodes)
    (owns : cfg.Owns digest middle node connectorID) : cfg.Owns digest after node connectorID := by
  rw [owns_iff] at owns ⊢
  intro connector
  rw [← owns connector]
  refine and_congr_left fun sameName => ⟨fun mem => ?_, fun mem => ?_⟩
  · exact mem_credentials.mp (collected.connectors.only (mem_credentials.mpr mem))
  · have isOwn := (owns connector).mp ⟨mem, sameName⟩
    refine mem_credentials.mp (collected.connectors.kept _ (mem_credentials.mpr mem) ?_)
    refine keepsConnector_iff.mpr fun _ => ?_
    rw [isOwn]
    exact surveyed.connector_mem listed (owns_iff.mpr owns)

theorem eq_of_append_cons {α : Type} {x : α} {xs xs' ys ys' : List α} (absent : x ∉ ys)
    (absent' : x ∉ ys') (same : xs ++ x :: ys = xs' ++ x :: ys') : xs = xs' ∧ ys = ys' := by
  rcases List.append_eq_append_iff.mp same with ⟨zs, rfl, rest⟩ | ⟨zs, rfl, rest⟩
  · cases zs with
    | nil => exact ⟨by simp, (List.cons.inj rest).2⟩
    | cons z zs => exact absurd ((List.cons.inj rest).2 ▸ List.mem_append_right zs (.head _)) absent
  · cases zs with
    | nil => exact ⟨by simp, (List.cons.inj rest).2.symm⟩
    | cons z zs => exact absurd ((List.cons.inj rest).2 ▸ List.mem_append_right zs (.head _)) absent'

theorem routeKey_inj {connectorID connectorID' network network' : String}
    (plain : '\x00' ∉ network.toList) (plain' : '\x00' ∉ network'.toList)
    (same : routeKey connectorID network = routeKey connectorID' network') :
    connectorID = connectorID' ∧ network = network' := by
  have lists : connectorID.toList ++ '\x00' :: network.toList =
      connectorID'.toList ++ '\x00' :: network'.toList := by
    simpa [routeKey] using congrArg String.toList same
  obtain ⟨sameID, sameNetwork⟩ := eq_of_append_cons plain plain' lists
  exact ⟨String.toList_inj.mp sameID, String.toList_inj.mp sameNetwork⟩

theorem Surveyed.converged (surveyed : cfg.Surveyed digest nodes founds before middle)
    (collected : cfg.Collected founds now middle after)
    (routesKept : ∀ route ∈ after.routes, cfg.keepsRoute (founds.filterMap Found.route) route)
    (connectorsKept : ∀ connector ∈ after.credentials,
      cfg.keepsConnector (founds.filterMap Found.connector) connector) :
    cfg.Converged digest nodes after where
  connectors := by
    intro node listed
    obtain ⟨found, mem, describes⟩ := surveyed.all node listed
    obtain ⟨id, isFound⟩ := describes.hasConnector (surveyed.clean found mem)
    exact ⟨id, surveyed.owns collected listed (describes.connector id isFound)⟩
  routes := by
    intro node listed advertises
    obtain ⟨found, mem, describes⟩ := surveyed.all node listed
    obtain ⟨key, isFound⟩ := describes.hasRoute (surveyed.clean found mem) advertises
    obtain ⟨id, network, routes, rfl, route, memRoute, sameTunnel, sameNetwork⟩ :=
      describes.route key isFound
    have owns := surveyed.owns collected listed routes.owns
    refine ⟨id, network, ⟨advertises, owns, routes.podCIDR⟩, route, ?_, sameTunnel, sameNetwork⟩
    refine collected.routes.kept route memRoute (keepsRoute_iff.mpr fun _ => ?_)
    rw [sameTunnel, sameNetwork]
    exact (surveyed.route_mem listed routes).1
  onlyRoutes := by
    intro route mem starts
    have desired := keepsRoute_iff.mp (routesKept route mem) starts
    obtain ⟨found, memFound, isFound⟩ := List.mem_filterMap.mp desired
    obtain ⟨node, listed, describes⟩ := surveyed.only found memFound
    obtain ⟨id, network, routes, sameKey, there, memThere, _, sameNetwork⟩ :=
      describes.route _ isFound
    have plain : '\x00' ∉ network.toList := sameNetwork ▸ middle.plain there memThere
    obtain ⟨rfl, rfl⟩ := routeKey_inj (after.plain route mem) plain sameKey
    exact ⟨node, listed, routes.advertises, surveyed.owns collected listed routes.owns, routes.podCIDR⟩
  onlyConnectors := by
    intro connector mem starts
    have desired := keepsConnector_iff.mp (connectorsKept _ (mem_credentials.mpr mem)) starts
    obtain ⟨found, memFound, isFound⟩ := List.mem_filterMap.mp desired
    obtain ⟨node, listed, describes⟩ := surveyed.only found memFound
    exact ⟨node, listed, surveyed.owns collected listed (describes.connector _ isFound)⟩

end Surveyed

/-! ## Runs -/

theorem endures_reconcile :
    Endures (answer cloud) failure (cfg.Spared cloud.nodes now account)
      (fun result s => cfg.Spared cloud.nodes now account s ∧
        (result.1 = [] → cfg.Converged digest cloud.nodes s))
      (cfg.reconcile digest now next) account := by
  have initial : cfg.Spared cloud.nodes now account account :=
    (Grown.refl account : cfg.Grown digest cloud.nodes account account).spared
  refine endures_request initial ?_ fun err => ⟨.ret ⟨initial, by simp⟩, .ret ⟨initial, by simp⟩⟩
  apply endures_bind
  refine (endures_reconcileNodes.weaken fun _ => Grown.spared).imp ?_
  rintro founds s ⟨grown, all, only⟩
  change Endures _ _ _ _ (if _ then _ else _) s
  split
  next someErrs => exact .ret ⟨grown.spared, fun none => absurd none someErrs⟩
  next noErrs =>
    have clean : ∀ found ∈ founds, found.err = none :=
      List.filterMap_eq_nil_iff.mp (not_not.mp noErrs)
    have surveyed : cfg.Surveyed digest cloud.nodes founds account s := ⟨grown, clean, all, only⟩
    refine (endures_collectGarbage.weaken fun _ => surveyed.spared).imp ?_
    rintro result later ⟨collected, swept⟩
    refine ⟨surveyed.spared collected, fun none => ?_⟩
    exact surveyed.converged collected (swept none).1 (swept none).2

variable (digest cfg) in
def run (cloud : Cloud) (now next : Int) (account : Account) (script : List (Outcome Text)) :
    Option (List Text × Int) × Account :=
  play (answer cloud) failure script account (cfg.reconcile digest now next)

variable (digest cfg) in
/-- A step for a node fails: a call of the loop over the nodes, or what the loop does with the
answers. -/
def StepFails (cloud : Cloud) (account : Account) (script : List (Outcome Text)) : Prop :=
  (∃ answered ∈ heard (answer cloud) failure script account (cfg.reconcileNodes digest cloud.nodes),
    Failed answered.1 answered.2) ∨
  ∃ founds, (play (answer cloud) failure script account
      (cfg.reconcileNodes digest cloud.nodes)).1 = some founds ∧
    ∃ found ∈ founds, found.err ≠ none

theorem StepFails.undeleted {script : List (Outcome Text)}
    (fails : cfg.StepFails digest cloud account script) :
    Undeleted account (cfg.run digest cloud now next account (.performed :: script)).2 := by
  have endures : Endures (answer cloud) failure (cfg.Grown digest cloud.nodes account)
      (fun founds s => cfg.Grown digest cloud.nodes account s ∧ _)
      (cfg.reconcileNodes digest cloud.nodes) account := endures_reconcileNodes
  have sound := endures.sound script
  -- the run ends with the loop, which returns an error or is cut short
  have told : ∀ founds, (play (answer cloud) failure script account
      (cfg.reconcileNodes digest cloud.nodes)).1 = some founds →
      founds.filterMap Found.err ≠ [] := by
    intro founds returned none
    have clean := List.filterMap_eq_nil_iff.mp none
    have told : ∃ found ∈ founds, found.err ≠ Option.none := by
      rcases fails with failed | ⟨other, returned', told⟩
      · exact (tells_reconcileNodes cloud.nodes).sound returned failed
      · obtain rfl := Option.some.inj (returned.symm.trans returned')
        exact told
    obtain ⟨found, mem, isErr⟩ := told
    exact isErr (clean found mem)
  have ends : cfg.run digest cloud now next account (.performed :: script) =
      ((play (answer cloud) failure script account (cfg.reconcileNodes digest cloud.nodes)).1.map
          fun founds => (founds.filterMap Found.err, next),
        (play (answer cloud) failure script account (cfg.reconcileNodes digest cloud.nodes)).2) := by
    change play (answer cloud) failure script account (cfg.reconcileNodes digest cloud.nodes >>= _) = _
    exact play_bind fun founds returned => if_pos (told founds returned)
  rw [ends]
  cases returned : (play (answer cloud) failure script account
      (cfg.reconcileNodes digest cloud.nodes)).1 with
  | none => exact (sound.1 returned).undeleted
  | some founds => exact (sound.2 founds returned).1.undeleted

/-- In every run of `Reconcile`: if a step for a node fails, nothing is deleted; if the run
ends without an error, the nodes have their connectors and routes and nothing else carries
the beginnings of the cluster; and what does not carry them is not deleted, nor is a
registration without good reasons. -/
theorem account_exact (digest : Text → Text) (cfg : Config) (cloud : Cloud) (now next : Int)
    (account : Account) (script : List (Outcome Text)) :
    (cfg.StepFails digest cloud account script →
      Undeleted account (cfg.run digest cloud now next account (.performed :: script)).2) ∧
    (∀ later, (cfg.run digest cloud now next account script).1 = some ([], later) →
      cfg.Converged digest cloud.nodes (cfg.run digest cloud now next account script).2) ∧
    cfg.Spared cloud.nodes now account (cfg.run digest cloud now next account script).2 := by
  have endures : Endures (answer cloud) failure (cfg.Spared cloud.nodes now account)
      (fun result s => cfg.Spared cloud.nodes now account s ∧
        (result.1 = [] → cfg.Converged digest cloud.nodes s))
      (cfg.reconcile digest now next) account := endures_reconcile
  have sound := endures.sound script
  refine ⟨StepFails.undeleted, fun later returned => (sound.2 _ returned).2 rfl, ?_⟩
  cases returned : (cfg.run digest cloud now next account script).1 with
  | none => exact sound.1 returned
  | some result => exact (sound.2 result returned).1

end Config

/-! ## A run -/

def longer (ids : List String) : String :=
  String.ofList (List.replicate (1 + (ids.map String.length).sum) 'x')

theorem longer_notMem (ids : List String) : longer ids ∉ ids := by
  intro mem
  have le := List.le_sum_of_mem (List.mem_map_of_mem (f := String.length) mem)
  rw [longer, String.length_ofList, List.length_replicate] at le
  omega

theorem longer_ne_empty (ids : List String) : longer ids ≠ "" := by
  intro empty
  have length := congrArg String.length empty
  rw [longer, String.length_ofList, List.length_replicate, String.length_empty] at length
  omega

def sampleCloud : Cloud where
  nodes := [⟨"n", [("f/backend-type", "cloudflare-mesh"),
    ("f/backend-data", "\x7b\"connectorID\":\"c1\",\"meshIP\":\"100.96.0.2\"\x7d")], "10.0.1.0/24", []⟩]
  token := fun _ => "token"
  tokenOnCreation := true
  newID := longer
  fresh := longer_notMem
  nonempty := longer_ne_empty

def sampleConfig : Config where
  clusterName := bytes "a"
  connectorPrefix := bytes "flannel-"
  annotationPrefix := "f"
  connectorHA := false
  registrationGC := .on
  registrationGCPeriod := 0

def sampleAccount : Account where
  connectors := [⟨"c1", bytes "flannel-a-n"⟩, ⟨"c2", bytes "flannel-a-old"⟩]
  routes := [⟨"r1", "10.0.2.0/24", "c2", bytes "flannel:a:old:10.0.2.0/24"⟩]
  registrations := [⟨"d1", bytes "flannel-a-n", "100.96.0.1", 0⟩]
  distinctConnectors := by decide
  distinctRoutes := by decide
  distinctRegistrations := by decide
  plain := by decide
  printed := by
    intro registration mem bits reads
    rw [List.mem_singleton.mp mem] at reads ⊢
    have isBits : (parseIP "100.96.0.1").bind IP.to4 = some 0x64600001#32 := by decide +kernel
    obtain rfl := Option.some.inj (reads.symm.trans isBits)
    decide +kernel

def sampleRun : Option (List Text × Int) × Account :=
  sampleConfig.run (fun _ => []) sampleCloud registrationGCGrace 0 sampleAccount
    (List.replicate 12 .performed)

theorem sampleRun_converged :
    sampleRun.1 = some ([], registrationGCGrace) ∧
      sampleConfig.Converged (fun _ => []) sampleCloud.nodes sampleRun.2 := by
  have returned : sampleRun.1 = some ([], registrationGCGrace) := by decide +kernel
  exact ⟨returned, (Config.account_exact (fun _ => []) sampleConfig sampleCloud registrationGCGrace 0
    sampleAccount (List.replicate 12 .performed)).2.1 _ returned⟩

/-- A registration is deleted when it is as old as the grace period, and not older. -/
theorem sampleRun_deletes_at_grace :
    ∃ registration ∈ sampleAccount.registrations, registration ∉ sampleRun.2.registrations ∧
      ¬ registrationGCGrace < registrationGCGrace - registration.createdAt := by
  refine ⟨⟨"d1", bytes "flannel-a-n", "100.96.0.1", 0⟩, List.mem_singleton_self _, ?_, by simp⟩
  have swept : sampleRun.2.registrations = [] := by decide +kernel
  rw [swept]
  exact List.not_mem_nil

end Flannel.Operator
