import Flannel.Backend.Follower
import Flannel.Backend.RouteNetwork
import Flannel.Leases.Families

/-!
# The cached routes and the leases

The kernel refuses a second IPv4 route to a destination, and routes may be deleted from outside.
When a lease comes back with another route, `routeAdd` removes the old route from its list only as
the route it finds in the kernel. So the list holds the routes of the leases exactly as long as
the kernel still lists the old route first.
-/

namespace Flannel.Backend.RouteNetwork

open Leases Net Program Table Transition

structure Node where
  routes : Family → List Route
  kernel : Family → List Route

/-- The answers: `RouteAdd` fails where the destination has a route, `RouteDel` where
the route is absent. -/
def world (node : Node) : (op : Op) → Res op × Node
  | .addToRouteList f route =>
    ((), { node with
      routes := Function.update node.routes f (Backend.addToRouteList route (node.routes f)) })
  | .removeFromRouteList f route =>
    ((), { node with
      routes := Function.update node.routes f (Backend.removeFromRouteList route (node.routes f)) })
  | .routeListFiltered f target => ((node.kernel f).filter fun r => r.target == target, node)
  | .routeList f => (some (node.kernel f), node)
  | .routeDel f route =>
    if (node.kernel f).any fun r => routeEqual r route then
      (true, { node with
        kernel := Function.update node.kernel f
          ((node.kernel f).eraseP fun r => routeEqual r route) })
    else (false, node)
  | .routeAdd f route =>
    if (node.kernel f).any fun r => r.target == route.target then (false, node)
    else
      (true, { node with
        kernel := Function.update node.kernel f (node.kernel f ++ [route]) })

def Node.first (node : Node) (f : Family) (target : Option (BitVec 128 × Nat)) : Option Route :=
  (node.kernel f).find? fun r => r.target == target

def afterAdd (route : Route) : Option Route → List Route → List Route
  | none, routes => addToRouteList route routes
  | some first, routes =>
    if routeEqual first route then addToRouteList route routes
    else removeFromRouteList first (addToRouteList route routes)

/-! ## The requests -/

theorem exec_routeAddMissing (node : Node) (f : Family) (route : Route) :
    ∃ kernel, exec world node (routeAddMissing f route) = some ((), ⟨node.routes, kernel⟩) := by
  simp only [routeAddMissing, routeListFiltered, exec_bind, exec_ask, world, Option.bind_some]
  split
  · exact ⟨node.kernel, rfl⟩
  · simp only [exec_bind, exec_ask, world]
    split <;> exact ⟨_, rfl⟩

theorem exec_routeAdd (node : Node) (f : Family) (route : Route) :
    ∃ kernel, exec world node (routeAdd f route) =
      some ((), ⟨Function.update node.routes f
        (afterAdd route (node.first f route.target) (node.routes f)), kernel⟩) := by
  have listed : ((node.kernel f).filter fun r => r.target == route.target).head? =
      node.first f route.target := List.head?_filter
  simp only [routeAdd, routeListFiltered, exec_bind, exec_ask, world, Option.bind_some, listed]
  cases isFirst : node.first f route.target with
  | none => exact exec_routeAddMissing _ _ _
  | some first =>
    by_cases same : routeEqual first route
    · simp only [same, if_true, afterAdd]
      exact exec_routeAddMissing _ _ _
    · have present : ((node.kernel f).any fun r => routeEqual r first) :=
        List.any_eq_true.mpr ⟨first, List.mem_of_find?_eq_some isFirst,
          (routeEqual_iff first first).mpr rfl⟩
      simp only [same, Bool.false_eq_true, if_false, exec_bind, exec_ask, world, present, if_true,
        Option.bind_some, afterAdd]
      obtain ⟨kernel, after⟩ := exec_routeAddMissing
        ⟨_, Function.update node.kernel f ((node.kernel f).eraseP fun r => routeEqual r first)⟩
        f route
      refine ⟨kernel, after.trans ?_⟩
      simp

theorem world_remove (node : Node) (f : Family) (route : Route) :
    world node (.removeFromRouteList f route) =
      ((), ⟨Function.update node.routes f (removeFromRouteList route (node.routes f)),
        node.kernel⟩) :=
  rfl

theorem world_routeDel (node : Node) (f : Family) (route : Route) :
    ∃ ok kernel, world node (.routeDel f route) = (ok, ⟨node.routes, kernel⟩) := by
  simp only [world]
  split
  · exact ⟨true, _, rfl⟩
  · exact ⟨false, node.kernel, rfl⟩

theorem exec_check (node : Node) (f : Family) (routes : List Route) :
    ∃ kernel, exec world node (checkSubnetExistInRoutes routes f) =
      some ((), ⟨node.routes, kernel⟩) := by
  simp only [checkSubnetExistInRoutes, exec_bind, exec_ask, world, Option.bind_some]
  generalize node.kernel f = listed
  induction routes generalizing node with
  | nil => exact ⟨node.kernel, rfl⟩
  | cons route routes ih =>
    simp only [each, exec_bind]
    split
    · exact ih node
    · simp only [exec_bind, exec_ask, world]
      split
      · exact ih node
      · exact ih _

/-! ## Batches -/

variable (n : Network)

def handle : Handler Node := fun node batch =>
  (exec world node (handleSubnetEvents n batch)).map Prod.snd

theorem sequential_handle : (handle n).Sequential :=
  sequential_executed world (handleSubnetEvent n)

theorem handle_singleton (node : Node) (evt : Event) :
    handle n node [evt] = (exec world node (handleSubnetEvent n evt)).map Prod.snd :=
  executed_singleton world (handleSubnetEvent n) node evt

variable {n} {route : Lease → Route} (hasRoute : n.getRoute .ipv4 = some fun lease => some (route lease))
  {lease : Lease} (families : OfFamilies true false lease)

include hasRoute families

theorem handle_added (type : lease.attrs.backendType = n.backendType) (node : Node) :
    ∃ kernel, handle n node [⟨.added, lease⟩] =
      some ⟨Function.update node.routes .ipv4 (afterAdd (route lease)
        (node.first .ipv4 (route lease).target) (node.routes .ipv4)), kernel⟩ := by
  obtain ⟨kernel, adds⟩ := exec_routeAdd node .ipv4 (route lease)
  refine ⟨kernel, ?_⟩
  simp [handle_singleton, handleSubnetEvent, type, addSubnet, Family.enabled, families.enableIPv4,
    families.enableIPv6, routeOf, hasRoute, adds]

theorem handle_removed (type : lease.attrs.backendType = n.backendType) (node : Node) :
    ∃ kernel, handle n node [⟨.removed, lease⟩] =
      some ⟨Function.update node.routes .ipv4
        (removeFromRouteList (route lease) (node.routes .ipv4)), kernel⟩ := by
  obtain ⟨ok, kernel, deletes⟩ := world_routeDel ⟨Function.update node.routes .ipv4
    (removeFromRouteList (route lease) (node.routes .ipv4)), node.kernel⟩ .ipv4 (route lease)
  refine ⟨kernel, ?_⟩
  simp [handle_singleton, handleSubnetEvent, type, removeSubnet, Family.enabled, families.enableIPv4,
    families.enableIPv6, routeOf, hasRoute, world_remove, deletes]

omit hasRoute families in
theorem handle_ignored (type : lease.attrs.backendType ≠ n.backendType) (eventType : EventType)
    (node : Node) : handle n node [⟨eventType, lease⟩] = some node := by
  simp [handle_singleton, handleSubnetEvent, type]

/-! ## One route for each subnet -/

omit hasRoute families

/-- For every destination, the cached routes are the route of the lease with that
subnet if there is one, and none otherwise. -/
def Exact (route : Lease → Route) (leases : List Lease) (routes : List Route) : Prop :=
  ∀ target, (routes.filter fun r => r.target == target).map Route.key =
    ((lookup (fun l => (route l).target) leases target).map fun l => (route l).key).toList

theorem target_of_routeEqual {x y : Route} (same : routeEqual x y) : x.target = y.target :=
  congrArg Prod.fst ((routeEqual_iff x y).mp same)

theorem filter_addToRouteList (added : Route) (routes : List Route)
    (target : Option (BitVec 128 × Nat)) :
    (addToRouteList added routes).filter (fun r => r.target == target) =
      if added.target = target then addToRouteList added (routes.filter fun r => r.target == target)
      else routes.filter fun r => r.target == target := by
  by_cases here : added.target = target
  · have same : ((routes.filter fun r => r.target == target).any fun r => routeEqual r added) =
        routes.any fun r => routeEqual r added := by
      rw [List.any_filter]
      congr 1
      funext r
      cases equal : routeEqual r added with
      | false => simp
      | true => simp [target_of_routeEqual equal, here]
    rw [if_pos here, addToRouteList, addToRouteList, same]
    split
    · rfl
    · simp [here]
  · rw [if_neg here, addToRouteList]
    split
    · rfl
    · simp [here]

theorem filter_removeFromRouteList (removed : Route) (routes : List Route)
    (target : Option (BitVec 128 × Nat)) :
    (removeFromRouteList removed routes).filter (fun r => r.target == target) =
      if removed.target = target then
        removeFromRouteList removed (routes.filter fun r => r.target == target)
      else routes.filter fun r => r.target == target := by
  induction routes with
  | nil => simp [removeFromRouteList]
  | cons r routes ih =>
    simp only [removeFromRouteList] at ih ⊢
    by_cases equal : routeEqual r removed
    · have sameTarget := target_of_routeEqual equal
      by_cases here : removed.target = target
      · simp [equal, sameTarget, here]
      · simp [equal, sameTarget, here]
    · by_cases here : removed.target = target
      · simp only [here, if_true] at ih ⊢
        by_cases kept : r.target = target <;> simp [equal, kept, ih]
      · simp only [here, if_false] at ih ⊢
        by_cases kept : r.target = target <;> simp [equal, kept, ih]

theorem filter_afterAdd (added : Route) {first : Option Route}
    (isFirst : ∀ r ∈ first, r.target = added.target) (routes : List Route)
    (target : Option (BitVec 128 × Nat)) :
    (afterAdd added first routes).filter (fun r => r.target == target) =
      if added.target = target then afterAdd added first (routes.filter fun r => r.target == target)
      else routes.filter fun r => r.target == target := by
  cases first with
  | none => exact filter_addToRouteList added routes target
  | some first =>
    have sameTarget := isFirst first rfl
    by_cases same : routeEqual first added
    · simp only [afterAdd, same, if_true]
      exact filter_addToRouteList added routes target
    · simp only [afterAdd, same, Bool.false_eq_true, if_false]
      rw [filter_removeFromRouteList, filter_addToRouteList, sameTarget]
      split <;> rfl

theorem afterAdd_nil (added : Route) (first : Option Route) : afterAdd added first [] = [added] := by
  cases first with
  | none => rfl
  | some first =>
    by_cases same : first.key = added.key
    · simp [afterAdd, routeEqual_eq_decide, same, addToRouteList]
    · simp [afterAdd, routeEqual_eq_decide, same, Ne.symm same, addToRouteList, removeFromRouteList]

/-- The routes of one destination after `routeAdd`, where there was one: only the
added route is left exactly if it is the same, or the old one is listed first. -/
theorem afterAdd_singleton_iff (added old : Route) (first : Option Route) :
    (afterAdd added first [old]).map Route.key = [added.key] ↔
      old.key = added.key ∨ first.map Route.key = some old.key := by
  by_cases same : old.key = added.key
  · -- the route stays, and what is taken from the kernel is another one
    cases first with
    | none => simp [afterAdd, addToRouteList, routeEqual_eq_decide, same]
    | some first =>
      by_cases listed : first.key = added.key
      · simp [afterAdd, addToRouteList, routeEqual_eq_decide, same, listed]
      · simp [afterAdd, addToRouteList, removeFromRouteList, routeEqual_eq_decide, same, listed,
          Ne.symm listed]
  · cases first with
    | none => simp [afterAdd, addToRouteList, routeEqual_eq_decide, same]
    | some first =>
      by_cases listed : first.key = added.key
      · simp [afterAdd, addToRouteList, routeEqual_eq_decide, same, listed, Ne.symm same]
      · by_cases stale : first.key = old.key
        · simp [afterAdd, addToRouteList, removeFromRouteList, routeEqual_eq_decide, same, stale]
        · simp [afterAdd, addToRouteList, removeFromRouteList, routeEqual_eq_decide, same, listed,
            stale, Ne.symm stale, Ne.symm listed]

section Exact

variable {leases : List Lease} {routes : List Route}

theorem exact_added_iff (exact_ : Exact route leases routes) {first : Option Route}
    (isFirst : ∀ r ∈ first, r.target = (route lease).target) :
    Exact route (upsert (fun l => (route l).target) lease leases)
        (afterAdd (route lease) first routes) ↔
      ∀ old, lookup (fun l => (route l).target) leases (route lease).target = some old →
        (route old).key = (route lease).key ∨ first.map Route.key = some (route old).key := by
  have elsewhere : ∀ target, (route lease).target ≠ target →
      ((afterAdd (route lease) first routes).filter fun r => r.target == target).map Route.key =
        ((lookup (fun l => (route l).target) (upsert (fun l => (route l).target) lease leases)
          target).map fun l => (route l).key).toList := by
    intro target other
    rw [filter_afterAdd _ isFirst, if_neg other, lookup_upsert, if_neg (Ne.symm other)]
    exact exact_ target
  have here := exact_ (route lease).target
  have agree : Exact route (upsert (fun l => (route l).target) lease leases)
        (afterAdd (route lease) first routes) ↔
      (afterAdd (route lease) first (routes.filter fun r =>
        r.target == (route lease).target)).map Route.key = [(route lease).key] := by
    constructor
    · intro after
      have afterHere := after (route lease).target
      rw [filter_afterAdd _ isFirst, if_pos rfl, lookup_upsert, if_pos rfl] at afterHere
      exact afterHere
    · intro afterHere target
      by_cases other : (route lease).target = target
      · subst other
        rw [filter_afterAdd _ isFirst, if_pos rfl, lookup_upsert, if_pos rfl]
        exact afterHere
      · exact elsewhere target other
  rw [agree]
  cases found : lookup (fun l => (route l).target) leases (route lease).target with
  | none =>
    rw [found, Option.map_none, Option.toList_none, List.map_eq_nil_iff] at here
    simp [here, afterAdd_nil]
  | some old =>
    rw [found, Option.map_some, Option.toList_some, List.map_eq_singleton_iff] at here
    obtain ⟨cached, isCached, sameKey⟩ := here
    rw [isCached, afterAdd_singleton_iff, sameKey]
    simp

theorem exact_removed (exact_ : Exact route leases routes)
    (distinct : (leases.map fun l => (route l).target).Nodup)
    (stored : ∀ old, lookup (fun l => (route l).target) leases (route lease).target = some old →
      (route old).key = (route lease).key) :
    Exact route (erase (fun l => (route l).target) (route lease).target leases)
      (removeFromRouteList (route lease) routes) := by
  intro target
  rw [filter_removeFromRouteList, lookup_erase distinct]
  by_cases here : (route lease).target = target
  · subst here
    rw [if_pos rfl, if_pos rfl]
    have before := exact_ (route lease).target
    cases found : lookup (fun l => (route l).target) leases (route lease).target with
    | none =>
      rw [found, Option.map_none, Option.toList_none, List.map_eq_nil_iff] at before
      simp [before, removeFromRouteList]
    | some old =>
      rw [found, Option.map_some, Option.toList_some, List.map_eq_singleton_iff] at before
      obtain ⟨cached, isCached, sameKey⟩ := before
      simp [isCached, removeFromRouteList, routeEqual_eq_decide, sameKey, stored old found]
  · rw [if_neg here, if_neg (Ne.symm here)]
    exact exact_ target

end Exact

/-! ## Runs -/

/-- What can happen next: an event, a route deleted from outside, a pass of
`checkSubnetExistInRoutes`. -/
inductive Label
  | event (e : Event)
  | deleted (route : Route)
  | checked

def step (n : Network) : Step (Follower Node) Label
  | follower, .event e => Follower.step (handle n) follower [e]
  | ⟨watcher, node⟩, .deleted route =>
    if route ∈ node.kernel .ipv4 then
      some ⟨watcher, { node with
        kernel := Function.update node.kernel .ipv4 ((node.kernel .ipv4).erase route) }⟩
    else none
  | ⟨watcher, node⟩, .checked =>
    (exec world node (checkSubnetExistInRoutes (node.routes .ipv4) .ipv4)).map fun result =>
      ⟨watcher, result.2⟩

/-- When the route of a subnet changes, the kernel lists the old one first. -/
def Reported (route : Lease → Route) (follower : Follower Node) : Label → Prop
  | .event ⟨.added, lease⟩ =>
    follower.watcher.ownLease.subnet ≠ lease.subnet →
      ∀ old ∈ follower.watcher.leases, old.subnet = lease.subnet →
        routeEqual (route old) (route lease) = true ∨
          (follower.state.first .ipv4 (route lease).target).any
            (fun r => routeEqual r (route old)) = true
  | _ => True

instance (route : Lease → Route) (follower : Follower Node) :
    ∀ label, Decidable (Reported route follower label)
  | .event ⟨.added, _⟩ => inferInstanceAs (Decidable (_ → _))
  | .event ⟨.removed, _⟩ => .isTrue trivial
  | .deleted _ => .isTrue trivial
  | .checked => .isTrue trivial

def OfBackend (n : Network) : Label → Prop
  | .event e => OfFamilies true false e.lease ∧
      (e.type = .added → e.lease.attrs.backendType = n.backendType)
  | _ => True

structure Watched (n : Network) (route : Lease → Route) (ownLease : Lease)
    (follower : Follower Node) : Prop where
  own : follower.watcher.ownLease = ownLease
  kept : Kept (OfFamilies true false) (fun l => (route l).target) ownLease follower.watcher.leases
  types : ∀ l ∈ follower.watcher.leases, l.attrs.backendType = n.backendType

section Runs

variable (hasRoute : n.getRoute .ipv4 = some fun lease => some (route lease))
  (isDst : ∀ lease, (route lease).dst = some lease.subnet.toIPNet)

include isDst

theorem target_eq_iff (first second : Lease) :
    (route first).target = (route second).target ↔ first.subnet = second.subnet := by
  simp only [Route.target, isDst, Option.map_some, Option.some.injEq, Prod.mk.injEq,
    Ip.IP4Net.toIPNet, Ip.IP4.toIP, IP.to16]
  constructor
  · rintro ⟨sameAddress, sameLength⟩
    have same := congrArg (fun bits => (IP.v16 bits).to4) sameAddress
    simp only [Ip.to4_mapped, Option.some.injEq] at same
    exact Ip.IP4Net.ext same sameLength
  · intro same
    rw [same]
    exact ⟨rfl, rfl⟩

theorem keying_target (ownLease : Lease) :
    Keying (OfFamilies true false) (fun l => (route l).target) ownLease := by
  refine (@keying_ofFamilies true false (.inl rfl) ownLease nofun).congr fun first second => ?_
  rw [target_eq_iff isDst]
  simp [Lease.subnets]

theorem reported_iff {ownLease : Lease} {leases : List Lease} {node : Node}
    (distinct : (leases.map fun l => (route l).target).Nodup)
    (differ : ownLease.subnet ≠ lease.subnet) :
    Reported route ⟨⟨ownLease, leases⟩, node⟩ (.event ⟨.added, lease⟩) ↔
      ∀ old, lookup (fun l => (route l).target) leases (route lease).target = some old →
        (route old).key = (route lease).key ∨
          (node.first .ipv4 (route lease).target).map Route.key = some (route old).key := by
  have listed : ∀ old, (node.first .ipv4 (route lease).target).any
      (fun r => routeEqual r (route old)) ↔
      (node.first .ipv4 (route lease).target).map Route.key = some (route old).key := by
    intro old
    cases node.first .ipv4 (route lease).target <;> simp [routeEqual_eq_decide]
  simp only [Reported, listed, routeEqual_iff]
  constructor
  · intro reported old found
    have same := key_of_lookup found
    exact reported differ old (mem_of_lookup found) ((target_eq_iff isDst old lease).mp same)
  · intro reported _ old mem same
    apply reported old
    rw [← (target_eq_iff isDst old lease).mpr same]
    exact lookup_eq_some_of_mem distinct mem

include hasRoute

theorem step_event {ownLease : Lease} {leases : List Lease} {node : Node} {e : Event}
    (kept : Kept (OfFamilies true false) (fun l => (route l).target) ownLease leases)
    (types : ∀ l ∈ leases, l.attrs.backendType = n.backendType)
    (families : OfFamilies true false e.lease)
    (type : e.type = .added → e.lease.attrs.backendType = n.backendType)
    (differ : ownLease.subnet ≠ e.lease.subnet)
    (exact_ : Exact route leases (node.routes .ipv4)) :
    ∃ node', step n ⟨⟨ownLease, leases⟩, node⟩ (.event e) =
        some ⟨⟨ownLease, tracked (fun l => (route l).target) leases e⟩, node'⟩ ∧
      (Exact route (tracked (fun l => (route l).target) leases e) (node'.routes .ipv4) ↔
        Reported route ⟨⟨ownLease, leases⟩, node⟩ (.event e)) := by
  have differ' : (route ownLease).target ≠ (route e.lease).target :=
    fun same => differ ((target_eq_iff isDst _ _).mp same)
  have single := @step_singleton Node _ _ _ _ ownLease (handle n) (keying_target isDst ownLease)
    leases kept e families differ' node
  rcases e with ⟨_ | _, lease⟩
  · obtain ⟨kernel, handled⟩ := handle_added hasRoute families (type rfl) node
    refine ⟨_, single.trans (by simp only [relayed, handled]; rfl), ?_⟩
    rw [reported_iff isDst kept.distinct differ]
    have isFirst : ∀ r ∈ node.first .ipv4 (route lease).target, r.target = (route lease).target := by
      intro r isFirst
      simpa using List.find?_some isFirst
    simpa [tracked] using exact_added_iff exact_ isFirst
  · cases found : lookup (fun l => (route l).target) leases (route lease).target with
    | some stored =>
      have mem := mem_of_lookup found
      have same := key_of_lookup found
      obtain ⟨kernel, handled⟩ := handle_removed hasRoute (kept.kinds stored mem)
        (types stored mem) node
      refine ⟨_, single.trans (by simp only [relayed, found, Option.getD_some, handled]; rfl), ?_⟩
      have removed : Exact route (erase (fun l => (route l).target) (route stored).target leases)
          (removeFromRouteList (route stored) (node.routes .ipv4)) := by
        apply exact_removed exact_ kept.distinct
        intro old isOld
        rw [same, found, Option.some.injEq] at isOld
        rw [isOld]
      rw [same] at removed
      simpa [tracked, Reported] using removed
    | none =>
      have removed : Exact route (erase (fun l => (route l).target) (route lease).target leases)
          (removeFromRouteList (route lease) (node.routes .ipv4)) :=
        exact_removed exact_ kept.distinct (by simp [found])
      by_cases ofBackend : lease.attrs.backendType = n.backendType
      · obtain ⟨kernel, handled⟩ := handle_removed hasRoute families ofBackend node
        refine ⟨_, single.trans (by simp only [relayed, found, Option.getD_none, handled]; rfl), ?_⟩
        simpa [tracked, Reported] using removed
      · have handled := handle_ignored ofBackend .removed node
        refine ⟨_, single.trans (by simp only [relayed, found, Option.getD_none, handled]; rfl), ?_⟩
        simpa [tracked, Reported, erase_of_lookup_eq_none found] using exact_

theorem step_spec {ownLease : Lease} {follower target : Follower Node} {label : Label}
    (watched : Watched n route ownLease follower) (ofBackend : OfBackend n label)
    (exact_ : Exact route follower.watcher.leases (follower.state.routes .ipv4))
    (next : step n follower label = some target) :
    Watched n route ownLease target ∧
      (Exact route target.watcher.leases (target.state.routes .ipv4) ↔
        Reported route follower label) := by
  obtain ⟨⟨own, leases⟩, node⟩ := follower
  obtain ⟨rfl, kept, types⟩ := watched
  cases label with
  | event e =>
    by_cases same : own.subnet = e.lease.subnet
    · have unchanged := step_own (sequential_handle n) (keying_target isDst own) kept ofBackend.1
        ((target_eq_iff isDst own e.lease).mpr same) node
      obtain rfl := Option.some.inj (unchanged.symm.trans next)
      refine ⟨⟨rfl, kept, types⟩, iff_of_true exact_ ?_⟩
      rcases e with ⟨_ | _, lease⟩
      · exact fun differ => absurd same differ
      · trivial
    · obtain ⟨node', isStep, agree⟩ := step_event hasRoute isDst kept types ofBackend.1
        ofBackend.2 same exact_
      obtain rfl := Option.some.inj (isStep.symm.trans next)
      have differ : (route own).target ≠ (route e.lease).target :=
        fun equal => same ((target_eq_iff isDst _ _).mp equal)
      refine ⟨⟨rfl, kept.tracked ofBackend.1 differ, ?_⟩, agree⟩
      intro l mem
      rcases e with ⟨_ | _, lease⟩
      · rcases mem_upsert mem with rfl | old
        · exact ofBackend.2 rfl
        · exact types l old
      · exact types l ((erase_sublist _ _).subset mem)
  | deleted r =>
    obtain ⟨_, isTarget⟩ := Option.ite_none_right_eq_some.mp next
    obtain rfl := Option.some.inj isTarget
    exact ⟨⟨rfl, kept, types⟩, iff_of_true exact_ trivial⟩
  | checked =>
    obtain ⟨kernel, checks⟩ := exec_check node .ipv4 (node.routes .ipv4)
    rw [step, checks] at next
    obtain rfl := Option.some.inj next
    exact ⟨⟨rfl, kept, types⟩, iff_of_true exact_ trivial⟩

/-- In every run, the list holds one route for each subnet with a lease after every
step exactly if, whenever the route of a subnet changes, the kernel lists the old
one first. -/
theorem one_route_per_subnet_iff {ownLease : Lease} {node : Node} (empty : node.routes .ipv4 = [])
    {labels : List Label} (ofBackend : ∀ label ∈ labels, OfBackend n label) :
    Throughout (step n) (fun follower =>
        Exact route follower.watcher.leases (follower.state.routes .ipv4))
      ⟨⟨ownLease, []⟩, node⟩ labels ↔
    Along (step n) (fun follower label => (step n follower label).isSome →
        Reported route follower label)
      ⟨⟨ownLease, []⟩, node⟩ labels := by
  refine @throughout_iff_along _ _ (step n) (fun _ label => OfBackend n label) (Reported route)
    (fun follower => Watched n route ownLease follower ∧
      Exact route follower.watcher.leases (follower.state.routes .ipv4)) _ ?_ ?_ ?_ _ _ ?_ ?_
  · exact fun _ inv => inv.2
  · intro follower label target inv assumed reported next
    obtain ⟨watched, agree⟩ := step_spec hasRoute isDst inv.1 assumed inv.2 next
    exact ⟨watched, agree.mpr reported⟩
  · intro follower label target inv assumed next exact_
    exact (step_spec hasRoute isDst inv.1 assumed inv.2 next).2.mp exact_
  · refine ⟨⟨rfl, kept_nil, by simp⟩, fun target => ?_⟩
    simp [empty]
  · exact along_of_forall_mem ofBackend

end Runs

def routedLease (backendType : String) (subnet publicIP : Ip.IP4) : Lease :=
  { plainLease subnet 0 with attrs := ⟨publicIP, none, backendType, none, none⟩ }

theorem one_route_per_subnet_restored :
    Throughout (step (hostgw (· == .ipv4) 2)) (fun follower =>
        Exact (fun lease => ⟨2, .universe, some lease.subnet.toIPNet, some lease.attrs.publicIP.toIP,
          false⟩) follower.watcher.leases (follower.state.routes .ipv4))
      ⟨⟨plainLease 0x0a010000 0, []⟩, ⟨fun _ => [], fun _ => []⟩⟩
      [.event ⟨.added, routedLease "host-gw" 0x0a010100 0xc0a80001⟩,
        .deleted ⟨2, .universe, some ⟨.v4 0x0a010100, 24⟩, some (.v4 0xc0a80001), false⟩, .checked,
        .event ⟨.added, routedLease "host-gw" 0x0a010100 0xc0a80002⟩,
        .event ⟨.removed, plainLease 0x0a010100 0⟩] :=
  (one_route_per_subnet_iff rfl (fun _ => rfl) rfl (by
    intro label isLabel
    simp only [List.mem_cons, List.not_mem_nil, or_false] at isLabel
    rcases isLabel with rfl | rfl | rfl | rfl | rfl
    · exact ⟨⟨rfl, rfl, nofun⟩, fun _ => rfl⟩
    · trivial
    · trivial
    · exact ⟨⟨rfl, rfl, nofun⟩, fun _ => rfl⟩
    · exact ⟨⟨rfl, rfl, nofun⟩, nofun⟩)).mpr (by decide)

def deletedBeforeMove : List Label :=
  [.event ⟨.added, routedLease "ipip" 0x0a010100 0xc0a80001⟩,
    .deleted (ipipRoute 5 2 (fun _ => false) (routedLease "ipip" 0x0a010100 0xc0a80001)),
    .event ⟨.added, routedLease "ipip" 0x0a010100 0xc0a80002⟩]

theorem two_routes_cached :
    (∀ label ∈ deletedBeforeMove, ∀ e, label = .event e → e.lease.enableIPv4 = true ∧
      e.lease.enableIPv6 = false ∧ e.lease.attrs.backendType = "ipip") ∧
    ¬ Throughout (step (ipip 5 2 fun _ => false)) (fun follower =>
        Exact (ipipRoute 5 2 fun _ => false) follower.watcher.leases (follower.state.routes .ipv4))
      ⟨⟨plainLease 0x0a010000 0, []⟩, ⟨fun _ => [], fun _ => []⟩⟩ deletedBeforeMove := by
  constructor
  · intro label isLabel e isEvent
    simp only [deletedBeforeMove, List.mem_cons, List.not_mem_nil, or_false] at isLabel
    rcases isLabel with rfl | rfl | rfl
    · obtain rfl := Label.event.inj isEvent
      exact ⟨rfl, rfl, rfl⟩
    · contradiction
    · obtain rfl := Label.event.inj isEvent
      exact ⟨rfl, rfl, rfl⟩
  · intro exact_
    have seen : (run (step (ipip 5 2 fun _ => false))
        ⟨⟨plainLease 0x0a010000 0, []⟩, ⟨fun _ => [], fun _ => []⟩⟩ deletedBeforeMove).map
        (fun follower => ((follower.state.routes .ipv4).filter fun r =>
          r.target == some (IP.mapped 0x0a010100, 24)).length) = some 2 := by
      decide
    obtain ⟨target, reached, two⟩ := Option.map_eq_some_iff.mp seen
    have one := congrArg List.length
      (exact_ deletedBeforeMove List.prefix_rfl target reached (some (IP.mapped 0x0a010100, 24)))
    rw [List.length_map, two, Option.length_toList] at one
    split at one <;> contradiction

end Flannel.Backend.RouteNetwork
