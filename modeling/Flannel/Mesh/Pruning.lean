import Flannel.Mesh.Network

/-!
# Pruning after a restart

After a restart the policy table still holds the routes of the leases. The first delivery of a
lease makes the network trust its desired set, so a tick before the last delivery prunes the
routes of the leases that have not been delivered yet.
-/

namespace Flannel.Mesh

open Ip Leases Net Program Table Transition

variable {print : List String → String} {m : RouteManager} {k : Kernel} {dst : IPNet} {network : String}

/-! ## The routes of the table -/

def HasRoute (m : RouteManager) (k : Kernel) (dst : IPNet) : Prop :=
  (m.table, some dst) ∈ k.routes.map Route.key

instance (m : RouteManager) (k : Kernel) (dst : IPNet) : Decidable (HasRoute m k dst) :=
  inferInstanceAs (Decidable (_ ∈ _))

theorem routes_perform_ensure (network : String) :
    (perform (Kernel.answer print) k (m.ensure network)).2.routes =
      match k.links m.linkName, parseCIDR network with
      | some linkIndex, .ok dst => upsert Route.key ⟨linkIndex, some dst, m.table⟩ k.routes
      | _, _ => k.routes := by
  cases isLink : k.links m.linkName with
  | none => simp [RouteManager.ensure, Kernel.answer, isLink]
  | some linkIndex =>
    cases parsed : parseCIDR network with
    | error err => simp [RouteManager.ensure, Kernel.answer, isLink, parsed]
    | ok dst =>
      by_cases ruled : m.remoteRule dst ∈ k.rules <;>
        by_cases present : m.hostSNATRule dst ∈ k.chain <;>
        simp [RouteManager.ensure, RouteManager.ensureHostSNAT, Kernel.answer, isLink, parsed, ruled,
          present]

theorem HasRoute.ensure (has : HasRoute m k dst) (network : String) :
    HasRoute m (perform (Kernel.answer print) k (m.ensure network)).2 dst := by
  rw [HasRoute, routes_perform_ensure]
  split
  · rw [map_key_upsert]
    split
    · exact has
    · exact List.mem_append_left _ has
  · exact has

theorem routes_perform_remove (network : String) :
    (perform (Kernel.answer print) k (m.remove network)).2.routes =
      match parseCIDR network with
      | .ok dst => k.routes.filter fun route => !route.selected (some dst) m.table
      | .error _ => k.routes := by
  cases parsed : parseCIDR network with
  | error err => simp [RouteManager.remove, parsed]
  | ok dst =>
    simp [RouteManager.remove, parsed, RouteManager.perform_deleteRoutes,
      RouteManager.perform_deleteRules, RouteManager.perform_removeHostSNAT]

theorem not_hasRoute_remove (isNetwork : parseCIDR network = .ok dst) :
    ¬ HasRoute m (perform (Kernel.answer print) k (m.remove network)).2 dst := by
  rw [HasRoute, routes_perform_remove, isNetwork, List.mem_map]
  rintro ⟨route, mem, isKey⟩
  obtain ⟨inTable, isDst⟩ := Prod.mk.inj isKey
  simp [Route.selected, inTable, isDst] at mem

theorem HasRoute.of_remove
    (has : HasRoute m (perform (Kernel.answer print) k (m.remove network)).2 dst) : HasRoute m k dst := by
  rw [HasRoute, routes_perform_remove] at has
  split at has
  · obtain ⟨route, mem, isKey⟩ := List.mem_map.mp has
    exact List.mem_map.mpr ⟨route, (List.mem_filter.mp mem).1, isKey⟩
  · exact has

theorem not_hasRoute_foldl_remove {stale : List String} (isNetwork : parseCIDR network = .ok dst)
    (mem : network ∈ stale) :
    ¬ HasRoute m (stale.foldl (fun k network => (perform (Kernel.answer print) k (m.remove network)).2) k)
      dst := by
  have backwards : ∀ (stale : List String) (k : Kernel), HasRoute m
      (stale.foldl (fun k network => (perform (Kernel.answer print) k (m.remove network)).2) k) dst →
      HasRoute m k dst := by
    intro stale
    induction stale with
    | nil => exact fun _ has => has
    | cons first stale ih => exact fun k has => (ih _ has).of_remove
  induction stale generalizing k with
  | nil => contradiction
  | cons first stale ih =>
    rcases List.mem_cons.mp mem with rfl | mem
    · exact fun has => not_hasRoute_remove isNetwork (backwards stale _ has)
    · exact ih mem

variable {order : List String}

theorem HasRoute.foldl_ensure (has : HasRoute m k dst) :
    HasRoute m (order.foldl (fun k network => (perform (Kernel.answer print) k (m.ensure network)).2) k)
      dst := by
  induction order generalizing k with
  | nil => exact has
  | cons first order ih => exact ih (has.ensure first)

theorem perform_ensures (order : List String) :
    (perform (Kernel.answer print) k
      (collect (fun network => do pure (← m.ensure network).toList) order)).2 =
      order.foldl (fun k network => (perform (Kernel.answer print) k (m.ensure network)).2) k := by
  rw [perform_collect_snd]
  congr 1
  funext k network
  rw [perform_bind]
  rfl

theorem not_hasRoute_reconcile (has : HasRoute m k dst)
    (isNetwork : parseCIDR dst.string = .ok dst) (notMesh : dst.string ≠ m.meshCIDR)
    (undesired : dst.string ∉ order) :
    ¬ HasRoute m (perform (Kernel.answer print) k (m.reconcile order)).2 dst := by
  have isStale : dst.string ∈ m.stale order (m.found print
      (order.foldl (fun k network => (perform (Kernel.answer print) k (m.ensure network)).2) k)) := by
    have still : HasRoute m
        (order.foldl (fun k network => (perform (Kernel.answer print) k (m.ensure network)).2) k) dst :=
      has.foldl_ensure
    obtain ⟨route, mem, isKey⟩ := List.mem_map.mp still
    obtain ⟨inTable, isDst⟩ := Prod.mk.inj isKey
    refine RouteManager.mem_stale.mpr ⟨?_, notMesh, undesired⟩
    refine List.mem_append_left _ (List.mem_append_left _ (List.mem_filterMap.mpr ⟨route, ?_, ?_⟩))
    · exact List.mem_filter.mpr ⟨mem, by simp [Route.selected, inTable]⟩
    · simp [isDst]
  rw [RouteManager.reconcile, perform_bind, perform_bind, RouteManager.perform_staleDestinations,
    perform_ensures, perform_bind, perform_collect_snd]
  exact not_hasRoute_foldl_remove isNetwork isStale

theorem not_hasRoute_tick {n : Network} {now : Time} (synced : n.synced)
    (has : HasRoute m k dst) (isNetwork : parseCIDR dst.string = .ok dst)
    (notMesh : dst.string ≠ m.meshCIDR) (undesired : dst.string ∉ order) :
    ¬ HasRoute m (perform (Kernel.answer print) k (n.reconcile m now order)).2 dst := by
  rw [Network.reconcile, synced, if_neg (by simp), perform_bind]
  exact not_hasRoute_reconcile has isNetwork notMesh undesired

/-! ## Deliveries and ticks -/

def podNetwork (lease : Lease) : IPNet :=
  ⟨.v4 lease.subnet.ip, lease.subnet.prefixLen⟩

theorem parseCIDR_podNetwork {lease : Lease} (bound : lease.subnet.prefixLen ≤ 32) :
    parseCIDR (podNetwork lease).string = .ok (podNetwork lease) := by
  rw [podNetwork, parseCIDR, parseCIDR_string_v4 _ bound, cidrAddress_string_v4]
  rfl

/-- The live leases of the mesh: pod networks other than that of the mesh, one for each subnet. -/
structure Live (m : RouteManager) (leases : List Lease) : Prop where
  ofMesh : ∀ lease ∈ leases, lease.attrs.backendType = backendName
  bound : ∀ lease ∈ leases, lease.subnet.prefixLen ≤ 32
  notMesh : ∀ lease ∈ leases, (podNetwork lease).string ≠ m.meshCIDR
  distinct : (leases.map Lease.subnet).Nodup

structure Restarted where
  network : Network
  kernel : Kernel
  delivered : List Lease

/-- A lease is delivered as a batch of its own, or the ticker fires; the tick gives the order of
iteration. -/
inductive Moment
  | deliver (lease : Lease)
  | tick (now : Time) (order : List String)
  deriving DecidableEq

def Restarted.next (print : List String → String) (m : RouteManager) : Step Restarted Moment
  | r, .deliver lease =>
    let result := perform (Kernel.answer print) r.kernel (r.network.handleEvents m [⟨.added, lease⟩])
    some ⟨result.1, result.2, r.delivered ++ [lease]⟩
  | r, .tick now order =>
    if order.Perm r.network.desired then
      some { r with kernel := (perform (Kernel.answer print) r.kernel (r.network.reconcile m now order)).2 }
    else none

theorem next_tick {r : Restarted} {now : Time} (perm : order.Perm r.network.desired) :
    r.next print m (.tick now order) = some
      { r with kernel := (perform (Kernel.answer print) r.kernel (r.network.reconcile m now order)).2 } :=
  if_pos perm

/-- Only live leases are delivered, and all ticks come before the time of pruning. -/
def Moment.Early (leases : List Lease) (prunableAt : Time) : Moment → Prop
  | .deliver lease => lease ∈ leases
  | .tick now _ => now < prunableAt

/-- A tick takes no route of a live lease that is not delivered yet. -/
def KeepsUndelivered (print : List String → String) (m : RouteManager) (leases : List Lease)
    (r : Restarted) : Moment → Prop
  | .deliver _ => True
  | .tick now order => ∀ target, r.next print m (.tick now order) = some target →
      ∀ lease ∈ leases, lease ∉ r.delivered → HasRoute m r.kernel (podNetwork lease) →
        HasRoute m target.kernel (podNetwork lease)

/-- A tick comes before the first delivery or after the last one. -/
def Settled (leases : List Lease) (r : Restarted) : Moment → Prop
  | .deliver _ => True
  | .tick _ order => order.Perm r.network.desired →
      r.delivered = [] ∨ ∀ lease ∈ leases, lease ∈ r.delivered

instance (leases : List Lease) (r : Restarted) : ∀ moment, Decidable (Settled leases r moment)
  | .deliver _ => .isTrue trivial
  | .tick _ _ => inferInstanceAs (Decidable (_ → _))

structure Pending (m : RouteManager) (leases : List Lease) (prunableAt : Time) (r : Restarted) : Prop where
  routes : ∀ lease ∈ leases, lease ∉ r.delivered → HasRoute m r.kernel (podNetwork lease)
  live : ∀ lease ∈ r.delivered, lease ∈ leases
  desired : ∀ network, network ∈ r.network.desired ↔
    ∃ lease ∈ r.delivered, lease.subnet.string = network
  synced : r.network.synced = !r.delivered.isEmpty
  deadline : r.network.prunableAt = prunableAt

section Pending

variable {leases : List Lease} {prunableAt : Time} {r : Restarted}

theorem pending_deliver (live : Live m leases) (pending : Pending m leases prunableAt r) {lease : Lease}
    (isLive : lease ∈ leases) {target : Restarted} (step : r.next print m (.deliver lease) = some target) :
    Pending m leases prunableAt target := by
  have handled : perform (Kernel.answer print) r.kernel (r.network.handleEvents m [⟨.added, lease⟩]) =
      ({ r.network with desired := r.network.desired.insert lease.subnet.string, synced := true },
        (perform (Kernel.answer print) r.kernel (m.ensure lease.subnet.string)).2) := by
    simp [Network.handleEvents, Network.handleEvent, live.ofMesh lease isLive]
  rw [Restarted.next, handled] at step
  obtain rfl := Option.some.inj step
  constructor
  · intro other isLive undelivered
    rw [List.mem_append, not_or] at undelivered
    exact (pending.routes other isLive undelivered.1).ensure _
  · intro other mem
    rcases List.mem_append.mp mem with mem | mem
    · exact pending.live other mem
    · exact List.mem_singleton.mp mem ▸ isLive
  · intro network
    simp only [List.mem_insert_iff, pending.desired, List.mem_append, List.mem_singleton]
    constructor
    · rintro (rfl | ⟨other, mem, rfl⟩)
      · exact ⟨lease, .inr rfl, rfl⟩
      · exact ⟨other, .inl mem, rfl⟩
    · rintro ⟨other, mem | rfl, rfl⟩
      · exact .inr ⟨other, mem, rfl⟩
      · exact .inl rfl
  · simp
  · exact pending.deadline

theorem pending_tick (pending : Pending m leases prunableAt r) {now : Time} {order : List String}
    {target : Restarted} (keeps : KeepsUndelivered print m leases r (.tick now order))
    (step : r.next print m (.tick now order) = some target) : Pending m leases prunableAt target := by
  have routes := fun lease isLive undelivered =>
    keeps target step lease isLive undelivered (pending.routes lease isLive undelivered)
  rw [Restarted.next] at step
  split_ifs at step with perm
  obtain rfl := Option.some.inj step
  exact { pending with routes := routes }

theorem subnet_string_notMem (live : Live m leases) (pending : Pending m leases prunableAt r)
    {lease : Lease} (isLive : lease ∈ leases) (undelivered : lease ∉ r.delivered) :
    (podNetwork lease).string ∉ r.network.desired := by
  intro isDesired
  obtain ⟨other, mem, same⟩ := (pending.desired _).mp isDesired
  have sameSubnet : other.subnet = lease.subnet := string_injective same
  have sameLease := List.inj_on_of_nodup_map live.distinct (pending.live other mem) isLive sameSubnet
  exact undelivered (sameLease ▸ mem)

theorem keepsUndelivered_iff_settled (live : Live m leases) (pending : Pending m leases prunableAt r)
    {moment : Moment} (early : moment.Early leases prunableAt) :
    KeepsUndelivered print m leases r moment ↔ Settled leases r moment := by
  cases moment with
  | deliver lease => exact Iff.rfl
  | tick now order =>
    have isEarly : now < r.network.prunableAt := pending.deadline ▸ early
    constructor
    · intro keeps perm
      by_contra unsettled
      rw [not_or, not_forall] at unsettled
      obtain ⟨started, lease, missing⟩ := unsettled
      rw [Classical.not_imp] at missing
      obtain ⟨isLive, undelivered⟩ := missing
      have synced : r.network.synced := by
        simpa [pending.synced] using started
      have before := pending.routes lease isLive undelivered
      have after := keeps _ (next_tick perm) lease isLive undelivered before
      refine not_hasRoute_tick synced before (parseCIDR_podNetwork (live.bound lease isLive))
        (live.notMesh lease isLive) ?_ after
      exact fun mem => subnet_string_notMem live pending isLive undelivered (perm.mem_iff.mp mem)
    · intro settled target step lease isLive undelivered before
      rw [Restarted.next] at step
      split_ifs at step with perm
      obtain rfl := Option.some.inj step
      rcases settled perm with none | all
      · have unsynced : r.network.synced = false := by simp [pending.synced, none]
        rw [Network.reconcile, unsynced, if_pos (by simp [isEarly]), perform_bind, perform_ensures]
        exact before.foldl_ensure
      · exact absurd (all lease isLive) undelivered

theorem pending_next (live : Live m leases) (pending : Pending m leases prunableAt r) {moment : Moment}
    (early : moment.Early leases prunableAt) (keeps : KeepsUndelivered print m leases r moment)
    {target : Restarted} (step : r.next print m moment = some target) :
    Pending m leases prunableAt target := by
  cases moment with
  | deliver lease => exact pending_deliver live pending early step
  | tick now order => exact pending_tick pending keeps step

end Pending

/-- No reconciliation before the time of pruning takes the route of a live lease that is
not delivered yet, exactly where every tick comes before the first delivery or after the
last one. -/
theorem keepsUndelivered_iff {leases : List Lease} (live : Live m leases) {n : Network}
    (unsynced : n.synced = false) (empty : n.desired = [])
    (routes : ∀ lease ∈ leases, HasRoute m k (podNetwork lease)) {moments : List Moment}
    (early : ∀ moment ∈ moments, moment.Early leases n.prunableAt) :
    Along (Restarted.next print m) (KeepsUndelivered print m leases) ⟨n, k, []⟩ moments ↔
      Along (Restarted.next print m) (Settled leases) ⟨n, k, []⟩ moments := by
  have start : Pending m leases n.prunableAt ⟨n, k, []⟩ :=
    { routes := fun lease isLive _ => routes lease isLive
      live := by simp
      desired := by simp [empty]
      synced := by simp [unsynced]
      deadline := rfl }
  have allEarly : Along (Restarted.next print m) (fun _ moment => moment.Early leases n.prunableAt)
      ⟨n, k, []⟩ moments := along_of_forall_mem early
  constructor
  · intro keeps
    refine (keeps.and allEarly).imp_of_invariant ?_ ?_ start
    · exact fun r moment pending both => (keepsUndelivered_iff_settled live pending both.2).mp both.1
    · exact fun r moment target pending both step => pending_next live pending both.2 both.1 step
  · intro settled
    refine (settled.and allEarly).imp_of_invariant ?_ ?_ start
    · exact fun r moment pending both => (keepsUndelivered_iff_settled live pending both.2).mpr both.1
    · intro r moment target pending both step
      exact pending_next live pending both.2
        ((keepsUndelivered_iff_settled live pending both.2).mpr both.1) step

def twoLeases : List Lease :=
  [typedLease 0x0af40100 backendName, typedLease 0x0af40200 backendName]

def routedKernel : Kernel :=
  { bareKernel with routes := twoLeases.map fun lease => ⟨7, some (podNetwork lease), nodeManager.table⟩ }

theorem live_twoLeases : Live nodeManager twoLeases where
  ofMesh := by decide
  bound := by decide
  notMesh := by decide
  distinct := by decide

theorem keepsUndelivered_outside_deliveries :
    Along (Restarted.next save nodeManager) (KeepsUndelivered save nodeManager twoLeases)
      ⟨freshNetwork, routedKernel, []⟩
      [.tick 10 [], .deliver (typedLease 0x0af40200 backendName),
        .deliver (typedLease 0x0af40100 backendName), .tick 20 ["10.244.2.0/24", "10.244.1.0/24"]] := by
  refine (keepsUndelivered_iff live_twoLeases rfl rfl (by decide) ?_).mpr (by decide)
  simp [Moment.Early, twoLeases, freshNetwork]

/-- A tick between the two deliveries prunes the route of the second lease. -/
theorem tick_prunes_undelivered :
    ¬ Along (Restarted.next save nodeManager) (KeepsUndelivered save nodeManager twoLeases)
      ⟨freshNetwork, routedKernel, []⟩
      [.deliver (typedLease 0x0af40100 backendName), .tick 10 ["10.244.1.0/24"]] := by
  intro keeps
  have first : (Restarted.next save nodeManager ⟨freshNetwork, routedKernel, []⟩
      (.deliver (typedLease 0x0af40100 backendName))).map (fun r => (r.network,
        decide (HasRoute nodeManager r.kernel (podNetwork (typedLease 0x0af40200 backendName))),
        r.delivered)) =
      some (⟨["10.244.1.0/24"], true, 60⟩, true, [typedLease 0x0af40100 backendName]) := by
    decide
  obtain ⟨r, step, isState⟩ := Option.map_eq_some_iff.mp first
  simp only [Prod.mk.injEq, decide_eq_true_eq] at isState
  obtain ⟨isNetwork, before, isDelivered⟩ := isState
  have isLive : typedLease 0x0af40200 backendName ∈ twoLeases := by decide
  have after := (keeps.2 r step).1 _ (next_tick (by rw [isNetwork])) _ isLive
    (by rw [isDelivered]; decide) before
  exact not_hasRoute_tick (by rw [isNetwork]) before (parseCIDR_podNetwork (by decide))
    (live_twoLeases.notMesh _ isLive) (by decide) after

end Flannel.Mesh
