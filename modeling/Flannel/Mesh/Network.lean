import Flannel.Backend.Follower
import Flannel.Leases.Families
import Flannel.Mesh.Printing

/-!
# The network of the cloudflare-mesh backend

The desired networks of `meshNetwork` follow the events of the backend's own type only. A lease
that is announced again with another type replaces the old one without a removal, so its network
stays.
-/

namespace Flannel.Mesh

open Ip Leases Net Program Table Transition

/-! ## The source functions -/

def backendName : String :=
  "cloudflare-mesh"

structure Network where
  desired : List String
  synced : Bool
  prunableAt : Time
  deriving DecidableEq

namespace Network

variable (m : RouteManager) (n : Network)

def handleEvent (event : Event) : Action Network :=
  if event.lease.attrs.backendType ≠ backendName then pure n
  else
    match event.type with
    | .added => do
      let n := { n with desired := n.desired.insert event.lease.subnet.string }
      let _ ← m.ensure event.lease.subnet.string
      pure n
    | .removed => do
      let n := { n with desired := n.desired.erase event.lease.subnet.string }
      let _ ← m.remove event.lease.subnet.string
      pure n

def handleEvents (n : Network) : List Event → Action Network
  | [] => pure { n with synced := true }
  | event :: batch => do
    let n ← n.handleEvent m event
    n.handleEvents batch

def reconcile (now : Time) (order : List String) : Action Unit :=
  if !n.synced && now < n.prunableAt then do
    let _ ← collect (fun network => do pure (← m.ensure network).toList) order
    pure ()
  else do
    let _ ← m.reconcile order
    pure ()

end Network

/-! ## The desired set -/

def follow (desired : List String) (event : Event) : List String :=
  if event.lease.attrs.backendType ≠ backendName then desired
  else
    match event.type with
    | .added => desired.insert event.lease.subnet.string
    | .removed => desired.erase event.lease.subnet.string

section Follow

variable {m : RouteManager} {world : Kernel → (op : Op) → Res op × Kernel} {k : Kernel}

theorem endures_handleEvent (n : Network) (event : Event) :
    Endures world failure (fun _ => True) (fun n' _ => n'.desired = follow n.desired event)
      (n.handleEvent m event) k := by
  unfold Network.handleEvent follow
  split_ifs with other
  · exact .ret rfl
  · rcases event with ⟨_ | _, lease⟩
    · exact endures_bind ((endures_true _ k).imp fun _ _ _ => .ret rfl)
    · exact endures_bind ((endures_true _ k).imp fun _ _ _ => .ret rfl)

theorem endures_handleEvents (n : Network) (batch : List Event) :
    Endures world failure (fun _ => True) (fun n' _ => n'.desired = batch.foldl follow n.desired)
      (n.handleEvents m batch) k := by
  induction batch generalizing n k with
  | nil => exact .ret rfl
  | cons event batch ih =>
    refine endures_bind ((endures_handleEvent n event).imp fun n' k' followed => ?_)
    rw [List.foldl_cons, ← followed]
    exact ih n'

end Follow

def followAll : Backend.Handler (List String) := fun desired batch =>
  batch.foldlM (fun desired event => some (follow desired event)) desired

theorem followAll_eq (desired : List String) (batch : List Event) :
    followAll desired batch = some (batch.foldl follow desired) := by
  induction batch generalizing desired with
  | nil => rfl
  | cons event batch ih => exact ih (follow desired event)

/-! ## Runs -/

structure Node where
  watcher : LeaseWatcher
  network : Network
  kernel : Kernel

/-- One call of `Update` and the batch it emits handled, with a script of what becomes of
the requests to the kernel. -/
def Node.step (print : List String → String) (m : RouteManager) :
    Step Node (List Event × List (Outcome KernelError)) := fun node call =>
  (node.watcher.update call.1).bind fun result =>
    match play (Kernel.answer print) failure call.2 node.kernel
        (node.network.handleEvents m result.1) with
    | (some network, kernel) => some ⟨result.2, network, kernel⟩
    | (none, _) => none

def Node.follower (node : Node) : Backend.Follower (List String) :=
  ⟨node.watcher, node.network.desired⟩

theorem step_follower {print : List String → String} {m : RouteManager} (node : Node)
    (call : List Event × List (Outcome KernelError)) (target : Node)
    (step : node.step print m call = some target) :
    Backend.Follower.step followAll node.follower call.1 = some target.follower := by
  obtain ⟨⟨batch, watcher⟩, updated, handled⟩ := Option.bind_eq_some_iff.mp step
  have isUpdate : node.follower.watcher.update call.1 = some (batch, watcher) := updated
  have followed : Endures (Kernel.answer print) failure (fun _ => True)
      (fun n' _ => n'.desired = batch.foldl follow node.network.desired)
      (node.network.handleEvents m batch) node.kernel := endures_handleEvents node.network batch
  have sound := (followed.sound call.2).2
  dsimp only at handled
  split at handled
  · rename_i network kernel played
    obtain rfl := Option.some.inj handled
    rw [played] at sound
    have isDesired : network.desired = batch.foldl follow node.network.desired := sound network rfl
    rw [Backend.Follower.step, isUpdate, Option.bind_some, followAll_eq, Option.map_some]
    simp only [Node.follower, isDesired]
  · contradiction

/-! ## One event -/

theorem string_injective : Function.Injective IP4Net.string := by
  intro first second same
  obtain ⟨sameAddress, sameLength⟩ := @string_v4_inj first.ip second.ip _ _ same
  exact IP4Net.ext sameAddress sameLength

theorem keying_subnet (ownLease : Lease) :
    Keying (OfFamilies true false) Lease.subnet ownLease := by
  have noSet : false → ownLease.ipv6Subnet.ip.isSome := nofun
  refine (@keying_ofFamilies true false (.inl rfl) ownLease noSet).congr fun first second => ?_
  simp [Lease.subnets]

structure Follows (leases : List Lease) (desired : List String) : Prop where
  distinct : desired.Nodup
  mem_iff : ∀ network, network ∈ desired ↔
    ∃ l ∈ leases, l.attrs.backendType = backendName ∧ l.subnet.string = network

/-- An announcement of another type does not replace a lease of the mesh. -/
def KeepsType (leases : List Lease) (event : Event) : Prop :=
  event.type = .added → event.lease.attrs.backendType ≠ backendName →
    ∀ old ∈ leases, old.subnet = event.lease.subnet → old.attrs.backendType ≠ backendName

instance (leases : List Lease) (event : Event) : Decidable (KeepsType leases event) :=
  inferInstanceAs (Decidable (_ → _ → _))

section Event

variable {leases : List Lease} {desired : List String} {lease : Lease}

theorem follows_added (follows : Follows leases desired) (distinct : (leases.map Lease.subnet).Nodup)
    (keeps : KeepsType leases ⟨.added, lease⟩) :
    Follows (upsert Lease.subnet lease leases) (follow desired ⟨.added, lease⟩) := by
  by_cases isMesh : lease.attrs.backendType = backendName
  · rw [follow, if_neg (not_not.mpr isMesh)]
    refine ⟨follows.distinct.insert, fun network => ?_⟩
    rw [List.mem_insert_iff, follows.mem_iff]
    constructor
    · rintro (rfl | ⟨l, mem, ofMesh, rfl⟩)
      · exact ⟨lease, (mem_upsert_iff distinct).mpr (.inl rfl), isMesh, rfl⟩
      · by_cases same : l.subnet = lease.subnet
        · exact ⟨lease, (mem_upsert_iff distinct).mpr (.inl rfl), isMesh, congrArg _ same.symm⟩
        · exact ⟨l, (mem_upsert_iff distinct).mpr (.inr ⟨mem, same⟩), ofMesh, rfl⟩
    · rintro ⟨l, mem, ofMesh, rfl⟩
      rcases mem_upsert mem with rfl | mem
      · exact .inl rfl
      · exact .inr ⟨l, mem, ofMesh, rfl⟩
  · rw [follow, if_pos isMesh]
    refine ⟨follows.distinct, fun network => ?_⟩
    rw [follows.mem_iff]
    constructor
    · rintro ⟨l, mem, ofMesh, rfl⟩
      have other : l.subnet ≠ lease.subnet := fun same => keeps rfl isMesh l mem same ofMesh
      exact ⟨l, (mem_upsert_iff distinct).mpr (.inr ⟨mem, other⟩), ofMesh, rfl⟩
    · rintro ⟨l, mem, ofMesh, rfl⟩
      rcases mem_upsert mem with rfl | mem
      · exact absurd ofMesh isMesh
      · exact ⟨l, mem, ofMesh, rfl⟩

theorem follows_removed (follows : Follows leases desired) (distinct : (leases.map Lease.subnet).Nodup)
    (stored : ∀ l ∈ leases, l.subnet = lease.subnet → l = lease) :
    Follows (erase Lease.subnet lease.subnet leases) (follow desired ⟨.removed, lease⟩) := by
  have remaining : ∀ network, (∃ l ∈ erase Lease.subnet lease.subnet leases,
      l.attrs.backendType = backendName ∧ l.subnet.string = network) ↔
      network ≠ lease.subnet.string ∧ network ∈ desired := by
    intro network
    rw [follows.mem_iff]
    simp only [mem_erase_iff distinct]
    constructor
    · rintro ⟨l, ⟨mem, other⟩, ofMesh, rfl⟩
      exact ⟨fun same => other (string_injective same), l, mem, ofMesh, rfl⟩
    · rintro ⟨other, l, mem, ofMesh, rfl⟩
      exact ⟨l, ⟨mem, fun same => other (congrArg _ same)⟩, ofMesh, rfl⟩
  by_cases isMesh : lease.attrs.backendType = backendName
  · rw [follow, if_neg (not_not.mpr isMesh)]
    refine ⟨follows.distinct.erase _, fun network => ?_⟩
    rw [follows.distinct.mem_erase_iff, remaining]
  · rw [follow, if_pos isMesh]
    refine ⟨follows.distinct, fun network => ?_⟩
    rw [remaining, and_iff_right_of_imp]
    rintro isDesired rfl
    obtain ⟨l, mem, ofMesh, same⟩ := (follows.mem_iff _).mp isDesired
    exact isMesh (stored l mem (string_injective same) ▸ ofMesh)

theorem follows_event {ownLease : Lease} (kept : Kept (OfFamilies true false) Lease.subnet ownLease leases)
    (follows : Follows leases desired) {event : Event} (keeps : KeepsType leases event) :
    Follows (tracked Lease.subnet leases event) (follow desired (relayed Lease.subnet leases event)) := by
  rcases event with ⟨_ | _, lease⟩
  · exact follows_added follows kept.distinct keeps
  · cases found : lookup Lease.subnet leases lease.subnet with
    | some old =>
      have isOld : old.subnet = lease.subnet := key_of_lookup found
      have stored : ∀ l ∈ leases, l.subnet = old.subnet → l = old := by
        intro l mem same
        have byKey := lookup_eq_some_of_mem kept.distinct mem
        rw [same, isOld, found] at byKey
        exact (Option.some.inj byKey).symm
      have removed := follows_removed follows kept.distinct stored
      simpa only [relayed, tracked, found, Option.getD_some, isOld] using removed
    | none =>
      have stored : ∀ l ∈ leases, l.subnet = lease.subnet → l = lease := fun l mem same =>
        absurd (List.mem_map.mpr ⟨l, mem, same⟩) ((lookup_eq_none_iff _ _).mp found)
      have removed := follows_removed follows kept.distinct stored
      simpa only [relayed, tracked, found, Option.getD_none] using removed

end Event

/-- In every run in which no announcement of another type replaces a lease of the mesh,
the desired set is the set of the subnets of the mesh leases in every state reached,
whatever becomes of the requests to the kernel. -/
theorem desired_of_keepsType {print : List String → String} {m : RouteManager} {ownLease : Lease}
    {start : Network} (empty : start.desired = []) {k : Kernel}
    {calls : List (List Event × List (Outcome KernelError))}
    (ipv4 : ∀ call ∈ calls, ∀ event ∈ call.1, OfFamilies true false event.lease)
    (keeps : Along Backend.watch (fun lw event => ownLease.subnet ≠ event.lease.subnet →
      KeepsType lw.leases event) ⟨ownLease, []⟩ (calls.map Prod.fst).flatten)
    {node : Node} (reached : run (Node.step print m) ⟨⟨ownLease, []⟩, start, k⟩ calls = some node) :
    ∀ network, network ∈ node.network.desired ↔
      ∃ l ∈ node.watcher.leases, l.attrs.backendType = backendName ∧ l.subnet.string = network := by
  have one : ∀ leases desired event, Kept (OfFamilies true false) Lease.subnet ownLease leases →
      OfFamilies true false event.lease → ownLease.subnet ≠ event.lease.subnet →
      Follows leases desired → KeepsType leases event →
      ∃ target, followAll desired [relayed Lease.subnet leases event] = some target ∧
        Follows (tracked Lease.subnet leases event) target :=
    fun leases desired event kept _ _ follows keeps =>
      ⟨_, followAll_eq _ _, follows_event kept follows keeps⟩
  have kinds : ∀ events ∈ calls.map Prod.fst, ∀ event ∈ events, OfFamilies true false event.lease := by
    simpa using ipv4
  have follows := Backend.throughout_of_along (Backend.sequential_foldlM _) (keying_subnet ownLease) one
    ⟨List.nodup_nil, by simp⟩ kinds keeps
  have simulated := run_of_simulation step_follower reached
  have isStart : Node.follower ⟨⟨ownLease, []⟩, start, k⟩ = ⟨⟨ownLease, []⟩, []⟩ := by
    simp [Node.follower, empty]
  rw [isStart] at simulated
  exact (follows.2 _ List.prefix_rfl _ simulated).mem_iff

def typedLease (subnet : IP4) (backendType : String) : Lease :=
  ⟨true, false, ⟨subnet, 24⟩, IP6Net.zero, { LeaseAttrs.zero with backendType := backendType }, 1, 0⟩

def bareKernel : Kernel :=
  ⟨fun _ => some 7, [], [], []⟩

def freshNetwork : Network :=
  ⟨[], false, 60⟩

theorem ofFamilies_typedLease (subnet : IP4) (backendType : String) :
    OfFamilies true false (typedLease subnet backendType) :=
  ⟨rfl, rfl, nofun⟩

def meshAndVxlan : List (List Event × List (Outcome KernelError)) :=
  [([⟨.added, typedLease 0x0af40100 backendName⟩, ⟨.added, typedLease 0x0af40200 "vxlan"⟩],
      List.replicate 5 .performed),
    ([⟨.removed, typedLease 0x0af40100 ""⟩], .refused (.other "timeout") :: List.replicate 4 .performed)]

theorem desired_after_removal :
    ∃ node, run (Node.step save nodeManager)
        ⟨⟨typedLease 0x0af40000 backendName, []⟩, freshNetwork, bareKernel⟩ meshAndVxlan = some node ∧
      ∀ network, network ∈ node.network.desired ↔
        ∃ l ∈ node.watcher.leases, l.attrs.backendType = backendName ∧ l.subnet.string = network := by
  obtain ⟨node, reached⟩ := Option.isSome_iff_exists.mp
    (show (run (Node.step save nodeManager)
      ⟨⟨typedLease 0x0af40000 backendName, []⟩, freshNetwork, bareKernel⟩ meshAndVxlan).isSome = true by
        decide)
  refine ⟨node, reached, desired_of_keepsType rfl ?_ (by decide) reached⟩
  simp [meshAndVxlan, ofFamilies_typedLease]

/-- A lease of the mesh is announced again with another type: its subnet stays desired. -/
theorem desired_keeps_retyped :
    ∃ node, run (Node.step save nodeManager)
        ⟨⟨typedLease 0x0af40000 backendName, []⟩, freshNetwork, bareKernel⟩
        [([⟨.added, typedLease 0x0af40100 backendName⟩], List.replicate 5 .performed),
          ([⟨.added, typedLease 0x0af40100 "vxlan"⟩], [])] = some node ∧
      ¬ ∀ network, network ∈ node.network.desired ↔
        ∃ l ∈ node.watcher.leases, l.attrs.backendType = backendName ∧ l.subnet.string = network := by
  have outcome : (run (Node.step save nodeManager)
      ⟨⟨typedLease 0x0af40000 backendName, []⟩, freshNetwork, bareKernel⟩
      [([⟨.added, typedLease 0x0af40100 backendName⟩], List.replicate 5 .performed),
        ([⟨.added, typedLease 0x0af40100 "vxlan"⟩], [])]).map
      (fun node => (node.network.desired, node.watcher.leases)) =
      some (["10.244.1.0/24"], [typedLease 0x0af40100 "vxlan"]) := by
    decide
  obtain ⟨node, reached, isOutcome⟩ := Option.map_eq_some_iff.mp outcome
  obtain ⟨isDesired, isLeases⟩ := Prod.mk.inj isOutcome
  refine ⟨node, reached, fun exact => ?_⟩
  have still := (exact "10.244.1.0/24").mp (by simp [isDesired])
  simp [isLeases, typedLease, backendName] at still

end Flannel.Mesh
