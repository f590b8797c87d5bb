import Flannel.Etcd.Allocation

/-!
# Disjoint allocation with both families

The guard of the create transaction excludes equal pairs of subnets only, while each half is
picked on its own. The halves stay disjoint exactly as long as every create finds each stored
lease that overlaps its subnets among those its node has listed.
-/

namespace Flannel.Etcd

open Ip Net Leases Subnet Program Transition
open KeyValue

variable {ι : Type} [DecidableEq ι]

/-! ## Subnets in pairs -/

def Grouped (config : Config) : Prop :=
  ∀ lowest highest ip6, config.ipv6SubnetMin = some lowest → config.ipv6SubnetMax = some highest →
    lowest ≤ ip6 → ip6 ≤ highest → GroupForm ip6

structure Paired (config : Config) (sn : IP4Net) (sn6 : IP6Net) : Prop where
  length : sn.prefixLen = config.subnetLen
  ipv6 : ∃ ip6, sn6 = ⟨some ip6, config.ipv6SubnetLen⟩ ∧ GroupForm ip6

structure DualChecked (config : Config) : Prop where
  ipv4 : IPv4Checked config
  ipv6 : IPv6Checked config
  enabled : config.enableIPv6 = true
  grouped : Grouped config

section DualStack

variable {config : Config} {root key : String} {sn : IP4Net} {sn6 : IP6Net} {m : LocalManager}
variable {leases : List Lease}

theorem DualChecked.ipv6SubnetLen_ne_zero (checked : DualChecked config) :
    config.ipv6SubnetLen ≠ 0 := by
  have := checked.ipv6.len.1
  omega

theorem Chosen.allocated_of_empty (noPrevious : m.previousSubnet.empty)
    (chosen : Chosen m config leases sn sn6) : Allocated config leases sn sn6 := by
  cases chosen with
  | previous notEmpty =>
    rw [noPrevious] at notEmpty
    contradiction
  | allocated allocated => exact allocated

theorem Allocated.paired (checked : DualChecked config)
    (allocated : Allocated config leases sn sn6) : Paired config sn sn6 := by
  refine ⟨(allocated.ipv4.form checked.ipv4).2, ?_⟩
  obtain ⟨lowest, ip6, isLowest, rfl, free⟩ :=
    allocated.dual checked.enabled checked.ipv6SubnetLen_ne_zero
  obtain ⟨steps, rfl⟩ := free.reached
  obtain ⟨highest, isHighest, le⟩ := free.le
  exact ⟨_, rfl, checked.grouped lowest highest _ isLowest isHighest (Nat.le_add_right _ _) le⟩

theorem keySubnets_of_paired (checked : DualChecked config) (paired : Paired config sn sn6)
    (path : subnetPath root sn sn6 = some key) : keySubnets key = some (sn, sn6) := by
  obtain ⟨ip6, rfl, groupForm⟩ := paired.ipv6
  have notEmpty : IP6Net.empty ⟨some ip6, config.ipv6SubnetLen⟩ = false := by
    simp [IP6Net.empty, checked.ipv6SubnetLen_ne_zero]
  have readable : Readable sn ⟨some ip6, config.ipv6SubnetLen⟩ := by
    refine ⟨?_, fun _ => ⟨?_, ip6, rfl, groupForm⟩⟩
    · rw [paired.length]
      exact Nat.lt_of_le_of_lt checked.ipv4.len.2 (by decide)
    · exact Nat.lt_of_le_of_lt checked.ipv6.len.2 (by decide)
  rw [keySubnets_subnetPath readable path, if_neg (by rw [notEmpty]; decide)]

theorem Allocated.disjoint (checked : DualChecked config)
    (allocated : Allocated config leases sn sn6) {l : Lease} (mem : l ∈ leases)
    (paired : Paired config l.subnet l.ipv6Subnet) :
    Disjoint sn.addresses l.subnet.addresses ∧ Disjoint sn6.addresses l.ipv6Subnet.addresses := by
  have self := allocated.paired checked
  have valid : config.subnetLen ≤ 32 := le_trans checked.ipv4.len.2 (by decide)
  have valid6 : config.ipv6SubnetLen ≤ 128 := le_trans checked.ipv6.len.2 (by decide)
  constructor
  · rw [Set.disjoint_iff_inter_eq_empty, ← Set.not_nonempty_iff_eq_empty,
      ← IP4Net.overlaps_iff (self.length ▸ valid) (paired.length ▸ valid),
      allocated.ipv4.apart l mem]
    decide
  · obtain ⟨lowest, ip6, _, rfl, free⟩ :=
      allocated.dual checked.enabled checked.ipv6SubnetLen_ne_zero
    exact IP6Net.disjoint_of_overlaps_eq_false valid6 (free.apart l mem)

end DualStack

/-! ## Runs -/

def Label.Acquires : Label ι → Prop
  | .acquire _ => True
  | .answer _ _ => True
  | .stop _ => True
  | .renew _ => False
  | .expire _ => False

/-- Every stored lease that overlaps the subnets of an executed create, in either family, is one
that the creating node has listed. -/
def Cluster.ListsConflicts (root : String) (cluster : Cluster ι) (label : Label ι) : Prop :=
  ∀ i subnets key, cluster.Creates root label i subnets key →
    ∀ key' subnets', Stored root cluster.etcd key' subnets' →
      ¬ Disjoint subnets.1.addresses subnets'.1.addresses ∨
        ¬ Disjoint subnets.2.addresses subnets'.2.addresses →
      ∃ l ∈ (cluster.nodes i).seen, (l.subnet, l.ipv6Subnet) = subnets'

def Cluster.FamiliesDisjoint (root : String) (cluster : Cluster ι) : Prop :=
  IPv4Disjoint root cluster.etcd ∧ IPv6Disjoint root cluster.etcd

/-- The invariant of a cluster with both families. What a node is about to update
or delete is stored as its own, since nothing expires. -/
structure Cluster.Halves (root : String) (config : Config) (cluster : Cluster ι) : Prop where
  within : cluster.Within root (fun m => Chosen m config) (Paired config)
  noPrevious : ∀ i, (cluster.nodes i).manager.previousSubnet.empty = true
  distinct : Function.Injective fun i => (cluster.nodes i).attrs.publicIP
  owned : ∀ i subnets key, subnets ∈ (cluster.nodes i).pending →
    subnetPath root subnets.1 subnets.2 = some key →
    ∃ row attrs, cluster.etcd.get? key = some row ∧ row.value.value = some attrs ∧
      attrs.publicIP = (cluster.nodes i).attrs.publicIP
  disjoint : cluster.FamiliesDisjoint root

section Halves

variable {root : String} {config : Config} {cluster target : Cluster ι} {label : Label ι}

omit [DecidableEq ι] in
theorem Cluster.Halves.allocated (inv : cluster.Halves root config) {i : ι}
    {subnets : IP4Net × IP6Net} {key : String} (creates : cluster.Creates root label i subnets key) :
    Allocated config (cluster.nodes i).seen subnets.1 subnets.2 :=
  (pick_of_creates inv.within.lawful creates).allocated_of_empty (inv.noPrevious i)

omit [DecidableEq ι] in
theorem Cluster.Halves.keySubnets_of_creates (checked : DualChecked config)
    (inv : cluster.Halves root config) {i : ι} {subnets : IP4Net × IP6Net} {key : String}
    (creates : cluster.Creates root label i subnets key) : keySubnets key = some subnets :=
  keySubnets_of_paired checked ((inv.allocated creates).paired checked) creates.path

omit [DecidableEq ι] in
theorem Cluster.Halves.paired (checked : DualChecked config) (inv : cluster.Halves root config)
    {key : String} {subnets : IP4Net × IP6Net} (stored : Stored root cluster.etcd key subnets) :
    Paired config subnets.1 subnets.2 ∧ subnetPath root subnets.1 subnets.2 = some key := by
  obtain ⟨sn, sn6, paired, path⟩ := inv.within.stored key subnets stored
  obtain rfl := Option.some.inj (stored.2.2.symm.trans (keySubnets_of_paired checked paired path))
  exact ⟨paired, path⟩

omit [DecidableEq ι] in
theorem Cluster.Halves.eq_of_pending (inv : cluster.Halves root config) {i j : ι}
    {subnets subnets' : IP4Net × IP6Net} {key : String}
    (isPending : subnets ∈ (cluster.nodes i).pending)
    (isPending' : subnets' ∈ (cluster.nodes j).pending)
    (path : subnetPath root subnets.1 subnets.2 = some key)
    (path' : subnetPath root subnets'.1 subnets'.2 = some key) : i = j := by
  obtain ⟨row, attrs, found, value, own⟩ := inv.owned i subnets key isPending path
  obtain ⟨row', attrs', found', value', own'⟩ := inv.owned j subnets' key isPending' path'
  obtain rfl := Option.some.inj (found.symm.trans found')
  obtain rfl := Option.some.inj (value.symm.trans value')
  exact inv.distinct (own.symm.trans own')

omit [DecidableEq ι] in
theorem Cluster.Halves.owned_of_lists (checked : DualChecked config)
    (inv : cluster.Halves root config) {i : ι} {subnets : IP4Net × IP6Net} {key : String}
    (lists : cluster.Lists root i subnets)
    (path : subnetPath root subnets.1 subnets.2 = some key) :
    ∃ row attrs, cluster.etcd.get? key = some row ∧ row.value.value = some attrs ∧
      attrs.publicIP = (cluster.nodes i).attrs.publicIP := by
  obtain ⟨row, found, below, decoded, attrs, value, own⟩ := lists
  have path' := (inv.paired checked ⟨⟨row, found⟩, below, decoded⟩).2
  obtain rfl := Option.some.inj (path.symm.trans path')
  exact ⟨row, attrs, found, value, own⟩

theorem Cluster.Halves.owned_step (checked : DualChecked config)
    (inv : cluster.Halves root config) (acquires : label.Acquires)
    (taken : Cluster.step root (attempt config) cluster label = some target) :
    ∀ i subnets key, subnets ∈ (target.nodes i).pending →
      subnetPath root subnets.1 subnets.2 = some key →
      ∃ row attrs, target.etcd.get? key = some row ∧ row.value.value = some attrs ∧
        attrs.publicIP = (target.nodes i).attrs.publicIP := by
  intro i subnets key isPending path
  rw [(node_step taken i).1]
  rcases pending_step taken isPending with before | ⟨lists, same⟩ | ⟨rfl, _⟩
  · obtain ⟨row, attrs, found, value, own⟩ := inv.owned i subnets key before path
    -- Writes on behalf of the node itself leave nothing pending, so another node wrote.
    have notBy : ∀ {j : ι}, (target.nodes j).pending = [] → i ≠ j := by
      intro j nothing here
      rw [here, nothing] at isPending
      contradiction
    refine ⟨row, attrs, ?_, value, own⟩
    have wrote := wrote_step inv.within.lawful taken
    generalize target.etcd = etcd at wrote
    cases wrote with
    | nothing => exact found
    | expired expires =>
      rw [expires] at acquires
      exact acquires.elim
    | @created j subnets' key' id creates nothing =>
      have other : key ≠ key' := by
        rintro rfl
        have absent := creates.absent
        rw [found] at absent
        contradiction
      rw [Store.get?_put, if_neg other]
      exact found
    | @updated j subnets' key' id isPending' path' nothing =>
      have other : key ≠ key' := by
        rintro rfl
        exact notBy nothing (inv.eq_of_pending before isPending' path path')
      rw [Store.get?_put, if_neg other]
      exact found
    | @deleted j subnets' key' isPending' path' nothing =>
      have other : key ≠ key' := by
        rintro rfl
        exact notBy nothing (inv.eq_of_pending before isPending' path path')
      rw [Store.get?_delete, if_neg other]
      exact found
  · rw [same]
    exact inv.owned_of_lists checked lists path
  · exact acquires.elim

omit [DecidableEq ι] in
theorem Cluster.Halves.apart (checked : DualChecked config) (inv : cluster.Halves root config)
    (conflicts : cluster.ListsConflicts root label) {i : ι} {subnets : IP4Net × IP6Net}
    {key : String} (creates : cluster.Creates root label i subnets key) {key' : String}
    {subnets' : IP4Net × IP6Net} (stored : Stored root cluster.etcd key' subnets') :
    Disjoint subnets.1.addresses subnets'.1.addresses ∧
      Disjoint subnets.2.addresses subnets'.2.addresses := by
  by_contra overlap
  rw [not_and_or] at overlap
  obtain ⟨l, mem, rfl⟩ := conflicts i subnets key creates key' subnets' stored overlap
  have apart := (inv.allocated creates).disjoint checked mem (inv.paired checked stored).1
  rw [not_and_or.symm] at overlap
  exact overlap apart

theorem Cluster.Halves.disjoint_step (checked : DualChecked config)
    (inv : cluster.Halves root config) (conflicts : cluster.ListsConflicts root label)
    (taken : Cluster.step root (attempt config) cluster label = some target) :
    target.FamiliesDisjoint root := by
  have wrote := wrote_step inv.within.lawful taken
  rw [FamiliesDisjoint]
  generalize target.etcd = etcd at wrote
  cases wrote with
  | nothing => exact inv.disjoint
  | expired =>
    exact ⟨inv.disjoint.1.mono fun _ _ => stored_of_delete,
      inv.disjoint.2.mono fun _ _ => stored_of_delete⟩
  | deleted =>
    exact ⟨inv.disjoint.1.mono fun _ _ => stored_of_delete,
      inv.disjoint.2.mono fun _ _ => stored_of_delete⟩
  | @updated j subnets key id isPending path =>
    obtain ⟨row, _, found, _⟩ := inv.owned j subnets key isPending path
    exact ⟨inv.disjoint.1.mono fun _ _ => stored_of_put_of_stored found,
      inv.disjoint.2.mono fun _ _ => stored_of_put_of_stored found⟩
  | @created j subnets key id creates =>
    have decoded := inv.keySubnets_of_creates checked creates
    exact ⟨inv.disjoint.1.put decoded fun _ _ stored => (inv.apart checked conflicts creates stored).1,
      inv.disjoint.2.put decoded fun _ _ stored => (inv.apart checked conflicts creates stored).2⟩

theorem Cluster.Halves.step (checked : DualChecked config) (inv : cluster.Halves root config)
    (acquires : label.Acquires) (conflicts : cluster.ListsConflicts root label)
    (taken : Cluster.step root (attempt config) cluster label = some target) :
    target.Halves root config where
  within := by
    apply inv.within.step (attempt_safe config) _ _ taken
    · intro sn sn6 key subnets paired path decoded
      rw [keySubnets_of_paired checked paired path] at decoded
      obtain rfl := Option.some.inj decoded
      exact paired
    · intro i subnets key creates
      exact (inv.allocated creates).paired checked
  noPrevious i := by
    rw [(node_step taken i).2]
    exact inv.noPrevious i
  distinct i j same := by
    simp only [(node_step taken _).1] at same
    exact inv.distinct same
  owned := inv.owned_step checked acquires taken
  disjoint := inv.disjoint_step checked conflicts taken

theorem Cluster.Halves.listsConflicts (checked : DualChecked config)
    (inv : cluster.Halves root config)
    (taken : Cluster.step root (attempt config) cluster label = some target)
    (disjoint : target.FamiliesDisjoint root) : cluster.ListsConflicts root label := by
  intro i subnets key creates key' subnets' stored overlap
  obtain ⟨id, written⟩ := etcd_of_creates inv.within.lawful taken creates
  have decoded := inv.keySubnets_of_creates checked creates
  have absent := creates.absent
  have other : key' ≠ key := by
    rintro rfl
    obtain ⟨⟨row, found⟩, _⟩ := stored
    rw [found] at absent
    contradiction
  have storedThere : Stored root target.etcd key' subnets' := by
    rw [written]
    exact stored.put_of_ne other
  have storedHere : Stored root target.etcd key subnets := by
    rw [written]
    exact ⟨⟨_, by rw [Store.get?_put, if_pos rfl]⟩, isBelow_of_subnetPath creates.path, decoded⟩
  rcases overlap with overlap4 | overlap6
  · exact absurd (disjoint.1 key key' _ _ storedHere storedThere other.symm) overlap4
  · exact absurd (disjoint.2 key key' _ _ storedHere storedThere other.symm) overlap6

end Halves

structure Cluster.Fresh (cluster : Cluster ι) : Prop where
  registry : cluster.etcd = Store.empty
  nodes : ∀ i, (cluster.nodes i).Fresh
  noPrevious : ∀ i, (cluster.nodes i).manager.previousSubnet.empty = true
  distinct : Function.Injective fun i => (cluster.nodes i).attrs.publicIP

omit [DecidableEq ι] in
theorem Cluster.Fresh.halves {root : String} {config : Config} {cluster : Cluster ι}
    (fresh : cluster.Fresh) : cluster.Halves root config := by
  have notStored : ∀ {key : String} {subnets : IP4Net × IP6Net},
      ¬ Stored root cluster.etcd key subnets := by
    rintro key subnets ⟨⟨row, found⟩, _⟩
    rw [fresh.registry] at found
    contradiction
  constructor
  case within =>
    constructor
    case lawful => exact fun i => (fresh.nodes i).lawful
    case stored => exact fun key subnets stored => absurd stored notStored
    case claims => exact fun i subnets claims => absurd claims ((fresh.nodes i).not_claims subnets)
  case noPrevious => exact fresh.noPrevious
  case distinct => exact fresh.distinct
  case owned =>
    intro i subnets key isPending
    rw [(fresh.nodes i).pending_eq_nil] at isPending
    contradiction
  case disjoint =>
    exact ⟨fun _ _ _ _ stored => absurd stored notStored,
      fun _ _ _ _ stored => absurd stored notStored⟩

/-- Under an accepted configuration with both families, the stored leases are
disjoint in each family all along exactly when every executed create has listed the
leases that overlap its subnets. -/
theorem dual_allocation_disjoint_iff {raw config : Config} {root : String} {initial : Cluster ι}
    {labels : List (Label ι)} (accepted : checkNetworkConfig raw = .ok config)
    (ipv4 : config.enableIPv4 = true) (ipv6 : config.enableIPv6 = true) (grouped : Grouped config)
    (fresh : initial.Fresh) (acquiring : ∀ label ∈ labels, label.Acquires) :
    Throughout (Cluster.step root (attempt config)) (Cluster.FamiliesDisjoint root) initial labels ↔
      Along (Cluster.step root (attempt config))
        (fun cluster label => (Cluster.step root (attempt config) cluster label).isSome →
          cluster.ListsConflicts root label)
        initial labels := by
  have checks := checkNetworkConfig_eq_ok accepted
  have checked : DualChecked config := ⟨checks.1 ipv4, checks.2 ipv6, ipv6, grouped⟩
  exact throughout_iff_along (fun _ inv => inv.disjoint)
    (fun _ _ _ inv acquires conflicts taken => inv.step checked acquires conflicts taken)
    (fun _ _ _ inv _ taken disjoint => inv.listsConflicts checked taken disjoint)
    fresh.halves (along_of_forall_mem acquiring)

def dualStack : Config :=
  { enableIPv4 := true, enableIPv6 := true
    network := ⟨0x0a030000, 16⟩, ipv6Network := ⟨some (0xfc00 * 2 ^ 112), 48⟩
    subnetMin := 0x0a030100, subnetMax := 0x0a030100
    ipv6SubnetMin := some (0xfc00 * 2 ^ 112 + 2 ^ 64)
    ipv6SubnetMax := some (0xfc00 * 2 ^ 112 + 2 * 2 ^ 64)
    subnetLen := 24, ipv6SubnetLen := 64 }

theorem grouped_dualStack : Grouped dualStack := by
  intro lowest highest ip6 isLowest isHighest low high
  cases isLowest
  cases isHighest
  exact groupForm_of_le (le_trans (by decide) low) (lt_of_le_of_lt high (by decide))

theorem fresh_twoNodes : (twoNodes ⟨0, 0⟩).Fresh :=
  ⟨rfl, fun _ => ⟨rfl, rfl⟩, fun _ => rfl, by decide⟩

theorem dual_allocation_disjoint_alone :
    Throughout (Cluster.step "/coreos.com/network" (attempt dualStack))
      (Cluster.FamiliesDisjoint "/coreos.com/network") (twoNodes ⟨0, 0⟩)
      [.acquire false, .answer false (.calm 0), .answer false (.calm 0), .answer false (.calm 0),
        .answer false (.calm 0)] := by
  refine (dual_allocation_disjoint_iff
    (show checkNetworkConfig dualStack = .ok dualStack by decide) rfl rfl
    grouped_dualStack fresh_twoNodes ?_).mpr ?_
  · intro label mem
    simp only [List.mem_cons, List.not_mem_nil, or_false] at mem
    rcases mem with rfl | rfl | rfl | rfl | rfl <;> trivial
  · -- The registry is empty before each of the steps.
    have alone : Along (Cluster.step "/coreos.com/network" (attempt dualStack))
        (fun cluster _ => cluster.etcd.rows.isEmpty) (twoNodes ⟨0, 0⟩)
        [.acquire false, .answer false (.calm 0), .answer false (.calm 0), .answer false (.calm 0),
          .answer false (.calm 0)] := by
      decide +kernel
    apply alone.mono
    rintro cluster label nothing - i subnets key - key' subnets' ⟨⟨row, found⟩, _⟩
    have mem := Store.mem_rows_iff.mpr ((Store.key_of_get? found).symm ▸ found)
    rw [List.isEmpty_iff.mp nothing] at mem
    contradiction

/-- Two nodes list the empty registry, pick the one IPv4 subnet and different IPv6
subnets, and both creates succeed. -/
theorem dual_allocation_shares_ipv4 :
    checkNetworkConfig dualStack = .ok dualStack ∧ (twoNodes ⟨0, 0⟩).Fresh ∧
      ∃ target, run (Cluster.step "/coreos.com/network" (attempt dualStack)) (twoNodes ⟨0, 0⟩)
          [.acquire false, .answer false (.calm 0), .acquire true, .answer true (.calm 0),
            .answer false (.calm 0), .answer false (.calm 0), .answer false (.calm 0),
            .answer true (.calm 0), .answer true (.calm 1), .answer true (.calm 0)] = some target ∧
        ¬ IPv4Disjoint "/coreos.com/network" target.etcd := by
  refine ⟨by decide, fresh_twoNodes, ?_⟩
  have both : (run (Cluster.step "/coreos.com/network" (attempt dualStack)) (twoNodes ⟨0, 0⟩)
      [.acquire false, .answer false (.calm 0), .acquire true, .answer true (.calm 0),
        .answer false (.calm 0), .answer false (.calm 0), .answer false (.calm 0),
        .answer true (.calm 0), .answer true (.calm 1), .answer true (.calm 0)]).map (fun cluster =>
      (cluster.etcd.get? "/coreos.com/network/subnets/10.3.1.0-24&fc00:0:0:1::-64").isSome &&
        (cluster.etcd.get? "/coreos.com/network/subnets/10.3.1.0-24&fc00:0:0:2::-64").isSome) =
      some true := by
    decide +kernel
  obtain ⟨target, reached, stored⟩ := Option.map_eq_some_iff.mp both
  obtain ⟨first, second⟩ := (Bool.and_eq_true _ _).mp stored
  refine ⟨target, reached, fun disjoint => ?_⟩
  have apart := disjoint _ _ (⟨0x0a030100, 24⟩, _) (⟨0x0a030100, 24⟩, _)
    ⟨Option.isSome_iff_exists.mp first, by decide, rfl⟩
    ⟨Option.isSome_iff_exists.mp second, by decide, rfl⟩ (by decide)
  exact Set.disjoint_left.mp apart (show (0x0a030100 : IP4) ∈ IP4Net.addresses ⟨0x0a030100, 24⟩ from rfl)
    rfl

end Flannel.Etcd
