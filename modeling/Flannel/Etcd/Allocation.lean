import Flannel.Etcd.Cluster

/-!
# Disjoint allocation

With IPv4 only, all keys name networks of one length in network form. Two such networks are equal
or disjoint, and equal ones have the same key, so the guard of the create transaction excludes
every overlap.
-/

namespace Flannel.Etcd

open Ip Net Leases Subnet Program Transition
open KeyValue

/-! ## The stored subnets -/

def Stored (root : String) (etcd : EtcdStore) (key : String) (subnets : IP4Net × IP6Net) : Prop :=
  (∃ row, etcd.get? key = some row) ∧ isBelow (subnetsDir root) key = true ∧
    keySubnets key = some subnets

/-- The stored leases are pairwise disjoint in what `addresses` reads off them. -/
def StoredDisjoint {α : Type} (root : String) (etcd : EtcdStore)
    (addresses : IP4Net × IP6Net → Set α) : Prop :=
  ∀ key key' subnets subnets', Stored root etcd key subnets → Stored root etcd key' subnets' →
    key ≠ key' → Disjoint (addresses subnets) (addresses subnets')

def IPv4Disjoint (root : String) (etcd : EtcdStore) : Prop :=
  StoredDisjoint root etcd fun subnets => subnets.1.addresses

def IPv6Disjoint (root : String) (etcd : EtcdStore) : Prop :=
  StoredDisjoint root etcd fun subnets => subnets.2.addresses

section Stored

variable {α : Type} {root key key' : String} {etcd etcd' : EtcdStore}
variable {subnets subnets' : IP4Net × IP6Net} {record : Record}
variable {addresses : IP4Net × IP6Net → Set α}

theorem stored_of_delete (stored : Stored root (etcd.delete key) key' subnets) :
    Stored root etcd key' subnets := by
  rcases stored with ⟨⟨row, found⟩, below, decoded⟩
  exact ⟨⟨row, (Store.get?_delete_eq_some found).2⟩, below, decoded⟩

theorem stored_of_put (stored : Stored root (etcd.put key record) key' subnets) :
    key' = key ∨ Stored root etcd key' subnets := by
  rcases stored with ⟨⟨row, found⟩, below, decoded⟩
  rcases Store.get?_put_eq_some found with ⟨here, _⟩ | ⟨_, before⟩
  · exact .inl here
  · exact .inr ⟨⟨row, before⟩, below, decoded⟩

theorem stored_of_put_of_stored {row : KV} (present : etcd.get? key = some row)
    (stored : Stored root (etcd.put key record) key' subnets) : Stored root etcd key' subnets := by
  rcases stored_of_put stored with rfl | before
  · exact ⟨⟨row, present⟩, stored.2⟩
  · exact before

theorem Stored.put_of_ne (stored : Stored root etcd key' subnets) (other : key' ≠ key) :
    Stored root (etcd.put key record) key' subnets := by
  rcases stored with ⟨⟨row, found⟩, below, decoded⟩
  refine ⟨⟨row, ?_⟩, below, decoded⟩
  rw [Store.get?_put, if_neg other]
  exact found

theorem StoredDisjoint.mono (disjoint : StoredDisjoint root etcd addresses)
    (fewer : ∀ key subnets, Stored root etcd' key subnets → Stored root etcd key subnets) :
    StoredDisjoint root etcd' addresses := by
  intro key key' subnets subnets' stored stored' other
  exact disjoint key key' subnets subnets' (fewer _ _ stored) (fewer _ _ stored') other

theorem StoredDisjoint.put (disjoint : StoredDisjoint root etcd addresses)
    (decoded : keySubnets key = some subnets)
    (apart : ∀ key' subnets', Stored root etcd key' subnets' →
      Disjoint (addresses subnets) (addresses subnets')) :
    StoredDisjoint root (etcd.put key record) addresses := by
  intro first second firstSubnets secondSubnets storedFirst storedSecond other
  have here : ∀ {other}, Stored root (etcd.put key record) key other → other = subnets := by
    intro other stored
    exact Option.some.inj (stored.2.2.symm.trans decoded)
  rcases stored_of_put storedFirst with rfl | beforeFirst
  · rcases stored_of_put storedSecond with rfl | beforeSecond
    · contradiction
    · rw [here storedFirst]
      exact apart second secondSubnets beforeSecond
  · rcases stored_of_put storedSecond with rfl | beforeSecond
    · rw [here storedSecond]
      exact (apart first firstSubnets beforeFirst).symm
    · exact disjoint first second _ _ beforeFirst beforeSecond other

end Stored

variable {ι : Type} [DecidableEq ι]

structure Cluster.Within (root : String)
    (pick : LocalManager → List Lease → IP4Net → IP6Net → Prop) (W : IP4Net → IP6Net → Prop)
    (cluster : Cluster ι) : Prop where
  lawful : ∀ i, (cluster.nodes i).Lawful pick
  stored : ∀ key subnets, Stored root cluster.etcd key subnets →
    ∃ sn sn6, W sn sn6 ∧ subnetPath root sn sn6 = some key
  claims : ∀ i subnets, (cluster.nodes i).Claims subnets → W subnets.1 subnets.2

section Within

variable {root : String}
variable {acquisition : LocalManager → LeaseAttrs → Action (Except Error Lease)}
variable {pick : LocalManager → List Lease → IP4Net → IP6Net → Prop}
variable {W : IP4Net → IP6Net → Prop} {cluster target : Cluster ι} {label : Label ι}

/-- A node that lists, claims or creates stays within `W`, if keys of `W` read back
into `W` and only subnets of `W` are created. -/
theorem Cluster.Within.step
    (keeps : ∀ m attrs trail, Safe (leasing attrs (pick m)) trail (acquisition m attrs))
    (reads : ∀ sn sn6 key subnets, W sn sn6 → subnetPath root sn sn6 = some key →
      keySubnets key = some subnets → W subnets.1 subnets.2)
    (created : ∀ i subnets key, cluster.Creates root label i subnets key →
      W subnets.1 subnets.2)
    (within : cluster.Within root pick W)
    (taken : Cluster.step root acquisition cluster label = some target) :
    target.Within root pick W where
  lawful := lawful_step keeps within.lawful taken
  stored := by
    intro key subnets stored
    have wrote := wrote_step within.lawful taken
    generalize target.etcd = etcd at wrote stored
    cases wrote with
    | nothing => exact within.stored key subnets stored
    | expired => exact within.stored key subnets (stored_of_delete stored)
    | deleted => exact within.stored key subnets (stored_of_delete stored)
    | @created i picked key' id creates =>
      rcases stored_of_put stored with rfl | before
      · exact ⟨_, _, created i picked key creates, creates.path⟩
      · exact within.stored key subnets before
    | @updated i written key' id isPending path =>
      rcases stored_of_put stored with rfl | before
      · exact ⟨_, _, within.claims i written (.inr (.inl isPending)), path⟩
      · exact within.stored key subnets before
  claims := by
    intro i subnets claims
    rcases claims_step keeps within.lawful taken claims with before | ⟨lists, _⟩ | ⟨key, creates⟩
    · exact within.claims i subnets before
    · obtain ⟨row, found, below, decoded, _⟩ := lists
      obtain ⟨sn, sn6, shaped, path⟩ := within.stored row.key subnets ⟨⟨row, found⟩, below, decoded⟩
      exact reads sn sn6 row.key subnets shaped path decoded
    · exact created i subnets key creates

end Within

/-! ## IPv4 only -/

structure Uniform (config : Config) (sn : IP4Net) (sn6 : IP6Net) : Prop where
  form : sn.InNetworkForm
  length : sn.prefixLen = config.subnetLen
  single : sn6.empty = true

variable {sn : IP4Net}

theorem iterate_next_inNetworkForm (valid : sn.prefixLen ≤ 32)
    (form : sn.InNetworkForm) (steps : Nat) : (IP4Net.next^[steps] sn).InNetworkForm := by
  induction steps with
  | zero => exact form
  | succ steps ih =>
    rw [Function.iterate_succ_apply']
    exact IP4Net.next_inNetworkForm (by rw [prefixLen_iterate_next]; exact valid) ih

theorem Free.form {config : Config} {leases : List Lease} (checked : IPv4Checked config)
    (free : Free ⟨config.subnetMin, config.subnetLen⟩ config.subnetMax leases sn) :
    sn.InNetworkForm ∧ sn.prefixLen = config.subnetLen := by
  have valid : config.subnetLen ≤ 32 := le_trans checked.len.2 (by decide)
  obtain ⟨steps, rfl⟩ := free.reached
  refine ⟨iterate_next_inNetworkForm valid ?_ steps, prefixLen_iterate_next _ steps⟩
  exact (IP4Net.inNetworkForm_iff valid).mpr checked.minAligned

theorem isSubnetConfigCompat_length {config : Config}
    (compat : isSubnetConfigCompat config sn) : sn.prefixLen = config.subnetLen := by
  rw [isSubnetConfigCompat] at compat
  split_ifs at compat
  exact beq_iff_eq.mp compat

theorem isConfigCompat_single {config : Config} {sn6 : IP6Net}
    (single : config.enableIPv6 = false) (compat : isConfigCompat config sn sn6 = some true) :
    sn.prefixLen = config.subnetLen ∧ sn6.empty := by
  rw [isConfigCompat] at compat
  split_ifs at compat with ipv4
  · refine ⟨isSubnetConfigCompat_length ipv4, ?_⟩
    simpa [isIPv6SubnetConfigCompat, single] using compat
  · contradiction

theorem Chosen.uniform {m : LocalManager} {config : Config} {leases : List Lease}
    {sn6 : IP6Net} (checked : IPv4Checked config) (single : config.enableIPv6 = false)
    (previous : m.previousSubnet.InNetworkForm) (chosen : Chosen m config leases sn sn6) :
    Uniform config sn sn6 := by
  cases chosen with
  | previous _ _ compat =>
    obtain ⟨length, isEmpty⟩ := isConfigCompat_single single compat
    exact ⟨previous, length, isEmpty⟩
  | allocated allocated =>
    obtain ⟨form, length⟩ := allocated.ipv4.form checked
    exact ⟨form, length, by rw [allocated.single single]; rfl⟩

theorem keySubnets_of_uniform {config : Config} {root key : String} {sn6 : IP6Net}
    (checked : IPv4Checked config) (uniform : Uniform config sn sn6)
    (path : subnetPath root sn sn6 = some key) : keySubnets key = some (sn, IP6Net.zero) := by
  have readable : Readable sn sn6 := by
    refine ⟨?_, fun notEmpty => absurd uniform.single (by rw [notEmpty]; decide)⟩
    rw [uniform.length]
    exact Nat.lt_of_le_of_lt checked.len.2 (by decide)
  rw [keySubnets_subnetPath readable path, if_pos uniform.single]

structure Cluster.Begins (root : String) (config : Config) (cluster : Cluster ι) : Prop where
  idle : ∀ i, (cluster.nodes i).task = .idle
  held : ∀ i lease, (cluster.nodes i).held = some lease →
    lease.attrs = (cluster.nodes i).attrs ∧ Uniform config lease.subnet lease.ipv6Subnet
  previous : ∀ i, (cluster.nodes i).manager.previousSubnet.InNetworkForm
  registry : ∀ key subnets, Stored root cluster.etcd key subnets →
    ∃ sn, Uniform config sn IP6Net.zero ∧ subnetPath root sn IP6Net.zero = some key

omit [DecidableEq ι] in
theorem Cluster.Begins.within {root : String} {config : Config} {cluster : Cluster ι}
    {pick : LocalManager → List Lease → IP4Net → IP6Net → Prop}
    (begins : cluster.Begins root config) : cluster.Within root pick (Uniform config) where
  lawful i := by
    refine ⟨fun lease isHeld => (begins.held i lease isHeld).1, fun program trail runs => ?_⟩
    rw [begins.idle i] at runs
    contradiction
  stored key subnets stored := by
    obtain ⟨sn, uniform, path⟩ := begins.registry key subnets stored
    exact ⟨sn, IP6Net.zero, uniform, path⟩
  claims i subnets claims := by
    rcases claims with isHeld | isPending | isWritten
    · obtain ⟨lease, inHeld, rfl⟩ := List.mem_map.mp isHeld
      exact (begins.held i lease (Option.mem_toList.mp inHeld)).2
    · rw [Node.pending, begins.idle i] at isPending
      contradiction
    · rw [Node.written, begins.idle i] at isWritten
      contradiction

def attempt (config : Config) (m : LocalManager) (attrs : LeaseAttrs) :
    Action (Except Error Lease) :=
  tryAcquireLease m config attrs.publicIP attrs

theorem attempt_safe (config : Config) (m : LocalManager) (attrs : LeaseAttrs) (trail : Trail) :
    Safe (leasing attrs (Chosen m config)) trail (attempt config m attrs) :=
  tryAcquireLease_safe m config trail fun _ _ _ chosen => chosen

structure Cluster.AllUniform (root : String) (config : Config) (cluster : Cluster ι) : Prop where
  within : cluster.Within root (fun m => Chosen m config) (Uniform config)
  previous : ∀ i, (cluster.nodes i).manager.previousSubnet.InNetworkForm

section SingleStack

variable {root : String} {config : Config} {cluster target : Cluster ι} {label : Label ι}

theorem Cluster.AllUniform.step (checked : IPv4Checked config) (single : config.enableIPv6 = false)
    (inv : cluster.AllUniform root config)
    (taken : Cluster.step root (attempt config) cluster label = some target) :
    target.AllUniform root config where
  within := by
    apply inv.within.step (attempt_safe config) _ _ taken
    · intro sn sn6 key subnets uniform path decoded
      rw [keySubnets_of_uniform checked uniform path] at decoded
      obtain rfl := Option.some.inj decoded
      exact ⟨uniform.form, uniform.length, rfl⟩
    · intro i subnets key creates
      exact (pick_of_creates inv.within.lawful creates).uniform checked single (inv.previous i)
  previous i := by
    rw [(node_step taken i).2]
    exact inv.previous i

end SingleStack

def singleStack : Config :=
  { enableIPv4 := true, enableIPv6 := false
    network := ⟨0x0a030000, 16⟩, ipv6Network := IP6Net.zero
    subnetMin := 0x0a030100, subnetMax := 0x0a03ff00
    ipv6SubnetMin := none, ipv6SubnetMax := none
    subnetLen := 24, ipv6SubnetLen := 0 }

end Flannel.Etcd
