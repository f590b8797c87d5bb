import Flannel.Etcd.Allocation

/-!
# Whose record an update overwrites

`updateSubnet` is an unconditional write. As long as no node creates a key that another node still
claims, a claimed key holds a record of the claiming node or nothing. Once it has expired and
another node has created it, the claimant's next update takes the record over.
-/

namespace Flannel.Etcd

open Ip Leases Subnet Program Transition
open KeyValue

def Record.OwnedBy (record : Record) (node : Node) : Prop :=
  ∃ attrs, record.value = some attrs ∧ attrs.publicIP = node.attrs.publicIP

def Canonical (root : String) (sn : IP4Net) (sn6 : IP6Net) : Prop :=
  ∀ key subnets, subnetPath root sn sn6 = some key → keySubnets key = some subnets →
    subnetPath root subnets.1 subnets.2 = some key

theorem Canonical.reads {root key : String} {sn : IP4Net} {sn6 : IP6Net}
    {subnets : IP4Net × IP6Net} (canonical : Canonical root sn sn6)
    (path : subnetPath root sn sn6 = some key) (decoded : keySubnets key = some subnets) :
    Canonical root subnets.1 subnets.2 := by
  intro key' subnets' path' decoded'
  have same : subnetPath root subnets.1 subnets.2 = some key := canonical key subnets path decoded
  obtain rfl := Option.some.inj (same.symm.trans path')
  obtain rfl := Option.some.inj (decoded.symm.trans decoded')
  exact same

variable {ι : Type} [DecidableEq ι]

/-- An update that the step executes finds no record, or one of its own node. -/
def Cluster.UpdatesOwn (root : String) (cluster : Cluster ι) (label : Label ι) : Prop :=
  ∀ i surroundings sn sn6 attrs ttl asof key row, label = .answer i surroundings →
    surroundings.fate ≠ .refused →
    (cluster.nodes i).asks = some (.updateSubnet sn sn6 attrs ttl asof) →
    subnetPath root sn sn6 = some key → cluster.etcd.get? key = some row →
    row.value.OwnedBy (cluster.nodes i)

/-- A create that the step executes is of canonical subnets, and no other node claims its key. -/
def Cluster.RespectsClaims (root : String) (cluster : Cluster ι) (label : Label ι) : Prop :=
  ∀ i subnets key, cluster.Creates root label i subnets key →
    Canonical root subnets.1 subnets.2 ∧
      ∀ j subnets', (cluster.nodes j).Claims subnets' →
        subnetPath root subnets'.1 subnets'.2 = some key → j = i

structure Cluster.Owned (root : String) (cluster : Cluster ι) : Prop where
  within : cluster.Within root (fun _ _ _ _ => True) (Canonical root)
  distinct : Function.Injective fun i => (cluster.nodes i).attrs.publicIP
  owned : ∀ i subnets key row, (cluster.nodes i).Claims subnets →
    subnetPath root subnets.1 subnets.2 = some key → cluster.etcd.get? key = some row →
    row.value.OwnedBy (cluster.nodes i)
  apart : ∀ i j subnets subnets' key, (cluster.nodes i).Claims subnets →
    (cluster.nodes j).Claims subnets' → subnetPath root subnets.1 subnets.2 = some key →
    subnetPath root subnets'.1 subnets'.2 = some key → i = j

section Owned

variable {root : String} {cluster target : Cluster ι} {label : Label ι}
variable {subnets : IP4Net × IP6Net} {key : String}

theorem acquireLease_keeps (m : LocalManager) (attrs : LeaseAttrs) (trail : Trail) :
    Safe (leasing attrs fun _ _ _ => True) trail (acquireLease m attrs) :=
  acquireLease_safe m trail fun _ _ _ _ _ => trivial

omit [DecidableEq ι] in
theorem Cluster.Owned.eq_of_ownedBy (inv : cluster.Owned root) {record : Record} {i j : ι}
    (own : record.OwnedBy (cluster.nodes i)) (own' : record.OwnedBy (cluster.nodes j)) : i = j := by
  obtain ⟨attrs, value, publicIP⟩ := own
  obtain ⟨attrs', value', publicIP'⟩ := own'
  obtain rfl := Option.some.inj (value.symm.trans value')
  exact inv.distinct (publicIP.symm.trans publicIP')

theorem Cluster.Owned.claim_cases (inv : cluster.Owned root)
    (taken : Cluster.step root acquireLease cluster label = some target) {i : ι}
    (claims : (target.nodes i).Claims subnets)
    (path : subnetPath root subnets.1 subnets.2 = some key) :
    (cluster.nodes i).Claims subnets ∨
      (∃ row, cluster.etcd.get? key = some row ∧ row.value.OwnedBy (cluster.nodes i) ∧
        target.etcd = cluster.etcd) ∨
      cluster.Creates root label i subnets key := by
  rcases claims_step acquireLease_keeps inv.within.lawful taken claims with
    before | ⟨lists, same⟩ | ⟨key', creates⟩
  · exact .inl before
  · obtain ⟨row, found, below, decoded, own⟩ := lists
    obtain ⟨sn, sn6, canonical, stored⟩ :=
      inv.within.stored row.key subnets ⟨⟨row, found⟩, below, decoded⟩
    obtain rfl := Option.some.inj (path.symm.trans (canonical row.key subnets stored decoded))
    exact .inr (.inl ⟨row, found, own, same⟩)
  · obtain rfl := Option.some.inj (path.symm.trans creates.path)
    exact .inr (.inr creates)

theorem Cluster.Owned.owned_step (inv : cluster.Owned root)
    (respects : cluster.RespectsClaims root label)
    (taken : Cluster.step root acquireLease cluster label = some target) {i : ι} {row : KV}
    (claims : (target.nodes i).Claims subnets)
    (path : subnetPath root subnets.1 subnets.2 = some key)
    (found : target.etcd.get? key = some row) : row.value.OwnedBy (target.nodes i) := by
  have sameAttrs : (target.nodes i).attrs = (cluster.nodes i).attrs := (node_step taken i).1
  suffices row.value.OwnedBy (cluster.nodes i) by
    rw [Record.OwnedBy, sameAttrs]
    exact this
  rcases inv.claim_cases taken claims path with before | ⟨row', found', own, same⟩ | creates
  · have wrote := wrote_step inv.within.lawful taken
    generalize target.etcd = etcd at wrote found
    cases wrote with
    | nothing => exact inv.owned i subnets key row before path found
    | expired =>
      exact inv.owned i subnets key row before path (Store.get?_delete_eq_some found).2
    | deleted =>
      exact inv.owned i subnets key row before path (Store.get?_delete_eq_some found).2
    | @created j picked key' id creates =>
      rcases Store.get?_put_eq_some found with ⟨rfl, rfl⟩ | ⟨_, old⟩
      · obtain rfl := (respects j picked key creates).2 i subnets before path
        exact ⟨_, rfl, rfl⟩
      · exact inv.owned i subnets key row before path old
    | @updated j written key' id isPending path' =>
      rcases Store.get?_put_eq_some found with ⟨rfl, rfl⟩ | ⟨_, old⟩
      · obtain rfl := inv.apart i j subnets written key before (.inr (.inl isPending)) path path'
        exact ⟨_, rfl, rfl⟩
      · exact inv.owned i subnets key row before path old
  · rw [same, found'] at found
    obtain rfl := Option.some.inj found
    exact own
  · obtain ⟨id, written⟩ := etcd_of_creates inv.within.lawful taken creates
    rw [written, Store.get?_put, if_pos rfl] at found
    obtain rfl := Option.some.inj found
    exact ⟨_, rfl, rfl⟩

theorem Cluster.Owned.eq_of_listed (inv : cluster.Owned root)
    (taken : Cluster.step root acquireLease cluster label = some target) {i j : ι}
    {row : KV} (found : cluster.etcd.get? key = some row)
    (own : row.value.OwnedBy (cluster.nodes i)) (claims : (target.nodes j).Claims subnets)
    (path : subnetPath root subnets.1 subnets.2 = some key) : i = j := by
  rcases inv.claim_cases taken claims path with before | ⟨row', found', own', _⟩ | creates
  · exact inv.eq_of_ownedBy own (inv.owned j subnets key row before path found)
  · obtain rfl := Option.some.inj (found.symm.trans found')
    exact inv.eq_of_ownedBy own own'
  · have absent := creates.absent
    rw [found] at absent
    contradiction

theorem Cluster.Owned.eq_of_creates (inv : cluster.Owned root)
    (respects : cluster.RespectsClaims root label)
    (taken : Cluster.step root acquireLease cluster label = some target) {i j : ι}
    {picked : IP4Net × IP6Net} (creates : cluster.Creates root label i picked key)
    (claims : (target.nodes j).Claims subnets)
    (path : subnetPath root subnets.1 subnets.2 = some key) : i = j := by
  rcases inv.claim_cases taken claims path with before | ⟨row, found, _, _⟩ | creates'
  · exact ((respects i picked key creates).2 j subnets before path).symm
  · have absent := creates.absent
    rw [found] at absent
    contradiction
  · obtain ⟨surroundings, rfl, _⟩ := creates.executed
    obtain ⟨surroundings', same, _⟩ := creates'.executed
    cases same
    rfl

theorem Cluster.Owned.step (inv : cluster.Owned root)
    (respects : cluster.RespectsClaims root label)
    (taken : Cluster.step root acquireLease cluster label = some target) : target.Owned root where
  within :=
    inv.within.step acquireLease_keeps (fun _ _ _ _ canonical => canonical.reads)
      (fun i subnets key creates => (respects i subnets key creates).1) taken
  distinct i j same := by
    simp only [(node_step taken _).1] at same
    exact inv.distinct same
  owned _ _ _ _ claims path found := inv.owned_step respects taken claims path found
  apart := by
    intro i j subnets subnets' key claims claims' path path'
    rcases inv.claim_cases taken claims path with before | ⟨row, found, own, _⟩ | creates
    · rcases inv.claim_cases taken claims' path' with before' | ⟨row, found, own, _⟩ | creates
      · exact inv.apart i j subnets subnets' key before before' path path'
      · exact (inv.eq_of_listed taken found own claims path).symm
      · exact (inv.eq_of_creates respects taken creates claims path).symm
    · exact inv.eq_of_listed taken found own claims' path'
    · exact inv.eq_of_creates respects taken creates claims' path'

omit [DecidableEq ι] in
theorem Cluster.Owned.updatesOwn (inv : cluster.Owned root) (label : Label ι) :
    cluster.UpdatesOwn root label := by
  intro i surroundings sn sn6 attrs ttl asof key row _ _ asks path found
  obtain ⟨rest, trail, runs⟩ := Node.running_of_asks asks
  refine inv.owned i (sn, sn6) key row (.inr (.inl ?_)) path found
  rw [Node.pending, runs]
  exact ((inv.within.lawful i).guarantee runs).2

end Owned

/-- In every run of `AcquireLease` and `RenewLease` whose creates respect the claims of
the other nodes, an update finds no record or a record of its own node. -/
theorem updates_own_records {root : String} {initial : Cluster ι} {labels : List (Label ι)}
    (fresh : ∀ i, (initial.nodes i).Fresh)
    (distinct : Function.Injective fun i => (initial.nodes i).attrs.publicIP)
    (registry : ∀ key subnets, Stored root initial.etcd key subnets →
      subnetPath root subnets.1 subnets.2 = some key)
    (respects : Along (Cluster.step root acquireLease) (Cluster.RespectsClaims root) initial labels) :
    Along (Cluster.step root acquireLease) (Cluster.UpdatesOwn root) initial labels := by
  have start : initial.Owned root := by
    constructor
    case within =>
      constructor
      case lawful => exact fun i => (fresh i).lawful
      case stored =>
        intro key subnets stored
        refine ⟨subnets.1, subnets.2, ?_, registry key subnets stored⟩
        intro key' subnets' path decoded
        obtain rfl := Option.some.inj ((registry key subnets stored).symm.trans path)
        obtain rfl := Option.some.inj (stored.2.2.symm.trans decoded)
        exact path
      case claims => exact fun i subnets claims => absurd claims ((fresh i).not_claims subnets)
    case distinct => exact distinct
    case owned => exact fun i subnets _ _ claims => absurd claims ((fresh i).not_claims subnets)
    case apart => exact fun i _ subnets _ _ claims => absurd claims ((fresh i).not_claims subnets)
  exact along_of_invariant (fun _ label inv => inv.updatesOwn label)
    (fun _ _ _ inv respects taken => inv.step respects taken) start respects

def configured : Surroundings :=
  { Surroundings.calm 0 with config := .ok singleStack }

def reserved : Cluster Bool :=
  { twoNodes ⟨0, 0⟩ with
    etcd := Store.empty.put "/coreos.com/network/subnets/10.3.5.0-24"
      ⟨some { LeaseAttrs.zero with publicIP := 1 }, 1⟩ }

def Op.isCreate : Op → Bool
  | .createSubnet .. => true
  | _ => false

theorem updates_own_reserved :
    Along (Cluster.step "/coreos.com/network" acquireLease) (Cluster.UpdatesOwn "/coreos.com/network")
      reserved
      [.acquire false, .answer false configured, .answer false configured,
        .answer false configured, .renew false, .answer false configured] := by
  apply updates_own_records (fun _ => ⟨rfl, rfl⟩) (by decide)
  · rintro key subnets ⟨⟨row, found⟩, below, decoded⟩
    rcases Store.get?_put_eq_some found with ⟨rfl, _⟩ | ⟨_, before⟩
    · obtain rfl : (⟨0x0a030500, 24⟩, IP6Net.zero) = subnets := Option.some.inj decoded
      decide
    · contradiction
  · -- Nothing is created on the way.
    have reuses : Along (Cluster.step "/coreos.com/network" acquireLease)
        (fun cluster _ => ∀ i, (cluster.nodes i).asks.any Op.isCreate = false) reserved
        [.acquire false, .answer false configured, .answer false configured,
          .answer false configured, .renew false, .answer false configured] := by
      decide +kernel
    apply reuses.mono
    intro cluster label nothing i subnets key creates
    obtain ⟨attrs, ttl, asks⟩ := creates.asks
    have := nothing i
    rw [asks] at this
    contradiction

/-- A node's lease expires and another node creates the same key; the first node's
renewal is then about to overwrite the record of the second. -/
theorem renewal_takes_over :
    ∃ target, run (Cluster.step "/coreos.com/network" acquireLease) (twoNodes ⟨0x0a030500, 24⟩)
        [.acquire false, .answer false configured, .answer false configured,
          .answer false configured, .expire "/coreos.com/network/subnets/10.3.5.0-24",
          .acquire true, .answer true configured, .answer true configured,
          .answer true configured, .renew false] = some target ∧
      ¬ target.UpdatesOwn "/coreos.com/network" (.answer false configured) := by
  have facts : (run (Cluster.step "/coreos.com/network" acquireLease) (twoNodes ⟨0x0a030500, 24⟩)
      [.acquire false, .answer false configured, .answer false configured,
        .answer false configured, .expire "/coreos.com/network/subnets/10.3.5.0-24",
        .acquire true, .answer true configured, .answer true configured,
        .answer true configured, .renew false]).map (fun cluster =>
      ((cluster.nodes false).asks, (cluster.nodes false).attrs.publicIP,
        cluster.etcd.get? "/coreos.com/network/subnets/10.3.5.0-24")) =
      some (some (.updateSubnet ⟨0x0a030500, 24⟩ IP6Net.zero
          { LeaseAttrs.zero with publicIP := 1 } subnetTTL 0), 1,
        some ⟨"/coreos.com/network/subnets/10.3.5.0-24",
          ⟨some { LeaseAttrs.zero with publicIP := 2 }, 1⟩, 3⟩) := by
    decide +kernel
  obtain ⟨target, reached, values⟩ := Option.map_eq_some_iff.mp facts
  simp only [Prod.mk.injEq] at values
  obtain ⟨asks, publicIP, stored⟩ := values
  refine ⟨target, reached, fun harmless => ?_⟩
  obtain ⟨attrs, value, own⟩ := harmless false configured _ _ _ _ _
    "/coreos.com/network/subnets/10.3.5.0-24" _ rfl (by decide) asks (by decide) stored
  cases value
  rw [publicIP] at own
  contradiction

end Flannel.Etcd
