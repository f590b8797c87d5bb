import Flannel.Etcd.Ownership

/-!
# Reservations

A reservation is a key without an etcd lease, for which `TimeToLive` answers −1. The zero
expiration that `tryAcquireLease` takes for its mark never comes out of `kvToIPLease`, and
`updateSubnet` always attaches an etcd lease. So a reservation stays one exactly as long as the
node's writes do not get through.
-/

namespace Flannel.Etcd

open Ip Leases Subnet Program Transition
open KeyValue

def Reserved (etcd : EtcdStore) (key : String) : Prop :=
  ∃ row, etcd.get? key = some row ∧ row.value.lease = 0

def Dated (etcd : EtcdStore) : Prop :=
  ∀ key row, etcd.get? key = some row → row.modRevision ≤ etcd.revision

theorem Dated.put {etcd : EtcdStore} (dated : Dated etcd) (key : String) (record : Record) :
    Dated (etcd.put key record) := by
  intro other row found
  rcases Store.get?_put_eq_some found with ⟨_, rfl⟩ | ⟨_, before⟩
  · exact le_rfl
  · exact Nat.le_succ_of_le (dated other row before)

theorem Dated.delete {etcd : EtcdStore} (dated : Dated etcd) (key : String) :
    Dated (etcd.delete key) := by
  intro other row found
  have before := dated other row (Store.get?_delete_eq_some found).2
  rw [Store.delete]
  split
  · exact Nat.le_succ_of_le before
  · exact before

variable {ι : Type} [DecidableEq ι]

/-- If the step answers a request of node `i` and writes the key, the key has no etcd
lease after it. -/
def Cluster.LeavesReserved (root key : String) (i : ι) (cluster : Cluster ι) (label : Label ι) : Prop :=
  match label with
  | .answer j _ => j = i → ∀ target ∈ Cluster.step root acquireLease cluster label,
      ∀ row ∈ target.etcd.get? key, cluster.etcd.get? key ≠ some row → row.value.lease = 0
  | _ => True

instance (root key : String) (i : ι) (cluster : Cluster ι) (label : Label ι) :
    Decidable (cluster.LeavesReserved root key i label) := by
  unfold Cluster.LeavesReserved
  cases label <;> infer_instance

/-- The request, in a store, writes a record under the key: it creates the key while it is absent,
or it updates it. -/
def Op.Puts (root key : String) (etcd : EtcdStore) : Op → Prop
  | .createSubnet sn sn6 _ _ => subnetPath root sn sn6 = some key ∧ etcd.get? key = none
  | .updateSubnet sn sn6 _ _ _ => subnetPath root sn sn6 = some key
  | _ => False

instance (root key : String) (etcd : EtcdStore) (op : Op) : Decidable (op.Puts root key etcd) := by
  unfold Op.Puts
  cases op <;> infer_instance

def Cluster.Puts (root key : String) (i : ι) (cluster : Cluster ι) (label : Label ι) : Prop :=
  match label with
  | .answer j surroundings => j = i ∧ surroundings.fate ≠ .refused ∧
      ∃ op ∈ (cluster.nodes i).asks, op.Puts root key cluster.etcd
  | _ => False

instance (root key : String) (i : ι) (cluster : Cluster ι) (label : Label ι) :
    Decidable (cluster.Puts root key i label) := by
  unfold Cluster.Puts
  cases label <;> infer_instance

section Steps

variable {root key : String} {cluster target : Cluster ι} {label : Label ι} {i : ι}

variable {surroundings : Surroundings}

theorem puts_of_serve {etcd etcd' : EtcdStore} {op : Op} {answer : Res op} {row : KV}
    (served : serve root etcd surroundings op = some (answer, etcd'))
    (found : etcd'.get? key = some row) :
    etcd.get? key = some row ∨ surroundings.fate ≠ .refused ∧ op.Puts root key etcd := by
  cases op with
  | createSubnet sn sn6 attrs ttl =>
    cases served_of_serve served with
    | quiet => exact .inl found
    | created answer path absent executed =>
      rcases Store.get?_put_eq_some found with ⟨rfl, _⟩ | ⟨_, before⟩
      · exact .inr ⟨executed, path, absent⟩
      · exact .inl before
  | updateSubnet sn sn6 attrs ttl asof =>
    obtain ⟨written, path, outcome⟩ := Option.map_eq_some_iff.mp served
    cases isFate : surroundings.fate with
    | refused =>
      rw [isFate] at outcome
      cases outcome
      exact .inl found
    | done | lost =>
      rw [isFate] at outcome
      cases outcome
      rcases Store.get?_put_eq_some found with ⟨rfl, _⟩ | ⟨_, before⟩
      · exact .inr ⟨by decide, path⟩
      · exact .inl before
  | getNetworkConfig | getSubnets =>
    cases served
    exact .inl found
  | deleteSubnet sn sn6 =>
    cases served_of_serve served with
    | quiet => exact .inl found
    | deleted answer path => exact .inl (Store.get?_delete_eq_some found).2
  | randInt lo hi =>
    rw [serve] at served
    split_ifs at served
    cases served
    exact .inl found
  | crash => contradiction

theorem serve_of_puts {etcd : EtcdStore} {op : Op}
    (executed : surroundings.fate ≠ .refused) (puts : op.Puts root key etcd) :
    ∃ answer attrs, serve root etcd surroundings op =
      some (answer, etcd.put key ⟨some attrs, surroundings.grant.id⟩) := by
  cases op with
  | createSubnet sn sn6 attrs ttl =>
    obtain ⟨path, absent⟩ := puts
    refine ⟨(createSubnet etcd key attrs surroundings.fate surroundings.grant).1, attrs, ?_⟩
    rw [serve, path, Option.map_some, ← createSubnet_of_absent executed absent]
  | updateSubnet sn sn6 attrs ttl asof =>
    have path : subnetPath root sn sn6 = some key := puts
    refine ⟨(updateSubnet etcd key attrs surroundings.fate surroundings.grant).1, attrs, ?_⟩
    rw [serve, path, Option.map_some]
    cases isFate : surroundings.fate with
    | refused => exact absurd isFate executed
    | done | lost => rfl
  | _ => contradiction

theorem step_of_puts (puts : cluster.Puts root key i (.answer i surroundings)) :
    ∃ target attrs, Cluster.step root acquireLease cluster (.answer i surroundings) = some target ∧
      target.etcd = cluster.etcd.put key ⟨some attrs, surroundings.grant.id⟩ := by
  obtain ⟨_, executed, op, asks, puts⟩ := puts
  obtain ⟨rest, trail, runs⟩ := Node.running_of_asks asks
  obtain ⟨answer, attrs, served⟩ := serve_of_puts executed puts
  simp only [Cluster.step, runs, served, Option.map_some]
  exact ⟨_, attrs, rfl, rfl⟩

theorem leavesReserved_iff (dated : Dated cluster.etcd)
    (real : ∀ j surroundings, label = .answer j surroundings → surroundings.grant.id ≠ 0) :
    cluster.LeavesReserved root key i label ↔ ¬ cluster.Puts root key i label := by
  cases label with
  | answer j surroundings =>
    constructor
    · intro leaves puts
      obtain rfl : j = i := puts.1
      obtain ⟨target, attrs, taken, isStore⟩ := step_of_puts puts
      have found : target.etcd.get? key =
          some ⟨key, ⟨some attrs, surroundings.grant.id⟩, cluster.etcd.revision + 1⟩ := by
        rw [isStore, Store.get?_put, if_pos rfl]
      refine real j surroundings rfl (leaves rfl target taken _ found fun before => ?_)
      -- The written row is newer than the store before the step.
      exact absurd (dated key _ before) (Nat.not_succ_le_self _)
    · rintro quiet rfl target taken row found changed
      rcases step_cases taken with ⟨_, node, acts, _⟩ | ⟨_, isExpiry, _⟩
      · generalize target.etcd = etcd at acts found
        cases acts with
        | answer runs served =>
          rcases puts_of_serve served found with before | ⟨executed, puts⟩
          · exact absurd before changed
          · exact absurd ⟨rfl, executed, _, Node.asks_of_running runs, puts⟩ quiet
      · contradiction
  | _ => exact ⟨fun _ => id, fun _ => trivial⟩

theorem dated_step (dated : Dated cluster.etcd)
    (taken : Cluster.step root acquireLease cluster label = some target) : Dated target.etcd := by
  rcases step_cases taken with ⟨i, node, acts, _⟩ | ⟨key, rfl, rfl⟩
  · generalize target.etcd = etcd at acts
    cases acts with
    | answer runs served =>
      cases served_of_serve served with
      | quiet | listed => exact dated
      | created | updated => exact dated.put _ _
      | deleted => exact dated.delete _
    | _ => exact dated
  · exact dated.delete key

end Steps

/-- In every run of `AcquireLease` and `RenewLease`, at any moments and with any fate of
their requests, the writes of a node to a key leave it without an etcd lease exactly if
none of its requests to create or update the key is executed. -/
theorem reservation_stays_iff {root key : String} {i : ι} {initial : Cluster ι}
    {labels : List (Label ι)} (dated : Dated initial.etcd)
    (real : ∀ label ∈ labels, ∀ j surroundings, label = .answer j surroundings →
      surroundings.grant.id ≠ 0) :
    Along (Cluster.step root acquireLease) (Cluster.LeavesReserved root key i) initial labels ↔
      Along (Cluster.step root acquireLease) (fun cluster label => ¬ cluster.Puts root key i label)
        initial labels := by
  have along := @along_of_forall_mem _ _ (Cluster.step root acquireLease) _ initial labels real
  constructor
  · intro leaves
    exact (leaves.and along).imp_of_invariant
      (fun _ _ dated cond => (leavesReserved_iff dated cond.2).mp cond.1)
      (fun _ _ _ dated _ taken => dated_step dated taken) dated
  · intro quiet
    exact (quiet.and along).imp_of_invariant
      (fun _ _ dated cond => (leavesReserved_iff dated cond.2).mpr cond.1)
      (fun _ _ _ dated _ taken => dated_step dated taken) dated

def reservedNode : Cluster Bool :=
  { twoNodes ⟨0, 0⟩ with
    etcd := Store.empty.put "/coreos.com/network/subnets/10.3.5.0-24"
      ⟨some { LeaseAttrs.zero with publicIP := 1 }, 0⟩ }

def reporting (fate : Fate) : Surroundings :=
  { configured with
    fate := fate
    timeToLive := fun kv => some (if kv.value.lease = 0 then -1 else 86400, 60 * second) }

theorem dated_reservedNode : Dated reservedNode.etcd := by
  have empty : Dated Store.empty := fun _ _ found => absurd found.symm (Option.some_ne_none _)
  exact empty.put _ _

theorem reservation_stays_refused :
    Along (Cluster.step "/coreos.com/network" acquireLease)
      (Cluster.LeavesReserved "/coreos.com/network" "/coreos.com/network/subnets/10.3.5.0-24" false)
      reservedNode
      [.acquire false, .answer false (reporting .done), .answer false (reporting .done),
        .answer false (reporting .refused)] := by
  refine (reservation_stays_iff dated_reservedNode ?_).mpr ?_
  · intro label mem j surroundings isLabel
    simp only [List.mem_cons, List.not_mem_nil, or_false, isLabel, reduceCtorEq, false_or,
      Label.answer.injEq] at mem
    rcases mem with ⟨_, rfl⟩ | ⟨_, rfl⟩ | ⟨_, rfl⟩ <;> decide
  · decide

/-- The same acquisition with an update that succeeds: the write of the node to its
reservation, whose time to live is reported as −1, attaches an etcd lease. -/
theorem reservation_becomes_lease :
    Reserved reservedNode.etcd "/coreos.com/network/subnets/10.3.5.0-24" ∧
      reservedNode.Lists "/coreos.com/network" false (⟨0x0a030500, 24⟩, IP6Net.zero) ∧
      isConfigCompat singleStack ⟨0x0a030500, 24⟩ IP6Net.zero = some true ∧
      ¬ Along (Cluster.step "/coreos.com/network" acquireLease)
        (Cluster.LeavesReserved "/coreos.com/network" "/coreos.com/network/subnets/10.3.5.0-24" false)
        reservedNode
        [.acquire false, .answer false (reporting .done), .answer false (reporting .done),
          .answer false (reporting .done)] := by
  have stored : reservedNode.etcd.get? "/coreos.com/network/subnets/10.3.5.0-24" =
      some ⟨"/coreos.com/network/subnets/10.3.5.0-24",
        ⟨some { LeaseAttrs.zero with publicIP := 1 }, 0⟩, 1⟩ := by
    decide
  refine ⟨⟨_, stored, rfl⟩, ⟨⟨_, _, 1⟩, stored, ?_, ?_, _, rfl, rfl⟩, ?_, ?_⟩ <;> decide +kernel

theorem not_isZero_of_reservation {kv : KV} {now : Time} {l : Lease}
    (listed : kvToIPLease kv (-1) now = some l) (later : now ≠ second) :
    l.expiration.isZero = false := by
  simp only [kvToIPLease, Option.bind_eq_bind, Option.bind_eq_some_iff, Option.some.injEq,
    Prod.exists] at listed
  obtain ⟨sn, sn6, _, attrs, _, rfl⟩ := listed
  apply beq_false_of_ne
  intro isZero
  have sum : (now : Int) + -1 * second = 0 := isZero
  exact later (by rw [eq_neg_of_add_eq_zero_left sum, neg_mul, one_mul, neg_neg])

theorem acquire_asks_update {root : String} {cluster : Cluster ι} {i : ι} {config network : Config}
    {reads lists : Surroundings} {l : Lease} (idle : (cluster.nodes i).task = .idle)
    (isConfig : reads.config = .ok network) (checked : checkNetworkConfig network = .ok config)
    (answered : lists.get = .ok ())
    (found : findLeaseByIP (listLeases root cluster.etcd lists.timeToLive)
      (cluster.nodes i).attrs.publicIP = some l)
    (compatible : isConfigCompat config l.subnet l.ipv6Subnet = some true) :
    ∃ middle, run (Cluster.step root acquireLease) cluster
        [.acquire i, .answer i reads, .answer i lists] = some middle ∧
      middle.etcd = cluster.etcd ∧
      (middle.nodes i).asks = some (.updateSubnet l.subnet l.ipv6Subnet (cluster.nodes i).attrs
        (if l.expiration.isZero then 0 else subnetTTL) 0) := by
  simp [run, Cluster.step, idle, acquireLease, getNetworkConfig, Prog.request, Node.resume, serve, isConfig,
    checked, acquireLoop, raceRetries, tryAcquireLease, answered, getSubnets, found, compatible,
    orPanic, reuseLease, Node.asks]

theorem acquire_ends_reservation {root key : String} {cluster : Cluster ι} {i : ι}
    {config network : Config} {reads lists writes : Surroundings} {l : Lease} {kv : KV} {now : Time}
    (idle : (cluster.nodes i).task = .idle)
    (isConfig : reads.config = .ok network) (checked : checkNetworkConfig network = .ok config)
    (answered : lists.get = .ok ())
    (found : findLeaseByIP (listLeases root cluster.etcd lists.timeToLive)
      (cluster.nodes i).attrs.publicIP = some l)
    (reservation : kvToIPLease kv (-1) now = some l) (later : now ≠ second)
    (compatible : isConfigCompat config l.subnet l.ipv6Subnet = some true)
    (path : subnetPath root l.subnet l.ipv6Subnet = some key) (executed : writes.fate ≠ .refused)
    (real : writes.grant.id ≠ 0) :
    ∃ middle target, run (Cluster.step root acquireLease) cluster
        [.acquire i, .answer i reads, .answer i lists] = some middle ∧
      (middle.nodes i).asks =
        some (.updateSubnet l.subnet l.ipv6Subnet (cluster.nodes i).attrs subnetTTL 0) ∧
      Cluster.step root acquireLease middle (.answer i writes) = some target ∧
      ¬ Reserved target.etcd key := by
  obtain ⟨middle, reached, _, asks⟩ :=
    acquire_asks_update idle isConfig checked answered found compatible
  rw [not_isZero_of_reservation reservation later, if_neg Bool.false_ne_true] at asks
  have puts : middle.Puts root key i (.answer i writes) := ⟨rfl, executed, _, asks, path⟩
  obtain ⟨target, attrs, taken, isStore⟩ := step_of_puts puts
  refine ⟨middle, target, reached, asks, taken, ?_⟩
  rintro ⟨row, stored, free⟩
  rw [isStore, Store.get?_put, if_pos rfl] at stored
  obtain rfl := Option.some.inj stored
  exact real free

end Flannel.Etcd
