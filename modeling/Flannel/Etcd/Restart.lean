import Flannel.Etcd.Allocation
import Flannel.Subnet.File

/-!
# A node that restarts

A node whose lease is gone starts again with the subnets of its subnet file. If no other node has
taken its subnet, and nobody writes while it asks, it gets the same subnet.
-/

namespace Flannel.Etcd

open Ip KeyValue Leases Program Subnet

/-! ## The start -/

def newSubnetManager (read : EnvReader) (subnetFile : Option String) : Option LocalManager :=
  (readCIDRFromSubnetFile read subnetFile "FLANNEL_SUBNET").map fun prevSubnet =>
    ⟨prevSubnet, readIP6CIDRFromSubnetFile read subnetFile "FLANNEL_IPV6_SUBNET"⟩

structure Session where
  etcd : EtcdStore
  requests : Nat

def Session.serve (root : String) (moments : Nat → Surroundings) (session : Session) (op : Op) :
    Option (Res op × Session) :=
  (Etcd.serve root session.etcd (moments session.requests) op).map fun served =>
    (served.1, ⟨served.2, session.requests + 1⟩)

structure Attended (raw : Config) (moments : Nat → Surroundings) : Prop where
  configured : ∀ n, (moments n).config = .ok raw
  get : ∀ n, (moments n).get = .ok ()
  fate : ∀ n, (moments n).fate = .done

def Leased (root : String) (etcd : EtcdStore) (sn : IP4Net) (sn6 : IP6Net) (attrs : LeaseAttrs) : Prop :=
  ∃ kv, etcd.get? kv.key = some kv ∧ isBelow (subnetsDir root) kv.key = true ∧
    kv.value.value = some attrs ∧ keySubnets kv.key = some (sn, sn6)

structure Unleased (root : String) (etcd : EtcdStore) (publicIP : IP4) (sn : IP4Net) : Prop where
  publicIP : ∀ other sn6 attrs, Leased root etcd other sn6 attrs → attrs.publicIP ≠ publicIP
  subnet : ∀ sn6 attrs, ¬ Leased root etcd sn sn6 attrs
  key : etcd.get? (subnetsDir root ++ "/" ++ sn.stringSep) = none

section Restart

variable {root : String} {etcd : EtcdStore} {moments : Nat → Surroundings} {raw config : Config}
  {attrs : LeaseAttrs} {sn : IP4Net} {timeToLive : TimeToLive}

theorem leased_of_mem_listLeases {l : Lease} (mem : l ∈ listLeases root etcd timeToLive) :
    Leased root etcd l.subnet l.ipv6Subnet l.attrs := by
  obtain ⟨kv, stored, below, value, subnets, _⟩ := exists_row_of_mem_listLeases mem
  exact ⟨kv, stored, below, value, subnets⟩

theorem Unleased.findLeaseByIP (unleased : Unleased root etcd attrs.publicIP sn) :
    findLeaseByIP (listLeases root etcd timeToLive) attrs.publicIP = none := by
  rw [Etcd.findLeaseByIP, List.find?_eq_none]
  intro l mem same
  exact unleased.publicIP _ _ _ (leased_of_mem_listLeases mem) (beq_iff_eq.mp same).symm

theorem Unleased.findLeaseBySubnet {publicIP : IP4} (unleased : Unleased root etcd publicIP sn) :
    findLeaseBySubnet (listLeases root etcd timeToLive) sn = none := by
  rw [Etcd.findLeaseBySubnet, List.find?_eq_none]
  intro l mem same
  rw [IP4Net.equal_iff] at same
  exact unleased.subnet _ _ (same ▸ leased_of_mem_listLeases mem)

theorem flags_of_accepted (enabled : raw.enableIPv4) (single : raw.enableIPv6 = false)
    (accepted : checkNetworkConfig raw = .ok config) :
    config.enableIPv4 ∧ config.enableIPv6 = false := by
  rw [checkNetworkConfig, bind_eq_ok_iff, if_pos enabled] at accepted
  obtain ⟨middle, first, second⟩ := accepted
  obtain ⟨_, flag, flag6⟩ := checkIPv4_eq_ok first
  rw [flag6, single] at second
  cases second
  exact ⟨flag.trans enabled, flag6.trans single⟩

theorem previousSubnets_of_unleased {publicIP : IP4} {sn6 : IP6Net} (single : config.enableIPv6 = false)
    (isEmpty : sn6.empty) (unleased : Unleased root etcd publicIP sn) (notEmpty : sn.empty = false)
    (len : sn.prefixLen = config.subnetLen) (low : config.subnetMin ≤ sn.ip)
    (high : sn.ip ≤ config.subnetMax) :
    previousSubnets ⟨sn, sn6⟩ config (listLeases root etcd timeToLive) = some (some (sn, sn6)) := by
  have compat : isSubnetConfigCompat config sn := by
    have inside : ¬ (sn.ip < config.subnetMin ∨ config.subnetMax < sn.ip) := by
      rintro (below | above)
      · exact absurd below (BitVec.not_lt.mpr low)
      · exact absurd above (BitVec.not_lt.mpr high)
    rw [isSubnetConfigCompat, if_neg inside, len, beq_self_eq_true]
  simp [previousSubnets, notEmpty, unleased.findLeaseBySubnet, isConfigCompat, compat,
    isIPv6SubnetConfigCompat, single, isEmpty]

theorem interp_acquireLease_of_previous {m : LocalManager} {key : String} {sn6 : IP6Net}
    (attended : Attended raw moments) (accepted : checkNetworkConfig raw = .ok config)
    (own : findLeaseByIP (listLeases root etcd (moments 1).timeToLive) attrs.publicIP = none)
    (previous : previousSubnets m config (listLeases root etcd (moments 1).timeToLive) =
      some (some (sn, sn6)))
    (path : subnetPath root sn sn6 = some key) (absent : etcd.get? key = none) :
    interp (Session.serve root moments) ⟨etcd, 0⟩ (acquireLease m attrs) =
      some (.ok ⟨true, !sn6.empty, sn, sn6, attrs, (moments 2).grant.expiration, 0⟩,
        ⟨etcd.put key ⟨some attrs, (moments 2).grant.id⟩, 3⟩) := by
  have configured : Session.serve root moments ⟨etcd, 0⟩ .getNetworkConfig =
      some (.ok raw, ⟨etcd, 1⟩) := by
    rw [Session.serve, Etcd.serve, attended.configured]
    rfl
  have listed : Session.serve root moments ⟨etcd, 1⟩ .getSubnets =
      some (.ok (listLeases root etcd (moments 1).timeToLive, etcd.revision), ⟨etcd, 2⟩) := by
    rw [Session.serve, Etcd.serve, attended.get]
    rfl
  have created : Session.serve root moments ⟨etcd, 2⟩ (.createSubnet sn sn6 attrs subnetTTL) =
      some (.ok (moments 2).grant.expiration,
        ⟨etcd.put key ⟨some attrs, (moments 2).grant.id⟩, 3⟩) := by
    rw [Session.serve, Etcd.serve, path, Option.map_some, attended.fate, createSubnet_done, absent]
    rfl
  have checked : interp (Session.serve root moments) ⟨etcd, 0⟩ getNetworkConfig =
      some (.ok config, ⟨etcd, 1⟩) := by
    unfold getNetworkConfig
    rw [interp_request_bind configured]
    dsimp only
    rw [accepted]
    rfl
  have attempt : interp (Session.serve root moments) ⟨etcd, 1⟩
      (tryAcquireLease m config attrs.publicIP attrs) =
        some (.ok ⟨true, !sn6.empty, sn, sn6, attrs, (moments 2).grant.expiration, 0⟩,
          ⟨etcd.put key ⟨some attrs, (moments 2).grant.id⟩, 3⟩) := by
    unfold tryAcquireLease
    rw [interp_request_bind listed]
    dsimp only
    rw [own]
    dsimp only
    rw [newLease, chooseSubnets, previous]
    exact interp_request_bind created
  rw [acquireLease, interp_bind checked]
  exact interp_bind attempt

/-- A node whose subnet file stores a subnet of the range, and whose lease is gone, gets this subnet again:
it creates its key and returns it, without a subnet of IPv6. -/
theorem acquireLease_after_restart {read : EnvReader} {disk : Disk} {file stored : Option String}
    {ipMasq : Bool} {ipv6sn : IP6Net} {mtu : Int} {entries : List (String × String)}
    (enabled : raw.enableIPv4 = true) (single : raw.enableIPv6 = false)
    (accepted : checkNetworkConfig raw = .ok config)
    (len : sn.prefixLen = config.subnetLen) (form : sn.InNetworkForm)
    (low : config.subnetMin ≤ sn.ip) (high : sn.ip ≤ config.subnetMax)
    (written : writeSubnetFile disk file config ipMasq sn ipv6sn mtu = some (.ok (), stored))
    (isEntries : subnetEntries config ipMasq sn ipv6sn mtu = some entries)
    (returns : read.Returns entries)
    (attended : Attended raw moments) (unleased : Unleased root etcd attrs.publicIP sn) :
    ∃ m lease later, newSubnetManager read stored = some m ∧
      interp (Session.serve root moments) ⟨etcd, 0⟩ (acquireLease m attrs) = some (.ok lease, later) ∧
      lease.subnet = sn ∧ lease.enableIPv4 = true ∧ lease.attrs = attrs ∧
      lease.enableIPv6 = false ∧ lease.ipv6Subnet.empty = true ∧
      later.etcd = etcd.put (subnetsDir root ++ "/" ++ sn.stringSep)
        ⟨some attrs, (moments 2).grant.id⟩ := by
  obtain ⟨enabled', single'⟩ := flags_of_accepted enabled single accepted
  have lengths := ((checkNetworkConfig_eq_ok accepted).1 enabled').len
  have short : sn.prefixLen ≤ 31 := by omega
  have aligned := (IP4Net.inNetworkForm_iff (short.trans (by decide))).mp form
  obtain ⟨isSubnet, isIPv6⟩ := read_subnetEntries enabled' single' short aligned isEntries returns
  obtain rfl := file_of_written written isEntries
  have notEmpty : sn.empty = false := by
    have positive : sn.prefixLen ≠ 0 := by omega
    simp [IP4Net.empty, positive]
  have manager : newSubnetManager read (some (fileText entries)) = some ⟨sn, ⟨some 0, 0⟩⟩ := by
    rw [newSubnetManager, isSubnet, isIPv6]
    rfl
  have runs := interp_acquireLease_of_previous attended accepted unleased.findLeaseByIP
    (previousSubnets_of_unleased single' rfl unleased notEmpty len low high)
    (@subnetPath_of_empty root sn ⟨some 0, 0⟩ rfl) unleased.key
  exact ⟨_, _, _, manager, runs, rfl, rfl, rfl, rfl, rfl, rfl⟩

end Restart

def previousEntries : List (String × String) :=
  [("FLANNEL_NETWORK", "10.3.0.0/16"), ("FLANNEL_SUBNET", "10.3.5.1/24"), ("FLANNEL_MTU", "1450"),
    ("FLANNEL_IPMASQ", "true")]

theorem acquireLease_after_restart_of_empty :
    writeSubnetFile ⟨.ok (), .ok ()⟩ none singleStack true ⟨0x0a030500, 24⟩ IP6Net.zero 1450 =
        some (.ok (), some (fileText previousEntries)) ∧
      ∃ m lease later,
        newSubnetManager (fun _ => .ok fun key => previousEntries.lookup key)
            (some (fileText previousEntries)) = some m ∧
          interp (Session.serve "/coreos.com/network" fun _ =>
              { Surroundings.calm 0 with config := .ok singleStack })
            ⟨Store.empty, 0⟩ (acquireLease m { LeaseAttrs.zero with publicIP := 1 }) =
              some (.ok lease, later) ∧
          lease.subnet = ⟨0x0a030500, 24⟩ ∧ lease.enableIPv4 ∧
          lease.attrs = { LeaseAttrs.zero with publicIP := 1 } ∧
          lease.enableIPv6 = false ∧ lease.ipv6Subnet.empty ∧
          later.etcd = Store.empty.put (subnetsDir "/coreos.com/network" ++ "/" ++
            (⟨0x0a030500, 24⟩ : IP4Net).stringSep)
              ⟨some { LeaseAttrs.zero with publicIP := 1 }, 1⟩ := by
  have entries : subnetEntries singleStack true ⟨0x0a030500, 24⟩ IP6Net.zero 1450 = some previousEntries := by
    decide
  have written : writeSubnetFile ⟨.ok (), .ok ()⟩ none singleStack true ⟨0x0a030500, 24⟩ IP6Net.zero 1450 =
      some (.ok (), some (fileText previousEntries)) := by
    rw [writeSubnetFile, entries]
    rfl
  have none : ∀ sn sn6 attrs, ¬ Leased "/coreos.com/network" Store.empty sn sn6 attrs := by
    rintro sn sn6 attrs ⟨kv, stored, _⟩
    cases stored
  refine ⟨written, ?_⟩
  exact acquireLease_after_restart (by rfl) (by rfl)
    (show checkNetworkConfig singleStack = .ok singleStack by decide) (by rfl) (by decide)
    (by decide) (by decide) written entries rfl ⟨fun _ => rfl, fun _ => rfl, fun _ => rfl⟩
    ⟨fun sn sn6 attrs leased => (none sn sn6 attrs leased).elim, none _, rfl⟩

end Flannel.Etcd
