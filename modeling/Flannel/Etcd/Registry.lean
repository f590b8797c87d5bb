import Flannel.KeyValue.Store
import Flannel.Leases.Core
import Flannel.Subnet.Key

/-!
# The etcd registry

`etcdSubnetRegistry`: leases are rows below the `subnets` directory of the root. The JSON values
are represented by what they decode to. A request can fail without effect, or take effect while
its answer is lost; `Fate` says which.
-/

namespace Flannel.Etcd

open Ip Leases Subnet KeyValue

inductive EtcdEventType
  | put
  | delete
  deriving DecidableEq

inductive Error
  | tryAgain
  | configNotFound
  | subnetAlreadyexists
  | duplicateKey
  | grpcKeyNotFound
  | grpcCompacted
  /-- `"%v %q: not a subnet, skipping"`. -/
  | notASubnet (type : EtcdEventType) (key : String)
  /-- The error of `json.Unmarshal`. -/
  | badValue
  /-- `"out of subnets"`. -/
  | outOfSubnets
  /-- `"max retries reached trying to acquire a subnet"`. -/
  | maxRetries
  | badConfig (message : String)
  | request
  deriving DecidableEq

structure Record where
  value : Option LeaseAttrs
  lease : Nat
  deriving DecidableEq

abbrev KV := Row String Record

abbrev EtcdStore := Store String Record

def second : Time :=
  1000000000

/-- `path.Join(prefix, "subnets")` for a clean prefix. -/
def subnetsDir (root : String) : String :=
  if root = "" then "subnets" else root ++ "/" ++ "subnets"

/-- `path.Join(prefix, "subnets", subnet.MakeSubnetKey(sn, sn6))`. -/
def subnetPath (root : String) (sn : IP4Net) (sn6 : IP6Net) : Option String :=
  (makeSubnetKey sn sn6).map fun key => subnetsDir root ++ "/" ++ key

def isBelow (directory key : String) : Bool :=
  directory.toList.isPrefixOf key.toList

def keySubnets (key : String) : Option (IP4Net × IP6Net) :=
  (parseSubnetKey key).map fun subnets => (subnets.1, subnets.2.getD IP6Net.zero)

def kvToIPLease (kv : KV) (ttl : Int) (now : Time) : Option Lease := do
  let (sn, sn6) ← keySubnets kv.key
  let attrs ← kv.value.value
  some
    { enableIPv4 := true
      enableIPv6 := !sn6.empty
      subnet := sn
      ipv6Subnet := sn6
      attrs := attrs
      expiration := now + ttl * second
      asof := kv.modRevision }

/-- The answers of `TimeToLive` for the rows of a read: the time to live and the
moment it was read, or an error. -/
abbrev TimeToLive := KV → Option (Int × Time)

def listLeases (root : String) (etcd : EtcdStore) (timeToLive : TimeToLive) : List Lease :=
  (etcd.range (fun key key' => !decide (key' < key)) (isBelow (subnetsDir root))).filterMap fun kv =>
    (timeToLive kv).bind fun answer => kvToIPLease kv answer.1 answer.2

def getSubnets (root : String) (etcd : EtcdStore) (get : Except Error Unit)
    (timeToLive : TimeToLive) : Except Error (List Lease × Nat) :=
  match get with
  | .error .grpcKeyNotFound => .ok ([], 0)
  | .error error => .error error
  | .ok () => .ok (listLeases root etcd timeToLive, etcd.revision)

inductive Fate
  | done
  | refused
  | lost
  deriving DecidableEq

structure Grant where
  id : Nat
  ttl : Int
  now : Time
  deriving DecidableEq

def Grant.expiration (grant : Grant) : Time :=
  grant.now + grant.ttl * second

def createSubnet (etcd : EtcdStore) (key : String) (attrs : LeaseAttrs) (fate : Fate) (grant : Grant) :
    Except Error Time × EtcdStore :=
  match fate, etcd.create key ⟨some attrs, grant.id⟩ with
  | .refused, _ => (.error .request, etcd)
  | .done, none => (.error .subnetAlreadyexists, etcd)
  | .done, some created => (.ok grant.expiration, created)
  | .lost, none => (.error .request, etcd)
  | .lost, some created => (.error .request, created)

def updateSubnet (etcd : EtcdStore) (key : String) (attrs : LeaseAttrs) (fate : Fate) (grant : Grant) :
    Except Error Time × EtcdStore :=
  match fate with
  | .refused => (.error .request, etcd)
  | .done => (.ok grant.expiration, etcd.put key ⟨some attrs, grant.id⟩)
  | .lost => (.error .request, etcd.put key ⟨some attrs, grant.id⟩)

def deleteSubnet (etcd : EtcdStore) (key : String) (fate : Fate) : Except Error Unit × EtcdStore :=
  match fate with
  | .refused => (.error .request, etcd)
  | .done => (.ok (), etcd.delete key)
  | .lost => (.error .request, etcd.delete key)

/-! ## Keys and subnets -/

theorem keySubnets_subnetPath {root key : String} {sn : IP4Net} {sn6 : IP6Net}
    (readable : Readable sn sn6) (path : subnetPath root sn sn6 = some key) :
    keySubnets key = some (sn, if sn6.empty then IP6Net.zero else sn6) := by
  obtain ⟨name, made, rfl⟩ := Option.map_eq_some_iff.mp path
  have split : ∃ directory, subnetsDir root ++ "/" ++ name = directory ++ "subnets/" ++ name := by
    rw [subnetsDir]
    split
    · exact ⟨"", by simp⟩
    · refine ⟨root ++ "/", ?_⟩
      have slash : "subnets/" = "subnets" ++ "/" := by decide
      rw [slash]
      simp only [String.append_assoc]
  obtain ⟨directory, split⟩ := split
  rw [split, keySubnets, parseSubnetKey_makeSubnetKey readable made]
  cases sn6.empty <;> rfl

theorem subnetPath_of_empty {root : String} {sn : IP4Net} {sn6 : IP6Net} (isEmpty : sn6.empty) :
    subnetPath root sn sn6 = some (subnetsDir root ++ "/" ++ sn.stringSep) := by
  rw [subnetPath, makeSubnetKey, isEmpty]
  rfl

theorem isBelow_of_subnetPath {root key : String} {sn : IP4Net} {sn6 : IP6Net}
    (path : subnetPath root sn sn6 = some key) : isBelow (subnetsDir root) key := by
  obtain ⟨name, _, rfl⟩ := Option.map_eq_some_iff.mp path
  rw [isBelow, List.isPrefixOf_iff_prefix, String.toList_append, String.toList_append,
    List.append_assoc]
  exact List.prefix_append _ _

theorem createSubnet_done (etcd : EtcdStore) (key : String) (attrs : LeaseAttrs) (grant : Grant) :
    createSubnet etcd key attrs .done grant =
      if (etcd.get? key).isSome then (.error .subnetAlreadyexists, etcd)
      else (.ok grant.expiration, etcd.put key ⟨some attrs, grant.id⟩) := by
  unfold createSubnet Store.create
  split_ifs <;> rfl

theorem createSubnet_of_absent {etcd : EtcdStore} {key : String} {attrs : LeaseAttrs} {fate : Fate}
    {grant : Grant} (executed : fate ≠ .refused) (absent : etcd.get? key = none) :
    (createSubnet etcd key attrs fate grant).2 = etcd.put key ⟨some attrs, grant.id⟩ := by
  have created : etcd.create key ⟨some attrs, grant.id⟩ =
      some (etcd.put key ⟨some attrs, grant.id⟩) :=
    Store.create_eq_some_iff.mpr ⟨absent, rfl⟩
  cases fate with
  | refused => contradiction
  | done => simp only [createSubnet, created]
  | lost => simp only [createSubnet, created]

theorem exists_row_of_mem_listLeases {root : String} {etcd : EtcdStore} {timeToLive : TimeToLive}
    {lease : Lease} (mem : lease ∈ listLeases root etcd timeToLive) :
    ∃ kv, etcd.get? kv.key = some kv ∧ isBelow (subnetsDir root) kv.key ∧
      kv.value.value = some lease.attrs ∧ keySubnets kv.key = some (lease.subnet, lease.ipv6Subnet) ∧ lease.enableIPv4 ∧
      lease.enableIPv6 = !lease.ipv6Subnet.empty := by
  obtain ⟨kv, inRange, decoded⟩ := List.mem_filterMap.mp mem
  obtain ⟨answer, _, converted⟩ := Option.bind_eq_some_iff.mp decoded
  simp only [kvToIPLease, Option.bind_eq_bind, Option.bind_eq_some_iff, Option.some.injEq,
    Prod.exists] at converted
  obtain ⟨sn, sn6, subnets, attrs, value, rfl⟩ := converted
  obtain ⟨below, stored⟩ := Store.mem_range_iff.mp inRange
  exact ⟨kv, stored, below, value, subnets, rfl, rfl⟩

theorem getSubnets_eq_ok {root : String} {etcd : EtcdStore} {get : Except Error Unit}
    {timeToLive : TimeToLive} {leases : List Lease} {index : Nat}
    (answered : getSubnets root etcd get timeToLive = .ok (leases, index)) :
    leases = [] ∨ leases = listLeases root etcd timeToLive := by
  unfold getSubnets at answered
  split at answered <;> cases answered
  · exact .inl rfl
  · exact .inr rfl

end Flannel.Etcd
