import Flannel.Etcd.Resume
import Flannel.Leases.Forwarding

/-!
# The watch of one lease

`LocalManager.WatchLease` and `watchSubnet`, up to the events that `subnet.WatchLease` forwards.
The watch is one of a prefix, so it also tells of the keys that begin with the watched one.
-/

namespace Flannel.Etcd

open Ip Leases KeyValue Transition

def readLease (etcd : EtcdStore) (key : String) (get : Except Error Unit) (timeToLive : TimeToLive) :
    Except Error (Option Lease) :=
  match get, etcd.get? key with
  | .error error, _ => .error error
  | .ok (), none => .ok none
  | .ok (), some kv =>
    match timeToLive kv with
    | none => .error .request
    | some (ttl, now) =>
      match kvToIPLease kv ttl now with
      | none => .error .badValue
      | some l => .ok (some l)

def leaseWatchReset (etcd : EtcdStore) (key : String) (get : Except Error Unit)
    (timeToLive : TimeToLive) : Except Error LeaseWatchResult :=
  match readLease etcd key get timeToLive with
  | .error error => .error error
  | .ok none => .error .grpcKeyNotFound
  | .ok (some l) => .ok ⟨[], [l], some etcd.revision⟩

def resyncWatchSubnet (sn : IP4Net) (sn6 : IP6Net) (etcd : EtcdStore) (key : String)
    (get : Except Error Unit) (timeToLive : TimeToLive) : Except Error LeaseWatchResult :=
  match readLease etcd key get timeToLive with
  | .error error => .error error
  | .ok none =>
    .ok ⟨[⟨.removed, ⟨true, !sn6.empty, sn, sn6, .zero, 0, 0⟩⟩], [], some etcd.revision⟩
  | .ok (some l) => .ok ⟨[], [l], some etcd.revision⟩

def watchSubnetResult (revision : Int) (answers : Answers) (ev : EtcdEvent) :
    Option LeaseWatchResult :=
  match parseSubnetWatchResponse answers ev with
  | .ok subnetEvent => some ⟨[subnetEvent], [], some revision⟩
  | .error error =>
    if isIndexTooSmall error then
      match answers.leasesWatchReset with
      | .ok wr => some wr
      | .error _ => some ⟨[], [], none⟩
    else none

namespace Watching

def reportedTo (key : String) (watching : Watching) (revision : Nat) : List (Entry String Record) :=
  match watching.phase with
  | .receiving next =>
    if (revision = 0 ∨ next ≤ revision + 1) ∧ revision ≤ watching.history.revision then
      (watching.history.window next revision).filter fun entry => isBelow key entry.write.key
    else []
  | _ => []

def leaseResults (sn : IP4Net) (sn6 : IP6Net) (key : String) (watching : Watching) :
    WatchLabel → List LeaseWatchResult
  | .list get timeToLive =>
    match watching.phase with
    | .starting => (leaseWatchReset watching.etcd key get timeToLive).toOption.toList
    | .relisting => (resyncWatchSubnet sn sn6 watching.etcd key get timeToLive).toOption.toList
    | _ => []
  | .receive revision answers => (watching.reportedTo key revision).filterMap fun entry =>
    watchSubnetResult revision (answers entry) (etcdEvent entry)
  | _ => []

/-- One step of the store or of `WatchLease`, which watches again after a read that failed. -/
def leaseStep (root : String) (sn : IP4Net) (sn6 : IP6Net) (key : String) :
    Step Watching WatchLabel := fun watching label =>
  let results := watching.leaseResults sn sn6 key label
  match label, watching.phase, results with
  | .list _ _, .starting, [] => some { watching with phase := .returned }
  | .list _ _, .relisting, [] => some { watching with phase := .connecting }
  | .list _ _, .starting, _ | .list _ _, .relisting, _ =>
    some { watching with
      phase := .connecting
      since := watching.etcd.revision + 1
      sent := watching.sent ++ results }
  | _, _, _ => (Watching.step root watching label).map fun target =>
    { target with sent := watching.sent ++ results }

def forwarded (sn : IP4Net) (sn6 : IP6Net) (key : String) (watching : Watching) (label : WatchLabel) :
    List Event :=
  (watching.leaseResults sn sn6 key label).filterMap forward

end Watching

def pairKey (sn : IP4Net) (sn6 : IP6Net) : SubnetKey :=
  (sn, if sn6.empty then none else some sn6)

def Gone (key : String) (watching : Watching) : WatchLabel → Prop
  | .list _ _ => watching.etcd.get? key = none
  | .receive revision _ => ∃ entry ∈ watching.reportedTo key revision, entry.write = .delete key
  | _ => False

/-- Every event is about the watched lease, and it is only removed if its key is gone. -/
def ReportsOwn (sn : IP4Net) (sn6 : IP6Net) (key : String) (watching : Watching)
    (label : WatchLabel) : Prop :=
  ∀ event ∈ watching.forwarded sn sn6 key label, event.lease.key = pairKey sn sn6 ∧
    (event.type = .removed → Gone key watching label)

def CanRead (answers : Answers) : Write String Record → Prop
  | .put _ record => record.value ≠ none ∧ ∃ ttl, answers.timeToLive = .ok ttl
  | .delete _ => True

/-- What is read under the watched key or reported by the watch has a key of the watched subnets,
and a deletion is one of the watched key. -/
def Alone (sn : IP4Net) (sn6 : IP6Net) (key : String) (watching : Watching) :
    WatchLabel → Prop
  | .list get timeToLive => watching.phase = .starting ∨ watching.phase = .relisting →
    ∀ l, readLease watching.etcd key get timeToLive = .ok (some l) →
      subnetOf key = some (pairKey sn sn6)
  | .receive revision answers => ∀ entry ∈ watching.reportedTo key revision,
    CanRead (answers entry) entry.write → ∀ k, subnetOf entry.write.key = some k →
      k = pairKey sn sn6 ∧
        ∀ name, entry.write = .delete name → Gone key watching (.receive revision answers)
  | _ => True

def Client : WatchLabel → Prop
  | .receive _ answers => ∀ entry, (answers entry).timeToLive ≠ .error .grpcCompacted
  | _ => True

theorem key_of_keySubnets {name : String} {sn : IP4Net} {sn6 : IP6Net}
    (subnets : keySubnets name = some (sn, sn6)) (attrs : LeaseAttrs) (expiration : Time) (asof : Int) :
    subnetOf name = some (Lease.key ⟨true, !sn6.empty, sn, sn6, attrs, expiration, asof⟩) := by
  cases isEmpty : sn6.empty <;> simp [subnetOf, subnets, Lease.key, isEmpty]

theorem subnetOf_of_readLease {etcd : EtcdStore} {key : String} {get : Except Error Unit}
    {timeToLive : TimeToLive} {l : Lease} (read : readLease etcd key get timeToLive = .ok (some l)) :
    subnetOf key = some l.key := by
  unfold readLease at read
  split at read
  · cases read
  · cases read
  · next kv stored =>
    have isKey := Store.key_of_get? stored
    split at read
    · cases read
    · split at read
      · cases read
      · next decoded =>
        cases read
        simp only [kvToIPLease, Option.bind_eq_bind, Option.bind_eq_some_iff, isKey] at decoded
        obtain ⟨⟨sn, sn6⟩, subnets, attrs, -, same⟩ := decoded
        cases same
        exact key_of_keySubnets subnets _ _ _

theorem of_parse_etcdEvent {answers : Answers} {entry : Entry String Record} {event : Event}
    (parsed : parseSubnetWatchResponse answers (etcdEvent entry) = .ok event) :
    CanRead answers entry.write ∧ subnetOf entry.write.key = some event.lease.key ∧
      (event.type = .removed ↔ ∃ name, entry.write = .delete name) := by
  obtain ⟨revision, ⟨name, record⟩ | name⟩ := entry
  · simp only [parseSubnetWatchResponse, etcdEvent] at parsed
    split at parsed
    · cases parsed
    · next subnets =>
      split at parsed
      · cases parsed
      · cases parsed
      · next value answered =>
        cases parsed
        exact ⟨⟨by simp [value], _, answered⟩, key_of_keySubnets subnets _ _ _, by simp⟩
  · simp only [parseSubnetWatchResponse, etcdEvent] at parsed
    split at parsed
    · cases parsed
    · next subnets =>
      cases parsed
      exact ⟨trivial, key_of_keySubnets subnets _ _ _, by simp⟩

theorem exists_parse_etcdEvent {answers : Answers} {entry : Entry String Record} {k : SubnetKey}
    (canRead : CanRead answers entry.write) (about : subnetOf entry.write.key = some k) :
    ∃ event, parseSubnetWatchResponse answers (etcdEvent entry) = .ok event := by
  obtain ⟨⟨sn, sn6⟩, subnets, -⟩ := Option.map_eq_some_iff.mp about
  obtain ⟨revision, ⟨name, record⟩ | name⟩ := entry
  · obtain ⟨valued, ttl, answered⟩ := canRead
    obtain ⟨attrs, value⟩ := Option.ne_none_iff_exists'.mp valued
    have subnets : keySubnets name = some (sn, sn6) := subnets
    exact ⟨_, by simp only [parseSubnetWatchResponse, etcdEvent, subnets, value, answered]; rfl⟩
  · have subnets : keySubnets name = some (sn, sn6) := subnets
    exact ⟨_, by simp only [parseSubnetWatchResponse, etcdEvent, subnets]; rfl⟩

theorem forward_watchSubnetResult {answers : Answers} (client : answers.timeToLive ≠ .error .grpcCompacted)
    (revision : Int) (ev : EtcdEvent) (event : Event) :
    (watchSubnetResult revision answers ev).bind forward = some event ↔
      parseSubnetWatchResponse answers ev = .ok event := by
  unfold watchSubnetResult
  cases parsed : parseSubnetWatchResponse answers ev with
  | ok subnetEvent => simp [forward]
  | error error => simp [isIndexTooSmall_eq_false client parsed]

section Equivalent

variable {sn : IP4Net} {sn6 : IP6Net} {key : String} {watching : Watching}

theorem mem_forwarded_receive {revision : Nat} {answers : Entry String Record → Answers}
    (client : Client (.receive revision answers)) {event : Event} :
    event ∈ watching.forwarded sn sn6 key (.receive revision answers) ↔
      ∃ entry ∈ watching.reportedTo key revision,
        parseSubnetWatchResponse (answers entry) (etcdEvent entry) = .ok event := by
  simp only [Watching.forwarded, Watching.leaseResults, List.filterMap_filterMap, List.mem_filterMap,
    forward_watchSubnetResult (client _)]

theorem reportsOwn_receive_iff {revision : Nat} {answers : Entry String Record → Answers}
    (client : Client (.receive revision answers)) :
    ReportsOwn sn sn6 key watching (.receive revision answers) ↔
      Alone sn sn6 key watching (.receive revision answers) := by
  constructor
  · intro own entry reported canRead k about
    obtain ⟨event, parsed⟩ := exists_parse_etcdEvent canRead about
    obtain ⟨-, about', removes⟩ := of_parse_etcdEvent parsed
    obtain ⟨same, gone⟩ := own event ((mem_forwarded_receive client).mpr ⟨entry, reported, parsed⟩)
    rw [about, Option.some.injEq] at about'
    exact ⟨about'.trans same, fun name isDelete => gone (removes.mpr ⟨name, isDelete⟩)⟩
  · intro alone event mem
    obtain ⟨entry, reported, parsed⟩ := (mem_forwarded_receive client).mp mem
    obtain ⟨canRead, about, removes⟩ := of_parse_etcdEvent parsed
    obtain ⟨same, gone⟩ := alone entry reported canRead _ about
    exact ⟨same, fun removed => (removes.mp removed).elim gone⟩

theorem reportsOwn_list_iff (get : Except Error Unit) (timeToLive : TimeToLive) :
    ReportsOwn sn sn6 key watching (.list get timeToLive) ↔
      Alone sn sn6 key watching (.list get timeToLive) := by
  have snapshot : ∀ l, readLease watching.etcd key get timeToLive = .ok (some l) →
      (l.key = pairKey sn sn6 ↔ subnetOf key = some (pairKey sn sn6)) := by
    intro l read
    rw [subnetOf_of_readLease read, Option.some.injEq]
  have absent : readLease watching.etcd key get timeToLive = .ok none → watching.etcd.get? key = none := by
    intro read
    unfold readLease at read
    split at read
    · cases read
    · assumption
    · split at read
      · cases read
      · split at read <;> cases read
  have removed : Lease.key ⟨true, !sn6.empty, sn, sn6, .zero, 0, 0⟩ = pairKey sn sn6 := by
    cases isEmpty : sn6.empty <;> simp [Lease.key, pairKey, isEmpty]
  cases read : readLease watching.etcd key get timeToLive with
  | error error =>
    simp only [ReportsOwn, Alone, read, Watching.forwarded, Watching.leaseResults, leaseWatchReset,
      resyncWatchSubnet]
    split <;> simp [Except.toOption]
  | ok found =>
    cases found with
    | none =>
      simp only [ReportsOwn, Alone, read, Watching.forwarded, Watching.leaseResults, leaseWatchReset,
        resyncWatchSubnet, Gone, absent read]
      split <;> simp [Except.toOption, forward, removed]
    | some l =>
      simp only [ReportsOwn, Alone, read, Watching.forwarded, Watching.leaseResults, leaseWatchReset,
        resyncWatchSubnet, ← snapshot l read]
      split <;> simp_all [Except.toOption, forward]

end Equivalent

/-- The watch of a lease reports only its own lease, in every step of a run, exactly if
there is no other lease under a key that begins with its key. -/
theorem watchLease_reports_own_iff {root key : String} {sn : IP4Net} {sn6 : IP6Net} :
    subnetPath root sn sn6 = some key → ∀ {labels : List WatchLabel}, (∀ label ∈ labels, Client label) →
      (Along (Watching.leaseStep root sn sn6 key) (ReportsOwn sn sn6 key) Watching.initial labels ↔
        Along (Watching.leaseStep root sn sn6 key) (Alone sn sn6 key) Watching.initial labels) := by
  intro _ labels client
  have equivalent : ∀ watching label, Client label →
      (ReportsOwn sn sn6 key watching label ↔ Alone sn sn6 key watching label) := by
    intro watching label client
    cases label with
    | list get timeToLive => exact reportsOwn_list_iff get timeToLive
    | receive revision answers => exact reportsOwn_receive_iff client
    | _ => exact iff_of_true nofun trivial
  have clients := @along_of_forall_mem _ _ (Watching.leaseStep root sn sn6 key) _ Watching.initial _ client
  exact ⟨fun own => (own.and clients).mono fun w l both => (equivalent w l both.2).mp both.1,
    fun alone => (alone.and clients).mono fun w l both => (equivalent w l both.2).mpr both.1⟩

def revokedLease : List WatchLabel :=
  [storing "/coreos.com/network/subnets/10.1.1.0-24" 1, listing, .connect true, .fail false,
    .commit [.delete "/coreos.com/network/subnets/10.1.1.0-24"],
    storing "/coreos.com/network/subnets/10.1.2.0-24" 2, .compact 3, .connect true, .fail true, listing]

theorem watchLease_reports_own_revoked :
    (run (Watching.leaseStep "/coreos.com/network" ⟨0x0a010100, 24⟩ IP6Net.zero
      "/coreos.com/network/subnets/10.1.1.0-24") Watching.initial revokedLease).isSome ∧
    Along (Watching.leaseStep "/coreos.com/network" ⟨0x0a010100, 24⟩ IP6Net.zero
        "/coreos.com/network/subnets/10.1.1.0-24")
      (ReportsOwn ⟨0x0a010100, 24⟩ IP6Net.zero "/coreos.com/network/subnets/10.1.1.0-24")
      Watching.initial revokedLease := by
  have own : subnetOf "/coreos.com/network/subnets/10.1.1.0-24" =
      some (pairKey ⟨0x0a010100, 24⟩ IP6Net.zero) := by
    decide
  have alone : ∀ label ∈ revokedLease, Client label ∧ ∀ watching, Alone ⟨0x0a010100, 24⟩ IP6Net.zero
      "/coreos.com/network/subnets/10.1.1.0-24" watching label := by
    simp only [revokedLease, List.forall_mem_cons]
    exact ⟨⟨trivial, fun _ => trivial⟩, ⟨trivial, fun _ _ _ _ => own⟩, ⟨trivial, fun _ => trivial⟩,
      ⟨trivial, fun _ => trivial⟩, ⟨trivial, fun _ => trivial⟩, ⟨trivial, fun _ => trivial⟩,
      ⟨trivial, fun _ => trivial⟩, ⟨trivial, fun _ => trivial⟩, ⟨trivial, fun _ => trivial⟩,
      ⟨trivial, fun _ _ _ _ => own⟩, nofun⟩
  refine ⟨by decide +kernel, ?_⟩
  refine (watchLease_reports_own_iff (by decide +kernel) fun label mem => (alone label mem).1).mpr ?_
  exact (along_of_forall_mem alone).mono fun watching label all => all.2 watching

def dualNeighbour : List WatchLabel :=
  [storing "/coreos.com/network/subnets/10.1.1.0-24" 1, listing, .connect true,
    storing "/coreos.com/network/subnets/10.1.1.0-24&fc00::-64" 2,
    .commit [.delete "/coreos.com/network/subnets/10.1.1.0-24&fc00::-64"]]

/-- The deletion is forwarded, as the removal of a lease that is not the watched one, which
is still stored. -/
theorem watchLease_reports_neighbour : ∃ watching event,
    run (Watching.leaseStep "/coreos.com/network" ⟨0x0a010100, 24⟩ IP6Net.zero
      "/coreos.com/network/subnets/10.1.1.0-24") Watching.initial dualNeighbour = some watching ∧
    (watching.etcd.get? "/coreos.com/network/subnets/10.1.1.0-24").isSome ∧
    event ∈ watching.forwarded ⟨0x0a010100, 24⟩ IP6Net.zero
      "/coreos.com/network/subnets/10.1.1.0-24" (responding 3) ∧
    event.type = .removed ∧ event.lease.key ≠ pairKey ⟨0x0a010100, 24⟩ IP6Net.zero := by
  have runs : ((run (Watching.leaseStep "/coreos.com/network" ⟨0x0a010100, 24⟩ IP6Net.zero
      "/coreos.com/network/subnets/10.1.1.0-24") Watching.initial dualNeighbour).map fun watching =>
        ((watching.etcd.get? "/coreos.com/network/subnets/10.1.1.0-24").isSome,
          (watching.forwarded ⟨0x0a010100, 24⟩ IP6Net.zero
            "/coreos.com/network/subnets/10.1.1.0-24" (responding 3))[1]?)) =
      some (true, some ⟨.removed, ⟨true, true, ⟨0x0a010100, 24⟩,
        ⟨some 0xfc000000000000000000000000000000, 64⟩, .zero, 0, 0⟩⟩) := by
    decide +kernel
  obtain ⟨watching, reached, figures⟩ := Option.map_eq_some_iff.mp runs
  obtain ⟨stored, sent⟩ := Prod.mk.inj figures
  exact ⟨watching, _, reached, stored, List.mem_of_getElem? sent, rfl, by decide⟩

end Flannel.Etcd
