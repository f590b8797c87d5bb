import Flannel.Etcd.Registry
import Flannel.Leases.View

/-!
# Watch responses and their consumer

How `watchSubnets` turns the events of a response into results, and how `subnet.WatchLeases` feeds
them to its lease watcher, for which a result without events is a snapshot, even an empty one.
-/

namespace Flannel.Etcd

open Ip Leases Subnet KeyValue

structure EtcdEvent where
  type : EtcdEventType
  kv : KV
  deriving DecidableEq

structure Answers where
  timeToLive : Except Error Int
  now : Time
  leasesWatchReset : Except Error LeaseWatchResult

def parseSubnetWatchResponse (answers : Answers) (ev : EtcdEvent) : Except Error Event :=
  match keySubnets ev.kv.key with
  | none => .error (.notASubnet ev.type ev.kv.key)
  | some (sn, sn6) =>
    match ev.type with
    | .delete => .ok ⟨.removed, ⟨true, !sn6.empty, sn, sn6, .zero, 0, 0⟩⟩
    | .put =>
      match ev.kv.value.value, answers.timeToLive with
      | none, _ => .error .badValue
      | some _, .error error => .error error
      | some attrs, .ok ttl =>
        .ok ⟨.added, ⟨true, !sn6.empty, sn, sn6, attrs, answers.now + ttl * second, 0⟩⟩

def isIndexTooSmall (error : Error) : Bool :=
  error == .grpcCompacted

def watchResult (revision : Int) (answers : Answers) (ev : EtcdEvent) : LeaseWatchResult :=
  match parseSubnetWatchResponse answers ev with
  | .ok subnetEvent =>
    ⟨[{ subnetEvent with lease := { subnetEvent.lease with enableIPv4 := true } }], [],
      some revision⟩
  | .error error =>
    if isIndexTooSmall error then
      match answers.leasesWatchReset with
      | .ok wr => wr
      | .error _ => ⟨[], [], none⟩
    else if revision ≠ 0 then ⟨[], [], some revision⟩
    else ⟨[], [], none⟩

structure WatchResponse where
  revision : Int
  events : List (EtcdEvent × Answers)

def WatchResponse.results (response : WatchResponse) : List LeaseWatchResult :=
  response.events.map fun event => watchResult response.revision event.2 event.1

def consume (lw : LeaseWatcher) (wr : LeaseWatchResult) : Option (List Event × LeaseWatcher) :=
  if 0 < wr.events.length then lw.update wr.events else lw.reset wr.snapshot

/-! ## Rejected events -/

def subnetOf (key : String) : Option SubnetKey :=
  (keySubnets key).map fun subnets => (subnets.1, if subnets.2.empty then none else some subnets.2)

def EtcdEvent.subnet (ev : EtcdEvent) : Option SubnetKey :=
  subnetOf ev.kv.key

/-- Leases of other subnets are still stored and none was withdrawn. -/
def Undisturbed (about : Option SubnetKey) (before after : LeaseWatcher) (batch : List Event) :
    Prop :=
  ∀ lease ∈ before.leases, some lease.key ≠ about →
    lease ∈ after.leases ∧ ∀ event ∈ batch, event.type = .removed → event.lease.key ≠ lease.key

theorem isIndexTooSmall_eq_false {answers : Answers} {ev : EtcdEvent} {error : Error}
    (client : answers.timeToLive ≠ .error .grpcCompacted)
    (rejected : parseSubnetWatchResponse answers ev = .error error) :
    isIndexTooSmall error = false := by
  rw [isIndexTooSmall, beq_eq_false_iff_ne]
  rintro rfl
  rw [parseSubnetWatchResponse] at rejected
  split at rejected
  · cases rejected
  · split at rejected
    · cases rejected
    · split at rejected
      · cases rejected
      · rename_i failed
        exact client (failed.trans (congrArg Except.error (Except.error.inj rejected)))
      · cases rejected

theorem watchResult_of_rejected {revision : Int} {answers : Answers} {ev : EtcdEvent}
    {error : Error} (client : answers.timeToLive ≠ .error .grpcCompacted)
    (rejected : parseSubnetWatchResponse answers ev = .error error) :
    (watchResult revision answers ev).events = [] ∧
      (watchResult revision answers ev).snapshot = [] := by
  rw [watchResult, rejected]
  simp only [isIndexTooSmall_eq_false client rejected, Bool.false_eq_true, if_false]
  by_cases zero : revision = 0 <;> simp [zero]

theorem consume_empty {wr : LeaseWatchResult} (noEvents : wr.events = [])
    (noSnapshot : wr.snapshot = []) (lw : LeaseWatcher) :
    consume lw wr = some (lw.leases.map (⟨.removed, ·⟩), { lw with leases := [] }) := by
  simp [consume, noEvents, noSnapshot, LeaseWatcher.reset, LeaseWatcher.resetLoop]

theorem undisturbed_by_empty_iff {about : Option SubnetKey} {lw : LeaseWatcher} :
    Undisturbed about lw { lw with leases := [] } (lw.leases.map (⟨.removed, ·⟩)) ↔
      ∀ lease ∈ lw.leases, some lease.key = about := by
  constructor
  · intro undisturbed lease mem
    by_contra other
    have kept := (undisturbed lease mem other).1
    contradiction
  · intro all lease mem other
    exact absurd (all lease mem) other

/-- A rejected event of a response is harmless to the other leases exactly when
there are none. -/
theorem rejected_harmless_iff (lw : LeaseWatcher) (response : WatchResponse) {ev : EtcdEvent}
    {answers : Answers} {error : Error} (mem : (ev, answers) ∈ response.events)
    (client : answers.timeToLive ≠ .error .grpcCompacted)
    (rejected : parseSubnetWatchResponse answers ev = .error error) :
    watchResult response.revision answers ev ∈ response.results ∧
      ∃ batch after, consume lw (watchResult response.revision answers ev) = some (batch, after) ∧
        (Undisturbed ev.subnet lw after batch ↔ ∀ lease ∈ lw.leases, some lease.key = ev.subnet) := by
  obtain ⟨noEvents, noSnapshot⟩ := watchResult_of_rejected client rejected
  have sent : watchResult response.revision answers ev ∈ response.results :=
    List.mem_map.mpr ⟨(ev, answers), mem, rfl⟩
  exact ⟨sent, _, _, consume_empty noEvents noSnapshot lw, undisturbed_by_empty_iff⟩

theorem rejected_harmless_without_leases :
    Undisturbed none ⟨plainLease 0x0a010100 1, []⟩ ⟨plainLease 0x0a010100 1, []⟩ [] := by
  have event := rejected_harmless_iff ⟨plainLease 0x0a010100 1, []⟩
    ⟨7, [(⟨.put, ⟨"/coreos.com/network/subnets/x", ⟨none, 1⟩, 7⟩⟩, ⟨.ok 10, 1, .error .request⟩)]⟩
    (.head _) (by decide) rfl
  obtain ⟨-, batch, after, consumed, harmless⟩ := event
  cases consumed
  exact harmless.mpr nofun

theorem rejected_event_withdraws_lease :
    ∃ batch after, consume ⟨plainLease 0x0a010100 1, [plainLease 0x0a010200 2]⟩
        (watchResult 7 ⟨.ok 10, 1, .error .request⟩
          ⟨.put, ⟨"/coreos.com/network/subnets/x", ⟨none, 1⟩, 7⟩⟩) = some (batch, after) ∧
      ¬ Undisturbed (EtcdEvent.subnet ⟨.put, ⟨"/coreos.com/network/subnets/x", ⟨none, 1⟩, 7⟩⟩)
        ⟨plainLease 0x0a010100 1, [plainLease 0x0a010200 2]⟩ after batch := by
  refine ⟨_, _, rfl, fun undisturbed => ?_⟩
  have kept := (undisturbed (plainLease 0x0a010200 2) (.head _) (by decide)).1
  contradiction

end Flannel.Etcd
