import Flannel.Leases.Watcher

/-!
# Watching by events

A `LeaseWatcher` driven by events only, with leases of one choice of families. The subnets of
these families identify a lease, and the watcher's list is the fold of the events as a finite map.
A consumer that replays what the watcher emits holds the same map.
-/

namespace Flannel.Leases

open Ip Table Transition

/-- Leases with the given families, whose IPv6 subnet is set when it is enabled. -/
structure OfFamilies (ipv4 ipv6 : Bool) (lease : Lease) : Prop where
  enableIPv4 : lease.enableIPv4 = ipv4
  enableIPv6 : lease.enableIPv6 = ipv6
  set : ipv6 = true → lease.ipv6Subnet.ip.isSome = true

def Lease.subnets (ipv4 ipv6 : Bool) (lease : Lease) : Option IP4Net × Option IP6Net :=
  (if ipv4 then some lease.subnet else none, if ipv6 then some lease.ipv6Subnet else none)

theorem sameSubnet_eq_subnets {ipv4 ipv6 : Bool} (enabled : ipv4 ∨ ipv6)
    {first second : Lease} (set : ipv6 → first.ipv6Subnet.ip.isSome)
    (set' : ipv6 → second.ipv6Subnet.ip.isSome) :
    sameSubnet ipv4 ipv6 first second =
      some (decide (first.subnets ipv4 ipv6 = second.subnets ipv4 ipv6)) := by
  cases ipv6 with
  | false =>
    obtain rfl : ipv4 := by simpa using enabled
    by_cases same : first.subnet = second.subnet
    · simp [sameSubnet, Lease.subnets, same]
    · have differ : first.subnet.equal second.subnet = false := by
        rw [Bool.eq_false_iff, ne_eq, IP4Net.equal_iff]
        exact same
      simp [sameSubnet, Lease.subnets, same, differ]
  | true =>
    have compared := IP6Net.equal_eq_some ((set rfl).trans (set' rfl).symm)
    cases ipv4 with
    | false => simp [sameSubnet, Lease.subnets, compared]
    | true =>
      by_cases same : first.subnet = second.subnet
      · simp [sameSubnet, Lease.subnets, compared, same]
      · have differ : first.subnet.equal second.subnet = false := by
          rw [Bool.eq_false_iff, ne_eq, IP4Net.equal_iff]
          exact same
        simp [sameSubnet, Lease.subnets, same, differ]

theorem keying_ofFamilies {ipv4 ipv6 : Bool} (enabled : ipv4 ∨ ipv6)
    {ownLease : Lease} (ownSet : ipv6 → ownLease.ipv6Subnet.ip.isSome) :
    Keying (OfFamilies ipv4 ipv6) (Lease.subnets ipv4 ipv6) ownLease where
  stored := by
    intro first second ofFirst ofSecond
    rw [ofFirst.enableIPv4, ofFirst.enableIPv6]
    exact sameSubnet_eq_subnets enabled ofFirst.set ofSecond.set
  own := by
    intro lease ofLease
    rw [ofLease.enableIPv4, ofLease.enableIPv6]
    exact sameSubnet_eq_subnets enabled ownSet ofLease.set

/-! ## Sequences of calls -/

structure Log where
  watcher : LeaseWatcher
  emitted : List Event
  deriving DecidableEq

namespace Log

def start (ownLease : Lease) : Log :=
  ⟨⟨ownLease, []⟩, []⟩

def update : Step Log (List Event) := fun log events =>
  (log.watcher.update events).map fun result => ⟨result.2, log.emitted ++ result.1⟩

theorem run_update (log : Log) (calls : List (List Event)) :
    run update log calls = update log calls.flatten := by
  induction calls generalizing log with
  | nil => simp [update, LeaseWatcher.update]
  | cons events calls ih =>
    rw [run, List.flatten_cons]
    simp only [update, update_append, Option.map_bind, Option.bind_map]
    congr 1
    funext one
    simp [ih, update, Function.comp_def]

theorem update_append (log : Log) (first second : List Event) :
    update log (first ++ second) = (update log first).bind fun middle => update middle second := by
  have cut := run_update log [first, second]
  rw [run, List.flatten_cons, List.flatten_singleton] at cut
  rw [← cut]
  congr 1
  funext middle
  rw [run_update, List.flatten_singleton]

end Log

/-- Whenever a removal names a subnet that is stored at that moment, the stored lease is passed on
in its place. -/
def RemovalsStored {κ : Type} (key : Lease → κ) (ownLease : Lease) (events emitted : List Event) :
    Prop :=
  ∀ before e after, events = before ++ e :: after → e.type = .removed →
    ∀ middle, Log.update (Log.start ownLease) before = some middle →
      ∀ stored ∈ middle.watcher.leases, key stored = key e.lease →
        ∃ later, emitted = middle.emitted ++ ⟨.removed, stored⟩ :: later

theorem removalsStored {κ : Type} [DecidableEq κ] {kind : Lease → Prop} {key : Lease → κ}
    {ownLease : Lease} (keying : Keying kind key ownLease) {events : List Event}
    (kinds : ∀ e ∈ events, kind e.lease) {log : Log}
    (updated : Log.update (Log.start ownLease) events = some log) :
    RemovalsStored key ownLease events log.emitted := by
  rintro before e after rfl removed middle first stored mem same
  obtain ⟨emitted, leases, updates, tracks⟩ :=
    exists_update_tracks keying fun other mem => kinds other (List.mem_append_left _ mem)
  obtain rfl : ⟨⟨ownLease, leases⟩, emitted⟩ = middle := by
    simpa [Log.update, Log.start, updates] using first
  have kindOf := kinds e (List.mem_append_right _ (.head _))
  have differ : key ownLease ≠ key e.lease := same ▸ (tracks.silent stored mem).symm
  have passed : relayed key leases e = ⟨.removed, stored⟩ := by
    rw [relayed, removed, ← same, lookup_eq_some_of_mem tracks.distinct mem]
    rfl
  have one : Log.update ⟨⟨ownLease, leases⟩, emitted⟩ [e] =
      some ⟨⟨ownLease, tracked key leases e⟩, emitted ++ [⟨.removed, stored⟩]⟩ := by
    have single := @update_singleton κ _ kind key ⟨ownLease, leases⟩ keying tracks.kinds e kindOf
    rw [Log.update, single, if_neg differ, passed]
    rfl
  rw [Log.update_append, first, Option.bind_some, ← List.singleton_append, Log.update_append, one,
    Option.bind_some] at updated
  obtain ⟨rest, _, rfl⟩ := Option.map_eq_some_iff.mp updated
  exact ⟨rest.1, by simp⟩

/-- For every choice of families, own lease and sequence of calls with leases of
these families, all calls return; the watcher then stores no subnet twice and never
the own one, its leases are the fold of the events, replaying what was emitted
gives the same map, and a removal of a stored subnet passes on the stored lease. -/
theorem update_is_finite_map {ipv4 ipv6 : Bool} (enabled : ipv4 = true ∨ ipv6 = true)
    {ownLease : Lease} (ownSet : ipv6 = true → ownLease.ipv6Subnet.ip.isSome = true)
    {calls : List (List Event)}
    (uniform : ∀ events ∈ calls, ∀ e ∈ events, OfFamilies ipv4 ipv6 e.lease) :
    ∃ log, run Log.update (Log.start ownLease) calls = some log ∧
      (log.watcher.leases.map (Lease.subnets ipv4 ipv6)).Nodup ∧
      (∀ l ∈ log.watcher.leases, l.subnets ipv4 ipv6 ≠ ownLease.subnets ipv4 ipv6) ∧
      (∀ k, lookup (Lease.subnets ipv4 ipv6) log.watcher.leases k =
        replay (fun _ => none) ((others (Lease.subnets ipv4 ipv6) ownLease calls.flatten).map
          (Event.tracks (Lease.subnets ipv4 ipv6))) k) ∧
      (∀ k, replay (fun _ => none) (log.emitted.map (Event.tracks (Lease.subnets ipv4 ipv6))) k =
        lookup (Lease.subnets ipv4 ipv6) log.watcher.leases k) ∧
      RemovalsStored (Lease.subnets ipv4 ipv6) ownLease calls.flatten log.emitted := by
  have keying := keying_ofFamilies enabled ownSet
  have kinds : ∀ e ∈ calls.flatten, OfFamilies ipv4 ipv6 e.lease := by
    intro e mem
    obtain ⟨events, isCall, isEvent⟩ := List.mem_flatten.mp mem
    exact uniform events isCall e isEvent
  obtain ⟨emitted, leases, updates, tracks⟩ := exists_update_tracks keying kinds
  have updated : Log.update (Log.start ownLease) calls.flatten =
      some ⟨⟨ownLease, leases⟩, emitted⟩ := by
    simp [Log.update, Log.start, updates]
  refine ⟨⟨⟨ownLease, leases⟩, emitted⟩, ?_, tracks.distinct, tracks.silent, tracks.folded,
    tracks.replayed, removalsStored keying kinds updated⟩
  rw [Log.run_update, updated]

def ipv6Lease (ip6 : IP6) (attrs : LeaseAttrs) : Lease :=
  ⟨false, true, ⟨0, 0⟩, ⟨some ip6, 64⟩, attrs, 0, 0⟩

theorem update_is_finite_map_ipv6 :
    ∃ log, run Log.update (Log.start (ipv6Lease 1 LeaseAttrs.zero))
        [[⟨.added, ipv6Lease 2 { LeaseAttrs.zero with backendType := "vxlan" }⟩],
          [⟨.removed, ipv6Lease 2 LeaseAttrs.zero⟩]] = some log ∧
      ∃ later, log.emitted =
        [⟨.added, ipv6Lease 2 { LeaseAttrs.zero with backendType := "vxlan" }⟩] ++
          ⟨.removed, ipv6Lease 2 { LeaseAttrs.zero with backendType := "vxlan" }⟩ :: later := by
  have uniform : ∀ events ∈ [[⟨.added, ipv6Lease 2 { LeaseAttrs.zero with backendType := "vxlan" }⟩],
      [⟨.removed, ipv6Lease 2 LeaseAttrs.zero⟩]], ∀ e ∈ events,
      OfFamilies false true (Event.lease e) := by
    simp [ipv6Lease, OfFamilies.mk]
  obtain ⟨log, runs, _, _, _, _, removals⟩ :=
    @update_is_finite_map false true (.inr rfl) (ipv6Lease 1 LeaseAttrs.zero) (fun _ => rfl) _ uniform
  refine ⟨log, runs, ?_⟩
  exact removals [_] _ [] rfl rfl _ rfl _ (.head _) rfl

end Flannel.Leases
