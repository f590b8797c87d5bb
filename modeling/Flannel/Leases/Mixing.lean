import Flannel.Leases.View

/-!
# Leases with and without IPv6

A lease with IPv6 is compared by both of its subnets, and the IPv6 address of a lease without it
may be nil. No sequence of calls dereferences it exactly if no two leases, or one and the own
lease, are of different kinds and of one subnet of IPv4. One without IPv6 of the own subnet is
taken for the own one.
-/

namespace Flannel.Leases

open Ip Transition

structure Formed (l : Lease) : Prop where
  enableIPv4 : l.enableIPv4 = true
  isSet : l.enableIPv6 = true → l.ipv6Subnet.ip.isSome = true

def Call.leases : Call → List Lease
  | .reset snapshot => snapshot
  | .update events => events.map Event.lease

/-- Leases of different kinds do not share a subnet of IPv4, that of the own lease apart. -/
structure Unmixed (ownLease : Lease) (leases : List Lease) : Prop where
  others : ∀ d ∈ leases, ∀ s ∈ leases, d.enableIPv6 = true → s.ipv6Subnet.ip = none →
    d.subnet = s.subnet → s.subnet = ownLease.subnet
  own : ∀ d ∈ leases, d.enableIPv6 = true → d.subnet = ownLease.subnet →
    ownLease.ipv6Subnet.ip.isSome = true

section Comparison

variable {l first second : Lease}

theorem Formed.enableIPv6_of_nil (formed : Formed l) (isNil : l.ipv6Subnet.ip = none) :
    l.enableIPv6 = false := by
  cases enabled : l.enableIPv6 with
  | false => rfl
  | true =>
    have isSet := formed.isSet enabled
    rw [isNil] at isSet
    cases isSet

theorem sameSubnet_of_single (formed : Formed l) (single : l.enableIPv6 = false) :
    sameSubnet l.enableIPv4 l.enableIPv6 first second = some (first.subnet.equal second.subnet) := by
  rw [formed.enableIPv4, single]
  rfl

theorem sameSubnet_of_dual (formed : Formed l) (dual : l.enableIPv6) :
    sameSubnet l.enableIPv4 l.enableIPv6 first second =
      if first.subnet = second.subnet then first.ipv6Subnet.equal second.ipv6Subnet else some false := by
  rw [formed.enableIPv4, dual, sameSubnet]
  simp only [IP4Net.equal_iff]

theorem exists_equal {n other : IP6Net} (isSet : n.ip.isSome) (isSet' : other.ip.isSome) :
    ∃ same, n.equal other = some same :=
  ⟨_, IP6Net.equal_eq_some (isSet.trans isSet'.symm)⟩

theorem equal_eq_none {n other : IP6Net} (differ : n.ip.isSome ≠ other.ip.isSome) :
    n.equal other = none := by
  rcases n with ⟨_ | ip6, length⟩ <;> rcases other with ⟨_ | ip6', length'⟩
  · exact absurd rfl differ
  · rfl
  · rfl
  · exact absurd rfl differ

end Comparison

section Watcher

variable {ownLease : Lease} {leases : List Lease}

theorem Unmixed.compare_own (unmixed : Unmixed ownLease leases) (formed : ∀ l ∈ leases, Formed l) {l : Lease}
    (mem : l ∈ leases) :
    ∃ isOwn, sameSubnet l.enableIPv4 l.enableIPv6 ownLease l = some isOwn ∧
      (isOwn = false → l.ipv6Subnet.ip = none → l.subnet ≠ ownLease.subnet) := by
  cases enabled : l.enableIPv6 with
  | false =>
    refine ⟨ownLease.subnet.equal l.subnet, enabled ▸ sameSubnet_of_single (formed l mem) enabled, ?_⟩
    rintro differ _ same
    rw [(IP4Net.equal_iff _ _).mpr same.symm] at differ
    cases differ
  | true =>
    have isSet := (formed l mem).isSet enabled
    have notNil : l.ipv6Subnet.ip ≠ none := fun isNil => by simp [isNil] at isSet
    have compared := @sameSubnet_of_dual l ownLease l (formed l mem) enabled
    rw [enabled] at compared
    by_cases same : ownLease.subnet = l.subnet
    · obtain ⟨isOwn, equal⟩ := exists_equal (unmixed.own l mem enabled same.symm) isSet
      rw [if_pos same, equal] at compared
      exact ⟨isOwn, compared, fun _ isNil => absurd isNil notNil⟩
    · rw [if_neg same] at compared
      exact ⟨false, compared, fun _ isNil => absurd isNil notNil⟩

theorem Unmixed.compare_stored (unmixed : Unmixed ownLease leases) (formed : ∀ l ∈ leases, Formed l)
    {o l : Lease} (memO : o ∈ leases) (mem : l ∈ leases)
    (other : l.ipv6Subnet.ip = none → l.subnet ≠ ownLease.subnet) :
    ∃ same, sameSubnet o.enableIPv4 o.enableIPv6 o l = some same := by
  cases enabled : o.enableIPv6 with
  | false => exact ⟨_, enabled ▸ sameSubnet_of_single (formed o memO) enabled⟩
  | true =>
    have compared := @sameSubnet_of_dual o o l (formed o memO) enabled
    rw [enabled] at compared
    by_cases same : o.subnet = l.subnet
    · have isSet : l.ipv6Subnet.ip.isSome := by
        cases isNil : l.ipv6Subnet.ip with
        | some ip6 => rfl
        | none => exact absurd (unmixed.others o memO l mem enabled isNil same) (other isNil)
      obtain ⟨isSame, equal⟩ := exists_equal ((formed o memO).isSet enabled) isSet
      rw [if_pos same, equal] at compared
      exact ⟨isSame, compared⟩
    · rw [if_neg same] at compared
      exact ⟨false, compared⟩

variable {stored : List Lease}

theorem Unmixed.indexOfSame (unmixed : Unmixed ownLease leases) (formed : ∀ l ∈ leases, Formed l)
    {l : Lease} (mem : l ∈ leases) (other : l.ipv6Subnet.ip = none → l.subnet ≠ ownLease.subnet)
    (within : stored ⊆ leases) :
    ∃ index, indexOfSame l stored = some index := by
  induction stored with
  | nil => exact ⟨none, rfl⟩
  | cons o stored ih =>
    obtain ⟨rest, isRest⟩ := ih (List.subset_of_cons_subset within)
    obtain ⟨same, compared⟩ := unmixed.compare_stored formed (within (.head _)) mem other
    rw [Leases.indexOfSame, compared, isRest]
    cases same with
    | true => exact ⟨some 0, rfl⟩
    | false => exact ⟨_, rfl⟩

theorem Unmixed.resetLoop (unmixed : Unmixed ownLease leases) (formed : ∀ l ∈ leases, Formed l)
    {new : List Lease} (withinNew : new ⊆ leases) (within : stored ⊆ leases) :
    ∃ result, LeaseWatcher.resetLoop ownLease new stored = some result := by
  induction new generalizing stored with
  | nil => exact ⟨_, rfl⟩
  | cons l new ih =>
    have later := List.subset_of_cons_subset withinNew
    have mem := withinNew (.head _)
    obtain ⟨isOwn, compared, other⟩ := unmixed.compare_own formed mem
    rw [LeaseWatcher.resetLoop, compared]
    cases isOwn with
    | true => exact ih later within
    | false =>
      obtain ⟨index, found⟩ := unmixed.indexOfSame formed mem (other rfl) within
      rw [found]
      cases index with
      | some i => exact ih later (List.Subset.trans (List.eraseIdx_sublist stored i).subset within)
      | none =>
        obtain ⟨result, isResult⟩ := ih later within
        exact ⟨(⟨.added, l⟩ :: result.1, result.2), by simp [isResult]⟩

theorem Unmixed.reset (unmixed : Unmixed ownLease leases) (formed : ∀ l ∈ leases, Formed l)
    {snapshot : List Lease} (withinNew : snapshot ⊆ leases) (within : stored ⊆ leases) :
    ∃ batch, LeaseWatcher.reset ⟨ownLease, stored⟩ snapshot = some (batch, ⟨ownLease, snapshot⟩) := by
  obtain ⟨⟨batch, left⟩, isResult⟩ := unmixed.resetLoop formed withinNew within
  exact ⟨batch ++ left.map (⟨.removed, ·⟩), by rw [LeaseWatcher.reset, isResult]; rfl⟩

theorem Unmixed.update_singleton (unmixed : Unmixed ownLease leases) (formed : ∀ l ∈ leases, Formed l)
    {stored : List Lease} (within : stored ⊆ leases) {e : Event} (mem : e.lease ∈ leases) :
    ∃ batch stored', LeaseWatcher.update ⟨ownLease, stored⟩ [e] = some (batch, ⟨ownLease, stored'⟩) ∧
      stored' ⊆ leases := by
  obtain ⟨isOwn, compared, other⟩ := unmixed.compare_own formed mem
  cases isOwn with
  | true => exact ⟨[], stored, by simp [LeaseWatcher.update, compared], within⟩
  | false =>
    obtain ⟨index, found⟩ := unmixed.indexOfSame formed mem (other rfl) within
    obtain ⟨type, l⟩ := e
    dsimp only at mem compared found
    cases type with
    | added =>
      cases index with
      | none =>
        refine ⟨[⟨.added, l⟩], stored ++ [l],
          by simp [LeaseWatcher.update, compared, LeaseWatcher.add, found], ?_⟩
        exact List.append_subset.mpr ⟨within, List.cons_subset.mpr ⟨mem, List.nil_subset _⟩⟩
      | some i =>
        refine ⟨[⟨.added, l⟩], stored.set i l,
          by simp [LeaseWatcher.update, compared, LeaseWatcher.add, found], ?_⟩
        intro x isIn
        rcases List.mem_or_eq_of_mem_set isIn with old | rfl
        · exact within old
        · exact mem
    | removed =>
      cases index with
      | none =>
        exact ⟨[⟨.removed, l⟩], stored,
          by simp [LeaseWatcher.update, compared, LeaseWatcher.remove, found], within⟩
      | some i =>
        exact ⟨[⟨.removed, (stored[i]?).getD l⟩], stored.eraseIdx i,
          by simp [LeaseWatcher.update, compared, LeaseWatcher.remove, found],
          List.Subset.trans (List.eraseIdx_sublist stored i).subset within⟩

theorem Unmixed.update (unmixed : Unmixed ownLease leases) (formed : ∀ l ∈ leases, Formed l)
    {events : List Event} (mem : ∀ e ∈ events, e.lease ∈ leases) (within : stored ⊆ leases) :
    ∃ batch stored', LeaseWatcher.update ⟨ownLease, stored⟩ events = some (batch, ⟨ownLease, stored'⟩) ∧
      stored' ⊆ leases := by
  induction events generalizing stored with
  | nil => exact ⟨[], stored, rfl, within⟩
  | cons e events ih =>
    obtain ⟨first, middle, one, within'⟩ :=
      unmixed.update_singleton formed within (mem e (.head _))
    obtain ⟨second, last, rest, within''⟩ :=
      ih (fun e' mem' => mem e' (List.mem_cons_of_mem e mem')) within'
    refine ⟨first ++ second, last, ?_, within''⟩
    rw [update_cons, one]
    simp [rest]

theorem Unmixed.step (unmixed : Unmixed ownLease leases) (formed : ∀ l ∈ leases, Formed l)
    (within : stored ⊆ leases) {call : Call} (mem : call.leases ⊆ leases)
    (registry : SubnetKey → Option LeaseAttrs) (emitted : List Event) :
    ∃ stored' registry' emitted',
      View.step ⟨⟨ownLease, stored⟩, registry, emitted⟩ call =
          some ⟨⟨ownLease, stored'⟩, registry', emitted'⟩ ∧ stored' ⊆ leases := by
  cases call with
  | reset snapshot =>
    have withinNew : snapshot ⊆ leases := mem
    obtain ⟨batch, isResult⟩ := unmixed.reset formed withinNew within
    refine ⟨snapshot, attrsTable snapshot, emitted ++ batch, ?_, withinNew⟩
    rw [View.step, isResult]
    rfl
  | update events =>
    have memEvents : ∀ e ∈ events, e.lease ∈ leases := fun e isIn => mem (List.mem_map_of_mem isIn)
    obtain ⟨batch, stored', isResult, within'⟩ := unmixed.update formed memEvents within
    refine ⟨stored', Table.replay registry (events.map Event.change), emitted ++ batch, ?_, within'⟩
    rw [View.step, isResult]
    rfl

theorem Unmixed.run (unmixed : Unmixed ownLease leases) (formed : ∀ l ∈ leases, Formed l)
    {calls : List Call} (mem : ∀ call ∈ calls, call.leases ⊆ leases)
    (within : stored ⊆ leases) (registry : SubnetKey → Option LeaseAttrs) (emitted : List Event) :
    (run View.step ⟨⟨ownLease, stored⟩, registry, emitted⟩ calls).isSome := by
  induction calls generalizing stored registry emitted with
  | nil => rfl
  | cons call calls ih =>
    obtain ⟨stored', registry', emitted', taken, within'⟩ :=
      unmixed.step formed within (mem call (.head _)) registry emitted
    rw [Transition.run, taken]
    exact ih (fun other isIn => mem other (.tail call isIn)) within' _ _

theorem update_own_eq_none {d : Lease} (formed : Formed d) (dual : d.enableIPv6)
    (same : d.subnet = ownLease.subnet) (isNil : ownLease.ipv6Subnet.ip = none) (stored : List Lease) :
    LeaseWatcher.update ⟨ownLease, stored⟩ [⟨.added, d⟩] = none := by
  have differ : ownLease.ipv6Subnet.ip.isSome ≠ d.ipv6Subnet.ip.isSome := by
    rw [isNil, formed.isSet dual]
    exact Bool.false_ne_true
  have compared := @sameSubnet_of_dual d ownLease d formed dual
  rw [if_pos same.symm, equal_eq_none differ] at compared
  simp [LeaseWatcher.update, compared]

theorem update_stored_eq_none {d s : Lease} (formedD : Formed d) (formedS : Formed s)
    (dual : d.enableIPv6) (isNil : s.ipv6Subnet.ip = none) (same : d.subnet = s.subnet)
    (other : s.subnet ≠ ownLease.subnet) :
    LeaseWatcher.update ⟨ownLease, []⟩ [⟨.added, d⟩] = some ([⟨.added, d⟩], ⟨ownLease, [d]⟩) ∧
      LeaseWatcher.update ⟨ownLease, [d]⟩ [⟨.added, s⟩] = none := by
  have single := formedS.enableIPv6_of_nil isNil
  have notOwnD := @sameSubnet_of_dual d ownLease d formedD dual
  rw [if_neg fun equal => other (same.symm.trans equal.symm)] at notOwnD
  have notOwnS := @sameSubnet_of_single s ownLease s formedS single
  have differ : ownLease.subnet.equal s.subnet = false := by
    rw [Bool.eq_false_iff, ne_eq, IP4Net.equal_iff]
    exact fun equal => other equal.symm
  have compared := @sameSubnet_of_dual d d s formedD dual
  have differ6 : d.ipv6Subnet.ip.isSome ≠ s.ipv6Subnet.ip.isSome := by
    rw [isNil, formedD.isSet dual]
    exact Bool.noConfusion
  rw [if_pos same, equal_eq_none differ6] at compared
  rw [differ] at notOwnS
  constructor
  · simp [LeaseWatcher.update, LeaseWatcher.add, notOwnD, indexOfSame]
  · simp [LeaseWatcher.update, LeaseWatcher.add, notOwnS, indexOfSame, compared]

theorem run_isSome_iff_unmixed (formed : ∀ l ∈ leases, Formed l) :
    (∀ calls : List Call, (∀ call ∈ calls, call.leases ⊆ leases) →
        (Transition.run View.step (View.initial ownLease) calls).isSome) ↔
      Unmixed ownLease leases := by
  have single : ∀ l ∈ leases, (Call.update [⟨.added, l⟩]).leases ⊆ leases := fun l mem =>
    List.cons_subset.mpr ⟨mem, List.nil_subset _⟩
  constructor
  · intro returns
    constructor
    · intro d memD s memS dual isNil same
      by_contra other
      obtain ⟨adds, stops⟩ :=
        update_stored_eq_none (formed d memD) (formed s memS) dual isNil same other
      have isSome := returns [.update [⟨.added, d⟩], .update [⟨.added, s⟩]] (by
        simp [single d memD, single s memS])
      simp [Transition.run, View.step, View.initial, adds, stops] at isSome
    · intro d memD dual same
      by_contra isNil
      have stops := update_own_eq_none (formed d memD) dual same (by simpa using isNil) []
      have isSome := returns [.update [⟨.added, d⟩]] (by simp [single d memD])
      simp [Transition.run, View.step, View.initial, stops] at isSome
  · intro unmixed calls mem
    exact unmixed.run formed mem (List.nil_subset _) _ _

end Watcher

end Flannel.Leases
