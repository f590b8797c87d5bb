import Flannel.Leases.Core
import Flannel.Table.Replay
import Flannel.Transition.Core

/-!
# The watcher as a finite map

Where comparing leases amounts to comparing keys, `Update` treats its events one by one: an added
lease overwrites the entry of its key, a removal erases it, and the event passed on for a removal
carries the stored lease.
-/

namespace Flannel.Leases

open Ip Table Transition

/-! ## The calls one by one -/

section Calls

variable {κ : Type} [DecidableEq κ] {key : Lease → κ} {lw : LeaseWatcher} {lease : Lease}

theorem eraseIdx_findIdx? {stored : List Lease} {k : κ} {i : Nat}
    (found : (stored.findIdx? fun l => decide (key l = k)) = some i) :
    stored.eraseIdx i = erase key k stored := by
  rw [erase, List.eraseP_eq_eraseIdx, found]

theorem add_eq_upsert
    (compares : ∀ l ∈ lw.leases,
      sameSubnet l.enableIPv4 l.enableIPv6 l lease = some (decide (key l = key lease))) :
    lw.add lease = some (⟨.added, lease⟩, { lw with leases := upsert key lease lw.leases }) := by
  rw [LeaseWatcher.add, indexOfSame_eq_findIdx? compares, upsert]
  cases lw.leases.findIdx? fun l => decide (key l = key lease) <;> rfl

theorem remove_eq_erase
    (compares : ∀ l ∈ lw.leases,
      sameSubnet l.enableIPv4 l.enableIPv6 l lease = some (decide (key l = key lease))) :
    lw.remove lease =
      some (⟨.removed, (lookup key lw.leases (key lease)).getD lease⟩,
        { lw with leases := erase key (key lease) lw.leases }) := by
  rw [LeaseWatcher.remove, indexOfSame_eq_findIdx? compares]
  cases found : lw.leases.findIdx? fun l => decide (key l = key lease) with
  | none =>
    have absent : lookup key lw.leases (key lease) = none := by
      rw [lookup_eq_none_iff]
      simpa using found
    have kept : erase key (key lease) lw.leases = lw.leases := by
      rw [erase, List.eraseP_eq_eraseIdx, found]
    rw [absent, kept]
    rfl
  | some i =>
    have here : lw.leases[i]? = lookup key lw.leases (key lease) := by
      rw [lookup, List.find?_eq_bind_findIdx?_getElem?, found]
      rfl
    rw [← eraseIdx_findIdx? found, ← here]
    rfl

theorem update_cons (lw : LeaseWatcher) (e : Event) (events : List Event) :
    lw.update (e :: events) =
      (lw.update [e]).bind fun one =>
        (one.2.update events).map fun rest => (one.1 ++ rest.1, rest.2) := by
  cases same : sameSubnet e.lease.enableIPv4 e.lease.enableIPv6 lw.ownLease e.lease with
  | none => simp [LeaseWatcher.update, same]
  | some isOwn =>
    cases isOwn with
    | true => simp [LeaseWatcher.update, same]
    | false =>
      rcases e with ⟨_ | _, lease⟩
      · cases result : lw.add lease <;>
          simp [LeaseWatcher.update, same, result, Option.map_eq_bind]
      · cases result : lw.remove lease <;>
          simp [LeaseWatcher.update, same, result, Option.map_eq_bind]

theorem update_append (lw : LeaseWatcher) (first second : List Event) :
    lw.update (first ++ second) =
      (lw.update first).bind fun one =>
        (one.2.update second).map fun two => (one.1 ++ two.1, two.2) := by
  induction first generalizing lw with
  | nil => simp [LeaseWatcher.update]
  | cons e first ih =>
    rw [List.cons_append, update_cons, update_cons lw e first, Option.bind_assoc]
    congr 1
    funext one
    rw [ih, Option.bind_map, Option.map_bind]
    congr 1
    funext two
    simp [Function.comp_def]

end Calls

/-! ## Leases told apart by keys -/

structure Keying {κ : Type} [DecidableEq κ] (kind : Lease → Prop) (key : Lease → κ)
    (ownLease : Lease) : Prop where
  stored : ∀ first second, kind first → kind second →
    sameSubnet first.enableIPv4 first.enableIPv6 first second =
      some (decide (key first = key second))
  own : ∀ lease, kind lease →
    sameSubnet lease.enableIPv4 lease.enableIPv6 ownLease lease =
      some (decide (key ownLease = key lease))

section Keying

variable {κ : Type} [DecidableEq κ] {kind : Lease → Prop} {key : Lease → κ}

theorem Keying.congr {κ' : Type} [DecidableEq κ'] {key' : Lease → κ'} {ownLease : Lease}
    (keying : Keying kind key ownLease)
    (same : ∀ first second, key first = key second ↔ key' first = key' second) :
    Keying kind key' ownLease where
  stored := by
    intro first second ofFirst ofSecond
    rw [keying.stored first second ofFirst ofSecond, decide_eq_decide.mpr (same first second)]
  own := by
    intro lease ofLease
    rw [keying.own lease ofLease, decide_eq_decide.mpr (same ownLease lease)]

theorem Keying.mono {kind' : Lease → Prop} {ownLease : Lease} (keying : Keying kind key ownLease)
    (narrower : ∀ lease, kind' lease → kind lease) : Keying kind' key ownLease where
  stored := fun first second ofFirst ofSecond =>
    keying.stored first second (narrower first ofFirst) (narrower second ofSecond)
  own := fun lease ofLease => keying.own lease (narrower lease ofLease)

def relayed (key : Lease → κ) (leases : List Lease) (e : Event) : Event :=
  match e.type with
  | .added => e
  | .removed => ⟨.removed, (lookup key leases (key e.lease)).getD e.lease⟩

def tracked (key : Lease → κ) (leases : List Lease) (e : Event) : List Lease :=
  match e.type with
  | .added => upsert key e.lease leases
  | .removed => erase key (key e.lease) leases

theorem update_singleton {lw : LeaseWatcher} (keying : Keying kind key lw.ownLease)
    (kinds : ∀ l ∈ lw.leases, kind l) {e : Event} (kindOf : kind e.lease) :
    lw.update [e] =
      if key lw.ownLease = key e.lease then some ([], lw)
      else some ([relayed key lw.leases e],
        { lw with leases := tracked key lw.leases e }) := by
  have isOwn := keying.own e.lease kindOf
  have compares := fun l mem => keying.stored l e.lease (kinds l mem) kindOf
  by_cases same : key lw.ownLease = key e.lease
  · simp [LeaseWatcher.update, isOwn, same]
  · rcases e with ⟨_ | _, lease⟩
    · simp [LeaseWatcher.update, isOwn, same, add_eq_upsert compares, relayed, tracked]
    · simp [LeaseWatcher.update, isOwn, same, remove_eq_erase compares, relayed, tracked]

/-! ## Runs of events -/

def Event.tracks (key : Lease → κ) (e : Event) : Change κ Lease :=
  match e.type with
  | .added => .set (key e.lease) e.lease
  | .removed => .unset (key e.lease)

def others (key : Lease → κ) (ownLease : Lease) (events : List Event) : List Event :=
  events.filter fun e => decide (key ownLease ≠ key e.lease)

structure Kept (kind : Lease → Prop) (key : Lease → κ) (ownLease : Lease) (leases : List Lease) :
    Prop where
  kinds : ∀ l ∈ leases, kind l
  distinct : (leases.map key).Nodup
  silent : ∀ l ∈ leases, key l ≠ key ownLease

structure Tracks (kind : Lease → Prop) (key : Lease → κ) (ownLease : Lease)
    (events emitted : List Event) (leases : List Lease) : Prop
    extends Kept kind key ownLease leases where
  folded : ∀ k, lookup key leases k =
    replay (fun _ => none) ((others key ownLease events).map (Event.tracks key)) k
  replayed : ∀ k, replay (fun _ => none) (emitted.map (Event.tracks key)) k = lookup key leases k

variable {ownLease : Lease} {events emitted : List Event} {leases : List Lease} {e : Event}

theorem key_relayed (key : Lease → κ) (leases : List Lease) (e : Event) :
    key (relayed key leases e).lease = key e.lease := by
  rcases e with ⟨_ | _, lease⟩
  · rfl
  · cases found : lookup key leases (key lease) with
    | none => simp [relayed, found]
    | some old => simpa [relayed, found] using key_of_lookup found

theorem tracks_relayed (key : Lease → κ) (leases : List Lease) (e : Event)
    (table : κ → Option Lease) :
    ((relayed key leases e).tracks key).apply table = (e.tracks key).apply table := by
  have same := key_relayed key leases e
  rcases e with ⟨_ | _, lease⟩
  · rfl
  · simp only [relayed] at same ⊢
    simp only [Event.tracks, Change.apply, same]

theorem lookup_tracked (distinct : (leases.map key).Nodup) (e : Event) (k : κ) :
    lookup key (tracked key leases e) k = (e.tracks key).apply (lookup key leases) k := by
  rcases e with ⟨_ | _, lease⟩
  · simp [tracked, Event.tracks, Change.apply, lookup_upsert, Function.update_apply]
  · simp [tracked, Event.tracks, Change.apply, lookup_erase distinct, Function.update_apply]

theorem nodup_tracked (distinct : (leases.map key).Nodup) (e : Event) :
    ((tracked key leases e).map key).Nodup := by
  rcases e with ⟨_ | _, lease⟩
  · exact nodup_upsert distinct lease
  · exact nodup_erase distinct _

theorem mem_tracked {l : Lease} (mem : l ∈ tracked key leases e) :
    l = e.lease ∨ l ∈ leases := by
  rcases e with ⟨_ | _, lease⟩
  · exact mem_upsert mem
  · exact .inr ((erase_sublist _ _).subset mem)

omit [DecidableEq κ] in
theorem kept_nil : Kept kind key ownLease [] :=
  ⟨by simp, by simp, by simp⟩

theorem Kept.tracked (kept : Kept kind key ownLease leases) (kindOf : kind e.lease)
    (differ : key ownLease ≠ key e.lease) : Kept kind key ownLease (tracked key leases e) where
  kinds := by
    intro l mem
    rcases mem_tracked mem with rfl | old
    · exact kindOf
    · exact kept.kinds l old
  distinct := nodup_tracked kept.distinct e
  silent := by
    intro l mem
    rcases mem_tracked mem with rfl | old
    · exact differ.symm
    · exact kept.silent l old

theorem tracks_nil : Tracks kind key ownLease [] [] [] :=
  ⟨kept_nil, fun _ => rfl, fun _ => rfl⟩

theorem Tracks.own (tracks : Tracks kind key ownLease events emitted leases)
    (same : key ownLease = key e.lease) :
    Tracks kind key ownLease (events ++ [e]) emitted leases := by
  have unchanged : others key ownLease (events ++ [e]) = others key ownLease events := by
    simp [others, same]
  refine ⟨tracks.toKept, fun k => ?_, tracks.replayed⟩
  rw [unchanged]
  exact tracks.folded k

theorem Tracks.other (tracks : Tracks kind key ownLease events emitted leases)
    (kindOf : kind e.lease) (differ : key ownLease ≠ key e.lease) :
    Tracks kind key ownLease (events ++ [e]) (emitted ++ [relayed key leases e])
      (Leases.tracked key leases e) where
  toKept := tracks.toKept.tracked kindOf differ
  folded := by
    intro k
    have more : others key ownLease (events ++ [e]) = others key ownLease events ++ [e] := by
      simp [others, differ]
    have before : lookup key leases =
        replay (fun _ => none) ((others key ownLease events).map (Event.tracks key)) :=
      funext tracks.folded
    rw [lookup_tracked tracks.distinct, more, List.map_append, replay_append, ← before]
    rfl
  replayed := by
    intro k
    have before : replay (fun _ => none) (emitted.map (Event.tracks key)) = lookup key leases :=
      funext tracks.replayed
    rw [lookup_tracked tracks.distinct, List.map_append, replay_append, before,
      ← tracks_relayed key leases e]
    rfl

theorem exists_update_tracks (keying : Keying kind key ownLease)
    (kinds : ∀ e ∈ events, kind e.lease) :
    ∃ emitted leases, LeaseWatcher.update ⟨ownLease, []⟩ events = some (emitted, ⟨ownLease, leases⟩) ∧
      Tracks kind key ownLease events emitted leases := by
  induction events using List.reverseRecOn with
  | nil => exact ⟨[], [], rfl, tracks_nil⟩
  | append_singleton events e ih =>
    obtain ⟨emitted, leases, updated, tracks⟩ :=
      ih fun other mem => kinds other (List.mem_append_left _ mem)
    have kindOf := kinds e (List.mem_append_right _ (.head _))
    have last := @update_singleton κ _ kind key ⟨ownLease, leases⟩ keying tracks.kinds e kindOf
    rw [update_append, updated, Option.bind_some, last]
    by_cases same : key ownLease = key e.lease
    · exact ⟨emitted, leases, by simp [same], tracks.own same⟩
    · exact ⟨_, _, by rw [if_neg same]; rfl, tracks.other kindOf same⟩

end Keying

end Flannel.Leases
