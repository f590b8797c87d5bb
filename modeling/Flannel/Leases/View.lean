import Flannel.Leases.Watcher

/-!
# What a consumer learns from a lease watcher

A consumer replays the batches of a `LeaseWatcher` on a table keyed by subnet, which is to be the
registry's without the own lease. Calls to `Update` keep it so; a call to `Reset` does exactly
when it is *clean*: the watcher does not hold the own lease, and no lease of the snapshot comes
with attributes other than the stored ones.
-/

namespace Flannel.Leases

open Ip Table Transition

abbrev SubnetKey := IP4Net × Option IP6Net

def Event.change (event : Event) : Change SubnetKey LeaseAttrs :=
  match event.type with
  | .added => .set event.lease.key event.lease.attrs
  | .removed => .unset event.lease.key

@[simp]
theorem Event.about_change (event : Event) : event.change.about = event.lease.key := by
  rcases event with ⟨_ | _, _⟩ <;> rfl

def attrsTable (leases : List Lease) (k : SubnetKey) : Option LeaseAttrs :=
  (lookup Lease.key leases k).map Lease.attrs

inductive Call
  | reset (snapshot : List Lease)
  | update (events : List Event)

structure View where
  watcher : LeaseWatcher
  registry : SubnetKey → Option LeaseAttrs
  emitted : List Event

namespace View

def initial (ownLease : Lease) : View :=
  ⟨⟨ownLease, []⟩, fun _ => none, []⟩

def step : Step View Call
  | view, .reset snapshot =>
    (view.watcher.reset snapshot).map fun result =>
      ⟨result.2, attrsTable snapshot, view.emitted ++ result.1⟩
  | view, .update events =>
    (view.watcher.update events).map fun result =>
      ⟨result.2, replay view.registry (events.map Event.change), view.emitted ++ result.1⟩

def own (view : View) : SubnetKey :=
  view.watcher.ownLease.key

def consumer (view : View) : SubnetKey → Option LeaseAttrs :=
  replay (fun _ => none) (view.emitted.map Event.change)

end View

def RemovalsFaithful (events : List Event) : Prop :=
  ∀ before event after, events = before ++ event :: after → event.type = .removed →
    lastSet (before.map Event.change) event.lease.key = some event.lease.attrs

/-- The consumer's table is the registry's without the own lease, the own subnet
was never mentioned, and removals carry the attributes last announced. -/
structure View.Exact (view : View) : Prop where
  table : ∀ k, view.consumer k = if k = view.own then none else view.registry k
  silent : ∀ event ∈ view.emitted, event.lease.key ≠ view.own
  removals : RemovalsFaithful view.emitted

/-- What the registry sends: leases that can be compared, snapshots without repeated subnets, and
removals of leases it had. -/
def Coherent (dual : IP4Net → Bool) (view : View) : Call → Prop
  | .reset snapshot =>
    (∀ lease ∈ snapshot, Comparable dual lease) ∧ (snapshot.map Lease.key).Nodup
  | .update events =>
    (∀ event ∈ events, Comparable dual event.lease) ∧
      ∀ before event after, events = before ++ event :: after → event.type = .removed →
        (replay view.registry (before.map Event.change) event.lease.key).isSome

/-- A call of `Reset` that does not meet the own lease among the stored ones, nor
changed attributes in the snapshot. -/
def Clean (view : View) : Call → Prop
  | .reset snapshot =>
    (∀ old ∈ view.watcher.leases, old.key ≠ view.own) ∧
      ∀ new ∈ snapshot, ∀ old ∈ view.watcher.leases, old.key = new.key → old.attrs = new.attrs
  | .update _ => True

theorem removalsFaithful_append_singleton {events : List Event} {event : Event} :
    RemovalsFaithful (events ++ [event]) ↔
      RemovalsFaithful events ∧ (event.type = .removed →
        lastSet (events.map Event.change) event.lease.key = some event.lease.attrs) := by
  constructor
  · intro faithful
    refine ⟨fun before e after split => ?_, faithful events event [] rfl⟩
    exact faithful before e (after ++ [event]) (by rw [split]; simp)
  · rintro ⟨earlier, last⟩ before e after split
    rcases List.eq_nil_or_concat' after with rfl | ⟨after, e', rfl⟩
    · obtain ⟨rfl, same⟩ := List.append_inj' split rfl
      rw [List.cons.injEq] at same
      exact same.1 ▸ last
    · rw [← List.cons_append, ← List.append_assoc] at split
      obtain ⟨rfl, -⟩ := List.append_inj' split rfl
      exact earlier before e after rfl

theorem removalsFaithful_append_added {events : List Event} (faithful : RemovalsFaithful events)
    (leases : List Lease) : RemovalsFaithful (events ++ leases.map (⟨.added, ·⟩)) := by
  induction leases using List.reverseRecOn with
  | nil => simpa using faithful
  | append_singleton leases lease ih =>
    rw [List.map_append, ← List.append_assoc]
    exact removalsFaithful_append_singleton.mpr ⟨ih, nofun⟩

theorem removalsFaithful_append_removed {events : List Event} {leases : List Lease}
    (faithful : RemovalsFaithful events)
    (announced : ∀ lease ∈ leases,
      lastSet (events.map Event.change) lease.key = some lease.attrs) :
    RemovalsFaithful (events ++ leases.map (⟨.removed, ·⟩)) := by
  induction leases using List.reverseRecOn with
  | nil => simpa using faithful
  | append_singleton leases lease ih =>
    rw [List.map_append, ← List.append_assoc]
    refine removalsFaithful_append_singleton.mpr
      ⟨ih fun other mem => announced other (List.mem_append_left _ mem), fun _ => ?_⟩
    rw [List.map_append, lastSet_append_of_forall]
    · exact announced lease (List.mem_append_right _ (.head _))
    · simp [Event.change]

section Calls

variable {dual : IP4Net → Bool} {ownLease : Lease}

/-- `Reset` announces the snapshot's new leases other than the own one, and
withdraws the stored leases that no such lease of the snapshot replaces. -/
theorem resetLoop_eq {snapshot stored : List Lease} (comparableOwn : Comparable dual ownLease)
    (comparableNew : ∀ l ∈ snapshot, Comparable dual l)
    (comparableOld : ∀ l ∈ stored, Comparable dual l)
    (distinctNew : (snapshot.map Lease.key).Nodup) (distinctOld : (stored.map Lease.key).Nodup) :
    LeaseWatcher.resetLoop ownLease snapshot stored =
      some ((snapshot.filter fun new => decide (new.key ≠ ownLease.key ∧
          new.key ∉ stored.map Lease.key)).map (⟨.added, ·⟩),
        stored.filter fun old => decide (∀ new ∈ snapshot, new.key ≠ ownLease.key →
          old.key ≠ new.key)) := by
  induction snapshot generalizing stored with
  | nil => simp [LeaseWatcher.resetLoop]
  | cons new snapshot ih =>
    rw [List.map_cons, List.nodup_cons] at distinctNew
    have comparable := comparableNew new (.head _)
    have rest := fun l mem => comparableNew l (.tail new mem)
    have isOwn := sameSubnet_eq comparableOwn comparable (.inr rfl)
    by_cases sameOwn : ownLease.key = new.key
    · have loop : LeaseWatcher.resetLoop ownLease (new :: snapshot) stored =
          LeaseWatcher.resetLoop ownLease snapshot stored := by
        simp [LeaseWatcher.resetLoop, isOwn, sameOwn]
      rw [loop, ih rest comparableOld distinctNew.2 distinctOld]
      simp [sameOwn]
    · have index := indexOfSame_eq comparable comparableOld
      cases found : stored.findIdx? fun l => decide (l.key = new.key) with
      | none =>
        have absent : new.key ∉ stored.map Lease.key := by
          simpa using found
        have loop : LeaseWatcher.resetLoop ownLease (new :: snapshot) stored =
            (LeaseWatcher.resetLoop ownLease snapshot stored).map fun result =>
              (⟨.added, new⟩ :: result.1, result.2) := by
          simp only [LeaseWatcher.resetLoop, isOwn, sameOwn, index, found]
          cases LeaseWatcher.resetLoop ownLease snapshot stored <;> rfl
        have kept : ∀ old ∈ stored, old.key ≠ new.key := fun old mem equal =>
          absent (equal ▸ List.mem_map_of_mem mem)
        rw [loop, ih rest comparableOld distinctNew.2 distinctOld, Option.map_some]
        congr 2
        · rw [List.filter_cons_of_pos (by simpa [Ne.symm sameOwn] using absent), List.map_cons]
        · apply List.filter_congr
          intro old mem
          simp [kept old mem]
      | some i =>
        have present : new.key ∈ stored.map Lease.key := by
          obtain ⟨old, mem, equal⟩ := List.findIdx?_isSome.symm.trans (by rw [found]; rfl)
            |> List.any_eq_true.mp
          exact of_decide_eq_true equal ▸ List.mem_map_of_mem mem
        have loop : LeaseWatcher.resetLoop ownLease (new :: snapshot) stored =
            LeaseWatcher.resetLoop ownLease snapshot (erase Lease.key new.key stored) := by
          simp [LeaseWatcher.resetLoop, isOwn, sameOwn, index, found, eraseIdx_findIdx? found]
        rw [loop, ih rest (fun l mem => comparableOld l ((erase_sublist _ _).subset mem))
          distinctNew.2 (nodup_erase distinctOld _)]
        congr 2
        · rw [List.filter_cons_of_neg (by simp [present])]
          congr 1
          apply List.filter_congr
          intro other mem
          have differ : other.key ≠ new.key := fun equal =>
            distinctNew.1 (equal ▸ List.mem_map_of_mem mem)
          rw [decide_eq_decide, mem_keys_erase_iff distinctOld differ]
        · rw [erase_eq_filter distinctOld, List.filter_filter]
          apply List.filter_congr
          intro old _
          simp [Ne.symm sameOwn, Bool.and_comm]

theorem add_eq {lw : LeaseWatcher} {lease : Lease} (comparable : Comparable dual lease)
    (comparables : ∀ l ∈ lw.leases, Comparable dual l) :
    lw.add lease =
      some (⟨.added, lease⟩, { lw with leases := upsert Lease.key lease lw.leases }) :=
  add_eq_upsert fun l mem => sameSubnet_eq (comparables l mem) comparable (.inl rfl)

theorem remove_eq {lw : LeaseWatcher} {lease : Lease} (comparable : Comparable dual lease)
    (comparables : ∀ l ∈ lw.leases, Comparable dual l) :
    lw.remove lease =
      some (⟨.removed, (lookup Lease.key lw.leases lease.key).getD lease⟩,
        { lw with leases := erase Lease.key lease.key lw.leases }) :=
  remove_eq_erase fun l mem => sameSubnet_eq (comparables l mem) comparable (.inl rfl)

end Calls

/-! ## The views over whole runs -/

namespace View

structure Inv (dual : IP4Net → Bool) (view : View) : Prop where
  comparableOwn : Comparable dual view.watcher.ownLease
  comparable : ∀ lease ∈ view.watcher.leases, Comparable dual lease
  distinct : (view.watcher.leases.map Lease.key).Nodup
  stored : ∀ k, k ≠ view.own → attrsTable view.watcher.leases k = view.registry k
  exact : view.Exact

variable {dual : IP4Net → Bool} {view : View}

theorem Exact.table_of_ne (exact : view.Exact) {k : SubnetKey} (other : k ≠ view.own) :
    view.consumer k = view.registry k := by
  rw [exact.table, if_neg other]

theorem exact_of_silent (table : ∀ k, k ≠ view.own → view.consumer k = view.registry k)
    (silent : ∀ event ∈ view.emitted, event.lease.key ≠ view.own)
    (removals : RemovalsFaithful view.emitted) : view.Exact := by
  refine ⟨fun k => ?_, silent, removals⟩
  by_cases here : k = view.own
  · rw [if_pos here, here]
    apply replay_of_forall_ne
    intro change mem
    obtain ⟨event, emitted, rfl⟩ := List.mem_map.mp mem
    rw [Event.about_change]
    exact (silent event emitted).symm
  · rw [if_neg here, table k here]

theorem inv_initial {ownLease : Lease} (comparable : Comparable dual ownLease) :
    Inv dual (initial ownLease) where
  comparableOwn := comparable
  comparable := by simp [initial]
  distinct := by simp [initial]
  stored := fun k _ => rfl
  exact := exact_of_silent (fun _ _ => rfl) (by simp [initial])
    (fun before event after split => by simp [initial] at split)

theorem Inv.consumer_eq (inv : Inv dual view) {k : SubnetKey} (other : k ≠ view.own) :
    view.consumer k = attrsTable view.watcher.leases k := by
  rw [inv.exact.table_of_ne other, inv.stored k other]

theorem silent_append {k : SubnetKey} {events batch : List Event}
    (silent : ∀ event ∈ events, event.lease.key ≠ k)
    (silentBatch : ∀ event ∈ batch, event.lease.key ≠ k) :
    ∀ event ∈ events ++ batch, event.lease.key ≠ k := by
  intro event mem
  rcases List.mem_append.mp mem with mem | mem
  · exact silent event mem
  · exact silentBatch event mem

theorem consumer_append (view : View) (watcher : LeaseWatcher)
    (registry : SubnetKey → Option LeaseAttrs) (batch : List Event) :
    (View.mk watcher registry (view.emitted ++ batch)).consumer =
      replay view.consumer (batch.map Event.change) := by
  simp [consumer]

theorem inv_added (inv : Inv dual view) {lease : Lease} (comparable : Comparable dual lease)
    (other : lease.key ≠ view.own) :
    Inv dual ⟨{ view.watcher with leases := upsert Lease.key lease view.watcher.leases },
      (Event.change ⟨.added, lease⟩).apply view.registry, view.emitted ++ [⟨.added, lease⟩]⟩ where
  comparableOwn := inv.comparableOwn
  comparable := by
    intro l mem
    rcases mem_upsert mem with rfl | mem
    · exact comparable
    · exact inv.comparable l mem
  distinct := nodup_upsert inv.distinct lease
  stored := by
    intro k otherKey
    have before := inv.stored k otherKey
    simp only [attrsTable, lookup_upsert, Event.change, Change.apply, Function.update_apply] at *
    by_cases here : k = lease.key
    · simp [here]
    · simp [here, before]
  exact := by
    apply exact_of_silent
    · intro k otherKey
      rw [consumer_append]
      by_cases here : k = lease.key
      · simp [here, Event.change, Change.apply]
      · simpa [here, Event.change, Change.apply] using inv.exact.table_of_ne otherKey
    · apply silent_append inv.exact.silent
      intro event mem
      rw [List.mem_singleton.mp mem]
      exact other
    · exact removalsFaithful_append_singleton.mpr
        ⟨inv.exact.removals, fun removed => by contradiction⟩

theorem inv_removed (inv : Inv dual view) {lease : Lease} {k : SubnetKey}
    (found : lookup Lease.key view.watcher.leases k = some lease) (other : k ≠ view.own) :
    Inv dual ⟨{ view.watcher with leases := erase Lease.key k view.watcher.leases },
      (Change.unset k).apply view.registry, view.emitted ++ [⟨.removed, lease⟩]⟩ where
  comparableOwn := inv.comparableOwn
  comparable := fun l mem => inv.comparable l ((erase_sublist _ _).subset mem)
  distinct := nodup_erase inv.distinct k
  stored := by
    intro k' otherKey
    have before := inv.stored k' otherKey
    simp only [attrsTable, lookup_erase inv.distinct, Change.apply, Function.update_apply] at *
    by_cases here : k' = k
    · simp [here]
    · simp [here, before]
  exact := by
    have sameKey := key_of_lookup found
    apply exact_of_silent
    · intro k' otherKey
      rw [consumer_append]
      by_cases here : k' = k
      · simp [here, Event.change, Change.apply, sameKey]
      · simpa [here, Event.change, Change.apply, sameKey] using inv.exact.table_of_ne otherKey
    · apply silent_append inv.exact.silent
      intro event mem
      rw [List.mem_singleton.mp mem]
      exact sameKey ▸ other
    · refine removalsFaithful_append_singleton.mpr ⟨inv.exact.removals, fun _ => ?_⟩
      -- The consumer still holds the stored attributes, so they were announced last.
      have current := inv.consumer_eq other
      rw [attrsTable, found] at current
      rw [sameKey]
      exact lastSet_of_replay current

theorem inv_own (inv : Inv dual view) {change : Change SubnetKey LeaseAttrs}
    (same : change.about = view.own) :
    Inv dual ⟨view.watcher, change.apply view.registry, view.emitted⟩ where
  comparableOwn := inv.comparableOwn
  comparable := inv.comparable
  distinct := inv.distinct
  stored := fun k other =>
    (inv.stored k other).trans (Change.apply_of_ne (same ▸ other) _).symm
  exact := exact_of_silent
    (fun _ other => (inv.exact.table_of_ne other).trans (Change.apply_of_ne (same ▸ other) _).symm)
    inv.exact.silent inv.exact.removals

theorem step_update_singleton (inv : Inv dual view) {e : Event}
    (comparable : Comparable dual e.lease)
    (known : e.type = .removed → (view.registry e.lease.key).isSome) :
    ∃ target, step view (.update [e]) = some target ∧ Inv dual target ∧
      target.registry = e.change.apply view.registry := by
  have isOwn := sameSubnet_eq inv.comparableOwn comparable (.inr rfl)
  by_cases same : view.watcher.ownLease.key = e.lease.key
  · refine ⟨⟨view.watcher, e.change.apply view.registry, view.emitted⟩, ?_, ?_, rfl⟩
    · simp [step, LeaseWatcher.update, isOwn, same]
    · exact inv_own inv (e.about_change.trans same.symm)
  · have other : e.lease.key ≠ view.own := Ne.symm same
    rcases e with ⟨_ | _, lease⟩
    · have added : view.watcher.add lease = _ := add_eq comparable inv.comparable
      exact ⟨_, by simp [step, LeaseWatcher.update, isOwn, same, added],
        inv_added inv comparable other, rfl⟩
    · have removed : view.watcher.remove lease = _ := remove_eq comparable inv.comparable
      have registered := known rfl
      rw [← inv.stored _ other, attrsTable, Option.isSome_map] at registered
      obtain ⟨old, found⟩ := Option.isSome_iff_exists.mp registered
      rw [found, Option.getD_some] at removed
      exact ⟨_, by simp [step, LeaseWatcher.update, isOwn, same, removed, Event.change],
        inv_removed inv found other, rfl⟩

theorem step_update (inv : Inv dual view) {events : List Event}
    (coherent : Coherent dual view (.update events)) :
    ∃ target, step view (.update events) = some target ∧ Inv dual target := by
  induction events generalizing view with
  | nil => exact ⟨view, by simp [step, LeaseWatcher.update], inv⟩
  | cons e events ih =>
    rcases coherent with ⟨comparable, known⟩
    obtain ⟨middle, first, invMiddle, registry⟩ := step_update_singleton inv
      (comparable e (.head _)) (known [] e events rfl)
    have coherentRest : Coherent dual middle (.update events) := by
      refine ⟨fun other mem => comparable other (.tail e mem), ?_⟩
      intro before event after split removed
      rw [registry]
      exact known (e :: before) event after (by rw [split]; rfl) removed
    obtain ⟨target, rest, invTarget⟩ := ih invMiddle coherentRest
    refine ⟨target, ?_, invTarget⟩
    -- The batches of the two parts are emitted one after the other.
    obtain ⟨one, updateOne, rfl⟩ := Option.map_eq_some_iff.mp first
    obtain ⟨two, updateTwo, rfl⟩ := Option.map_eq_some_iff.mp rest
    have whole : view.watcher.update (e :: events) = some (one.1 ++ two.1, two.2) := by
      rw [update_cons, updateOne, Option.bind_some, updateTwo, Option.map_some]
    rw [step, whole, Option.map_some, List.append_assoc]
    rfl

def fresh (view : View) (snapshot : List Lease) : List Lease :=
  snapshot.filter fun new => decide (new.key ≠ view.own ∧
    new.key ∉ view.watcher.leases.map Lease.key)

def left (view : View) (snapshot : List Lease) : List Lease :=
  view.watcher.leases.filter fun old => decide (∀ new ∈ snapshot, new.key ≠ view.own →
    old.key ≠ new.key)

def resetTo (view : View) (snapshot : List Lease) : View :=
  ⟨{ view.watcher with leases := snapshot }, attrsTable snapshot,
    view.emitted ++ ((view.fresh snapshot).map (⟨.added, ·⟩) ++
      (view.left snapshot).map (⟨.removed, ·⟩))⟩

section Reset

variable {snapshot : List Lease}

theorem step_reset (inv : Inv dual view) (coherent : Coherent dual view (.reset snapshot)) :
    step view (.reset snapshot) = some (view.resetTo snapshot) := by
  have loop := resetLoop_eq inv.comparableOwn coherent.1 inv.comparable coherent.2 inv.distinct
  simp only [step, LeaseWatcher.reset, loop]
  rfl

theorem mem_fresh_iff {new : Lease} :
    new ∈ view.fresh snapshot ↔
      new ∈ snapshot ∧ new.key ≠ view.own ∧ new.key ∉ view.watcher.leases.map Lease.key := by
  rw [fresh, List.mem_filter, decide_eq_true_eq]

theorem mem_left_iff {old : Lease} :
    old ∈ view.left snapshot ↔ old ∈ view.watcher.leases ∧
      ∀ new ∈ snapshot, new.key ≠ view.own → old.key ≠ new.key := by
  rw [left, List.mem_filter, decide_eq_true_eq]

theorem consumer_resetTo (view : View) (snapshot : List Lease) :
    (view.resetTo snapshot).consumer =
      replay (replay view.consumer ((view.fresh snapshot).map fun l => .set l.key l.attrs))
        ((view.left snapshot).map fun l => .unset l.key) := by
  rw [resetTo, consumer_append, List.map_append, List.map_map, List.map_map, replay_append]
  rfl

theorem consumer_resetTo_of_not_left (coherent : Coherent dual view (.reset snapshot))
    {k : SubnetKey} (kept : k ∉ (view.left snapshot).map Lease.key) :
    (view.resetTo snapshot).consumer k =
      ((lookup Lease.key (view.fresh snapshot) k).map Lease.attrs).or (view.consumer k) := by
  have distinct : ((view.fresh snapshot).map Lease.key).Nodup :=
    coherent.2.sublist (List.filter_sublist.map Lease.key)
  rw [consumer_resetTo, replay_of_forall_ne, replay_set distinct Lease.attrs]
  intro change mem
  obtain ⟨old, isLeft, rfl⟩ := List.mem_map.mp mem
  exact fun equal => kept (equal ▸ List.mem_map_of_mem isLeft)

theorem consumer_resetTo_of_not_mem (inv : Inv dual view)
    (coherent : Coherent dual view (.reset snapshot)) {k : SubnetKey} (other : k ≠ view.own)
    (absent : k ∉ snapshot.map Lease.key) : (view.resetTo snapshot).consumer k = none := by
  have noNew : lookup Lease.key (view.fresh snapshot) k = none := by
    rw [lookup_eq_none_iff]
    exact fun mem => absent ((List.filter_sublist.map Lease.key).subset mem)
  by_cases gone : k ∈ (view.left snapshot).map Lease.key
  · rw [consumer_resetTo, replay_unset_of_mem gone]
  · rw [consumer_resetTo_of_not_left coherent gone, noNew, inv.consumer_eq other, attrsTable]
    have unstored : lookup Lease.key view.watcher.leases k = none := by
      rw [lookup_eq_none_iff]
      intro mem
      obtain ⟨old, stored, rfl⟩ := List.mem_map.mp mem
      exact gone (List.mem_map_of_mem (mem_left_iff.mpr ⟨stored, fun new newMem _ equal =>
        absent (equal ▸ List.mem_map_of_mem newMem)⟩))
    rw [unstored]
    rfl

/-- A subnet of the snapshot keeps the stored attributes, and is announced with
the snapshot's only if it was not stored. -/
theorem consumer_resetTo_of_mem (inv : Inv dual view)
    (coherent : Coherent dual view (.reset snapshot)) {new : Lease} (mem : new ∈ snapshot)
    (other : new.key ≠ view.own) :
    (view.resetTo snapshot).consumer new.key =
      some ((attrsTable view.watcher.leases new.key).getD new.attrs) := by
  have kept : new.key ∉ (view.left snapshot).map Lease.key := by
    intro gone
    obtain ⟨old, isLeft, equal⟩ := List.mem_map.mp gone
    exact (mem_left_iff.mp isLeft).2 new mem other equal
  rw [consumer_resetTo_of_not_left coherent kept, inv.consumer_eq other]
  by_cases stored : new.key ∈ view.watcher.leases.map Lease.key
  · have notNew : lookup Lease.key (view.fresh snapshot) new.key = none := by
      rw [lookup_eq_none_iff]
      intro announced
      obtain ⟨other, isFresh, equal⟩ := List.mem_map.mp announced
      exact (mem_fresh_iff.mp isFresh).2.2 (equal ▸ stored)
    obtain ⟨old, oldMem, equal⟩ := List.mem_map.mp stored
    have found := lookup_eq_some_of_mem inv.distinct oldMem
    rw [notNew, attrsTable, ← equal, found]
    rfl
  · have distinct : ((view.fresh snapshot).map Lease.key).Nodup :=
      coherent.2.sublist (List.filter_sublist.map Lease.key)
    have announced := lookup_eq_some_of_mem distinct (mem_fresh_iff.mpr ⟨mem, other, stored⟩)
    rw [announced, attrsTable, (lookup_eq_none_iff _ _).mpr stored]
    rfl

theorem attrsTable_of_mem (coherent : Coherent dual view (.reset snapshot)) {new : Lease}
    (mem : new ∈ snapshot) : attrsTable snapshot new.key = some new.attrs := by
  rw [attrsTable, lookup_eq_some_of_mem coherent.2 mem]
  rfl

theorem inv_resetTo (inv : Inv dual view) (coherent : Coherent dual view (.reset snapshot))
    (clean : Clean view (.reset snapshot)) : Inv dual (view.resetTo snapshot) where
  comparableOwn := inv.comparableOwn
  comparable := coherent.1
  distinct := coherent.2
  stored := fun _ _ => rfl
  exact := by
    apply exact_of_silent
    · intro k other
      have other : k ≠ view.own := other
      by_cases present : k ∈ snapshot.map Lease.key
      · obtain ⟨new, mem, rfl⟩ := List.mem_map.mp present
        rw [consumer_resetTo_of_mem inv coherent mem other]
        refine Eq.trans ?_ (attrsTable_of_mem coherent mem).symm
        cases found : lookup Lease.key view.watcher.leases new.key with
        | none => simp [attrsTable, found]
        | some old =>
          simp [attrsTable, found,
            clean.2 new mem old (mem_of_lookup found) (key_of_lookup found)]
      · rw [consumer_resetTo_of_not_mem inv coherent other present]
        have absent : attrsTable snapshot k = none := by
          rw [attrsTable, (lookup_eq_none_iff _ _).mpr present]
          rfl
        exact absent.symm
    · apply silent_append inv.exact.silent
      intro event mem
      rcases List.mem_append.mp mem with mem | mem
      · obtain ⟨new, isFresh, rfl⟩ := List.mem_map.mp mem
        exact (mem_fresh_iff.mp isFresh).2.1
      · obtain ⟨old, isLeft, rfl⟩ := List.mem_map.mp mem
        exact clean.1 old (mem_left_iff.mp isLeft).1
    · have announced := removalsFaithful_append_added inv.exact.removals (view.fresh snapshot)
      rw [resetTo, ← List.append_assoc]
      apply removalsFaithful_append_removed announced
      intro old isLeft
      obtain ⟨stored, notNew⟩ := mem_left_iff.mp isLeft
      have current := inv.consumer_eq (clean.1 old stored)
      rw [attrsTable, lookup_eq_some_of_mem inv.distinct stored] at current
      rw [List.map_append, lastSet_append_of_forall]
      · exact lastSet_of_replay current
      · intro value mem
        obtain ⟨event, announcedEvent, change⟩ := List.mem_map.mp mem
        obtain ⟨new, isFresh, rfl⟩ := List.mem_map.mp announcedEvent
        obtain ⟨newMem, other, _⟩ := mem_fresh_iff.mp isFresh
        rw [Event.change, Change.set.injEq] at change
        exact notNew new newMem other change.1.symm

theorem clean_of_exact (inv : Inv dual view) (coherent : Coherent dual view (.reset snapshot))
    (exact : (view.resetTo snapshot).Exact) : Clean view (.reset snapshot) := by
  have ownAbsent : ∀ old ∈ view.watcher.leases, old.key ≠ view.own := by
    intro old stored equal
    -- The own lease is never taken away by the snapshot, so it would be withdrawn.
    have isLeft : old ∈ view.left snapshot :=
      mem_left_iff.mpr ⟨stored, fun new _ other same => other (same ▸ equal)⟩
    have emitted : (⟨.removed, old⟩ : Event) ∈ (view.resetTo snapshot).emitted :=
      List.mem_append_right _ (List.mem_append_right _ (List.mem_map_of_mem isLeft))
    exact exact.silent _ emitted equal
  refine ⟨ownAbsent, fun new mem old stored equal => ?_⟩
  have other : new.key ≠ view.own := equal ▸ ownAbsent old stored
  have current := consumer_resetTo_of_mem inv coherent mem other
  have wanted : (view.resetTo snapshot).registry new.key = some new.attrs :=
    attrsTable_of_mem coherent mem
  rw [exact.table_of_ne other, wanted, attrsTable, ← equal,
    lookup_eq_some_of_mem inv.distinct stored] at current
  exact (Option.some.inj current).symm

end Reset

theorem exists_step (inv : Inv dual view) {call : Call}
    (coherent : Coherent dual view call) (clean : Clean view call) :
    ∃ target, step view call = some target ∧ Inv dual target := by
  cases call with
  | reset snapshot => exact ⟨_, step_reset inv coherent, inv_resetTo inv coherent clean⟩
  | update events => exact step_update inv coherent

theorem inv_step (inv : Inv dual view) {call : Call} {target : View}
    (coherent : Coherent dual view call) (clean : Clean view call)
    (stepped : step view call = some target) : Inv dual target := by
  obtain ⟨other, stepped', invOther⟩ := exists_step inv coherent clean
  rw [stepped'] at stepped
  exact Option.some.inj stepped ▸ invOther

theorem clean_of_step (inv : Inv dual view) {call : Call} {target : View}
    (coherent : Coherent dual view call) (stepped : step view call = some target)
    (exact : target.Exact) : Clean view call := by
  cases call with
  | reset snapshot =>
    rw [step_reset inv coherent] at stepped
    exact clean_of_exact inv coherent (Option.some.inj stepped ▸ exact)
  | update events => trivial

/-- For an own lease and calls a registry can make: all calls return and the two
views agree after each of them, exactly when every `Reset` was clean. -/
theorem exact_iff_clean {ownLease : Lease} (comparable : Comparable dual ownLease)
    {calls : List Call} (coherent : Along step (Coherent dual) (initial ownLease) calls) :
    (∃ target, run step (initial ownLease) calls = some target) ∧
        Throughout step Exact (initial ownLease) calls ↔
      Along step Clean (initial ownLease) calls := by
  have agree : Throughout step Exact (initial ownLease) calls ↔
      Along step (fun view call => (step view call).isSome → Clean view call)
        (initial ownLease) calls :=
    throughout_iff_along (fun _ (inv : Inv dual _) => inv.exact)
      (fun _ _ _ inv coherent clean stepped => inv_step inv coherent clean stepped)
      (fun _ _ _ inv coherent stepped exact => clean_of_step inv coherent stepped exact)
      (inv_initial comparable) coherent
  constructor
  · rintro ⟨⟨target, reached⟩, throughout⟩
    exact along_of_run_eq_some (agree.mp throughout) reached
  · intro clean
    constructor
    · exact exists_run_of_along (fun _ _ inv cond => exists_step inv cond.1 cond.2)
        (inv_initial comparable) (coherent.and clean)
    · rw [agree]
      apply Along.mono ?_ clean
      intro _ _ met _
      exact met

theorem exact_after_reset_update :
    (∃ target, run step (initial (plainLease 0x0a010100 1))
        [.reset [plainLease 0x0a010100 1, plainLease 0x0a010200 2],
          .update [⟨.added, plainLease 0x0a010300 3⟩]] = some target) ∧
      Throughout step Exact (initial (plainLease 0x0a010100 1))
        [.reset [plainLease 0x0a010100 1, plainLease 0x0a010200 2],
          .update [⟨.added, plainLease 0x0a010300 3⟩]] := by
  refine (exact_iff_clean (comparable_plainLease _ _) ?_).mpr ?_
  · refine ⟨⟨?_, by decide⟩, fun middle _ => ⟨⟨?_, ?_⟩, fun _ _ => trivial⟩⟩
    · simp [comparable_plainLease]
    · simp [comparable_plainLease]
    · intro before event after split removed
      rcases List.singleton_eq_append_iff.mp split with ⟨_, rest⟩ | ⟨_, impossible⟩
      · rw [List.cons.injEq] at rest
        rw [rest.1] at removed
        contradiction
      · contradiction
  · exact ⟨⟨by simp [initial], by simp [initial]⟩, fun _ _ => ⟨trivial, fun _ _ => trivial⟩⟩

/-- Two snapshots in a row break the agreement: the second one withdraws the own
lease that the first one stored, and hides a change of attributes. -/
theorem two_resets_not_exact :
    (¬ Throughout step Exact (initial (plainLease 0x0a010100 1))
        [.reset [plainLease 0x0a010100 1], .reset [plainLease 0x0a010100 1]]) ∧
      ¬ Throughout step Exact (initial (plainLease 0x0a010100 1))
        [.reset [plainLease 0x0a010200 2], .reset [plainLease 0x0a010200 3]] := by
  constructor
  · intro always
    have exact := always _ List.prefix_rfl _ rfl
    exact exact.silent ⟨.removed, plainLease 0x0a010100 1⟩ (by decide) rfl
  · intro always
    have exact := always _ List.prefix_rfl _ rfl
    have entry := exact.table (plainLease 0x0a010200 2).key
    revert entry
    decide

end View

end Flannel.Leases
