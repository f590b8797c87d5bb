import Flannel.Kube.Queue
import Flannel.Leases.Families

/-!
# From nodes to leases

The informer keeps the last object of every node and tells of each change; the events of a node
reach the lease watcher in order, those of different nodes in any order. Each node has subnets of
its own, so once nothing is outstanding the watcher has exactly the leases of the nodes left.
-/

namespace Flannel.Kube

open Channel Ip Leases Subnet Table Transition

abbrev Subnets := Option IP4Net × Option IP6Net

/-- The subnets of the enabled families. -/
def KubeSubnetManager.subnets (ksm : KubeSubnetManager) : Lease → Subnets :=
  Lease.subnets ksm.enableIPv4 ksm.enableIPv6

/-- The lease that a node object stands for. -/
def KubeSubnetManager.leaseOf (ksm : KubeSubnetManager) (n : Node) : Option Lease :=
  if ksm.isManaged n then (ksm.nodeToLease n).toOption else none

def Deleted.node? : Deleted → Option Node
  | .node n => some n
  | .finalStateUnknown obj => obj
  | .unexpected => none

/-- The store of the informer, after a callback. -/
def Callback.store (nodes : String → Option Node) : Callback → String → Option Node
  | .add obj => Function.update nodes obj.name (some obj)
  | .update _ newObj => Function.update nodes newObj.name (some newObj)
  | .delete obj => obj.node?.elim nodes fun n => Function.update nodes n.name none

structure Informed where
  queue : EventQueue
  nodes : String → Option Node

def Informed.initial : Informed :=
  ⟨Overflow.initial, fun _ => none⟩

def Informed.step (ksm : KubeSubnetManager) (capacity : Nat) : Step Informed QueueLabel :=
  fun informed label =>
    (informed.queue.step ksm capacity label).map fun queue =>
      { queue := queue
        nodes := match label with
          | .callback call => call.store informed.nodes
          | .move _ => informed.nodes }

/-! ## What the cluster does -/

section Cluster

variable (ksm : KubeSubnetManager) (assigned : String → Option Subnets)

/-- A lease of the node has the subnets assigned to the node. -/
def Placed (n : Node) : Prop :=
  ∀ l ∈ ksm.leaseOf n, assigned n.name = some (ksm.subnets l)

instance (n : Node) : Decidable (Placed ksm assigned n) :=
  Option.decidableForallMem _

/-- No two nodes are assigned the same subnets. -/
def Exclusive : Prop :=
  ∀ first second k, assigned first = some k → assigned second = some k → first = second

/-- The calls are about the objects in the store. A node with a lease keeps one, and no change of
it is masked; a first lease comes with a change of annotations; and the last known object of a
deleted node has a lease if the stored one has. -/
def Regular (informed : Informed) : QueueLabel → Prop
  | .callback (.add obj) => Placed ksm assigned obj ∧ informed.nodes obj.name = none
  | .callback (.update o n) =>
    Placed ksm assigned n ∧ informed.nodes n.name = some o ∧
      (∀ l ∈ ksm.leaseOf o, ∃ l' ∈ ksm.leaseOf n, ¬ ksm.Masked o n l l') ∧
      (ksm.leaseOf o = none → (ksm.leaseOf n).isSome = true → ksm.changed o n = true)
  | .callback (.delete obj) =>
    ∃ n ∈ obj.node?, Placed ksm assigned n ∧ ∃ last ∈ informed.nodes n.name,
      (ksm.leaseOf n).isSome = (ksm.leaseOf last).isSome
  | .move _ => True

instance (o n : Node) (l l' : Lease) : Decidable (ksm.Masked o n l l') :=
  inferInstanceAs (Decidable (_ ∧ _ ∧ (_ ∧ (_ ∨ _) ∨ _ ∧ (_ ∨ _))))

instance (informed : Informed) : ∀ label, Decidable (Regular ksm assigned informed label)
  | .callback (.add _) => inferInstanceAs (Decidable (_ ∧ _))
  | .callback (.update _ _) => inferInstanceAs (Decidable (_ ∧ _))
  | .callback (.delete _) => Option.decidableExistsMem _
  | .move _ => inferInstanceAs (Decidable True)

end Cluster

/-! ## Leases of nodes -/

namespace KubeSubnetManager

variable {ksm : KubeSubnetManager} {o n : Node} {l l' : Lease}

theorem event_eq (call : Callback) : call.event ksm =
    match call with
    | .add obj => (ksm.leaseOf obj).map fun l => (obj.name, ⟨.added, l⟩)
    | .update o n =>
      if ksm.changed o n then (ksm.leaseOf n).map fun l => (n.name, ⟨.added, l⟩) else none
    | .delete obj => obj.node?.bind fun n => (ksm.leaseOf n).map fun l => (n.name, ⟨.removed, l⟩) := by
  have one : ∀ et n, ksm.handleAddLeaseEvent et n = (ksm.leaseOf n).map fun l => ⟨et, l⟩ := by
    intro et n
    rw [handleAddLeaseEvent, leaseOf]
    split
    · rw [eventOf]
      cases ksm.nodeToLease n <;> rfl
    · rfl
  cases call with
  | add obj => rw [Callback.event, one, Option.map_map]; rfl
  | update o n =>
    have added := one .added n
    rw [handleAddLeaseEvent] at added
    rw [Callback.event, handleUpdateLeaseEvent]
    by_cases changed : ksm.changed o n
    · simp [changed, added, Function.comp_def]
    · simp [changed]
  | delete obj => rcases obj with n | (_ | n) | _ <;>
      simp [Callback.event, deleteFunc, Deleted.node?, one, Function.comp_def]

theorem nodeToLease_of_leaseOf (isLease : ksm.leaseOf n = some l) : ksm.nodeToLease n = .ok l := by
  unfold leaseOf at isLease
  split_ifs at isLease
  cases converted : ksm.nodeToLease n with
  | error err => rw [converted] at isLease; cases isLease
  | ok l' => rw [converted] at isLease; cases isLease; rfl

def chooseIPv6 (cidr : Net.IPNet) : Option IP6Net :=
  if cidr.ip.to4 = none then some (IP6Net.fromIP6Net cidr) else none

theorem isSome_of_findCidr {podCidrs : List String} {cidr : IP6Net}
    (found : findCidr chooseIPv6 podCidrs = .ok (some cidr)) : cidr.ip.isSome = true := by
  induction podCidrs with
  | nil => cases found
  | cons podCidr rest ih =>
    rw [findCidr] at found
    split at found
    · cases found
    · split at found
      · next chosen =>
        cases found
        obtain rfl := Option.some.inj (Option.ite_none_right_eq_some.mp chosen).2
        rfl
      · exact ih found

theorem isSome_of_cidr {missing : String} {cidr : IP6Net}
    (found : ksm.cidr n chooseIPv6 missing = .ok cidr) : cidr.ip.isSome = true := by
  unfold KubeSubnetManager.cidr at found
  split_ifs at found <;> rw [bind_eq_ok_iff] at found <;> obtain ⟨_ | chosen, searched, isCidr⟩ := found
  all_goals cases isCidr
  · exact isSome_of_findCidr searched
  · exact isSome_of_findCidr searched
  · cases searched

/-- What a lease says about the enabled families. -/
def only (ksm : KubeSubnetManager) (l : Lease) : Lease :=
  ⟨ksm.enableIPv4, ksm.enableIPv6, if ksm.enableIPv4 then l.subnet else ⟨0, 0⟩,
    if ksm.enableIPv6 then l.ipv6Subnet else IP6Net.zero,
    ⟨if ksm.enableIPv4 then l.attrs.publicIP else 0,
      if ksm.enableIPv6 then l.attrs.publicIPv6 else none, l.attrs.backendType,
      if ksm.enableIPv4 then l.attrs.backendData else none,
      if ksm.enableIPv6 then l.attrs.backendV6Data else none⟩, 0, 0⟩

theorem only_of_nodeToLease (converted : ksm.nodeToLease n = .ok l) :
    ksm.only l = l ∧ (ksm.enableIPv6 = true → l.ipv6Subnet.ip.isSome = true) := by
  simp only [nodeToLease, bind_eq_ok_iff] at converted
  obtain ⟨first, ipv4, second, ipv6, result⟩ := converted
  cases result
  unfold fillIPv4 at ipv4
  unfold fillIPv6 at ipv6
  cases enabled : ksm.enableIPv4 <;> cases enabled6 : ksm.enableIPv6 <;>
    simp only [enabled, enabled6, Bool.false_eq_true, if_false, if_true, bind_eq_ok_iff] at ipv4 ipv6
  · cases ipv4; cases ipv6
    exact ⟨by simp [only, enabled, enabled6, LeaseAttrs.zero], by simp⟩
  · cases ipv4
    obtain ⟨_, _, _, found, result⟩ := ipv6
    cases result
    exact ⟨by simp [only, enabled, enabled6, LeaseAttrs.zero], fun _ => isSome_of_cidr found⟩
  · obtain ⟨_, _, _, _, result⟩ := ipv4
    cases result; cases ipv6
    exact ⟨by simp [only, enabled, enabled6, LeaseAttrs.zero], by simp⟩
  · obtain ⟨_, _, _, _, result⟩ := ipv4
    cases result
    obtain ⟨_, _, _, found, result⟩ := ipv6
    cases result
    exact ⟨by simp [only, enabled, enabled6], fun _ => isSome_of_cidr found⟩

theorem ofFamilies_of_nodeToLease (converted : ksm.nodeToLease n = .ok l) :
    OfFamilies ksm.enableIPv4 ksm.enableIPv6 l := by
  obtain ⟨same, set⟩ := only_of_nodeToLease converted
  exact ⟨congrArg Lease.enableIPv4 same.symm, congrArg Lease.enableIPv6 same.symm, set⟩

theorem eq_of_not_differs (old : ksm.nodeToLease o = .ok l) (new : ksm.nodeToLease n = .ok l')
    (same : ksm.subnets l = ksm.subnets l') (alike : ¬ ksm.Differs l l') : l = l' := by
  rw [← (only_of_nodeToLease old).1, ← (only_of_nodeToLease new).1]
  simp only [subnets, Lease.subnets, Differs, DiffersIPv4, DiffersIPv6, not_or, not_and,
    Classical.not_not, Prod.mk.injEq] at same alike
  simp only [only]
  cases enabled : ksm.enableIPv4 <;> cases enabled6 : ksm.enableIPv6 <;> simp_all

end KubeSubnetManager

/-! ## What the events say about a node -/

section Told

variable {key : Lease → Subnets} {assigned : String → Option Subnets}

def leaves (event : NodeEvent) : Option Lease :=
  if event.2.type = .added then some event.2.lease else none

/-- The lease that the last of a node's events leaves. -/
def told (name : String) (events : List NodeEvent) : Option Lease :=
  (Overflow.ofKey Prod.fst name events).getLast?.bind leaves

theorem told_append (name : String) (events : List NodeEvent) (event : NodeEvent) :
    told name (events ++ [event]) = if event.1 = name then leaves event else told name events := by
  rw [told, told, Overflow.ofKey_append]
  by_cases here : event.1 = name
  · simp [Overflow.ofKey, here]
  · simp [Overflow.ofKey, here]

theorem replay_eq_told (exclusive : Exclusive assigned) {events : List NodeEvent}
    (placed : ∀ event ∈ events, assigned event.1 = some (key event.2.lease)) {name : String}
    {k : Subnets} (isKey : assigned name = some k) :
    replay (fun _ => none) ((events.map Prod.snd).map (Event.tracks key)) k = told name events := by
  induction events using List.reverseRecOn with
  | nil => rfl
  | append_singleton events event ih =>
    have isKey' := placed event (by simp)
    rw [List.map_append, List.map_append, replay_append, told_append]
    have earlier := ih fun other mem => placed other (List.mem_append_left _ mem)
    by_cases here : event.1 = name
    · obtain rfl : key event.2.lease = k := by simpa [here, isKey] using isKey'.symm
      rcases event with ⟨_, _ | _, lease⟩ <;> simp_all [Event.tracks, Change.apply, leaves]
    · have other : k ≠ key event.2.lease := fun same =>
        here (exclusive event.1 name k (same ▸ isKey') isKey)
      rw [if_neg here, ← earlier]
      apply Change.apply_of_ne
      rcases event with ⟨_, _ | _, lease⟩ <;> exact other

theorem told_filter {p : NodeEvent → Bool} {name : String} {events : List NodeEvent}
    (all : ∀ event ∈ events, event.1 = name → p event) :
    told name (events.filter p) = told name events := by
  rw [told, told, Overflow.ofKey, Overflow.ofKey, List.filter_filter]
  congr 2
  apply List.filter_congr
  intro event mem
  by_cases here : event.1 = name
  · simp [here, all event mem here]
  · simp [here]

end Told

/-! ## Whole runs -/

section Runs

open KubeSubnetManager

variable {ksm : KubeSubnetManager} {capacity : Nat}
  {assigned : String → Option Subnets} {informed target : Informed}

/-- The events tell of the leases of the nodes in the store. -/
structure Informed.Current (ksm : KubeSubnetManager) (assigned : String → Option Subnets)
    (informed : Informed) : Prop where
  orderly : informed.queue.Orderly Prod.fst
  stored : ∀ name n, informed.nodes name = some n → n.name = name ∧ Placed ksm assigned n
  events : ∀ event ∈ informed.queue.enqueued,
    OfFamilies ksm.enableIPv4 ksm.enableIPv6 event.2.lease ∧
      assigned event.1 = some (ksm.subnets event.2.lease)
  told : ∀ name, told name informed.queue.enqueued = (informed.nodes name).bind ksm.leaseOf

theorem enqueued_step {queue queue' : EventQueue} {label : QueueLabel}
    (taken : EventQueue.step ksm capacity queue label = some queue') :
    queue'.enqueued = queue.enqueued ++
      match label with
      | .callback call => (call.event ksm).toList
      | .move _ => [] := by
  cases label with
  | callback call =>
    simp only [EventQueue.step] at taken
    split at taken
    · next event isEvent =>
      unfold Overflow.enqueue at taken
      split at taken
      · cases taken
      · split_ifs at taken <;> cases taken <;> simp [isEvent]
    · next isEvent =>
      split_ifs at taken
      cases taken
      simp [isEvent]
  | move move =>
    rw [List.append_nil]
    cases move <;> simp only [EventQueue.step, Overflow.move] at taken <;>
      (repeat' split at taken) <;> cases taken <;> rfl

/-- A callback about a node stores an object or deletes it, and the event it enqueues
leaves the lease of this object; without an event the lease stays the same. -/
theorem Informed.Current.record (current : informed.Current ksm assigned) {queue : EventQueue}
    (orderly : queue.Orderly Prod.fst) {n : Node} (placed : Placed ksm assigned n)
    {event : Option NodeEvent}
    (sound : ∀ e ∈ event, ∃ et l, ksm.leaseOf n = some l ∧ e = (n.name, ⟨et, l⟩))
    (enqueued : queue.enqueued = informed.queue.enqueued ++ event.toList) {node : Option Node}
    (stored : ∀ m, node = some m → m = n)
    (left : event.elim ((informed.nodes n.name).bind ksm.leaseOf) leaves = node.bind ksm.leaseOf) :
    (Informed.mk queue (Function.update informed.nodes n.name node)).Current ksm assigned where
  orderly := orderly
  stored := by
    intro name m isNode
    by_cases here : name = n.name
    · subst here
      obtain rfl := stored m (by simpa using isNode)
      exact ⟨rfl, placed⟩
    · exact current.stored name m (by simpa [here] using isNode)
  events := by
    intro e mem
    rw [enqueued, List.mem_append, Option.mem_toList] at mem
    rcases mem with mem | isEvent
    · exact current.events e mem
    · obtain ⟨et, l, isLease, rfl⟩ := sound e isEvent
      exact ⟨ofFamilies_of_nodeToLease (nodeToLease_of_leaseOf isLease), placed l isLease⟩
  told := by
    intro name
    change Kube.told name queue.enqueued = (Function.update informed.nodes n.name node name).bind _
    rw [enqueued]
    cases event with
    | none =>
      rw [Option.toList_none, List.append_nil, current.told]
      by_cases here : name = n.name
      · rw [here, Function.update_self]
        exact left
      · rw [Function.update_of_ne here]
    | some e =>
      obtain ⟨et, l, -, rfl⟩ := sound e rfl
      rw [Option.toList_some, told_append]
      by_cases here : name = n.name
      · rw [if_pos here.symm, here, Function.update_self]
        exact left
      · rw [if_neg (Ne.symm here), Function.update_of_ne here, current.told]

theorem Informed.Current.step (current : informed.Current ksm assigned) {label : QueueLabel}
    (regular : Regular ksm assigned informed label) (settled : informed.queue.Settled ksm label)
    (taken : informed.step ksm capacity label = some target) : target.Current ksm assigned := by
  obtain ⟨queue, moved, rfl⟩ := Option.map_eq_some_iff.mp taken
  have orderly := orderly_step current.orderly settled moved
  have enqueued := enqueued_step moved
  cases label with
  | move move =>
    rw [List.append_nil] at enqueued
    exact ⟨orderly, current.stored, enqueued ▸ current.events, enqueued ▸ current.told⟩
  | callback call =>
    simp only [event_eq call] at enqueued
    cases call with
    | add obj =>
      obtain ⟨placed, absent⟩ := regular
      refine current.record orderly placed (fun e isEvent => ?_) enqueued (by rintro _ ⟨⟩; rfl) ?_
      · obtain ⟨l, isLease, rfl⟩ := Option.map_eq_some_iff.mp isEvent
        exact ⟨_, l, isLease, rfl⟩
      · cases isLease : ksm.leaseOf obj <;> simp [isLease, absent, leaves]
    | update o n =>
      obtain ⟨placed, isOld, keeps, first⟩ := regular
      obtain ⟨isName, placedOld⟩ := current.stored n.name o isOld
      refine current.record orderly placed (fun e isEvent => ?_) enqueued (by rintro _ ⟨⟩; rfl) ?_
      · obtain ⟨l, isLease, rfl⟩ :=
          Option.map_eq_some_iff.mp (Option.ite_none_right_eq_some.mp isEvent).2
        exact ⟨_, l, isLease, rfl⟩
      · rw [isOld, Option.bind_some, Option.bind_some]
        cases old : ksm.leaseOf o with
        | none =>
          cases new : ksm.leaseOf n with
          | none => by_cases changed : ksm.changed o n <;> simp [new, changed]
          | some l => simp [new, first old (by rw [new]; rfl), leaves]
        | some l =>
          obtain ⟨l', new, unmasked⟩ := keeps l old
          rw [Option.mem_def] at new
          by_cases changed : ksm.changed o n
          · simp [new, changed, leaves]
          · have same := (placedOld l old).symm.trans ((congrArg assigned isName).trans (placed l' new))
            have was := nodeToLease_of_leaseOf old
            have is := nodeToLease_of_leaseOf new
            have alike : l = l' := eq_of_not_differs was is (Option.some.inj same) fun differs =>
              unmasked (masked_of_differs (readFrom_of_nodeToLease was) (readFrom_of_nodeToLease is)
                differs (Bool.eq_false_iff.mpr changed))
            simp [new, changed, alike]
    | delete obj =>
      obtain ⟨n, isNode, placed, last, isLast, alike⟩ := regular
      rw [Option.mem_def] at isNode isLast
      simp only [isNode, Option.bind_some] at enqueued
      simp only [Callback.store, isNode, Option.elim_some]
      refine current.record orderly placed (fun e isEvent => ?_) enqueued nofun ?_
      · obtain ⟨l, isLease, rfl⟩ := Option.map_eq_some_iff.mp isEvent
        exact ⟨_, l, isLease, rfl⟩
      · cases isLease : ksm.leaseOf n with
        | some l => rfl
        | none =>
          rw [isLease, Option.isSome_none] at alike
          simpa [isLast] using alike.symm

/-- In every run in which no event is enqueued while a goroutine holds another one of its node: once
nothing is outstanding, the leases of the watcher are exactly those of the nodes left, without the
own one, and a backend that replays what the watcher emits has the same. -/
theorem leases_follow_nodes (enabled : ksm.enableIPv4 ∨ ksm.enableIPv6)
    (exclusive : Exclusive assigned) {labels : List QueueLabel}
    (along : Along (Informed.step ksm capacity) (fun informed label =>
      Regular ksm assigned informed label ∧ informed.queue.Settled ksm label) .initial labels)
    (reached : run (Informed.step ksm capacity) .initial labels = some target)
    (running : target.queue.cancelled = false) (drained : target.queue.outstanding = [])
    (ownLease : Lease) (ownSet : ksm.enableIPv6 = true → ownLease.ipv6Subnet.ip.isSome = true) :
    ∃ log, run Log.update (Log.start ownLease) (target.queue.received.map fun event => [event.2]) =
        some log ∧
      (∀ l, l ∈ log.watcher.leases ↔ ∃ name n, target.nodes name = some n ∧
        ksm.leaseOf n = some l ∧ ksm.subnets l ≠ ksm.subnets ownLease) ∧
      ∀ k, replay (fun _ => none) (log.emitted.map (Event.tracks ksm.subnets)) k =
        lookup ksm.subnets log.watcher.leases k := by
  have current : target.Current ksm assigned :=
    invariant_of_along (fun _ _ _ current cond taken => current.step cond.1 cond.2 taken)
      ⟨Overflow.orderly_initial, by simp [Informed.initial],
        by simp [Informed.initial, Overflow.initial], fun _ => rfl⟩ along reached
  have inOrder := fun name => current.orderly.inOrder name
  have received : ∀ event ∈ target.queue.received, event ∈ target.queue.enqueued := by
    intro event mem
    have here : event ∈ Overflow.ofKey Prod.fst event.1 target.queue.received := by
      simpa [Overflow.ofKey] using mem
    exact List.mem_of_mem_filter ((inOrder event.1).1.subset here)
  have last : ∀ name, told name target.queue.received = (target.nodes name).bind ksm.leaseOf := by
    intro name
    rw [← current.told, told, told, (inOrder name).2 running (by simp [drained])]
  have keying : Keying _ ksm.subnets ownLease := keying_ofFamilies enabled ownSet
  obtain ⟨emitted, leases, updated, tracks⟩ :=
    @exists_update_tracks _ _ _ _ _ (target.queue.received.map Prod.snd) keying (by
      intro e mem
      obtain ⟨event, isEvent, rfl⟩ := List.mem_map.mp mem
      exact (current.events event (received event isEvent)).1)
  refine ⟨⟨⟨ownLease, leases⟩, emitted⟩, ?_, ?_, tracks.replayed⟩
  · have flat : (target.queue.received.map fun event => [event.2]).flatten =
        target.queue.received.map Prod.snd := by
      rw [← List.flatMap_def, List.map_eq_flatMap]
    rw [Log.run_update, flat, Log.update, Log.start, updated]
    rfl
  · have lookups : ∀ name k, assigned name = some k → k ≠ ksm.subnets ownLease →
        lookup ksm.subnets leases k = (target.nodes name).bind ksm.leaseOf := by
      intro name k isKey other
      rw [tracks.folded, others, List.filter_map, replay_eq_told exclusive _ isKey, told_filter, last]
      · intro event mem here
        have isKey' := (current.events event (received event mem)).2
        rw [here, isKey, Option.some.injEq] at isKey'
        exact decide_eq_true (isKey' ▸ other.symm)
      · intro event mem
        exact (current.events event (received event (List.mem_of_mem_filter mem))).2
    intro l
    constructor
    · intro mem
      have silent := tracks.silent l mem
      have found := lookup_eq_some_of_mem tracks.distinct mem
      by_cases named : ∃ name, assigned name = some (ksm.subnets l)
      · obtain ⟨name, isKey⟩ := named
        rw [lookups name _ isKey silent] at found
        obtain ⟨n, isNode, isLease⟩ := Option.bind_eq_some_iff.mp found
        exact ⟨name, n, isNode, isLease, silent⟩
      · rw [tracks.folded, replay_of_forall_ne] at found
        · cases found
        · intro change mem same
          obtain ⟨e, kept, rfl⟩ := List.mem_map.mp mem
          obtain ⟨event, isEvent, rfl⟩ := List.mem_map.mp (List.mem_of_mem_filter kept)
          refine named ⟨event.1, (current.events event (received event isEvent)).2.trans ?_⟩
          rw [same]
          rcases event with ⟨_, _ | _, lease⟩ <;> rfl
    · rintro ⟨name, n, isNode, isLease, other⟩
      obtain ⟨rfl, placed⟩ := current.stored name n isNode
      have found := lookups n.name _ (placed l isLease) other
      rw [isNode, Option.bind_some, isLease] at found
      exact mem_of_lookup found

end Runs

def worker3 : Node :=
  { dualNode "5" "6" with name := "worker-3", podCIDR := "10.244.3.0/24", podCIDRs := [] }

def twoSubnets (name : String) : Option Subnets :=
  if name = "worker-2" then some (some ⟨0x0af40200, 24⟩, none)
  else if name = "worker-3" then some (some ⟨0x0af40300, 24⟩, none)
  else none

def nodeLeaves : List QueueLabel :=
  [.callback (.add (dualNode "1" "2")), .callback (.add worker3), .move .acquire, .move .receive,
    .callback (.update (dualNode "1" "2") (dualNode "3" "4")), .move .receive, .move (.send 0),
    .move .receive, .callback (.delete (.node (dualNode "3" "4"))), .move .receive]

/-- Two nodes join, one of them is updated and leaves, and the other one's lease is left. -/
theorem leases_follow_leaving_node :
    ∃ target log, run (Informed.step (defaultManager true false) 1) .initial nodeLeaves = some target ∧
      run Log.update (Log.start (plainLease 0x0af40100 0))
        (target.queue.received.map fun event => [event.2]) = some log ∧
      ∀ l, l ∈ log.watcher.leases ↔ ∃ name n, target.nodes name = some n ∧
        (defaultManager true false).leaseOf n = some l ∧ (defaultManager true false).subnets l ≠
          (defaultManager true false).subnets (plainLease 0x0af40100 0) := by
  have runs : ((run (Informed.step (defaultManager true false) 1) .initial nodeLeaves).map
      fun target => (target.queue.cancelled, target.queue.outstanding)) = some (false, []) := by
    decide +kernel
  obtain ⟨target, reached, figures⟩ := Option.map_eq_some_iff.mp runs
  obtain ⟨running, drained⟩ := Prod.mk.inj figures
  have exclusive : Exclusive twoSubnets := by
    intro first second k
    unfold twoSubnets
    split_ifs <;> simp_all <;> rintro rfl <;> simp
  obtain ⟨log, updates, leases, -⟩ := leases_follow_nodes (by decide) exclusive
    (by decide +kernel) reached running drained (plainLease 0x0af40100 0) nofun
  exact ⟨target, log, reached, updates, leases⟩

end Flannel.Kube
