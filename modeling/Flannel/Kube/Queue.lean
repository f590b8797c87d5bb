import Flannel.Channel.Overflow
import Flannel.Kube.Manager

/-!
# The event queue of the Kubernetes subnet manager

`enqueueLeaseEvent` sends an event to the channel `events` if there is room; otherwise it waits
for one of a hundred slots and leaves the event to a goroutine that retries. The events of one
node stay in order if none is enqueued while a goroutine still holds another one.
-/

namespace Flannel.Kube

open Channel Leases Transition

inductive Deleted
  | node (n : Node)
  /-- `cache.DeletedFinalStateUnknown` and the node in it, if it is one. -/
  | finalStateUnknown (obj : Option Node)
  | unexpected
  deriving DecidableEq

inductive Callback
  | add (obj : Node)
  | update (oldObj newObj : Node)
  | delete (obj : Deleted)
  deriving DecidableEq

abbrev NodeEvent := String × Event

def KubeSubnetManager.deleteFunc (ksm : KubeSubnetManager) : Deleted → Option NodeEvent
  | .node n => (ksm.handleAddLeaseEvent .removed n).map (n.name, ·)
  | .finalStateUnknown (some n) => (ksm.handleAddLeaseEvent .removed n).map (n.name, ·)
  | .finalStateUnknown none => none
  | .unexpected => none

def Callback.event (ksm : KubeSubnetManager) : Callback → Option NodeEvent
  | .add obj => (ksm.handleAddLeaseEvent .added obj).map (obj.name, ·)
  | .update oldObj newObj => (ksm.handleUpdateLeaseEvent oldObj newObj).map (newObj.name, ·)
  | .delete obj => ksm.deleteFunc obj

def asyncSendSlots : Nat :=
  100

inductive QueueLabel
  | callback (call : Callback)
  | move (move : Move)
  deriving DecidableEq

abbrev EventQueue := Overflow NodeEvent

def EventQueue.step (ksm : KubeSubnetManager) (capacity : Nat) : Step EventQueue QueueLabel
  | queue, .callback call =>
    match call.event ksm with
    | some event => queue.enqueue capacity event
    -- the informer makes no further call while one is blocked
    | none => if queue.blocked.isNone then some queue else none
  | queue, .move move => queue.move capacity asyncSendSlots move

/-- A callback that enqueues an event finds no goroutine with an event of the same node. -/
def EventQueue.Settled (ksm : KubeSubnetManager) (queue : EventQueue) : QueueLabel → Prop
  | .callback call => ∀ event ∈ call.event ksm, ∀ other ∈ queue.senders, other.1 ≠ event.1
  | .move _ => True

instance decidableSettled (ksm : KubeSubnetManager) (queue : EventQueue) :
    ∀ label, Decidable (EventQueue.Settled ksm queue label)
  | .callback call =>
    inferInstanceAs (Decidable (∀ event ∈ call.event ksm, ∀ other ∈ queue.senders,
      other.1 ≠ event.1))
  | .move _ => inferInstanceAs (Decidable True)

variable {ksm : KubeSubnetManager} {capacity : Nat}

theorem orderly_step {queue target : EventQueue} {label : QueueLabel}
    (orderly : queue.Orderly Prod.fst) (settled : queue.Settled ksm label)
    (taken : EventQueue.step ksm capacity queue label = some target) :
    target.Orderly Prod.fst := by
  cases label with
  | callback call =>
    simp only [EventQueue.step] at taken
    split at taken
    · rename_i event enqueued
      exact orderly.enqueue (settled event enqueued) taken
    · split_ifs at taken
      cases taken
      exact orderly
  | move move => exact orderly.move taken

/-- In every run in which no event is enqueued while a goroutine holds another one
of its node, the events of every node are received in the order enqueued. -/
theorem nodeEvents_inOrder {labels : List QueueLabel} {target : EventQueue}
    (settled : Along (EventQueue.step ksm capacity) (EventQueue.Settled ksm) Overflow.initial labels)
    (reached : run (EventQueue.step ksm capacity) Overflow.initial labels = some target)
    (node : String) : target.InOrder Prod.fst node := by
  have orderly : target.Orderly Prod.fst :=
    invariant_of_along (fun _ _ _ orderly settled taken => orderly_step orderly settled taken)
      Overflow.orderly_initial settled reached
  exact orderly.inOrder node

def settledQueue : List QueueLabel :=
  [.callback (.add (dualNode "1" "2")), .callback (.add { dualNode "5" "6" with name := "worker-3" }),
    .move .acquire, .move .receive, .callback (.delete (.node (dualNode "1" "2"))), .move .receive,
    .move (.send 0), .move .receive]

theorem nodeEvents_inOrder_settled :
    ∃ target, run (EventQueue.step (defaultManager true true) 1) Overflow.initial settledQueue =
        some target ∧
      target.received.length = 3 ∧ target.InOrder Prod.fst "worker-2" ∧
      target.InOrder Prod.fst "worker-3" := by
  have runs : ((run (EventQueue.step (defaultManager true true) 1) Overflow.initial
      settledQueue).map fun target => target.received.length) = some 3 := by
    decide
  have settled : Along (EventQueue.step (defaultManager true true) 1)
      (EventQueue.Settled (defaultManager true true)) Overflow.initial settledQueue := by
    decide
  obtain ⟨target, reached, length⟩ := Option.map_eq_some_iff.mp runs
  exact ⟨target, reached, length, nodeEvents_inOrder settled reached "worker-2",
    nodeEvents_inOrder settled reached "worker-3"⟩

def overtakingQueue : List QueueLabel :=
  [.callback (.add (dualNode "1" "2")), .callback (.update (dualNode "1" "2") (dualNode "3" "4")),
    .move .acquire, .move .receive, .callback (.delete (.node (dualNode "3" "4"))), .move .receive,
    .move (.send 0), .move .receive]

/-- The last event received says that the node was added, the last one enqueued
that it was removed. -/
theorem nodeEvents_overtaken :
    ∃ target, run (EventQueue.step (defaultManager true true) 1) Overflow.initial overtakingQueue =
        some target ∧
      target.enqueued.map (·.2.type) = [.added, .added, .removed] ∧
      target.received.map (·.2.type) = [.added, .removed, .added] ∧
      ¬ target.InOrder Prod.fst "worker-2" := by
  have runs : ((run (EventQueue.step (defaultManager true true) 1) Overflow.initial
      overtakingQueue).map fun target =>
        (target.enqueued, target.received, target.outstanding, target.cancelled)) =
      some ([("worker-2", ⟨.added, dualLease "1" "2"⟩), ("worker-2", ⟨.added, dualLease "3" "4"⟩),
          ("worker-2", ⟨.removed, dualLease "3" "4"⟩)],
        [("worker-2", ⟨.added, dualLease "1" "2"⟩), ("worker-2", ⟨.removed, dualLease "3" "4"⟩),
          ("worker-2", ⟨.added, dualLease "3" "4"⟩)], [], false) := by
    decide
  obtain ⟨target, reached, figures⟩ := Option.map_eq_some_iff.mp runs
  simp only [Prod.mk.injEq] at figures
  obtain ⟨enqueued, received, outstanding, running⟩ := figures
  refine ⟨target, reached, by rw [enqueued]; rfl, by rw [received]; rfl, ?_⟩
  rintro ⟨_, complete⟩
  have last := complete running (by simp [outstanding])
  rw [enqueued, received] at last
  revert last
  decide

end Flannel.Kube
