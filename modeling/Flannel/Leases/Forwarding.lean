import Flannel.Leases.Core
import Flannel.Transition.Core

/-!
# Forwarding the watch of one lease

`subnet.WatchLease`: a goroutine runs the watch of the manager, and the loop forwards an event of
each result on `receiver`. Both channels are unbuffered, and both processes close `receiver`.
-/

namespace Flannel.Leases

open Transition

def forward (wr : LeaseWatchResult) : Option Event :=
  match wr.snapshot with
  | l :: _ => some ⟨.added, l⟩
  | [] => wr.events.head?

inductive Watcher
  | running
  /-- At a send on `leaseWatchChan`. -/
  | sending (results : List LeaseWatchResult)
  /-- At a send that the end of the context interrupts, in `resyncWatchSubnet`. -/
  | offering (results : List LeaseWatchResult)
  /-- The watch has returned an error. -/
  | failed
  | returned

inductive Forwarder
  | receiving
  /-- At a send on `receiver`, with the results after this one. -/
  | sending (event : Event) (rest : List LeaseWatchResult)
  | finished
  | returned

def forwardAll : List LeaseWatchResult → Forwarder
  | [] => .receiving
  | wr :: rest =>
    match forward wr with
    | some event => .sending event rest
    | none => forwardAll rest

structure LeaseWatch where
  watcher : Watcher
  forwarder : Forwarder
  /-- `leaseWatchChan` is closed. -/
  watchClosed : Bool
  closeOnce : Bool
  /-- How often `receiver` was closed. -/
  closings : Nat
  cancelled : Bool

inductive LeaseWatchEvent
  | cancel
  | send (results : List LeaseWatchResult)
  | offer (results : List LeaseWatchResult)
  /-- The context is done while results are offered. -/
  | giveUp
  /-- The loop receives what is sent on `leaseWatchChan`. -/
  | handOver
  | fail
  | done
  | closeReceiver
  | consume
  /-- The loop ends with the channel. -/
  | finish
  | closeAfterLoop

namespace LeaseWatch

def initial : LeaseWatch :=
  ⟨.running, .receiving, false, false, 0, false⟩

def closeReceiver (w : LeaseWatch) : LeaseWatch :=
  if w.closeOnce then w else { w with closeOnce := true, closings := w.closings + 1 }

def step : Step LeaseWatch LeaseWatchEvent := fun w event =>
  match event, w.watcher, w.forwarder with
  | .cancel, _, _ => some { w with cancelled := true }
  | .send results, .running, _ => some { w with watcher := .sending results }
  | .offer results, .running, _ => some { w with watcher := .offering results }
  | .giveUp, .offering _, _ => if w.cancelled then some { w with watcher := .running } else none
  | .handOver, .sending results, .receiving =>
    some { w with watcher := .running, forwarder := forwardAll results }
  | .handOver, .offering results, .receiving =>
    some { w with watcher := .running, forwarder := forwardAll results }
  | .fail, .running, _ => some { w with watcher := .failed }
  | .done, .running, _ =>
    if w.cancelled then some { w with watchClosed := true, watcher := .failed } else none
  | .closeReceiver, .failed, _ => some { w.closeReceiver with watcher := .returned }
  | .consume, _, .sending _ rest => some { w with forwarder := forwardAll rest }
  | .finish, _, .receiving => if w.watchClosed then some { w with forwarder := .finished } else none
  | .closeAfterLoop, _, .finished => some { w.closeReceiver with forwarder := .returned }
  | _, _, _ => none

/-- `receiver` is closed at most once, and nobody is at a send on a closed channel. -/
structure Safe (w : LeaseWatch) : Prop where
  once : w.closings ≤ 1
  receiver : 0 < w.closings → ∀ event rest, w.forwarder ≠ .sending event rest
  watchChan : w.watchClosed = true →
    ∀ results, w.watcher ≠ .sending results ∧ w.watcher ≠ .offering results

/-- The goroutine closes `receiver` only after the consumer has received every event
that was handed over. -/
def Drained (w : LeaseWatch) (event : LeaseWatchEvent) : Prop :=
  event = .closeReceiver → ∀ event rest, w.forwarder ≠ .sending event rest

/-- What makes a watch safe: a closed channel is closed by a process that has ended, or that sends
no more. -/
structure Orderly (w : LeaseWatch) : Prop where
  counted : w.closings = if w.closeOnce then 1 else 0
  drained : w.closeOnce = true → ∀ event rest, w.forwarder ≠ .sending event rest
  closer : w.closeOnce = true → w.watcher = .returned ∨ w.forwarder = .returned
  ended : w.watchClosed = true → w.watcher = .failed ∨ w.watcher = .returned

variable {w : LeaseWatch}

theorem Orderly.safe (orderly : Orderly w) : Safe w := by
  have counted := orderly.counted
  refine ⟨by split at counted <;> omega, fun closed => orderly.drained ?_, fun closed results => ?_⟩
  · by_contra isOpen
    simp [isOpen] at counted
    omega
  · rcases orderly.ended closed with isWatcher | isWatcher <;> simp [isWatcher]

theorem closeReceiver_eq (orderly : Orderly w) :
    w.closeReceiver = { w with closeOnce := true, closings := 1 } := by
  have counted := orderly.counted
  unfold closeReceiver
  split
  · next isClosed =>
    rw [if_pos isClosed] at counted
    rw [← isClosed, ← counted]
  · next isOpen => rw [counted, if_neg isOpen]

/-- While the watch runs, its channel is open, and `receiver` is closed only by a loop
that has ended. -/
theorem Orderly.live (orderly : Orderly w) (watches : w.watcher ≠ .failed)
    (runs : w.watcher ≠ .returned) :
    w.watchClosed = false ∧ (w.closeOnce → w.forwarder = .returned) := by
  refine ⟨?_, fun closed => (orderly.closer closed).resolve_left runs⟩
  by_contra closed
  exact (orderly.ended (by simpa using closed)).elim watches runs

theorem Orderly.move (orderly : Orderly w) (watches : w.watcher ≠ .failed)
    (runs : w.watcher ≠ .returned) (watcher : Watcher) : Orderly { w with watcher := watcher } := by
  obtain ⟨isOpen, looped⟩ := orderly.live watches runs
  exact ⟨orderly.counted, orderly.drained, fun closed => .inr (looped closed), by simp [isOpen]⟩

theorem Orderly.forwarding (orderly : Orderly w) (isOpen : w.closeOnce = false)
    (forwarder : Forwarder) : Orderly { w with forwarder := forwarder } :=
  ⟨orderly.counted, by simp [isOpen], by simp [isOpen], orderly.ended⟩

theorem Orderly.handOver (orderly : Orderly w) (watches : w.watcher ≠ .failed)
    (runs : w.watcher ≠ .returned) (receives : w.forwarder = .receiving) (forwarder : Forwarder) :
    Orderly { w with watcher := .running, forwarder := forwarder } := by
  have isOpen : w.closeOnce = false := by
    by_contra closed
    have looped := (orderly.live watches runs).2 (by simpa using closed)
    rw [receives] at looped
    cases looped
  exact (orderly.move watches runs .running).forwarding isOpen forwarder

theorem Orderly.step {w' : LeaseWatch} {event : LeaseWatchEvent} (orderly : Orderly w)
    (drained : Drained w event) (stepped : step w event = some w') : Orderly w' := by
  unfold LeaseWatch.step at stepped
  split at stepped
  · cases stepped
    exact ⟨orderly.counted, orderly.drained, orderly.closer, orderly.ended⟩
  · next isWatcher =>
    cases stepped
    exact orderly.move (by simp [isWatcher]) (by simp [isWatcher]) _
  · next isWatcher =>
    cases stepped
    exact orderly.move (by simp [isWatcher]) (by simp [isWatcher]) _
  · next isWatcher =>
    split at stepped <;> cases stepped
    exact orderly.move (by simp [isWatcher]) (by simp [isWatcher]) _
  · next isWatcher receives =>
    cases stepped
    exact orderly.handOver (by simp [isWatcher]) (by simp [isWatcher]) receives _
  · next isWatcher receives =>
    cases stepped
    exact orderly.handOver (by simp [isWatcher]) (by simp [isWatcher]) receives _
  · next isWatcher =>
    cases stepped
    exact orderly.move (by simp [isWatcher]) (by simp [isWatcher]) _
  · next isWatcher =>
    split at stepped <;> cases stepped
    have moved := orderly.move (by simp [isWatcher]) (by simp [isWatcher]) .failed
    exact ⟨moved.counted, moved.drained, moved.closer, fun _ => .inl rfl⟩
  · cases stepped
    rw [closeReceiver_eq orderly]
    exact ⟨rfl, fun _ => drained rfl, fun _ => .inl rfl, fun _ => .inr rfl⟩
  · next isForwarder =>
    cases stepped
    refine orderly.forwarding ?_ _
    by_contra closed
    exact orderly.drained (by simpa using closed) _ _ isForwarder
  · next receives =>
    split at stepped <;> cases stepped
    refine ⟨orderly.counted, by simp, fun closed => .inl ?_, orderly.ended⟩
    exact (orderly.closer closed).resolve_right (by simp [receives])
  · cases stepped
    rw [closeReceiver_eq orderly]
    exact ⟨rfl, by simp, fun _ => .inr rfl, orderly.ended⟩
  · cases stepped

theorem drained_of_safe {w' : LeaseWatch} {event : LeaseWatchEvent} (orderly : Orderly w)
    (stepped : step w event = some w') (safe : Safe w') : Drained w event := by
  rintro rfl
  unfold LeaseWatch.step at stepped
  split at stepped <;> try contradiction
  cases stepped
  rw [closeReceiver_eq orderly] at safe
  exact safe.receiver Nat.one_pos

/-- No send meets a closed channel, at any time of a run, exactly if every time the
goroutine closes `receiver` there is no event left to receive. -/
theorem watchLease_safe_iff (events : List LeaseWatchEvent) :
    Throughout step Safe initial events ↔
      Along step (fun w event => (step w event).isSome → Drained w event) initial events := by
  have start : Orderly initial := ⟨rfl, by simp [initial], by simp [initial], by simp [initial]⟩
  refine @throughout_iff_along _ _ _ (fun _ _ => True) _ Orderly _ ?_ ?_ ?_ _ _ start ?_
  · exact fun _ orderly => orderly.safe
  · exact fun _ _ _ orderly _ drained stepped => orderly.step drained stepped
  · exact fun _ _ _ orderly _ stepped safe => drained_of_safe orderly stepped safe
  · exact along_of_forall_mem fun _ _ => trivial

/-- The context is cancelled while an event is being handed to the consumer: the watch
closes both channels. -/
theorem closes_under_send : ∃ w, run step initial
    [.send [⟨[], [plainLease 0 1], some 1⟩], .handOver, .cancel, .done, .closeReceiver] = some w ∧
      ¬ Safe w :=
  ⟨_, rfl, fun safe => safe.receiver Nat.one_pos _ _ rfl⟩

end LeaseWatch

end Flannel.Leases
