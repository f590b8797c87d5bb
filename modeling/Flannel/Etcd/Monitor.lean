import Flannel.Etcd.LocalManager
import Flannel.Transition.Core

/-!
# Keeping the lease

`CompleteLease` renews the lease when the margin before its expiration begins, tries
again a minute after a failure, and follows what the watch tells of the lease. The
model has beside it the moment at which etcd drops the key: the daemon computes the
expiration from the answer of a request, so it may take it for later than it is.
-/

namespace Flannel.Etcd

open Leases Transition

def minute : Int :=
  60 * second

inductive Stopped
  | errInterrupted
  | errCanceled

structure Monitor where
  now : Int
  expiration : Int
  /-- The moment at which the timer fires. -/
  fires : Int
  /-- The moment at which etcd drops the key. -/
  ends : Int
  /-- Renewals that failed one after the other. -/
  failures : Nat
  returned : Option Stopped

/-- A call of `updateSubnet`. Where the answer to the write is lost, the new etcd lease
is revoked, with the key attached to it, unless this fails too. -/
structure Renewal where
  granted : Int
  grant : Grant
  fate : Fate
  revoked : Bool

def Renewal.ends (renewal : Renewal) (before : Int) : Int :=
  match renewal.fate with
  | .refused => before
  | .done => renewal.granted + renewal.grant.ttl * second
  | .lost =>
    if renewal.revoked then renewal.grant.now
    else renewal.granted + renewal.grant.ttl * second

inductive MonitorLabel
  | wait (duration : Nat)
  | renew (renewal : Renewal)
  | event (type : EventType) (expiration : Int)
  | closed

namespace Monitor

def after (m : Monitor) (dur : Int) : Monitor :=
  { m with fires := m.now + max 0 dur }

def untilMargin (m : Monitor) (margin : Int) : Monitor :=
  m.after (m.expiration - m.now - margin * minute)

def start (margin : Int) (now expiration ends : Int) : Monitor :=
  untilMargin ⟨now, expiration, now, ends, 0, none⟩ margin

/-- The result of `RenewLease`, and the next timer. -/
def renew (m : Monitor) (margin : Int) (renewal : Renewal) : Monitor :=
  let m := { m with now := renewal.grant.now, ends := renewal.ends m.ends }
  if renewal.fate = .done then
    untilMargin { m with expiration := renewal.grant.expiration, failures := 0 } margin
  else after { m with failures := m.failures + 1 } minute

/-- `CompleteLease`: a branch of its `select`, or time that passes in it. -/
def step (margin : Int) : Step Monitor MonitorLabel := fun m label =>
  if m.returned.isSome then none
  else match label with
    | .wait duration =>
      if m.now + duration ≤ m.fires then some { m with now := m.now + duration } else none
    | .renew renewal => if m.now < m.fires then none else some (m.renew margin renewal)
    | .event .added expiration => some (untilMargin { m with expiration := expiration } margin)
    | .event .removed _ => some { m with returned := some .errInterrupted }
    | .closed => some { m with returned := some .errCanceled }

/-- Requests take at most `latency`, at most `retries` renewals fail in a row, and no
write takes effect without an answer and is then revoked. -/
def Timely (retries latency : Nat) (m : Monitor) : MonitorLabel → Prop
  | .renew renewal => m.now + latency ≥ renewal.grant.now ∧
      (renewal.fate = .done ∨ m.failures < retries) ∧
      (renewal.fate ≠ .refused →
        m.now ≤ renewal.granted ∧ renewal.grant.ttl * second ≥ subnetTTL) ∧
      (renewal.fate = .lost → renewal.revoked = false)
  | .event _ expiration => expiration ≤ m.ends + latency
  | _ => True

instance (retries latency : Nat) (m : Monitor) : DecidablePred (Timely retries latency m)
  | .renew _ => inferInstanceAs (Decidable (_ ∧ _))
  | .event _ _ => inferInstanceAs (Decidable (_ ≤ _))
  | .wait _ => inferInstanceAs (Decidable True)
  | .closed => inferInstanceAs (Decidable True)

/-- The timer fires early enough for the renewals that may still fail. -/
def InTime (retries latency : Nat) (m : Monitor) : Prop :=
  m.now ≤ m.fires ∧ ∃ left : Nat, m.failures + left = retries ∧
    m.fires + left * (minute + latency) + latency ≤ m.ends

section Runs

variable {margin : Int} {retries latency : Nat} {m target : Monitor}

theorem mul_minute_le {few many : Nat} (le : few ≤ many) :
    (few : Int) * (minute + latency) ≤ many * (minute + latency) := by
  apply Int.mul_le_mul_of_nonneg_right
  · omega
  · simp only [minute, second]
    omega

theorem inTime_untilMargin {left : Nat} (count : m.failures + left = retries)
    (fits : retries * (minute + latency) + 2 * latency ≤ margin * minute)
    (believed : m.expiration ≤ m.ends + latency)
    (room : m.now + left * (minute + latency) + latency ≤ m.ends) :
    (m.untilMargin margin).InTime retries latency := by
  have fewer := @mul_minute_le latency left retries (by omega)
  refine ⟨?_, left, count, ?_⟩ <;> simp only [untilMargin, after] <;> omega

theorem InTime.renew (checked : margin < 24 * 60)
    (fits : retries * (minute + latency) + 2 * latency ≤ margin * minute)
    (inTime : m.InTime retries latency) (fired : m.fires ≤ m.now) {renewal : Renewal}
    (timely : m.Timely retries latency (.renew renewal)) :
    (m.renew margin renewal).InTime retries latency := by
  obtain ⟨waits, left, count, room⟩ := inTime
  obtain ⟨answered, few, granted, kept⟩ := timely
  have covers : renewal.fate ≠ .refused →
      m.now + margin * minute ≤ renewal.granted + renewal.grant.ttl * second := by
    intro written
    obtain ⟨asked, long⟩ := granted written
    simp only [subnetTTL, minute, second] at long ⊢
    omega
  unfold Monitor.renew
  split_ifs with isDone
  · have covers := covers (by rw [isDone]; nofun)
    have asked := (granted (by rw [isDone]; nofun)).1
    apply inTime_untilMargin (Nat.zero_add _) fits <;>
      simp only [Grant.expiration, Renewal.ends, isDone] <;> omega
  · -- One of the renewals that may fail is used up.
    obtain ⟨left, rfl⟩ : ∃ less, left = less + 1 := by
      have more := few.resolve_left isDone
      exact ⟨left - 1, by omega⟩
    have fewer := @mul_minute_le latency (left + 1) retries (by omega)
    rw [Nat.cast_succ, add_mul, one_mul] at room fewer
    have later : m.now + minute + latency + left * (minute + latency) + latency ≤
        renewal.ends m.ends := by
      rcases renewal with ⟨moment, grant, _ | _ | _, revoked⟩
      · contradiction
      · simp only [Renewal.ends]
        omega
      · obtain rfl : revoked = false := kept rfl
        have covers : m.now + margin * minute ≤ moment + grant.ttl * second := covers nofun
        change _ ≤ moment + grant.ttl * second
        omega
    have positive : 0 ≤ minute := by decide
    refine ⟨?_, left, ?_, ?_⟩ <;> simp only [after] <;> omega

theorem InTime.step (checked : margin < 24 * 60)
    (fits : retries * (minute + latency) + 2 * latency ≤ margin * minute)
    (inTime : m.InTime retries latency) {label : MonitorLabel} (timely : m.Timely retries latency label)
    (taken : m.step margin label = some target) : target.InTime retries latency := by
  obtain ⟨running, taken⟩ := Option.ite_none_left_eq_some.mp taken
  cases label with
  | wait duration =>
    obtain ⟨early, waited⟩ := Option.ite_none_right_eq_some.mp taken
    cases waited
    exact ⟨early, inTime.2⟩
  | closed =>
    cases taken
    exact inTime
  | event type expiration =>
    cases type with
    | added =>
      cases taken
      obtain ⟨waits, left, count, room⟩ := inTime
      exact inTime_untilMargin count fits timely (by simp only; omega)
    | removed =>
      cases taken
      exact inTime
  | renew renewal =>
    obtain ⟨fired, renewed⟩ := Option.ite_none_left_eq_some.mp taken
    cases renewed
    exact inTime.renew checked fits (not_lt.mp fired) timely

end Runs

end Monitor

/-- As long as the failed renewals in a row, a minute apart, and the time of the requests
fit into the margin, the key does not expire before the next request is answered. -/
theorem lease_outlives_failures {margin : Int} {retries latency : Nat} (checked : margin < 24 * 60)
    (fits : retries * (minute + latency) + 2 * latency ≤ margin * minute)
    {now expiration ends : Int} (believed : expiration ≤ ends + latency)
    (room : now + retries * (minute + latency) + latency ≤ ends) {labels : List MonitorLabel}
    (timely : Along (Monitor.step margin) (Monitor.Timely retries latency)
      (Monitor.start margin now expiration ends) labels) {target : Monitor}
    (reached : run (Monitor.step margin) (Monitor.start margin now expiration ends) labels =
      some target) : target.now + latency ≤ target.ends := by
  have inTime : target.InTime retries latency := by
    refine invariant_of_along (fun _ _ _ inTime timely taken => inTime.step checked fits timely taken)
      ?_ timely reached
    exact Monitor.inTime_untilMargin (Nat.zero_add _) fits believed room
  obtain ⟨waits, left, -, inTime⟩ := inTime
  have positive := @Monitor.mul_minute_le latency 0 left (Nat.zero_le _)
  omega

/-- A refused renewal, one whose answer is lost, an event, and a renewal that succeeds. -/
def troubledRenewals : List MonitorLabel :=
  [.wait 82800000000000, .renew ⟨0, ⟨0, 0, 82801000000000⟩, .refused, false⟩, .wait 60000000000,
    .renew ⟨82861000000000, ⟨1, 86400, 82862000000000⟩, .lost, false⟩, .wait 1000000000,
    .event .added 169261000000000, .wait 82798000000000,
    .renew ⟨165661000000000, ⟨2, 86400, 165662000000000⟩, .done, false⟩]

/-- With the default margin and requests of a second, 58 renewals in a row may fail. -/
theorem lease_outlives_troubled_renewals :
    ∃ target, run (Monitor.step 60) (.start 60 0 86400000000000 86400000000000) troubledRenewals =
        some target ∧ target.now + 1000000000 ≤ target.ends :=
  ⟨_, rfl, @lease_outlives_failures 60 58 1000000000 (by decide) (by decide) 0 86400000000000
    86400000000000 (by decide) (by decide) troubledRenewals (by decide) _ rfl⟩

end Flannel.Etcd
