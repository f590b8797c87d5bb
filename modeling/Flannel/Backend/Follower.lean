import Flannel.Leases.Watcher
import Flannel.Program.Crash

/-!
# Backends that follow the leases

The `Run` loop of a backend hands every batch of a `LeaseWatcher` to `handleSubnetEvents`, which
treats the events one by one: a relation between leases and state that every event keeps holds
after every run.
-/

namespace Flannel.Backend

open Leases Program Table Transition

/-- `handleSubnetEvents` on the state of a backend; there is no result where it
panics. -/
abbrev Handler (σ : Type) := σ → List Event → Option σ

structure Follower (σ : Type) where
  watcher : LeaseWatcher
  state : σ

variable {σ : Type}

def Follower.step (handle : Handler σ) : Step (Follower σ) (List Event) := fun follower events =>
  (follower.watcher.update events).bind fun result =>
    (handle follower.state result.1).map fun state => ⟨result.2, state⟩

structure Handler.Sequential (handle : Handler σ) : Prop where
  nil : ∀ state, handle state [] = some state
  append : ∀ state first second,
    handle state (first ++ second) = (handle state first).bind fun middle => handle middle second

theorem sequential_foldlM (one : σ → Event → Option σ) :
    Handler.Sequential fun state batch => batch.foldlM one state where
  nil := fun _ => rfl
  append := fun _ _ _ => List.foldlM_append

section Executed

variable {Op : Type} {Res : Op → Type} (world : σ → (op : Op) → Res op × σ)
  (body : Event → Proc Op Res Unit)

def executed : Handler σ := fun state batch =>
  (exec world state (each body batch)).map Prod.snd

theorem executed_eq : executed world body =
    fun state batch => batch.foldlM (fun state event =>
      (exec world state (body event)).map Prod.snd) state := by
  funext state batch
  exact exec_each world state body batch

theorem sequential_executed : (executed world body).Sequential := by
  rw [executed_eq]
  exact sequential_foldlM _

theorem executed_singleton (state : σ) (event : Event) :
    executed world body state [event] = (exec world state (body event)).map Prod.snd := by
  simp [executed_eq]

end Executed

def watch : Step LeaseWatcher Event := fun lw e =>
  (lw.update [e]).map Prod.snd

section Sequential

variable {handle : Handler σ} (sequential : handle.Sequential)

include sequential

theorem step_append (follower : Follower σ) (first second : List Event) :
    Follower.step handle follower (first ++ second) =
      (Follower.step handle follower first).bind fun middle =>
        Follower.step handle middle second := by
  simp only [Follower.step, update_append, Option.bind_assoc, Option.bind_map]
  cases updated : follower.watcher.update first with
  | none => rfl
  | some one =>
    cases handled : handle follower.state one.1 with
    | none =>
      cases more : one.2.update second with
      | none => simp [more, handled]
      | some two => simp [more, handled, sequential.append]
    | some middle =>
      cases more : one.2.update second with
      | none => simp [more, handled]
      | some two => simp [more, handled, sequential.append]

theorem run_step (follower : Follower σ) (calls : List (List Event)) :
    run (Follower.step handle) follower calls = Follower.step handle follower calls.flatten := by
  induction calls generalizing follower with
  | nil => simp [Follower.step, LeaseWatcher.update, sequential.nil]
  | cons events calls ih =>
    rw [run, List.flatten_cons, step_append sequential]
    congr 1
    funext middle
    exact ih middle

end Sequential

section Keying

variable {κ : Type} [DecidableEq κ] {kind : Lease → Prop} {key : Lease → κ} {ownLease : Lease}
  {handle : Handler σ} {Inv : List Lease → σ → Prop} {Cond : List Lease → Event → Prop}

theorem step_singleton (keying : Keying kind key ownLease) {leases : List Lease}
    (kept : Kept kind key ownLease leases) {e : Event} (kindOf : kind e.lease)
    (differ : key ownLease ≠ key e.lease) (state : σ) :
    Follower.step handle ⟨⟨ownLease, leases⟩, state⟩ [e] =
      (handle state [relayed key leases e]).map fun state =>
        ⟨⟨ownLease, tracked key leases e⟩, state⟩ := by
  have single := @update_singleton κ _ kind key ⟨ownLease, leases⟩ keying kept.kinds e kindOf
  rw [if_neg differ] at single
  rw [Follower.step, single]
  rfl

theorem step_own (sequential : handle.Sequential) (keying : Keying kind key ownLease)
    {leases : List Lease} (kept : Kept kind key ownLease leases) {e : Event} (kindOf : kind e.lease)
    (same : key ownLease = key e.lease) (state : σ) :
    Follower.step handle ⟨⟨ownLease, leases⟩, state⟩ [e] = some ⟨⟨ownLease, leases⟩, state⟩ := by
  have single := @update_singleton κ _ kind key ⟨ownLease, leases⟩ keying kept.kinds e kindOf
  rw [if_pos same] at single
  rw [Follower.step, single, Option.bind_some, sequential.nil]
  rfl

theorem exists_step_of_along (sequential : handle.Sequential) (keying : Keying kind key ownLease)
    (keeps : ∀ leases state e, Kept kind key ownLease leases → kind e.lease →
      key ownLease ≠ key e.lease → Inv leases state → Cond leases e →
      ∃ target, handle state [relayed key leases e] = some target ∧
        Inv (tracked key leases e) target)
    {leases : List Lease} {state : σ} (kept : Kept kind key ownLease leases)
    (inv : Inv leases state) {events : List Event} (kinds : ∀ e ∈ events, kind e.lease)
    (along : Along watch (fun lw e => key ownLease ≠ key e.lease → Cond lw.leases e)
      ⟨ownLease, leases⟩ events) :
    ∃ leases' state', Follower.step handle ⟨⟨ownLease, leases⟩, state⟩ events =
        some ⟨⟨ownLease, leases'⟩, state'⟩ ∧
      Inv leases' state' := by
  induction events generalizing leases state with
  | nil => exact ⟨leases, state, by simp [Follower.step, LeaseWatcher.update, sequential.nil], inv⟩
  | cons e events ih =>
    have kindOf := kinds e (.head _)
    have rest := fun other mem => kinds other (.tail e mem)
    have single := @update_singleton κ _ kind key ⟨ownLease, leases⟩ keying kept.kinds e kindOf
    have cut := step_append sequential ⟨⟨ownLease, leases⟩, state⟩ [e] events
    rw [List.singleton_append] at cut
    rw [cut]
    by_cases same : key ownLease = key e.lease
    · -- the event is about the own lease and is not passed on
      rw [if_pos same] at single
      rw [step_own sequential keying kept kindOf same]
      exact ih kept inv rest (along.2 _ (by rw [watch, single]; rfl))
    · rw [if_neg same] at single
      obtain ⟨target, handled, invTarget⟩ :=
        keeps leases state e kept kindOf same inv (along.1 same)
      rw [step_singleton keying kept kindOf same, handled]
      exact ih (kept.tracked kindOf same) invTarget rest (along.2 _ (by rw [watch, single]; rfl))

theorem throughout_of_along (sequential : handle.Sequential) (keying : Keying kind key ownLease)
    (keeps : ∀ leases state e, Kept kind key ownLease leases → kind e.lease →
      key ownLease ≠ key e.lease → Inv leases state → Cond leases e →
      ∃ target, handle state [relayed key leases e] = some target ∧
        Inv (tracked key leases e) target)
    {state : σ} (inv : Inv [] state) {calls : List (List Event)}
    (kinds : ∀ events ∈ calls, ∀ e ∈ events, kind e.lease)
    (along : Along watch (fun lw e => key ownLease ≠ key e.lease → Cond lw.leases e)
      ⟨ownLease, []⟩ calls.flatten) :
    (∃ target, run (Follower.step handle) ⟨⟨ownLease, []⟩, state⟩ calls = some target) ∧
      Throughout (Follower.step handle) (fun follower => Inv follower.watcher.leases follower.state)
        ⟨⟨ownLease, []⟩, state⟩ calls := by
  have reaches : ∀ initial, initial <+: calls →
      ∃ leases' state', run (Follower.step handle) ⟨⟨ownLease, []⟩, state⟩ initial =
          some ⟨⟨ownLease, leases'⟩, state'⟩ ∧
        Inv leases' state' := by
    rintro initial ⟨more, rfl⟩
    rw [run_step sequential]
    rw [List.flatten_append] at along
    apply exists_step_of_along sequential keying keeps kept_nil inv _ along.of_append
    intro e mem
    obtain ⟨events, isCall, isEvent⟩ := List.mem_flatten.mp mem
    exact kinds events (List.mem_append_left more isCall) e isEvent
  constructor
  · obtain ⟨leases', state', reached, _⟩ := reaches calls List.prefix_rfl
    exact ⟨_, reached⟩
  · intro initial isInitial target reached
    obtain ⟨leases', state', reached', invTarget⟩ := reaches initial isInitial
    rw [reached'] at reached
    exact Option.some.inj reached ▸ invTarget

end Keying

end Flannel.Backend
