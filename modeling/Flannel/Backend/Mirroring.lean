import Flannel.Backend.Follower

/-!
# Backends that mirror the leases

A backend that installs what an announced lease stands for and takes off what a withdrawn one
stands for. Its state matches the leases as long as an announced lease shares nothing with the
lease of another subnet and replaces all that the lease of its own subnet had installed.
-/

namespace Flannel.Backend

open Leases Table Transition

variable {σ κ : Type} [DecidableEq κ] {kind : Lease → Prop} {key : Lease → κ} {ownLease : Lease}

/-- `Matches` relates the leases to the state, `Announces` singles out the leases that
are not ignored. -/
structure Mirroring (kind : Lease → Prop) (key : Lease → κ) (handle : Handler σ)
    (Matches : List Lease → σ → Prop) (Announces : Lease → Prop)
    (Compatible : Lease → Lease → Prop) : Prop where
  refl : ∀ lease, Compatible lease lease
  symm : ∀ {first second}, Compatible first second → Compatible second first
  added : ∀ {leases state lease}, (leases.map key).Nodup → kind lease → Announces lease →
    (∀ old ∈ leases, Compatible old lease) → Matches leases state →
    ∃ target, handle state [⟨.added, lease⟩] = some target ∧
      Matches (upsert key lease leases) target
  removed : ∀ {leases state lease}, (leases.map key).Nodup → kind lease → Announces lease →
    (∀ old ∈ leases, Compatible old lease) → Matches leases state →
    ∃ target, handle state [⟨.removed, lease⟩] = some target ∧
      Matches (erase key (key lease) leases) target
  ignored : ∀ {state lease}, kind lease → ¬ Announces lease →
    handle state [⟨.removed, lease⟩] = some state

/-- An announced lease is compatible with the leases present; so is a withdrawn one, unless it is
ignored or its stored lease is withdrawn. -/
def CleanFor (key : Lease → κ) (Announces : Lease → Prop) (Compatible : Lease → Lease → Prop)
    (leases : List Lease) (e : Event) : Prop :=
  (e.type = .added ∨ key e.lease ∉ leases.map key ∧ Announces e.lease) →
    ∀ old ∈ leases, Compatible old e.lease

instance (key : Lease → κ) (Announces : Lease → Prop) (Compatible : Lease → Lease → Prop)
    [DecidablePred Announces] [DecidableRel Compatible] (leases : List Lease) (e : Event) :
    Decidable (CleanFor key Announces Compatible leases e) :=
  inferInstanceAs (Decidable (_ → _))

namespace Mirroring

variable {handle : Handler σ} {Matches : List Lease → σ → Prop} {Announces : Lease → Prop}
  {Compatible : Lease → Lease → Prop}
  (mirroring : Mirroring kind key handle Matches Announces Compatible)

structure Following (Matches : List Lease → σ → Prop) (Announces : Lease → Prop)
    (Compatible : Lease → Lease → Prop) (leases : List Lease) (state : σ) : Prop where
  tracks : Matches leases state
  announced : ∀ l ∈ leases, Announces l
  compatible : ∀ first ∈ leases, ∀ second ∈ leases, Compatible first second

include mirroring

theorem compatible_upsert {leases : List Lease} {lease : Lease}
    (compatible : ∀ first ∈ leases, ∀ second ∈ leases, Compatible first second)
    (clean : ∀ old ∈ leases, Compatible old lease) :
    ∀ first ∈ upsert key lease leases, ∀ second ∈ upsert key lease leases,
      Compatible first second := by
  intro first memFirst second memSecond
  rcases mem_upsert memFirst with rfl | oldFirst
  · rcases mem_upsert memSecond with rfl | oldSecond
    · exact mirroring.refl _
    · exact mirroring.symm (clean second oldSecond)
  · rcases mem_upsert memSecond with rfl | oldSecond
    · exact clean first oldFirst
    · exact compatible first oldFirst second oldSecond

theorem following_removed {leases : List Lease} {state : σ} {lease : Lease}
    (following : Following Matches Announces Compatible leases state)
    (distinct : (leases.map key).Nodup) (kindOf : kind lease) (announces : Announces lease)
    (clean : ∀ old ∈ leases, Compatible old lease) :
    ∃ target, handle state [⟨.removed, lease⟩] = some target ∧
      Following Matches Announces Compatible (erase key (key lease) leases) target := by
  obtain ⟨target, handled, tracks⟩ :=
    mirroring.removed distinct kindOf announces clean following.tracks
  have remains := fun l (mem : l ∈ erase key (key lease) leases) =>
    (erase_sublist _ _).subset mem
  refine ⟨target, handled, tracks, ?_, ?_⟩
  · exact fun l mem => following.announced l (remains l mem)
  · exact fun first mem second mem' =>
      following.compatible first (remains first mem) second (remains second mem')

theorem following_event {leases : List Lease} {state : σ} {e : Event}
    (following : Following Matches Announces Compatible leases state)
    (kept : Kept kind key ownLease leases) (kindOf : kind e.lease)
    (valid : e.type = .added → Announces e.lease)
    (clean : CleanFor key Announces Compatible leases e) :
    ∃ target, handle state [relayed key leases e] = some target ∧
      Following Matches Announces Compatible (tracked key leases e) target := by
  rcases e with ⟨_ | _, lease⟩
  · obtain ⟨target, handled, tracks⟩ :=
      mirroring.added kept.distinct kindOf (valid rfl) (clean (.inl rfl)) following.tracks
    refine ⟨target, handled, tracks, ?_, ?_⟩
    · intro l mem
      rcases mem_upsert mem with rfl | old
      · exact valid rfl
      · exact following.announced l old
    · exact mirroring.compatible_upsert following.compatible (clean (.inl rfl))
  · cases found : lookup key leases (key lease) with
    | some stored =>
      -- the stored lease is withdrawn in place of the one of the event
      have mem := mem_of_lookup found
      have follows := mirroring.following_removed following kept.distinct
        (kept.kinds stored mem) (following.announced stored mem)
        fun old mem' => following.compatible old mem' stored mem
      rw [key_of_lookup found] at follows
      simpa only [relayed, tracked, found, Option.getD_some] using follows
    | none =>
      simp only [relayed, tracked, found, Option.getD_none]
      by_cases announces : Announces lease
      · exact mirroring.following_removed following kept.distinct kindOf announces
          (clean (.inr ⟨(lookup_eq_none_iff _ _).mp found, announces⟩))
      · rw [erase_of_lookup_eq_none found]
        exact ⟨state, mirroring.ignored kindOf announces, following⟩

theorem throughout (sequential : handle.Sequential) (keying : Keying kind key ownLease) {state : σ}
    (start : Matches [] state) {calls : List (List Event)}
    (kinds : ∀ events ∈ calls, ∀ e ∈ events, kind e.lease)
    (valid : ∀ events ∈ calls, ∀ e ∈ events, e.type = .added → Announces e.lease)
    (clean : Along watch (fun lw e => key ownLease ≠ key e.lease →
      CleanFor key Announces Compatible lw.leases e) ⟨ownLease, []⟩ calls.flatten) :
    (∃ target, run (Follower.step handle) ⟨⟨ownLease, []⟩, state⟩ calls = some target) ∧
      Throughout (Follower.step handle)
        (fun follower => Matches follower.watcher.leases follower.state)
        ⟨⟨ownLease, []⟩, state⟩ calls := by
  have announced : Along watch (fun _ e => e.type = .added → Announces e.lease)
      ⟨ownLease, []⟩ calls.flatten := by
    apply along_of_forall_mem
    intro e mem
    obtain ⟨events, isCall, isEvent⟩ := List.mem_flatten.mp mem
    exact valid events isCall e isEvent
  have follows := throughout_of_along sequential keying
    (fun leases state e kept kindOf _ following
      (cond : CleanFor key Announces Compatible leases e ∧ (e.type = .added → Announces e.lease)) =>
      mirroring.following_event following kept kindOf cond.2 cond.1)
    ⟨start, by simp, by simp⟩ kinds
    ((clean.and announced).mono fun lw e both differ => ⟨both.1 differ, both.2⟩)
  exact ⟨follows.1, fun initial isInitial target reached =>
    (follows.2 initial isInitial target reached).tracks⟩

end Mirroring

end Flannel.Backend
