import Flannel.KeyValue.Store

/-!
# Histories of a store

The writes that led to a store, each with its revision; the writes of a transaction share one. A
follower who has seen the writes up to one revision reaches a later one by the window between
them.
-/

namespace Flannel.KeyValue

open Table

universe u v

inductive Write (κ : Type u) (ν : Type v)
  | put (k : κ) (value : ν)
  | delete (k : κ)
  deriving DecidableEq

def Write.key {κ : Type u} {ν : Type v} : Write κ ν → κ
  | .put k _ => k
  | .delete k => k

structure Entry (κ : Type u) (ν : Type v) where
  revision : Nat
  write : Write κ ν
  deriving DecidableEq

structure History (κ : Type u) (ν : Type v) where
  entries : List (Entry κ ν)
  revision : Nat
  ordered : entries.Pairwise fun earlier later => earlier.revision ≤ later.revision
  bounded : ∀ entry ∈ entries, entry.revision ≤ revision

variable {κ : Type u} {ν : Type v}

namespace History

def empty : History κ ν :=
  ⟨[], 0, List.Pairwise.nil, nofun⟩

def commit (history : History κ ν) (writes : List (Write κ ν)) : History κ ν where
  entries := history.entries ++ writes.map (⟨history.revision + 1, ·⟩)
  revision := history.revision + 1
  ordered := by
    rw [List.pairwise_append]
    refine ⟨history.ordered, ?_, ?_⟩
    · rw [List.pairwise_map]
      exact List.pairwise_of_forall fun _ _ => Nat.le_refl _
    · intro entry mem _ memNew
      obtain ⟨write, _, rfl⟩ := List.mem_map.mp memNew
      exact Nat.le_succ_of_le (history.bounded entry mem)
  bounded := by
    intro entry mem
    rcases List.mem_append.mp mem with mem | memNew
    · exact Nat.le_succ_of_le (history.bounded entry mem)
    · obtain ⟨write, _, rfl⟩ := List.mem_map.mp memNew
      exact Nat.le_refl _

def upTo (history : History κ ν) (revision : Nat) : List (Entry κ ν) :=
  history.entries.filter fun entry => entry.revision ≤ revision

/-- The writes from the revision `first` up to the revision `last`. -/
def window (history : History κ ν) (first last : Nat) : List (Entry κ ν) :=
  history.entries.filter fun entry => first ≤ entry.revision && entry.revision ≤ last

variable {history : History κ ν}

theorem upTo_sublist (history : History κ ν) (revision : Nat) :
    (history.upTo revision).Sublist history.entries :=
  List.filter_sublist

theorem upTo_revision (history : History κ ν) : history.upTo history.revision = history.entries :=
  List.filter_eq_self.mpr fun entry mem => decide_eq_true (history.bounded entry mem)

theorem upTo_commit {revision : Nat} (past : revision ≤ history.revision)
    (writes : List (Write κ ν)) :
    (history.commit writes).upTo revision = history.upTo revision := by
  have later : (writes.map (Entry.mk (history.revision + 1))).filter
      (fun entry => entry.revision ≤ revision) = [] := by
    rw [List.filter_eq_nil_iff]
    intro entry mem
    obtain ⟨write, _, rfl⟩ := List.mem_map.mp mem
    simpa using Nat.lt_succ_of_le past
  rw [upTo, commit, List.filter_append, later, List.append_nil, upTo]

theorem filter_append_filter {entries : List (Entry κ ν)}
    (ordered : entries.Pairwise fun earlier later => earlier.revision ≤ later.revision)
    {middle last : Nat} (reaches : middle ≤ last) :
    entries.filter (fun entry => entry.revision ≤ middle) ++
        entries.filter (fun entry => middle + 1 ≤ entry.revision && entry.revision ≤ last) =
      entries.filter fun entry => entry.revision ≤ last := by
  induction entries with
  | nil => rfl
  | cons entry entries ih =>
    rw [List.pairwise_cons] at ordered
    have rest := ih ordered.2
    by_cases early : entry.revision ≤ middle
    · have inWindow : ¬ middle + 1 ≤ entry.revision := Nat.not_le.mpr (Nat.lt_succ_of_le early)
      simp only [List.filter_cons, early, Nat.le_trans early reaches, inWindow, decide_true, decide_false,
        Bool.false_and, if_true, Bool.false_eq_true, if_false, List.cons_append, rest]
    · -- all later entries are beyond `middle` too, so the first part is empty
      have none : entries.filter (fun entry => entry.revision ≤ middle) = [] := by
        rw [List.filter_eq_nil_iff]
        intro later mem
        have order := ordered.1 later mem
        simp only [decide_eq_true_eq]
        omega
      rw [none, List.nil_append] at rest
      have inWindow : middle + 1 ≤ entry.revision := Nat.lt_of_not_le early
      simp only [List.filter_cons, early, inWindow, decide_true, decide_false, Bool.true_and,
        Bool.false_eq_true, if_false, none, List.nil_append, rest]

theorem upTo_append_window (history : History κ ν) {middle last : Nat} (reaches : middle ≤ last) :
    history.upTo middle ++ history.window (middle + 1) last = history.upTo last :=
  filter_append_filter history.ordered reaches

theorem window_eq_nil {first last : Nat} (crossed : last < first) : history.window first last = [] := by
  rw [window, List.filter_eq_nil_iff]
  intro entry _
  simp only [Bool.and_eq_true, decide_eq_true_eq, not_and]
  omega

end History

/-! ## The store of a history -/

variable [DecidableEq κ]

def Store.apply (store : Store κ ν) (entry : Entry κ ν) : Store κ ν :=
  match entry.write with
  | .put k value =>
    ⟨upsert Row.key ⟨k, value, entry.revision⟩ store.rows, entry.revision,
      store.distinct_upsert _⟩
  | .delete k => ⟨erase Row.key k store.rows, entry.revision, store.distinct_erase k⟩

def Store.replay (entries : List (Entry κ ν)) : Store κ ν :=
  entries.foldl Store.apply Store.empty

theorem Store.get?_apply (store : Store κ ν) (entry : Entry κ ν) (k : κ) :
    (store.apply entry).get? k =
      if k = entry.write.key then
        match entry.write with
        | .put k value => some ⟨k, value, entry.revision⟩
        | .delete _ => none
      else store.get? k := by
  rcases entry with ⟨revision, write⟩
  cases write with
  | put written value => exact lookup_upsert _ _ _
  | delete written => exact lookup_erase store.distinct written k

theorem Store.replay_append_singleton (entries : List (Entry κ ν)) (entry : Entry κ ν) :
    Store.replay (entries ++ [entry]) = (Store.replay entries).apply entry := by
  rw [Store.replay, List.foldl_append]
  rfl

theorem Store.exists_entry_of_get?_replay {entries : List (Entry κ ν)} {k : κ} {row : Row κ ν}
    (found : (Store.replay entries).get? k = some row) :
    ∃ entry ∈ entries, entry.write = .put k row.value := by
  induction entries using List.reverseRecOn with
  | nil => contradiction
  | append_singleton entries entry ih =>
    rw [Store.replay_append_singleton, Store.get?_apply] at found
    split_ifs at found with here
    · refine ⟨entry, List.mem_append_right entries (.head _), ?_⟩
      rcases entry with ⟨revision, write⟩
      cases write with
      | put written value =>
        cases found
        exact congrArg (Write.put · value) here.symm
      | delete written => contradiction
    · obtain ⟨earlier, mem, written⟩ := ih found
      exact ⟨earlier, List.mem_append_left _ mem, written⟩

def History.storeAt (history : History κ ν) (revision : Nat) : Store κ ν :=
  { Store.replay (history.upTo revision) with revision := revision }

end Flannel.KeyValue
