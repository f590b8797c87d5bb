import Flannel.Transition.Core
import Mathlib.Data.List.Nodup

/-!
# A bounded channel with overflow senders

An item that finds the buffer full is handed to a sender of its own, which retries; the number of
senders is limited, and the producer waits for a slot. Cancelling drops waiting items.

Senders compete, so items overtake one another, but not items of one key if the producer puts in
an item only while no sender holds another one of its key.
-/

namespace Flannel.Channel

universe u v

structure Overflow (α : Type u) where
  queue : List α
  senders : List α
  blocked : Option α
  received : List α
  enqueued : List α
  cancelled : Bool

inductive Move
  | acquire
  | abandon
  | send (index : Nat)
  | giveUp (index : Nat)
  | receive
  | cancel
  deriving DecidableEq

namespace Overflow

variable {α : Type u}

def initial : Overflow α :=
  ⟨[], [], none, [], [], false⟩

def enqueue (capacity : Nat) (channel : Overflow α) (item : α) : Option (Overflow α) :=
  match channel.blocked with
  | some _ => none
  | none =>
    if channel.queue.length < capacity then
      some { channel with
        queue := channel.queue ++ [item]
        enqueued := channel.enqueued ++ [item] }
    else
      some { channel with
        blocked := some item
        enqueued := channel.enqueued ++ [item] }

def move (capacity slots : Nat) (channel : Overflow α) : Move → Option (Overflow α)
  | .acquire =>
    match channel.blocked with
    | some item =>
      if channel.senders.length < slots then
        some { channel with senders := channel.senders ++ [item], blocked := none }
      else none
    | none => none
  | .abandon =>
    if channel.cancelled then some { channel with blocked := none } else none
  | .send index =>
    match channel.senders[index]? with
    | some item =>
      if channel.queue.length < capacity then
        some { channel with
          queue := channel.queue ++ [item]
          senders := channel.senders.eraseIdx index }
      else none
    | none => none
  | .giveUp index =>
    if channel.cancelled then
      some { channel with senders := channel.senders.eraseIdx index }
    else none
  | .receive =>
    match channel.queue with
    | item :: queue =>
      some { channel with queue := queue, received := channel.received ++ [item] }
    | [] => none
  | .cancel => some { channel with cancelled := true }

def outstanding (channel : Overflow α) : List α :=
  channel.queue ++ channel.senders ++ channel.blocked.toList

variable {κ : Type v} [DecidableEq κ]

def ofKey (key : α → κ) (k : κ) (items : List α) : List α :=
  items.filter fun item => key item = k

@[simp]
theorem ofKey_nil (key : α → κ) (k : κ) : ofKey key k ([] : List α) = [] :=
  rfl

@[simp]
theorem ofKey_append (key : α → κ) (k : κ) (first second : List α) :
    ofKey key k (first ++ second) = ofKey key k first ++ ofKey key k second :=
  List.filter_append _ _

theorem ofKey_eq_nil {key : α → κ} {k : κ} {items : List α} (others : ∀ item ∈ items, key item ≠ k) :
    ofKey key k items = [] := by
  rw [ofKey, List.filter_eq_nil_iff]
  intro item mem
  simpa using others item mem

/-- The items of a key are received in the order they were put in, and once none
is outstanding the last one received is the last one put in. -/
def InOrder (key : α → κ) (channel : Overflow α) (k : κ) : Prop :=
  (ofKey key k channel.received).Sublist (ofKey key k channel.enqueued) ∧
    (channel.cancelled = false → (∀ item ∈ channel.outstanding, key item ≠ k) →
      (ofKey key k channel.received).getLast? = (ofKey key k channel.enqueued).getLast?)

/-- No two waiting items have the same key, and received, queued and waiting items
of a key are in the order they were put in; none is missing before cancellation. -/
structure Orderly (key : α → κ) (channel : Overflow α) : Prop where
  distinct : ((channel.senders ++ channel.blocked.toList).map key).Nodup
  order : ∀ k, (ofKey key k (channel.received ++ channel.outstanding)).Sublist
    (ofKey key k channel.enqueued)
  complete : channel.cancelled = false →
    ∀ k, ofKey key k (channel.received ++ channel.outstanding) = ofKey key k channel.enqueued

variable {key : α → κ} {channel target : Overflow α}

theorem orderly_initial : (initial : Overflow α).Orderly key :=
  ⟨List.nodup_nil, fun _ => List.Sublist.refl _, fun _ _ => rfl⟩

theorem Orderly.inOrder (orderly : channel.Orderly key) (k : κ) : channel.InOrder key k := by
  constructor
  · refine List.Sublist.trans ?_ (orderly.order k)
    rw [ofKey_append]
    exact List.sublist_append_left _ _
  · intro running none
    rw [← orderly.complete running k, ofKey_append, ofKey_eq_nil none, List.append_nil]

theorem Orderly.grow (orderly : channel.Orderly key) (items : List α)
    (distinct : ((target.senders ++ target.blocked.toList).map key).Nodup)
    (enqueued : target.enqueued = channel.enqueued ++ items)
    (cancelled : target.cancelled = false → channel.cancelled = false)
    (contents : ∀ k, ofKey key k (target.received ++ target.outstanding) =
      ofKey key k (channel.received ++ channel.outstanding) ++ ofKey key k items) :
    target.Orderly key := by
  refine ⟨distinct, fun k => ?_, fun running k => ?_⟩
  · rw [contents, enqueued, ofKey_append key k channel.enqueued]
    exact (orderly.order k).append_right _
  · rw [contents, orderly.complete (cancelled running), enqueued, ofKey_append]

theorem Orderly.shrink (orderly : channel.Orderly key) {senders : List α} {blocked : Option α}
    (cancelled : channel.cancelled) (fewer : senders.Sublist channel.senders)
    (fewer' : blocked.toList.Sublist channel.blocked.toList) :
    ({ channel with senders := senders, blocked := blocked } : Overflow α).Orderly key := by
  have waiting := fewer.append fewer'
  refine ⟨orderly.distinct.sublist (waiting.map key), fun k => ?_, fun running => ?_⟩
  · refine List.Sublist.trans (List.Sublist.filter _ ?_) (orderly.order k)
    rw [outstanding, outstanding, List.append_assoc, List.append_assoc]
    exact (waiting.append_left _).append_left _
  · rw [cancelled] at running
    contradiction

theorem Orderly.enqueue (orderly : channel.Orderly key) {capacity : Nat} {item : α}
    (clear : ∀ other ∈ channel.senders, key other ≠ key item)
    (taken : channel.enqueue capacity item = some target) : target.Orderly key := by
  unfold Overflow.enqueue at taken
  split at taken
  · contradiction
  · rename_i idle
    have distinct := orderly.distinct
    rw [idle] at distinct
    split_ifs at taken <;> cases taken
    · refine orderly.grow [item] ?_ rfl id fun k => ?_
      · rw [idle]
        exact distinct
      · simp only [outstanding, idle, Option.toList_none, List.append_nil, ofKey_append,
          List.append_assoc]
        by_cases same : key item = k
        · have none : ofKey key k channel.senders = [] :=
            ofKey_eq_nil fun other mem => same ▸ clear other mem
          simp [none]
        · have none : ofKey key k [item] = [] := by simp [ofKey, same]
          simp [none]
    · refine orderly.grow [item] ?_ rfl id fun k => ?_
      · simp only [Option.toList_none, List.append_nil] at distinct
        rw [Option.toList_some, List.map_append, List.nodup_append]
        refine ⟨distinct, List.nodup_singleton _, ?_⟩
        rintro _ mem _ memSingle rfl
        obtain ⟨other, memOther, equal⟩ := List.mem_map.mp mem
        exact clear other memOther (equal.trans (List.mem_singleton.mp memSingle))
      · simp [outstanding, idle]

theorem Orderly.send (orderly : channel.Orderly key) {index : Nat} {item : α}
    (found : channel.senders[index]? = some item) :
    ({ channel with
      queue := channel.queue ++ [item]
      senders := channel.senders.eraseIdx index } : Overflow α).Orderly key := by
  obtain ⟨inside, rfl⟩ := List.getElem?_eq_some_iff.mp found
  have erased := List.eraseIdx_eq_take_drop_succ channel.senders index
  have split : channel.senders =
      channel.senders.take index ++ channel.senders[index] :: channel.senders.drop (index + 1) := by
    rw [← List.drop_eq_getElem_cons inside, List.take_append_drop]
  generalize channel.senders[index] = item at found split
  generalize channel.senders.take index = before at erased split
  generalize channel.senders.drop (index + 1) = after at erased split
  have distinct := orderly.distinct
  rw [split] at distinct
  refine orderly.grow [] ?_ (List.append_nil _).symm id fun k => ?_
  · rw [erased]
    refine distinct.sublist (List.Sublist.map key (List.Sublist.append_right ?_ _))
    exact (List.sublist_cons_self _ _).append_left _
  · simp only [outstanding, erased]
    simp only [split, ofKey_append, ofKey_nil, List.append_nil, List.append_assoc]
    by_cases same : key item = k
    · have none : ofKey key k before = [] := by
        apply ofKey_eq_nil
        intro other mem equal
        rw [List.append_assoc, List.map_append, List.nodup_append] at distinct
        exact distinct.2.2 _ (List.mem_map_of_mem mem) (key item) (by simp) (equal.trans same.symm)
      have first : ofKey key k (item :: after) = ofKey key k [item] ++ ofKey key k after := by
        simp [ofKey, same]
      rw [none, first, List.nil_append, List.nil_append, List.append_assoc]
    · have none : ofKey key k [item] = [] := by simp [ofKey, same]
      have skip : ofKey key k (item :: after) = ofKey key k after := by simp [ofKey, same]
      rw [none, skip, List.nil_append]

theorem Orderly.move (orderly : channel.Orderly key) {capacity slots : Nat} {move : Move}
    (taken : channel.move capacity slots move = some target) : target.Orderly key := by
  cases move with
  | acquire =>
    simp only [Overflow.move] at taken
    split at taken
    · rename_i item blocked
      split_ifs at taken
      cases taken
      have distinct := orderly.distinct
      rw [blocked] at distinct
      refine orderly.grow [] ?_ (List.append_nil _).symm id fun k => ?_
      · simpa using distinct
      · simp [outstanding, blocked]
    · contradiction
  | abandon =>
    obtain ⟨cancelled, taken⟩ := Option.ite_none_right_eq_some.mp taken
    cases taken
    exact orderly.shrink cancelled (List.Sublist.refl _) (List.nil_sublist _)
  | send index =>
    simp only [Overflow.move] at taken
    split at taken
    · rename_i item found
      split_ifs at taken
      cases taken
      exact orderly.send found
    · contradiction
  | giveUp index =>
    obtain ⟨cancelled, taken⟩ := Option.ite_none_right_eq_some.mp taken
    cases taken
    exact orderly.shrink cancelled (List.eraseIdx_sublist _ _) (List.Sublist.refl _)
  | receive =>
    simp only [Overflow.move] at taken
    split at taken
    · rename_i item queue found
      cases taken
      refine orderly.grow [] orderly.distinct (List.append_nil _).symm id fun k => ?_
      simp [outstanding, found]
    · contradiction
  | cancel =>
    cases taken
    refine ⟨orderly.distinct, orderly.order, fun running => ?_⟩
    contradiction

end Overflow

end Flannel.Channel
