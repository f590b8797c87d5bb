import Flannel.Etcd.Watch
import Flannel.KeyValue.History

/-!
# Resuming the watch of leases

`LocalManager.WatchLeases` sends a snapshot and then follows the store with `watchSubnets`, which
reopens its watch after a disconnection and lists the leases again after a compaction. A receiver
that folds what is sent holds the leases of the revision last processed, as long as different keys
are about different subnets.
-/

namespace Flannel.Etcd

open Ip Leases KeyValue Table Transition

def leasesWatchReset (root : String) (etcd : EtcdStore) (get : Except Error Unit)
    (timeToLive : TimeToLive) : Except Error LeaseWatchResult :=
  match getSubnets root etcd get timeToLive with
  | .error _ => .error .request
  | .ok (leases, index) => .ok ⟨[], leases, some index⟩

def getNextIndex (cursor : Option Int) : Option Int :=
  cursor.map (· + 1)

/-- Where `WatchLeases` stands. -/
inductive WatchPhase
  | starting
  /-- At the head of the outer loop of `watchSubnets`. -/
  | connecting
  /-- In the inner loop, on a watch that delivers the events from `next` on. -/
  | receiving (next : Nat)
  /-- In the inner loop, on a watch below the compaction revision. -/
  | rejected
  /-- In the loop around `resyncWatch`. -/
  | relisting
  | returned
  deriving DecidableEq

/-- The store with its history, and `WatchLeases` with what it has sent. The
revision last processed is that of the last snapshot or response. -/
structure Watching where
  history : History String Record
  compacted : Nat
  phase : WatchPhase
  since : Int
  sent : List LeaseWatchResult
  processed : Nat

inductive WatchLabel
  | commit (writes : List (Write String Record))
  | compact (revision : Nat)
  /-- The answers to a call of `leasesWatchReset`. -/
  | list (get : Except Error Unit) (timeToLive : TimeToLive)
  /-- A call of `cli.Watch`, which may return no channel. -/
  | connect (established : Bool)
  /-- A response, with the answers to the requests its events lead to. -/
  | receive (revision : Nat) (answers : Entry String Record → Answers)
  /-- The watch ends, because of compaction or otherwise. -/
  | fail (isCompacted : Bool)
  | cancel

def etcdEvent (entry : Entry String Record) : EtcdEvent :=
  match entry.write with
  | .put key record => ⟨.put, ⟨key, record, entry.revision⟩⟩
  | .delete key => ⟨.delete, ⟨key, ⟨none, 0⟩, entry.revision⟩⟩

def isWatched (root : String) (entry : Entry String Record) : Bool :=
  isBelow (subnetsDir root) entry.write.key

namespace Watching

def initial : Watching :=
  ⟨History.empty, 0, .starting, 0, [], 0⟩

def etcd (watching : Watching) : EtcdStore :=
  watching.history.storeAt watching.history.revision

def reported (root : String) (watching : Watching) (next revision : Nat) :
    List (Entry String Record) :=
  (watching.history.window next revision).filter (isWatched root)

def response (root : String) (watching : Watching) (next revision : Nat)
    (answers : Entry String Record → Answers) : WatchResponse :=
  ⟨revision, (watching.reported root next revision).map fun entry =>
    (etcdEvent entry, answers entry)⟩

/-- List the leases, send them and resume after them; where `WatchLeases` goes on
if that fails depends on the caller. -/
def resync (root : String) (watching : Watching) (get : Except Error Unit)
    (timeToLive : TimeToLive) (onError : WatchPhase) : Watching :=
  match leasesWatchReset root watching.etcd get timeToLive with
  | .error _ => { watching with phase := onError }
  | .ok wr =>
    match getNextIndex wr.cursor with
    | none => { watching with phase := onError, sent := watching.sent ++ [wr] }
    | some next =>
      { watching with
        phase := .connecting
        since := next
        sent := watching.sent ++ [wr]
        processed := watching.history.revision }

def handle (root : String) (watching : Watching) (next revision : Nat)
    (answers : Entry String Record → Answers) : Watching :=
  { watching with
    phase := .receiving (max next (revision + 1))
    since := if revision ≠ 0 then revision + 1 else watching.since
    sent := watching.sent ++ (watching.response root next revision answers).results
    processed := if revision ≠ 0 then revision else watching.processed }

def step (root : String) : Step Watching WatchLabel
  | watching, .commit writes => some { watching with history := watching.history.commit writes }
  | watching, .compact revision =>
    if watching.compacted ≤ revision ∧ revision ≤ watching.history.revision then
      some { watching with compacted := revision }
    else none
  | watching, .list get timeToLive =>
    match watching.phase with
    | .starting => some (watching.resync root get timeToLive .returned)
    | .relisting => some (watching.resync root get timeToLive .relisting)
    | _ => none
  | watching, .connect established =>
    match watching.phase, established with
    | .connecting, false => some watching
    | .connecting, true =>
      if watching.since < watching.compacted then some { watching with phase := .rejected }
      else some { watching with phase := .receiving watching.since.toNat }
    | _, _ => none
  | watching, .receive revision answers =>
    match watching.phase with
    | .receiving next =>
      -- a response tells of the writes up to its revision, unless it carries none
      if (revision = 0 ∨ next ≤ revision + 1) ∧ revision ≤ watching.history.revision then
        some (watching.handle root next revision answers)
      else none
    | _ => none
  | watching, .fail isCompacted =>
    match watching.phase, isCompacted with
    | .receiving next, true =>
      if next < watching.compacted then some { watching with phase := .relisting } else none
    | .rejected, true => some { watching with phase := .relisting }
    | .receiving _, false => some { watching with phase := .connecting }
    | .rejected, false => some { watching with phase := .connecting }
    | _, _ => none
  | watching, .cancel => some { watching with phase := .returned }

end Watching

/-! ## The receiver -/

def applyResult (table : SubnetKey → Option LeaseAttrs) (wr : LeaseWatchResult) :
    SubnetKey → Option LeaseAttrs :=
  if 0 < wr.events.length then replay table (wr.events.map Event.change) else attrsTable wr.snapshot

def folded (results : List LeaseWatchResult) : SubnetKey → Option LeaseAttrs :=
  results.foldl applyResult fun _ => none

def changes (results : List LeaseWatchResult) : List (Change SubnetKey LeaseAttrs) :=
  results.flatMap fun wr => wr.events.map Event.change

def leaseSet (root : String) (etcd : EtcdStore) : Set (SubnetKey × LeaseAttrs) :=
  {lease | ∃ key row, etcd.get? key = some row ∧ isBelow (subnetsDir root) key = true ∧
    subnetOf key = some lease.1 ∧ row.value.value = some lease.2}

def Represents (root : String) (table : SubnetKey → Option LeaseAttrs) (etcd : EtcdStore) : Prop :=
  ∀ k attrs, table k = some attrs ↔ (k, attrs) ∈ leaseSet root etcd

def change (entry : Entry String Record) : Option (Change SubnetKey LeaseAttrs) :=
  match entry.write with
  | .put key record => (subnetOf key).bind fun k => record.value.map (.set k)
  | .delete key => (subnetOf key).map .unset

/-- Keys that decode, different ones to different subnets. -/
structure Legible (Keys : String → Prop) : Prop where
  decodes : ∀ key, Keys key → ∃ k, subnetOf key = some k
  injective : ∀ key key', Keys key → Keys key' → subnetOf key = subnetOf key' → key = key'

def Decodes (root : String) (Keys : String → Prop) (write : Write String Record) : Prop :=
  isBelow (subnetsDir root) write.key = true →
    Keys write.key ∧ ∀ key record, write = .put key record → ∃ attrs, record.value = some attrs

/-- What is assumed of the store: keys and values decode, the time to live can be
read, and a read of a directory does not miss a key. -/
def Assumed (root : String) (Keys : String → Prop) : WatchLabel → Prop
  | .commit writes => ∀ write ∈ writes, Decodes root Keys write
  | .list get timeToLive =>
    get ≠ .error .grpcKeyNotFound ∧ ∀ kv, ∃ answer, timeToLive kv = some answer
  | .receive _ answers => ∀ entry, ∃ ttl, (answers entry).timeToLive = .ok ttl
  | _ => True

variable {root : String} {Keys : String → Prop}

/-! ## Results -/

variable {entry : Entry String Record} {entries : List (Entry String Record)}
  {table : SubnetKey → Option LeaseAttrs} {etcd : EtcdStore}

theorem watchResult_etcdEvent (legible : Legible Keys) (decodes : Decodes root Keys entry.write)
    (below : isWatched root entry) {answers : Answers} {ttl : Int}
    (readable : answers.timeToLive = .ok ttl) (revision : Int) :
    ∃ event, watchResult revision answers (etcdEvent entry) = ⟨[event], [], some revision⟩ ∧
      change entry = some event.change := by
  obtain ⟨isKey, valued⟩ := decodes below
  obtain ⟨k, about⟩ := legible.decodes _ isKey
  rcases entry with ⟨entryRevision, write⟩
  obtain ⟨⟨sn, sn6⟩, subnets, rfl⟩ := Option.map_eq_some_iff.mp about
  cases write with
  | put key record =>
    obtain ⟨attrs, value⟩ := valued key record rfl
    rcases record with ⟨_, id⟩
    obtain rfl : _ = some attrs := value
    have subnets : keySubnets key = some (sn, sn6) := subnets
    refine ⟨⟨.added, ⟨true, !sn6.empty, sn, sn6, attrs, answers.now + ttl * second, 0⟩⟩, ?_, ?_⟩
    · simp only [watchResult, parseSubnetWatchResponse, etcdEvent, subnets, readable]
    · simp only [change, subnetOf, subnets]
      cases isEmpty : sn6.empty <;> simp [Event.change, Lease.key, isEmpty]
  | delete key =>
    have subnets : keySubnets key = some (sn, sn6) := subnets
    refine ⟨⟨.removed, ⟨true, !sn6.empty, sn, sn6, .zero, 0, 0⟩⟩, ?_, ?_⟩
    · simp only [watchResult, parseSubnetWatchResponse, etcdEvent, subnets]
    · simp only [change, subnetOf, subnets]
      cases isEmpty : sn6.empty <;> simp [Event.change, Lease.key, isEmpty]

theorem folded_append_singleton (results : List LeaseWatchResult) (wr : LeaseWatchResult) :
    folded (results ++ [wr]) = applyResult (folded results) wr := by
  rw [folded, List.foldl_append]
  rfl

theorem changes_append (first second : List LeaseWatchResult) :
    changes (first ++ second) = changes first ++ changes second :=
  List.flatMap_append

theorem folded_append_results (legible : Legible Keys)
    (decode : ∀ entry ∈ entries, Decodes root Keys entry.write ∧ isWatched root entry)
    {answers : Entry String Record → Answers}
    (readable : ∀ entry, ∃ ttl, (answers entry).timeToLive = .ok ttl) (revision : Int)
    (sent : List LeaseWatchResult) :
    folded (sent ++ entries.map fun entry => watchResult revision (answers entry) (etcdEvent entry)) =
        replay (folded sent) (entries.filterMap change) ∧
      changes (entries.map fun entry => watchResult revision (answers entry) (etcdEvent entry)) =
        entries.filterMap change := by
  induction entries generalizing sent with
  | nil => exact ⟨by simp, rfl⟩
  | cons entry entries ih =>
    obtain ⟨here, below⟩ := decode entry (.head _)
    obtain ⟨ttl, answered⟩ := readable entry
    obtain ⟨event, result, means⟩ := watchResult_etcdEvent legible here below answered revision
    obtain ⟨folds, sends⟩ := ih (fun later mem => decode later (.tail _ mem))
      (sent ++ [⟨[event], [], some revision⟩])
    rw [List.map_cons, result, List.filterMap_cons_some means]
    constructor
    · rw [← List.singleton_append, ← List.append_assoc, folds, folded_append_singleton]
      rfl
    · rw [changes] at sends
      rw [changes, List.flatMap_cons, sends]
      rfl

/-! ## The receiver follows the store -/

theorem Represents.apply_of_not_below (represents : Represents root table etcd)
    (elsewhere : ¬ isWatched root entry) :
    Represents root table (etcd.apply entry) := by
  intro k attrs
  rw [represents k attrs]
  have unchanged : ∀ key, isBelow (subnetsDir root) key →
      (etcd.apply entry).get? key = etcd.get? key := by
    intro key below
    rw [Store.get?_apply, if_neg]
    rintro rfl
    exact elsewhere below
  constructor
  · rintro ⟨key, row, stored, below, lease⟩
    exact ⟨key, row, (unchanged key below).trans stored, below, lease⟩
  · rintro ⟨key, row, stored, below, lease⟩
    exact ⟨key, row, (unchanged key below).symm.trans stored, below, lease⟩

def attrsOf : Write String Record → Option LeaseAttrs
  | .put _ record => record.value
  | .delete _ => none

theorem mem_leaseSet_apply {written : SubnetKey} (below : isWatched root entry)
    (about : subnetOf entry.write.key = some written)
    (only : ∀ key row, etcd.get? key = some row → isBelow (subnetsDir root) key →
      subnetOf key = some written → key = entry.write.key) (k : SubnetKey) (attrs : LeaseAttrs) :
    (k, attrs) ∈ leaseSet root (etcd.apply entry) ↔
      if k = written then attrsOf entry.write = some attrs else (k, attrs) ∈ leaseSet root etcd := by
  by_cases here : k = written
  · subst here
    rw [if_pos rfl]
    constructor
    · rintro ⟨key, row, stored, inside, same, value⟩
      rw [Store.get?_apply] at stored
      split_ifs at stored with isWritten
      · rcases entry with ⟨revision, _ | _⟩
        · cases stored
          exact value
        · contradiction
      · exact absurd (only key row stored inside same) isWritten
    · intro value
      rcases entry with ⟨revision, ⟨key, record⟩ | key⟩
      · refine ⟨key, ⟨key, record, revision⟩, ?_, below, about, value⟩
        exact (Store.get?_apply _ _ _).trans (if_pos rfl)
      · contradiction
  · rw [if_neg here]
    have unchanged : ∀ key, subnetOf key = some k → (etcd.apply entry).get? key = etcd.get? key := by
      intro key same
      rw [Store.get?_apply, if_neg]
      rintro rfl
      exact here (Option.some.inj (same.symm.trans about))
    constructor
    · rintro ⟨key, row, stored, inside, same, value⟩
      exact ⟨key, row, (unchanged key same).symm.trans stored, inside, same, value⟩
    · rintro ⟨key, row, stored, inside, same, value⟩
      exact ⟨key, row, (unchanged key same).trans stored, inside, same, value⟩

theorem exists_change (legible : Legible Keys) (decodes : Decodes root Keys entry.write)
    (below : isWatched root entry) :
    ∃ made written, change entry = some made ∧ subnetOf entry.write.key = some written ∧
      ∀ table, made.apply table = Function.update table written (attrsOf entry.write) := by
  obtain ⟨isKey, valued⟩ := decodes below
  obtain ⟨written, about⟩ := legible.decodes _ isKey
  rcases entry with ⟨revision, ⟨key, record⟩ | key⟩
  · obtain ⟨attrs, value⟩ := valued key record rfl
    have about : subnetOf key = some written := about
    refine ⟨.set written attrs, written, by simp [change, about, value], about, fun table => ?_⟩
    rw [attrsOf, value]
    rfl
  · have about : subnetOf key = some written := about
    exact ⟨.unset written, written, by simp [change, about], about, fun table => rfl⟩

theorem Represents.apply (legible : Legible Keys) (represents : Represents root table etcd)
    (keys : ∀ key row, etcd.get? key = some row → isBelow (subnetsDir root) key → Keys key)
    (decodes : Decodes root Keys entry.write) (below : isWatched root entry) :
    ∃ made, change entry = some made ∧ Represents root (made.apply table) (etcd.apply entry) := by
  obtain ⟨made, written, means, about, applied⟩ := exists_change legible decodes below
  refine ⟨made, means, fun k attrs => ?_⟩
  have only : ∀ key row, etcd.get? key = some row → isBelow (subnetsDir root) key →
      subnetOf key = some written → key = entry.write.key := by
    intro key row stored inside same
    exact legible.injective _ _ (keys key row stored inside) (decodes below).1
      (same.trans about.symm)
  rw [mem_leaseSet_apply below about only, applied, Function.update_apply]
  split_ifs
  · exact Iff.rfl
  · exact represents k attrs

theorem decodes_of_get?
    (decode : ∀ entry ∈ entries, Decodes root Keys entry.write) {key : String} {row : KV}
    (stored : (Store.replay entries).get? key = some row) (below : isBelow (subnetsDir root) key) :
    Keys key ∧ ∃ attrs, row.value.value = some attrs := by
  obtain ⟨entry, mem, written⟩ := Store.exists_entry_of_get?_replay stored
  have here := decode entry mem
  rw [written] at here
  obtain ⟨isKey, valued⟩ := here below
  exact ⟨isKey, valued key row.value rfl⟩

theorem Represents.replay (legible : Legible Keys) {past : List (Entry String Record)}
    (decode : ∀ entry ∈ past ++ entries, Decodes root Keys entry.write)
    (represents : Represents root table (Store.replay past)) :
    Represents root
      (Table.replay table ((entries.filter (isWatched root)).filterMap change))
      (Store.replay (past ++ entries)) := by
  induction entries generalizing table past with
  | nil => simpa using represents
  | cons entry entries ih =>
    rw [← List.singleton_append, ← List.append_assoc] at decode ⊢
    have here : Decodes root Keys entry.write := decode entry (by simp)
    have keys : ∀ key row, (Store.replay past).get? key = some row →
        isBelow (subnetsDir root) key → Keys key := by
      intro key row stored below
      refine (decodes_of_get? (fun entry mem => decode entry ?_) stored below).1
      exact List.mem_append_left _ (List.mem_append_left _ mem)
    by_cases below : isWatched root entry
    · obtain ⟨made, means, follows⟩ := represents.apply legible keys here below
      rw [← Store.replay_append_singleton] at follows
      rw [List.singleton_append, List.filter_cons_of_pos below, List.filterMap_cons_some means]
      exact ih decode follows
    · have follows := represents.apply_of_not_below below
      rw [← Store.replay_append_singleton] at follows
      rw [List.singleton_append, List.filter_cons_of_neg below]
      exact ih decode follows

theorem represents_listLeases (legible : Legible Keys)
    (decode : ∀ key row, etcd.get? key = some row → isBelow (subnetsDir root) key →
      Keys key ∧ ∃ attrs, row.value.value = some attrs)
    {timeToLive : TimeToLive} (readable : ∀ kv, ∃ answer, timeToLive kv = some answer) :
    Represents root (attrsTable (listLeases root etcd timeToLive)) etcd := by
  -- a listed lease is the one of its row
  have sound : ∀ lease ∈ listLeases root etcd timeToLive, ∃ kv : KV, etcd.get? kv.key = some kv ∧
      isBelow (subnetsDir root) kv.key ∧ subnetOf kv.key = some lease.key ∧
      kv.value.value = some lease.attrs := by
    intro lease mem
    obtain ⟨kv, stored, below, value, subnets, _, ipv6⟩ := exists_row_of_mem_listLeases mem
    refine ⟨kv, stored, below, ?_, value⟩
    simp only [subnetOf, subnets, Option.map_some, Lease.key, ipv6]
    cases lease.ipv6Subnet.empty <;> rfl
  intro k attrs
  constructor
  · intro tabled
    obtain ⟨lease, found, rfl⟩ := Option.map_eq_some_iff.mp tabled
    obtain ⟨kv, stored, below, about, value⟩ := sound lease (mem_of_lookup found)
    exact ⟨kv.key, kv, stored, below, about.trans (congrArg some (key_of_lookup found)), value⟩
  · rintro ⟨key, row, stored, below, about, value⟩
    obtain rfl : row.key = key := Store.key_of_get? stored
    obtain ⟨answer, answered⟩ := readable row
    obtain ⟨⟨sn, sn6⟩, subnets, rfl⟩ := Option.map_eq_some_iff.mp about
    have listed : ⟨true, !sn6.empty, sn, sn6, attrs, answer.2 + answer.1 * second, row.modRevision⟩ ∈
        listLeases root etcd timeToLive := by
      refine List.mem_filterMap.mpr ⟨row, Store.mem_range_iff.mpr ⟨below, stored⟩, ?_⟩
      have value : row.value.value = some attrs := value
      simp [answered, kvToIPLease, subnets, value]
    cases found : lookup Lease.key (listLeases root etcd timeToLive)
        (sn, if sn6.empty then none else some sn6) with
    | none =>
      refine absurd (List.mem_map.mpr ⟨_, listed, ?_⟩) ((lookup_eq_none_iff _ _).mp found)
      cases sn6.empty <;> simp [Lease.key]
    | some lease =>
      obtain ⟨kv, stored', below', about', value'⟩ := sound lease (mem_of_lookup found)
      rw [key_of_lookup found] at about'
      have same : kv.key = row.key := legible.injective _ _ (decode _ _ stored' below').1
        (decode _ _ stored below).1 (about'.trans about.symm)
      rw [same, stored] at stored'
      cases stored'
      rw [attrsTable, found]
      exact value'.symm.trans value

/-! ## Whole runs -/

structure Watching.Follows (root : String) (watching : Watching) : Prop where
  since : watching.since = watching.processed + 1
  position : ∀ next, watching.phase = .receiving next → next = watching.processed + 1
  current : Represents root (folded watching.sent) (watching.history.storeAt watching.processed)

/-- What holds throughout: all writes decode, the changes sent are those of
successive writes, and once something was sent the receiver follows. -/
structure Watching.Consistent (root : String) (Keys : String → Prop) (watching : Watching) :
    Prop where
  decode : ∀ entry ∈ watching.history.entries, Decodes root Keys entry.write
  past : watching.processed ≤ watching.history.revision
  once : ∃ applied : List (Entry String Record),
    applied.Sublist (watching.history.upTo watching.processed) ∧
      changes watching.sent = applied.filterMap change
  follows : (watching.sent = [] ∧ (watching.phase = .starting ∨ watching.phase = .returned)) ∨
    watching.Follows root

namespace Watching

theorem consistent_initial : initial.Consistent root Keys where
  decode := nofun
  past := Nat.le_refl 0
  once := ⟨[], List.nil_sublist _, rfl⟩
  follows := .inl ⟨rfl, .inl rfl⟩

variable {watching : Watching}

theorem Consistent.follows_of_phase (consistent : watching.Consistent root Keys)
    (started : watching.phase ≠ .starting) (running : watching.phase ≠ .returned) :
    watching.Follows root := by
  rcases consistent.follows with ⟨_, phase | phase⟩ | follows
  · exact absurd phase started
  · exact absurd phase running
  · exact follows

theorem Consistent.move (consistent : watching.Consistent root Keys) {phase : WatchPhase}
    (started : watching.phase ≠ .starting) (running : watching.phase ≠ .returned)
    (position : ∀ next, phase = .receiving next → next = watching.since.toNat) :
    ({ watching with phase := phase } : Watching).Consistent root Keys := by
  have follows := consistent.follows_of_phase started running
  refine ⟨consistent.decode, consistent.past, consistent.once, .inr ⟨follows.since, ?_, follows.current⟩⟩
  intro next receiving
  rw [position next receiving, follows.since]
  rfl

theorem Consistent.stop (consistent : watching.Consistent root Keys) :
    ({ watching with phase := .returned } : Watching).Consistent root Keys := by
  refine ⟨consistent.decode, consistent.past, consistent.once, ?_⟩
  rcases consistent.follows with ⟨nothing, _⟩ | follows
  · exact .inl ⟨nothing, .inr rfl⟩
  · exact .inr ⟨follows.since, nofun, follows.current⟩

theorem Consistent.commit (consistent : watching.Consistent root Keys)
    {writes : List (Write String Record)} (decode : ∀ write ∈ writes, Decodes root Keys write) :
    ({ watching with history := watching.history.commit writes } : Watching).Consistent root Keys := by
  have same := History.upTo_commit consistent.past writes
  constructor
  · intro entry mem
    rcases List.mem_append.mp mem with mem | memNew
    · exact consistent.decode entry mem
    · obtain ⟨write, memWrite, rfl⟩ := List.mem_map.mp memNew
      exact decode write memWrite
  · exact Nat.le_succ_of_le consistent.past
  · rw [same]
    exact consistent.once
  · rcases consistent.follows with nothing | follows
    · exact .inl nothing
    · refine .inr ⟨follows.since, follows.position, ?_⟩
      rw [History.storeAt, same]
      exact follows.current

theorem leasesWatchReset_error (root : String) (etcd : EtcdStore) (timeToLive : TimeToLive)
    {error : Error} (other : (.error error : Except Error Unit) ≠ .error .grpcKeyNotFound) :
    leasesWatchReset root etcd (.error error) timeToLive = .error .request := by
  cases error <;> first | rfl | exact absurd rfl other

theorem Consistent.resync (legible : Legible Keys) (consistent : watching.Consistent root Keys)
    {get : Except Error Unit} {timeToLive : TimeToLive} (directory : get ≠ .error .grpcKeyNotFound)
    (readable : ∀ kv, ∃ answer, timeToLive kv = some answer) {onError : WatchPhase}
    (onFailure : ({ watching with phase := onError } : Watching).Consistent root Keys) :
    (watching.resync root get timeToLive onError).Consistent root Keys := by
  cases get with
  | error error =>
    have failed := leasesWatchReset_error root watching.etcd timeToLive directory
    rw [Watching.resync, failed]
    exact onFailure
  | ok answer =>
    cases answer
    obtain ⟨applied, sublist, sent⟩ := consistent.once
    refine ⟨consistent.decode, Nat.le_refl _, ⟨applied, ?_, ?_⟩, .inr ⟨rfl, ?_, ?_⟩⟩
    · change applied.Sublist (watching.history.upTo watching.history.revision)
      rw [History.upTo_revision]
      exact sublist.trans (History.upTo_sublist _ _)
    · exact (changes_append _ _).trans ((List.append_nil _).trans sent)
    · intro next receiving
      cases receiving
    · change Represents root (folded (watching.sent ++ [_])) watching.etcd
      rw [folded_append_singleton]
      refine represents_listLeases legible ?_ readable
      intro key row stored below
      refine decodes_of_get? (fun entry mem => ?_) stored below
      exact consistent.decode entry ((History.upTo_sublist _ _).subset mem)

theorem Follows.handle_position (follows : watching.Follows root) {revision : Nat}
    (reaches : revision = 0 ∨ watching.processed + 1 ≤ revision + 1)
    (answers : Entry String Record → Answers) :
    ∃ processed, (watching.handle root (watching.processed + 1) revision answers) =
        { watching with
          phase := .receiving (processed + 1)
          since := processed + 1
          sent := watching.sent ++
            (watching.response root (watching.processed + 1) revision answers).results
          processed := processed } ∧
      (processed = revision ∨ processed = watching.processed) ∧
      watching.history.upTo watching.processed ++
          watching.history.window (watching.processed + 1) revision =
        watching.history.upTo processed := by
  by_cases zero : revision = 0
  · subst zero
    refine ⟨watching.processed, ?_, .inr rfl, ?_⟩
    · simp [Watching.handle, ← follows.since]
    · rw [History.window_eq_nil (Nat.succ_pos _), List.append_nil]
  · have later : watching.processed ≤ revision := by omega
    refine ⟨revision, ?_, .inl rfl, History.upTo_append_window _ later⟩
    simp [Watching.handle, zero, later]

theorem Consistent.handle (legible : Legible Keys) (consistent : watching.Consistent root Keys)
    {next revision : Nat} (receiving : watching.phase = .receiving next)
    (reaches : revision = 0 ∨ next ≤ revision + 1) (past : revision ≤ watching.history.revision)
    {answers : Entry String Record → Answers}
    (readable : ∀ entry, ∃ ttl, (answers entry).timeToLive = .ok ttl) :
    (watching.handle root next revision answers).Consistent root Keys := by
  have follows : watching.Follows root :=
    consistent.follows_of_phase (by simp [receiving]) (by simp [receiving])
  obtain rfl := follows.position next receiving
  obtain ⟨processed, handled, origin, split⟩ := follows.handle_position reaches answers
  obtain ⟨applied, sublist, sent⟩ := consistent.once
  have results : (watching.response root (watching.processed + 1) revision answers).results =
      (watching.reported root (watching.processed + 1) revision).map fun entry =>
        watchResult revision (answers entry) (etcdEvent entry) := by
    rw [WatchResponse.results, response, List.map_map]
    rfl
  have decode : ∀ entry ∈ watching.reported root (watching.processed + 1) revision,
      Decodes root Keys entry.write ∧ isWatched root entry := by
    intro entry mem
    obtain ⟨inWindow, watched⟩ := List.mem_filter.mp mem
    exact ⟨consistent.decode entry (List.mem_filter.mp inWindow).1, watched⟩
  obtain ⟨folds, changed⟩ := folded_append_results legible decode readable revision watching.sent
  rw [← results] at folds changed
  rw [handled]
  refine ⟨consistent.decode, ?_, ⟨applied ++ watching.reported root (watching.processed + 1) revision,
    ?_, ?_⟩, .inr ⟨rfl, ?_, ?_⟩⟩
  · rcases origin with rfl | rfl
    · exact past
    · exact consistent.past
  · rw [← split]
    exact sublist.append List.filter_sublist
  · rw [changes_append, sent, changed, List.filterMap_append]
  · intro next receiving
    exact (WatchPhase.receiving.inj receiving).symm
  · rw [folds, History.storeAt, ← split]
    refine Represents.replay legible ?_ follows.current
    intro entry mem
    rw [split] at mem
    exact consistent.decode entry ((History.upTo_sublist _ _).subset mem)

theorem Consistent.step (legible : Legible Keys) (consistent : watching.Consistent root Keys)
    {label : WatchLabel} (assumed : Assumed root Keys label) {target : Watching}
    (taken : Watching.step root watching label = some target) : target.Consistent root Keys := by
  cases label with
  | commit writes =>
    cases taken
    exact consistent.commit assumed
  | compact revision =>
    obtain ⟨_, taken⟩ := Option.ite_none_right_eq_some.mp taken
    cases taken
    exact ⟨consistent.decode, consistent.past, consistent.once, consistent.follows.imp id fun follows =>
      ⟨follows.since, follows.position, follows.current⟩⟩
  | list get timeToLive =>
    simp only [Watching.step] at taken
    split at taken
    · cases taken
      exact consistent.resync legible assumed.1 assumed.2 consistent.stop
    · rename_i relisting
      cases taken
      refine consistent.resync legible assumed.1 assumed.2 ?_
      rw [← relisting]
      exact consistent
    · contradiction
  | connect established =>
    simp only [Watching.step] at taken
    split at taken
    · cases taken
      exact consistent
    · rename_i connecting
      split_ifs at taken <;> cases taken
      · exact consistent.move (by simp [connecting]) (by simp [connecting]) (by simp)
      · refine consistent.move (by simp [connecting]) (by simp [connecting]) ?_
        intro next receiving
        exact (WatchPhase.receiving.inj receiving).symm
    · contradiction
  | receive revision answers =>
    simp only [Watching.step] at taken
    split at taken
    · rename_i next receiving
      obtain ⟨⟨reaches, past⟩, taken⟩ := Option.ite_none_right_eq_some.mp taken
      cases taken
      exact consistent.handle legible receiving reaches past assumed
    · contradiction
  | fail isCompacted =>
    simp only [Watching.step] at taken
    split at taken
    · rename_i receiving
      obtain ⟨_, taken⟩ := Option.ite_none_right_eq_some.mp taken
      cases taken
      exact consistent.move (by simp [receiving]) (by simp [receiving]) (by simp)
    · rename_i rejected
      cases taken
      exact consistent.move (by simp [rejected]) (by simp [rejected]) (by simp)
    · rename_i receiving
      cases taken
      exact consistent.move (by simp [receiving]) (by simp [receiving]) (by simp)
    · rename_i rejected
      cases taken
      exact consistent.move (by simp [rejected]) (by simp [rejected]) (by simp)
    · contradiction
  | cancel =>
    cases taken
    exact consistent.stop

end Watching

/-- Whatever disconnections and compactions occur, the results fold to the leases
of the store as of the revision last processed, and the changes among them are
those of different writes, in the order of the writes. -/
theorem watchLeases_resumes (legible : Legible Keys) {labels : List WatchLabel} {target : Watching}
    (assumed : ∀ label ∈ labels, Assumed root Keys label)
    (reached : run (Watching.step root) Watching.initial labels = some target) :
    (target.sent ≠ [] →
        ∀ k attrs, folded target.sent k = some attrs ↔
          (k, attrs) ∈ leaseSet root (target.history.storeAt target.processed)) ∧
      ∃ applied : List (Entry String Record), applied.Sublist target.history.entries ∧
        changes target.sent = applied.filterMap change := by
  have consistent : target.Consistent root Keys :=
    invariant_of_along (fun _ _ _ consistent assumed taken => consistent.step legible assumed taken)
      Watching.consistent_initial (along_of_forall_mem assumed) reached
  constructor
  · intro started
    rcases consistent.follows with ⟨nothing, _⟩ | follows
    · exact absurd nothing started
    · exact follows.current
  · obtain ⟨applied, sublist, sent⟩ := consistent.once
    exact ⟨applied, sublist.trans (History.upTo_sublist _ _), sent⟩

def storing (key : String) (publicIP : IP4) : WatchLabel :=
  .commit [.put key ⟨some (plainLease 0 publicIP).attrs, 1⟩]

def listing : WatchLabel :=
  .list (.ok ()) fun _ => some (86400, 1)

def responding (revision : Nat) : WatchLabel :=
  .receive revision fun _ => ⟨.ok 86400, 1, .error .request⟩

theorem assumed_storing {key : String} (isKey : Keys key) (publicIP : IP4) :
    Assumed root Keys (storing key publicIP) := by
  intro write mem _
  obtain rfl := List.mem_singleton.mp mem
  refine ⟨isKey, ?_⟩
  rintro _ _ ⟨⟩
  exact ⟨_, rfl⟩

theorem assumed_deleting {key : String} (isKey : Keys key) :
    Assumed root Keys (.commit [.delete key]) := by
  intro write mem _
  obtain rfl := List.mem_singleton.mp mem
  exact ⟨isKey, nofun⟩

theorem assumed_listing : Assumed root Keys listing :=
  ⟨by simp, fun _ => ⟨_, rfl⟩⟩

theorem assumed_responding (revision : Nat) : Assumed root Keys (responding revision) :=
  fun _ => ⟨_, rfl⟩

def compactedWatch : List WatchLabel :=
  [storing "/coreos.com/network/subnets/10.1.1.0-24" 1, listing, .connect true,
    storing "/coreos.com/network/subnets/10.1.2.0-24" 2, responding 2, .fail false,
    .commit [.delete "/coreos.com/network/subnets/10.1.1.0-24"],
    storing "/coreos.com/network/subnets/10.1.3.0-24" 3, .compact 4, .connect true, .fail true,
    listing, .connect true, .commit [.delete "/coreos.com/network/subnets/10.1.2.0-24"],
    responding 5]

def threeKeys : List String :=
  ["/coreos.com/network/subnets/10.1.1.0-24", "/coreos.com/network/subnets/10.1.2.0-24",
    "/coreos.com/network/subnets/10.1.3.0-24"]

theorem legible_threeKeys : Legible (· ∈ threeKeys) := by
  have decoded : ∀ key ∈ threeKeys, (subnetOf key).isSome := by
    decide
  have distinct : ∀ key ∈ threeKeys, ∀ key' ∈ threeKeys,
      subnetOf key = subnetOf key' → key = key' := by
    decide
  constructor
  · intro key mem
    exact Option.isSome_iff_exists.mp (decoded key mem)
  · intro key key' mem mem'
    exact distinct key mem key' mem'

theorem watchLeases_resumes_compacted :
    ∃ target, run (Watching.step "/coreos.com/network") Watching.initial compactedWatch =
        some target ∧
      target.sent.length = 4 ∧ target.processed = 5 ∧
      ∀ k attrs, folded target.sent k = some attrs ↔
        (k, attrs) ∈ leaseSet "/coreos.com/network" (target.history.storeAt target.processed) := by
  have runs : ((run (Watching.step "/coreos.com/network") Watching.initial compactedWatch).map
      fun target => (target.sent.length, target.processed)) = some (4, 5) := by
    decide
  obtain ⟨target, reached, figures⟩ := Option.map_eq_some_iff.mp runs
  obtain ⟨length, processed⟩ := Prod.mk.inj figures
  have assumed : ∀ label ∈ compactedWatch,
      Assumed "/coreos.com/network" (· ∈ threeKeys) label := by
    have first : "/coreos.com/network/subnets/10.1.1.0-24" ∈ threeKeys := by simp [threeKeys]
    have second : "/coreos.com/network/subnets/10.1.2.0-24" ∈ threeKeys := by simp [threeKeys]
    have third : "/coreos.com/network/subnets/10.1.3.0-24" ∈ threeKeys := by simp [threeKeys]
    simp only [compactedWatch, List.forall_mem_cons]
    exact ⟨assumed_storing first 1, assumed_listing, trivial, assumed_storing second 2,
      assumed_responding 2, trivial, assumed_deleting first, assumed_storing third 3, trivial,
      trivial, trivial, assumed_listing, trivial, assumed_deleting second, assumed_responding 5,
      nofun⟩
  refine ⟨target, reached, length, processed, ?_⟩
  apply (watchLeases_resumes legible_threeKeys assumed reached).1
  intro nothing
  rw [nothing] at length
  contradiction

def respelledKey : List WatchLabel :=
  [storing "/coreos.com/network/subnets/10.1.1.0-24" 1, listing, .connect true,
    storing "/coreos.com/network/subnets/10.1.1.0-024" 2,
    .commit [.delete "/coreos.com/network/subnets/10.1.1.0-024"], responding 3]

/-- All keys decode, but the deletion of the second one makes the receiver drop
the lease that is still stored under the first. -/
theorem watchLeases_loses_respelled :
    (∀ label ∈ respelledKey,
        Assumed "/coreos.com/network" (fun key => ∃ k, subnetOf key = some k) label) ∧
      ∃ target k attrs, run (Watching.step "/coreos.com/network") Watching.initial respelledKey =
          some target ∧
        target.processed = 3 ∧ folded target.sent k = none ∧
        (k, attrs) ∈ leaseSet "/coreos.com/network" (target.history.storeAt target.processed) := by
  have decoded : subnetOf "/coreos.com/network/subnets/10.1.1.0-24" =
      some (⟨0x0a010100, 24⟩, none) := by
    decide
  have decoded' : subnetOf "/coreos.com/network/subnets/10.1.1.0-024" =
      some (⟨0x0a010100, 24⟩, none) := by
    decide
  constructor
  · simp only [respelledKey, List.forall_mem_cons]
    exact ⟨assumed_storing ⟨_, decoded⟩ 1, assumed_listing, trivial,
      assumed_storing ⟨_, decoded'⟩ 2, assumed_deleting ⟨_, decoded'⟩, assumed_responding 3,
      nofun⟩
  · have runs : ((run (Watching.step "/coreos.com/network") Watching.initial respelledKey).map
        fun target => (target.processed, folded target.sent (⟨0x0a010100, 24⟩, none),
          (target.history.storeAt 3).get? "/coreos.com/network/subnets/10.1.1.0-24")) =
        some (3, none, some ⟨"/coreos.com/network/subnets/10.1.1.0-24",
          ⟨some (plainLease 0 1).attrs, 1⟩, 1⟩) := by
      decide
    obtain ⟨target, reached, figures⟩ := Option.map_eq_some_iff.mp runs
    simp only [Prod.mk.injEq] at figures
    obtain ⟨processed, dropped, stored⟩ := figures
    refine ⟨target, (⟨0x0a010100, 24⟩, none), (plainLease 0 1).attrs, reached, processed, dropped, ?_⟩
    rw [processed]
    exact ⟨_, _, stored, by decide, decoded, rfl⟩

end Flannel.Etcd
