import Flannel.Bits.Memory
import Flannel.Table.Replay
import Mathlib.Data.Fintype.EquivFin

/-!
# The route table of the UDP proxy

`set_route` overwrites or appends, `del_route` moves the last entry into the hole, and
`find_route` swaps the entry it finds to the front. As long as the nets present are disjoint, the
array is the finite map that the commands describe, whatever was looked up in between.
-/

namespace Flannel.Udp

open Bits

structure IpNet where
  ip : BitVec 32
  mask : BitVec 32
  deriving DecidableEq

structure SockaddrIn where
  addr : BitVec 32
  port : BitVec 16
  deriving DecidableEq

structure RouteEntry where
  dst : IpNet
  nextHop : SockaddrIn
  deriving DecidableEq

structure Routes where
  entries : List RouteEntry
  alloc : BitVec 64
  deriving DecidableEq

def netmask (len : Nat) : BitVec 32 :=
  swap32 (BitVec.allOnes 32 <<< (32 - len))

def IpNet.contains (net : IpNet) (ip : BitVec 32) : Bool :=
  net.ip == ip &&& net.mask

/-- The next `routes_alloc`, which passes through an `int`. -/
def newAlloc (alloc : BitVec 64) : BitVec 64 :=
  ((if alloc ≠ 0 then 2 * alloc else 8).setWidth 32).signExtend 64

def setRoute (dst : IpNet) (nextHop : SockaddrIn) (r : Routes) : Routes where
  entries := Table.upsert RouteEntry.dst ⟨dst, nextHop⟩ r.entries
  alloc :=
    if dst ∈ r.entries.map RouteEntry.dst then r.alloc
    else if r.alloc.toNat = r.entries.length then newAlloc r.alloc
    else r.alloc

def delRoute (dst : IpNet) (r : Routes) : Routes :=
  match r.entries.findIdx? fun e => decide (e.dst = dst), r.entries.getLast? with
  | some i, some last => { r with entries := (r.entries.set i last).dropLast }
  | _, _ => r

def findRoute (ip : BitVec 32) (r : Routes) : Option SockaddrIn × Routes :=
  match r.entries.findIdx? fun e => e.dst.contains ip with
  | some i =>
    match r.entries[i]?, r.entries[0]? with
    | some tmp, some front =>
      (some tmp.nextHop, { r with entries := (r.entries.set i front).set 0 tmp })
    | _, _ => (none, r)
  | none => (none, r)

/-! ## Operations and the map they describe -/

structure Dest where
  net : BitVec 32
  len : Nat
  valid : 1 ≤ len ∧ len ≤ 32

def Dest.ipn (d : Dest) : IpNet where
  ip := d.net &&& netmask d.len
  mask := netmask d.len

/-- `CMD_SET_ROUTE`, `CMD_DEL_ROUTE`, and a lookup for a packet. -/
inductive Op
  | set (dst : Dest) (nextHopIP : BitVec 32) (nextHopPort : BitVec 16)
  | del (dst : Dest)
  | find (ip : BitVec 32)

def Op.perform (r : Routes) : Op → Routes
  | .set dst ip port => setRoute dst.ipn ⟨ip, swap16 port⟩ r
  | .del dst => delRoute dst.ipn r
  | .find ip => (findRoute ip r).2

def routesAfter (ops : List Op) : Routes :=
  ops.foldl Op.perform ⟨[], 0⟩

def Op.change : Op → Option (Table.Change IpNet SockaddrIn)
  | .set dst ip port => some (.set dst.ipn ⟨ip, swap16 port⟩)
  | .del dst => some (.unset dst.ipn)
  | .find _ => none

def held (ops : List Op) : IpNet → Option SockaddrIn :=
  Table.replay (fun _ => none) (ops.filterMap Op.change)

def Separate (table : IpNet → Option SockaddrIn) : Prop :=
  ∀ a b ip, (table a).isSome → (table b).isSome → a.contains ip → b.contains ip → a = b

/-! ## The array as a map -/

/-- The array holds the map, and has room for it. `routes_alloc` doubles below
`2 ^ 31`; there the `int` turns negative and the next value is above `2 ^ 63`. -/
structure Represents (r : Routes) (table : IpNet → Option SockaddrIn) : Prop where
  distinct : (r.entries.map RouteEntry.dst).Nodup
  exact : ∀ net hop, ⟨net, hop⟩ ∈ r.entries ↔ table net = some hop
  masked : ∀ e ∈ r.entries, e.dst.contains e.dst.ip = true
  room : r.entries.length ≤ r.alloc.toNat
  doubled : r.alloc.toNat < 2 ^ 31 ∨ 2 ^ 63 ≤ r.alloc.toNat

variable {r : Routes} {table : IpNet → Option SockaddrIn}

theorem Represents.of_perm (rep : Represents r table) {entries : List RouteEntry}
    (perm : entries.Perm r.entries) : Represents { r with entries := entries } table where
  distinct := (perm.map _).nodup_iff.mpr rep.distinct
  exact net hop := perm.mem_iff.trans (rep.exact net hop)
  masked e mem := rep.masked e (perm.mem_iff.mp mem)
  room := perm.length_eq ▸ rep.room
  doubled := rep.doubled

/-- Disjoint nets have different base addresses, so there are at most `2 ^ 32`. -/
theorem Represents.length_le (rep : Represents r table) (separate : Separate table) :
    r.entries.length ≤ 2 ^ 32 := by
  have bases : (r.entries.map fun e => e.dst.ip.toFin).Nodup := by
    refine List.Nodup.map_on ?_ rep.distinct.of_map
    intro e mem e' mem' same
    have ip : e.dst.ip = e'.dst.ip := BitVec.toFin_inj.mp same
    have both := separate e.dst e'.dst e.dst.ip
      (by rw [(rep.exact e.dst e.nextHop).mp mem]; rfl)
      (by rw [(rep.exact e'.dst e'.nextHop).mp mem']; rfl)
      (rep.masked e mem) (ip ▸ rep.masked e' mem')
    exact List.inj_on_of_nodup_map rep.distinct mem mem' both
  simpa using bases.length_le_card

theorem newAlloc_spec {alloc : BitVec 64} (small : alloc.toNat < 2 ^ 31) :
    alloc.toNat < (newAlloc alloc).toNat ∧
      ((newAlloc alloc).toNat < 2 ^ 31 ∨ 2 ^ 63 ≤ (newAlloc alloc).toNat) := by
  by_cases zero : alloc = 0
  · subst zero
    decide
  · have positive : 0 < alloc.toNat :=
      Nat.pos_of_ne_zero fun eq => zero (BitVec.eq_of_toNat_eq eq)
    have int : ((2 * alloc).setWidth 32).toNat = 2 * alloc.toNat := by
      rw [BitVec.toNat_setWidth, BitVec.toNat_mul]
      change 2 * alloc.toNat % 2 ^ 64 % 2 ^ 32 = _
      omega
    have value : (newAlloc alloc).toNat =
        2 * alloc.toNat + if 2 ^ 31 ≤ 2 * alloc.toNat then 2 ^ 64 - 2 ^ 32 else 0 := by
      rw [newAlloc, if_pos zero, BitVec.toNat_signExtend, BitVec.toNat_setWidth, int,
        BitVec.msb_eq_decide, int, Nat.mod_eq_of_lt (by omega)]
      simp
    rw [value]
    split <;> omega

theorem Represents.setRoute (rep : Represents r table) (separate : Separate table) (dst : Dest)
    (hop : SockaddrIn) :
    Represents (setRoute dst.ipn hop r) (Function.update table dst.ipn (some hop)) := by
  have keys := @Table.map_key_upsert _ _ _ RouteEntry.dst ⟨dst.ipn, hop⟩ r.entries
  have length := congrArg List.length keys
  have bound := rep.length_le separate
  have room := rep.room
  have doubled := rep.doubled
  refine ⟨Table.nodup_upsert rep.distinct _, fun net hop' => ?_, fun e mem => ?_, ?_, ?_⟩
  · rw [Udp.setRoute, Table.mem_upsert_iff rep.distinct, rep.exact]
    by_cases same : net = dst.ipn
    · simp [same, eq_comm]
    · simp [same]
  · rcases Table.mem_upsert mem with rfl | mem
    · simp [IpNet.contains, Dest.ipn, BitVec.and_assoc]
    · exact rep.masked e mem
  all_goals
    unfold Udp.setRoute
    by_cases present : dst.ipn ∈ r.entries.map RouteEntry.dst
    · simp only [present, if_true, List.length_map] at length ⊢
      omega
    · simp only [present, if_false, List.length_map, List.length_append, List.length_singleton]
        at length ⊢
      by_cases full : r.alloc.toNat = r.entries.length
      · have grown := @newAlloc_spec r.alloc (by omega)
        rw [if_pos full]
        omega
      · rw [if_neg full]
        omega

theorem cons_dropLast_set_perm {α : Type} {xs : List α} {i : Nat} {x last : α}
    (here : xs[i]? = some x) (isLast : xs.getLast? = some last) :
    (x :: (xs.set i last).dropLast).Perm xs := by
  induction xs generalizing i with
  | nil => cases here
  | cons y ys ih =>
    rcases List.eq_nil_or_concat' ys with rfl | ⟨init, final, rfl⟩
    · cases i with
      | zero => simpa using here.symm
      | succ i => cases here
    · rw [← List.cons_append, List.getLast?_concat] at isLast
      obtain rfl := Option.some.inj isLast
      cases i with
      | zero =>
        obtain rfl : y = x := by simpa using here
        have moved : ((y :: (init ++ [final])).set 0 final).dropLast = final :: init := by
          rw [List.set_cons_zero, ← List.cons_append, List.dropLast_concat]
        rw [moved]
        exact (List.perm_append_singleton final init).symm.cons y
      | succ i =>
        have nonempty : (init ++ [final]).set i final ≠ [] := by simp
        rw [List.set_cons_succ, List.dropLast_cons_of_ne_nil nonempty]
        exact (List.Perm.swap y x _).trans ((ih here (by simp)).cons y)

theorem Represents.delRoute (rep : Represents r table) (dst : IpNet) :
    Represents (delRoute dst r) (Function.update table dst none) := by
  unfold Udp.delRoute
  split
  · next i last found isLast =>
    obtain ⟨inside, isDst, -⟩ := List.findIdx?_eq_some_iff_getElem.mp found
    obtain rfl : r.entries[i].dst = dst := of_decide_eq_true isDst
    have perm := cons_dropLast_set_perm (List.getElem?_eq_getElem inside) isLast
    generalize (r.entries.set i last).dropLast = entries at perm
    have rep' := rep.of_perm perm
    have apart := List.nodup_cons.mp rep'.distinct
    refine ⟨apart.2, fun net hop => ?_, fun e mem => rep'.masked e (.tail _ mem), ?_, rep.doubled⟩
    · by_cases same : net = r.entries[i].dst
      · subst same
        have gone : ⟨r.entries[i].dst, hop⟩ ∉ entries := fun mem =>
          apart.1 (List.mem_map.mpr ⟨_, mem, rfl⟩)
        simpa using gone
      · rw [Function.update_of_ne same, ← rep'.exact net hop, List.mem_cons]
        refine (or_iff_right fun equal => same ?_).symm
        rw [← equal]
    · exact Nat.le_of_succ_le rep'.room
  · next absent =>
    have missing : table dst = none := by
      refine Option.eq_none_iff_forall_ne_some.mpr fun hop held => ?_
      have mem := (rep.exact dst hop).mpr held
      cases found : r.entries.findIdx? fun e => decide (e.dst = dst) with
      | none => simpa using List.findIdx?_eq_none_iff.mp found _ mem
      | some i =>
        exact absent i _ found (List.getLast?_eq_getLast_of_ne_nil (List.ne_nil_of_mem mem))
    rw [← missing, Function.update_eq_self]
    exact rep

theorem findRoute_spec (ip : BitVec 32) (r : Routes) :
    (∃ entries, entries.Perm r.entries ∧ (findRoute ip r).2 = { r with entries := entries }) ∧
      (((findRoute ip r).1 = none ∧ ∀ e ∈ r.entries, e.dst.contains ip = false) ∨
        ∃ e ∈ r.entries, e.dst.contains ip ∧ (findRoute ip r).1 = some e.nextHop) := by
  unfold findRoute
  cases found : r.entries.findIdx? fun e => e.dst.contains ip with
  | none => exact ⟨⟨_, .refl _, rfl⟩, .inl ⟨rfl, List.findIdx?_eq_none_iff.mp found⟩⟩
  | some i =>
    obtain ⟨inside, contains, -⟩ := List.findIdx?_eq_some_iff_getElem.mp found
    have front : 0 < r.entries.length := Nat.zero_lt_of_lt inside
    simp only [List.getElem?_eq_getElem inside, List.getElem?_eq_getElem front]
    exact ⟨⟨_, List.set_set_perm inside front, rfl⟩,
      .inr ⟨_, List.getElem_mem inside, contains, rfl⟩⟩

theorem Represents.findRoute_eq_some_iff (rep : Represents r table) (separate : Separate table)
    (ip : BitVec 32) (hop : SockaddrIn) :
    (findRoute ip r).1 = some hop ↔ ∃ net, net.contains ip ∧ table net = some hop := by
  rcases (findRoute_spec ip r).2 with ⟨isNone, none⟩ | ⟨e, mem, contains, isSome⟩
  · rw [isNone]
    refine ⟨nofun, ?_⟩
    rintro ⟨net, contains, held⟩
    have absent := none _ ((rep.exact net hop).mpr held)
    rw [contains] at absent
    cases absent
  · have held := (rep.exact e.dst e.nextHop).mp mem
    rw [isSome, Option.some_inj]
    constructor
    · rintro rfl
      exact ⟨e.dst, contains, held⟩
    · rintro ⟨net, contains', held'⟩
      obtain rfl := separate e.dst net ip (by rw [held]; rfl) (by rw [held']; rfl) contains contains'
      exact Option.some.inj (held.symm.trans held')

theorem held_append (ops : List Op) (op : Op) :
    held (ops ++ [op]) = Table.replay (held ops) op.change.toList := by
  rw [held, List.filterMap_append, Table.replay_append]
  cases op <;> rfl

theorem Represents.perform {ops : List Op} (rep : Represents r (held ops))
    (separate : Separate (held ops)) (op : Op) : Represents (op.perform r) (held (ops ++ [op])) := by
  rw [held_append]
  cases op with
  | set dst ip port => exact rep.setRoute separate dst _
  | del dst => exact rep.delRoute dst.ipn
  | find ip =>
    obtain ⟨⟨entries, perm, after⟩, -⟩ := findRoute_spec ip r
    rw [Op.perform, after]
    exact rep.of_perm perm

theorem represents_routesAfter {ops : List Op}
    (disjoint : ∀ done, done <+: ops → Separate (held done)) :
    Represents (routesAfter ops) (held ops) := by
  induction ops using List.reverseRecOn with
  | nil => constructor <;> simp [routesAfter, held]
  | append_singleton ops op ih =>
    have before : ∀ done, done <+: ops → Separate (held done) := fun done earlier =>
      disjoint done (earlier.trans (List.prefix_append ops [op]))
    rw [routesAfter, List.foldl_append]
    exact (ih before).perform (before ops (List.prefix_refl ops)) op

/-- After every sequence of commands and lookups during which the nets present are
disjoint, the array has one entry for each destination set and not deleted since,
with the last next hop, fits its allocation, and a lookup finds the hop of the net
that contains the address. -/
theorem routes_are_a_map (ops : List Op)
    (disjoint : ∀ done, done <+: ops → Separate (held done)) :
    ((routesAfter ops).entries.map RouteEntry.dst).Nodup ∧
      (∀ net hop, ⟨net, hop⟩ ∈ (routesAfter ops).entries ↔ held ops net = some hop) ∧
      (routesAfter ops).entries.length ≤ (routesAfter ops).alloc.toNat ∧
      ∀ ip hop, (findRoute ip (routesAfter ops)).1 = some hop ↔
        ∃ net, net.contains ip = true ∧ held ops net = some hop := by
  have rep := represents_routesAfter disjoint
  exact ⟨rep.distinct, rep.exact, rep.room,
    rep.findRoute_eq_some_iff (disjoint ops (List.prefix_refl ops))⟩

theorem routes_are_a_map_of_one_net :
    let dst : Dest := ⟨0x1000A#32, 24, by decide⟩
    let ops := [Op.set dst 0x201A8C0#32 8285#16, .find 0x501000A#32, .set dst 0x301A8C0#32 8285#16]
    ((routesAfter ops).entries.map RouteEntry.dst).Nodup ∧
      (∀ net hop, ⟨net, hop⟩ ∈ (routesAfter ops).entries ↔ held ops net = some hop) ∧
      (routesAfter ops).entries.length ≤ (routesAfter ops).alloc.toNat ∧
      ∀ ip hop, (findRoute ip (routesAfter ops)).1 = some hop ↔
        ∃ net, net.contains ip ∧ held ops net = some hop := by
  intro dst ops
  refine routes_are_a_map ops fun done earlier a b ip heldA heldB _ _ => ?_
  -- only one net is ever set
  have only : ∀ net, (held done net).isSome → net = dst.ipn := by
    intro net isHeld
    by_contra other
    rw [held, Table.replay_of_forall_ne] at isHeld
    · cases isHeld
    · intro change mem
      obtain ⟨op, performed, isChange⟩ := List.mem_filterMap.mp mem
      have mem : op ∈ ops := earlier.subset performed
      simp only [ops, List.mem_cons, List.not_mem_nil, or_false] at mem
      rcases mem with rfl | rfl | rfl <;> cases isChange <;> exact other
  rw [only a heldA, only b heldB]

end Flannel.Udp
