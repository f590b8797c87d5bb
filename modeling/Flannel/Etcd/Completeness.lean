import Flannel.Etcd.Scan

/-!
# What an allocation finds

`allocateSubnet` returns free subnets of the ranges, and reports that there are none only if there
are none, as long as the IPv4 range ends below the last subnet of the address space and no two
IPv6 addresses are printed alike. A range that reaches the last subnet is never left: the loop
goes on at the start of the address space.
-/

namespace Flannel.Etcd

open Ip Leases Net Program Subnet

/-! ## Free subnets -/

def ApartIPv4 (config : Config) (leases : List Lease) (start : IP4) : Prop :=
  ∀ l ∈ leases, Disjoint (block config.subnetLen start) (block l.subnet.prefixLen l.subnet.ip)

structure OpenIPv4 (config : Config) (leases : List Lease) (start : IP4) : Prop where
  aligned : Aligned config.subnetLen start
  low : config.subnetMin ≤ start
  high : start ≤ config.subnetMax
  apart : ApartIPv4 config leases start

structure OpenIPv6 (config : Config) (leases : List Lease) (ip6 : IP6) : Prop where
  aligned : ip6 < 2 ^ 128 ∧ Aligned config.ipv6SubnetLen (BitVec.ofNat 128 ip6)
  low : ∃ lowest, config.ipv6SubnetMin = some lowest ∧ lowest ≤ ip6
  high : ∃ highest, config.ipv6SubnetMax = some highest ∧ ip6 ≤ highest
  apart : ∀ l ∈ leases,
    Disjoint (block config.ipv6SubnetLen (BitVec.ofNat 128 ip6)) l.ipv6Subnet.addresses

/-- An IPv6 subnet of the range that `allocateSubnet` takes for free. It compares what is printed,
so it may take a free subnet for one that overlaps. -/
structure SeenIPv6 (config : Config) (leases : List Lease) (ip6 : IP6) : Prop where
  aligned : ip6 < 2 ^ 128 ∧ Aligned config.ipv6SubnetLen (BitVec.ofNat 128 ip6)
  low : ∃ lowest, config.ipv6SubnetMin = some lowest ∧ lowest ≤ ip6
  high : ∃ highest, config.ipv6SubnetMax = some highest ∧ ip6 ≤ highest
  apart : ∀ l ∈ leases, IP6Net.overlaps ⟨some ip6, config.ipv6SubnetLen⟩ l.ipv6Subnet = some false

def Exhausted (config : Config) (leases : List Lease) : Prop :=
  (∀ start, ¬ OpenIPv4 config leases start) ∨
    config.enableIPv6 = true ∧ ∀ ip6, ¬ OpenIPv6 config leases ip6

/-! ## The IPv4 grid -/

structure IPv4Grid (config : Config) : Prop where
  len : 1 ≤ config.subnetLen ∧ config.subnetLen ≤ 32
  minAligned : Aligned config.subnetLen config.subnetMin
  maxAligned : Aligned config.subnetLen config.subnetMax

abbrev searchIPv4 (config : Config) (leases : List Lease) : Loop IP4Net :=
  ipv4Loop config.subnetMax leases

abbrev gridIPv4 (config : Config) (leases : List Lease) (k : Nat) : IP4Net :=
  (searchIPv4 config leases).point ⟨config.subnetMin, config.subnetLen⟩ k

section IPv4

variable {config : Config} {leases : List Lease}

theorem overlaps_eq_false_iff {sn other : IP4Net} (valid : sn.prefixLen ≤ 32) :
    sn.overlaps other = false ↔
      Disjoint (block sn.prefixLen sn.ip) (block other.prefixLen other.ip) := by
  rw [← Bool.not_eq_true, ← Set.not_nonempty_iff_eq_empty.trans Set.disjoint_iff_inter_eq_empty.symm,
    not_iff_not, IP4Net.overlaps, beq_iff_eq]
  by_cases shorter : sn.prefixLen < other.prefixLen
  · rw [if_pos shorter, IP4Net.mask, if_pos valid, block_inter_nonempty_iff (Nat.le_of_lt shorter)]
  · have le : other.prefixLen ≤ sn.prefixLen := Nat.le_of_not_lt shorter
    rw [if_neg shorter, IP4Net.mask, if_pos (le.trans valid), Set.inter_comm,
      block_inter_nonempty_iff le]
    exact eq_comm

theorem gridIPv4_eq (k : Nat) :
    gridIPv4 config leases k =
      ⟨config.subnetMin + BitVec.ofNat 32 k * ipv4Step config.subnetLen, config.subnetLen⟩ :=
  iterate_next _ k

theorem keep_gridIPv4_iff (grid : IPv4Grid config) {k : Nat} :
    (searchIPv4 config leases).keep (gridIPv4 config leases k) ↔
      ApartIPv4 config leases (gridIPv4 config leases k).ip := by
  rw [keep_ipv4Loop_iff]
  have len : (gridIPv4 config leases k).prefixLen = config.subnetLen := by rw [gridIPv4_eq]
  constructor
  · intro free l mem
    have apart := free l mem
    rwa [overlaps_eq_false_iff (len.trans_le grid.len.2), len] at apart
  · intro apart l mem
    rw [overlaps_eq_false_iff (len.trans_le grid.len.2), len]
    exact apart l mem

theorem toNat_gridIPv4 (grid : IPv4Grid config) (k : Nat) :
    (gridIPv4 config leases k).ip.toNat =
      (config.subnetMin.toNat + k * 2 ^ (32 - config.subnetLen)) % 2 ^ 32 := by
  have step : (ipv4Step config.subnetLen).toNat = 2 ^ (32 - config.subnetLen) := by
    rw [ipv4Step, if_pos grid.len.2, toNat_subnetSize grid.len.1]
  rw [gridIPv4_eq]
  dsimp only
  rw [BitVec.toNat_add, BitVec.toNat_mul, step, BitVec.toNat_ofNat, Nat.mod_mul_mod, Nat.add_mod_mod]

theorem aligned_gridIPv4 (grid : IPv4Grid config) (k : Nat) :
    Aligned config.subnetLen (gridIPv4 config leases k).ip := by
  have divides := (aligned_iff_dvd _ _).mp grid.minAligned
  rw [aligned_iff_dvd, toNat_gridIPv4 grid,
    Nat.dvd_mod_iff (Nat.pow_dvd_pow 2 (Nat.sub_le 32 _))]
  exact Nat.dvd_add divides (Nat.dvd_mul_left _ _)

theorem exists_grid_of_le (grid : IPv4Grid config) {start : IP4}
    (aligned : Aligned config.subnetLen start) (low : config.subnetMin ≤ start) :
    ∃ k, config.subnetMin.toNat + k * 2 ^ (32 - config.subnetLen) = start.toNat := by
  have divides := (aligned_iff_dvd _ _).mp grid.minAligned
  have divides' := (aligned_iff_dvd _ _).mp aligned
  have le : config.subnetMin.toNat ≤ start.toNat := low
  obtain ⟨k, isK⟩ := Nat.dvd_sub divides' divides
  exact ⟨k, by rw [Nat.mul_comm, ← isK]; omega⟩

theorem exists_grid_wrapped (grid : IPv4Grid config) {start : IP4}
    (aligned : Aligned config.subnetLen start) :
    ∃ k, config.subnetMin.toNat + k * 2 ^ (32 - config.subnetLen) = start.toNat + 2 ^ 32 := by
  have divides := (aligned_iff_dvd _ _).mp grid.minAligned
  have divides' := (aligned_iff_dvd _ _).mp aligned
  have turn : 2 ^ (32 - config.subnetLen) ∣ 2 ^ 32 := Nat.pow_dvd_pow 2 (Nat.sub_le 32 _)
  have small := config.subnetMin.isLt
  obtain ⟨k, isK⟩ := Nat.dvd_sub (Nat.dvd_add divides' turn) divides
  exact ⟨k, by rw [Nat.mul_comm, ← isK]; omega⟩

theorem gridIPv4_of_eq (grid : IPv4Grid config) {start : IP4} {k : Nat}
    (isStart : config.subnetMin.toNat + k * 2 ^ (32 - config.subnetLen) = start.toNat) :
    (gridIPv4 config leases k).ip = start := by
  apply BitVec.eq_of_toNat_eq
  rw [toNat_gridIPv4 grid, isStart, Nat.mod_eq_of_lt start.isLt]

theorem availableIPs_eq_some_iff {ips : List IP4} :
    availableIPs config leases = some ips ↔
      ∃ m < ipv4Rounds, (searchIPv4 config leases).EndsAt ⟨config.subnetMin, config.subnetLen⟩ m ∧
        ips = ((searchIPv4 config leases).kept ⟨config.subnetMin, config.subnetLen⟩ m).map
          IP4Net.ip := by
  have same := @scanIPv4_eq_gather config.subnetMax leases ipv4Rounds
    ⟨config.subnetMin, config.subnetLen⟩ []
  rw [List.map_nil] at same
  rw [availableIPs, same, Option.map_eq_some_iff]
  constructor
  · rintro ⟨result, returns, rfl⟩
    obtain ⟨m, lt, endsAt, rfl⟩ := Loop.gather_eq_some_iff.mp returns
    exact ⟨m, lt, endsAt, rfl⟩
  · rintro ⟨m, lt, endsAt, rfl⟩
    exact ⟨_, Loop.gather_eq_some_iff.mpr ⟨m, lt, endsAt, rfl⟩, rfl⟩

/-! ### A range that ends below the last subnet -/

def BelowTop (config : Config) : Prop :=
  config.subnetMax.toNat + 2 ^ (32 - config.subnetLen) < 2 ^ 32

section BelowTop

variable (grid : IPv4Grid config) (below : BelowTop config)
include grid below

theorem exists_above : ∃ k, config.subnetMax < (gridIPv4 config leases k).ip := by
  rcases Nat.lt_or_ge config.subnetMax.toNat config.subnetMin.toNat with empty | le
  · exact ⟨0, empty⟩
  · obtain ⟨k, isMax⟩ := exists_grid_of_le grid grid.maxAligned le
    have positive := Nat.two_pow_pos (32 - config.subnetLen)
    refine ⟨k + 1, ?_⟩
    change config.subnetMax.toNat < _
    rw [BelowTop] at below
    rw [toNat_gridIPv4 grid, Nat.succ_mul, ← Nat.add_assoc, isMax, Nat.mod_eq_of_lt below]
    omega

theorem toNat_gridIPv4_of_inside {k : Nat}
    (inside : ∀ j < k, (gridIPv4 config leases j).ip ≤ config.subnetMax) :
    (gridIPv4 config leases k).ip.toNat =
      config.subnetMin.toNat + k * 2 ^ (32 - config.subnetLen) := by
  rw [toNat_gridIPv4 grid]
  apply Nat.mod_eq_of_lt
  cases k with
  | zero =>
    rw [Nat.zero_mul]
    exact config.subnetMin.isLt
  | succ k =>
    have before := toNat_gridIPv4_of_inside (k := k) fun j lt => inside j (Nat.lt_succ_of_lt lt)
    have le : (gridIPv4 config leases k).ip.toNat ≤ config.subnetMax.toNat :=
      inside k (Nat.lt_succ_self k)
    rw [BelowTop] at below
    rw [Nat.succ_mul]
    omega

theorem availableIPs_of_belowTop :
    ∃ ips, availableIPs config leases = some ips ∧ (∀ ip ∈ ips, OpenIPv4 config leases ip) ∧
      (ips = [] → ∀ start, ¬ OpenIPv4 config leases start) := by
  obtain ⟨k, above⟩ := @exists_above config leases grid below
  obtain ⟨ips, found⟩ := Option.isSome_iff_exists.mp
    (isSome_scanIPv4_rounds_iff.mpr ⟨k, .inl above⟩)
  obtain ⟨m, -, endsAt, rfl⟩ := availableIPs_eq_some_iff.mp found
  have inside : ∀ j < m, (gridIPv4 config leases j).ip ≤ config.subnetMax :=
    fun j lt => of_decide_eq_true (endsAt.inside_of_lt lt)
  refine ⟨_, found, ?_, ?_⟩
  · intro ip mem
    obtain ⟨sn, isKept, rfl⟩ := List.mem_map.mp mem
    obtain ⟨kept, j, lt, rfl⟩ := Loop.mem_kept_iff.mp isKept
    refine ⟨aligned_gridIPv4 grid j, ?_, inside j lt, (keep_gridIPv4_iff grid).mp kept⟩
    change config.subnetMin.toNat ≤ _
    rw [toNat_gridIPv4_of_inside grid below fun i lt' => inside i (lt'.trans lt)]
    exact Nat.le_add_right _ _
  · intro nothing start isOpen
    obtain ⟨k, isStart⟩ := exists_grid_of_le grid isOpen.aligned isOpen.low
    have here : (gridIPv4 config leases k).ip = start := gridIPv4_of_eq grid isStart
    have high : start.toNat ≤ config.subnetMax.toNat := isOpen.high
    refine endsAt.kept_ne_nil ipv4Loop_limit_pos (k := k) ?_ ?_ (List.map_eq_nil_iff.mp nothing)
    · intro j le
      have earlier : config.subnetMin.toNat + j * 2 ^ (32 - config.subnetLen) ≤ start.toNat :=
        isStart ▸ Nat.add_le_add_left (Nat.mul_le_mul_right _ le) _
      apply decide_eq_true
      change (gridIPv4 config leases j).ip.toNat ≤ config.subnetMax.toNat
      rw [toNat_gridIPv4 grid]
      exact (Nat.mod_le _ _).trans (earlier.trans high)
    · rw [keep_gridIPv4_iff grid, here]
      exact isOpen.apart

end BelowTop

/-! ### A range that ends with the last subnet -/

def Roomy (config : Config) (leases : List Lease) : Prop :=
  100 ≤ {start | OpenIPv4 config leases start}.ncard ∨
    ∀ start, Aligned config.subnetLen start → ApartIPv4 config leases start → config.subnetMin ≤ start

theorem toNat_gridIPv4_of_lt (grid : IPv4Grid config) {turn k : Nat}
    (isTurn : config.subnetMin.toNat + turn * 2 ^ (32 - config.subnetLen) = 2 ^ 32) (lt : k < turn) :
    (gridIPv4 config leases k).ip.toNat =
      config.subnetMin.toNat + k * 2 ^ (32 - config.subnetLen) := by
  have := Nat.mul_lt_mul_of_pos_right lt (Nat.two_pow_pos (32 - config.subnetLen))
  rw [toNat_gridIPv4 grid, Nat.mod_eq_of_lt (by omega)]

theorem le_subnetMax_of_aligned (atTop : ¬ BelowTop config) {start : IP4}
    (aligned : Aligned config.subnetLen start) : start ≤ config.subnetMax := by
  have ends := aligned.add_le
  rw [BelowTop, Nat.not_lt] at atTop
  change start.toNat ≤ config.subnetMax.toNat
  omega

section AtTop

variable (grid : IPv4Grid config) (atTop : ¬ BelowTop config)
include grid atTop

theorem inside_gridIPv4 (k : Nat) :
    (searchIPv4 config leases).inside (gridIPv4 config leases k) :=
  decide_eq_true (le_subnetMax_of_aligned atTop (aligned_gridIPv4 grid k))

theorem isSome_availableIPs_iff :
    (availableIPs config leases).isSome ↔
      ∃ start, Aligned config.subnetLen start ∧ ApartIPv4 config leases start := by
  rw [availableIPs, isSome_scanIPv4_rounds_iff]
  constructor
  · rintro ⟨k, above | free⟩
    · exact absurd (le_subnetMax_of_aligned atTop (@aligned_gridIPv4 config leases grid k))
        (BitVec.not_le.mpr above)
    · exact ⟨_, aligned_gridIPv4 grid k, (keep_gridIPv4_iff grid).mp (keep_ipv4Loop_iff.mpr free)⟩
  · rintro ⟨start, aligned, apart⟩
    obtain ⟨k, isStart⟩ := exists_grid_wrapped grid aligned
    refine ⟨k, .inr (keep_ipv4Loop_iff.mp ((keep_gridIPv4_iff grid).mpr ?_))⟩
    have here : (gridIPv4 config leases k).ip = start := by
      apply BitVec.eq_of_toNat_eq
      rw [toNat_gridIPv4 grid, isStart, Nat.add_mod_right, Nat.mod_eq_of_lt start.isLt]
    rw [here]
    exact apart

theorem ncard_open {turn : Nat}
    (isTurn : config.subnetMin.toNat + turn * 2 ^ (32 - config.subnetLen) = 2 ^ 32) :
    {start | OpenIPv4 config leases start}.ncard =
      ((searchIPv4 config leases).kept ⟨config.subnetMin, config.subnetLen⟩ turn).length := by
  have positive := Nat.two_pow_pos (32 - config.subnetLen)
  have distinct : ∀ i < turn, ∀ j < turn, gridIPv4 config leases i = gridIPv4 config leases j → i = j := by
    intro i ltI j ltJ same
    have numbers := congrArg (fun sn => sn.ip.toNat) same
    rw [toNat_gridIPv4_of_lt grid isTurn ltI, toNat_gridIPv4_of_lt grid isTurn ltJ] at numbers
    exact Nat.eq_of_mul_eq_mul_right positive (Nat.add_left_cancel numbers)
  rw [Loop.length_kept_eq_ncard distinct]
  have isImage : {start | OpenIPv4 config leases start} = IP4Net.ip ''
      {sn | (searchIPv4 config leases).keep sn ∧
        ∃ k < turn, gridIPv4 config leases k = sn} := by
    ext start
    constructor
    · intro isOpen
      obtain ⟨k, isStart⟩ := exists_grid_of_le grid isOpen.aligned isOpen.low
      have here : (gridIPv4 config leases k).ip = start := gridIPv4_of_eq grid isStart
      refine ⟨gridIPv4 config leases k, ⟨?_, k, ?_, rfl⟩, here⟩
      · rw [keep_gridIPv4_iff grid, here]
        exact isOpen.apart
      · apply Nat.lt_of_mul_lt_mul_right (a := 2 ^ (32 - config.subnetLen))
        have := start.isLt
        omega
    · rintro ⟨sn, ⟨kept, k, lt, rfl⟩, rfl⟩
      have aligned := @aligned_gridIPv4 config leases grid k
      refine ⟨aligned, ?_, le_subnetMax_of_aligned atTop aligned, (keep_gridIPv4_iff grid).mp kept⟩
      change config.subnetMin.toNat ≤ _
      rw [toNat_gridIPv4_of_lt grid isTurn lt]
      exact Nat.le_add_right _ _
  rw [isImage, Set.InjOn.ncard_image]
  rintro _ ⟨_, i, _, rfl⟩ _ ⟨_, j, _, rfl⟩ same
  rw [gridIPv4_eq, gridIPv4_eq] at same ⊢
  exact IP4Net.ext same rfl

theorem open_iff_roomy {ips : List IP4} (found : availableIPs config leases = some ips) :
    ips ≠ [] ∧ ((∀ ip ∈ ips, OpenIPv4 config leases ip) ↔ Roomy config leases) := by
  obtain ⟨m, -, endsAt, rfl⟩ := availableIPs_eq_some_iff.mp found
  have hundred : (Loop.kept _ _ m).length = 100 :=
    endsAt.length_of_inside (inside_gridIPv4 grid atTop m) ipv4Loop_limit_pos
  obtain ⟨turn, isTurn⟩ := @exists_grid_wrapped config grid 0#32 (by simp [Aligned])
  rw [BitVec.toNat_zero, Nat.zero_add] at isTurn
  refine ⟨fun nothing => ?_, fun isOpen => ?_, fun roomy ip mem => ?_⟩
  · rw [List.map_eq_nil_iff.mp nothing] at hundred
    cases hundred
  · rw [Roomy, ncard_open grid atTop isTurn, ← hundred, or_iff_not_imp_left, Nat.not_le]
    intro fewer start aligned apart
    by_contra below
    rw [BitVec.not_le] at below
    have below' : start.toNat < config.subnetMin.toNat := below
    -- the loop has wrapped and collected this subnet, or one before it
    have collected : ∀ {j}, j < m → (searchIPv4 config leases).keep (gridIPv4 config leases j) →
        config.subnetMin ≤ (gridIPv4 config leases j).ip := fun lt kept =>
      (isOpen _ (List.mem_map_of_mem (Loop.mem_kept_iff.mpr ⟨kept, _, lt, rfl⟩))).low
    obtain ⟨k, isStart⟩ := exists_grid_wrapped grid aligned
    have here : (gridIPv4 config leases k).ip = start := by
      apply BitVec.eq_of_toNat_eq
      rw [toNat_gridIPv4 grid, isStart, Nat.add_mod_right, Nat.mod_eq_of_lt start.isLt]
    rcases Nat.lt_or_ge k m with reached | passed
    · have low := collected reached ((keep_gridIPv4_iff grid).mpr (here ▸ apart))
      rw [here] at low
      exact absurd below (BitVec.not_lt.mpr low)
    · obtain ⟨j, ge, lt, kept⟩ := Loop.exists_of_length_lt fewer
      have low : config.subnetMin.toNat ≤ (gridIPv4 config leases j).ip.toNat := collected lt kept
      have wrapped := Nat.mul_le_mul_right (2 ^ (32 - config.subnetLen)) ge
      have earlier := Nat.mul_le_mul_right (2 ^ (32 - config.subnetLen)) (lt.le.trans passed)
      rw [toNat_gridIPv4 grid] at low
      omega
  · obtain ⟨sn, isKept, rfl⟩ := List.mem_map.mp mem
    obtain ⟨kept, j, lt, rfl⟩ := Loop.mem_kept_iff.mp isKept
    have aligned := @aligned_gridIPv4 config leases grid j
    have apart := (keep_gridIPv4_iff grid).mp kept
    refine ⟨aligned, ?_, le_subnetMax_of_aligned atTop aligned, apart⟩
    rcases roomy with enough | noneBefore
    · rw [ncard_open grid atTop isTurn] at enough
      have notBefore : ¬ turn < m := fun before =>
        endsAt.2 turn before fun goesOn => absurd goesOn.2 (Nat.not_lt.mpr enough)
      change config.subnetMin.toNat ≤ _
      rw [toNat_gridIPv4_of_lt grid isTurn (by omega)]
      exact Nat.le_add_right _ _
    · exact noneBefore _ aligned apart

end AtTop

end IPv4

/-! ## The IPv6 grid -/

section IPv6

variable {config : Config} {leases : List Lease}

theorem SeenIPv6.isOpen {ip6 : IP6} (seen : SeenIPv6 config leases ip6)
    (valid : config.ipv6SubnetLen ≤ 128) : OpenIPv6 config leases ip6 :=
  ⟨seen.aligned, seen.low, seen.high, fun l mem =>
    IP6Net.disjoint_of_overlaps_eq_false (n := ⟨some ip6, config.ipv6SubnetLen⟩) valid
      (seen.apart l mem)⟩

theorem exists_steps {len lowest ip6 : Nat}
    (lowAligned : lowest < 2 ^ 128 ∧ Aligned len (BitVec.ofNat 128 lowest))
    (aligned : ip6 < 2 ^ 128 ∧ Aligned len (BitVec.ofNat 128 ip6)) (low : lowest ≤ ip6) :
    ∃ k, lowest + k * 2 ^ (128 - len) = ip6 := by
  have divides := (aligned_iff_dvd _ _).mp lowAligned.2
  have divides' := (aligned_iff_dvd _ _).mp aligned.2
  rw [BitVec.toNat_ofNat, Nat.mod_eq_of_lt lowAligned.1] at divides
  rw [BitVec.toNat_ofNat, Nat.mod_eq_of_lt aligned.1] at divides'
  obtain ⟨k, isK⟩ := Nat.dvd_sub divides' divides
  exact ⟨k, by rw [Nat.mul_comm, ← isK, Nat.add_sub_cancel' low]⟩

theorem availableIPv6s_eq_kept (enabled : config.enableIPv6)
    (lengths : 1 ≤ config.ipv6SubnetLen ∧ config.ipv6SubnetLen ≤ 128) {lowest highest : IP6}
    (isLowest : config.ipv6SubnetMin = some lowest) (isHighest : config.ipv6SubnetMax = some highest)
    (isSet : ∀ l ∈ leases, l.ipv6Subnet.ip.isSome) :
    ∃ m sn6, (ipv6Loop highest config.ipv6SubnetLen leases).EndsAt lowest m ∧ sn6.empty = false ∧
      availableIPv6s config leases =
        some (((ipv6Loop highest config.ipv6SubnetLen leases).kept lowest m).map some, sn6) := by
  have notEmpty : ∀ ip6, IP6Net.empty ⟨ip6, config.ipv6SubnetLen⟩ = false := by
    intro ip6
    simp [IP6Net.empty, Nat.ne_of_gt lengths.1]
  obtain ⟨m, lt, endsAt⟩ := @exists_endsAt_ipv6Loop config.ipv6SubnetLen leases highest lowest
  obtain ⟨stop, same⟩ := @scanIPv6_eq_gather highest config.ipv6SubnetLen leases lengths.2
    isSet (highest + 2) lowest []
  rw [Loop.gather_eq_some_iff.mpr ⟨m, lt, endsAt, rfl⟩] at same
  refine ⟨m, ⟨some stop, config.ipv6SubnetLen⟩, endsAt, notEmpty _, ?_⟩
  rw [availableIPv6s, enabled, if_pos rfl, isLowest, isHighest, notEmpty]
  exact same

theorem availableIPv6s_of_checked (enabled : config.enableIPv6) (checked : IPv6Checked config)
    (isSet : ∀ l ∈ leases, l.ipv6Subnet.ip.isSome) :
    ∃ ip6s sn6, availableIPv6s config leases = some (ip6s.map some, sn6) ∧ sn6.empty = false ∧
      (∀ ip6 ∈ ip6s, SeenIPv6 config leases ip6) ∧
      (ip6s = [] → ∀ ip6, ¬ SeenIPv6 config leases ip6) := by
  obtain ⟨lengths, ⟨lowest, isLowest, lowAligned⟩, highest, isHighest, highAligned⟩ := checked
  rw [checkIPv6Subnet_iff] at lowAligned highAligned
  obtain ⟨m, sn6, endsAt, notEmpty, found⟩ :=
    availableIPv6s_eq_kept enabled (by omega) isLowest isHighest isSet
  refine ⟨_, sn6, found, notEmpty, ?_, ?_⟩
  · intro ip6 mem
    obtain ⟨kept, k, lt', rfl⟩ := Loop.mem_kept_iff.mp mem
    have inside : _ ≤ highest := of_decide_eq_true (endsAt.inside_of_lt lt')
    have small := inside.trans_lt highAligned.1
    refine ⟨⟨small, ?_⟩, ⟨lowest, isLowest, ?_⟩, ⟨highest, isHighest, inside⟩,
      keep_ipv6Loop_iff.mp kept⟩
    · have divides := (aligned_iff_dvd _ _).mp lowAligned.2
      rw [BitVec.toNat_ofNat, Nat.mod_eq_of_lt lowAligned.1] at divides
      rw [aligned_iff_dvd, BitVec.toNat_ofNat, Nat.mod_eq_of_lt small, point_ipv6Loop]
      exact Nat.dvd_add divides (Nat.dvd_mul_left _ _)
    · rw [point_ipv6Loop]
      exact Nat.le_add_right _ _
  · rintro nothing ip6 ⟨aligned, ⟨_, isLowest', low⟩, ⟨_, isHighest', high⟩, apart⟩
    obtain rfl := Option.some.inj (isLowest.symm.trans isLowest')
    obtain rfl := Option.some.inj (isHighest.symm.trans isHighest')
    obtain ⟨k, here⟩ := exists_steps lowAligned aligned low
    refine endsAt.kept_ne_nil (Nat.succ_pos 99) (k := k) ?_ ?_ nothing
    · intro j le
      apply decide_eq_true
      rw [point_ipv6Loop]
      exact (Nat.add_le_add_left (Nat.mul_le_mul_right _ le) _).trans (here.trans_le high)
    · rw [keep_ipv6Loop_iff, point_ipv6Loop, here]
      exact apart

end IPv6

/-! ## Random choices -/

def choosing {α : Type} (post : α → Prop) : Contract Op Res Unit α where
  note history _ _ := history
  rely _ op answer :=
    match op, answer with
    | .randInt lo hi, i => lo ≤ i ∧ i < hi
    | _, _ => True
  guarantee _ op := ∃ lo hi, op = .randInt lo hi ∧ lo < hi
  post _ := post

def Returns {α : Type} (post : α → Prop) (program : Action α) : Prop :=
  Safe (choosing post) () program

section Returns

variable {α β : Type} {post : β → Prop}

theorem returns_ret_iff {result : β} : Returns post (.ret result) ↔ post result :=
  safe_ret_iff

theorem not_returns_crash {next : α → Action β} : ¬ Returns post (orPanic none >>= next) := by
  intro returns
  obtain ⟨_, _, isDraw, _⟩ := (safe_call_iff.mp returns).1
  cases isDraw

theorem returns_pickOne_bind_iff {available : List α} {next : α → Action β} (some : available ≠ []) :
    Returns post (pickOne available >>= next) ↔ ∀ a ∈ available, Returns post (next a) := by
  have picked : ∀ (i : Nat) a, available[i]? = Option.some a →
      (orPanic available[i]? >>= next) = next a := by
    intro i a isA
    rw [isA]
    rfl
  constructor
  · intro returns a mem
    obtain ⟨i, lt, isA⟩ := List.getElem_of_mem mem
    have later := (safe_call_iff.mp returns).2 i ⟨Nat.zero_le i, lt⟩
    have here := picked i a (List.getElem?_eq_some_iff.mpr ⟨lt, isA⟩)
    rw [Returns, ← here]
    exact later
  · intro each
    refine .call ⟨0, _, rfl, List.length_pos_iff.mpr some⟩ fun i inRange => ?_
    have here := picked i _ (List.getElem?_eq_getElem inRange.2)
    change Returns post (orPanic available[i]? >>= next)
    rw [here]
    exact each _ (List.getElem_mem inRange.2)

end Returns

/-! ## Soundness and completeness -/

/-- What `allocateSubnet` should return: free subnets of the ranges, or an error if there are
none. -/
def Correct (config : Config) (leases : List Lease) : Except Error (IP4Net × IP6Net) → Prop
  | .ok (sn, sn6) =>
    sn.prefixLen = config.subnetLen ∧ OpenIPv4 config leases sn.ip ∧
      (config.enableIPv6 = true → sn6.prefixLen = config.ipv6SubnetLen ∧
        ∃ ip6, sn6.ip = some ip6 ∧ OpenIPv6 config leases ip6)
  | .error error => error = .outOfSubnets ∧ Exhausted config leases

def FindsIPv6 (config : Config) (leases : List Lease) : Prop :=
  config.enableIPv6 = true → ∃ ip6, SeenIPv6 config leases ip6

section Allocate

variable {config : Config} {leases : List Lease}

theorem exists_availableIPv6s (checked : config.enableIPv6 → IPv6Checked config)
    (isSet : config.enableIPv6 → ∀ l ∈ leases, l.ipv6Subnet.ip.isSome) :
    ∃ ip6s sn6, availableIPv6s config leases = some (ip6s.map some, sn6) ∧
      sn6.empty = !config.enableIPv6 ∧
      (config.enableIPv6 → ∀ ip6 ∈ ip6s, SeenIPv6 config leases ip6) ∧
      (FindsIPv6 config leases ↔ sn6.empty ∨ ip6s ≠ []) := by
  cases enabled : config.enableIPv6 with
  | false =>
    refine ⟨[], .zero, availableIPv6s_of_single enabled, rfl, ?_, ?_⟩
    · intro dual
      cases dual
    · refine iff_of_true (fun dual => ?_) (.inl rfl)
      rw [enabled] at dual
      cases dual
  | true =>
    obtain ⟨ip6s, sn6, found, notEmpty, seen, nothing⟩ :=
      availableIPv6s_of_checked enabled (checked enabled) (isSet enabled)
    refine ⟨ip6s, sn6, found, notEmpty, fun _ => seen, ?_⟩
    rw [notEmpty]
    constructor
    · intro finds
      obtain ⟨ip6, isSeen⟩ := finds enabled
      exact .inr fun isNil => nothing isNil ip6 isSeen
    · rintro (single | some)
      · cases single
      · intro _
        obtain ⟨ip6, mem⟩ := List.exists_mem_of_ne_nil _ some
        exact ⟨ip6, seen ip6 mem⟩

theorem returns_allocateSubnet_iff {post : Except Error (IP4Net × IP6Net) → Prop} {ips : List IP4}
    {ip6s : List IP6} {sn6 : IP6Net} (found : availableIPs config leases = some ips)
    (found6 : availableIPv6s config leases = some (ip6s.map some, sn6)) :
    Returns post (allocateSubnet config leases) ↔
      (ips = [] ∨ ¬ (sn6.empty ∨ ip6s ≠ []) → post (.error .outOfSubnets)) ∧
        (sn6.empty → ∀ ip ∈ ips, post (.ok (⟨ip, config.subnetLen⟩, .zero))) ∧
        (sn6.empty = false → ∀ ip ∈ ips, ∀ ip6 ∈ ip6s,
          post (.ok (⟨ip, config.subnetLen⟩, ⟨some ip6, config.ipv6SubnetLen⟩))) := by
  have program : allocateSubnet config leases = pickSubnets config ips (ip6s.map some) sn6 := by
    rw [allocateSubnet, found, found6]
    rfl
  have nothing_iff : (ips.isEmpty || (!sn6.empty && (ip6s.map some).isEmpty)) ↔
      ips = [] ∨ ¬ (sn6.empty ∨ ip6s ≠ []) := by
    simp
  rw [program, pickSubnets]
  split_ifs with nothing single
  · rw [nothing_iff] at nothing
    refine Iff.trans returns_ret_iff ⟨fun failed => ⟨fun _ => failed, ?_⟩, fun spec => spec.1 nothing⟩
    rcases nothing with rfl | notFinds
    · exact ⟨fun _ _ mem => (by cases mem), fun _ _ mem => (by cases mem)⟩
    · rw [not_or, not_not] at notFinds
      refine ⟨fun single => absurd single notFinds.1, fun _ _ _ ip6 mem => ?_⟩
      rw [notFinds.2] at mem
      cases mem
  · rw [nothing_iff, not_or, not_not] at nothing
    rw [returns_pickOne_bind_iff nothing.1]
    constructor
    · intro each
      refine ⟨fun none => ?_, fun _ ip mem => returns_ret_iff.mp (each ip mem), fun dual => ?_⟩
      · exact absurd none (not_or.mpr ⟨nothing.1, not_not.mpr nothing.2⟩)
      · rw [single] at dual
        cases dual
    · intro spec ip mem
      exact returns_ret_iff.mpr (spec.2.1 single ip mem)
  · rw [nothing_iff, not_or, not_not] at nothing
    have some6 : ip6s.map some ≠ [] := by simpa using nothing.2.resolve_left single
    rw [returns_pickOne_bind_iff nothing.1]
    constructor
    · intro each
      refine ⟨fun none => ?_, fun isSingle => absurd isSingle single, fun _ ip mem ip6 mem6 => ?_⟩
      · exact absurd none (not_or.mpr ⟨nothing.1, not_not.mpr nothing.2⟩)
      · have here := (returns_pickOne_bind_iff some6).mp (each ip mem) _ (List.mem_map_of_mem mem6)
        exact returns_ret_iff.mp here
    · intro spec ip mem
      rw [returns_pickOne_bind_iff some6]
      intro _ mem6
      obtain ⟨ip6, isIP6, rfl⟩ := List.mem_map.mp mem6
      exact returns_ret_iff.mpr
        (spec.2.2 (Bool.eq_false_of_not_eq_true single) ip mem ip6 isIP6)

theorem returns_correct_iff (checked : config.enableIPv6 → IPv6Checked config)
    (isSet : config.enableIPv6 → ∀ l ∈ leases, l.ipv6Subnet.ip.isSome) {ips : List IP4}
    (found : availableIPs config leases = some ips) :
    Returns (Correct config leases) (allocateSubnet config leases) ↔
      (ips = [] ∨ ¬ FindsIPv6 config leases → Exhausted config leases) ∧
        (FindsIPv6 config leases → ∀ ip ∈ ips, OpenIPv4 config leases ip) := by
  obtain ⟨ip6s, sn6, found6, isEmpty, seen, finds⟩ := exists_availableIPv6s checked isSet
  rw [returns_allocateSubnet_iff found found6, ← finds]
  constructor
  · rintro ⟨exhausted, single, dual⟩
    refine ⟨fun nothing => (exhausted nothing).2, fun isFound ip mem => ?_⟩
    rcases finds.mp isFound with isSingle | some6
    · exact (single isSingle ip mem).2.1
    · cases isSingle : sn6.empty with
      | true => exact (single isSingle ip mem).2.1
      | false =>
        obtain ⟨ip6, mem6⟩ := List.exists_mem_of_ne_nil _ some6
        exact (dual isSingle ip mem ip6 mem6).2.1
  · rintro ⟨exhausted, isOpen⟩
    refine ⟨fun nothing => ⟨rfl, exhausted nothing⟩, fun isSingle ip mem => ?_,
      fun isDual ip mem ip6 mem6 => ?_⟩
    · refine ⟨rfl, isOpen (finds.mpr (.inl isSingle)) ip mem, fun enabled => ?_⟩
      rw [isSingle, enabled] at isEmpty
      cases isEmpty
    · refine ⟨rfl, isOpen (finds.mpr (.inr (List.ne_nil_of_mem mem6))) ip mem, fun enabled => ?_⟩
      have lengths := (checked enabled).len
      exact ⟨rfl, ip6, rfl, (seen enabled ip6 mem6).isOpen (by omega)⟩

structure Allocatable (config : Config) (leases : List Lease) : Prop where
  ipv6 : FindsIPv6 config leases ∨ Exhausted config leases
  ends : ¬ BelowTop config →
    ∃ start, Aligned config.subnetLen start ∧ ApartIPv4 config leases start
  roomy : ¬ BelowTop config → FindsIPv6 config leases → Roomy config leases

theorem returns_correct_iff_allocatable (grid : IPv4Grid config)
    (checked : config.enableIPv6 → IPv6Checked config)
    (isSet : config.enableIPv6 → ∀ l ∈ leases, l.ipv6Subnet.ip.isSome) :
    Returns (Correct config leases) (allocateSubnet config leases) ↔ Allocatable config leases := by
  by_cases below : BelowTop config
  · obtain ⟨ips, found, isOpen, nothing⟩ := @availableIPs_of_belowTop config leases grid below
    rw [returns_correct_iff checked isSet found]
    constructor
    · rintro ⟨exhausted, _⟩
      refine ⟨?_, fun atTop => absurd below atTop, fun atTop => absurd below atTop⟩
      exact or_iff_not_imp_left.mpr fun notFinds => exhausted (.inr notFinds)
    · intro allocatable
      refine ⟨?_, fun _ => isOpen⟩
      rintro (isNil | notFinds)
      · exact .inl (nothing isNil)
      · exact allocatable.ipv6.resolve_left notFinds
  · have ends := @isSome_availableIPs_iff config leases grid below
    cases found : availableIPs config leases with
    | none =>
      rw [found] at ends
      refine iff_of_false ?_ fun allocatable => absurd (ends.mpr (allocatable.ends below)) (by decide)
      rw [allocateSubnet, found]
      exact not_returns_crash
    | some ips =>
      rw [found] at ends
      obtain ⟨some, isOpen⟩ := open_iff_roomy grid below found
      rw [returns_correct_iff checked isSet found]
      constructor
      · rintro ⟨exhausted, allOpen⟩
        refine ⟨?_, fun _ => ends.mp rfl, fun _ finds => isOpen.mp (allOpen finds)⟩
        exact or_iff_not_imp_left.mpr fun notFinds => exhausted (.inr notFinds)
      · intro allocatable
        refine ⟨?_, fun finds => isOpen.mpr (allocatable.roomy below finds)⟩
        rintro (isNil | notFinds)
        · exact absurd isNil some
        · exact allocatable.ipv6.resolve_left notFinds

end Allocate

theorem grid_of_range {config checked : Config} (range : IPv4Range config checked) : IPv4Grid checked :=
  ⟨by have := range.len; omega, range.minAligned, range.maxAligned⟩

/-- For every accepted configuration with IPv4, `allocateSubnet` is sound and complete, whatever it
chooses, exactly if the leases and the range are `Allocatable`. -/
theorem allocateSubnet_correct_iff {s backendType : String} {raw : RawConfig} {checked : Config}
    {leases : List Lease} (parsed : parseConfig s = some (raw, backendType))
    (enabled : raw.config.enableIPv4 = true) (accepted : checkNetworkConfig raw.config = .ok checked)
    (isSet : checked.enableIPv6 = true → ∀ l ∈ leases, l.ipv6Subnet.ip.isSome) :
    Returns (Correct checked leases) (allocateSubnet checked leases) ↔ Allocatable checked leases := by
  have range := range_of_accepted (decoded_of_parseConfig parsed) enabled accepted
  exact returns_correct_iff_allocatable (grid_of_range range) (checkNetworkConfig_eq_ok accepted).2 isSet

theorem allocateSubnet_correct_beside_lease :
    ∃ raw backendType,
      parseConfig "\x7b\"Network\":\"10.5.0.0/16\"\x7d" = some (raw, backendType) ∧
        raw.config.enableIPv4 = true ∧ ∃ checked, checkNetworkConfig raw.config = .ok checked ∧
          Returns (Correct checked [heldLease ⟨0x0a050100#32, 24⟩ .zero])
            (allocateSubnet checked [heldLease ⟨0x0a050100#32, 24⟩ .zero]) := by
  apply @exists_of_read _ ⟨true, false, ⟨0x0a050000#32, 16⟩, .zero, 0, 0, none, none, 0, 0⟩
  · decide +kernel
  · intro raw backendType parsed isConfig
    have enabled : raw.config.enableIPv4 := by rw [isConfig]
    have accepted : checkNetworkConfig raw.config =
        .ok ⟨true, false, ⟨0x0a050000#32, 16⟩, .zero, 0x0a050100#32, 0x0a05ff00#32, none, none, 24, 0⟩ := by
      rw [isConfig]
      decide
    have below : BelowTop
        ⟨true, false, ⟨0x0a050000#32, 16⟩, .zero, 0x0a050100#32, 0x0a05ff00#32, none, none, 24, 0⟩ := by
      rw [BelowTop]
      decide
    refine ⟨enabled, _, accepted,
      (allocateSubnet_correct_iff parsed enabled accepted nofun).mpr ?_⟩
    refine ⟨.inl nofun, fun atTop => ?_, fun atTop => ?_⟩
    · exact absurd below atTop
    · exact absurd below atTop

/-- In a network at the end of the address space the loop wraps and finds subnets outside of the
range. -/
theorem allocateSubnet_not_correct_at_top :
    ∃ raw backendType,
      parseConfig "\x7b\"Network\":\"255.255.240.0/20\"\x7d" = some (raw, backendType) ∧
        raw.config.enableIPv4 = true ∧ ∃ checked, checkNetworkConfig raw.config = .ok checked ∧
          ¬ Returns (Correct checked []) (allocateSubnet checked []) := by
  apply @exists_of_read _ ⟨true, false, ⟨0xfffff000#32, 20⟩, .zero, 0, 0, none, none, 0, 0⟩
  · decide +kernel
  · intro raw backendType _ isConfig
    rw [isConfig]
    refine ⟨rfl, ⟨true, false, ⟨0xfffff000#32, 20⟩, .zero, 0xfffff100#32, 0xffffff00#32, none, none, 24, 0⟩,
      ?_, ?_⟩
    · decide +kernel
    · have grid : IPv4Grid ⟨true, false, ⟨0xfffff000#32, 20⟩, .zero, 0xfffff100#32, 0xffffff00#32, none,
          none, 24, 0⟩ := ⟨by decide, by decide +kernel, by decide⟩
      have atTop : ¬ BelowTop ⟨true, false, ⟨0xfffff000#32, 20⟩, .zero, 0xfffff100#32, 0xffffff00#32, none,
          none, 24, 0⟩ := by
        rw [BelowTop]
        decide
      rw [returns_correct_iff_allocatable grid nofun nofun]
      intro allocatable
      rcases allocatable.roomy atTop nofun with enough | noneBefore
      · -- the range has fifteen subnets
        rw [@ncard_open _ [] grid atTop 15 (by decide)] at enough
        exact absurd (enough.trans Loop.length_kept_le) (by decide)
      · exact absurd (noneBefore 0#32 (by decide +kernel) nofun) (by decide)

end Flannel.Etcd
