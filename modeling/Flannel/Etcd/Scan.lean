import Flannel.Program.Orbit
import Flannel.Etcd.LocalManager
import Flannel.Subnet.Range

/-!
# The loops of an allocation

`allocateSubnet` looks for free subnets from the lower bound upwards, in loops along an orbit. The
IPv6 loop always ends. Addresses of IPv4 wrap around: that loop ends if it meets a subnet above
the upper bound or a free one, and runs without end otherwise.
-/

namespace Flannel.Etcd

open Ip Leases Net Program Subnet

/-! ## IPv4 -/

def ipv4Loop (subnetMax : IP4) (leases : List Lease) : Loop IP4Net where
  next := IP4Net.next
  inside sn := decide (sn.ip ≤ subnetMax)
  keep sn := !leases.any fun l => sn.overlaps l.subnet
  limit := 100

section IPv4

variable {subnetMax : IP4} {leases : List Lease}

theorem scanIPv4_eq_gather {rounds : Nat} {sn : IP4Net} {found : List IP4Net} :
    scanIPv4 subnetMax leases rounds sn (found.map IP4Net.ip) =
      ((ipv4Loop subnetMax leases).gather rounds sn found).map (List.map IP4Net.ip) := by
  induction rounds generalizing sn found with
  | zero => rfl
  | succ rounds ih =>
    by_cases goesOn : sn.ip ≤ subnetMax ∧ found.length < 100
    · have goesOn' : (ipv4Loop subnetMax leases).inside sn ∧
          found.length < (ipv4Loop subnetMax leases).limit := ⟨decide_eq_true goesOn.1, goesOn.2⟩
      rw [scanIPv4, List.length_map, if_pos goesOn, Loop.gather, if_pos goesOn']
      cases taken : leases.any fun l => sn.overlaps l.subnet with
      | true =>
        have skipped : (ipv4Loop subnetMax leases).keep sn = false := by simp only [ipv4Loop, taken, Bool.not_true]
        rw [if_pos rfl, skipped]
        exact ih
      | false =>
        have kept : (ipv4Loop subnetMax leases).keep sn := by simp only [ipv4Loop, taken, Bool.not_false]
        have grown : found.map IP4Net.ip ++ [sn.ip] = (found ++ [sn]).map IP4Net.ip := by
          rw [List.map_append, List.map_singleton]
        rw [if_neg Bool.false_ne_true, kept, if_pos rfl, grown]
        exact ih
    · have ends : ¬ ((ipv4Loop subnetMax leases).inside sn ∧
          found.length < (ipv4Loop subnetMax leases).limit) := fun goesOn' =>
        goesOn ⟨of_decide_eq_true goesOn'.1, goesOn'.2⟩
      rw [scanIPv4, List.length_map, if_neg goesOn, Loop.gather, if_neg ends]
      rfl

def ipv4Step (len : Nat) : IP4 :=
  if len ≤ 32 then 1#32 <<< (32 - len) else 0

theorem iterate_next (sn : IP4Net) (k : Nat) :
    IP4Net.next^[k] sn = ⟨sn.ip + BitVec.ofNat 32 k * ipv4Step sn.prefixLen, sn.prefixLen⟩ := by
  induction k with
  | zero => simp
  | succ k ih =>
    rw [Function.iterate_succ_apply', ih, IP4Net.next, ← ipv4Step, Nat.add_comm k 1, BitVec.ofNat_add,
      BitVec.add_mul, BitVec.one_mul, BitVec.add_assoc, BitVec.add_comm (ipv4Step sn.prefixLen)]

theorem iterate_next_returns (sn : IP4Net) : IP4Net.next^[2 ^ 32] sn = sn := by
  have turn : BitVec.ofNat 32 (2 ^ 32) = 0#32 := by decide
  rw [iterate_next, turn, BitVec.zero_mul, BitVec.add_zero]

def Meets (subnetMax : IP4) (leases : List Lease) (sn : IP4Net) : Prop :=
  subnetMax < sn.ip ∨ ∀ l ∈ leases, sn.overlaps l.subnet = false

theorem keep_ipv4Loop_iff {sn : IP4Net} :
    (ipv4Loop subnetMax leases).keep sn ↔ ∀ l ∈ leases, sn.overlaps l.subnet = false := by
  simp [ipv4Loop]

theorem meets_iff {sn : IP4Net} :
    Meets subnetMax leases sn ↔
      (ipv4Loop subnetMax leases).inside sn = false ∨ (ipv4Loop subnetMax leases).keep sn := by
  rw [Meets, keep_ipv4Loop_iff, ipv4Loop, decide_eq_false_iff_not, BitVec.not_le]

theorem isSome_scanIPv4_iff {rounds : Nat} {start : IP4Net} :
    (scanIPv4 subnetMax leases rounds start []).isSome ↔
      ∃ m < rounds, (ipv4Loop subnetMax leases).Ends start m := by
  have same := @scanIPv4_eq_gather subnetMax leases rounds start []
  rw [List.map_nil] at same
  rw [same, Option.isSome_map, Loop.isSome_gather_iff]

theorem ipv4Loop_limit_pos : 0 < (ipv4Loop subnetMax leases).limit :=
  Nat.succ_pos 99

theorem isSome_scanIPv4_rounds_iff {start : IP4Net} :
    (scanIPv4 subnetMax leases ipv4Rounds start []).isSome ↔
      ∃ k, Meets subnetMax leases (IP4Net.next^[k] start) := by
  rw [isSome_scanIPv4_iff]
  simp only [meets_iff]
  refine Iff.trans ?_ (@Loop.exists_ends_iff _ (ipv4Loop subnetMax leases) start (2 ^ 32)
    iterate_next_returns (by decide) ipv4Loop_limit_pos)
  exact exists_congr fun m => and_congr_left' Nat.lt_succ_iff

theorem exists_scanIPv4_iff {start : IP4Net} :
    (∃ rounds, (scanIPv4 subnetMax leases rounds start []).isSome) ↔
      ∃ k, Meets subnetMax leases (IP4Net.next^[k] start) := by
  constructor
  · rintro ⟨rounds, ends⟩
    obtain ⟨m, _, ends⟩ := isSome_scanIPv4_iff.mp ends
    obtain ⟨k, meets⟩ := Loop.exists_of_ends ipv4Loop_limit_pos ends
    exact ⟨k, meets_iff.mpr meets⟩
  · intro meets
    exact ⟨ipv4Rounds, isSome_scanIPv4_rounds_iff.mpr meets⟩

end IPv4

/-! ## IPv6 -/

def ipv6Loop (highest : IP6) (len : Nat) (leases : List Lease) : Loop IP6 where
  next ip6 := ip6 + 2 ^ (128 - len)
  inside ip6 := decide (ip6 ≤ highest)
  keep ip6 := leases.all fun l => IP6Net.overlaps ⟨some ip6, len⟩ l.ipv6Subnet == some false
  limit := 100

section IPv6

variable {highest : IP6} {len : Nat} {leases : List Lease}

theorem point_ipv6Loop (lowest : IP6) (k : Nat) :
    (ipv6Loop highest len leases).point lowest k = lowest + k * 2 ^ (128 - len) := by
  induction k with
  | zero => simp
  | succ k ih =>
    rw [Loop.point_succ, ih, ipv6Loop]
    dsimp only
    rw [Nat.succ_mul, Nat.add_assoc]

theorem keep_ipv6Loop_iff {ip6 : IP6} :
    (ipv6Loop highest len leases).keep ip6 ↔
      ∀ l ∈ leases, IP6Net.overlaps ⟨some ip6, len⟩ l.ipv6Subnet = some false := by
  simp [ipv6Loop]

theorem overlapsAny_eq_some (isSet : ∀ l ∈ leases, l.ipv6Subnet.ip.isSome) (ip6 : IP6) :
    overlapsAny ⟨some ip6, len⟩ leases = some !(ipv6Loop highest len leases).keep ip6 := by
  induction leases with
  | nil => rfl
  | cons l leases ih =>
    obtain ⟨other, isOther⟩ := Option.isSome_iff_exists.mp (isSet l (.head _))
    have later := ih fun l mem => isSet l (.tail _ mem)
    obtain ⟨overlap, isOverlap⟩ : ∃ overlap,
        IP6Net.overlaps ⟨some ip6, len⟩ l.ipv6Subnet = some overlap := by
      rw [IP6Net.overlaps, isOther]
      exact ⟨_, rfl⟩
    rw [overlapsAny, isOverlap]
    cases overlap with
    | true => simp [ipv6Loop, isOverlap]
    | false =>
      dsimp only
      rw [later]
      simp [ipv6Loop, isOverlap]

theorem scanIPv6_succ_of_le {rounds : Nat} {ip6 : IP6} {found : List (Option IP6)}
    (le : ip6 ≤ highest) (room : found.length < 100) (valid : len ≤ 128)
    (isSet : ∀ l ∈ leases, l.ipv6Subnet.ip.isSome) :
    scanIPv6 (some highest) leases (rounds + 1) ⟨some ip6, len⟩ found =
      scanIPv6 (some highest) leases rounds ⟨some (ip6 + 2 ^ (128 - len)), len⟩
        (if (ipv6Loop highest len leases).keep ip6 then found ++ [some ip6] else found) := by
  have moved : IP6Net.next ⟨some ip6, len⟩ = some ⟨some (ip6 + 2 ^ (128 - len)), len⟩ := by
    rw [IP6Net.next, if_pos valid]
    rfl
  have compared : IP6.cmp (some ip6) (some highest) = some (compare ip6 highest) := rfl
  rw [scanIPv6, compared, if_pos room, moved, @overlapsAny_eq_some highest len leases isSet ip6]
  cases order : compare ip6 highest with
  | gt => exact absurd (Nat.compare_eq_gt.mp order) (Nat.not_lt.mpr le)
  | lt => cases (ipv6Loop highest len leases).keep ip6 <;> rfl
  | eq => cases (ipv6Loop highest len leases).keep ip6 <;> rfl

theorem scanIPv6_succ_of_ends {rounds : Nat} {ip6 : IP6} {found : List (Option IP6)}
    (ends : ¬ (ip6 ≤ highest ∧ found.length < 100)) :
    scanIPv6 (some highest) leases (rounds + 1) ⟨some ip6, len⟩ found =
      some (found, ⟨some ip6, len⟩) := by
  have compared : IP6.cmp (some ip6) (some highest) = some (compare ip6 highest) := rfl
  rw [scanIPv6, compared]
  cases order : compare ip6 highest with
  | gt => rfl
  | lt =>
    have le := Nat.le_of_lt (Nat.compare_eq_lt.mp order)
    exact if_neg fun room => ends ⟨le, room⟩
  | eq =>
    have le := Nat.le_of_eq (Nat.compare_eq_eq.mp order)
    exact if_neg fun room => ends ⟨le, room⟩

theorem scanIPv6_eq_gather (valid : len ≤ 128) (isSet : ∀ l ∈ leases, l.ipv6Subnet.ip.isSome)
    {rounds : Nat} {ip6 : IP6} {found : List IP6} :
    ∃ stop, scanIPv6 (some highest) leases rounds ⟨some ip6, len⟩ (found.map some) =
      ((ipv6Loop highest len leases).gather rounds ip6 found).map
        fun ip6s => (ip6s.map some, ⟨some stop, len⟩) := by
  induction rounds generalizing ip6 found with
  | zero => exact ⟨0, rfl⟩
  | succ rounds ih =>
    by_cases goesOn : ip6 ≤ highest ∧ found.length < 100
    · have goesOn' : (ipv6Loop highest len leases).inside ip6 ∧
          found.length < (ipv6Loop highest len leases).limit := ⟨decide_eq_true goesOn.1, goesOn.2⟩
      have grown : (if (ipv6Loop highest len leases).keep ip6 then found.map some ++ [some ip6]
          else found.map some) =
            (if (ipv6Loop highest len leases).keep ip6 then found ++ [ip6] else found).map some := by
        split_ifs <;> simp
      rw [scanIPv6_succ_of_le goesOn.1 ((List.length_map _).trans_lt goesOn.2) valid isSet, grown,
        Loop.gather, if_pos goesOn']
      exact ih
    · have ends : ¬ ((ipv6Loop highest len leases).inside ip6 ∧
          found.length < (ipv6Loop highest len leases).limit) := fun goesOn' =>
        goesOn ⟨of_decide_eq_true goesOn'.1, goesOn'.2⟩
      refine ⟨ip6, ?_⟩
      rw [scanIPv6_succ_of_ends (by rwa [List.length_map]), Loop.gather, if_neg ends]
      rfl

theorem exists_endsAt_ipv6Loop {highest : Nat} (lowest : Nat) :
    ∃ m < highest + 2, (ipv6Loop highest len leases).EndsAt lowest m := by
  have ends : (ipv6Loop highest len leases).Ends lowest (highest + 1) := by
    rintro ⟨inside, _⟩
    rw [point_ipv6Loop] at inside
    have le : lowest + (highest + 1) * 2 ^ (128 - len) ≤ highest := of_decide_eq_true inside
    have grows : highest + 1 ≤ (highest + 1) * 2 ^ (128 - len) :=
      Nat.le_mul_of_pos_right _ (Nat.two_pow_pos _)
    omega
  obtain ⟨m, le, endsAt⟩ := Loop.exists_endsAt ends
  exact ⟨m, Nat.lt_succ_of_le le, endsAt⟩

end IPv6

/-! ## Termination -/

/-- Both loops of `allocateSubnet` stop after finitely many rounds. The IPv6 loop is entered only
with a subnet that is set. -/
structure LoopsStop (config : Config) (leases : List Lease) : Prop where
  ipv4 : ∃ rounds,
    (scanIPv4 config.subnetMax leases rounds ⟨config.subnetMin, config.subnetLen⟩ []).isSome
  ipv6 : config.enableIPv6 = true →
    IP6Net.empty ⟨config.ipv6SubnetMin, config.ipv6SubnetLen⟩ = false → ∃ rounds,
      (scanIPv6 config.ipv6SubnetMax leases rounds
        ⟨config.ipv6SubnetMin, config.ipv6SubnetLen⟩ []).isSome

/-- For an accepted configuration, `allocateSubnet` terminates exactly if one of the subnets its
IPv4 loop meets lies above `SubnetMax` or overlaps no lease. -/
theorem loopsStop_iff {config checked : Config} {leases : List Lease}
    (accepted : checkNetworkConfig config = .ok checked)
    (isSet : checked.enableIPv6 = true → ∀ l ∈ leases, l.ipv6Subnet.ip.isSome) :
    LoopsStop checked leases ↔
      ∃ k, Meets checked.subnetMax leases
        (IP4Net.next^[k] ⟨checked.subnetMin, checked.subnetLen⟩) := by
  rw [← exists_scanIPv4_iff]
  constructor
  · exact LoopsStop.ipv4
  · intro ipv4
    refine ⟨ipv4, fun enabled _ => ?_⟩
    obtain ⟨lengths, ⟨lowest, isLowest, _⟩, highest, isHighest, _⟩ :=
      (checkNetworkConfig_eq_ok accepted).2 enabled
    obtain ⟨m, lt, endsAt⟩ := @exists_endsAt_ipv6Loop checked.ipv6SubnetLen leases highest lowest
    obtain ⟨stop, same⟩ := @scanIPv6_eq_gather highest checked.ipv6SubnetLen leases (by omega)
      (isSet enabled) (highest + 2) lowest []
    refine ⟨highest + 2, ?_⟩
    rw [List.map_nil] at same
    rw [isLowest, isHighest, same, Loop.gather_eq_some_iff.mpr ⟨m, lt, endsAt, rfl⟩]
    rfl

def heldLease (subnet : IP4Net) (ipv6Subnet : IP6Net) : Lease :=
  ⟨true, ipv6Subnet.ip.isSome, subnet, ipv6Subnet, .zero, 1, 0⟩

theorem loopsStop_beside_lease :
    ∃ raw backendType,
      parseConfig "\x7b\"Network\":\"10.5.0.0/16\"\x7d" = some (raw, backendType) ∧
        ∃ checked, checkNetworkConfig raw.config = .ok checked ∧
          LoopsStop checked [heldLease ⟨0x0a050100#32, 24⟩ .zero] := by
  apply @exists_of_read _ ⟨true, false, ⟨0x0a050000#32, 16⟩, .zero, 0, 0, none, none, 0, 0⟩
  · decide +kernel
  · intro raw backendType _ isConfig
    have accepted : checkNetworkConfig raw.config =
        .ok ⟨true, false, ⟨0x0a050000#32, 16⟩, .zero, 0x0a050100#32, 0x0a05ff00#32, none, none, 24, 0⟩ := by
      rw [isConfig]
      decide
    refine ⟨_, accepted, (loopsStop_iff accepted nofun).mpr ⟨1, .inr ?_⟩⟩
    decide

/-- With IPv6 only, the step of the IPv4 loop is zero, and one lease keeps it from ending. -/
theorem not_loopsStop_of_ipv6_only :
    ∃ raw backendType,
      parseConfig "\x7b\"EnableIPv4\":false,\"EnableIPv6\":true,\"IPv6Network\":\"fc00::/48\"\x7d" =
          some (raw, backendType) ∧
        ∃ checked, checkNetworkConfig raw.config = .ok checked ∧
          ¬ LoopsStop checked
            [heldLease ⟨0x0a050100#32, 24⟩ ⟨some (0xfc00 * 2 ^ 112 + 2 ^ 64), 64⟩] := by
  apply @exists_of_read _
    ⟨false, true, ⟨0, 0⟩, ⟨some (0xfc00 * 2 ^ 112), 48⟩, 0, 0, none, none, 0, 0⟩
  · decide +kernel
  · intro raw backendType _ isConfig
    rw [isConfig]
    refine ⟨⟨false, true, ⟨0, 0⟩, ⟨some (0xfc00 * 2 ^ 112), 48⟩, 0, 0,
      some (0xfc00 * 2 ^ 112 + 2 ^ 64), some (0xfc00 * 2 ^ 112 + 2 ^ 80 - 2 ^ 64), 0, 64⟩, ?_, ?_⟩
    · decide
    · intro stops
      obtain ⟨k, meets⟩ := exists_scanIPv4_iff.mp stops.ipv4
      have stays : IP4Net.next^[k] ⟨0, 0⟩ = ⟨0, 0⟩ := by
        apply Function.iterate_fixed
        decide
      rw [stays] at meets
      rcases meets with above | free
      · exact absurd above (by decide)
      · exact absurd (free _ (.head _)) (by decide)

end Flannel.Etcd
