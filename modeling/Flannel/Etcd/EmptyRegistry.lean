import Flannel.Etcd.Completeness

/-!
# The first allocation

With no lease every subnet is free, so the loops collect the first hundred subnets from the lower
bounds on. They lie in the networks unless a range is empty, ends with the last subnet of the
address space, or has an IPv6 bound that only seems to lie in its network.
-/

namespace Flannel.Etcd

open Ip Leases Net Program Subnet

def Placed (config : Config) : Except Error (IP4Net × IP6Net) → Prop
  | .ok (sn, sn6) =>
    sn.addresses ⊆ config.network.addresses ∧
      (config.enableIPv6 = true → sn6.ip.isSome ∧ sn6.addresses ⊆ config.ipv6Network.addresses)
  | .error _ => False

structure SufficientIPv4 (config : Config) : Prop where
  ordered : config.subnetMin ≤ config.subnetMax
  fits : ¬ BelowTop config →
    config.subnetMin.toNat + 99 * 2 ^ (32 - config.subnetLen) ≤ config.subnetMax.toNat

structure SufficientIPv6 (config : Config) (lowest highest : Nat) : Prop where
  ordered : lowest ≤ highest
  first : BitVec.ofNat 128 lowest ∈ config.ipv6Network.addresses
  last : BitVec.ofNat 128 (min highest (lowest + 99 * 2 ^ (128 - config.ipv6SubnetLen))) ∈
    config.ipv6Network.addresses

section IPv4

variable {config checked : Config}

theorem apartIPv4_nil (start : IP4) : ApartIPv4 checked [] start :=
  nofun

theorem zero_not_mem (range : IPv4Range config checked) (atTop : ¬ BelowTop checked) :
    (0#32 : IP4) ∉ config.network.addresses := by
  obtain ⟨aligned, long⟩ := range.networkAligned
  have lengths := range.len
  have maxInside := range.maxInside
  have half : 2 ^ (32 - config.network.prefixLen) ≤ 2 ^ 31 :=
    Nat.pow_le_pow_right (by decide) (by omega)
  have size : 2 ^ (32 - checked.subnetLen) ≤ 2 ^ 29 := Nat.pow_le_pow_right (by decide) (by omega)
  rw [IP4Net.addresses_eq_block (by omega), mem_block_iff aligned] at maxInside ⊢
  rw [BelowTop] at atTop
  rw [BitVec.toNat_zero]
  omega

theorem availableIPs_nil_of_atTop (grid : IPv4Grid checked) (atTop : ¬ BelowTop checked)
    {ips : List IP4} (found : availableIPs checked [] = some ips) :
    ips = (List.range 100).map fun k => (gridIPv4 checked [] k).ip := by
  obtain ⟨m, -, endsAt, rfl⟩ := availableIPs_eq_some_iff.mp found
  have hundred := endsAt.length_of_inside (inside_gridIPv4 grid atTop m) ipv4Loop_limit_pos
  have all : ∀ sn, (searchIPv4 checked []).keep sn := fun _ => rfl
  rw [Loop.kept_of_all all, List.length_map, List.length_range] at hundred
  rw [Loop.kept_of_all all, hundred, List.map_map]
  rfl

theorem availableIPs_nil (range : IPv4Range config checked) :
    ∃ ips, availableIPs checked [] = some ips ∧
      (ips ≠ [] ∧ (∀ ip ∈ ips, block checked.subnetLen ip ⊆ config.network.addresses) ↔
        SufficientIPv4 checked) := by
  have grid := grid_of_range range
  by_cases below : BelowTop checked
  · obtain ⟨ips, found, isOpen, nothing⟩ := @availableIPs_of_belowTop checked [] grid below
    refine ⟨ips, found, ?_⟩
    constructor
    · rintro ⟨nonempty, _⟩
      obtain ⟨ip, mem⟩ := List.exists_mem_of_ne_nil _ nonempty
      exact ⟨BitVec.le_trans (isOpen ip mem).low (isOpen ip mem).high, fun atTop => absurd below atTop⟩
    · intro sufficient
      constructor
      · intro isNil
        exact nothing isNil checked.subnetMin
          ⟨grid.minAligned, BitVec.le_refl _, sufficient.ordered, apartIPv4_nil _⟩
      · intro ip mem
        exact range.inside (isOpen ip mem).low (isOpen ip mem).high
  · obtain ⟨ips, found⟩ := Option.isSome_iff_exists.mp
      ((@isSome_availableIPs_iff checked [] grid below).mpr
        ⟨checked.subnetMin, grid.minAligned, apartIPv4_nil _⟩)
    have isHundred := availableIPs_nil_of_atTop grid below found
    refine ⟨ips, found, ?_⟩
    rw [isHundred]
    constructor
    · rintro ⟨_, inside⟩
      refine ⟨le_subnetMax_of_aligned below grid.minAligned, fun _ => ?_⟩
      by_contra short
      -- the loop has reached the start of the address space
      obtain ⟨turn, isTurn⟩ := @exists_grid_wrapped checked grid 0#32 (by simp [Aligned])
      rw [BitVec.toNat_zero, Nat.zero_add] at isTurn
      have reached : turn < 100 := by
        apply Nat.lt_of_mul_lt_mul_right (a := 2 ^ (32 - checked.subnetLen))
        rw [BelowTop] at below
        omega
      have here : (gridIPv4 checked [] turn).ip = 0#32 := by
        apply BitVec.eq_of_toNat_eq
        rw [toNat_gridIPv4 grid, isTurn]
        rfl
      have mem := inside _ (List.mem_map_of_mem (List.mem_range.mpr reached)) (self_mem_block _ _)
      rw [here] at mem
      exact zero_not_mem range below mem
    · intro sufficient
      refine ⟨List.map_eq_nil_iff.not.mpr (by decide), fun ip mem => ?_⟩
      obtain ⟨k, isK, rfl⟩ := List.mem_map.mp mem
      have small : k ≤ 99 := Nat.le_of_lt_succ (List.mem_range.mp isK)
      have earlier := Nat.mul_le_mul_right (2 ^ (32 - checked.subnetLen)) small
      have fits := sufficient.fits below
      have bound := checked.subnetMax.isLt
      have number : (gridIPv4 checked [] k).ip.toNat =
          checked.subnetMin.toNat + k * 2 ^ (32 - checked.subnetLen) := by
        rw [toNat_gridIPv4 grid, Nat.mod_eq_of_lt (by omega)]
      apply range.inside
      · change checked.subnetMin.toNat ≤ _
        omega
      · change _ ≤ checked.subnetMax.toNat
        omega

end IPv4

section IPv6

variable {config : Config} {lowest highest : Nat}

theorem mem_kept_nil_iff {len m ip6 : Nat} (endsAt : (ipv6Loop highest len []).EndsAt lowest m) :
    ip6 ∈ (ipv6Loop highest len []).kept lowest m ↔
      ip6 ≤ highest ∧ ∃ k < 100, lowest + k * 2 ^ (128 - len) = ip6 := by
  have all : ∀ ip6, (ipv6Loop highest len []).keep ip6 := fun _ => rfl
  have length_kept : ∀ k, ((ipv6Loop highest len []).kept lowest k).length = k := by
    intro k
    rw [Loop.kept_of_all all, List.length_map, List.length_range]
  simp only [Loop.mem_kept_iff, all, true_and, point_ipv6Loop]
  constructor
  · rintro ⟨k, lt, rfl⟩
    have inside := of_decide_eq_true (endsAt.inside_of_lt lt)
    have length := endsAt.length_lt_of_lt lt
    rw [point_ipv6Loop] at inside
    rw [length_kept] at length
    exact ⟨inside, k, length, rfl⟩
  · rintro ⟨inside, k, lt, rfl⟩
    refine ⟨k, Nat.lt_of_not_le fun ended => endsAt.1 ⟨decide_eq_true ?_, ?_⟩, rfl⟩
    · rw [point_ipv6Loop]
      exact (Nat.add_le_add_left (Nat.mul_le_mul_right _ ended) _).trans inside
    · rw [length_kept]
      exact Nat.lt_of_le_of_lt ended lt

theorem availableIPv6s_nil (enabled : config.enableIPv6)
    (lengths : config.ipv6Network.prefixLen ≤ config.ipv6SubnetLen ∧
      1 ≤ config.ipv6SubnetLen ∧ config.ipv6SubnetLen ≤ 128)
    (isLowest : config.ipv6SubnetMin = some lowest) (isHighest : config.ipv6SubnetMax = some highest)
    (lowAligned : lowest < 2 ^ 128 ∧ Aligned config.ipv6SubnetLen (BitVec.ofNat 128 lowest))
    (highAligned : highest < 2 ^ 128 ∧ Aligned config.ipv6SubnetLen (BitVec.ofNat 128 highest)) :
    ∃ ip6s sn6, availableIPv6s config [] = some (ip6s.map some, sn6) ∧ sn6.empty = false ∧
      (ip6s ≠ [] ∧ (∀ ip6 ∈ ip6s, block config.ipv6SubnetLen (BitVec.ofNat 128 ip6) ⊆
          config.ipv6Network.addresses) ↔
        SufficientIPv6 config lowest highest) := by
  obtain ⟨m, sn6, endsAt, notEmpty, found⟩ := @availableIPv6s_eq_kept config [] enabled lengths.2
    lowest highest isLowest isHighest nofun
  refine ⟨_, sn6, found, notEmpty, ?_⟩
  simp only [IP6Net.block_subset_addresses_iff lengths.1, mem_kept_nil_iff endsAt]
  have atStart : lowest + 0 * 2 ^ (128 - config.ipv6SubnetLen) = lowest := by
    rw [Nat.zero_mul, Nat.add_zero]
  constructor
  · rintro ⟨nonempty, inside⟩
    have ordered : lowest ≤ highest := by
      obtain ⟨ip6, mem⟩ := List.exists_mem_of_ne_nil _ nonempty
      obtain ⟨le, k, _, rfl⟩ := (mem_kept_nil_iff endsAt).mp mem
      exact (Nat.le_add_right _ _).trans le
    refine ⟨ordered, inside _ ⟨ordered, 0, by decide, atStart⟩, inside _ ⟨Nat.min_le_left _ _, ?_⟩⟩
    -- the last subnet is the upper bound or the hundredth one
    obtain ⟨k, rfl⟩ := exists_steps lowAligned highAligned ordered
    refine ⟨min k 99, by omega, ?_⟩
    rcases Nat.le_total k 99 with few | many
    · rw [Nat.min_eq_left few, Nat.min_eq_left]
      exact Nat.add_le_add_left (Nat.mul_le_mul_right _ few) _
    · rw [Nat.min_eq_right many, Nat.min_eq_right]
      exact Nat.add_le_add_left (Nat.mul_le_mul_right _ many) _
  · intro sufficient
    constructor
    · exact List.ne_nil_of_mem ((mem_kept_nil_iff endsAt).mpr ⟨sufficient.ordered, 0, by decide, atStart⟩)
    · rintro _ ⟨le, k, lt, rfl⟩
      have value := Nat.mod_eq_of_lt (le.trans_lt highAligned.1)
      apply IP6Net.mem_addresses_of_between sufficient.first sufficient.last
      · rw [BitVec.toNat_ofNat, value]
        exact Nat.le_add_right _ _
      · rw [BitVec.toNat_ofNat, value]
        apply Nat.le_min.mpr ⟨le, Nat.add_le_add_left (Nat.mul_le_mul_right _ ?_) _⟩
        exact Nat.le_of_lt_succ lt
      · exact (Nat.min_le_left _ _).trans_lt highAligned.1

end IPv6

theorem returns_placed_iff {config checked : Config} (range : IPv4Range config checked)
    (checkedIPv6 : checked.enableIPv6 → IPv6Checked checked) :
    Returns (Placed checked) (allocateSubnet checked []) ↔
      SufficientIPv4 checked ∧ (checked.enableIPv6 → ∀ lowest highest,
        checked.ipv6SubnetMin = some lowest → checked.ipv6SubnetMax = some highest →
          SufficientIPv6 checked lowest highest) := by
  obtain ⟨ips, found, ipv4⟩ := availableIPs_nil range
  have addresses : ∀ ip, IP4Net.addresses ⟨ip, checked.subnetLen⟩ = block checked.subnetLen ip := by
    intro ip
    have lengths := range.len
    exact IP4Net.addresses_eq_block (show checked.subnetLen ≤ 32 by omega)
  rw [← ipv4, ← range.network]
  cases enabled : checked.enableIPv6 with
  | false =>
    rw [@returns_allocateSubnet_iff checked [] _ ips [] _ found (availableIPv6s_of_single enabled)]
    constructor
    · rintro ⟨nonempty, single, _⟩
      refine ⟨⟨fun isNil => nonempty (.inl isNil), fun ip mem => ?_⟩, nofun⟩
      rw [← addresses]
      exact (single rfl ip mem).1
    · rintro ⟨⟨nonempty, inside⟩, _⟩
      refine ⟨?_, fun _ ip mem => ⟨?_, fun dual => ?_⟩, nofun⟩
      · rintro (isNil | absent)
        · exact nonempty isNil
        · exact absent (.inl rfl)
      · rw [addresses]
        exact inside ip mem
      · rw [enabled] at dual
        cases dual
  | true =>
    obtain ⟨lengths, ⟨lowest, isLowest, lowAligned⟩, highest, isHighest, highAligned⟩ :=
      checkedIPv6 enabled
    rw [checkIPv6Subnet_iff] at lowAligned highAligned
    obtain ⟨ip6s, sn6, found6, notEmpty, ipv6⟩ :=
      availableIPv6s_nil enabled (by omega) isLowest isHighest lowAligned highAligned
    have onlyBounds : (true → ∀ lowest highest, checked.ipv6SubnetMin = some lowest →
        checked.ipv6SubnetMax = some highest → SufficientIPv6 checked lowest highest) ↔
        SufficientIPv6 checked lowest highest := by
      constructor
      · exact fun all => all rfl lowest highest isLowest isHighest
      · intro sufficient _ lowest' highest' isLowest' isHighest'
        obtain rfl := Option.some.inj (isLowest.symm.trans isLowest')
        obtain rfl := Option.some.inj (isHighest.symm.trans isHighest')
        exact sufficient
    rw [onlyBounds, ← ipv6, returns_allocateSubnet_iff found found6, notEmpty]
    constructor
    · rintro ⟨nonempty, _, dual⟩
      have some : ips ≠ [] := fun isNil => nonempty (.inl isNil)
      have some6 : ip6s ≠ [] := fun isNil => nonempty (.inr (by simp [isNil]))
      obtain ⟨ip, mem⟩ := List.exists_mem_of_ne_nil _ some
      obtain ⟨ip6, mem6⟩ := List.exists_mem_of_ne_nil _ some6
      refine ⟨⟨some, fun ip mem => ?_⟩, some6, fun ip6 mem6 => ?_⟩
      · rw [← addresses]
        exact (dual rfl ip mem ip6 mem6).1
      · exact ((dual rfl ip mem ip6 mem6).2 enabled).2
    · rintro ⟨⟨some, inside⟩, some6, inside6⟩
      refine ⟨?_, nofun, fun _ ip mem ip6 mem6 => ⟨?_, fun _ => ⟨rfl, ?_⟩⟩⟩
      · rintro (isNil | absent)
        · exact some isNil
        · exact absent (.inr some6)
      · rw [addresses]
        exact inside ip mem
      · exact inside6 ip6 mem6

/-- For every accepted configuration with IPv4, the first allocation returns subnets of the
networks, whatever it chooses, exactly if the ranges are sufficient. -/
theorem firstAllocation_placed_iff {s backendType : String} {raw : RawConfig} {checked : Config}
    (parsed : parseConfig s = some (raw, backendType)) (enabled : raw.config.enableIPv4 = true)
    (accepted : checkNetworkConfig raw.config = .ok checked) :
    Returns (Placed checked) (allocateSubnet checked []) ↔
      SufficientIPv4 checked ∧ (checked.enableIPv6 = true → ∀ lowest highest,
        checked.ipv6SubnetMin = some lowest → checked.ipv6SubnetMax = some highest →
          SufficientIPv6 checked lowest highest) :=
  returns_placed_iff (range_of_accepted (decoded_of_parseConfig parsed) enabled accepted)
    (checkNetworkConfig_eq_ok accepted).2

theorem firstAllocation_placed_of_dual_stack :
    ∃ raw backendType,
      parseConfig "\x7b\"Network\":\"10.5.0.0/16\",\"EnableIPv6\":true,\"IPv6Network\":\"fc00::/48\"\x7d" =
          some (raw, backendType) ∧
        raw.config.enableIPv4 = true ∧ ∃ checked, checkNetworkConfig raw.config = .ok checked ∧
          Returns (Placed checked) (allocateSubnet checked []) := by
  apply @exists_of_read _
    ⟨true, true, ⟨0x0a050000#32, 16⟩, ⟨some (0xfc00 * 2 ^ 112), 48⟩, 0, 0, none, none, 0, 0⟩
  · decide +kernel
  · intro raw backendType parsed isConfig
    have enabled : raw.config.enableIPv4 := by rw [isConfig]
    have accepted : checkNetworkConfig raw.config =
        .ok ⟨true, true, ⟨0x0a050000#32, 16⟩, ⟨some (0xfc00 * 2 ^ 112), 48⟩, 0x0a050100#32,
          0x0a05ff00#32, some (0xfc00 * 2 ^ 112 + 2 ^ 64), some (0xfc00 * 2 ^ 112 + 2 ^ 80 - 2 ^ 64),
          24, 64⟩ := by
      rw [isConfig]
      decide
    refine ⟨enabled, _, accepted, (firstAllocation_placed_iff parsed enabled accepted).mpr ⟨?_, ?_⟩⟩
    · refine ⟨by decide, fun atTop => absurd ?_ atTop⟩
      rw [BelowTop]
      decide
    · rintro - _ _ ⟨rfl⟩ ⟨rfl⟩
      refine ⟨by decide, ?_, ?_⟩
      · rw [IP6Net.addresses_eq rfl]
        change _ = _
        decide
      · rw [IP6Net.addresses_eq rfl]
        change _ = _
        decide

/-- Bounds in the wrong order are accepted, and leave nothing to allocate. -/
theorem firstAllocation_not_placed_of_reversed :
    ∃ raw backendType,
      parseConfig "\x7b\"Network\":\"10.0.0.0/8\",\"SubnetMin\":\"10.9.0.0\",\"SubnetMax\":\"10.5.0.0\"\x7d" =
          some (raw, backendType) ∧
        raw.config.enableIPv4 = true ∧ ∃ checked, checkNetworkConfig raw.config = .ok checked ∧
          ¬ Returns (Placed checked) (allocateSubnet checked []) := by
  apply @exists_of_read _
    ⟨true, false, ⟨0x0a000000#32, 8⟩, .zero, 0x0a090000#32, 0x0a050000#32, none, none, 0, 0⟩
  · decide +kernel
  · intro raw backendType _ isConfig
    rw [isConfig]
    refine ⟨rfl, ⟨true, false, ⟨0x0a000000#32, 8⟩, .zero, 0x0a090000#32, 0x0a050000#32, none, none, 24, 0⟩,
      ?_, ?_⟩
    · decide
    · have outOfSubnets : allocateSubnet ⟨true, false, ⟨0x0a000000#32, 8⟩, .zero, 0x0a090000#32,
          0x0a050000#32, none, none, 24, 0⟩ [] = .ret (.error .outOfSubnets) := by
        rfl
      rw [outOfSubnets]
      exact returns_ret_iff.mp

end Flannel.Etcd
