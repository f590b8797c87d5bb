import Flannel.Subnet.Parse

/-!
# The ranges of an accepted configuration

What `CheckNetworkConfig` establishes. In IPv4 the bounds lie in the network and are aligned, the
defaults are the second and the last subnet, and checking again changes nothing.
-/

namespace Flannel.Subnet

open Net Ip

theorem chooseSubnetLen_again {limit largest roomy default networkLen len : Nat}
    {tooLong tooSmall : String} (lengths : networkLen + 2 ≤ len ∧ len ≤ limit) :
    chooseSubnetLen limit tooLong largest tooSmall roomy default len networkLen = .ok len := by
  rw [chooseSubnetLen, if_pos (by omega), if_neg (by omega), if_neg (by omega)]

theorem four_mul_le {width networkLen len : Nat} (longer : networkLen + 2 ≤ len) (short : len ≤ width) :
    4 * 2 ^ (width - len) ≤ 2 ^ (width - networkLen) :=
  calc
    4 * 2 ^ (width - len) = 2 ^ (2 + (width - len)) := by rw [Nat.pow_add]
    _ ≤ 2 ^ (width - networkLen) := Nat.pow_le_pow_right (by decide) (by omega)

/-! ## IPv4 -/

theorem chooseIPv4Bound_eq_ok_iff {config : Config} {bound default chosen : IP4} {message : String} :
    chooseIPv4Bound config bound default message = .ok chosen ↔
      bound = 0 ∧ chosen = default ∨
        bound ≠ 0 ∧ chosen = bound ∧ config.network.contains bound := by
  rw [chooseIPv4Bound]
  by_cases unset : bound = 0
  · rw [if_pos unset, Except.ok.injEq]
    simp only [unset, true_and, ne_eq, not_true_eq_false, false_and, or_false]
    exact eq_comm
  · rw [if_neg unset]
    cases inside : config.network.contains bound with
    | false =>
      simp only [unset, Bool.not_false, if_true, reduceCtorEq, false_and, Bool.false_eq_true,
        and_false, or_self]
    | true =>
      simp only [unset, Bool.not_true, Bool.false_eq_true, if_false, Except.ok.injEq, false_and,
        ne_eq, not_false_eq_true, true_and, and_true, false_or]
      exact eq_comm

theorem checkIPv4_eq_ok_iff {config checked : Config} :
    checkIPv4 config = .ok checked ↔
      config.network.empty = false ∧ ∃ len low high, chooseIPv4SubnetLen config = .ok len ∧
        chooseIPv4Bound config config.subnetMin (config.network.ip + 1#32 <<< (32 - len))
          "SubnetMin is not in the range of the Network" = .ok low ∧
        chooseIPv4Bound config config.subnetMax (config.network.next.ip - 1#32 <<< (32 - len))
          "SubnetMax is not in the range of the Network" = .ok high ∧
        Aligned len low ∧ Aligned len high ∧
        checked = { config with subnetLen := len, subnetMin := low, subnetMax := high } := by
  simp only [checkIPv4, bind_eq_ok_iff, failIf_eq_ok_iff, bne_eq_false_iff_eq]
  constructor
  · rintro ⟨-, notEmpty, len, chosen, low, isLow, high, isHigh, -, lowAligned, -, highAligned, done⟩
    cases done
    exact ⟨notEmpty, len, low, high, chosen, isLow, isHigh, lowAligned.symm, highAligned.symm, rfl⟩
  · rintro ⟨notEmpty, len, low, high, chosen, isLow, isHigh, lowAligned, highAligned, rfl⟩
    exact ⟨(), notEmpty, len, chosen, low, isLow, high, isHigh, (), lowAligned.symm, (),
      highAligned.symm, rfl⟩

structure IPv4Range (config checked : Config) : Prop where
  network : checked.network = config.network
  networkAligned : Aligned config.network.prefixLen config.network.ip ∧ 1 ≤ config.network.prefixLen
  len : config.network.prefixLen + 2 ≤ checked.subnetLen ∧ checked.subnetLen ≤ 30
  minAligned : Aligned checked.subnetLen checked.subnetMin
  maxAligned : Aligned checked.subnetLen checked.subnetMax
  minInside : checked.subnetMin ∈ config.network.addresses
  maxInside : checked.subnetMax ∈ config.network.addresses
  minDefault : config.subnetMin = 0 →
    checked.subnetMin.toNat = config.network.ip.toNat + 2 ^ (32 - checked.subnetLen)
  maxDefault : config.subnetMax = 0 →
    checked.subnetMax.toNat + 2 ^ (32 - checked.subnetLen) =
      config.network.ip.toNat + 2 ^ (32 - config.network.prefixLen)
  again : checkIPv4 checked = .ok checked

section IPv4

variable {n : IP4Net} {len : Nat}

theorem aligned_of_decoded (decoded : DecodedIPv4 n) (notEmpty : n.empty = false)
    (short : n.prefixLen ≤ 28) : Aligned n.prefixLen n.ip ∧ 1 ≤ n.prefixLen := by
  have aligned : Aligned n.prefixLen n.ip := by
    rcases decoded with ⟨valid, form⟩ | long
    · exact (IP4Net.inNetworkForm_iff valid).mp form
    · omega
  refine ⟨aligned, Nat.one_le_iff_ne_zero.mpr fun zero => ?_⟩
  have isZero : n.ip = 0 := by
    rw [zero] at aligned
    have ends := aligned.add_le
    apply BitVec.eq_of_toNat_eq
    change n.ip.toNat = 0
    omega
  simp [IP4Net.empty, zero, isZero] at notEmpty

theorem toNat_subnetSize (long : 1 ≤ len) : (1#32 <<< (32 - len)).toNat = 2 ^ (32 - len) := by
  have small : 2 ^ (32 - len) < 2 ^ 32 := Nat.pow_lt_pow_right (by decide) (by omega)
  rw [BitVec.toNat_shiftLeft, Nat.shiftLeft_eq, BitVec.toNat_ofNat,
    Nat.mod_eq_of_lt (show 1 < 2 ^ 32 by decide), Nat.one_mul, Nat.mod_eq_of_lt small]

theorem toNat_second (aligned : Aligned n.prefixLen n.ip) (longer : n.prefixLen < len)
    (short : len ≤ 32) : (n.ip + 1#32 <<< (32 - len)).toNat = n.ip.toNat + 2 ^ (32 - len) := by
  have size := @toNat_subnetSize len (by omega)
  have ends := aligned.add_le
  have smaller : 2 ^ (32 - len) < 2 ^ (32 - n.prefixLen) :=
    Nat.pow_lt_pow_right (by decide) (by omega)
  rw [BitVec.toNat_add, size, Nat.mod_eq_of_lt (by omega)]

theorem toNat_last (aligned : Aligned n.prefixLen n.ip) (valid : 1 ≤ n.prefixLen ∧ n.prefixLen ≤ 32)
    (longer : n.prefixLen ≤ len) :
    (n.next.ip - 1#32 <<< (32 - len)).toNat + 2 ^ (32 - len) = n.ip.toNat + 2 ^ (32 - n.prefixLen) := by
  have size := @toNat_subnetSize len (by omega)
  have networkSize := toNat_subnetSize valid.1
  have ends := aligned.add_le
  have smaller : 2 ^ (32 - len) ≤ 2 ^ (32 - n.prefixLen) :=
    Nat.pow_le_pow_right (by decide) (by omega)
  have next : n.next.ip = n.ip + 1#32 <<< (32 - n.prefixLen) := by
    rw [IP4Net.next, if_pos valid.2]
  rw [next, BitVec.toNat_sub, BitVec.toNat_add, size, networkSize]
  have positive : 0 < 2 ^ (32 - len) := Nat.two_pow_pos _
  have := n.ip.isLt
  generalize 2 ^ (32 - len) = s at *
  generalize 2 ^ (32 - n.prefixLen) = t at *
  omega

end IPv4

theorem checkIPv4_range {config checked : Config} (decoded : DecodedIPv4 config.network)
    (accepted : checkIPv4 config = .ok checked) : IPv4Range config checked := by
  have accepted' := accepted
  rw [checkIPv4_eq_ok_iff] at accepted'
  obtain ⟨notEmpty, len, low, high, chosen, isLow, isHigh, lowAligned, highAligned, rfl⟩ := accepted'
  have lengths := chooseSubnetLen_eq_ok (by decide) (by decide) (by decide) chosen
  obtain ⟨aligned, long⟩ := aligned_of_decoded decoded notEmpty (by omega)
  have isBlock := IP4Net.addresses_eq_block (n := config.network) (by omega)
  have second := @toNat_second config.network len aligned (by omega) (by omega)
  have last := @toNat_last config.network len aligned (by omega) (by omega)
  have fits := @four_mul_le 32 config.network.prefixLen len lengths.1 (by omega)
  have positive : 0 < 2 ^ (32 - len) := Nat.two_pow_pos _
  have low_spec : low ≠ 0 ∧ low ∈ config.network.addresses ∧
      (config.subnetMin = 0 → low.toNat = config.network.ip.toNat + 2 ^ (32 - len)) := by
    rcases chooseIPv4Bound_eq_ok_iff.mp isLow with ⟨unset, rfl⟩ | ⟨set, rfl, inside⟩
    · refine ⟨?_, ?_, fun _ => second⟩
      · intro zero
        rw [zero] at second
        change 0 = _ at second
        omega
      · rw [isBlock, mem_block_iff aligned, second]
        omega
    · exact ⟨set, inside, fun unset => absurd unset set⟩
  have high_spec : high ≠ 0 ∧ high ∈ config.network.addresses ∧
      (config.subnetMax = 0 → high.toNat + 2 ^ (32 - len) =
        config.network.ip.toNat + 2 ^ (32 - config.network.prefixLen)) := by
    rcases chooseIPv4Bound_eq_ok_iff.mp isHigh with ⟨unset, rfl⟩ | ⟨set, rfl, inside⟩
    · refine ⟨?_, ?_, fun _ => last⟩
      · intro zero
        rw [zero] at last
        change 0 + _ = _ at last
        omega
      · rw [isBlock, mem_block_iff aligned]
        omega
    · exact ⟨set, inside, fun unset => absurd unset set⟩
  have again : checkIPv4 { config with subnetLen := len, subnetMin := low, subnetMax := high } =
      .ok { config with subnetLen := len, subnetMin := low, subnetMax := high } := by
    refine checkIPv4_eq_ok_iff.mpr ⟨notEmpty, len, low, high, chooseSubnetLen_again lengths, ?_, ?_,
      lowAligned, highAligned, rfl⟩
    · exact chooseIPv4Bound_eq_ok_iff.mpr (.inr ⟨low_spec.1, rfl, low_spec.2.1⟩)
    · exact chooseIPv4Bound_eq_ok_iff.mpr (.inr ⟨high_spec.1, rfl, high_spec.2.1⟩)
  exact ⟨rfl, ⟨aligned, long⟩, lengths, lowAligned, highAligned, low_spec.2.1, high_spec.2.1,
    low_spec.2.2, high_spec.2.2, again⟩

/-! ## IPv6 -/

theorem chooseIPv6Bound_eq_ok_iff {config : Config} {bound default chosen : Option IP6}
    {message : String} :
    chooseIPv6Bound config bound default message = .ok chosen ↔
      isEmpty bound ∧ chosen = default ∨
        isEmpty bound = false ∧ chosen = bound ∧ config.ipv6Network.contains bound = some true := by
  rw [chooseIPv6Bound]
  cases unset : isEmpty bound with
  | true =>
    simp only [if_true, Except.ok.injEq, true_and, Bool.true_eq_false, false_and, or_false]
    exact eq_comm
  | false =>
    rcases inside : config.ipv6Network.contains bound with _ | _ | _ <;>
      simp [eq_comm]

theorem checkIPv6Boundary_eq_ok_iff {bound : IP6} {mask : BitVec 128} {message : String} {result : Unit} :
    checkIPv6Boundary bound mask message = .ok result ↔ checkIPv6Subnet bound mask := by
  rw [checkIPv6Boundary]
  split_ifs with onBoundary <;> simp [onBoundary]

theorem checkIPv6Subnet_iff {bound : IP6} {len : Nat} :
    checkIPv6Subnet bound (cidrMask 128 len) ↔
      bound < 2 ^ 128 ∧ Aligned len (BitVec.ofNat 128 bound) := by
  rw [checkIPv6Subnet, beq_iff_eq]
  constructor
  · intro same
    have small : bound < 2 ^ 128 := by
      rw [same]
      exact BitVec.isLt _
    refine ⟨small, BitVec.eq_of_toNat_eq ?_⟩
    rw [← same, BitVec.toNat_ofNat, Nat.mod_eq_of_lt small]
  · rintro ⟨small, aligned⟩
    rw [aligned, BitVec.toNat_ofNat, Nat.mod_eq_of_lt small]

theorem checkIPv6_eq_ok_iff {config checked : Config} :
    checkIPv6 config = .ok checked ↔
      config.ipv6Network.empty = false ∧ config.ipv6Network.prefixLen ≤ 128 ∧
        ∃ len networkIP low high, chooseIPv6SubnetLen config = .ok len ∧
          config.ipv6Network.ip = some networkIP ∧
          chooseIPv6Bound config config.ipv6SubnetMin (some (networkIP + 2 ^ (128 - len)))
            "IPv6SubnetMin is not in the range of the IPv6Network" = .ok (some low) ∧
          chooseIPv6Bound config config.ipv6SubnetMax
            (some (networkIP + 2 ^ (128 - config.ipv6Network.prefixLen) - 2 ^ (128 - len)))
            "IPv6SubnetMax is not in the range of the IPv6Network" = .ok (some high) ∧
          (low < 2 ^ 128 ∧ Aligned len (BitVec.ofNat 128 low)) ∧
          (high < 2 ^ 128 ∧ Aligned len (BitVec.ofNat 128 high)) ∧
          checked = { config with
            ipv6SubnetLen := len, ipv6SubnetMin := some low, ipv6SubnetMax := some high } := by
  simp only [checkIPv6, bind_eq_ok_iff, failIf_eq_ok_iff, orCrash_eq_ok_iff,
    checkIPv6Boundary_eq_ok_iff, checkIPv6Subnet_iff]
  constructor
  · rintro ⟨-, notEmpty, len, chosen, networkIP, isNetwork, next, isNext, nextIP, isNextIP, min, isMin,
      max, isMax, low, isLow, high, isHigh, -, lowAligned, -, highAligned, done⟩
    cases done
    subst isLow isHigh
    rw [IP6Net.next, isNetwork] at isNext
    split_ifs at isNext with valid
    cases isNext
    cases isNextIP
    exact ⟨notEmpty, valid, len, networkIP, low, high, chosen, isNetwork, isMin, isMax, lowAligned,
      highAligned, rfl⟩
  · rintro ⟨notEmpty, valid, len, networkIP, low, high, chosen, isNetwork, isMin, isMax, lowAligned,
      highAligned, rfl⟩
    have isNext : config.ipv6Network.next = some
        ⟨some (networkIP + 2 ^ (128 - config.ipv6Network.prefixLen)), config.ipv6Network.prefixLen⟩ := by
      rw [IP6Net.next, if_pos valid, isNetwork]
      rfl
    exact ⟨(), notEmpty, len, chosen, networkIP, isNetwork, _, isNext, _, rfl, _, isMin, _, isMax, low,
      rfl, high, rfl, (), lowAligned, (), highAligned, rfl⟩

/-- What a range of subnets should be: two aligned bounds such that every subnet that starts
between them lies in the network. -/
def Encloses (n : IP6Net) (len : Nat) (low high : IP6) : Prop :=
  low < 2 ^ 128 ∧ high < 2 ^ 128 ∧ Aligned len (BitVec.ofNat 128 low) ∧
    Aligned len (BitVec.ofNat 128 high) ∧
    ∀ start : BitVec 128, Aligned len start → low ≤ start.toNat → start.toNat ≤ high →
      block len start ⊆ n.addresses

section Enclosing

variable {n : IP6Net} {len : Nat} {low high : IP6}

theorem IP6Net.addresses_eq {n : IP6Net} {ip6 : IP6} (isIP : n.ip = some ip6) :
    n.addresses = block n.prefixLen (BitVec.ofNat 128 ip6) := by
  rw [IP6Net.addresses, isIP]

theorem IP6Net.mem_addresses_of_between {start : BitVec 128}
    (isLow : BitVec.ofNat 128 low ∈ n.addresses) (isHigh : BitVec.ofNat 128 high ∈ n.addresses)
    (le : low ≤ start.toNat) (le' : start.toNat ≤ high) (small : high < 2 ^ 128) :
    start ∈ n.addresses := by
  cases isIP : n.ip with
  | none =>
    rw [IP6Net.addresses, isIP] at isLow
    cases isLow
  | some ip6 =>
    rw [IP6Net.addresses_eq isIP] at isLow isHigh ⊢
    apply mem_block_of_between isLow isHigh
    · exact (Nat.mod_le _ _).trans le
    · rw [BitVec.toNat_ofNat, Nat.mod_eq_of_lt small]
      exact le'

theorem IP6Net.block_subset_addresses_iff {start : BitVec 128} (longer : n.prefixLen ≤ len) :
    block len start ⊆ n.addresses ↔ start ∈ n.addresses := by
  constructor
  · intro subset
    exact subset (self_mem_block _ _)
  · intro mem
    cases isIP : n.ip with
    | none =>
      rw [IP6Net.addresses, isIP] at mem
      cases mem
    | some ip6 =>
      rw [IP6Net.addresses_eq isIP] at mem ⊢
      exact block_subset longer mem

theorem encloses_iff (longer : n.prefixLen ≤ len)
    (lowAligned : low < 2 ^ 128 ∧ Aligned len (BitVec.ofNat 128 low))
    (highAligned : high < 2 ^ 128 ∧ Aligned len (BitVec.ofNat 128 high)) :
    Encloses n len low high ↔
      high < low ∨ BitVec.ofNat 128 low ∈ n.addresses ∧ BitVec.ofNat 128 high ∈ n.addresses := by
  have lowValue : (BitVec.ofNat 128 low).toNat = low := Nat.mod_eq_of_lt lowAligned.1
  have highValue : (BitVec.ofNat 128 high).toNat = high := Nat.mod_eq_of_lt highAligned.1
  constructor
  · rintro ⟨_, _, _, _, inside⟩
    rw [or_iff_not_imp_left, Nat.not_lt]
    intro le
    constructor
    · exact inside _ lowAligned.2 lowValue.ge (lowValue.trans_le le) (self_mem_block _ _)
    · exact inside _ highAligned.2 (le.trans_eq highValue.symm) highValue.le (self_mem_block _ _)
  · intro bounds
    refine ⟨lowAligned.1, highAligned.1, lowAligned.2, highAligned.2, fun start _ le le' => ?_⟩
    rcases bounds with empty | ⟨isLow, isHigh⟩
    · exact absurd (le.trans le') (Nat.not_le.mpr empty)
    · rw [IP6Net.block_subset_addresses_iff longer]
      exact IP6Net.mem_addresses_of_between isLow isHigh le le' highAligned.1

end Enclosing

section Network

variable {n : IP6Net} {networkIP ip6 : Nat}

theorem contains_iff (isIP : n.ip = some networkIP) (valid : n.prefixLen ≤ 128) :
    n.contains (some ip6) = some true ↔
      IP6.shown (BitVec.ofNat 128 networkIP &&& cidrMask 128 n.prefixLen) =
        IP6.shown (BitVec.ofNat 128 ip6 &&& cidrMask 128 n.prefixLen) := by
  rw [IP6Net.contains, isIP, ← maskedText_eq_iff, IP6Net.mask, if_pos valid]
  simp

theorem contains_of_mem (isIP : n.ip = some networkIP) (valid : n.prefixLen ≤ 128)
    (inside : BitVec.ofNat 128 ip6 ∈ n.addresses) : n.contains (some ip6) = some true := by
  rw [IP6Net.addresses_eq isIP] at inside
  exact (contains_iff isIP valid).mpr (congrArg IP6.shown inside)

/-- An address that seems to lie in a prefix and does not is above it if the prefix has a
number of four bytes, and below it otherwise. -/
theorem stray_order (isIP : n.ip = some networkIP) (valid : n.prefixLen ≤ 128)
    (small : networkIP < 2 ^ 128) (aligned : Aligned n.prefixLen (BitVec.ofNat 128 networkIP))
    (bounded : ip6 < 2 ^ 128) (contained : n.contains (some ip6) = some true)
    (outside : BitVec.ofNat 128 ip6 ∉ n.addresses) :
    (FourByte networkIP → networkIP + 2 ^ (128 - n.prefixLen) ≤ ip6) ∧
      (¬ FourByte networkIP → ip6 < networkIP) := by
  have value : (BitVec.ofNat 128 networkIP).toNat = networkIP := Nat.mod_eq_of_lt small
  have value' : (BitVec.ofNat 128 ip6).toNat = ip6 := Nat.mod_eq_of_lt bounded
  rw [contains_iff isIP valid, aligned] at contained
  rw [IP6Net.addresses_eq isIP, ← aligned] at outside
  -- the block of the address that was masked
  generalize isMasked : BitVec.ofNat 128 ip6 &&& cidrMask 128 n.prefixLen = masked at contained
  have maskedAligned : Aligned n.prefixLen masked := by
    rw [← isMasked]
    exact aligned_and_cidrMask _ _
  have inBlock : BitVec.ofNat 128 ip6 ∈ block n.prefixLen masked := by
    rw [← isMasked, block_and_cidrMask]
    exact self_mem_block _ _
  rw [mem_block_iff maskedAligned, value'] at inBlock
  have room : ∀ {bits : BitVec 128}, Aligned n.prefixLen bits → FourByte bits.toNat →
      2 ^ (128 - n.prefixLen) ≤ bits.toNat := by
    intro bits aligned fourByte
    have positive : 0 < bits.toNat := lt_of_lt_of_le (by decide) fourByte.1
    exact Nat.le_of_dvd positive ((aligned_iff_dvd _ _).mp aligned)
  rcases shown_eq_cases contained with same | ⟨fourByte, number⟩ | ⟨fourByte, number⟩
  · refine absurd ?_ outside
    rw [block_and_cidrMask]
    exact aligned.trans (same.trans isMasked.symm)
  · have := room aligned fourByte
    rw [value] at fourByte number this
    obtain ⟨low, high⟩ := fourByte
    exact ⟨fun _ => by omega, fun notFour => absurd ⟨low, high⟩ notFour⟩
  · have := room maskedAligned fourByte
    rw [value] at number
    obtain ⟨low, high⟩ := fourByte
    refine ⟨fun fourByte' => ?_, fun _ => by omega⟩
    have := fourByte'.2
    omega

theorem mem_addresses_iff (isIP : n.ip = some networkIP) (small : networkIP < 2 ^ 128)
    (aligned : Aligned n.prefixLen (BitVec.ofNat 128 networkIP)) (bounded : ip6 < 2 ^ 128) :
    BitVec.ofNat 128 ip6 ∈ n.addresses ↔
      networkIP ≤ ip6 ∧ ip6 < networkIP + 2 ^ (128 - n.prefixLen) := by
  rw [IP6Net.addresses_eq isIP, mem_block_iff aligned, BitVec.toNat_ofNat, BitVec.toNat_ofNat,
    Nat.mod_eq_of_lt small, Nat.mod_eq_of_lt bounded]

theorem mapped_bounds (bits : BitVec 32) :
    0xffff * 2 ^ 32 ≤ (Net.IP.mapped bits).toNat ∧ (Net.IP.mapped bits).toNat < 2 ^ 48 := by
  have := bits.isLt
  rw [toNat_mapped]
  omega

variable {bits : BitVec 32}

theorem mapped_and_cidrMask (short : n.prefixLen ≤ 32) :
    BitVec.ofNat 128 (Net.IP.mapped bits).toNat &&& cidrMask 128 n.prefixLen = 0 := by
  have below : (Net.IP.mapped bits).toNat < 2 ^ (128 - n.prefixLen) :=
    lt_of_lt_of_le (mapped_bounds bits).2 (Nat.pow_le_pow_right (by decide) (by omega))
  apply BitVec.eq_of_toNat_eq
  rw [toNat_and_cidrMask, BitVec.toNat_ofNat, Nat.mod_eq_of_lt (Net.IP.mapped bits).isLt,
    Nat.div_eq_of_lt below, Nat.zero_mul]
  rfl

theorem mem_mapped_iff (isIP : n.ip = some (Net.IP.mapped bits).toNat) (short : n.prefixLen ≤ 32)
    (bounded : ip6 < 2 ^ 128) :
    BitVec.ofNat 128 ip6 ∈ n.addresses ↔ ip6 < 2 ^ (128 - n.prefixLen) := by
  have aligned : Aligned n.prefixLen (0 : BitVec 128) := by
    rw [← @mapped_and_cidrMask n bits short]
    exact aligned_and_cidrMask _ _
  rw [IP6Net.addresses_eq isIP, ← block_and_cidrMask, mapped_and_cidrMask short, mem_block_iff aligned,
    BitVec.toNat_ofNat, Nat.mod_eq_of_lt bounded]
  simp

theorem mem_mapped_of_contains (isIP : n.ip = some (Net.IP.mapped bits).toNat)
    (short : n.prefixLen ≤ 32) (contained : n.contains (some ip6) = some true) :
    BitVec.ofNat 128 ip6 ∈ n.addresses := by
  rw [contains_iff isIP (by omega), mapped_and_cidrMask short] at contained
  rw [IP6Net.addresses_eq isIP]
  change _ = _
  rw [mapped_and_cidrMask short]
  rcases shown_eq_cases contained with same | ⟨fourByte, _⟩ | ⟨_, number⟩
  · exact same
  · exact absurd fourByte.1 (by decide)
  · change 0 = _ at number
    omega

end Network

def Strays (n : IP6Net) (bound : Option IP6) : Prop :=
  ∃ ip6, bound = some ip6 ∧ isEmpty bound = false ∧ BitVec.ofNat 128 ip6 ∉ n.addresses

/-- When the range of an accepted configuration is one of its network. An upper bound that is
not set needs a network written as one of IPv6. A bound may lie outside of the network if this
leaves the range empty. -/
structure SoundRange (config : Config) : Prop where
  upper : isEmpty config.ipv6SubnetMax = true → config.ipv6Network.IsPrefix
  lowStray : Strays config.ipv6Network config.ipv6SubnetMin →
    ¬ Strays config.ipv6Network config.ipv6SubnetMax →
    ∀ ip6, config.ipv6Network.ip = some ip6 → FourByte ip6
  highStray : Strays config.ipv6Network config.ipv6SubnetMax →
    ¬ Strays config.ipv6Network config.ipv6SubnetMin →
    ∀ ip6, config.ipv6Network.ip = some ip6 → ¬ FourByte ip6
  bothStray : Strays config.ipv6Network config.ipv6SubnetMin →
    Strays config.ipv6Network config.ipv6SubnetMax →
    ∀ low high, config.ipv6SubnetMin = some low → config.ipv6SubnetMax = some high → high < low

theorem bound_cases {config : Config} {bound : Option IP6} {default chosen : IP6} {message : String}
    (isBound : chooseIPv6Bound config bound (some default) message = .ok (some chosen))
    (inside : isEmpty bound → BitVec.ofNat 128 default ∈ config.ipv6Network.addresses) :
    BitVec.ofNat 128 chosen ∈ config.ipv6Network.addresses ∧ ¬ Strays config.ipv6Network bound ∨
      BitVec.ofNat 128 chosen ∉ config.ipv6Network.addresses ∧ Strays config.ipv6Network bound ∧
        bound = some chosen ∧ config.ipv6Network.contains (some chosen) = some true := by
  rcases chooseIPv6Bound_eq_ok_iff.mp isBound with ⟨unset, same⟩ | ⟨set, rfl, contained⟩
  · cases same
    refine .inl ⟨inside unset, ?_⟩
    rintro ⟨_, _, set, _⟩
    rw [unset] at set
    contradiction
  · by_cases mem : BitVec.ofNat 128 chosen ∈ config.ipv6Network.addresses
    · refine .inl ⟨mem, ?_⟩
      rintro ⟨_, same, _, outside⟩
      cases same
      exact outside mem
    · exact .inr ⟨mem, ⟨chosen, rfl, set, mem⟩, rfl, contained⟩

structure IPv6Choice (config : Config) (len networkIP low high : Nat) : Prop where
  notEmpty : config.ipv6Network.empty = false
  lengths : config.ipv6Network.prefixLen + 2 ≤ len ∧ len ≤ 126
  isIP : config.ipv6Network.ip = some networkIP
  isMin : chooseIPv6Bound config config.ipv6SubnetMin (some (networkIP + 2 ^ (128 - len)))
    "IPv6SubnetMin is not in the range of the IPv6Network" = .ok (some low)
  isMax : chooseIPv6Bound config config.ipv6SubnetMax
    (some (networkIP + 2 ^ (128 - config.ipv6Network.prefixLen) - 2 ^ (128 - len)))
    "IPv6SubnetMax is not in the range of the IPv6Network" = .ok (some high)
  lowAligned : low < 2 ^ 128 ∧ Aligned len (BitVec.ofNat 128 low)
  highAligned : high < 2 ^ 128 ∧ Aligned len (BitVec.ofNat 128 high)

theorem checkIPv6_eq_ok_iff_choice {config checked : Config} :
    checkIPv6 config = .ok checked ↔
      ∃ len networkIP low high, IPv6Choice config len networkIP low high ∧
        chooseIPv6SubnetLen config = .ok len ∧
        checked = { config with
          ipv6SubnetLen := len, ipv6SubnetMin := some low, ipv6SubnetMax := some high } := by
  rw [checkIPv6_eq_ok_iff]
  constructor
  · rintro ⟨notEmpty, valid, len, networkIP, low, high, chosen, isIP, isMin, isMax, lowAligned,
      highAligned, rfl⟩
    have lengths := chooseSubnetLen_eq_ok (by decide) (by decide) (by decide) chosen
    exact ⟨len, networkIP, low, high,
      ⟨notEmpty, lengths, isIP, isMin, isMax, lowAligned, highAligned⟩, chosen, rfl⟩
  · rintro ⟨len, networkIP, low, high, choice, chosen, rfl⟩
    have := choice.lengths
    exact ⟨choice.notEmpty, by omega, len, networkIP, low, high, chosen, choice.isIP, choice.isMin,
      choice.isMax, choice.lowAligned, choice.highAligned, rfl⟩

namespace IPv6Choice

variable {config : Config} {len networkIP low high : Nat}

theorem cases_of_prefix (choice : IPv6Choice config len networkIP low high)
    (small : networkIP < 2 ^ 128)
    (aligned : Aligned config.ipv6Network.prefixLen (BitVec.ofNat 128 networkIP)) :
    BitVec.ofNat 128 (networkIP + 2 ^ (128 - len)) ∈ config.ipv6Network.addresses ∧
      BitVec.ofNat 128 (networkIP + 2 ^ (128 - config.ipv6Network.prefixLen) - 2 ^ (128 - len)) ∈
        config.ipv6Network.addresses := by
  have ends := aligned.add_le
  rw [BitVec.toNat_ofNat, Nat.mod_eq_of_lt small] at ends
  have fits := @four_mul_le 128 config.ipv6Network.prefixLen len choice.lengths.1
    (choice.lengths.2.trans (by decide))
  have positive : 0 < 2 ^ (128 - len) := Nat.two_pow_pos _
  constructor
  · rw [mem_addresses_iff choice.isIP small aligned (by omega)]
    omega
  · rw [mem_addresses_iff choice.isIP small aligned (by omega)]
    omega

theorem encloses_iff_of_prefix (choice : IPv6Choice config len networkIP low high)
    (isPrefix : config.ipv6Network.IsPrefix) :
    Encloses config.ipv6Network len low high ↔ SoundRange config := by
  have isPrefix' := isPrefix
  obtain ⟨valid, _, isIP, small, aligned⟩ := isPrefix'
  obtain rfl := Option.some.inj (choice.isIP.symm.trans isIP)
  obtain ⟨second, last⟩ := choice.cases_of_prefix small aligned
  have lengths := choice.lengths
  rw [encloses_iff (by omega) choice.lowAligned choice.highAligned]
  change (@LT.lt Nat _ high low ∨ _) ↔ _
  -- where the two bounds lie, and on which side of the network a stray one is
  have lowMem := @mem_addresses_iff _ networkIP low choice.isIP small aligned choice.lowAligned.1
  have highMem := @mem_addresses_iff _ networkIP high choice.isIP small aligned choice.highAligned.1
  rcases bound_cases choice.isMin (fun _ => second) with
    ⟨lowInside, notLow⟩ | ⟨lowOutside, strayLow, isLow, lowContained⟩ <;>
  rcases bound_cases choice.isMax (fun _ => last) with
    ⟨highInside, notHigh⟩ | ⟨highOutside, strayHigh, isHigh, highContained⟩
  · refine iff_of_true (.inr ⟨lowInside, highInside⟩) ⟨fun _ => isPrefix, ?_, ?_, ?_⟩
    · exact fun stray => absurd stray notLow
    · exact fun stray => absurd stray notHigh
    · exact fun stray => absurd stray notLow
  · have order := stray_order choice.isIP valid small aligned choice.highAligned.1 highContained
      highOutside
    rw [lowMem] at lowInside
    constructor
    · rintro (empty | ⟨_, inside⟩)
      · refine ⟨fun _ => isPrefix, fun stray => absurd stray notLow, fun _ _ ip6 isIP' fourByte => ?_,
          fun stray => absurd stray notLow⟩
        obtain rfl := Option.some.inj (choice.isIP.symm.trans isIP')
        have := order.1 fourByte
        omega
      · exact absurd inside highOutside
    · intro sound
      have := order.2 (sound.highStray strayHigh notLow _ choice.isIP)
      exact .inl (by omega)
  · have order := stray_order choice.isIP valid small aligned choice.lowAligned.1 lowContained
      lowOutside
    rw [highMem] at highInside
    constructor
    · rintro (empty | ⟨inside, _⟩)
      · refine ⟨fun _ => isPrefix, fun _ _ ip6 isIP' => ?_, fun stray => absurd stray notHigh,
          fun _ stray => absurd stray notHigh⟩
        obtain rfl := Option.some.inj (choice.isIP.symm.trans isIP')
        by_contra notFourByte
        have := order.2 notFourByte
        omega
      · exact absurd inside lowOutside
    · intro sound
      have := order.1 (sound.lowStray strayLow notHigh _ choice.isIP)
      exact .inl (by omega)
  · constructor
    · rintro (empty | ⟨inside, _⟩)
      · refine ⟨fun _ => isPrefix, fun _ notHigh => absurd strayHigh notHigh,
          fun _ notLow => absurd strayLow notLow, fun _ _ low' high' isLow' isHigh' => ?_⟩
        cases isLow.symm.trans isLow'
        cases isHigh.symm.trans isHigh'
        exact empty
      · exact absurd inside lowOutside
    · intro sound
      exact .inl (sound.bothStray strayLow strayHigh low high isLow isHigh)

section Mapped

variable {bits : BitVec 32}

theorem low_mem_of_mapped (choice : IPv6Choice config len (Net.IP.mapped bits).toNat low high)
    (short : config.ipv6Network.prefixLen ≤ 32) :
    BitVec.ofNat 128 low ∈ config.ipv6Network.addresses := by
  rcases chooseIPv6Bound_eq_ok_iff.mp choice.isMin with ⟨_, same⟩ | ⟨_, isLow, contained⟩
  · have isLow : low = (Net.IP.mapped bits).toNat + 2 ^ (128 - len) := Option.some.inj same
    have bounds := mapped_bounds bits
    -- the default is aligned, so the address is, and a subnet is not larger than it
    have divides := (aligned_iff_dvd _ _).mp choice.lowAligned.2
    rw [BitVec.toNat_ofNat, Nat.mod_eq_of_lt choice.lowAligned.1, isLow,
      Nat.dvd_add_self_right] at divides
    have := Nat.le_of_dvd (by omega) divides
    have : 2 ^ (128 - 32) ≤ 2 ^ (128 - config.ipv6Network.prefixLen) :=
      Nat.pow_le_pow_right (by decide) (by omega)
    rw [mem_mapped_iff choice.isIP short choice.lowAligned.1]
    omega
  · rw [← isLow] at contained
    exact mem_mapped_of_contains choice.isIP short contained

theorem high_of_mapped (choice : IPv6Choice config len (Net.IP.mapped bits).toNat low high)
    (short : config.ipv6Network.prefixLen ≤ 32) :
    isEmpty config.ipv6SubnetMax ∧ 2 ^ (128 - config.ipv6Network.prefixLen) ≤ high ∨
      isEmpty config.ipv6SubnetMax = false ∧
        BitVec.ofNat 128 high ∈ config.ipv6Network.addresses := by
  rcases chooseIPv6Bound_eq_ok_iff.mp choice.isMax with ⟨unset, same⟩ | ⟨set, isHigh, contained⟩
  · have isHigh : high = (Net.IP.mapped bits).toNat + 2 ^ (128 - config.ipv6Network.prefixLen) -
        2 ^ (128 - len) := Option.some.inj same
    have bounds := mapped_bounds bits
    have fits := @four_mul_le 128 config.ipv6Network.prefixLen len choice.lengths.1
      (choice.lengths.2.trans (by decide))
    have divides := (aligned_iff_dvd _ _).mp choice.highAligned.2
    have size : 2 ^ (128 - len) ∣ 2 ^ (128 - config.ipv6Network.prefixLen) :=
      Nat.pow_dvd_pow 2 (by have := choice.lengths; omega)
    rw [BitVec.toNat_ofNat, Nat.mod_eq_of_lt choice.highAligned.1] at divides
    have whole : high + 2 ^ (128 - len) =
        (Net.IP.mapped bits).toNat + 2 ^ (128 - config.ipv6Network.prefixLen) := by omega
    have divides' : 2 ^ (128 - len) ∣ (Net.IP.mapped bits).toNat := by
      rw [← Nat.dvd_add_left size, ← whole]
      exact Nat.dvd_add divides dvd_rfl
    have := Nat.le_of_dvd (by omega) divides'
    exact .inl ⟨unset, by omega⟩
  · rw [← isHigh] at contained
    exact .inr ⟨set, mem_mapped_of_contains choice.isIP short contained⟩

theorem not_isPrefix_of_mapped (choice : IPv6Choice config len (Net.IP.mapped bits).toNat low high)
    (short : config.ipv6Network.prefixLen ≤ 32) : ¬ config.ipv6Network.IsPrefix := by
  rintro ⟨_, ip6, isIP, _, aligned⟩
  obtain rfl := Option.some.inj (choice.isIP.symm.trans isIP)
  have zero := congrArg BitVec.toNat (aligned.symm.trans (mapped_and_cidrMask short))
  rw [BitVec.toNat_ofNat, Nat.mod_eq_of_lt (Net.IP.mapped bits).isLt] at zero
  have bounds := mapped_bounds bits
  change _ = 0 at zero
  omega

theorem encloses_iff_of_mapped (choice : IPv6Choice config len (Net.IP.mapped bits).toNat low high)
    (short : config.ipv6Network.prefixLen ≤ 32) :
    Encloses config.ipv6Network len low high ↔ SoundRange config := by
  have lengths := choice.lengths
  have notPrefix := choice.not_isPrefix_of_mapped short
  have lowInside := choice.low_mem_of_mapped short
  rw [encloses_iff (by omega) choice.lowAligned choice.highAligned]
  rcases choice.high_of_mapped short with ⟨unset, above⟩ | ⟨set, highInside⟩
  · refine iff_of_false ?_ fun sound => notPrefix (sound.upper unset)
    rw [mem_mapped_iff choice.isIP short choice.highAligned.1]
    rw [mem_mapped_iff choice.isIP short choice.lowAligned.1] at lowInside
    rintro (empty | ⟨_, below⟩)
    · exact absurd (lowInside.trans_le above) (Nat.not_lt.mpr (Nat.le_of_lt empty))
    · exact absurd below (Nat.not_lt.mpr above)
  · -- a bound that seems to lie in the network does
    have noStray : ∀ {bound : Option IP6} {default chosen : IP6} {message : String},
        chooseIPv6Bound config bound (some default) message = .ok (some chosen) →
        BitVec.ofNat 128 chosen ∈ config.ipv6Network.addresses →
        ¬ Strays config.ipv6Network bound := by
      rintro bound default chosen message isBound inside ⟨ip6, rfl, set, outside⟩
      rcases chooseIPv6Bound_eq_ok_iff.mp isBound with ⟨unset, _⟩ | ⟨_, same, _⟩
      · rw [set] at unset
        cases unset
      · cases same
        exact outside inside
    have notLow := noStray choice.isMin lowInside
    have notHigh := noStray choice.isMax highInside
    refine iff_of_true (.inr ⟨lowInside, highInside⟩) ⟨fun unset => ?_, ?_, ?_, ?_⟩
    · rw [set] at unset
      cases unset
    · exact fun stray => absurd stray notLow
    · exact fun stray => absurd stray notHigh
    · exact fun stray => absurd stray notLow

end Mapped

theorem prefix_or_mapped (choice : IPv6Choice config len networkIP low high)
    (decoded : DecodedIPv6 config.ipv6Network) :
    config.ipv6Network.IsPrefix ∨
      config.ipv6Network.prefixLen ≤ 32 ∧ ∃ bits, networkIP = (Net.IP.mapped bits).toNat := by
  rcases decoded with zero | isPrefix | ⟨short, bits, isIP⟩
  · have notEmpty := choice.notEmpty
    rw [zero] at notEmpty
    cases notEmpty
  · exact .inl isPrefix
  · exact .inr ⟨short, bits, Option.some.inj (choice.isIP.symm.trans isIP)⟩

theorem encloses_iff_soundRange (choice : IPv6Choice config len networkIP low high)
    (decoded : DecodedIPv6 config.ipv6Network) :
    Encloses config.ipv6Network len low high ↔ SoundRange config := by
  rcases choice.prefix_or_mapped decoded with isPrefix | ⟨short, bits, rfl⟩
  · exact choice.encloses_iff_of_prefix isPrefix
  · exact choice.encloses_iff_of_mapped short

theorem contains_low (choice : IPv6Choice config len networkIP low high)
    (decoded : DecodedIPv6 config.ipv6Network) :
    config.ipv6Network.contains (some low) = some true := by
  have lengths := choice.lengths
  rcases chooseIPv6Bound_eq_ok_iff.mp choice.isMin with ⟨_, same⟩ | ⟨_, isLow, contained⟩
  · apply contains_of_mem choice.isIP (by omega)
    rcases choice.prefix_or_mapped decoded with ⟨_, _, isIP, small, aligned⟩ | ⟨short, bits, rfl⟩
    · obtain rfl := Option.some.inj (choice.isIP.symm.trans isIP)
      cases same
      exact (choice.cases_of_prefix small aligned).1
    · exact choice.low_mem_of_mapped short
  · rw [isLow]
    exact contained

theorem contains_high_iff (choice : IPv6Choice config len networkIP low high)
    (decoded : DecodedIPv6 config.ipv6Network) :
    config.ipv6Network.contains (some high) = some true ↔
      (isEmpty config.ipv6SubnetMax → config.ipv6Network.IsPrefix) := by
  have lengths := choice.lengths
  rcases chooseIPv6Bound_eq_ok_iff.mp choice.isMax with ⟨unset, same⟩ | ⟨set, isHigh, contained⟩
  · rcases choice.prefix_or_mapped decoded with isPrefix | ⟨short, bits, rfl⟩
    · refine iff_of_true (contains_of_mem choice.isIP (by omega) ?_) fun _ => isPrefix
      obtain ⟨_, _, isIP, small, aligned⟩ := isPrefix
      obtain rfl := Option.some.inj (choice.isIP.symm.trans isIP)
      cases same
      exact (choice.cases_of_prefix small aligned).2
    · refine iff_of_false (fun contained => ?_) fun upper =>
        choice.not_isPrefix_of_mapped short (upper unset)
      have inside := mem_mapped_of_contains choice.isIP short contained
      rw [mem_mapped_iff choice.isIP short choice.highAligned.1] at inside
      rcases choice.high_of_mapped short with ⟨_, above⟩ | ⟨set, _⟩
      · exact absurd inside (Nat.not_lt.mpr above)
      · rw [unset] at set
        cases set
  · rw [isHigh, set]
    exact iff_of_true contained nofun

theorem ne_zero (choice : IPv6Choice config len networkIP low high) : low ≠ 0 ∧ high ≠ 0 := by
  have fits := @four_mul_le 128 config.ipv6Network.prefixLen len choice.lengths.1
    (choice.lengths.2.trans (by decide))
  have positive : 0 < 2 ^ (128 - len) := Nat.two_pow_pos _
  have set_ne_zero : ∀ {bound : Option IP6} {chosen : Nat}, isEmpty bound = false →
      some chosen = bound → chosen ≠ 0 := by
    rintro bound chosen set rfl rfl
    cases set
  constructor
  · rcases chooseIPv6Bound_eq_ok_iff.mp choice.isMin with ⟨_, same⟩ | ⟨set, isLow, _⟩
    · have isDefault : low = networkIP + 2 ^ (128 - len) := Option.some.inj same
      omega
    · exact set_ne_zero set isLow
  · rcases chooseIPv6Bound_eq_ok_iff.mp choice.isMax with ⟨_, same⟩ | ⟨set, isHigh, _⟩
    · have isDefault : high = networkIP + 2 ^ (128 - config.ipv6Network.prefixLen) - 2 ^ (128 - len) :=
        Option.some.inj same
      omega
    · exact set_ne_zero set isHigh

theorem again_iff (choice : IPv6Choice config len networkIP low high)
    (decoded : DecodedIPv6 config.ipv6Network) {checked : Config}
    (isChecked : checked = { config with
      ipv6SubnetLen := len, ipv6SubnetMin := some low, ipv6SubnetMax := some high }) :
    checkIPv6 checked = .ok checked ↔
      (isEmpty config.ipv6SubnetMax → config.ipv6Network.IsPrefix) := by
  have network : checked.ipv6Network = config.ipv6Network := by rw [isChecked]
  obtain ⟨lowSet, highSet⟩ := choice.ne_zero
  have isSet : ∀ {bound : Nat}, bound ≠ 0 → isEmpty (some bound) = false := by
    intro bound positive
    simp [isEmpty, positive]
  rw [← choice.contains_high_iff decoded, checkIPv6_eq_ok_iff_choice]
  constructor
  · rintro ⟨len', networkIP', low', high', choice', _, same⟩
    obtain ⟨rfl⟩ : high = high' :=
      Option.some.inj (by simpa only [isChecked] using congrArg Config.ipv6SubnetMax same)
    rcases chooseIPv6Bound_eq_ok_iff.mp choice'.isMax with ⟨unset, _⟩ | ⟨_, _, contained⟩
    · rw [isChecked, isSet highSet] at unset
      cases unset
    · rw [isChecked] at contained
      exact contained
  · intro contained
    refine ⟨len, networkIP, low, high, ⟨?_, ?_, ?_, ?_, ?_, choice.lowAligned, choice.highAligned⟩,
      ?_, ?_⟩
    · rw [network]
      exact choice.notEmpty
    · rw [network]
      exact choice.lengths
    · rw [network]
      exact choice.isIP
    · subst isChecked
      exact chooseIPv6Bound_eq_ok_iff.mpr (.inr ⟨isSet lowSet, rfl, choice.contains_low decoded⟩)
    · subst isChecked
      exact chooseIPv6Bound_eq_ok_iff.mpr (.inr ⟨isSet highSet, rfl, contained⟩)
    · subst isChecked
      exact chooseSubnetLen_again choice.lengths
    · rw [isChecked]

end IPv6Choice

/-! ## The whole check -/

structure IPv4Invariant (config checked : Config) : Prop where
  len : checked.network.prefixLen + 2 ≤ checked.subnetLen ∧ checked.subnetLen ≤ 30
  minAligned : Aligned checked.subnetLen checked.subnetMin
  maxAligned : Aligned checked.subnetLen checked.subnetMax
  inside : ∀ start : IP4, Aligned checked.subnetLen start → checked.subnetMin ≤ start →
    start ≤ checked.subnetMax → block checked.subnetLen start ⊆ checked.network.addresses
  minDefault : config.subnetMin = 0 →
    checked.subnetMin.toNat = checked.network.ip.toNat + 2 ^ (32 - checked.subnetLen)
  maxDefault : config.subnetMax = 0 →
    checked.subnetMax.toNat + 2 ^ (32 - checked.subnetLen) =
      checked.network.ip.toNat + 2 ^ (32 - checked.network.prefixLen)
  again : checkNetworkConfig checked = .ok checked

theorem checkIPv4_of_ipv6 {config : Config} (again : checkIPv4 config = .ok config)
    (len : Nat) (low high : Option IP6) {later : Config}
    (isLater : later = { config with
      ipv6SubnetLen := len, ipv6SubnetMin := low, ipv6SubnetMax := high }) :
    checkIPv4 later = .ok later := by
  subst isLater
  obtain ⟨notEmpty, len', low', high', chosen, isLow, isHigh, lowAligned, highAligned, same⟩ :=
    checkIPv4_eq_ok_iff.mp again
  refine checkIPv4_eq_ok_iff.mpr
    ⟨notEmpty, len', low', high', chosen, isLow, isHigh, lowAligned, highAligned, ?_⟩
  have isLen : config.subnetLen = len' := congrArg Config.subnetLen same
  have isMin : config.subnetMin = low' := congrArg Config.subnetMin same
  have isMax : config.subnetMax = high' := congrArg Config.subnetMax same
  rw [← isLen, ← isMin, ← isMax]

theorem IPv4Range.inside {config checked : Config} (range : IPv4Range config checked) {start : IP4}
    (low : checked.subnetMin ≤ start) (high : start ≤ checked.subnetMax) :
    block checked.subnetLen start ⊆ config.network.addresses := by
  have lengths := range.len
  have minInside := range.minInside
  have maxInside := range.maxInside
  rw [IP4Net.addresses_eq_block (by omega)] at minInside maxInside ⊢
  exact block_subset (by omega) (mem_block_of_between minInside maxInside low high)

theorem checkNetworkConfig_halves {config checked : Config} (enabled : config.enableIPv4)
    (accepted : checkNetworkConfig config = .ok checked) :
    ∃ middle, checkIPv4 config = .ok middle ∧ middle.enableIPv6 = config.enableIPv6 ∧
      middle.ipv6Network = config.ipv6Network ∧ middle.ipv6SubnetMax = config.ipv6SubnetMax ∧
      (config.enableIPv6 = false ∧ checked = middle ∨
        config.enableIPv6 ∧ ∃ len networkIP low high,
          IPv6Choice middle len networkIP low high ∧ checked = { middle with
            ipv6SubnetLen := len, ipv6SubnetMin := some low, ipv6SubnetMax := some high }) := by
  rw [checkNetworkConfig, bind_eq_ok_iff, if_pos enabled] at accepted
  obtain ⟨middle, first, second⟩ := accepted
  obtain ⟨-, len4, low4, high4, -, -, -, -, -, isMiddle⟩ := checkIPv4_eq_ok_iff.mp first
  have flag : middle.enableIPv6 = config.enableIPv6 := by rw [isMiddle]
  refine ⟨middle, first, flag, by rw [isMiddle], by rw [isMiddle], ?_⟩
  rw [flag] at second
  cases enabled6 : config.enableIPv6 with
  | false =>
    rw [enabled6] at second
    exact .inl ⟨rfl, (Except.ok.inj second).symm⟩
  | true =>
    rw [enabled6, if_pos rfl, checkIPv6_eq_ok_iff_choice] at second
    obtain ⟨len, networkIP, low, high, choice, -, isChecked⟩ := second
    exact .inr ⟨rfl, len, networkIP, low, high, choice, isChecked⟩

section Accepted

variable {config checked : Config}

theorem range_of_accepted (decoded : Decoded config) (enabled : config.enableIPv4)
    (accepted : checkNetworkConfig config = .ok checked) : IPv4Range config checked := by
  obtain ⟨middle, first, -, -, -, second⟩ := checkNetworkConfig_halves enabled accepted
  have range := checkIPv4_range decoded.network first
  rcases second with ⟨_, rfl⟩ | ⟨_, len, _, low, high, _, isChecked⟩
  · exact range
  · have again := checkIPv4_of_ipv6 range.again len (some low) (some high) isChecked
    subst isChecked
    exact { range with again }

/-- Checking an accepted configuration again changes nothing, unless the upper bound of IPv6 is a
default of a network of IPv4. -/
theorem again_iff_of_accepted (decoded : Decoded config) (enabled : config.enableIPv4)
    (accepted : checkNetworkConfig config = .ok checked) :
    checkNetworkConfig checked = .ok checked ↔
      (config.enableIPv6 → isEmpty config.ipv6SubnetMax →
        config.ipv6Network.IsPrefix) := by
  have range := range_of_accepted decoded enabled accepted
  obtain ⟨middle, first, flag6, network, bound, second⟩ := checkNetworkConfig_halves enabled accepted
  have flag4 : middle.enableIPv4 = config.enableIPv4 := (checkIPv4_eq_ok first).2.1
  rcases second with ⟨disabled, rfl⟩ | ⟨enabled6, len, networkIP, low, high, choice, isChecked⟩
  · rw [checkNetworkConfig, if_pos (flag4.trans enabled), range.again, disabled]
    refine iff_of_true ?_ (fun enabled6 => by cases enabled6)
    change (if checked.enableIPv6 then _ else _) = _
    rw [flag6, disabled]
    rfl
  · have flag4' : checked.enableIPv4 := by rw [isChecked, ← enabled, ← flag4]
    have flag6' : checked.enableIPv6 := by rw [isChecked, ← enabled6, ← flag6]
    rw [checkNetworkConfig, if_pos flag4', range.again]
    change (if checked.enableIPv6 then _ else _) = _ ↔ _
    rw [if_pos flag6', choice.again_iff (network ▸ decoded.ipv6Network) isChecked, network, bound]
    exact ⟨fun upper _ => upper, fun upper => upper enabled6⟩

end Accepted

/-- `CheckNetworkConfig` establishes the invariant of IPv4 for every configuration that was read,
unless it fills in the upper bound of an IPv6 network that is one of IPv4: it rejects that bound
when it is run again. -/
theorem ipv4Invariant_iff {s backendType : String} {raw : RawConfig} {checked : Config}
    (parsed : parseConfig s = some (raw, backendType)) (enabled : raw.config.enableIPv4 = true)
    (accepted : checkNetworkConfig raw.config = .ok checked) :
    IPv4Invariant raw.config checked ↔
      (raw.config.enableIPv6 = true → isEmpty raw.config.ipv6SubnetMax = true →
        raw.config.ipv6Network.IsPrefix) := by
  have decoded := decoded_of_parseConfig parsed
  have range := range_of_accepted decoded enabled accepted
  rw [← again_iff_of_accepted decoded enabled accepted]
  constructor
  · exact IPv4Invariant.again
  · intro again
    have network := range.network
    refine ⟨network ▸ range.len, range.minAligned, range.maxAligned, fun start _ low high => ?_, ?_, ?_,
      again⟩
    · rw [network]
      exact range.inside low high
    · rw [network]
      exact range.minDefault
    · rw [network]
      exact range.maxDefault

theorem exists_of_read {s : String} {config : Config} {P : RawConfig → String → Prop}
    (read : (parseConfig s).map (fun result => result.1.config) = some config)
    (holds : ∀ raw backendType, parseConfig s = some (raw, backendType) → raw.config = config →
      P raw backendType) :
    ∃ raw backendType, parseConfig s = some (raw, backendType) ∧ P raw backendType := by
  obtain ⟨⟨raw, backendType⟩, parsed, isConfig⟩ := Option.map_eq_some_iff.mp read
  exact ⟨raw, backendType, parsed, holds raw backendType parsed isConfig⟩

def samples : List (String × Config) :=
  [("\x7b\"Network\":\"255.255.0.0/16\",\"EnableIPv6\":true,\"IPv6Network\":\"fc00::/48\"\x7d",
      ⟨true, true, ⟨0xffff0000#32, 16⟩, ⟨some (0xfc00 * 2 ^ 112), 48⟩, 0, 0, none, none, 0, 0⟩),
    ("\x7b\"Network\":\"10.0.0.0/8\",\"EnableIPv6\":true,\"IPv6Network\":\"10.0.0.0/8\",\"IPv6SubnetLen\":104\x7d",
      ⟨true, true, ⟨0x0a000000#32, 8⟩, ⟨some 0xffff0a000000, 8⟩, 0, 0, none, none, 0, 104⟩),
    ("\x7b\"EnableIPv4\":false,\"EnableIPv6\":true,\"IPv6Network\":\"fc00::/48\",\"IPv6SubnetMax\":\"fc00:0:0:9::\"\x7d",
      ⟨false, true, ⟨0, 0⟩, ⟨some (0xfc00 * 2 ^ 112), 48⟩, 0, 0, none,
        some (0xfc00 * 2 ^ 112 + 9 * 2 ^ 64), 0, 0⟩),
    ("\x7b\"EnableIPv4\":false,\"EnableIPv6\":true,\"IPv6Network\":\"10.0.0.0/8\",\"IPv6SubnetLen\":104\x7d",
      ⟨false, true, ⟨0, 0⟩, ⟨some 0xffff0a000000, 8⟩, 0, 0, none, none, 0, 104⟩)]

theorem parseConfig_samples {s : String} {config : Config} (mem : (s, config) ∈ samples) :
    (parseConfig s).map (fun result => result.1.config) = some config := by
  have all : ∀ sample ∈ samples,
      (parseConfig sample.1).map (fun result => result.1.config) = some sample.2 := by
    decide +kernel
  exact all (s, config) mem

theorem ipv4Invariant_of_dual_stack :
    ∃ raw backendType,
      parseConfig "\x7b\"Network\":\"255.255.0.0/16\",\"EnableIPv6\":true,\"IPv6Network\":\"fc00::/48\"\x7d" =
          some (raw, backendType) ∧
        raw.config.enableIPv4 = true ∧ ∃ checked, checkNetworkConfig raw.config = .ok checked ∧
          IPv4Invariant raw.config checked := by
  refine exists_of_read (parseConfig_samples (.head _)) fun raw backendType parsed isConfig => ?_
  have enabled : raw.config.enableIPv4 := by rw [isConfig]
  have accepted : checkNetworkConfig raw.config =
      .ok ⟨true, true, ⟨0xffff0000#32, 16⟩, ⟨some (0xfc00 * 2 ^ 112), 48⟩, 0xffff0100#32,
        0xffffff00#32, some (0xfc00 * 2 ^ 112 + 2 ^ 64), some (0xfc00 * 2 ^ 112 + 2 ^ 80 - 2 ^ 64),
        24, 64⟩ := by
    rw [isConfig]
    decide
  refine ⟨enabled, _, accepted, (ipv4Invariant_iff parsed enabled accepted).mpr fun _ _ => ?_⟩
  rw [isConfig]
  exact ⟨by decide, _, rfl, by decide, by decide⟩

/-- With a network of IPv4 in the place of the IPv6 one, the default upper bound of IPv6 is
rejected when the check is run again. -/
theorem not_ipv4Invariant_of_mapped :
    ∃ raw backendType,
      parseConfig "\x7b\"Network\":\"10.0.0.0/8\",\"EnableIPv6\":true,\"IPv6Network\":\"10.0.0.0/8\",\"IPv6SubnetLen\":104\x7d" =
          some (raw, backendType) ∧
        raw.config.enableIPv4 = true ∧ ∃ checked, checkNetworkConfig raw.config = .ok checked ∧
          checkNetworkConfig checked =
            .error (.error "IPv6SubnetMax is not in the range of the IPv6Network") ∧
          ¬ IPv4Invariant raw.config checked := by
  refine exists_of_read (parseConfig_samples (.tail _ (.head _))) fun raw backendType _ isConfig => ?_
  rw [isConfig]
  have rejected : checkNetworkConfig
      ⟨true, true, ⟨0x0a000000#32, 8⟩, ⟨some 0xffff0a000000, 8⟩, 0x0a000100#32, 0x0affff00#32,
        some 0xffff0b000000, some (0xffff0a000000 + 2 ^ 120 - 2 ^ 24), 24, 104⟩ =
      .error (.error "IPv6SubnetMax is not in the range of the IPv6Network") := by
    decide
  refine ⟨rfl, _, ?_, rejected, fun invariant => ?_⟩
  · decide
  · cases invariant.again.symm.trans rejected

theorem exists_choice_of_accepted {config checked : Config} (enabled : config.enableIPv6)
    (accepted : checkNetworkConfig config = .ok checked) :
    ∃ len networkIP low high, IPv6Choice config len networkIP low high ∧
      checked.ipv6Network = config.ipv6Network ∧ checked.ipv6SubnetLen = len ∧
      checked.ipv6SubnetMin = some low ∧ checked.ipv6SubnetMax = some high := by
  rw [checkNetworkConfig, bind_eq_ok_iff] at accepted
  obtain ⟨middle, first, second⟩ := accepted
  have isMiddle : ∃ len low high,
      middle = { config with subnetLen := len, subnetMin := low, subnetMax := high } := by
    split_ifs at first
    · obtain ⟨-, len, low, high, -, -, -, -, -, same⟩ := checkIPv4_eq_ok_iff.mp first
      exact ⟨len, low, high, same⟩
    · cases first
      exact ⟨_, _, _, rfl⟩
  obtain ⟨len4, low4, high4, rfl⟩ := isMiddle
  rw [if_pos enabled, checkIPv6_eq_ok_iff_choice] at second
  obtain ⟨len, networkIP, low, high, choice, -, rfl⟩ := second
  exact ⟨len, networkIP, low, high, { choice with }, rfl, rfl, rfl, rfl⟩

/-- `CheckNetworkConfig` establishes the invariant of IPv6 for the configurations that were read
whose range is sound. -/
theorem ipv6Invariant_iff {s backendType : String} {raw : RawConfig} {checked : Config}
    (parsed : parseConfig s = some (raw, backendType)) (enabled : raw.config.enableIPv6 = true)
    (accepted : checkNetworkConfig raw.config = .ok checked) :
    (∃ low high, checked.ipv6SubnetMin = some low ∧ checked.ipv6SubnetMax = some high ∧
        Encloses checked.ipv6Network checked.ipv6SubnetLen low high) ↔
      SoundRange raw.config := by
  have decoded := decoded_of_parseConfig parsed
  obtain ⟨len, networkIP, low, high, choice, network, isLen, isMin, isMax⟩ :=
    exists_choice_of_accepted enabled accepted
  rw [← choice.encloses_iff_soundRange decoded.ipv6Network, network, isLen, isMin, isMax]
  constructor
  · rintro ⟨low', high', isLow, isHigh, encloses⟩
    obtain rfl := Option.some.inj isLow
    obtain rfl := Option.some.inj isHigh
    exact encloses
  · intro encloses
    exact ⟨low, high, rfl, rfl, encloses⟩

theorem ipv6Invariant_of_bounded :
    ∃ raw backendType,
      parseConfig "\x7b\"EnableIPv4\":false,\"EnableIPv6\":true,\"IPv6Network\":\"fc00::/48\",\"IPv6SubnetMax\":\"fc00:0:0:9::\"\x7d" =
          some (raw, backendType) ∧
        raw.config.enableIPv6 = true ∧ ∃ checked, checkNetworkConfig raw.config = .ok checked ∧
          ∃ low high, checked.ipv6SubnetMin = some low ∧ checked.ipv6SubnetMax = some high ∧
            Encloses checked.ipv6Network checked.ipv6SubnetLen low high := by
  refine exists_of_read (parseConfig_samples (.tail _ (.tail _ (.head _))))
    fun raw backendType parsed isConfig => ?_
  have enabled : raw.config.enableIPv6 := by rw [isConfig]
  have accepted : checkNetworkConfig raw.config =
      .ok ⟨false, true, ⟨0, 0⟩, ⟨some (0xfc00 * 2 ^ 112), 48⟩, 0, 0,
        some (0xfc00 * 2 ^ 112 + 2 ^ 64), some (0xfc00 * 2 ^ 112 + 9 * 2 ^ 64), 0, 64⟩ := by
    rw [isConfig]
    decide
  refine ⟨enabled, _, accepted, (ipv6Invariant_iff parsed enabled accepted).mpr ?_⟩
  rw [isConfig]
  have inside : BitVec.ofNat 128 (0xfc00 * 2 ^ 112 + 9 * 2 ^ 64) ∈
      IP6Net.addresses ⟨some (0xfc00 * 2 ^ 112), 48⟩ := by
    rw [IP6Net.addresses_eq rfl]
    change _ = _
    decide
  have notHigh : ¬ Strays ⟨some (0xfc00 * 2 ^ 112), 48⟩ (some (0xfc00 * 2 ^ 112 + 9 * 2 ^ 64)) := by
    rintro ⟨_, ⟨rfl⟩, _, outside⟩
    exact outside inside
  refine ⟨fun unset => absurd unset (by decide), ?_, fun stray => absurd stray notHigh, ?_⟩
  · rintro ⟨_, unset, _⟩
    cases unset
  · exact fun _ stray => absurd stray notHigh

/-- With a network of IPv4 in the place of the IPv6 one, the last subnet of the range lies outside
of the network. -/
theorem not_ipv6Invariant_of_mapped :
    ∃ raw backendType,
      parseConfig "\x7b\"EnableIPv4\":false,\"EnableIPv6\":true,\"IPv6Network\":\"10.0.0.0/8\",\"IPv6SubnetLen\":104\x7d" =
          some (raw, backendType) ∧
        raw.config.enableIPv6 = true ∧ ∃ checked, checkNetworkConfig raw.config = .ok checked ∧
          ¬ ∃ low high, checked.ipv6SubnetMin = some low ∧ checked.ipv6SubnetMax = some high ∧
            Encloses checked.ipv6Network checked.ipv6SubnetLen low high := by
  refine exists_of_read (parseConfig_samples (.tail _ (.tail _ (.tail _ (.head _)))))
    fun raw backendType _ isConfig => ?_
  rw [isConfig]
  refine ⟨rfl, ⟨false, true, ⟨0, 0⟩, ⟨some 0xffff0a000000, 8⟩, 0, 0, some 0xffff0b000000,
    some (0xffff0a000000 + 2 ^ 120 - 2 ^ 24), 0, 104⟩, ?_, ?_⟩
  · decide
  · rintro ⟨low, high, ⟨rfl⟩, ⟨rfl⟩, _, _, _, aligned, inside⟩
    have outside := inside _ aligned (by decide) (by decide) (self_mem_block _ _)
    rw [IP6Net.addresses_eq rfl] at outside
    change _ = _ at outside
    revert outside
    decide

end Flannel.Subnet
