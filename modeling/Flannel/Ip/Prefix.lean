import Flannel.Ip.Codec

/-!
# Networks as sets of addresses

`Network`, `Contains`, `Overlaps` and `ContainsCIDR` against the addresses that share the first
bits of a network. Those of IPv6 compare printed addresses and mask four or sixteen bytes, so they
are wrong where a number of four bytes is taken for an address of IPv4.
-/

namespace Flannel.Ip

open Net

section Mask

variable {width : Nat}

theorem toNat_cidrMask_add (ones : Nat) :
    (cidrMask width ones).toNat + 2 ^ (width - ones) = 2 ^ width := by
  have isMask : BitVec.allOnes width &&& cidrMask width ones = cidrMask width ones :=
    BitVec.allOnes_and
  have aligned : Aligned ones (cidrMask width ones) := BitVec.and_self
  have ends := aligned.add_le
  have last : BitVec.allOnes width ∈ block ones (cidrMask width ones) := by
    change cidrMask width ones &&& cidrMask width ones = _
    rw [isMask, BitVec.and_self]
  rw [mem_block_iff aligned, BitVec.toNat_allOnes] at last
  omega

theorem cidrMask_le_iff {ones ones' : Nat} (valid : ones ≤ width) (valid' : ones' ≤ width) :
    cidrMask width ones ≤ cidrMask width ones' ↔ ones ≤ ones' := by
  have sum := @toNat_cidrMask_add width ones
  have sum' := @toNat_cidrMask_add width ones'
  have sizes : 2 ^ (width - ones') ≤ 2 ^ (width - ones) ↔ width - ones' ≤ width - ones :=
    Nat.pow_le_pow_iff_right (by decide)
  change (cidrMask width ones).toNat ≤ (cidrMask width ones').toNat ↔ _
  omega

end Mask

/-! ## IPv4 -/

namespace IP4Net

def containsCIDR (n other : IP4Net) : Bool :=
  decide (n.mask ≤ other.mask) && n.contains other.ip

variable {n other : IP4Net}

theorem contains_iff (valid : n.prefixLen ≤ 32) (ip : IP4) :
    n.contains ip ↔ ip ∈ sharing n.prefixLen n.ip := by
  rw [sharing_eq_block valid, ← addresses_eq_block valid]
  rfl

theorem overlaps_iff_sharing (valid : n.prefixLen ≤ 32) (validOther : other.prefixLen ≤ 32) :
    n.overlaps other ↔
      (sharing n.prefixLen n.ip ∩ sharing other.prefixLen other.ip).Nonempty := by
  rw [overlaps_iff valid validOther, sharing_eq_block valid, sharing_eq_block validOther,
    addresses_eq_block valid, addresses_eq_block validOther]

theorem containsCIDR_iff (valid : n.prefixLen ≤ 32) (validOther : other.prefixLen ≤ 32) :
    n.containsCIDR other ↔
      n.prefixLen ≤ other.prefixLen ∧ other.ip ∈ sharing n.prefixLen n.ip := by
  rw [containsCIDR, Bool.and_eq_true, decide_eq_true_eq, contains_iff valid, mask, mask, if_pos valid,
    if_pos validOther, cidrMask_le_iff valid validOther]

theorem containsCIDR_iff_subset (valid : n.prefixLen ≤ 32) (validOther : other.prefixLen ≤ 32) :
    n.containsCIDR other ↔ sharing other.prefixLen other.ip ⊆ sharing n.prefixLen n.ip := by
  rw [containsCIDR_iff valid validOther, sharing_eq_block valid, sharing_eq_block validOther,
    block_subset_iff valid validOther]
  rfl

theorem comparable_of_overlaps (valid : n.prefixLen ≤ 32) (validOther : other.prefixLen ≤ 32)
    (overlap : n.overlaps other) : n.containsCIDR other ∨ other.containsCIDR n := by
  rw [overlaps_iff_sharing valid validOther, sharing_eq_block valid, sharing_eq_block validOther] at overlap
  rw [containsCIDR_iff valid validOther, containsCIDR_iff validOther valid, sharing_eq_block valid,
    sharing_eq_block validOther]
  rcases Nat.le_total n.prefixLen other.prefixLen with le | le
  · exact .inl ⟨le, (block_inter_nonempty_iff le _ _).mp overlap⟩
  · rw [Set.inter_comm] at overlap
    exact .inr ⟨le, (block_inter_nonempty_iff le _ _).mp overlap⟩

theorem network_network (n : IP4Net) : n.network.network = n.network := by
  have sameMask : n.network.mask = n.mask := rfl
  rw [network, sameMask]
  simp only [network, BitVec.and_assoc, BitVec.and_self]

theorem sharing_network (valid : n.prefixLen ≤ 32) :
    sharing n.network.prefixLen n.network.ip = sharing n.prefixLen n.ip := by
  have isIP : n.network.ip = n.ip &&& cidrMask 32 n.prefixLen := by rw [network, mask, if_pos valid]
  rw [isIP, sharing_eq_block valid, ← block_and_cidrMask]
  exact sharing_eq_block valid _

end IP4Net

/-! ## IPv6 -/

/-- `IP.Mask` under a mask of sixteen bytes; four bytes take the last four of a mask that starts
with twelve full ones, and have no result under another one. -/
def maskIP (ip : Net.IP) (ones : Nat) : Option Net.IP :=
  match ip with
  | .v4 bits => if 96 ≤ ones then some (.v4 (bits &&& cidrMask 32 (ones - 96))) else none
  | .v16 bits => some (.v16 (bits &&& cidrMask 128 ones))

namespace IP6Net

def network (n : IP6Net) : Option IP6Net := do
  let ip6 ← n.ip
  let ip ← IP6.toIP ip6
  let masked ← if n.prefixLen ≤ 128 then maskIP ip n.prefixLen else none
  return ⟨some (fromIP6 masked), n.prefixLen⟩

def containsCIDR (n other : IP6Net) : Option Bool :=
  if n.mask ≤ other.mask then n.contains other.ip else some false

end IP6Net

/-- Two addresses that print alike: a number of four bytes and its IPv4-mapped form. -/
def Alike (x y : BitVec 128) : Prop :=
  FourByte x.toNat ∧ y.toNat = 0xffff * 2 ^ 32 + x.toNat ∨
    FourByte y.toNat ∧ x.toNat = 0xffff * 2 ^ 32 + y.toNat

theorem ne_of_alike {x y : BitVec 128} (alike : Alike x y) : x ≠ y := by
  rintro rfl
  rcases alike with ⟨_, number⟩ | ⟨_, number⟩ <;> omega

theorem shown_eq_iff {x y : BitVec 128} : IP6.shown x = IP6.shown y ↔ x = y ∨ Alike x y := by
  constructor
  · exact shown_eq_cases
  · have mapped : ∀ {x y : BitVec 128}, FourByte x.toNat → y.toNat = 0xffff * 2 ^ 32 + x.toNat →
        IP6.shown x = IP6.shown y := by
      intro x y fourByte number
      have long : ¬ FourByte y.toNat := fun fourByte' => by
        have := fourByte'.2
        omega
      apply BitVec.eq_of_toNat_eq
      rw [toNat_shown_of_fourByte fourByte, shown_of_not_fourByte long, number]
    rintro (rfl | ⟨fourByte, number⟩ | ⟨fourByte, number⟩)
    · rfl
    · exact mapped fourByte number
    · exact (mapped fourByte number).symm

def Decides (result : Option Bool) (P : Prop) : Prop :=
  ∃ answer, result = some answer ∧ (answer = true ↔ P)

theorem decides_shown_iff {x y : BitVec 128} {P : Prop} (isEq : x = y ↔ P) :
    Decides (some (decide (IP6.shown x = IP6.shown y))) P ↔ ¬ Alike x y := by
  constructor
  · rintro ⟨answer, same, right⟩ alike
    obtain rfl := Option.some.inj same
    rw [decide_eq_true_eq, shown_eq_iff, ← isEq] at right
    exact ne_of_alike alike (right.mp (.inr alike))
  · intro apart
    refine ⟨_, rfl, ?_⟩
    rw [decide_eq_true_eq, shown_eq_iff, ← isEq, or_iff_left apart]

/-- The operations of IPv6 networks have the meaning of prefixes. -/
structure PrefixSemantics (x p y q a : Nat) : Prop where
  contains : Decides (IP6Net.contains ⟨some x, p⟩ (some a))
    (BitVec.ofNat 128 a ∈ sharing p (BitVec.ofNat 128 x))
  overlaps : Decides (IP6Net.overlaps ⟨some x, p⟩ ⟨some y, q⟩)
    (sharing p (BitVec.ofNat 128 x) ∩ sharing q (BitVec.ofNat 128 y)).Nonempty
  containsCIDR : Decides (IP6Net.containsCIDR ⟨some x, p⟩ ⟨some y, q⟩)
    (sharing q (BitVec.ofNat 128 y) ⊆ sharing p (BitVec.ofNat 128 x))
  network : ∃ z, IP6Net.network ⟨some x, p⟩ = some ⟨some z, p⟩ ∧ z < 2 ^ 128 ∧
    Aligned p (BitVec.ofNat 128 z) ∧
    sharing p (BitVec.ofNat 128 z) = sharing p (BitVec.ofNat 128 x)

section IPv6

variable {x y a p q : Nat}

theorem contains_eq_shown (valid : p ≤ 128) :
    IP6Net.contains ⟨some x, p⟩ (some a) = some (decide
      (IP6.shown (BitVec.ofNat 128 x &&& cidrMask 128 p) =
        IP6.shown (BitVec.ofNat 128 a &&& cidrMask 128 p))) := by
  rw [IP6Net.contains, Option.bind_some, Option.map_some, IP6Net.mask, if_pos valid,
    Bool.beq_eq_decide_eq]
  simp only [maskedText_eq_iff]

theorem overlaps_eq_shown (valid : p ≤ 128) (validOther : q ≤ 128) :
    IP6Net.overlaps ⟨some x, p⟩ ⟨some y, q⟩ = some (decide
      (IP6.shown (BitVec.ofNat 128 x &&& cidrMask 128 (min p q)) =
        IP6.shown (BitVec.ofNat 128 y &&& cidrMask 128 (min p q)))) := by
  have isMask : (if p < q then IP6Net.mask ⟨some x, p⟩ else IP6Net.mask ⟨some y, q⟩) =
      cidrMask 128 (min p q) := by
    by_cases shorter : p < q
    · rw [if_pos shorter, IP6Net.mask, if_pos valid, Nat.min_eq_left (Nat.le_of_lt shorter)]
    · rw [if_neg shorter, IP6Net.mask, if_pos validOther, Nat.min_eq_right (Nat.le_of_not_lt shorter)]
  rw [IP6Net.overlaps, isMask, Option.bind_some, Option.map_some, Bool.beq_eq_decide_eq]
  simp only [maskedText_eq_iff]

theorem meets_iff_min (valid : p ≤ 128) (validOther : q ≤ 128) (x y : BitVec 128) :
    x &&& cidrMask 128 (min p q) = y &&& cidrMask 128 (min p q) ↔
      (sharing p x ∩ sharing q y).Nonempty := by
  rw [sharing_eq_block valid, sharing_eq_block validOther]
  rcases Nat.le_total p q with le | le
  · rw [Nat.min_eq_left le, block_inter_nonempty_iff le]
  · rw [Nat.min_eq_right le, Set.inter_comm, block_inter_nonempty_iff le]
    exact eq_comm

theorem decides_contains_iff (valid : p ≤ 128) :
    Decides (IP6Net.contains ⟨some x, p⟩ (some a))
        (BitVec.ofNat 128 a ∈ sharing p (BitVec.ofNat 128 x)) ↔
      ¬ Alike (BitVec.ofNat 128 x &&& cidrMask 128 p) (BitVec.ofNat 128 a &&& cidrMask 128 p) := by
  rw [contains_eq_shown valid]
  apply decides_shown_iff
  rw [sharing_eq_block valid]
  rfl

theorem decides_overlaps_iff (valid : p ≤ 128) (validOther : q ≤ 128) :
    Decides (IP6Net.overlaps ⟨some x, p⟩ ⟨some y, q⟩)
        (sharing p (BitVec.ofNat 128 x) ∩ sharing q (BitVec.ofNat 128 y)).Nonempty ↔
      ¬ Alike (BitVec.ofNat 128 x &&& cidrMask 128 (min p q))
        (BitVec.ofNat 128 y &&& cidrMask 128 (min p q)) := by
  rw [overlaps_eq_shown valid validOther]
  exact decides_shown_iff (meets_iff_min valid validOther _ _)

theorem decides_containsCIDR (valid : p ≤ 128) (validOther : q ≤ 128)
    (apart : ¬ Alike (BitVec.ofNat 128 x &&& cidrMask 128 (min p q))
      (BitVec.ofNat 128 y &&& cidrMask 128 (min p q))) :
    Decides (IP6Net.containsCIDR ⟨some x, p⟩ ⟨some y, q⟩)
      (sharing q (BitVec.ofNat 128 y) ⊆ sharing p (BitVec.ofNat 128 x)) := by
  rw [IP6Net.containsCIDR, IP6Net.mask, IP6Net.mask, if_pos valid, if_pos validOther,
    sharing_eq_block valid, sharing_eq_block validOther, block_subset_iff valid validOther]
  by_cases le : p ≤ q
  · rw [if_pos ((cidrMask_le_iff valid validOther).mpr le), contains_eq_shown valid]
    rw [Nat.min_eq_left le] at apart
    exact (decides_shown_iff (and_iff_right le).symm).mpr apart
  · rw [if_neg fun smaller => le ((cidrMask_le_iff valid validOther).mp smaller)]
    exact ⟨false, rfl, iff_of_false Bool.false_ne_true fun both => le both.1⟩

theorem network_spec_iff (small : x < 2 ^ 128) (valid : p ≤ 128) :
    (∃ z, IP6Net.network ⟨some x, p⟩ = some ⟨some z, p⟩ ∧ z < 2 ^ 128 ∧
        Aligned p (BitVec.ofNat 128 z) ∧
        sharing p (BitVec.ofNat 128 z) = sharing p (BitVec.ofNat 128 x)) ↔
      ¬ FourByte x := by
  have isIP : IP6.toIP x = some (IP6.ofBits (BitVec.ofNat 128 x)) := by
    rw [IP6.toIP, if_pos small]
  have value : (BitVec.ofNat 128 x).toNat = x := Nat.mod_eq_of_lt small
  by_cases fourByte : FourByte x
  · have short : IP6.ofBits (BitVec.ofNat 128 x) = .v4 ((BitVec.ofNat 128 x).setWidth 32) := by
      rw [FourByte] at fourByte
      rw [IP6.ofBits, value, if_pos fourByte]
    refine iff_of_false ?_ (not_not.mpr fourByte)
    rintro ⟨z, isNetwork, _, _, same⟩
    simp only [IP6Net.network, isIP, short, maskIP, if_pos valid, Option.bind_eq_bind,
      Option.bind_some] at isNetwork
    split_ifs at isNetwork with long
    · have isZ := congrArg IP6Net.ip (Option.some.inj isNetwork)
      have number := Option.some.inj isZ
      -- both addresses would lie in one block of at most 32 host bits
      have mem : BitVec.ofNat 128 x ∈ sharing p (BitVec.ofNat 128 z) := by
        rw [same, sharing_eq_block valid]
        exact self_mem_block _ _
      rw [sharing_eq_block valid] at mem
      have agree := congrArg BitVec.toNat (and_cidrMask_eq_of_le long mem)
      rw [toNat_and_cidrMask, toNat_and_cidrMask, value, ← number, fromIP6, Net.IP.to16,
        BitVec.ofNat_toNat, BitVec.setWidth_eq, toNat_mapped] at agree
      have bound := fourByte.2
      omega
    · cases isNetwork
  · have long : IP6.ofBits (BitVec.ofNat 128 x) = .v16 (BitVec.ofNat 128 x) := by
      rw [FourByte] at fourByte
      rw [IP6.ofBits, value, if_neg fourByte]
    refine iff_of_true ⟨(BitVec.ofNat 128 x &&& cidrMask 128 p).toNat, ?_, BitVec.isLt _, ?_, ?_⟩ fourByte
    · simp only [IP6Net.network, isIP, long, maskIP, if_pos valid, Option.bind_eq_bind, Option.bind_some]
      rfl
    · rw [BitVec.ofNat_toNat, BitVec.setWidth_eq]
      exact aligned_and_cidrMask _ _
    · rw [BitVec.ofNat_toNat, BitVec.setWidth_eq, sharing_eq_block valid, sharing_eq_block valid,
        block_and_cidrMask]

end IPv6

/-- The operations of IPv6 networks have the meaning of prefixes exactly if no address is printed
as another one and the network does not start at a number of four bytes. -/
theorem prefixSemantics_iff {x p y q a : Nat} (small : x < 2 ^ 128) (valid : p ≤ 128)
    (validOther : q ≤ 128) :
    PrefixSemantics x p y q a ↔
      ¬ Alike (BitVec.ofNat 128 x &&& cidrMask 128 p) (BitVec.ofNat 128 a &&& cidrMask 128 p) ∧
        ¬ Alike (BitVec.ofNat 128 x &&& cidrMask 128 (min p q))
          (BitVec.ofNat 128 y &&& cidrMask 128 (min p q)) ∧
        ¬ FourByte x := by
  rw [← decides_contains_iff valid, ← decides_overlaps_iff valid validOther, ← network_spec_iff small valid]
  constructor
  · intro semantics
    exact ⟨semantics.contains, semantics.overlaps, semantics.network⟩
  · rintro ⟨contains, overlaps, network⟩
    have apart := (decides_overlaps_iff valid validOther).mp overlaps
    exact ⟨contains, overlaps, decides_containsCIDR valid validOther apart, network⟩

theorem prefixSemantics_of_nested :
    PrefixSemantics (0xfc00 * 2 ^ 112) 48 (0xfc00 * 2 ^ 112 + 2 ^ 64) 64 (0xfc00 * 2 ^ 112 + 5) := by
  refine (prefixSemantics_iff (by decide) (by decide) (by decide)).mpr ⟨?_, ?_, ?_⟩
  · unfold Alike FourByte
    decide
  · unfold Alike FourByte
    decide
  · unfold FourByte
    decide

/-- The network `::a00:0/104` seems to contain `::ffff:a00:1`, and `Network` makes it
`::ffff:a00:0/104`; for the network `::a00:0/64` it panics. -/
theorem not_prefixSemantics_of_fourByte :
    IP6Net.contains ⟨some 0x0a000000, 104⟩ (some 0xffff0a000001) = some true ∧
      IP6Net.network ⟨some 0x0a000000, 104⟩ = some ⟨some 0xffff0a000000, 104⟩ ∧
      IP6Net.network ⟨some 0x0a000000, 64⟩ = none ∧
      ¬ PrefixSemantics 0x0a000000 104 0x0a000000 104 0xffff0a000001 := by
  have contained : IP6Net.contains ⟨some 0x0a000000, 104⟩ (some 0xffff0a000001) = some true := by
    decide
  refine ⟨contained, by decide, by decide, fun semantics => ?_⟩
  obtain ⟨answer, same, right⟩ := semantics.contains
  rw [contained] at same
  obtain rfl := Option.some.inj same
  have shares := right.mp rfl
  rw [sharing_eq_block (by decide)] at shares
  change _ = _ at shares
  revert shares
  decide

end Flannel.Ip
