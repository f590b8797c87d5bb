import Flannel.Wireguard.Survival

/-!
# The mode that is selected

In the mode `auto` the family of a peer's endpoint depends on whether addresses are private. For
IPv6 the code reads the first byte of the minimal encoding: an address with leading zero bytes is
judged by a later byte, and `::` has none.
-/

namespace Flannel.Wireguard

open Net Program

/-! ## The ranges -/

/-- The ranges of RFC 1918: `10.0.0.0/8`, `172.16.0.0/12` and `192.168.0.0/16`. -/
def Rfc1918 (ip4 : Ip.IP4) : Prop :=
  (0x0a000000 ≤ ip4.toNat ∧ ip4.toNat < 0x0b000000) ∨
    (0xac100000 ≤ ip4.toNat ∧ ip4.toNat < 0xac200000) ∨
    (0xc0a80000 ≤ ip4.toNat ∧ ip4.toNat < 0xc0a90000)

/-- The first byte of a number of `k + 1` bytes is `0xfc` or `0xfd`. -/
def LeadsPrivate (k : Nat) (ip6 : Nat) : Prop :=
  0xfc * 256 ^ k ≤ ip6 ∧ ip6 < 0xfe * 256 ^ k

/-- The range `fc00::/7`. -/
def UniqueLocal (ip6 : Nat) : Prop :=
  LeadsPrivate 15 ip6

def Misread (ip6 : Nat) : Prop :=
  ∃ k < 15, LeadsPrivate k ip6

theorem isPrivate_iff_rfc1918 (ip4 : Ip.IP4) : ip4.isPrivate ↔ Rfc1918 ip4 := by
  have small := ip4.isLt
  have high : ∀ octet : Fin 256,
      (BitVec.ofFin (w := 8) octet &&& 0xf0 == 16) = decide (octet.val / 16 = 1) := by
    decide +kernel
  have first : (ip4.extractLsb' 24 8).toNat = ip4.toNat / 2 ^ 24 := by
    rw [BitVec.extractLsb'_toNat, Nat.shiftRight_eq_div_pow, Nat.mod_eq_of_lt (by omega)]
  have second : (ip4.extractLsb' 16 8).toNat = ip4.toNat / 2 ^ 16 % 256 := by
    rw [BitVec.extractLsb'_toNat, Nat.shiftRight_eq_div_pow]
  have nibble : (ip4.extractLsb' 16 8 &&& 0xf0 == 16) =
      decide ((ip4.extractLsb' 16 8).toNat / 16 = 1) :=
    high (ip4.extractLsb' 16 8).toFin
  simp only [Ip.IP4.isPrivate, nibble]
  simp only [Bool.or_eq_true, Bool.and_eq_true, beq_iff_eq, decide_eq_true_eq, ← BitVec.toNat_inj,
    first, second, BitVec.ofNat_eq_ofNat, BitVec.toNat_ofNat, Rfc1918]
  omega

/-! ## The first byte -/

theorem find_bigEndian_zero (count : Nat) : (bigEndian 256 count 0).find? (· != 0) = none := by
  induction count with
  | zero => rfl
  | succ count ih =>
    rw [bigEndian, List.find?_append, Nat.zero_div, ih]
    rfl

theorem find_bigEndian {count ip6 : Nat} (nonzero : ip6 ≠ 0) (small : ip6 < 256 ^ count) :
    ∃ k < count, 256 ^ k ≤ ip6 ∧ ip6 < 256 ^ (k + 1) ∧
      (bigEndian 256 count ip6).find? (· != 0) = some (ip6 / 256 ^ k) := by
  induction count generalizing ip6 with
  | zero =>
    rw [Nat.pow_zero] at small
    omega
  | succ count ih =>
    rw [bigEndian, List.find?_append]
    by_cases short : ip6 < 256
    · refine ⟨0, Nat.zero_lt_succ count, by omega, by omega, ?_⟩
      rw [Nat.div_eq_of_lt short, find_bigEndian_zero, Nat.mod_eq_of_lt short, Nat.pow_zero,
        Nat.div_one]
      simp [nonzero]
    · have smaller : ip6 / 256 < 256 ^ count := by
        rw [Nat.pow_succ] at small
        exact Nat.div_lt_of_lt_mul (by omega)
      obtain ⟨k, inside, low, high, found⟩ := ih (by omega) smaller
      refine ⟨k + 1, Nat.succ_lt_succ inside, ?_, ?_, ?_⟩
      · rw [Nat.pow_succ]
        exact (Nat.le_div_iff_mul_le (by decide)).mp low
      · rw [Nat.pow_succ]
        exact (Nat.div_lt_iff_lt_mul (by decide)).mp high
      · rw [found, Nat.div_div_eq_div_mul, Nat.pow_succ, Nat.mul_comm 256]
        rfl

theorem eq_of_leadsPrivate {j k ip6 : Nat} (low : 256 ^ k ≤ ip6) (high : ip6 < 256 ^ (k + 1))
    (leads : LeadsPrivate j ip6) : j = k := by
  have above : ip6 < 256 ^ (j + 1) := by
    have := leads.2
    rw [Nat.pow_succ]
    omega
  have below : 256 ^ j ≤ ip6 := by
    have := leads.1
    omega
  have notShorter : ¬ j < k := fun shorter => by
    have := Nat.pow_le_pow_right (show 0 < 256 by decide) shorter
    omega
  have notLonger : ¬ k < j := fun longer => by
    have := Nat.pow_le_pow_right (show 0 < 256 by decide) longer
    omega
  omega

theorem uniqueLocal_or_misread_iff {ip6 : Nat} :
    UniqueLocal ip6 ∨ Misread ip6 ↔ ∃ k < 16, LeadsPrivate k ip6 := by
  constructor
  · rintro (uniqueLocal | ⟨k, inside, leads⟩)
    · exact ⟨15, by decide, uniqueLocal⟩
    · exact ⟨k, by omega, leads⟩
  · rintro ⟨k, inside, leads⟩
    rcases Nat.lt_or_ge k 15 with short | long
    · exact .inr ⟨k, short, leads⟩
    · obtain rfl : k = 15 := by omega
      exact .inl leads

theorem not_misread_of_uniqueLocal {ip6 : Nat} (uniqueLocal : UniqueLocal ip6) : ¬ Misread ip6 := by
  rintro ⟨k, short, leads⟩
  have low : 256 ^ 15 ≤ ip6 := by
    have := uniqueLocal.1
    omega
  have high : ip6 < 256 ^ (15 + 1) := by
    have := uniqueLocal.2
    omega
  have := eq_of_leadsPrivate low high leads
  omega

theorem ip6_isPrivate_eq {ip6 : Nat} (nonzero : ip6 ≠ 0) (small : ip6 < 2 ^ 128) :
    ∃ answer, Ip.IP6.isPrivate ip6 = some answer ∧
      (answer ↔ UniqueLocal ip6 ∨ Misread ip6) := by
  obtain ⟨k, inside, low, high, found⟩ := @find_bigEndian 16 ip6 nonzero (by omega)
  have positive : 0 < 256 ^ k := Nat.pow_pos (by decide)
  have byte : ip6 / 256 ^ k < 256 := by
    rw [Nat.div_lt_iff_lt_mul positive, Nat.mul_comm, ← Nat.pow_succ]
    exact high
  have masked : ∀ byte : Fin 256,
      (byte.val &&& 0xfe == 0xfc) = decide (0xfc ≤ byte.val ∧ byte.val < 0xfe) := by
    decide +kernel
  have leads : (ip6 / 256 ^ k &&& 0xfe == 0xfc) ↔ LeadsPrivate k ip6 := by
    rw [masked ⟨_, byte⟩, decide_eq_true_eq, LeadsPrivate, Nat.le_div_iff_mul_le positive,
      Nat.div_lt_iff_lt_mul positive]
  refine ⟨_, ?_, leads.trans ?_⟩
  · rw [Ip.IP6.isPrivate, found, Option.map_some]
  · rw [uniqueLocal_or_misread_iff]
    constructor
    · exact fun leads => ⟨k, inside, leads⟩
    · rintro ⟨j, _, leads⟩
      exact eq_of_leadsPrivate low high leads ▸ leads

theorem ip6_isPrivate_zero : Ip.IP6.isPrivate 0 = none := by
  decide

/-! ## The policy -/

/-- The peer is reached over IPv6: both ends have a public address of that family, and IPv4 is not
preferred. -/
def Prefers6 (n : Network) (ip4 : Ip.IP4) (ip6 : Option Ip.IP6) : Prop :=
  (∃ peer, ip6 = some peer ∧ ¬ UniqueLocal peer) ∧
    (∃ ext, n.extV6Addr = some ext ∧ ¬ UniqueLocal (Ip.fromIP6 ext)) ∧
    ¬ (¬ Rfc1918 ip4 ∧ n.extAddr ≠ none)

def FollowsPolicy (n : Network) (ip4 : Ip.IP4) (ip6 : Option Ip.IP6) : Prop :=
  ∃ mode, n.selectMode ip4 ip6 = pure mode ∧ (mode = .ipv6 ↔ Prefers6 n ip4 ip6)

/-- The addresses of IPv6 that are looked at are read rightly, or it makes no difference. -/
def ReadRightly (n : Network) (peer : Ip.IP6) : Prop :=
  peer ≠ 0 ∧ ∀ ext, n.extV6Addr = some ext →
    UniqueLocal peer ∨ (Misread peer ∧ UniqueLocal (Ip.fromIP6 ext)) ∨
      (¬ Misread peer ∧ Ip.fromIP6 ext ≠ 0 ∧ ¬ Misread (Ip.fromIP6 ext))

section Policy

variable {n : Network} {ip4 : Ip.IP4} {ip6 : Option Ip.IP6}

theorem followsPolicy_of_pure {mode : Mode} (selected : n.selectMode ip4 ip6 = pure mode) :
    FollowsPolicy n ip4 ip6 ↔ (mode = .ipv6 ↔ Prefers6 n ip4 ip6) := by
  constructor
  · rintro ⟨mode', selected', follows⟩
    rw [selected] at selected'
    cases selected'
    exact follows
  · exact fun follows => ⟨mode, selected, follows⟩

theorem not_prefers4_iff :
    ¬ (¬ Rfc1918 ip4 ∧ n.extAddr ≠ none) ↔ Rfc1918 ip4 ∨ n.extAddr = none := by
  tauto

theorem direct_iff : (!ip4.isPrivate && n.extAddr != none) ↔
    ¬ Rfc1918 ip4 ∧ n.extAddr ≠ none := by
  rw [Bool.and_eq_true, Bool.not_eq_true', Bool.eq_false_iff, ne_eq, isPrivate_iff_rfc1918,
    bne_iff_ne]

variable {peer : Ip.IP6}

theorem isPrivate_ne_none_of_followsPolicy
    (considered : Rfc1918 ip4 ∨ n.extAddr = none) (follows : FollowsPolicy n ip4 (some peer)) :
    Ip.IP6.isPrivate peer ≠ none ∧ (Ip.IP6.isPrivate peer = some false →
      ∀ ext, n.extV6Addr = some ext → Ip.IP6.isPrivate (Ip.fromIP6 ext) ≠ none) := by
  obtain ⟨mode, selected, _⟩ := follows
  have notStops : ¬ Stops ⟨n.extAddr, n.extV6Addr⟩ ⟨ip4, some peer, "", none, none⟩ :=
    exists_returns_selectMode.mp ⟨mode, (congrArg (Returns Any · mode) selected).mpr rfl⟩
  rw [Stops, isPrivate_iff_rfc1918, not_and] at notStops
  constructor
  · intro empty
    exact notStops considered ⟨peer, rfl, .inl empty⟩
  · intro judgedPublic ext isExt empty
    exact notStops considered ⟨peer, rfl, .inr ⟨judgedPublic, ext, isExt, empty⟩⟩

theorem isPrivate_eq_pure {address : Ip.IP6} {answer : Bool}
    (isAnswer : Ip.IP6.isPrivate address = some answer) : isPrivate address = pure answer := by
  rw [isPrivate, isAnswer]

theorem selectMode_of_private (considered : Rfc1918 ip4 ∨ n.extAddr = none)
    (isAnswer : Ip.IP6.isPrivate peer = some true) : n.selectMode ip4 (some peer) = pure .ipv4 := by
  have notDirect := direct_iff.not.mpr (not_prefers4_iff.2 considered)
  rw [Network.selectMode, if_neg notDirect, isPrivate_eq_pure isAnswer]
  rfl

theorem selectMode_of_no_ext (considered : Rfc1918 ip4 ∨ n.extAddr = none)
    (isAnswer : Ip.IP6.isPrivate peer = some false) (isExt : n.extV6Addr = none) :
    n.selectMode ip4 (some peer) = pure .ipv4 := by
  have notDirect := direct_iff.not.mpr (not_prefers4_iff.2 considered)
  rw [Network.selectMode, if_neg notDirect, isPrivate_eq_pure isAnswer, isExt]
  rfl

theorem selectMode_of_ext {ext : Net.IP} {answer : Bool}
    (considered : Rfc1918 ip4 ∨ n.extAddr = none)
    (isAnswer : Ip.IP6.isPrivate peer = some false) (isExt : n.extV6Addr = some ext)
    (isAnswer' : Ip.IP6.isPrivate (Ip.fromIP6 ext) = some answer) :
    n.selectMode ip4 (some peer) = pure (if answer then .ipv4 else .ipv6) := by
  have notDirect := direct_iff.not.mpr (not_prefers4_iff.2 considered)
  rw [Network.selectMode, if_neg notDirect, isPrivate_eq_pure isAnswer, isExt]
  simp only [Prog.pure_eq_ret, Prog.ret_bind, Bool.false_eq_true, if_false, isPrivate_eq_pure isAnswer']
  cases answer <;> rfl

theorem followsPolicy_iff_readRightly (smallPeer : peer < 2 ^ 128)
    (considered : Rfc1918 ip4 ∨ n.extAddr = none) :
    FollowsPolicy n ip4 (some peer) ↔ ReadRightly n peer := by
  have prefers : Prefers6 n ip4 (some peer) ↔ ¬ UniqueLocal peer ∧
      ∃ ext, n.extV6Addr = some ext ∧ ¬ UniqueLocal (Ip.fromIP6 ext) := by
    simp [Prefers6, not_prefers4_iff.2 considered]
  by_cases zero : peer = 0
  · refine iff_of_false (fun follows => ?_) fun right => right.1 zero
    exact (isPrivate_ne_none_of_followsPolicy considered follows).1 (zero ▸ ip6_isPrivate_zero)
  obtain ⟨answer, isAnswer, means⟩ := ip6_isPrivate_eq zero smallPeer
  rw [ReadRightly, and_iff_right zero]
  cases answer with
  | true =>
    -- The peer is taken for private: IPv4, whatever the own address is.
    rw [followsPolicy_of_pure (selectMode_of_private considered isAnswer), prefers]
    have reads := means.mp rfl
    constructor
    · intro follows ext isExt
      by_cases uniqueLocal : UniqueLocal peer
      · exact .inl uniqueLocal
      · refine .inr (.inl ⟨reads.resolve_left uniqueLocal, ?_⟩)
        by_contra public_
        cases follows.mpr ⟨uniqueLocal, ext, isExt, public_⟩
    · intro right
      refine iff_of_false Mode.noConfusion ?_
      rintro ⟨notLocal, ext, isExt, public_⟩
      rcases right ext isExt with uniqueLocal | ⟨_, uniqueLocal⟩ | ⟨notMisread, _⟩
      · exact notLocal uniqueLocal
      · exact public_ uniqueLocal
      · exact notMisread (reads.resolve_left notLocal)
  | false =>
    -- The peer is taken for public, and the own address decides.
    have reads : ¬ UniqueLocal peer ∧ ¬ Misread peer := by
      rw [← not_or, ← means]
      exact Bool.false_ne_true
    cases isExt : n.extV6Addr with
    | none =>
      rw [followsPolicy_of_pure (selectMode_of_no_ext considered isAnswer isExt), prefers, isExt]
      simp
    | some ext =>
      have right : (∀ ext', some ext = some ext' → UniqueLocal peer ∨
          (Misread peer ∧ UniqueLocal (Ip.fromIP6 ext')) ∨
            (¬ Misread peer ∧ Ip.fromIP6 ext' ≠ 0 ∧ ¬ Misread (Ip.fromIP6 ext'))) ↔
          Ip.fromIP6 ext ≠ 0 ∧ ¬ Misread (Ip.fromIP6 ext) := by
        simp [reads]
      rw [right]
      by_cases extZero : Ip.fromIP6 ext = 0
      · refine iff_of_false (fun follows => ?_) fun right => right.1 extZero
        exact (isPrivate_ne_none_of_followsPolicy considered follows).2 isAnswer ext isExt
          (extZero ▸ ip6_isPrivate_zero)
      obtain ⟨answer, isAnswer', means'⟩ := ip6_isPrivate_eq extZero ext.to16.isLt
      have prefersExt : (∃ ext', some ext = some ext' ∧ ¬ UniqueLocal (Ip.fromIP6 ext')) ↔
          ¬ UniqueLocal (Ip.fromIP6 ext) := by
        simp
      rw [followsPolicy_of_pure (selectMode_of_ext considered isAnswer isExt isAnswer'), prefers,
        isExt, prefersExt, and_iff_right reads.1, and_iff_right extZero]
      cases answer with
      | true =>
        have reads' := means'.mp rfl
        refine (iff_of_eq (congrArg (· ↔ _) (eq_false Mode.noConfusion))).trans ?_
        rw [false_iff, not_not]
        constructor
        · exact not_misread_of_uniqueLocal
        · exact reads'.resolve_right
      | false =>
        have reads' : ¬ UniqueLocal (Ip.fromIP6 ext) ∧ ¬ Misread (Ip.fromIP6 ext) := by
          rw [← not_or, ← means']
          exact Bool.false_ne_true
        exact iff_of_true (iff_of_true rfl reads'.1) reads'.2

/-- The selection looks at addresses of IPv6 only if the peer has one and IPv4 is not preferred; then
it follows the policy exactly if these addresses are read rightly. -/
theorem followsPolicy_iff (small : ∀ peer, ip6 = some peer → peer < 2 ^ 128) :
    FollowsPolicy n ip4 ip6 ↔
      ∀ peer, ip6 = some peer → Rfc1918 ip4 ∨ n.extAddr = none → ReadRightly n peer := by
  cases ip6 with
  | none =>
    have selected : n.selectMode ip4 none = pure .ipv4 := rfl
    rw [followsPolicy_of_pure selected]
    simp [Prefers6]
  | some peer =>
    by_cases considered : Rfc1918 ip4 ∨ n.extAddr = none
    · rw [followsPolicy_iff_readRightly (small peer rfl) considered]
      constructor
      · rintro right _ ⟨⟩ _
        exact right
      · exact fun right => right peer rfl considered
    · have prefers4 : ¬ Rfc1918 ip4 ∧ n.extAddr ≠ none := by
        rwa [← not_prefers4_iff, not_not] at considered
      have selected : n.selectMode ip4 (some peer) = pure .ipv4 := by
        rw [Network.selectMode, if_pos (direct_iff.2 prefers4)]
      rw [followsPolicy_of_pure selected]
      refine iff_of_true (iff_of_false Mode.noConfusion ?_) fun _ _ considered' => absurd considered' considered
      rintro ⟨_, _, notPrefers⟩
      exact notPrefers prefers4

end Policy

def autoNetwork : Network where
  dev := none
  v6Dev := none
  mode := .auto
  extAddr := some (.v4 0xc0a80001)
  extV6Addr := some (.v16 0x20010db8000000000000000000000001)

theorem followsPolicy_of_public :
    FollowsPolicy autoNetwork 0xc0a80002 (some 0x20010db8000000000000000000000002) := by
  refine (followsPolicy_iff ?_).mpr ?_
  · rintro _ ⟨⟩
    decide
  · rintro _ ⟨⟩ _
    refine ⟨by decide, ?_⟩
    rintro _ ⟨⟩
    unfold Misread LeadsPrivate
    exact .inr (.inr ⟨by decide, by decide, by decide⟩)

/-- The address `fd:1234::1` is taken for one of `fc00::/7`, and at `::` the selection panics. -/
theorem not_followsPolicy_of_zero_bytes :
    (autoNetwork.selectMode 0xc0a80002 (some 0x00fd1234000000000000000000000001) = pure .ipv4 ∧
      Prefers6 autoNetwork 0xc0a80002 (some 0x00fd1234000000000000000000000001)) ∧
      ¬ FollowsPolicy autoNetwork 0xc0a80002 (some 0x00fd1234000000000000000000000001) ∧
      ¬ FollowsPolicy autoNetwork 0xc0a80002 (some 0) := by
  have considered : Rfc1918 0xc0a80002 ∨ autoNetwork.extAddr = none :=
    .inl (by unfold Rfc1918; decide)
  have public_ : ¬ UniqueLocal 0x00fd1234000000000000000000000001 := by
    unfold UniqueLocal LeadsPrivate
    decide
  have extPublic : ¬ UniqueLocal (Ip.fromIP6 (.v16 0x20010db8000000000000000000000001)) := by
    unfold UniqueLocal LeadsPrivate
    decide
  have misread : Misread 0x00fd1234000000000000000000000001 := by
    unfold Misread LeadsPrivate
    decide
  refine ⟨⟨selectMode_of_private considered (by decide), ?_⟩, ?_, ?_⟩
  · exact ⟨⟨_, rfl, public_⟩, ⟨_, rfl, extPublic⟩, not_prefers4_iff.2 considered⟩
  · rw [followsPolicy_iff_readRightly (by decide) considered]
    rintro ⟨_, right⟩
    rcases right _ rfl with uniqueLocal | ⟨_, uniqueLocal⟩ | ⟨notMisread, _⟩
    · exact public_ uniqueLocal
    · exact extPublic uniqueLocal
    · exact notMisread misread
  · rw [followsPolicy_iff_readRightly (by decide) considered]
    exact fun right => right.1 rfl

end Flannel.Wireguard
