import Flannel.Udp.Checksum

/-!
# The time to live of a packet

A received packet as `struct iphdr` overlays it, and `decrement_ttl`, which
patches the header checksum instead of computing it again.
-/

namespace Flannel.Udp

open Bits

/-- A packet of at least 20 bytes: the fixed part of the IP header as the host loads it, then
options and payload. -/
structure Packet where
  /-- `ihl` in the low four bits, `version` in the high ones. -/
  verIhl : Byte
  tos : Byte
  totLen : BitVec 16
  id : BitVec 16
  fragOff : BitVec 16
  ttl : Byte
  protocol : Byte
  check : BitVec 16
  saddr : BitVec 32
  daddr : BitVec 32
  rest : List Byte
  deriving DecidableEq

namespace Packet

def overlay : List Byte → Option Packet
  | b₀ :: b₁ :: b₂ :: b₃ :: b₄ :: b₅ :: b₆ :: b₇ :: b₈ :: b₉ :: b₁₀ :: b₁₁ :: b₁₂ :: b₁₃ :: b₁₄ ::
      b₁₅ :: b₁₆ :: b₁₇ :: b₁₈ :: b₁₉ :: rest =>
    some ⟨b₀, b₁, b₃ ++ b₂, b₅ ++ b₄, b₇ ++ b₆, b₈, b₉, b₁₁ ++ b₁₀,
      (b₁₅ ++ b₁₄ : BitVec 16) ++ (b₁₃ ++ b₁₂ : BitVec 16),
      (b₁₉ ++ b₁₈ : BitVec 16) ++ (b₁₇ ++ b₁₆ : BitVec 16), rest⟩
  | _ => none

def bytes (p : Packet) : List Byte :=
  [p.verIhl, p.tos] ++ bytes16 p.totLen ++ bytes16 p.id ++ bytes16 p.fragOff ++
    [p.ttl, p.protocol] ++ bytes16 p.check ++ bytes32 p.saddr ++ bytes32 p.daddr ++ p.rest

def ihl (p : Packet) : Nat :=
  p.verIhl.toNat % 16

theorem bytes_of_overlay {region : List Byte} {p : Packet} (laid : overlay region = some p) :
    p.bytes = region := by
  unfold overlay at laid
  split at laid
  · obtain rfl := Option.some.inj laid
    simp [bytes, bytes16, bytes32]
  · cases laid

theorem total_header (p : Packet) {n : Nat} (long : 5 ≤ n) :
    ∃ others, ∀ ttl check,
      total (halves (({ p with ttl := ttl, check := check } : Packet).bytes.take (4 * n))) =
        others + ttl.toNat + check.toNat := by
  obtain ⟨m, rfl⟩ := Nat.exists_eq_add_of_le' long
  refine ⟨total (halves (({ p with ttl := 0, check := 0 } : Packet).bytes.take (4 * (m + 5)))),
    fun ttl check => ?_⟩
  have length : 4 * (m + 5) = 4 * m + 20 := by omega
  have half (low : Byte) : BitVec.toNat (p.protocol ++ low : BitVec 16) =
      p.protocol.toNat * 256 + low.toNat := toNat_append_eq _ _
  have changed := half ttl
  have zeroed := half 0
  simp [length, bytes, bytes16, bytes32, halves] at zeroed ⊢
  omega

end Packet

def decrementTtl (iph : Packet) : Bool × Packet :=
  let iph := { iph with ttl := iph.ttl - 1 }
  if iph.ttl = 0 then (false, iph)
  -- patch up the checksum
  else if iph.check ≥ swap16 (0xFFFF#16 - 0x100#16) then
    (true, { iph with check := iph.check + (swap16 0x100#16 + 1) })
  else (true, { iph with check := iph.check + swap16 0x100#16 })

theorem toNat_ttl_sub_one {ttl : Byte} (alive : 1 ≤ ttl.toNat) :
    (ttl - 1).toNat = ttl.toNat - 1 :=
  BitVec.toNat_sub_of_le alive

theorem exists_decrementTtl {p : Packet} (alive : 2 ≤ p.ttl.toNat) :
    ∃ check, decrementTtl p = (true, { p with ttl := p.ttl - 1, check := check }) ∧
      (check.toNat = p.check.toNat + 1 ∨ check.toNat + 65535 = p.check.toNat + 1) := by
  have bound := p.check.isLt
  have nonzero : p.ttl - 1 ≠ 0 := by
    intro zero
    have ttl := toNat_ttl_sub_one (Nat.le_of_succ_le alive)
    rw [zero] at ttl
    change 0 = _ at ttl
    omega
  have limit : swap16 (0xFFFF#16 - 0x100#16) = 0xFFFE#16 := by decide
  have one : swap16 0x100#16 = 1#16 := by decide
  simp only [decrementTtl, nonzero, if_false, limit, one]
  by_cases high : p.check ≥ 0xFFFE#16
  · have least : 0xFFFE ≤ p.check.toNat := high
    refine ⟨_, by rw [if_pos high], .inr ?_⟩
    rw [BitVec.toNat_add]
    change (p.check.toNat + 2) % 65536 + 65535 = _
    omega
  · have below : ¬ 0xFFFE ≤ p.check.toNat := high
    refine ⟨_, by rw [if_neg high], .inl ?_⟩
    rw [BitVec.toNat_add]
    change (p.check.toNat + 1) % 65536 = _
    omega

/-- A header of five or more words that verifies and has time to live left still
verifies after `decrement_ttl`, and only the two fields have changed. -/
theorem decrementTtl_keeps_checksum (p : Packet) (n : Nat) (size : 5 ≤ n)
    (verifies : Verifies (p.bytes.take (4 * n)))
    (alive : 2 ≤ p.ttl.toNat) :
    ∃ p', decrementTtl p = (true, p') ∧ p'.ttl.toNat = p.ttl.toNat - 1 ∧
      (∀ i, i ≠ 8 → i ≠ 10 → i ≠ 11 → p'.bytes[i]? = p.bytes[i]?) ∧
      Verifies (p'.bytes.take (4 * n)) := by
  obtain ⟨check, decremented, sum⟩ := exists_decrementTtl alive
  have ttl := toNat_ttl_sub_one (Nat.le_of_succ_le alive)
  refine ⟨_, decremented, ttl, ?_, ?_⟩
  · intro i isTtl isCheck isCheck'
    match i with
    | 0 | 1 | 2 | 3 | 4 | 5 | 6 | 7 | 9 | _ + 12 => rfl
    | 8 | 10 | 11 => contradiction
  · obtain ⟨others, total⟩ := p.total_header size
    have before := total p.ttl p.check
    have after := total (p.ttl - 1) check
    rw [Verifies, onesSum_eq_allOnes_iff (by decide)] at verifies ⊢
    rw [before] at verifies
    rw [after, ttl]
    -- the first field is one less; the second is one more, or `65534` less
    omega

theorem decrementTtl_keeps_checksum_of_64 :
    let p : Packet := ⟨0x45#8, 0#8, 0#16, 0#16, 0#16, 64#8, 0#8, 0xFF7A#16, 0#32, 0#32, []⟩
    ∃ p', decrementTtl p = (true, p') ∧ p'.ttl.toNat = 63 ∧
      (∀ i, i ≠ 8 → i ≠ 10 → i ≠ 11 → p'.bytes[i]? = p.bytes[i]?) ∧
      Verifies (p'.bytes.take 20) :=
  decrementTtl_keeps_checksum _ 5 (by decide) (by decide) (by decide)

end Flannel.Udp
