import Flannel.Udp.Packet
import Flannel.Udp.Routes

/-!
# Forwarding

`tun_to_udp` and `udp_to_tun`: a packet is forwarded with a smaller time to live
unless it arrives with none, and a packet without a route is answered by an ICMP
message that quotes the shared receive buffer.
-/

namespace Flannel.Udp

open Bits

inductive Sent
  | sock (pkt : Packet) (dst : SockaddrIn)
  | tun (pkt : Packet)
  | icmp (bytes : List Byte)
  /-- `memcpy` reads past the end of the buffer. -/
  | undefined
  deriving DecidableEq

def icmpIph (tunAddr daddr : BitVec 32) (pktlen : Nat) (check : BitVec 16) : List Byte :=
  [0x45#8, 0#8] ++ bytes16 (swap16 (BitVec.ofNat 16 pktlen)) ++ [0#8, 0#8, 0#8, 0#8, 8#8, 1#8] ++
    bytes16 check ++ bytes32 tunAddr ++ bytes32 daddr

def icmpMessage (data : List Byte) (check : BitVec 16) : List Byte :=
  [3#8, 0#8] ++ bytes16 check ++ [0#8, 0#8, 0#8, 0#8] ++ data

def sendNetUnreachable (tunAddr : BitVec 32) (buf : List Byte) (offIph : Packet) : List Sent :=
  let offIphLen := offIph.ihl * 4
  if offIphLen ≥ 60 then []
  -- no ICMP message about an ICMP message, and only about a first fragment
  else if offIph.protocol = 1#8 then []
  else if offIph.fragOff &&& swap16 0x1FFF#16 ≠ 0 then []
  else if buf.length < offIphLen + 8 then [.undefined]
  else
    let pktlen := 20 + 8 + offIphLen + 8
    let iph := icmpIph tunAddr offIph.saddr pktlen
    let icmph := icmpMessage (buf.take (offIphLen + 8))
    [.icmp (iph (cksum (words (iph 0))) ++ icmph (cksum (words (icmph 0))))]

/-- `tun_to_udp` for a packet that `tun_recv_packet` returns; `stale` is what is left
in the buffer behind it. -/
def tunToUdp (tunAddr : BitVec 32) (routes : Routes) (stale : List Byte) (pkt : Packet) :
    List Sent :=
  match (findRoute pkt.daddr routes).1 with
  | none => sendNetUnreachable tunAddr (pkt.bytes ++ stale) pkt
  | some nextHop =>
    match decrementTtl pkt with
    | (false, _) => []
    | (true, pkt) => [.sock pkt nextHop]

def udpToTun (pkt : Packet) : List Sent :=
  match decrementTtl pkt with
  | (false, _) => []
  | (true, pkt) => [.tun pkt]

/-! ## Time to live -/

inductive Hop
  | tunToUdp (tunAddr : BitVec 32) (routes : Routes) (stale : List Byte)
  | udpToTun

def Hop.sent (pkt : Packet) : Hop → List Sent
  | .tunToUdp tunAddr routes stale => Udp.tunToUdp tunAddr routes stale pkt
  | .udpToTun => Udp.udpToTun pkt

def Sent.forwarded : Sent → Option Packet
  | .sock pkt _ | .tun pkt => some pkt
  | _ => none

def Hop.forward (hop : Hop) (pkt : Packet) : Option Packet :=
  (hop.sent pkt).findSome? Sent.forwarded

def circulate (pkt : Packet) : List Hop → Option Packet
  | [] => some pkt
  | hop :: hops => (hop.forward pkt).bind (circulate · hops)

variable {pkt pkt' : Packet}

theorem ttl_of_decrementTtl (kept : decrementTtl pkt = (true, pkt')) :
    pkt'.ttl = pkt.ttl - 1 ∧ pkt'.ttl ≠ 0 := by
  simp only [decrementTtl] at kept
  split at kept
  · cases kept
  · next nonzero =>
    split at kept <;> cases kept <;> exact ⟨rfl, nonzero⟩

theorem decrementTtl_of_forward {hop : Hop}
    (forwarded : hop.forward pkt = some pkt') : decrementTtl pkt = (true, pkt') := by
  cases decremented : decrementTtl pkt with
  | mk alive after =>
    cases hop with
    | udpToTun => cases alive <;> simp_all [Hop.forward, Hop.sent, udpToTun, Sent.forwarded]
    | tunToUdp tunAddr routes stale =>
      simp only [Hop.forward, Hop.sent, tunToUdp, decremented] at forwarded
      split at forwarded
      · simp only [sendNetUnreachable] at forwarded
        split_ifs at forwarded <;> cases forwarded
      · cases alive <;> simp_all [Sent.forwarded]

theorem forward_spec {hop : Hop} (forwarded : hop.forward pkt = some pkt') :
    pkt'.ttl = pkt.ttl - 1 ∧ pkt'.ttl ≠ 0 :=
  ttl_of_decrementTtl (decrementTtl_of_forward forwarded)

theorem toNat_ttl_of_forward {hop : Hop} (alive : pkt.ttl ≠ 0)
    (forwarded : hop.forward pkt = some pkt') :
    pkt'.ttl.toNat + 1 = pkt.ttl.toNat ∧ 0 < pkt'.ttl.toNat := by
  obtain ⟨less, nonzero⟩ := forward_spec forwarded
  have positive (ttl : Byte) (ne : ttl ≠ 0) : 0 < ttl.toNat :=
    Nat.pos_of_ne_zero fun zero => ne (BitVec.eq_of_toNat_eq zero)
  have before := positive _ alive
  rw [less, toNat_ttl_sub_one before]
  have after := positive _ nonzero
  rw [less, toNat_ttl_sub_one before] at after
  exact ⟨by omega, after⟩

theorem length_of_circulate {hops : List Hop} (alive : pkt.ttl ≠ 0)
    (arrived : circulate pkt hops = some pkt') : hops.length < pkt.ttl.toNat := by
  induction hops generalizing pkt with
  | nil => exact Nat.pos_of_ne_zero fun zero => alive (BitVec.eq_of_toNat_eq zero)
  | cons hop hops ih =>
    obtain ⟨next, forwarded, further⟩ := Option.bind_eq_some_iff.mp arrived
    obtain ⟨less, positive⟩ := toNat_ttl_of_forward alive forwarded
    have later := ih (fun zero => by simp [zero] at positive) further
    rw [List.length_cons]
    omega

theorem exists_forward_of_ttl_zero (zero : pkt.ttl = 0) :
    ∃ pkt', Hop.udpToTun.forward pkt = some pkt' := by
  have wrapped : (0 : Byte) - 1 ≠ 0 := by decide
  simp only [Hop.forward, Hop.sent, udpToTun, decrementTtl, zero, wrapped, if_false]
  split_ifs <;> exact ⟨_, rfl⟩

/-- Forwarding takes from the time to live, and a packet is forwarded at most 254
times, exactly if it does not arrive with a time to live of zero. -/
theorem forwarding_consumes_ttl_iff (pkt : Packet) :
    ((∀ (hop : Hop) pkt', hop.forward pkt = some pkt' → pkt'.ttl < pkt.ttl ∧ 0 < pkt'.ttl) ∧
      ∀ hops, (circulate pkt hops).isSome → hops.length ≤ 254) ↔ pkt.ttl ≠ 0 := by
  constructor
  · rintro ⟨consumes, -⟩ zero
    obtain ⟨pkt', forwarded⟩ := exists_forward_of_ttl_zero zero
    have less := (consumes .udpToTun pkt' forwarded).1
    rw [zero] at less
    exact absurd less (Nat.not_lt_zero _)
  · intro alive
    constructor
    · intro hop pkt' forwarded
      obtain ⟨less, positive⟩ := toNat_ttl_of_forward alive forwarded
      exact ⟨BitVec.lt_def.mpr (by omega), positive⟩
    · intro hops arrived
      obtain ⟨pkt', arrived⟩ := Option.isSome_iff_exists.mp arrived
      have fewer := length_of_circulate alive arrived
      have bound := pkt.ttl.isLt
      omega

/-- A packet that arrives without time to live is forwarded with 255, and 255 times
in all. -/
theorem ttl_zero_is_forwarded :
    let pkt : Packet := ⟨0x45#8, 0#8, 0#16, 0#16, 0#16, 0#8, 0#8, 0#16, 0#32, 0#32, []⟩
    (Hop.udpToTun.forward pkt).map Packet.ttl = some 255#8 ∧
      (circulate pkt (List.replicate 255 .udpToTun)).isSome := by
  decide +kernel

/-! ## Replies -/

def Answered (pkt : Packet) : Prop :=
  pkt.ihl * 4 < 60 ∧ pkt.protocol ≠ 1#8 ∧ pkt.fragOff &&& swap16 0x1FFF#16 = 0

structure WellFormed (pkt : Packet) (reply : List Byte) : Prop where
  iph : Verifies (reply.take 20)
  icmp : Verifies (reply.drop 20)
  header : ∃ iph : Packet, iph.bytes = reply ∧ (swap16 iph.totLen).toNat = reply.length ∧
    iph.daddr = pkt.saddr
  quoted : reply.drop 28 <+: pkt.bytes

def Sent.Sound (pkt : Packet) : Sent → Prop
  | .icmp reply => WellFormed pkt reply
  | .undefined => False
  | _ => True

theorem verifies_icmpIph (tunAddr daddr : BitVec 32) (pktlen : Nat) :
    Verifies (icmpIph tunAddr daddr pktlen (cksum (words (icmpIph tunAddr daddr pktlen 0)))) := by
  refine @verifies_cksum (icmpIph tunAddr daddr pktlen 0) _ ⟨5, rfl⟩ 5 rfl ?_
  simp [icmpIph, bytes16, bytes32, halves]

theorem verifies_icmpMessage {data : List Byte} {n : Nat} (full : data.length = 4 * n) :
    Verifies (icmpMessage data (cksum (words (icmpMessage data 0)))) := by
  refine @verifies_cksum (icmpMessage data 0) _ ⟨n + 2, ?_⟩ 1 rfl ?_
  · simp [icmpMessage, bytes16, full]
    omega
  · simp [icmpMessage, bytes16, halves]

theorem wellFormed_iff {data : List Byte} {n : Nat} (full : data.length = 4 * n)
    (small : n ≤ 20) (tunAddr : BitVec 32) :
    let iph := icmpIph tunAddr pkt.saddr (28 + 4 * n)
    let icmph := icmpMessage data
    WellFormed pkt (iph (cksum (words (iph 0))) ++ icmph (cksum (words (icmph 0)))) ↔
      data <+: pkt.bytes := by
  intro iph icmph
  generalize isIph : cksum (words (iph 0)) = check
  generalize isIcmph : cksum (words (icmph 0)) = check'
  have quoted : (iph check ++ icmph check').drop 28 = data := rfl
  constructor
  · intro formed
    rw [← quoted]
    exact formed.quoted
  · intro isPart
    have laid : Packet.bytes ⟨0x45#8, 0#8, swap16 (BitVec.ofNat 16 (28 + 4 * n)), 0#16, 0#16, 8#8,
        1#8, check, tunAddr, pkt.saddr, icmph check'⟩ = iph check ++ icmph check' := by
      simp [Packet.bytes, iph, icmpIph, bytes16, bytes32, lowByte, highByte]
    refine ⟨?_, ?_, ⟨_, laid, ?_, rfl⟩, quoted ▸ isPart⟩
    · have first : (iph check ++ icmph check').take 20 = iph check := rfl
      rw [first, ← isIph]
      exact verifies_icmpIph tunAddr pkt.saddr _
    · have second : (iph check ++ icmph check').drop 20 = icmph check' := rfl
      rw [second, ← isIcmph]
      exact verifies_icmpMessage full
    · have length : (iph check ++ icmph check').length = 28 + 4 * n := by
        rw [← full]
        simp [iph, icmph, icmpIph, icmpMessage, bytes16, bytes32]
        omega
      rw [length, swap16_swap16, BitVec.toNat_ofNat]
      omega

theorem sendNetUnreachable_of_answered (answered : Answered pkt)
    (tunAddr : BitVec 32) (buf : List Byte) :
    sendNetUnreachable tunAddr buf pkt =
      if buf.length < pkt.ihl * 4 + 8 then [.undefined]
      else
        let iph := icmpIph tunAddr pkt.saddr (28 + 4 * (pkt.ihl + 2))
        let icmph := icmpMessage (buf.take (pkt.ihl * 4 + 8))
        [.icmp (iph (cksum (words (iph 0))) ++ icmph (cksum (words (icmph 0))))] := by
  have length : 20 + 8 + pkt.ihl * 4 + 8 = 28 + 4 * (pkt.ihl + 2) := by omega
  simp only [sendNetUnreachable, Nat.not_le.mpr answered.1, answered.2.1, answered.2.2,
    ne_eq, not_true_eq_false, if_false, length]

theorem sendNetUnreachable_of_not_answered (ignored : ¬ Answered pkt)
    (tunAddr : BitVec 32) (buf : List Byte) : sendNetUnreachable tunAddr buf pkt = [] := by
  simp only [sendNetUnreachable]
  split_ifs with long isICMP fragment short
  · rfl
  · rfl
  · rfl
  all_goals exact absurd ⟨Nat.not_le.mp long, isICMP, not_not.mp fragment⟩ ignored

/-- Of a packet without a route, every reply is well formed and quotes only the packet
exactly if the header length in an answered packet leaves eight bytes behind it. -/
theorem replies_sound_iff (tunAddr : BitVec 32) (routes : Routes) (stale : List Byte)
    (pkt : Packet) :
    (∀ sent ∈ tunToUdp tunAddr routes stale pkt, sent.Sound pkt) ↔
      ((findRoute pkt.daddr routes).1 = none → Answered pkt →
        pkt.ihl * 4 + 8 ≤ pkt.bytes.length) := by
  unfold tunToUdp
  cases (findRoute pkt.daddr routes).1 with
  | some nextHop =>
    refine iff_of_true ?_ nofun
    rcases decrementTtl pkt with ⟨_ | _, after⟩
    · exact nofun
    · simp [Sent.Sound]
  | none =>
    simp only [true_imp_iff]
    by_cases answered : Answered pkt
    · have size : pkt.ihl < 16 := Nat.mod_lt _ (by decide)
      rw [sendNetUnreachable_of_answered answered]
      by_cases short : (pkt.bytes ++ stale).length < pkt.ihl * 4 + 8
      · rw [if_pos short]
        rw [List.length_append] at short
        simp only [List.mem_singleton, forall_eq, Sent.Sound, false_iff]
        exact fun fits => absurd (fits answered) (by omega)
      · rw [if_neg short]
        have full : ((pkt.bytes ++ stale).take (pkt.ihl * 4 + 8)).length = 4 * (pkt.ihl + 2) := by
          rw [List.length_take]
          omega
        simp only [List.mem_singleton, forall_eq, Sent.Sound, answered, true_imp_iff]
        refine (wellFormed_iff full (by omega) tunAddr).trans ?_
        constructor
        · intro isPart
          have shorter := isPart.length_le
          omega
        · intro fits
          rw [List.take_append_of_le_length fits]
          exact List.take_prefix _ _
    · simp [sendNetUnreachable_of_not_answered answered, answered]

/-- A packet of 20 bytes is answered with eight bytes of an earlier one. -/
theorem reply_quotes_stale_bytes :
    let pkt : Packet := ⟨0x45#8, 0#8, 0#16, 0#16, 0#16, 64#8, 17#8, 0#16, 0#32, 0#32, []⟩
    let stale := List.replicate 8 0xAA#8
    ∃ reply, tunToUdp 0#32 ⟨[], 0⟩ stale pkt = [.icmp reply] ∧ reply.drop 48 = stale ∧
      ¬ WellFormed pkt reply := by
  refine ⟨_, rfl, rfl, fun formed => ?_⟩
  exact absurd formed.quoted.length_le (by decide)

end Flannel.Udp
