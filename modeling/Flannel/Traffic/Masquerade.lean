import Flannel.Filter.Chain
import Flannel.Traffic.Rules

/-!
# Which packets are masqueraded

The rules are read as the tools read them. The managers agree except in two situations: the
nftables chain returns for every packet to the cluster network, where iptables masquerades those
that neither come from nor go to the local pods; and it compares the whole mark with the bit of
kube-proxy, so a packet with further bits is masqueraded although iptables returns.
-/

namespace Flannel.Traffic

open Flannel.Filter Ip Leases Net Text

/-! ## Reading rules -/

def readHex : List Char → Option (BitVec 32)
  | '0' :: 'x' :: digits =>
    if !digits.isEmpty && digits.all isHex then some (BitVec.ofNat 32 (numeral 16 digits))
    else none
  | _ => none

def readMark (text : String) : Option (BitVec 32 × BitVec 32) :=
  match text.toList.span (· != '/') with
  | (value, '/' :: mask) => (readHex value).bind fun value => (readHex mask).map (value, ·)
  | _ => none

def readTarget : List String → Option Verdict
  | ["RETURN"] => some .leave
  | ["MASQUERADE"] => some .masquerade
  | ["MASQUERADE", "--random-fully"] => some .masquerade
  | _ => none

def readRulespec : List String → Option Rule
  | "-m" :: "mark" :: "--mark" :: mark :: rest =>
    (readMark mark).bind fun mark => (readRulespec rest).map (.also (.mark mark.1 mark.2))
  | "-m" :: "comment" :: "--comment" :: _ :: rest => readRulespec rest
  | "!" :: "-s" :: cidr :: rest => (readRulespec rest).map (.also (.source true cidr))
  | "!" :: "-d" :: cidr :: rest => (readRulespec rest).map (.also (.destination true cidr))
  | "-s" :: cidr :: rest => (readRulespec rest).map (.also (.source false cidr))
  | "-d" :: cidr :: rest => (readRulespec rest).map (.also (.destination false cidr))
  | "-j" :: target => (readTarget target).map (⟨[], ·⟩)
  | _ => none

def readChain (chain : String) (rules : List IPTablesRule) : Option (List Rule) :=
  (rules.filter (·.chain = chain)).mapM fun rule => readRulespec rule.rulespec

def readNftRule (fam : String) : List String → Option Rule
  | ["return"] => some ⟨[], .leave⟩
  | ["masquerade"] => some ⟨[], .masquerade⟩
  | ["masquerade fully-random"] => some ⟨[], .masquerade⟩
  | "meta mark" :: value :: rest =>
    (readHex value.toList).bind fun value =>
      (readNftRule fam rest).map (.also (.mark value (BitVec.allOnes 32)))
  | first :: field :: "!=" :: cidr :: rest =>
    if first = fam then
      match field with
      | "saddr" => (readNftRule fam rest).map (.also (.source true cidr))
      | "daddr" => (readNftRule fam rest).map (.also (.destination true cidr))
      | _ => none
    else none
  | first :: field :: cidr :: rest =>
    if first = fam then
      match field with
      | "saddr" => (readNftRule fam rest).map (.also (.source false cidr))
      | "daddr" => (readNftRule fam rest).map (.also (.destination false cidr))
      | _ => none
    else none
  | _ => none

def inCidr4 (text : String) (address : BitVec 32) : Bool :=
  match parseCIDR text with
  | some ⟨.v4 bits, ones⟩ => bits == address &&& cidrMask 32 ones
  | _ => false

def inCidr6 (text : String) (address : BitVec 128) : Bool :=
  match parseCIDR text with
  | some ⟨.v16 bits, ones⟩ => bits == address &&& cidrMask 128 ones
  | _ => false

def masquerades {α : Type} (inCidr : String → α → Bool) (chain : Option (List Rule))
    (packet : Packet α) : Bool :=
  chain.any fun rules => verdict inCidr rules packet == some .masquerade

/-! ## The chains -/

theorem readChain_masqRulesFor (cluster_cidr pod_cidr multicast : String) (randomFully : Bool) :
    readChain "FLANNEL-POSTRTG" (masqRulesFor cluster_cidr pod_cidr multicast randomFully) =
      some [⟨[.mark 0x4000#32 0x4000#32], .leave⟩,
        ⟨[.source false pod_cidr, .destination false cluster_cidr], .leave⟩,
        ⟨[.source false cluster_cidr, .destination false pod_cidr], .leave⟩,
        ⟨[.source true cluster_cidr, .destination false pod_cidr], .leave⟩,
        ⟨[.source false cluster_cidr, .destination true multicast], .masquerade⟩,
        ⟨[.source true cluster_cidr, .destination false cluster_cidr], .masquerade⟩] := by
  cases randomFully <;> rfl

def Family.multicast : Family → String
  | .ipv4 => "224.0.0.0/4"
  | .ipv6 => "ff00::/8"

section Words

variable (family : Family) {cidr : String} (rest : List String)

theorem readNftRule_addr :
    (cidr ≠ "!=" →
      readNftRule family.keyword (family.keyword :: "saddr" :: cidr :: rest) =
          (readNftRule family.keyword rest).map (.also (.source false cidr)) ∧
        readNftRule family.keyword (family.keyword :: "daddr" :: cidr :: rest) =
          (readNftRule family.keyword rest).map (.also (.destination false cidr))) ∧
      readNftRule family.keyword (family.keyword :: "saddr" :: "!=" :: cidr :: rest) =
          (readNftRule family.keyword rest).map (.also (.source true cidr)) ∧
        readNftRule family.keyword (family.keyword :: "daddr" :: "!=" :: cidr :: rest) =
          (readNftRule family.keyword rest).map (.also (.destination true cidr)) := by
  refine ⟨fun isCidr => ⟨?_, ?_⟩, ?_, ?_⟩
  · cases family <;> simp [readNftRule, Family.keyword, isCidr]
  · cases family <;> simp [readNftRule, Family.keyword, isCidr]
  · cases family <;> simp [readNftRule, Family.keyword]
  · cases family <;> simp [readNftRule, Family.keyword]

theorem readNftRule_saddr (isCidr : cidr ≠ "!=") :
    readNftRule family.keyword (family.keyword :: "saddr" :: cidr :: rest) =
      (readNftRule family.keyword rest).map (.also (.source false cidr)) :=
  ((readNftRule_addr family rest).1 isCidr).1

theorem readNftRule_daddr (isCidr : cidr ≠ "!=") :
    readNftRule family.keyword (family.keyword :: "daddr" :: cidr :: rest) =
      (readNftRule family.keyword rest).map (.also (.destination false cidr)) :=
  ((readNftRule_addr family rest).1 isCidr).2

theorem readNftRule_saddr_ne :
    readNftRule family.keyword (family.keyword :: "saddr" :: "!=" :: cidr :: rest) =
      (readNftRule family.keyword rest).map (.also (.source true cidr)) :=
  (readNftRule_addr family rest).2.1

theorem readNftRule_daddr_ne :
    readNftRule family.keyword (family.keyword :: "daddr" :: "!=" :: cidr :: rest) =
      (readNftRule family.keyword rest).map (.also (.destination true cidr)) :=
  (readNftRule_addr family rest).2.2

end Words

theorem mapM_readNftRule_addMasqRules {clusterCidr podCidr : String}
    (isCluster : clusterCidr ≠ "!=") (isPod : podCidr ≠ "!=") (family : Family)
    (randomfully ipMasqRandomFullyDisable : Bool) :
    (addMasqRules clusterCidr podCidr family randomfully ipMasqRandomFullyDisable).mapM
        (readNftRule family.keyword) =
      some [⟨[.mark 0x4000#32 (BitVec.allOnes 32)], .leave⟩,
        ⟨[.source false podCidr, .destination false clusterCidr], .leave⟩,
        ⟨[.source false clusterCidr, .destination false podCidr], .leave⟩,
        ⟨[.source true podCidr, .destination false clusterCidr], .leave⟩,
        ⟨[.source false clusterCidr, .destination true family.multicast], .masquerade⟩,
        ⟨[.source true clusterCidr, .destination false clusterCidr], .masquerade⟩] := by
  have multicast : (if family = .ipv6 then "ff00::/8" else "224.0.0.0/4") = family.multicast := by
    cases family <;> rfl
  have marked : readNftRule family.keyword ["meta mark", "0x4000", "return"] =
      some ⟨[.mark 0x4000#32 (BitVec.allOnes 32)], .leave⟩ := rfl
  have returns : readNftRule family.keyword ["return"] = some ⟨[], .leave⟩ := rfl
  have masquerade : readNftRule family.keyword [if !randomfully || ipMasqRandomFullyDisable then
      "masquerade" else "masquerade fully-random"] = some ⟨[], .masquerade⟩ := by
    split <;> rfl
  simp only [addMasqRules, multicast, List.mapM_cons, List.mapM_nil, marked,
    readNftRule_saddr family _ isPod, readNftRule_saddr family _ isCluster,
    readNftRule_daddr family _ isPod, readNftRule_daddr family _ isCluster, readNftRule_saddr_ne,
    readNftRule_daddr_ne, returns, masquerade, Option.map_some, Rule.also]
  rfl

section Agreement

variable {α : Type} {inCidr : String → α → Bool} {cluster pod multicast : String}
  {packet : Packet α}

/-- The iptables chain masquerades unmarked packets from the cluster network to
elsewhere, and those that enter it but concern no local pod. -/
theorem masquerades_iptables_iff (randomFully : Bool) :
    masquerades inCidr
        (readChain "FLANNEL-POSTRTG" (masqRulesFor cluster pod multicast randomFully)) packet =
      true ↔
      (packet.mark &&& 0x4000#32 == 0x4000#32) = false ∧
        ¬ (inCidr pod packet.src ∧ inCidr cluster packet.dst) ∧
        ¬ inCidr pod packet.dst ∧
        ((inCidr cluster packet.src ∧ ¬ inCidr multicast packet.dst) ∨
          (¬ inCidr cluster packet.src ∧ inCidr cluster packet.dst)) := by
  rw [readChain_masqRulesFor]
  simp only [masquerades, Option.any_some, verdict_cons, verdict_nil, Rule.applies, Criterion.holds,
    List.all_cons, List.all_nil, Bool.and_true]
  generalize (packet.mark &&& 0x4000#32 == 0x4000#32) = marked
  generalize inCidr cluster packet.src = fromCluster
  generalize inCidr cluster packet.dst = toCluster
  generalize inCidr pod packet.src = fromPod
  generalize inCidr pod packet.dst = toPod
  generalize inCidr multicast packet.dst = toMulticast
  grind

/-- The nftables chain masquerades packets from the cluster network to elsewhere,
unless their mark is that of kube-proxy. -/
theorem masquerades_nftables_iff (contained : ∀ a, inCidr pod a → inCidr cluster a)
    (isCluster : cluster ≠ "!=") (isPod : pod ≠ "!=") (family : Family)
    (randomfully ipMasqRandomFullyDisable : Bool) :
    masquerades inCidr
        ((addMasqRules cluster pod family randomfully ipMasqRandomFullyDisable).mapM
          (readNftRule family.keyword)) packet ↔
      (packet.mark == 0x4000#32) = false ∧ ¬ inCidr cluster packet.dst ∧
        inCidr cluster packet.src ∧ ¬ inCidr family.multicast packet.dst := by
  have fromInside := contained packet.src
  have toInside := contained packet.dst
  rw [mapM_readNftRule_addMasqRules isCluster isPod]
  simp only [masquerades, Option.any_some, verdict_cons, verdict_nil, Rule.applies, Criterion.holds,
    List.all_cons, List.all_nil, Bool.and_true, BitVec.and_allOnes]
  generalize (packet.mark == 0x4000#32) = marked
  generalize inCidr cluster packet.src = fromCluster at fromInside ⊢
  generalize inCidr cluster packet.dst = toCluster at toInside ⊢
  generalize inCidr pod packet.src = fromPod at fromInside ⊢
  generalize inCidr pod packet.dst = toPod at toInside ⊢
  generalize inCidr family.multicast packet.dst = toMulticast
  grind

end Agreement

/-- The packets treated alike. One to the cluster network carries the bit of kube-proxy, concerns
a local pod, or goes from the cluster network to a multicast address in it; one from there to a
unicast address elsewhere carries no other bit besides that one. -/
def Alike {α : Type} (cluster pod multicast : Set α) (packet : Packet α) : Prop :=
  (packet.dst ∈ cluster →
      packet.mark &&& 0x4000#32 = 0x4000#32 ∨ packet.src ∈ pod ∨ packet.dst ∈ pod ∨
        (packet.src ∈ cluster ∧ packet.dst ∈ multicast)) ∧
    (packet.dst ∉ cluster → packet.src ∈ cluster → packet.dst ∉ multicast →
      packet.mark &&& 0x4000#32 = 0x4000#32 → packet.mark = 0x4000#32)

theorem masquerades_iff_alike {α : Type} {inCidr : String → α → Bool} {cluster pod : String}
    {family : Family} {C P M : Set α} (packet : Packet α)
    (inCluster : ∀ a, inCidr cluster a ↔ a ∈ C) (inPod : ∀ a, inCidr pod a ↔ a ∈ P)
    (inMulticast : ∀ a, inCidr family.multicast a ↔ a ∈ M) (contained : P ⊆ C)
    (isCluster : cluster ≠ "!=") (isPod : pod ≠ "!=")
    (randomFully randomfully ipMasqRandomFullyDisable : Bool) :
    (masquerades inCidr
        (readChain "FLANNEL-POSTRTG" (masqRulesFor cluster pod family.multicast randomFully))
        packet ↔
      masquerades inCidr
        ((addMasqRules cluster pod family randomfully ipMasqRandomFullyDisable).mapM
          (readNftRule family.keyword)) packet) ↔
      Alike C P M packet := by
  have marked : packet.mark = 0x4000#32 → packet.mark &&& 0x4000#32 = 0x4000#32 := by
    intro equal
    rw [equal]
    rfl
  have inside : ∀ a, inCidr pod a → inCidr cluster a := fun a mem =>
    (inCluster a).mpr (contained ((inPod a).mp mem))
  have ownPod : packet.dst ∈ P → packet.dst ∈ C := fun mem => contained mem
  rw [masquerades_iptables_iff, masquerades_nftables_iff inside isCluster isPod, Alike]
  simp only [inCluster, inPod, inMulticast, beq_eq_false_iff_ne]
  grind

/-! ## The two families -/

def iptables4 (ccidr : IP4Net) (lease : Lease)
    (supports_random_fully ipMasqRandomFullyDisable : Bool) (packet : Packet (BitVec 32)) : Bool :=
  masquerades inCidr4 (readChain "FLANNEL-POSTRTG"
    (masqRules ccidr lease supports_random_fully ipMasqRandomFullyDisable)) packet

def nftables4 (ccidr : IP4Net) (lease : Lease) (randomfully ipMasqRandomFullyDisable : Bool)
    (packet : Packet (BitVec 32)) : Bool :=
  masquerades inCidr4 ((addMasqRules ccidr.string lease.subnet.string .ipv4 randomfully
    ipMasqRandomFullyDisable).mapM (readNftRule Family.ipv4.keyword)) packet

def iptables6 (ccidr : IP6Net) (lease : Lease)
    (supports_random_fully ipMasqRandomFullyDisable : Bool) (packet : Packet (BitVec 128)) : Bool :=
  masquerades inCidr6 ((masqIP6Rules ccidr lease supports_random_fully
    ipMasqRandomFullyDisable).bind (readChain "FLANNEL-POSTRTG")) packet

def nftables6 (ccidr : IP6Net) (lease : Lease) (randomfully ipMasqRandomFullyDisable : Bool)
    (packet : Packet (BitVec 128)) : Bool :=
  masquerades inCidr6 (ccidr.string.bind fun clusterCidr =>
    lease.ipv6Subnet.string.bind fun podCidr =>
      (addMasqRules clusterCidr podCidr .ipv6 randomfully ipMasqRandomFullyDisable).mapM
        (readNftRule Family.ipv6.keyword)) packet

def multicast4 : IP4Net :=
  ⟨0xe0000000, 4⟩

def multicast6 : IP6Net :=
  ⟨some 0xff000000000000000000000000000000, 8⟩

/-- An IPv6 network that the tools can read: it is written in groups. -/
def Written (n : IP6Net) : Prop :=
  n.prefixLen ≤ 128 ∧ ∃ ip6, n.ip = some ip6 ∧ GroupForm ip6

theorem ne_operator {text : String} {n : IPNet} (parsed : parseCIDR text = some n) :
    text ≠ "!=" := by
  rintro rfl
  have rejected : parseCIDR "!=" = none := by decide
  rw [rejected] at parsed
  contradiction

theorem inCidr4_string {n : IP4Net} (valid : n.prefixLen ≤ 32) (a : BitVec 32) :
    inCidr4 n.string a ↔ a ∈ n.addresses := by
  simp [inCidr4, IP4Net.parseCIDR_string valid, IP4Net.addresses_eq_block valid, block]

theorem Written.text {n : IP6Net} (written : Written n) :
    ∃ text, n.string = some text ∧ text ≠ "!=" ∧
      ∀ a, inCidr6 text a ↔ a ∈ n.addresses := by
  obtain ⟨valid, ip6, isSome, groupForm⟩ := written
  rcases n with ⟨_, length⟩
  obtain rfl : _ = some ip6 := isSome
  obtain ⟨text, string, parsed⟩ := IP6Net.parseCIDR_string groupForm valid
  refine ⟨text, string, ne_operator parsed, fun a => ?_⟩
  simp [inCidr6, parsed, IP6Net.addresses, block]

theorem written_multicast6 : Written multicast6 :=
  ⟨by decide, _, rfl, groupForm_of_le (by decide) (by decide)⟩

theorem inCidr4_multicast (a : BitVec 32) :
    inCidr4 Family.ipv4.multicast a ↔ a ∈ multicast4.addresses := by
  have text : Family.ipv4.multicast = multicast4.string := by decide
  rw [text, inCidr4_string (by decide)]

theorem inCidr6_multicast (a : BitVec 128) :
    inCidr6 Family.ipv6.multicast a ↔ a ∈ multicast6.addresses := by
  have text : multicast6.string = some Family.ipv6.multicast := by decide
  obtain ⟨text', string, _, denotes⟩ := written_multicast6.text
  rw [text] at string
  cases string
  exact denotes a

/-- In both families the two managers masquerade the same packets exactly where
they treat them alike. -/
theorem masquerade_modes_agree_iff (lease : Lease)
    (supports_random_fully randomfully ipMasqRandomFullyDisable : Bool) :
    (∀ (ccidr : IP4Net) (packet : Packet (BitVec 32)),
        ccidr.prefixLen ≤ 32 → lease.subnet.prefixLen ≤ 32 →
        lease.subnet.addresses ⊆ ccidr.addresses →
        ((iptables4 ccidr lease supports_random_fully ipMasqRandomFullyDisable packet = true ↔
            nftables4 ccidr lease randomfully ipMasqRandomFullyDisable packet = true) ↔
          Alike ccidr.addresses lease.subnet.addresses multicast4.addresses packet)) ∧
      ∀ (ccidr : IP6Net) (packet : Packet (BitVec 128)),
        Written ccidr → Written lease.ipv6Subnet →
        lease.ipv6Subnet.addresses ⊆ ccidr.addresses →
        ((iptables6 ccidr lease supports_random_fully ipMasqRandomFullyDisable packet = true ↔
            nftables6 ccidr lease randomfully ipMasqRandomFullyDisable packet = true) ↔
          Alike ccidr.addresses lease.ipv6Subnet.addresses multicast6.addresses packet) := by
  constructor
  · intro ccidr packet valid validPod contained
    exact masquerades_iff_alike packet (inCidr4_string valid) (inCidr4_string validPod)
      inCidr4_multicast contained (ne_operator (IP4Net.parseCIDR_string valid))
      (ne_operator (IP4Net.parseCIDR_string validPod)) _ _ _
  · intro ccidr packet written writtenPod contained
    obtain ⟨cluster, string, isCluster, inCluster⟩ := written.text
    obtain ⟨pod, podString, isPod, inPod⟩ := writtenPod.text
    simp only [iptables6, nftables6, masqIP6Rules, string, podString, Option.bind_eq_bind,
      Option.bind_some]
    exact masquerades_iff_alike packet inCluster inPod inCidr6_multicast contained isCluster isPod
      _ _ _

theorem masquerade_modes_agree_outbound :
    iptables4 ⟨0x0af40000, 16⟩ (plainLease 0x0af40100 1) true false
          ⟨0x0af40105, 0x08080808, 0⟩ = true ↔
      nftables4 ⟨0x0af40000, 16⟩ (plainLease 0x0af40100 1) true false
          ⟨0x0af40105, 0x08080808, 0⟩ = true := by
  refine ((masquerade_modes_agree_iff (plainLease 0x0af40100 1) true true false).1
    ⟨0x0af40000, 16⟩ ⟨0x0af40105, 0x08080808, 0⟩ (by decide) (by decide) ?_).mpr ?_
  · rw [IP4Net.addresses_eq_block (by decide), IP4Net.addresses_eq_block (by decide)]
    exact block_subset (by decide) (by decide)
  · constructor
    · intro inside
      exact absurd inside (by simp [IP4Net.addresses]; decide)
    · intro _ _ _ marked
      exact absurd marked (by decide)

/-- A packet from the host to a remote pod is masqueraded by the iptables rules
only, and a packet of a local pod with the bit of kube-proxy and another one by
the nftables rules only. -/
theorem masquerade_modes_differ :
    (iptables4 ⟨0x0af40000, 16⟩ (plainLease 0x0af40100 1) true false
          ⟨0xc0a8000a, 0x0af40205, 0⟩ = true ∧
        nftables4 ⟨0x0af40000, 16⟩ (plainLease 0x0af40100 1) true false
          ⟨0xc0a8000a, 0x0af40205, 0⟩ = false) ∧
      iptables4 ⟨0x0af40000, 16⟩ (plainLease 0x0af40100 1) true false
          ⟨0x0af40105, 0x08080808, 0x4001⟩ = false ∧
        nftables4 ⟨0x0af40000, 16⟩ (plainLease 0x0af40100 1) true false
          ⟨0x0af40105, 0x08080808, 0x4001⟩ = true := by
  decide

end Flannel.Traffic
