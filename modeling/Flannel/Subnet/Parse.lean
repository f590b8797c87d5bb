import Flannel.Ip.Codec
import Flannel.Subnet.Config
import Flannel.Text.Json

/-!
# Reading the network configuration

`subnet.ParseConfig`: the address fields have decoders of their own. `Decoded` collects what these
guarantee: an IPv4 network may come with the prefix length of its mapped form, and an IPv6 network
may be one of IPv4.
-/

namespace Flannel.Subnet

open Net Ip Text

/-- `subnet.Config` while it is decoded: with the fields that only the backends read, the
raw `Backend` being kept as a value. -/
structure RawConfig where
  config : Config
  enableNFTables : Bool
  backend : Option Json

def RawConfig.initial : RawConfig :=
  ⟨⟨true, false, ⟨0, 0⟩, .zero, 0, 0, none, none, 0, 0⟩, false, none⟩

def configFields : List (Text.Field RawConfig) :=
  [⟨"EnableIPv4", storeBool fun flag raw => { raw with config.enableIPv4 := flag }⟩,
    ⟨"EnableIPv6", storeBool fun flag raw => { raw with config.enableIPv6 := flag }⟩,
    ⟨"EnableNFTables", storeBool fun flag raw => { raw with enableNFTables := flag }⟩,
    ⟨"Network", storeText IP4Net.unmarshalJSON
      fun n raw => { raw with config.network := n }⟩,
    ⟨"IPv6Network", storeText IP6Net.unmarshalJSON
      fun n raw => { raw with config.ipv6Network := n }⟩,
    ⟨"SubnetMin", storeText IP4.unmarshalJSON
      fun ip raw => { raw with config.subnetMin := ip }⟩,
    ⟨"SubnetMax", storeText IP4.unmarshalJSON
      fun ip raw => { raw with config.subnetMax := ip }⟩,
    ⟨"IPv6SubnetMin", storePointer IP6.unmarshalJSON
      fun ip6 raw => { raw with config.ipv6SubnetMin := ip6 }⟩,
    ⟨"IPv6SubnetMax", storePointer IP6.unmarshalJSON
      fun ip6 raw => { raw with config.ipv6SubnetMax := ip6 }⟩,
    ⟨"SubnetLen", storeUint 64 fun len raw => { raw with config.subnetLen := len }⟩,
    ⟨"IPv6SubnetLen", storeUint 64 fun len raw => { raw with config.ipv6SubnetLen := len }⟩,
    ⟨"Backend", fun json raw => some { raw with backend := some json }⟩]

def parseBackendType : Option Json → Option String
  | none => some "udp"
  | some be => storeObject [⟨"Type", storeString fun type _ => type⟩] be ""

def parseConfig (s : String) : Option (RawConfig × String) := do
  let raw ← unmarshal configFields .initial s
  let backendType ← parseBackendType raw.backend
  return (raw, backendType)

/-! ## What the decoders guarantee -/

def DecodedIPv4 (n : IP4Net) : Prop :=
  n.prefixLen ≤ 32 ∧ n.InNetworkForm ∨ 32 < n.prefixLen

def DecodedIPv6 (n : IP6Net) : Prop :=
  n = .zero ∨ n.IsPrefix ∨ n.prefixLen ≤ 32 ∧ ∃ bits, n.ip = some (Net.IP.mapped bits).toNat

def DecodedBound (bound : Option IP6) : Prop :=
  ∀ ip6, bound = some ip6 → ip6 < 2 ^ 128

structure Decoded (config : Config) : Prop where
  network : DecodedIPv4 config.network
  ipv6Network : DecodedIPv6 config.ipv6Network
  ipv6SubnetMin : DecodedBound config.ipv6SubnetMin
  ipv6SubnetMax : DecodedBound config.ipv6SubnetMax

theorem decodedIPv4_of_unmarshalJSON {j : String} {n : IP4Net}
    (accepted : IP4Net.unmarshalJSON j = .ok n) : DecodedIPv4 n := by
  rcases IP4Net.unmarshalJSON_cases accepted with ⟨_, wellFormed⟩ | ⟨_, long⟩
  · exact .inl wellFormed
  · exact .inr long

theorem decodedIPv6_of_unmarshalJSON {j : String} {n : IP6Net}
    (accepted : IP6Net.unmarshalJSON j = .ok n) : DecodedIPv6 n := by
  rcases IP6Net.unmarshalJSON_cases accepted with ⟨_, _, isPrefix⟩ | ⟨_, _, isMapped⟩
  · exact .inr (.inl isPrefix)
  · exact .inr (.inr isMapped)

theorem decodedBound_of_unmarshalJSON {j : String} {ip6 : IP6}
    (accepted : IP6.unmarshalJSON j = .ok ip6) : DecodedBound (some ip6) := by
  rintro _ ⟨rfl⟩
  rw [IP6.unmarshalJSON, parseIP6] at accepted
  split at accepted
  · cases accepted
  next ip _ =>
    obtain rfl := Except.ok.inj accepted
    exact ip.to16.isLt

theorem decoded_store {field : Text.Field RawConfig} (mem : field ∈ configFields) {json : Json}
    {raw later : RawConfig} (decoded : Decoded raw.config)
    (stored : field.store json raw = some later) : Decoded later.config := by
  simp only [configFields, List.mem_cons, List.not_mem_nil, or_false] at mem
  rcases mem with rfl | rfl | rfl | rfl | rfl | rfl | rfl | rfl | rfl | rfl | rfl | rfl <;>
    dsimp only at stored
  -- the flags
  · rcases storeBool_eq_some stored with rfl | ⟨_, rfl⟩ <;> exact { decoded with }
  · rcases storeBool_eq_some stored with rfl | ⟨_, rfl⟩ <;> exact { decoded with }
  · rcases storeBool_eq_some stored with rfl | ⟨_, rfl⟩ <;> exact { decoded with }
  -- the networks
  · obtain ⟨_, n, accepted, rfl⟩ := storeText_eq_some stored
    exact { decoded with network := decodedIPv4_of_unmarshalJSON accepted }
  · obtain ⟨_, n, accepted, rfl⟩ := storeText_eq_some stored
    exact { decoded with ipv6Network := decodedIPv6_of_unmarshalJSON accepted }
  -- the bounds
  · obtain ⟨_, ip, _, rfl⟩ := storeText_eq_some stored
    exact { decoded with }
  · obtain ⟨_, ip, _, rfl⟩ := storeText_eq_some stored
    exact { decoded with }
  · rcases storePointer_eq_some stored with rfl | ⟨_, ip6, accepted, rfl⟩
    · exact { decoded with ipv6SubnetMin := fun _ set => by cases set }
    · exact { decoded with ipv6SubnetMin := decodedBound_of_unmarshalJSON accepted }
  · rcases storePointer_eq_some stored with rfl | ⟨_, ip6, accepted, rfl⟩
    · exact { decoded with ipv6SubnetMax := fun _ set => by cases set }
    · exact { decoded with ipv6SubnetMax := decodedBound_of_unmarshalJSON accepted }
  -- the lengths and the backend
  · rcases storeUint_eq_some stored with rfl | ⟨_, rfl⟩ <;> exact { decoded with }
  · rcases storeUint_eq_some stored with rfl | ⟨_, rfl⟩ <;> exact { decoded with }
  · cases stored
    exact { decoded with }

theorem decoded_initial : Decoded RawConfig.initial.config where
  network := .inl ⟨by decide, by decide⟩
  ipv6Network := .inl rfl
  ipv6SubnetMin _ set := by cases set
  ipv6SubnetMax _ set := by cases set

theorem decoded_of_parseConfig {s : String} {raw : RawConfig} {backendType : String}
    (parsed : parseConfig s = some (raw, backendType)) : Decoded raw.config := by
  simp only [parseConfig, Option.bind_eq_bind, Option.bind_eq_some_iff] at parsed
  obtain ⟨raw', decoded, backendType', _, same⟩ := parsed
  cases same
  exact unmarshal_induct (P := fun raw => Decoded raw.config) decoded_initial
    (fun _ mem _ _ _ => decoded_store mem) decoded

end Flannel.Subnet
