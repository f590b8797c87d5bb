import Flannel.Net.Cidr
import Flannel.Subnet.Config

/-!
# The subnet file

`WriteSubnetFile` stores a lease in a file of environment variables, from which the next start
reads the previous subnets. The file holds the first usable address of a subnet, and reading masks
it again.
-/

namespace Flannel.Ip

def IP4Net.incrementIP (n : IP4Net) : IP4Net :=
  ⟨n.ip + 1, n.prefixLen⟩

def IP6Net.incrementIP (n : IP6Net) : Option IP6Net :=
  n.ip.map fun ip6 => ⟨some (ip6 + 1), n.prefixLen⟩

/-- A network of IPv6 in a formatted text, which catches the panic of its `String`. -/
def IP6Net.formatted (n : IP6Net) : String :=
  n.string.getD "%!s(PANIC=String method: math/big: buffer too small to fit value)"

end Flannel.Ip

namespace Flannel.Subnet

open Ip Net Text

/-! ## Writing -/

def subnetEntries (config : Config) (ipMasq : Bool) (sn : IP4Net) (ipv6sn : IP6Net) (mtu : Int) :
    Option (List (String × String)) := do
  let ipv4 :=
    if config.enableIPv4 then
      [("FLANNEL_NETWORK", config.network.string), ("FLANNEL_SUBNET", sn.incrementIP.string)]
    else []
  let ipv6 ←
    if config.enableIPv6 then
      ipv6sn.incrementIP.map fun ipv6sn =>
        [("FLANNEL_IPV6_NETWORK", config.ipv6Network.formatted), ("FLANNEL_IPV6_SUBNET", ipv6sn.formatted)]
    else some []
  some (ipv4 ++ ipv6 ++ [("FLANNEL_MTU", toString mtu), ("FLANNEL_IPMASQ", toString ipMasq)])

def fileText (entries : List (String × String)) : String :=
  String.join (entries.map fun entry => entry.1 ++ "=" ++ entry.2 ++ "\n")

structure Disk where
  mkdirAll : Except String Unit
  writeFile : Except String Unit
  deriving Repr

/-- `WriteSubnetFile`: the result and the file, which is replaced as a whole or not at all. -/
def writeSubnetFile (disk : Disk) (file : Option String) (config : Config) (ipMasq : Bool) (sn : IP4Net)
    (ipv6sn : IP6Net) (mtu : Int) : Option (Except String Unit × Option String) :=
  match disk.mkdirAll with
  | .error err => some (.error err, file)
  | .ok () =>
    (subnetEntries config ipMasq sn ipv6sn mtu).map fun entries =>
      match disk.writeFile with
      | .error err => (.error err, file)
      | .ok () => (.ok (), some (fileText entries))

theorem file_of_written {disk : Disk} {file stored : Option String} {config : Config} {ipMasq : Bool}
    {sn : IP4Net} {ipv6sn : IP6Net} {mtu : Int} {entries : List (String × String)}
    (written : writeSubnetFile disk file config ipMasq sn ipv6sn mtu = some (.ok (), stored))
    (isEntries : subnetEntries config ipMasq sn ipv6sn mtu = some entries) :
    stored = some (fileText entries) := by
  rw [writeSubnetFile, isEntries] at written
  cases made : disk.mkdirAll with
  | error err => simp [made] at written
  | ok _ =>
    cases replaced : disk.writeFile with
    | error err => simp [made, replaced] at written
    | ok _ => simpa [made, replaced, eq_comm] using written

/-! ## Reading -/

/-- A reader of environment files, such as `godotenv.Read`: the values of the variables. -/
abbrev EnvReader :=
  String → Except String (String → Option String)

def EnvReader.Returns (read : EnvReader) (entries : List (String × String)) : Prop :=
  read (fileText entries) = .ok fun key => entries.lookup key

section Reading

variable (read : EnvReader) (file : Option String) (cidrKey : String)

def readNetworks : List IPNet :=
  match file.map read with
  | some (.ok prevSubnetVals) =>
    match prevSubnetVals cidrKey with
    | some prevCIDRString =>
      (prevCIDRString.toList.splitOn ',').filterMap fun cidr => parseCIDR (String.ofList cidr)
    | none => []
  | _ => []

def readCIDRsFromSubnetFile : Option (List IP4Net) :=
  (readNetworks read file cidrKey).mapM IP4Net.fromIPNet

def readIP6CIDRsFromSubnetFile : List IP6Net :=
  (readNetworks read file cidrKey).map IP6Net.fromIP6Net

def readCIDRFromSubnetFile : Option IP4Net :=
  (readCIDRsFromSubnetFile read file cidrKey).map fun
    | [prevCIDR] => prevCIDR
    | _ => ⟨0, 0⟩

def readIP6CIDRFromSubnetFile : IP6Net :=
  match readIP6CIDRsFromSubnetFile read file cidrKey with
  | [prevCIDR] => prevCIDR
  | _ => ⟨some 0, 0⟩

end Reading

/-! ## Reading what was written -/

variable {read : EnvReader} {config : Config} {sn : IP4Net}

theorem comma_notMem_string (n : IP4Net) : ',' ∉ n.string.toList := by
  have digits : ',' ∉ Nat.toDigits 10 n.prefixLen := fun mem =>
    absurd (isDecimal_of_mem_toDigits mem) (by decide)
  have address : ',' ∉ dotted n.ip := fun mem =>
    @forall_mem_dotted (· ≠ ',') (by decide) (by decide) n.ip ',' mem rfl
  simpa [IP4Net.string, IP4.string, IP.string, IP.to4, Nat.repr, digits] using address

theorem incrementIP_mem_block (short : sn.prefixLen ≤ 31) (aligned : Aligned sn.prefixLen sn.ip) :
    sn.incrementIP.ip ∈ block sn.prefixLen sn.ip := by
  have size : 2 ^ 1 ≤ 2 ^ (32 - sn.prefixLen) := Nat.pow_le_pow_right (by decide) (by omega)
  have fits := aligned.add_le
  rw [mem_block_iff aligned, IP4Net.incrementIP, BitVec.toNat_add]
  change _ ≤ (sn.ip.toNat + 1) % 2 ^ 32 ∧ (sn.ip.toNat + 1) % 2 ^ 32 < _
  rw [Nat.mod_eq_of_lt (by omega)]
  omega

theorem parseCIDR_incrementIP (short : sn.prefixLen ≤ 31) (aligned : Aligned sn.prefixLen sn.ip) :
    parseCIDR sn.incrementIP.string = some ⟨.v4 sn.ip, sn.prefixLen⟩ := by
  have masked : sn.incrementIP.ip &&& cidrMask 32 sn.prefixLen = sn.ip :=
    (incrementIP_mem_block short aligned).symm.trans aligned
  rw [IP4Net.parseCIDR_string (show sn.incrementIP.prefixLen ≤ 32 from short.trans (by decide))]
  exact congrArg (fun bits => some (IPNet.mk (.v4 bits) sn.prefixLen)) masked

section Values

variable {entries : List (String × String)} {key : String}

theorem readNetworks_of_absent (returns : read.Returns entries) (absent : entries.lookup key = none) :
    readNetworks read (some (fileText entries)) key = [] := by
  rw [readNetworks, Option.map_some, returns]
  dsimp only
  rw [absent]

theorem readNetworks_of_lookup {n : IP4Net} (returns : read.Returns entries)
    (value : entries.lookup key = some n.string) :
    readNetworks read (some (fileText entries)) key = (parseCIDR n.string).toList := by
  have alone : n.string.toList.splitOn ',' = [n.string.toList] := by
    apply List.splitOnP_eq_singleton
    exact fun c mem => beq_false_of_ne fun isComma => comma_notMem_string n (isComma ▸ mem)
  rw [readNetworks, Option.map_some, returns]
  dsimp only
  rw [value]
  dsimp only
  rw [alone, List.filterMap_cons, String.ofList_toList]
  cases parseCIDR n.string <;> rfl

end Values

theorem subnetEntries_of_single (ipMasq : Bool) (ipv6sn : IP6Net) (mtu : Int)
    (enabled : config.enableIPv4) (single : config.enableIPv6 = false) :
    subnetEntries config ipMasq sn ipv6sn mtu =
      some [("FLANNEL_NETWORK", config.network.string), ("FLANNEL_SUBNET", sn.incrementIP.string),
        ("FLANNEL_MTU", toString mtu), ("FLANNEL_IPMASQ", toString ipMasq)] := by
  rw [subnetEntries, enabled, single]
  rfl

theorem read_subnetEntries {entries : List (String × String)} {ipMasq : Bool} {ipv6sn : IP6Net} {mtu : Int}
    (enabled : config.enableIPv4) (single : config.enableIPv6 = false)
    (short : sn.prefixLen ≤ 31) (aligned : Aligned sn.prefixLen sn.ip)
    (written : subnetEntries config ipMasq sn ipv6sn mtu = some entries)
    (returns : read.Returns entries) :
    readCIDRFromSubnetFile read (some (fileText entries)) "FLANNEL_SUBNET" = some sn ∧
      readIP6CIDRFromSubnetFile read (some (fileText entries)) "FLANNEL_IPV6_SUBNET" = ⟨some 0, 0⟩ := by
  rw [subnetEntries_of_single ipMasq ipv6sn mtu enabled single] at written
  cases written
  constructor
  · rw [readCIDRFromSubnetFile, readCIDRsFromSubnetFile,
      @readNetworks_of_lookup _ _ _ sn.incrementIP returns rfl, parseCIDR_incrementIP short aligned]
    rfl
  · rw [readIP6CIDRFromSubnetFile, readIP6CIDRsFromSubnetFile, readNetworks_of_absent returns rfl]
    rfl

end Flannel.Subnet
