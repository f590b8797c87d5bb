import Flannel.Ip.IP4
import Flannel.Ip.IP6

/-!
# The network configuration

`subnet.CheckNetworkConfig` fills in the defaults and rejects incoherent configurations. The
families go through the same checks, except that those of IPv6 go through pointers and can panic.
-/

namespace Flannel.Subnet

open Net Ip

structure Config where
  enableIPv4 : Bool
  enableIPv6 : Bool
  network : IP4Net
  ipv6Network : IP6Net
  subnetMin : IP4
  subnetMax : IP4
  ipv6SubnetMin : Option IP6
  ipv6SubnetMax : Option IP6
  subnetLen : Nat
  ipv6SubnetLen : Nat
  deriving DecidableEq

inductive Failure
  | error (message : String)
  | crash
  deriving DecidableEq

def orCrash {α : Type} (value : Option α) : Except Failure α :=
  match value with
  | some a => .ok a
  | none => .error .crash

def failIf (test : Bool) (message : String) : Except Failure Unit :=
  if test then .error (.error message) else .ok ()

def chooseSubnetLen (limit : Nat) (tooLong : String) (largest : Nat) (tooSmall : String)
    (roomy default subnetLen networkLen : Nat) : Except Failure Nat :=
  if 0 < subnetLen then
    if limit < subnetLen then .error (.error tooLong)
    else if subnetLen < networkLen + 2 then
      .error (.error "network must be able to accommodate at least four subnets")
    else .ok subnetLen
  else if largest < networkLen then .error (.error tooSmall)
  else if networkLen ≤ roomy then .ok default
  else .ok (networkLen + 2)

def chooseIPv4SubnetLen (config : Config) : Except Failure Nat :=
  chooseSubnetLen 30 "SubnetLen must be less than /31"
    28 "network is too small. Minimum useful network prefix is /28" 22 24
    config.subnetLen config.network.prefixLen

def chooseIPv6SubnetLen (config : Config) : Except Failure Nat :=
  chooseSubnetLen 126 "SubnetLen must be less than /127"
    124 "IPv6Network is too small. Minimum useful network prefix is /124" 62 64
    config.ipv6SubnetLen config.ipv6Network.prefixLen

def chooseIPv4Bound (config : Config) (bound default : IP4) (message : String) :
    Except Failure IP4 :=
  if bound = 0 then .ok default
  else if !config.network.contains bound then .error (.error message)
  else .ok bound

def chooseIPv6Bound (config : Config) (bound : Option IP6) (default : Option IP6)
    (message : String) : Except Failure (Option IP6) :=
  if isEmpty bound then .ok default
  else
    match config.ipv6Network.contains bound with
    | none => .error .crash
    | some false => .error (.error message)
    | some true => .ok bound

def checkIPv4 (config : Config) : Except Failure Config := do
  failIf config.network.empty "please define a correct Network parameter in the flannel config"
  let subnetLen ← chooseIPv4SubnetLen config
  let subnetSize : IP4 := 1#32 <<< (32 - subnetLen)
  let subnetMin ← chooseIPv4Bound config config.subnetMin (config.network.ip + subnetSize)
    "SubnetMin is not in the range of the Network"
  let subnetMax ← chooseIPv4Bound config config.subnetMax (config.network.next.ip - subnetSize)
    "SubnetMax is not in the range of the Network"
  let mask := cidrMask 32 subnetLen
  failIf (subnetMin != subnetMin &&& mask)
    ("SubnetMin is not on a SubnetLen boundary: " ++ IP4.string subnetMin)
  failIf (subnetMax != subnetMax &&& mask)
    ("SubnetMax is not on a SubnetLen boundary: " ++ IP4.string subnetMax)
  return { config with subnetLen := subnetLen, subnetMin := subnetMin, subnetMax := subnetMax }

def checkIPv6Subnet (subnetIP : IP6) (mask : BitVec 128) : Bool :=
  subnetIP == (BitVec.ofNat 128 subnetIP &&& mask).toNat

/-- What `%v` prints for an address of more than sixteen bytes, whose `String` panics. -/
def overlongText : String :=
  "%!v(PANIC=String method: math/big: buffer too small)"

def checkIPv6Boundary (bound : IP6) (mask : BitVec 128) (message : String) :
    Except Failure Unit :=
  if checkIPv6Subnet bound mask then .ok ()
  else .error (.error (message ++ (IP6.string bound).getD overlongText))

def checkIPv6 (config : Config) : Except Failure Config := do
  failIf config.ipv6Network.empty
    "please define a correct IPv6Network parameter in the flannel config"
  let ipv6SubnetLen ← chooseIPv6SubnetLen config
  let ipv6SubnetSize := 2 ^ (128 - ipv6SubnetLen)
  let networkIP ← orCrash config.ipv6Network.ip
  let next ← orCrash config.ipv6Network.next
  let nextIP ← orCrash next.ip
  let ipv6SubnetMin ← chooseIPv6Bound config config.ipv6SubnetMin
    (some (networkIP + ipv6SubnetSize)) "IPv6SubnetMin is not in the range of the IPv6Network"
  let ipv6SubnetMax ← chooseIPv6Bound config config.ipv6SubnetMax
    (some (nextIP - ipv6SubnetSize)) "IPv6SubnetMax is not in the range of the IPv6Network"
  let lowest ← orCrash ipv6SubnetMin
  let highest ← orCrash ipv6SubnetMax
  let mask := cidrMask 128 ipv6SubnetLen
  checkIPv6Boundary lowest mask "IPv6SubnetMin is not on a SubnetLen boundary: "
  checkIPv6Boundary highest mask "IPv6SubnetMax is not on a SubnetLen boundary: "
  return { config with
    ipv6SubnetLen := ipv6SubnetLen
    ipv6SubnetMin := ipv6SubnetMin
    ipv6SubnetMax := ipv6SubnetMax }

def checkNetworkConfig (config : Config) : Except Failure Config :=
  (if config.enableIPv4 then checkIPv4 config else .ok config) >>= fun config =>
    if config.enableIPv6 then checkIPv6 config else .ok config

/-! ## What the checks establish -/

theorem bind_eq_ok_iff {ε α β : Type} {value : Except ε α} {next : α → Except ε β} {result : β} :
    value >>= next = .ok result ↔ ∃ middle, value = .ok middle ∧ next middle = .ok result := by
  cases value with
  | error failure => exact ⟨nofun, fun ⟨_, equal, _⟩ => by contradiction⟩
  | ok a =>
    constructor
    · exact fun equal => ⟨a, rfl, equal⟩
    · rintro ⟨middle, equal, rest⟩
      cases equal
      exact rest

theorem failIf_eq_ok_iff {test : Bool} {message : String} {result : Unit} :
    failIf test message = .ok result ↔ test = false := by
  cases test <;> simp [failIf]

theorem orCrash_eq_ok_iff {α : Type} {value : Option α} {result : α} :
    orCrash value = .ok result ↔ value = some result := by
  cases value <;> simp [orCrash]

theorem chooseSubnetLen_eq_ok {limit largest roomy default subnetLen networkLen len : Nat}
    {tooLong tooSmall : String} (default_le : default ≤ limit) (roomy_le : roomy + 2 ≤ default)
    (largest_le : largest + 2 ≤ limit)
    (chosen : chooseSubnetLen limit tooLong largest tooSmall roomy default subnetLen networkLen =
      .ok len) : networkLen + 2 ≤ len ∧ len ≤ limit := by
  rw [chooseSubnetLen] at chosen
  split_ifs at chosen <;> (cases chosen; omega)

structure IPv4Checked (config : Config) : Prop where
  len : config.network.prefixLen + 2 ≤ config.subnetLen ∧ config.subnetLen ≤ 30
  minAligned : Aligned config.subnetLen config.subnetMin
  maxAligned : Aligned config.subnetLen config.subnetMax

theorem checkIPv4_eq_ok {config checked : Config} (accepted : checkIPv4 config = .ok checked) :
    IPv4Checked checked ∧ checked.enableIPv4 = config.enableIPv4 ∧
      checked.enableIPv6 = config.enableIPv6 := by
  simp only [checkIPv4, bind_eq_ok_iff, failIf_eq_ok_iff] at accepted
  obtain ⟨-, -, len, chosen, low, -, high, -, -, minAligned, -, maxAligned, done⟩ := accepted
  cases done
  have lengths := chooseSubnetLen_eq_ok (by decide) (by decide) (by decide) chosen
  simp only [bne_eq_false_iff_eq] at minAligned maxAligned
  exact ⟨⟨lengths, minAligned.symm, maxAligned.symm⟩, rfl, rfl⟩

structure IPv6Checked (config : Config) : Prop where
  len : config.ipv6Network.prefixLen + 2 ≤ config.ipv6SubnetLen ∧ config.ipv6SubnetLen ≤ 126
  min : ∃ lowest, config.ipv6SubnetMin = some lowest ∧
    checkIPv6Subnet lowest (cidrMask 128 config.ipv6SubnetLen) = true
  max : ∃ highest, config.ipv6SubnetMax = some highest ∧
    checkIPv6Subnet highest (cidrMask 128 config.ipv6SubnetLen) = true

theorem checkIPv6Boundary_eq_ok {bound : IP6} {mask : BitVec 128} {message : String}
    {result : Unit} (passed : checkIPv6Boundary bound mask message = .ok result) :
    checkIPv6Subnet bound mask := by
  rw [checkIPv6Boundary] at passed
  split_ifs at passed with onBoundary
  exact onBoundary

theorem checkIPv6_eq_ok {config checked : Config} (accepted : checkIPv6 config = .ok checked) :
    IPv6Checked checked ∧ checked.enableIPv6 = config.enableIPv6 ∧
      checked.enableIPv4 = config.enableIPv4 ∧
      (IPv4Checked config → IPv4Checked checked) := by
  simp only [checkIPv6, bind_eq_ok_iff, failIf_eq_ok_iff, orCrash_eq_ok_iff] at accepted
  obtain ⟨-, -, len, chosen, _, -, _, -, _, -, low, -, high, -, lowest, isLowest, highest,
    isHighest, _, minAligned, _, maxAligned, done⟩ := accepted
  cases done
  have lengths := chooseSubnetLen_eq_ok (by decide) (by decide) (by decide) chosen
  refine ⟨⟨lengths, ⟨lowest, isLowest, checkIPv6Boundary_eq_ok minAligned⟩,
    ⟨highest, isHighest, checkIPv6Boundary_eq_ok maxAligned⟩⟩, rfl, rfl, ?_⟩
  exact fun checked4 => ⟨checked4.len, checked4.minAligned, checked4.maxAligned⟩

theorem checkNetworkConfig_eq_ok {config checked : Config}
    (accepted : checkNetworkConfig config = .ok checked) :
    (checked.enableIPv4 → IPv4Checked checked) ∧
      (checked.enableIPv6 → IPv6Checked checked) := by
  rw [checkNetworkConfig, bind_eq_ok_iff] at accepted
  obtain ⟨middle, first, second⟩ := accepted
  have ipv4 : middle.enableIPv4 → IPv4Checked middle := by
    intro enabled
    split_ifs at first with isEnabled
    · exact (checkIPv4_eq_ok first).1
    · cases first
      contradiction
  split_ifs at second with isEnabled
  · obtain ⟨checked6, -, same4, keeps⟩ := checkIPv6_eq_ok second
    exact ⟨fun enabled => keeps (ipv4 (same4 ▸ enabled)), fun _ => checked6⟩
  · cases second
    exact ⟨ipv4, fun enabled => absurd enabled isEnabled⟩

end Flannel.Subnet
