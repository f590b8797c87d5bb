import Flannel.Etcd.Registry
import Flannel.Program.Core
import Flannel.Subnet.Config

/-!
# The local manager

The functions of `LocalManager` are programs whose requests are the registry's operations and the
random choices; one that panics or never ends issues a request that is never answered.

The contract at the end says what an acquisition may read, update, delete, create and return; all
about interleaved acquisitions is derived from it.
-/

namespace Flannel.Etcd

open Ip Leases Subnet Program

/-! ## Requests -/

inductive Op
  | getNetworkConfig
  | getSubnets
  | createSubnet (sn : IP4Net) (sn6 : IP6Net) (attrs : LeaseAttrs) (ttl : Time)
  | updateSubnet (sn : IP4Net) (sn6 : IP6Net) (attrs : LeaseAttrs) (ttl : Time) (asof : Int)
  | deleteSubnet (sn : IP4Net) (sn6 : IP6Net)
  | randInt (lo hi : Nat)
  | crash
  deriving DecidableEq

abbrev Res : Op → Type
  | .getNetworkConfig => Except Error Config
  | .getSubnets => Except Error (List Lease × Nat)
  | .createSubnet .. => Except Error Time
  | .updateSubnet .. => Except Error Time
  | .deleteSubnet .. => Except Error Unit
  | .randInt .. => Nat
  | .crash => Empty

abbrev Action := Prog Op Res

abbrev request (op : Op) : Action (Res op) :=
  Prog.request op

def crash {α : Type} : Action α :=
  .call .crash fun answer => nomatch answer

def orPanic {α : Type} (value : Option α) : Action α :=
  match value with
  | some a => .ret a
  | none => crash

/-! ## The source functions -/

structure LocalManager where
  previousSubnet : IP4Net
  previousIPv6Subnet : IP6Net
  deriving DecidableEq

def raceRetries : Nat :=
  10

def subnetTTL : Time :=
  24 * 3600 * second

def isErrEtcdNodeExist (error : Error) : Bool :=
  error == .duplicateKey

def findLeaseByIP (leases : List Lease) (pubIP : IP4) : Option Lease :=
  leases.find? fun l => pubIP == l.attrs.publicIP

def findLeaseBySubnet (leases : List Lease) (subnet : IP4Net) : Option Lease :=
  leases.find? fun l => subnet.equal l.subnet

def isSubnetConfigCompat (config : Config) (sn : IP4Net) : Bool :=
  if sn.ip < config.subnetMin ∨ config.subnetMax < sn.ip then false
  else sn.prefixLen == config.subnetLen

def isIPv6SubnetConfigCompat (config : Config) (sn6 : IP6Net) : Option Bool :=
  if !config.enableIPv6 then some sn6.empty
  else if sn6.empty then some false
  else
    match IP6.cmp sn6.ip config.ipv6SubnetMin with
    | none => none
    | some .lt => some false
    | some _ =>
      match IP6.cmp sn6.ip config.ipv6SubnetMax with
      | none => none
      | some .gt => some false
      | some _ => some (sn6.prefixLen == config.ipv6SubnetLen)

def isConfigCompat (config : Config) (sn : IP4Net) (sn6 : IP6Net) : Option Bool :=
  if isSubnetConfigCompat config sn then isIPv6SubnetConfigCompat config sn6 else some false

/-- The IPv4 loop of `allocateSubnet`. Addresses wrap around, so the loop need not
end; the first argument bounds the rounds. -/
def scanIPv4 (subnetMax : IP4) (leases : List Lease) : Nat → IP4Net → List IP4 → Option (List IP4)
  | 0, _, _ => none
  | rounds + 1, sn, availableIPs =>
    if sn.ip ≤ subnetMax ∧ availableIPs.length < 100 then
      if leases.any fun l => sn.overlaps l.subnet then
        scanIPv4 subnetMax leases rounds sn.next availableIPs
      else scanIPv4 subnetMax leases rounds sn.next (availableIPs ++ [sn.ip])
    else some availableIPs

def overlapsAny (sn6 : IP6Net) : List Lease → Option Bool
  | [] => some false
  | l :: leases =>
    match sn6.overlaps l.ipv6Subnet with
    | none => none
    | some true => some true
    | some false => overlapsAny sn6 leases

/-- The IPv6 loop of `allocateSubnet`: the addresses found, and the subnet it stops
at. -/
def scanIPv6 (subnetMax : Option IP6) (leases : List Lease) :
    Nat → IP6Net → List (Option IP6) → Option (List (Option IP6) × IP6Net)
  | 0, _, _ => none
  | rounds + 1, sn6, availableIPv6s =>
    match IP6.cmp sn6.ip subnetMax with
    | none => none
    | some .gt => some (availableIPv6s, sn6)
    | some _ =>
      if availableIPv6s.length < 100 then
        match overlapsAny sn6 leases, sn6.next with
        | some true, some next => scanIPv6 subnetMax leases rounds next availableIPv6s
        | some false, some next =>
          scanIPv6 subnetMax leases rounds next (availableIPv6s ++ [sn6.ip])
        | _, _ => none
      else some (availableIPv6s, sn6)

/-- Enough rounds for the IPv4 loop: without a find in one turn around the address
space there never is one, and a hundred finds end it. -/
def ipv4Rounds : Nat :=
  100 * 2 ^ 32 + 1

def availableIPs (config : Config) (leases : List Lease) : Option (List IP4) :=
  scanIPv4 config.subnetMax leases ipv4Rounds ⟨config.subnetMin, config.subnetLen⟩ []

/-- The IPv6 addresses `allocateSubnet` chooses from, and the subnet its loop stops
at; each round moves to a larger address. -/
def availableIPv6s (config : Config) (leases : List Lease) :
    Option (List (Option IP6) × IP6Net) :=
  let sn6 : IP6Net :=
    if config.enableIPv6 then ⟨config.ipv6SubnetMin, config.ipv6SubnetLen⟩ else .zero
  if sn6.empty then some ([], sn6)
  else scanIPv6 config.ipv6SubnetMax leases (config.ipv6SubnetMax.getD 0 + 2) sn6 []

def pickOne {α : Type} (available : List α) : Action α := do
  let i ← request (.randInt 0 available.length)
  orPanic available[i]?

def pickSubnets (config : Config) (ips : List IP4) (ip6s : List (Option IP6)) (sn6 : IP6Net) :
    Action (Except Error (IP4Net × IP6Net)) :=
  if ips.isEmpty || (!sn6.empty && ip6s.isEmpty) then return .error .outOfSubnets
  else if sn6.empty then do
    let ip ← pickOne ips
    return .ok (⟨ip, config.subnetLen⟩, .zero)
  else do
    let ip ← pickOne ips
    let ip6 ← pickOne ip6s
    return .ok (⟨ip, config.subnetLen⟩, ⟨ip6, config.ipv6SubnetLen⟩)

def allocateSubnet (config : Config) (leases : List Lease) :
    Action (Except Error (IP4Net × IP6Net)) := do
  let ips ← orPanic (availableIPs config leases)
  let found ← orPanic (availableIPv6s config leases)
  pickSubnets config ips found.1 found.2

def previousSubnets (m : LocalManager) (config : Config) (leases : List Lease) :
    Option (Option (IP4Net × IP6Net)) :=
  if m.previousSubnet.empty then some none
  else if (findLeaseBySubnet leases m.previousSubnet).isSome then some none
  else
    (isConfigCompat config m.previousSubnet m.previousIPv6Subnet).map fun compat =>
      if compat then some (m.previousSubnet, m.previousIPv6Subnet) else none

def chooseSubnets (m : LocalManager) (config : Config) (leases : List Lease) :
    Action (Except Error (IP4Net × IP6Net)) := do
  match ← orPanic (previousSubnets m config leases) with
  | some subnets => return .ok subnets
  | none => allocateSubnet config leases

def createLease (attrs : LeaseAttrs) :
    Except Error (IP4Net × IP6Net) → Action (Except Error Lease)
  | .error error => .ret (.error error)
  | .ok (sn, sn6) => do
    match ← request (.createSubnet sn sn6 attrs subnetTTL) with
    | .ok exp => return .ok ⟨true, !sn6.empty, sn, sn6, attrs, exp, 0⟩
    | .error error => return .error (if isErrEtcdNodeExist error then .tryAgain else error)

def reuseLease (attrs : LeaseAttrs) (l : Lease) : Action (Except Error Lease) := do
  let ttl : Time := if l.expiration.isZero then 0 else subnetTTL
  match ← request (.updateSubnet l.subnet l.ipv6Subnet attrs ttl 0) with
  | .error error => return .error error
  | .ok exp => return .ok { l with attrs := attrs, expiration := exp }

def newLease (m : LocalManager) (config : Config) (attrs : LeaseAttrs) (leases : List Lease) :
    Action (Except Error Lease) := do
  createLease attrs (← chooseSubnets m config leases)

def tryAcquireLease (m : LocalManager) (config : Config) (extIaddr : IP4) (attrs : LeaseAttrs) :
    Action (Except Error Lease) := do
  match ← request .getSubnets with
  | .error error => return .error error
  | .ok (leases, _) =>
    match findLeaseByIP leases extIaddr with
    | none => newLease m config attrs leases
    | some l =>
      match ← orPanic (isConfigCompat config l.subnet l.ipv6Subnet) with
      | true => reuseLease attrs l
      | false =>
        match ← request (.deleteSubnet l.subnet l.ipv6Subnet) with
        | .error error => return .error error
        | .ok () => newLease m config attrs leases

def getNetworkConfig : Action (Except Error Config) := do
  match ← request .getNetworkConfig with
  | .error error => return .error error
  | .ok config =>
    match checkNetworkConfig config with
    | .ok config => return .ok config
    | .error (.error message) => return .error (.badConfig message)
    | .error .crash => crash

def acquireLoop (m : LocalManager) (config : Config) (attrs : LeaseAttrs) :
    Nat → Action (Except Error Lease)
  | 0 => .ret (.error .maxRetries)
  | attempts + 1 => do
    match ← tryAcquireLease m config attrs.publicIP attrs with
    | .ok l => return .ok l
    | .error .tryAgain => acquireLoop m config attrs attempts
    | .error error => return .error error

def acquireLease (m : LocalManager) (attrs : LeaseAttrs) : Action (Except Error Lease) := do
  match ← getNetworkConfig with
  | .error error => return .error error
  | .ok config => acquireLoop m config attrs raceRetries

def renewLease (lease : Lease) : Action (Except Error Lease) := do
  match ← request (.updateSubnet lease.subnet lease.ipv6Subnet lease.attrs subnetTTL 0) with
  | .error error => return .error error
  | .ok exp => return .ok { lease with expiration := exp }

/-! ## What the loops find -/

structure Free (start : IP4Net) (subnetMax : IP4) (leases : List Lease) (sn : IP4Net) : Prop where
  reached : ∃ steps, sn = IP4Net.next^[steps] start
  le : sn.ip ≤ subnetMax
  apart : ∀ l ∈ leases, sn.overlaps l.subnet = false

theorem prefixLen_iterate_next (sn : IP4Net) (steps : Nat) :
    (IP4Net.next^[steps] sn).prefixLen = sn.prefixLen := by
  induction steps with
  | zero => rfl
  | succ steps ih =>
    rw [Function.iterate_succ_apply']
    exact ih

variable {leases : List Lease} {config : Config} {ip6s : List (Option IP6)}

theorem scanIPv4_spec {subnetMax : IP4} {start : IP4Net} {rounds : Nat} :
    ∀ {sn : IP4Net} {found ips : List IP4},
      (∃ steps, sn = IP4Net.next^[steps] start) →
      (∀ ip ∈ found, Free start subnetMax leases ⟨ip, start.prefixLen⟩) →
      scanIPv4 subnetMax leases rounds sn found = some ips →
      ∀ ip ∈ ips, Free start subnetMax leases ⟨ip, start.prefixLen⟩ := by
  induction rounds with
  | zero =>
    intro sn found ips _ _ scanned
    contradiction
  | succ rounds ih =>
    intro sn found ips reached sofar scanned
    have reachedNext : ∃ steps, sn.next = IP4Net.next^[steps] start := by
      obtain ⟨steps, rfl⟩ := reached
      exact ⟨steps + 1, (Function.iterate_succ_apply' _ _ _).symm⟩
    rw [scanIPv4] at scanned
    split_ifs at scanned with inRange taken
    · exact ih reachedNext sofar scanned
    · apply ih reachedNext _ scanned
      intro ip mem
      rcases List.mem_append.mp mem with old | new
      · exact sofar ip old
      · obtain rfl := List.mem_singleton.mp new
        have whole : (⟨sn.ip, start.prefixLen⟩ : IP4Net) = sn := by
          obtain ⟨steps, rfl⟩ := reached
          rw [← prefixLen_iterate_next start steps]
        rw [whole]
        refine ⟨reached, inRange.1, fun l mem => ?_⟩
        simp only [List.any_eq_true, not_exists, not_and, Bool.not_eq_true] at taken
        exact taken l mem
    · cases scanned
      exact sofar

structure FreeIPv6 (lowest : IP6) (len : Nat) (subnetMax : Option IP6) (leases : List Lease)
    (ip6 : IP6) : Prop where
  reached : ∃ steps, ip6 = lowest + steps * 2 ^ (128 - len)
  le : ∃ highest, subnetMax = some highest ∧ ip6 ≤ highest
  apart : ∀ l ∈ leases, (⟨some ip6, len⟩ : IP6Net).overlaps l.ipv6Subnet = some false

theorem overlapsAny_eq_false {sn6 : IP6Net} (apart : overlapsAny sn6 leases = some false) :
    ∀ l ∈ leases, sn6.overlaps l.ipv6Subnet = some false := by
  induction leases with
  | nil => simp
  | cons l leases ih =>
    rw [overlapsAny] at apart
    split at apart
    · contradiction
    · contradiction
    · rename_i here
      intro l' mem
      rcases List.mem_cons.mp mem with rfl | later
      · exact here
      · exact ih apart l' later

theorem cmp_some_eq_some {ip6 : IP6} {other : Option IP6} {order : Ordering}
    (compared : IP6.cmp (some ip6) other = some order) :
    ∃ highest, other = some highest ∧ order = compare ip6 highest := by
  cases other with
  | none => contradiction
  | some highest => exact ⟨highest, rfl, (Option.some.inj compared).symm⟩

theorem scanIPv6_spec {subnetMax : Option IP6} {lowest : IP6} {len : Nat} {rounds : Nat} :
    ∀ {ip6 : IP6} {found : List (Option IP6)} {result : List (Option IP6) × IP6Net},
      (∃ steps, ip6 = lowest + steps * 2 ^ (128 - len)) →
      (∀ ip ∈ found, ∃ ip6, ip = some ip6 ∧ FreeIPv6 lowest len subnetMax leases ip6) →
      scanIPv6 subnetMax leases rounds ⟨some ip6, len⟩ found = some result →
      result.2.prefixLen = len ∧
        ∀ ip ∈ result.1, ∃ ip6, ip = some ip6 ∧ FreeIPv6 lowest len subnetMax leases ip6 := by
  induction rounds with
  | zero =>
    intro ip6 found result _ _ scanned
    contradiction
  | succ rounds ih =>
    intro ip6 found result reached sofar scanned
    have reachedNext : ∃ steps, ip6 + 2 ^ (128 - len) = lowest + steps * 2 ^ (128 - len) := by
      obtain ⟨steps, rfl⟩ := reached
      exact ⟨steps + 1, by rw [Nat.add_mul, Nat.one_mul, Nat.add_assoc]⟩
    have nextIs : ∀ {sn6 : IP6Net}, (⟨some ip6, len⟩ : IP6Net).next = some sn6 →
        sn6 = ⟨some (ip6 + 2 ^ (128 - len)), len⟩ := by
      intro sn6 moved
      rw [IP6Net.next] at moved
      split_ifs at moved
      exact (Option.some.inj moved).symm
    rw [scanIPv6] at scanned
    split at scanned
    · contradiction
    · cases scanned
      exact ⟨rfl, sofar⟩
    · rename_i order notAbove compared
      split_ifs at scanned with room
      · split at scanned
        · rename_i sn6 _ moved
          rw [nextIs moved] at scanned
          exact ih reachedNext sofar scanned
        · rename_i sn6 apart moved
          rw [nextIs moved] at scanned
          apply ih reachedNext _ scanned
          intro ip mem
          rcases List.mem_append.mp mem with old | new
          · exact sofar ip old
          · obtain rfl := List.mem_singleton.mp new
            obtain ⟨highest, isHighest, rfl⟩ := cmp_some_eq_some compared
            refine ⟨ip6, rfl, reached, ⟨highest, isHighest, ?_⟩, overlapsAny_eq_false apart⟩
            exact Nat.not_lt.mp fun above => notAbove (Nat.compare_eq_gt.mpr above)
        · contradiction
      · cases scanned
        exact ⟨rfl, sofar⟩

/-! ## The subnets an acquisition may create -/

structure Allocated (config : Config) (leases : List Lease) (sn : IP4Net) (sn6 : IP6Net) :
    Prop where
  ipv4 : Free ⟨config.subnetMin, config.subnetLen⟩ config.subnetMax leases sn
  single : config.enableIPv6 = false → sn6 = IP6Net.zero
  dual : config.enableIPv6 = true → config.ipv6SubnetLen ≠ 0 →
    ∃ lowest ip6, config.ipv6SubnetMin = some lowest ∧ sn6 = ⟨some ip6, config.ipv6SubnetLen⟩ ∧
      FreeIPv6 lowest config.ipv6SubnetLen config.ipv6SubnetMax leases ip6

inductive Chosen (m : LocalManager) (config : Config) (leases : List Lease) :
    IP4Net → IP6Net → Prop
  | previous :
      m.previousSubnet.empty = false → (∀ l ∈ leases, l.subnet ≠ m.previousSubnet) →
      isConfigCompat config m.previousSubnet m.previousIPv6Subnet = some true →
      Chosen m config leases m.previousSubnet m.previousIPv6Subnet
  | allocated {sn : IP4Net} {sn6 : IP6Net} :
      Allocated config leases sn sn6 → Chosen m config leases sn sn6

theorem availableIPs_spec {ips : List IP4}
    (found : availableIPs config leases = some ips) {ip : IP4} (mem : ip ∈ ips) :
    Free ⟨config.subnetMin, config.subnetLen⟩ config.subnetMax leases ⟨ip, config.subnetLen⟩ :=
  scanIPv4_spec ⟨0, rfl⟩ (by simp) found ip mem

theorem availableIPv6s_of_single (single : config.enableIPv6 = false) :
    availableIPv6s config leases = some ([], IP6Net.zero) := by
  rw [availableIPv6s, single]
  rfl

theorem availableIPv6s_of_dual {sn6 : IP6Net} (dual : config.enableIPv6)
    (long : config.ipv6SubnetLen ≠ 0) (found : availableIPv6s config leases = some (ip6s, sn6)) :
    sn6.empty = false ∧ ∀ ip ∈ ip6s, ∃ lowest ip6, config.ipv6SubnetMin = some lowest ∧
      ip = some ip6 ∧
      FreeIPv6 lowest config.ipv6SubnetLen config.ipv6SubnetMax leases ip6 := by
  have notEmpty : ∀ {n : IP6Net}, n.prefixLen = config.ipv6SubnetLen → n.empty = false := by
    intro n sameLength
    simp [IP6Net.empty, sameLength, long]
  rw [availableIPv6s, dual, if_pos rfl, notEmpty rfl] at found
  cases start : config.ipv6SubnetMin with
  | none =>
    -- The loop compares or advances a nil address and panics.
    rw [start] at found
    cases highest : config.ipv6SubnetMax <;>
      simp [highest, scanIPv6, IP6.cmp, IP6Net.next] at found
  | some lowest =>
    rw [start] at found
    rw [if_neg (by decide)] at found
    have atStart : ∃ steps, lowest = lowest + steps * 2 ^ (128 - config.ipv6SubnetLen) :=
      ⟨0, by simp⟩
    obtain ⟨length, spec⟩ := scanIPv6_spec atStart (by simp) found
    refine ⟨notEmpty length, fun ip mem => ?_⟩
    obtain ⟨ip6, rfl, free⟩ := spec ip mem
    exact ⟨lowest, ip6, rfl, rfl, free⟩

theorem allocated_single {ips : List IP4}
    {sn6 : IP6Net} (found : availableIPs config leases = some ips)
    (found6 : availableIPv6s config leases = some (ip6s, sn6)) (single : sn6.empty) {ip : IP4}
    (mem : ip ∈ ips) : Allocated config leases ⟨ip, config.subnetLen⟩ IP6Net.zero := by
  refine ⟨availableIPs_spec found mem, fun _ => rfl, fun dual long => ?_⟩
  rw [(availableIPv6s_of_dual dual long found6).1] at single
  contradiction

theorem allocated_dual {ips : List IP4}
    {sn6 : IP6Net} (found : availableIPs config leases = some ips)
    (found6 : availableIPv6s config leases = some (ip6s, sn6)) (dual : sn6.empty ≠ true) {ip : IP4}
    (mem : ip ∈ ips) {ip6 : Option IP6} (mem6 : ip6 ∈ ip6s) :
    Allocated config leases ⟨ip, config.subnetLen⟩ ⟨ip6, config.ipv6SubnetLen⟩ := by
  refine ⟨availableIPs_spec found mem, fun single => ?_, fun enabled long => ?_⟩
  · rw [availableIPv6s_of_single single] at found6
    cases found6
    contradiction
  · obtain ⟨lowest, address, isLowest, rfl, free6⟩ :=
      (availableIPv6s_of_dual enabled long found6).2 ip6 mem6
    exact ⟨lowest, address, isLowest, rfl, free6⟩

structure Draws {η α : Type} (contract : Contract Op Res η α) : Prop where
  allowed : ∀ history lo hi, lo < hi → contract.guarantee history (.randInt lo hi)
  inRange : ∀ history lo hi (i : Nat), contract.rely history (.randInt lo hi) i → i < hi
  unnoted : ∀ history lo hi (i : Nat), contract.note history (.randInt lo hi) i = history

section Draws

variable {η α β : Type} {contract : Contract Op Res η β}

theorem Draws.safe_pickOne_bind (draws : Draws contract) {history : η} {available : List α}
    {next : α → Action β} (some : available ≠ [])
    (continues : ∀ a ∈ available, Safe contract history (next a)) :
    Safe contract history (pickOne available >>= next) := by
  refine .call (draws.allowed history _ _ (List.length_pos_iff.mpr some)) fun i rely => ?_
  have inRange : i < available.length := draws.inRange history _ _ i rely
  rw [draws.unnoted]
  change Safe contract history (orPanic available[i]? >>= next)
  rw [List.getElem?_eq_getElem inRange]
  exact continues _ (List.getElem_mem inRange)

theorem Draws.pickSubnets_safe {contract : Contract Op Res η (Except Error (IP4Net × IP6Net))}
    (draws : Draws contract) {history : η} {config : Config} {leases : List Lease} {ips : List IP4}
    {ip6s : List (Option IP6)} {sn6 : IP6Net} (found : availableIPs config leases = some ips)
    (found6 : availableIPv6s config leases = some (ip6s, sn6))
    (exhausted : ips = [] ∨ (sn6.empty = false ∧ ip6s = []) →
      contract.post history (.error .outOfSubnets))
    (allocated : ∀ sn sn6, Allocated config leases sn sn6 → contract.post history (.ok (sn, sn6))) :
    Safe contract history (pickSubnets config ips ip6s sn6) := by
  rw [pickSubnets]
  split_ifs with nothing single
  · simp only [Bool.or_eq_true, List.isEmpty_iff, Bool.and_eq_true, Bool.not_eq_true'] at nothing
    exact .ret (exhausted nothing)
  · simp only [single, Bool.or_eq_true, List.isEmpty_iff, Bool.not_true, Bool.false_and,
      Bool.false_eq_true, or_false] at nothing
    refine draws.safe_pickOne_bind nothing fun ip mem => .ret ?_
    exact allocated _ _ (allocated_single found found6 single mem)
  · simp only [single, Bool.or_eq_true, List.isEmpty_iff, Bool.not_false, Bool.true_and,
      not_or] at nothing
    refine draws.safe_pickOne_bind nothing.1 fun ip mem => ?_
    refine draws.safe_pickOne_bind nothing.2 fun ip6 mem6 => .ret ?_
    exact allocated _ _ (allocated_dual found found6 single mem mem6)

end Draws

/-! ## The specification of an acquisition -/

/-- What an acquisition has learnt: the leases it listed last, the subnets it may
still write because the list showed them as its own, and the subnets it has
written. -/
structure Trail where
  seen : List Lease
  claimed : List (IP4Net × IP6Net)
  written : Option (IP4Net × IP6Net)

def ownSubnets (leases : List Lease) (pubIP : IP4) : List (IP4Net × IP6Net) :=
  (leases.filter fun l => pubIP == l.attrs.publicIP).map fun l => (l.subnet, l.ipv6Subnet)

def Trail.note (pubIP : IP4) (trail : Trail) : (op : Op) → Res op → Trail
  | .getSubnets, .ok (leases, _) => ⟨leases, ownSubnets leases pubIP, none⟩
  | .createSubnet sn sn6 _ _, .ok _ => { trail with claimed := [], written := some (sn, sn6) }
  | .createSubnet .., .error _ => { trail with claimed := [] }
  | .updateSubnet sn sn6 .., .ok _ => { trail with claimed := [], written := some (sn, sn6) }
  | .updateSubnet .., .error _ => { trail with claimed := [] }
  | .deleteSubnet .., _ => { trail with claimed := [] }
  | _, _ => trail

/-- The contract of a node: it writes its own attributes only, updates and deletes only what it
claims, creates only subnets it may pick, and returns the lease it wrote. -/
def leasing (attrs : LeaseAttrs) (pick : List Lease → IP4Net → IP6Net → Prop) :
    Contract Op Res Trail (Except Error Lease) where
  note := Trail.note attrs.publicIP
  rely _ op answer :=
    match op, answer with
    | .randInt lo hi, answer => lo ≤ answer ∧ answer < hi
    | _, _ => True
  guarantee trail
    | .createSubnet sn sn6 written _ => written = attrs ∧ pick trail.seen sn sn6
    | .updateSubnet sn sn6 written _ _ => written = attrs ∧ (sn, sn6) ∈ trail.claimed
    | .deleteSubnet sn sn6 => (sn, sn6) ∈ trail.claimed
    | .randInt lo hi => lo < hi
    | _ => True
  post trail result := ∀ lease, result = .ok lease →
    lease.attrs = attrs ∧ trail.written = some (lease.subnet, lease.ipv6Subnet)

section Specification

variable {attrs : LeaseAttrs} {pick : List Lease → IP4Net → IP6Net → Prop}

theorem leasing_error {trail : Trail} {error : Error} :
    Safe (leasing attrs pick) trail (.ret (.error error)) :=
  .ret nofun

theorem safe_orPanic_bind {α β : Type} {post : Trail → β → Prop} {trail : Trail}
    {value : Option α} {next : α → Action β}
    (continues : ∀ a, value = some a →
      Safe ((leasing attrs pick).ensuring post) trail (next a)) :
    Safe ((leasing attrs pick).ensuring post) trail (orPanic value >>= next) := by
  cases value with
  | none => exact .call trivial fun answer => nomatch answer
  | some a => exact continues a rfl

theorem draws_leasing {β : Type} {post : Trail → β → Prop} :
    Draws ((leasing attrs pick).ensuring post) :=
  ⟨fun _ _ _ nonempty => nonempty, fun _ _ _ _ rely => rely.2, fun _ _ _ _ => rfl⟩

theorem allocateSubnet_safe (config : Config) (trail : Trail) :
    Safe ((leasing attrs pick).ensuring fun later result => later = trail ∧
        ∀ sn sn6, result = .ok (sn, sn6) → Allocated config trail.seen sn sn6)
      trail (allocateSubnet config trail.seen) := by
  apply safe_orPanic_bind
  intro ips found
  apply safe_orPanic_bind
  rintro ⟨ip6s, sn6⟩ found6
  apply draws_leasing.pickSubnets_safe found found6
  · exact fun _ => ⟨rfl, nofun⟩
  · intro sn sn6 allocated
    refine ⟨rfl, fun _ _ equal => ?_⟩
    cases equal
    exact allocated

theorem previousSubnets_spec {m : LocalManager} {config : Config} {leases : List Lease}
    {sn : IP4Net} {sn6 : IP6Net} (usable : previousSubnets m config leases = some (some (sn, sn6))) :
    Chosen m config leases sn sn6 := by
  rw [previousSubnets] at usable
  split_ifs at usable with isEmpty taken
  · cases usable
  · cases usable
  · obtain ⟨compat, isCompat, chosen⟩ := Option.map_eq_some_iff.mp usable
    cases compat with
    | false => cases chosen
    | true =>
      cases chosen
      rw [Option.not_isSome_iff_eq_none, findLeaseBySubnet, List.find?_eq_none] at taken
      refine .previous (Bool.not_eq_true _ ▸ isEmpty) (fun l mem same => ?_) isCompat
      exact taken l mem ((IP4Net.equal_iff _ _).mpr same.symm)

theorem chooseSubnets_safe (m : LocalManager) (config : Config) (trail : Trail) :
    Safe ((leasing attrs pick).ensuring fun later result => later = trail ∧
        ∀ sn sn6, result = .ok (sn, sn6) → Chosen m config trail.seen sn sn6)
      trail (chooseSubnets m config trail.seen) := by
  apply safe_orPanic_bind
  intro previous usable
  cases previous with
  | some subnets =>
    refine .ret ⟨rfl, fun sn sn6 equal => ?_⟩
    cases equal
    exact previousSubnets_spec usable
  | none =>
    apply (allocateSubnet_safe config trail).weaken
    rintro later result ⟨unchanged, allocated⟩
    exact ⟨unchanged, fun sn sn6 equal => .allocated (allocated sn sn6 equal)⟩

theorem newLease_safe (m : LocalManager) (config : Config) (trail : Trail)
    (picks : ∀ leases sn sn6, Chosen m config leases sn sn6 → pick leases sn sn6) :
    Safe (leasing attrs pick) trail (newLease m config attrs trail.seen) := by
  apply Safe.bind (chooseSubnets_safe m config trail)
  rintro later choice ⟨rfl, chosen⟩
  cases choice with
  | error error => exact leasing_error
  | ok subnets =>
    rcases subnets with ⟨sn, sn6⟩
    refine .call ⟨rfl, picks _ sn sn6 (chosen sn sn6 rfl)⟩ fun answer _ => ?_
    cases answer with
    | error error => exact leasing_error
    | ok exp =>
      refine .ret fun lease equal => ?_
      cases equal
      exact ⟨rfl, rfl⟩

theorem reuseLease_safe {trail : Trail} {l : Lease}
    (claimed : (l.subnet, l.ipv6Subnet) ∈ trail.claimed) :
    Safe (leasing attrs pick) trail (reuseLease attrs l) := by
  refine .call ⟨rfl, claimed⟩ fun answer _ => ?_
  cases answer with
  | error error => exact leasing_error
  | ok exp =>
    refine .ret fun lease equal => ?_
    cases equal
    exact ⟨rfl, rfl⟩

theorem mem_ownSubnets_of_findLeaseByIP {leases : List Lease} {pubIP : IP4} {l : Lease}
    (found : findLeaseByIP leases pubIP = some l) :
    (l.subnet, l.ipv6Subnet) ∈ ownSubnets leases pubIP := by
  rw [findLeaseByIP] at found
  have isOwn := List.find?_some found
  have mem := List.mem_of_find?_eq_some found
  exact List.mem_map.mpr ⟨l, List.mem_filter.mpr ⟨mem, isOwn⟩, rfl⟩

theorem tryAcquireLease_safe (m : LocalManager) (config : Config) (trail : Trail)
    (picks : ∀ leases sn sn6, Chosen m config leases sn sn6 → pick leases sn sn6) :
    Safe (leasing attrs pick) trail (tryAcquireLease m config attrs.publicIP attrs) := by
  unfold tryAcquireLease
  apply safe_request_bind trivial
  intro answer _
  rcases answer with error | ⟨leases, index⟩
  · exact leasing_error
  · dsimp only
    cases found : findLeaseByIP leases attrs.publicIP with
    | none => exact newLease_safe m config ⟨leases, _, none⟩ picks
    | some l =>
      have claimed := mem_ownSubnets_of_findLeaseByIP found
      apply safe_orPanic_bind
      intro compat _
      cases compat with
      | true => exact reuseLease_safe claimed
      | false =>
        apply safe_request_bind claimed
        intro answer _
        cases answer with
        | error error => exact leasing_error
        | ok _ => exact newLease_safe m config ⟨leases, [], none⟩ picks

theorem acquireLoop_safe (m : LocalManager) (config : Config) (attempts : Nat) (trail : Trail)
    (picks : ∀ leases sn sn6, Chosen m config leases sn sn6 → pick leases sn sn6) :
    Safe (leasing attrs pick) trail (acquireLoop m config attrs attempts) := by
  induction attempts generalizing trail with
  | zero => exact leasing_error
  | succ attempts ih =>
    have attempt : Safe ((leasing attrs pick).ensuring (leasing attrs pick).post) trail
        (tryAcquireLease m config attrs.publicIP attrs) :=
      tryAcquireLease_safe m config trail picks
    apply attempt.bind
    intro later result post
    cases result with
    | ok lease => exact .ret post
    | error error =>
      cases error
      case tryAgain => exact ih later
      all_goals exact leasing_error

theorem getNetworkConfig_safe (trail : Trail) :
    Safe ((leasing attrs pick).ensuring fun later _ => later = trail) trail getNetworkConfig := by
  unfold getNetworkConfig
  apply safe_request_bind trivial
  intro answer _
  cases answer with
  | error error => exact .ret rfl
  | ok config =>
    dsimp only
    cases checkNetworkConfig config with
    | ok config => exact .ret rfl
    | error failure =>
      cases failure with
      | error message => exact .ret rfl
      | crash => exact .call trivial fun answer => nomatch answer

theorem acquireLease_safe (m : LocalManager) (trail : Trail)
    (picks : ∀ config leases sn sn6, Chosen m config leases sn sn6 → pick leases sn sn6) :
    Safe (leasing attrs pick) trail (acquireLease m attrs) := by
  apply (getNetworkConfig_safe trail).bind
  rintro later result rfl
  cases result with
  | error error => exact leasing_error
  | ok config => exact acquireLoop_safe m config raceRetries later (picks config)

theorem renewLease_safe {trail : Trail} {lease : Lease} (own : lease.attrs = attrs)
    (claimed : (lease.subnet, lease.ipv6Subnet) ∈ trail.claimed) :
    Safe (leasing attrs pick) trail (renewLease lease) := by
  refine .call ⟨own, claimed⟩ fun answer _ => ?_
  cases answer with
  | error error => exact leasing_error
  | ok exp =>
    refine .ret fun renewed equal => ?_
    cases equal
    exact ⟨own, rfl⟩

end Specification

end Flannel.Etcd
