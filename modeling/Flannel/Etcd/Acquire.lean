import Flannel.Etcd.Allocation

/-!
# One call of `AcquireLease` among competing nodes

Before each request the other nodes may have done anything to the registry. The registry reports a
taken key with an error that the manager does not count as a lost race. So, where every request
succeeds and there is a free subnet, the call returns a lease exactly when no create finds its key
taken, and the loop is never entered a second time.
-/

namespace Flannel.Etcd

open Ip Net Leases Subnet Program KeyValue

/-! ## Requests that cannot panic -/

def Printable (sn6 : IP6Net) : Prop :=
  sn6.empty = false → ∃ ip6, sn6.ip = some ip6 ∧ ip6 < 2 ^ 128

variable {sn6 : IP6Net}

theorem Printable.subnetPath (printable : Printable sn6) (root : String)
    (sn : IP4Net) : ∃ key, subnetPath root sn sn6 = some key := by
  by_cases isEmpty : sn6.empty
  · exact ⟨_, subnetPath_of_empty isEmpty⟩
  · obtain ⟨ip6, shape, small⟩ := printable (Bool.not_eq_true _ ▸ isEmpty)
    have printed : IP6.string ip6 = some (IP6.ofBits (BitVec.ofNat 128 ip6)).string := by
      rw [IP6.string, IP6.toIP, if_pos small]
      rfl
    simp [Etcd.subnetPath, makeSubnetKey, isEmpty, IP6Net.stringSep, shape, printed]

theorem printable_of_keySubnets {key : String} {subnets : IP4Net × IP6Net}
    (decoded : keySubnets key = some subnets) : Printable subnets.2 := by
  obtain ⟨⟨sn, sn6⟩, parsed, rfl⟩ := Option.map_eq_some_iff.mp decoded
  cases sn6 with
  | none =>
    intro notEmpty
    contradiction
  | some sn6 =>
    intro _
    unfold parseSubnetKey at parsed
    split at parsed
    · simp only [Option.bind_eq_bind, Option.bind_eq_some_iff] at parsed
      obtain ⟨snIp, _, prefixLen, _, parsed⟩ := parsed
      split_ifs at parsed
      · cases parsed
      · simp only [Option.bind_eq_some_iff] at parsed
        obtain ⟨snIp6, _, prefixLen6, _, shape⟩ := parsed
        cases shape
        exact ⟨_, rfl, BitVec.isLt _⟩
    · contradiction

def RangeChecked (config : Config) : Prop :=
  config.enableIPv6 = true → IPv6Checked config

theorem lt_of_checkIPv6Subnet {ip6 : IP6} {mask : BitVec 128}
    (aligned : checkIPv6Subnet ip6 mask) : ip6 < 2 ^ 128 := by
  rw [checkIPv6Subnet, beq_iff_eq] at aligned
  rw [aligned]
  exact BitVec.isLt _

theorem isIPv6SubnetConfigCompat_eq {config : Config} {ip6 lowest highest : IP6}
    (dual : config.enableIPv6) (notEmpty : sn6.empty = false) (shape : sn6.ip = some ip6)
    (isLowest : config.ipv6SubnetMin = some lowest)
    (isHighest : config.ipv6SubnetMax = some highest) :
    isIPv6SubnetConfigCompat config sn6 =
      some (decide (lowest ≤ ip6 ∧ ip6 ≤ highest) && sn6.prefixLen == config.ipv6SubnetLen) := by
  rw [isIPv6SubnetConfigCompat, dual, notEmpty, shape, isLowest, isHighest]
  simp only [Bool.not_true, Bool.false_eq_true, if_false, IP6.cmp]
  rcases lt_trichotomy ip6 lowest with below | rfl | above
  · simp [Nat.compare_eq_lt.mpr below, Nat.not_le.mpr below]
  · rcases lt_trichotomy ip6 highest with inside | rfl | beyond
    · simp [Nat.compare_eq_lt.mpr inside, Nat.le_of_lt inside]
    · simp
    · simp [Nat.compare_eq_gt.mpr beyond, Nat.not_le.mpr beyond]
  · rcases lt_trichotomy ip6 highest with inside | rfl | beyond
    · simp [Nat.compare_eq_gt.mpr above, Nat.compare_eq_lt.mpr inside, Nat.le_of_lt above,
        Nat.le_of_lt inside]
    · simp [Nat.compare_eq_gt.mpr above, Nat.le_of_lt above]
    · simp [Nat.compare_eq_gt.mpr above, Nat.compare_eq_gt.mpr beyond, Nat.not_le.mpr beyond]

theorem isConfigCompat_isSome {config : Config} (checked : RangeChecked config)
    (set : sn6.empty = false → ∃ ip6, sn6.ip = some ip6) (sn : IP4Net) :
    ∃ compat, isConfigCompat config sn sn6 = some compat := by
  rw [isConfigCompat]
  split_ifs with ipv4
  · by_cases dual : config.enableIPv6
    · cases isEmpty : sn6.empty with
      | true => exact ⟨false, by simp [isIPv6SubnetConfigCompat, dual, isEmpty]⟩
      | false =>
        obtain ⟨ip6, shape⟩ := set isEmpty
        obtain ⟨lowest, isLowest, _⟩ := (checked dual).min
        obtain ⟨highest, isHighest, _⟩ := (checked dual).max
        exact ⟨_, isIPv6SubnetConfigCompat_eq dual isEmpty shape isLowest isHighest⟩
    · exact ⟨sn6.empty, by simp [isIPv6SubnetConfigCompat, dual]⟩
  · exact ⟨false, rfl⟩

theorem printable_of_isConfigCompat {config : Config} {sn : IP4Net}
    (checked : RangeChecked config) (set : sn6.empty = false → ∃ ip6, sn6.ip = some ip6)
    (compat : isConfigCompat config sn sn6 = some true) : Printable sn6 := by
  intro notEmpty
  by_cases dual : config.enableIPv6
  · obtain ⟨ip6, shape⟩ := set notEmpty
    obtain ⟨lowest, isLowest, _⟩ := (checked dual).min
    obtain ⟨highest, isHighest, aligned⟩ := (checked dual).max
    rw [isConfigCompat, isIPv6SubnetConfigCompat_eq dual notEmpty shape isLowest isHighest] at compat
    split_ifs at compat with ipv4
    · simp only [Option.some.injEq, Bool.and_eq_true, decide_eq_true_eq] at compat
      exact ⟨ip6, shape, Nat.lt_of_le_of_lt compat.1.2 (lt_of_checkIPv6Subnet aligned)⟩
    · contradiction
  · rw [(isConfigCompat_single (Bool.not_eq_true _ ▸ dual) compat).2] at notEmpty
    contradiction

theorem Allocated.printable {config : Config} {leases : List Lease} {sn : IP4Net}
    (checked : RangeChecked config) (allocated : Allocated config leases sn sn6) :
    Printable sn6 := by
  intro notEmpty
  by_cases dual : config.enableIPv6
  · have long : config.ipv6SubnetLen ≠ 0 := by
      have := (checked dual).len.1
      omega
    obtain ⟨_, ip6, _, rfl, free⟩ := allocated.dual dual long
    obtain ⟨highest, isHighest, le⟩ := free.le
    obtain ⟨highest', isHighest', aligned⟩ := (checked dual).max
    obtain rfl := Option.some.inj (isHighest.symm.trans isHighest')
    exact ⟨ip6, rfl, Nat.lt_of_le_of_lt le (lt_of_checkIPv6Subnet aligned)⟩
  · rw [allocated.single (Bool.not_eq_true _ ▸ dual)] at notEmpty
    contradiction

/-! ## The specification of a call that is not disturbed otherwise -/

def HasFree (config : Config) (leases : List Lease) : Prop :=
  ∃ ips ip6s sn6, availableIPs config leases = some ips ∧
    availableIPv6s config leases = some (ip6s, sn6) ∧ ips ≠ [] ∧ (sn6.empty = false → ip6s ≠ [])

/-- The contract of a call whose requests all succeed. The history tells whether a
create has found its key taken; a panic is not allowed. -/
def racing (root : String) (raw config : Config) : Contract Op Res Bool (Except Error Lease) where
  note lost op answer :=
    match op, answer with
    | .createSubnet .., .error _ => true
    | _, _ => lost
  rely _ op answer :=
    match op, answer with
    | .getNetworkConfig, answer => answer = .ok raw
    | .getSubnets, answer => ∃ leases index, answer = .ok (leases, index) ∧
        HasFree config leases ∧ ∀ l ∈ leases, Printable l.ipv6Subnet
    | .createSubnet .., answer => (∃ exp, answer = .ok exp) ∨ answer = .error .subnetAlreadyexists
    | .updateSubnet .., answer => ∃ exp, answer = .ok exp
    | .deleteSubnet .., answer => answer = .ok ()
    | .randInt lo hi, answer => lo ≤ answer ∧ answer < hi
    | .crash, _ => True
  guarantee _
    | .createSubnet sn sn6 _ _ => ∃ key, subnetPath root sn sn6 = some key
    | .updateSubnet sn sn6 _ _ _ => ∃ key, subnetPath root sn sn6 = some key
    | .deleteSubnet sn sn6 => ∃ key, subnetPath root sn sn6 = some key
    | .randInt lo hi => lo < hi
    | .crash => False
    | _ => True
  post lost result := (∃ lease, result = .ok lease) ↔ lost = false

def AttemptEnds (lost : Bool) (result : Except Error Lease) : Prop :=
  (lost = false ∧ ∃ lease, result = .ok lease) ∨ (lost = true ∧ result = .error .subnetAlreadyexists)

section Racing

variable {root : String} {raw config : Config} {m : LocalManager} {attrs : LeaseAttrs}
variable {leases : List Lease}

theorem draws_racing {β : Type} {post : Bool → β → Prop} :
    Draws ((racing root raw config).ensuring post) :=
  ⟨fun _ _ _ nonempty => nonempty, fun _ _ _ _ rely => rely.2, fun _ _ _ _ => rfl⟩

theorem allocateSubnet_racing (free : HasFree config leases) :
    Safe ((racing root raw config).ensuring fun lost result => lost = false ∧
        ∃ sn sn6, result = .ok (sn, sn6) ∧ Allocated config leases sn sn6)
      false (allocateSubnet config leases) := by
  obtain ⟨ips, ip6s, sn6, found, found6, some, some6⟩ := free
  rw [allocateSubnet, found, found6]
  apply draws_racing.pickSubnets_safe found found6
  · rintro (nothing | ⟨notEmpty, nothing⟩)
    · contradiction
    · exact absurd nothing (some6 notEmpty)
  · exact fun sn sn6 allocated => ⟨rfl, sn, sn6, rfl, allocated⟩

theorem chooseSubnets_racing (checked : RangeChecked config)
    (set : m.previousIPv6Subnet.empty = false → ∃ ip6, m.previousIPv6Subnet.ip = some ip6)
    (free : HasFree config leases) :
    Safe ((racing root raw config).ensuring fun lost result => lost = false ∧
        ∃ sn sn6, result = .ok (sn, sn6) ∧ Printable sn6)
      false (chooseSubnets m config leases) := by
  obtain ⟨compat, isCompat⟩ := isConfigCompat_isSome checked set m.previousSubnet
  have usable : ∃ previous, previousSubnets m config leases = some previous ∧
      ∀ sn sn6, previous = some (sn, sn6) → Printable sn6 := by
    cases previous : previousSubnets m config leases with
    | none =>
      rw [previousSubnets, isCompat] at previous
      split_ifs at previous
      cases previous
    | some subnets =>
      refine ⟨subnets, rfl, fun sn sn6 isSome => ?_⟩
      rw [isSome] at previous
      cases previousSubnets_spec previous with
      | previous _ _ compat => exact printable_of_isConfigCompat checked set compat
      | allocated allocated => exact allocated.printable checked
  obtain ⟨previous, usable, printable⟩ := usable
  rw [chooseSubnets, usable]
  cases previous with
  | some subnets => exact .ret ⟨rfl, subnets.1, subnets.2, rfl, printable _ _ rfl⟩
  | none =>
    apply (allocateSubnet_racing free).weaken
    rintro lost result ⟨kept, sn, sn6, isOk, allocated⟩
    exact ⟨kept, sn, sn6, isOk, allocated.printable checked⟩

theorem newLease_racing (checked : RangeChecked config)
    (set : m.previousIPv6Subnet.empty = false → ∃ ip6, m.previousIPv6Subnet.ip = some ip6)
    (free : HasFree config leases) :
    Safe ((racing root raw config).ensuring AttemptEnds) false (newLease m config attrs leases) := by
  apply (chooseSubnets_racing checked set free).bind_ensuring
  rintro lost result ⟨rfl, sn, sn6, rfl, printable⟩
  apply safe_request_bind (printable.subnetPath root sn)
  rintro answer (⟨exp, rfl⟩ | rfl)
  · exact .ret (.inl ⟨rfl, _, rfl⟩)
  · exact .ret (.inr ⟨rfl, rfl⟩)

theorem tryAcquireLease_racing (checked : RangeChecked config)
    (set : m.previousIPv6Subnet.empty = false → ∃ ip6, m.previousIPv6Subnet.ip = some ip6) :
    Safe ((racing root raw config).ensuring AttemptEnds) false
      (tryAcquireLease m config attrs.publicIP attrs) := by
  unfold tryAcquireLease
  apply safe_request_bind trivial
  rintro answer ⟨leases, index, rfl, free, printable⟩
  dsimp only
  cases found : findLeaseByIP leases attrs.publicIP with
  | none => exact newLease_racing checked set free
  | some l =>
    have ownPrintable : Printable l.ipv6Subnet := by
      rw [findLeaseByIP] at found
      exact printable l (List.mem_of_find?_eq_some found)
    have path := ownPrintable.subnetPath root l.subnet
    obtain ⟨compat, isCompat⟩ := isConfigCompat_isSome checked
      (fun notEmpty => (ownPrintable notEmpty).imp fun _ shape => shape.1) l.subnet
    simp only [isCompat]
    cases compat with
    | true =>
      apply safe_request_bind path
      rintro answer ⟨exp, rfl⟩
      exact .ret (.inl ⟨rfl, _, rfl⟩)
    | false =>
      apply safe_request_bind path
      rintro answer rfl
      exact newLease_racing checked set free

theorem acquireLease_racing (accepted : checkNetworkConfig raw = .ok config)
    (set : m.previousIPv6Subnet.empty = false → ∃ ip6, m.previousIPv6Subnet.ip = some ip6) :
    Safe (racing root raw config) false (acquireLease m attrs) := by
  have checked : RangeChecked config := (checkNetworkConfig_eq_ok accepted).2
  have configured : Safe ((racing root raw config).ensuring fun lost result =>
      lost = false ∧ result = .ok config) false getNetworkConfig := by
    unfold getNetworkConfig
    apply safe_request_bind trivial
    rintro answer rfl
    simp only [accepted]
    exact .ret ⟨rfl, rfl⟩
  apply configured.bind
  rintro lost result ⟨rfl, rfl⟩
  apply (tryAcquireLease_racing checked set).bind
  rintro lost result (⟨rfl, lease, rfl⟩ | ⟨rfl, rfl⟩)
  · exact .ret (by simp [racing])
  · exact .ret (by simp [racing])

end Racing

/-! ## The call among competing nodes -/

structure Moment where
  etcd : EtcdStore
  surroundings : Surroundings

structure Race where
  moment : Nat
  lost : Bool
  deriving DecidableEq

def attend (root : String) (moments : Nat → Moment) (race : Race) :
    (op : Op) → Option (Res op × Race)
  | .randInt lo hi =>
    some (lo + (moments race.moment).surroundings.random % (hi - lo),
      ⟨race.moment + 1, race.lost⟩)
  | .createSubnet sn sn6 attrs _ =>
    (subnetPath root sn sn6).map fun key =>
      ((createSubnet (moments race.moment).etcd key attrs (moments race.moment).surroundings.fate
          (moments race.moment).surroundings.grant).1,
        ⟨race.moment + 1, race.lost || ((moments race.moment).etcd.get? key).isSome⟩)
  | op =>
    (serve root (moments race.moment).etcd (moments race.moment).surroundings op).map fun served =>
      (served.1, ⟨race.moment + 1, race.lost⟩)

structure Undisputed (root : String) (moments : Nat → Moment) (raw config : Config) : Prop where
  configured : ∀ n, (moments n).surroundings.config = .ok raw
  get : ∀ n, (moments n).surroundings.get = .ok ()
  fate : ∀ n, (moments n).surroundings.fate = .done
  free : ∀ n, HasFree config
    (listLeases root (moments n).etcd (moments n).surroundings.timeToLive)

theorem attend_racing {root : String} {moments : Nat → Moment} {raw config : Config}
    (undisputed : Undisputed root moments raw config) (race : Race) (lost : Bool) (op : Op)
    (same : race.lost = lost) (allowed : (racing root raw config).guarantee lost op) :
    ∃ answer next, attend root moments race op = some (answer, next) ∧
      (racing root raw config).rely lost op answer ∧
      next.lost = (racing root raw config).note lost op answer := by
  cases op with
  | getNetworkConfig => exact ⟨_, _, rfl, undisputed.configured race.moment, same⟩
  | getSubnets =>
    refine ⟨_, _, rfl, ⟨listLeases root (moments race.moment).etcd _,
      (moments race.moment).etcd.revision, ?_, undisputed.free race.moment, fun l mem => ?_⟩, same⟩
    · rw [undisputed.get race.moment]
      rfl
    · obtain ⟨row, _, _, _, decoded, _⟩ := exists_row_of_mem_listLeases mem
      exact printable_of_keySubnets decoded
  | createSubnet sn sn6 attrs ttl =>
    obtain ⟨key, path⟩ := allowed
    refine ⟨_, _, by rw [attend, path]; rfl, ?_⟩
    rw [undisputed.fate race.moment, createSubnet_done]
    cases taken : ((moments race.moment).etcd.get? key).isSome with
    | false => exact ⟨.inl ⟨_, rfl⟩, by simp [racing, same]⟩
    | true => exact ⟨.inr rfl, by simp [racing]⟩
  | updateSubnet sn sn6 attrs ttl asof =>
    obtain ⟨key, path⟩ := allowed
    refine ⟨_, ⟨race.moment + 1, race.lost⟩, by simp only [attend, serve, path, Option.map_some]; rfl, ?_,
      same⟩
    rw [undisputed.fate race.moment]
    exact ⟨_, rfl⟩
  | deleteSubnet sn sn6 =>
    obtain ⟨key, path⟩ := allowed
    refine ⟨_, ⟨race.moment + 1, race.lost⟩, by simp only [attend, serve, path, Option.map_some]; rfl, ?_,
      same⟩
    rw [undisputed.fate race.moment]
    rfl
  | randInt lo hi =>
    have nonempty : lo < hi := allowed
    have drawn : lo + (moments race.moment).surroundings.random % (hi - lo) < hi := by
      have := Nat.mod_lt (moments race.moment).surroundings.random (Nat.sub_pos_of_lt nonempty)
      omega
    exact ⟨_, _, rfl, ⟨Nat.le_add_right _ _, drawn⟩, same⟩
  | crash => exact allowed.elim

/-- Where every request succeeds and there is always a free subnet, `AcquireLease`
returns a lease exactly when none of its creates finds its key taken. -/
theorem acquireLease_returns_lease_iff {root : String} {moments : Nat → Moment}
    {raw config : Config} {m : LocalManager} {attrs : LeaseAttrs}
    (accepted : checkNetworkConfig raw = .ok config)
    (set : m.previousIPv6Subnet.empty = false → ∃ ip6, m.previousIPv6Subnet.ip = some ip6)
    (undisputed : Undisputed root moments raw config) :
    ∃ result later,
      interp (attend root moments) ⟨0, false⟩ (acquireLease m attrs) = some (result, later) ∧
      ((∃ lease, result = .ok lease) ↔ later.lost = false) := by
  obtain ⟨result, later, lost, runs, same, post⟩ :=
    (acquireLease_racing accepted set).interp (attend_racing undisputed)
      (show Race.lost ⟨0, false⟩ = false from rfl)
  refine ⟨result, later, runs, ?_⟩
  rw [same]
  exact post

theorem hasFree_of_single {config : Config} {leases : List Lease}
    (single : config.enableIPv6 = false)
    (nonempty : (availableIPs config leases).any (fun ips => !ips.isEmpty)) :
    HasFree config leases := by
  cases found : availableIPs config leases with
  | none =>
    rw [found] at nonempty
    contradiction
  | some ips =>
    refine ⟨ips, [], IP6Net.zero, found, availableIPv6s_of_single single, ?_,
      nofun⟩
    rintro rfl
    rw [found] at nonempty
    contradiction

def takenAt (taken n : Nat) : Moment :=
  ⟨if n = taken then
      Store.empty.put "/coreos.com/network/subnets/10.3.5.0-24"
        ⟨some { LeaseAttrs.zero with publicIP := 2 }, 1⟩
    else Store.empty,
    { Surroundings.calm 0 with config := .ok singleStack }⟩

theorem undisputed_takenAt (taken : Nat) :
    Undisputed "/coreos.com/network" (takenAt taken) singleStack singleStack := by
  refine ⟨fun _ => rfl, fun _ => rfl, fun _ => rfl, fun n => hasFree_of_single rfl ?_⟩
  rw [takenAt]
  split_ifs <;> decide +kernel

theorem acquireLease_returns_lease_untaken :
    ∃ result later,
      interp (attend "/coreos.com/network" (takenAt 3)) ⟨0, false⟩
        (acquireLease ⟨⟨0x0a030500, 24⟩, IP6Net.zero⟩ { LeaseAttrs.zero with publicIP := 1 }) =
          some (result, later) ∧
      later = ⟨3, false⟩ ∧ ∃ lease, result = .ok lease := by
  obtain ⟨result, later, runs, returns⟩ :
      ∃ result later,
        interp (attend "/coreos.com/network" (takenAt 3)) ⟨0, false⟩
          (acquireLease ⟨⟨0x0a030500, 24⟩, IP6Net.zero⟩ { LeaseAttrs.zero with publicIP := 1 }) =
            some (result, later) ∧
        ((∃ lease, result = .ok lease) ↔ later.lost = false) :=
    acquireLease_returns_lease_iff
      (show checkNetworkConfig singleStack = .ok singleStack by decide)
      nofun (undisputed_takenAt 3)
  have ends : (interp (attend "/coreos.com/network" (takenAt 3)) ⟨0, false⟩
      (acquireLease ⟨⟨0x0a030500, 24⟩, IP6Net.zero⟩ { LeaseAttrs.zero with publicIP := 1 })).map
      Prod.snd = some ⟨3, false⟩ := by
    decide +kernel
  rw [runs] at ends
  have later_eq : later = ⟨3, false⟩ := Option.some.inj ends
  exact ⟨result, later, runs, later_eq, returns.mpr (by rw [later_eq])⟩

/-- The key is taken when the first attempt creates it and absent ever after. The
call fails, although the next attempt would have returned a lease. -/
theorem acquireLease_gives_up :
    Undisputed "/coreos.com/network" (takenAt 2) singleStack singleStack ∧
      (interp (attend "/coreos.com/network" (takenAt 2)) ⟨0, false⟩
        (acquireLease ⟨⟨0x0a030500, 24⟩, IP6Net.zero⟩ { LeaseAttrs.zero with publicIP := 1 })) =
          some (.error .subnetAlreadyexists, ⟨3, true⟩) ∧
      ((interp (attend "/coreos.com/network" (takenAt 2)) ⟨3, false⟩
        (tryAcquireLease ⟨⟨0x0a030500, 24⟩, IP6Net.zero⟩ singleStack 1
          { LeaseAttrs.zero with publicIP := 1 })).map fun outcome =>
            (outcome.1.toOption.map Lease.subnet, outcome.2)) =
          some (some ⟨0x0a030500, 24⟩, ⟨5, false⟩) :=
  ⟨undisputed_takenAt 2, by decide +kernel, by decide +kernel⟩

end Flannel.Etcd
