import Flannel.Etcd.Acquire
import Flannel.Etcd.Completeness
import Flannel.Etcd.DualStack
import Flannel.Etcd.Restart
import Flannel.Etcd.Watch
import Flannel.Leases.Mixing

/-!
# Registries with keys of both kinds

While a network moves from IPv4 to a dual stack, its registry holds keys with and without a subnet
of IPv6; the IPv6 address of a lease without one is nil. Whether it is compared depends on the
flags of the other lease or on the configuration, so it may be dereferenced.
-/

namespace Flannel.Etcd

open Ip Leases Net Program Subnet Transition

/-! ## Leases from keys -/

structure Built (l : Lease) : Prop where
  key : ∃ key, keySubnets key = some (l.subnet, l.ipv6Subnet)
  enableIPv4 : l.enableIPv4 = true
  enableIPv6 : l.enableIPv6 = !l.ipv6Subnet.empty

theorem built_of_kvToIPLease {kv : KV} {ttl : Int} {now : Time} {l : Lease}
    (converted : kvToIPLease kv ttl now = some l) : Built l := by
  simp only [kvToIPLease, Option.bind_eq_bind, Option.bind_eq_some_iff, Option.some.injEq,
    Prod.exists] at converted
  obtain ⟨sn, sn6, subnets, attrs, value, rfl⟩ := converted
  exact ⟨⟨kv.key, subnets⟩, rfl, rfl⟩

theorem built_of_parseSubnetWatchResponse {answers : Answers} {ev : EtcdEvent} {event : Event}
    (parsed : parseSubnetWatchResponse answers ev = .ok event) : Built event.lease := by
  rw [parseSubnetWatchResponse] at parsed
  cases subnets : keySubnets ev.kv.key with
  | none => simp [subnets] at parsed
  | some pair =>
    obtain ⟨sn, sn6⟩ := pair
    rw [subnets] at parsed
    dsimp only at parsed
    split at parsed
    · cases parsed
      exact ⟨⟨ev.kv.key, subnets⟩, rfl, rfl⟩
    · split at parsed
      · cases parsed
      · cases parsed
      · cases parsed
        exact ⟨⟨ev.kv.key, subnets⟩, rfl, rfl⟩

theorem Built.printable {l : Lease} (built : Built l) : Printable l.ipv6Subnet := by
  obtain ⟨key, subnets⟩ := built.key
  exact printable_of_keySubnets subnets

theorem Built.isSome {l : Lease} (built : Built l) (enabled : l.enableIPv6) :
    l.ipv6Subnet.ip.isSome := by
  rw [built.enableIPv6, Bool.not_eq_true'] at enabled
  obtain ⟨ip6, isSome, _⟩ := built.printable enabled
  rw [isSome]
  rfl

/-! ## The search for a subnet of IPv6 -/

section Search

variable {lowest highest len : Nat} {leases before : List Lease} {l : Lease}

def Met (lowest highest len : Nat) (leases : List Lease) : Prop :=
  ∃ before l after, leases = before ++ l :: after ∧ (∀ b ∈ before, b.ipv6Subnet.ip.isSome) ∧
    l.ipv6Subnet.ip = none ∧ ∃ k, lowest + k * 2 ^ (128 - len) ≤ highest ∧
      ∀ b ∈ before, IP6Net.overlaps ⟨some (lowest + k * 2 ^ (128 - len)), len⟩ b.ipv6Subnet = some false

theorem overlapsAny_append_cons (isSet : ∀ b ∈ before, b.ipv6Subnet.ip.isSome)
    (isNil : l.ipv6Subnet.ip = none) (after : List Lease) (ip6 : Nat) :
    overlapsAny ⟨some ip6, len⟩ (before ++ l :: after) =
      if (ipv6Loop highest len before).keep ip6 then none else some true := by
  induction before with
  | nil => simp [overlapsAny, IP6Net.overlaps, isNil, ipv6Loop]
  | cons b before ih =>
    have later := ih fun other mem => isSet other (.tail b mem)
    obtain ⟨address, isAddress⟩ := Option.isSome_iff_exists.mp (isSet b (.head _))
    obtain ⟨overlap, isOverlap⟩ : ∃ overlap,
        IP6Net.overlaps ⟨some ip6, len⟩ b.ipv6Subnet = some overlap := by
      rw [IP6Net.overlaps, isAddress]
      exact ⟨_, rfl⟩
    rw [List.cons_append, overlapsAny, isOverlap]
    cases overlap with
    | true => simp [ipv6Loop, isOverlap]
    | false =>
      dsimp only
      rw [later]
      simp [ipv6Loop, isOverlap]

theorem scanIPv6_succ_of_nil (valid : len ≤ 128) (isSet : ∀ b ∈ before, b.ipv6Subnet.ip.isSome)
    (isNil : l.ipv6Subnet.ip = none) (after : List Lease) (rounds : Nat) {ip6 : Nat} (le : ip6 ≤ highest) :
    scanIPv6 (some highest) (before ++ l :: after) (rounds + 1) ⟨some ip6, len⟩ [] =
      if (ipv6Loop highest len before).keep ip6 then none
      else scanIPv6 (some highest) (before ++ l :: after) rounds ⟨some (ip6 + 2 ^ (128 - len)), len⟩ [] := by
  have moved : IP6Net.next ⟨some ip6, len⟩ = some ⟨some (ip6 + 2 ^ (128 - len)), len⟩ := by
    rw [IP6Net.next, if_pos valid]
    rfl
  have compared : IP6.cmp (some ip6) (some highest) = some (compare ip6 highest) := rfl
  rw [scanIPv6, compared, if_pos (by decide), moved,
    @overlapsAny_append_cons highest len before l isSet isNil after ip6]
  cases order : compare ip6 highest with
  | gt => exact absurd (Nat.compare_eq_gt.mp order) (Nat.not_lt.mpr le)
  | lt => cases (ipv6Loop highest len before).keep ip6 <;> rfl
  | eq => cases (ipv6Loop highest len before).keep ip6 <;> rfl

theorem scanIPv6_eq_none_iff (valid : len ≤ 128) (isSet : ∀ b ∈ before, b.ipv6Subnet.ip.isSome)
    (isNil : l.ipv6Subnet.ip = none) (after : List Lease) {rounds ip6 : Nat}
    (enough : highest < ip6 + rounds) :
    scanIPv6 (some highest) (before ++ l :: after) (rounds + 1) ⟨some ip6, len⟩ [] = none ↔
      ∃ k, ip6 + k * 2 ^ (128 - len) ≤ highest ∧
        (ipv6Loop highest len before).keep (ip6 + k * 2 ^ (128 - len)) := by
  have ended : ∀ rounds ip6, ¬ ip6 ≤ highest →
      (scanIPv6 (some highest) (before ++ l :: after) (rounds + 1) ⟨some ip6, len⟩ [] = none ↔
        ∃ k, ip6 + k * 2 ^ (128 - len) ≤ highest ∧
          (ipv6Loop highest len before).keep (ip6 + k * 2 ^ (128 - len))) := by
    intro rounds ip6 above
    rw [scanIPv6_succ_of_ends fun goesOn => above goesOn.1]
    refine iff_of_false (by simp) ?_
    rintro ⟨k, inside, _⟩
    exact above ((Nat.le_add_right _ _).trans inside)
  induction rounds generalizing ip6 with
  | zero => exact ended 0 ip6 (by omega)
  | succ rounds ih =>
    by_cases le : ip6 ≤ highest
    · rw [scanIPv6_succ_of_nil valid isSet isNil after (rounds + 1) le]
      by_cases kept : (ipv6Loop highest len before).keep ip6
      · rw [if_pos kept]
        exact iff_of_true rfl ⟨0, by simpa using le, by simpa using kept⟩
      · have size : 0 < 2 ^ (128 - len) := Nat.two_pow_pos _
        have shift : ∀ k, ip6 + 2 ^ (128 - len) + k * 2 ^ (128 - len) =
            ip6 + (k + 1) * 2 ^ (128 - len) := by
          intro k
          rw [Nat.succ_mul, Nat.add_assoc, Nat.add_comm (2 ^ _)]
        have later := @ih (ip6 + 2 ^ (128 - len)) (by omega)
        simp only [shift] at later
        rw [if_neg kept]
        refine later.trans ?_
        constructor
        · exact fun ⟨k, later⟩ => ⟨k + 1, later⟩
        · rintro ⟨_ | k, inside, isKept⟩
          · exact absurd (by simpa using isKept) kept
          · exact ⟨k, inside, isKept⟩
    · exact ended (rounds + 1) ip6 le

theorem exists_first_nil (notAll : ¬ ∀ l ∈ leases, l.ipv6Subnet.ip.isSome) :
    ∃ before l after, leases = before ++ l :: after ∧ (∀ b ∈ before, b.ipv6Subnet.ip.isSome) ∧
      l.ipv6Subnet.ip = none := by
  induction leases with
  | nil => exact absurd (by simp) notAll
  | cons l leases ih =>
    cases isNil : l.ipv6Subnet.ip with
    | none => exact ⟨[], l, leases, rfl, by simp, isNil⟩
    | some ip6 =>
      have rest : ¬ ∀ other ∈ leases, other.ipv6Subnet.ip.isSome := fun all =>
        notAll (List.forall_mem_cons.mpr ⟨by simp [isNil], all⟩)
      obtain ⟨before, first, after, rfl, isSet, firstNil⟩ := ih rest
      exact ⟨l :: before, first, after, rfl,
        List.forall_mem_cons.mpr ⟨by simp [isNil], isSet⟩, firstNil⟩

theorem availableIPv6s_eq_none_iff {config : Config} (enabled : config.enableIPv6)
    (checked : IPv6Checked config) :
    availableIPv6s config leases = none ↔
      ∃ lowest highest, config.ipv6SubnetMin = some lowest ∧ config.ipv6SubnetMax = some highest ∧
        Met lowest highest config.ipv6SubnetLen leases := by
  obtain ⟨lengths, ⟨lowest, isLowest, _⟩, highest, isHighest, _⟩ := checked
  have notEmpty : IP6Net.empty ⟨some lowest, config.ipv6SubnetLen⟩ = false := by
    have positive : config.ipv6SubnetLen ≠ 0 := by omega
    simp [IP6Net.empty, positive]
  have searched : availableIPv6s config leases =
      scanIPv6 (some highest) leases (highest + 2) ⟨some lowest, config.ipv6SubnetLen⟩ [] := by
    rw [availableIPv6s, enabled, if_pos rfl, isLowest, isHighest, notEmpty]
    rfl
  have panics : ∀ before l after, (∀ b ∈ before, b.ipv6Subnet.ip.isSome) → l.ipv6Subnet.ip = none →
      leases = before ++ l :: after → (availableIPv6s config leases = none ↔
        ∃ k, lowest + k * 2 ^ (128 - config.ipv6SubnetLen) ≤ highest ∧
          ∀ b ∈ before, IP6Net.overlaps ⟨some (lowest + k * 2 ^ (128 - config.ipv6SubnetLen)),
            config.ipv6SubnetLen⟩ b.ipv6Subnet = some false) := by
    rintro before l after isSet isNil rfl
    rw [searched, scanIPv6_eq_none_iff (by omega) isSet isNil after (by omega)]
    simp only [keep_ipv6Loop_iff]
  constructor
  · intro crashed
    by_cases all : ∀ l ∈ leases, l.ipv6Subnet.ip.isSome
    · obtain ⟨m, sn6, _, _, found⟩ := availableIPv6s_eq_kept enabled (by omega) isLowest isHighest all
      cases crashed.symm.trans found
    · obtain ⟨before, l, after, split, isSet, isNil⟩ := exists_first_nil all
      exact ⟨lowest, highest, isLowest, isHighest, before, l, after, split, isSet, isNil,
        (panics before l after isSet isNil split).mp crashed⟩
  · rintro ⟨lowest', highest', isLowest', isHighest', before, l, after, split, isSet, isNil, met⟩
    cases isLowest.symm.trans isLowest'
    cases isHighest.symm.trans isHighest'
    exact (panics before l after isSet isNil split).mpr met

end Search

/-! ## The acquisition -/

/-- An acquisition panics only where the IPv4 loop never ends, and a subnet of IPv6 whose key is
made is empty or has an address. -/
def sheltered (config : Config) (leases : List Lease) : Contract Op Res Unit (Except Error Lease) where
  note _ _ _ := ()
  rely _ op answer :=
    match op, answer with
    | .getSubnets, answer => ∀ listed index, answer = .ok (listed, index) → listed = leases
    | .randInt lo hi, answer => lo ≤ answer ∧ answer < hi
    | _, _ => True
  guarantee _
    | .createSubnet _ sn6 _ _ => sn6.empty = false → sn6.ip.isSome = true
    | .updateSubnet _ sn6 _ _ _ => sn6.empty = false → sn6.ip.isSome = true
    | .deleteSubnet _ sn6 => sn6.empty = false → sn6.ip.isSome = true
    | .crash => ¬ ∃ k, Meets config.subnetMax leases (IP4Net.next^[k] ⟨config.subnetMin, config.subnetLen⟩)
    | _ => True
  post _ _ := True

def Renounces (m : LocalManager) (config : Config) (leases : List Lease) : Prop :=
  m.previousSubnet.empty = true ∨ (findLeaseBySubnet leases m.previousSubnet).isSome = true ∨
    isConfigCompat config m.previousSubnet m.previousIPv6Subnet ≠ some true

structure Allocates (m : LocalManager) (config : Config) (extIaddr : IP4) (leases : List Lease) : Prop where
  own : ∀ l, findLeaseByIP leases extIaddr = some l →
    isConfigCompat config l.subnet l.ipv6Subnet ≠ some true
  previous : Renounces m config leases

/-- In a dual stack the IPv4 loop ends, and the IPv6 loop meets a lease without an address. -/
structure Exposed (config : Config) (leases : List Lease) : Prop where
  dual : config.enableIPv6 = true
  ends : ∃ k, Meets config.subnetMax leases (IP4Net.next^[k] ⟨config.subnetMin, config.subnetLen⟩)
  met : ∃ lowest highest, config.ipv6SubnetMin = some lowest ∧ config.ipv6SubnetMax = some highest ∧
    Met lowest highest config.ipv6SubnetLen leases

section Acquisition

variable {m : LocalManager} {config : Config} {leases : List Lease} {attrs : LeaseAttrs}

theorem draws_sheltered {β : Type} {post : Unit → β → Prop} :
    Draws ((sheltered config leases).ensuring post) :=
  ⟨fun _ _ _ _ => trivial, fun _ _ _ _ rely => rely.2, fun _ _ _ _ => rfl⟩

theorem isSome_of_printable {sn6 : IP6Net} (printable : Printable sn6) (notEmpty : sn6.empty = false) :
    sn6.ip.isSome := by
  obtain ⟨ip6, isSome, _⟩ := printable notEmpty
  rw [isSome]
  rfl

theorem safe_crash_iff {rest : Res .crash → Action (Except Error Lease)} :
    Safe (sheltered config leases) () (.call .crash rest) ↔
      ¬ ∃ k, Meets config.subnetMax leases (IP4Net.next^[k] ⟨config.subnetMin, config.subnetLen⟩) := by
  constructor
  · intro safe
    exact (safe_call_iff.mp safe).1
  · intro endless
    exact safe_call_iff.mpr ⟨endless, fun answer => nomatch answer⟩

theorem safe_createLease {sn : IP4Net} {sn6 : IP6Net} (printable : Printable sn6) :
    Safe (sheltered config leases) () (createLease attrs (.ok (sn, sn6))) := by
  refine .call (isSome_of_printable printable) fun answer _ => ?_
  cases answer <;> exact .ret trivial

theorem safe_allocate_iff (checked : RangeChecked config) :
    Safe (sheltered config leases) () (allocateSubnet config leases >>= createLease attrs) ↔
      ¬ Exposed config leases := by
  have ends : (availableIPs config leases).isSome ↔
      ∃ k, Meets config.subnetMax leases (IP4Net.next^[k] ⟨config.subnetMin, config.subnetLen⟩) :=
    isSome_scanIPv4_rounds_iff
  unfold allocateSubnet
  cases found : availableIPs config leases with
  | none =>
    have endless : ¬ ∃ k, Meets config.subnetMax leases
        (IP4Net.next^[k] ⟨config.subnetMin, config.subnetLen⟩) := by
      rw [← ends, found]
      exact Bool.false_ne_true
    exact iff_of_true (safe_crash_iff.mpr endless) fun exposed => endless exposed.ends
  | some ips =>
    have isEnd : (availableIPs config leases).isSome := by rw [found]; rfl
    cases found6 : availableIPv6s config leases with
    | none =>
      have enabled : config.enableIPv6 := by
        by_contra single
        cases found6.symm.trans (availableIPv6s_of_single (Bool.not_eq_true _ ▸ single))
      have met := (availableIPv6s_eq_none_iff enabled (checked enabled)).mp found6
      refine iff_of_false (fun safe => ?_) fun unexposed => unexposed ⟨enabled, ends.mp isEnd, met⟩
      exact safe_crash_iff.mp safe (ends.mp isEnd)
    | some result =>
      obtain ⟨ip6s, sn6⟩ := result
      refine iff_of_true ?_ ?_
      · have picks : Safe ((sheltered config leases).ensuring fun _ result =>
            ∀ sn sn6, result = .ok (sn, sn6) → Printable sn6) ()
            (pickSubnets config ips ip6s sn6) := by
          refine draws_sheltered.pickSubnets_safe found found6 nofun ?_
          rintro sn sn6 allocated _ _ ⟨rfl⟩
          exact allocated.printable checked
        refine picks.bind fun _ result printable => ?_
        cases result with
        | error error => exact .ret trivial
        | ok subnets => exact safe_createLease (printable subnets.1 subnets.2 rfl)
      · rintro ⟨enabled, _, met⟩
        cases found6.symm.trans ((availableIPv6s_eq_none_iff enabled (checked enabled)).mpr met)

theorem previousSubnets_eq (checked : RangeChecked config)
    (set : m.previousIPv6Subnet.empty = false → ∃ ip6, m.previousIPv6Subnet.ip = some ip6) :
    (Renounces m config leases ∧ previousSubnets m config leases = some none) ∨
      (¬ Renounces m config leases ∧ Printable m.previousIPv6Subnet ∧
        previousSubnets m config leases = some (some (m.previousSubnet, m.previousIPv6Subnet))) := by
  obtain ⟨compat, isCompat⟩ := isConfigCompat_isSome checked set m.previousSubnet
  rw [previousSubnets, Renounces, isCompat]
  by_cases isEmpty : m.previousSubnet.empty
  · exact .inl ⟨.inl isEmpty, if_pos isEmpty⟩
  · rw [if_neg isEmpty]
    by_cases taken : (findLeaseBySubnet leases m.previousSubnet).isSome
    · exact .inl ⟨.inr (.inl taken), if_pos taken⟩
    · rw [if_neg taken]
      cases compat with
      | false => exact .inl ⟨.inr (.inr (by simp)), rfl⟩
      | true =>
        refine .inr ⟨?_, printable_of_isConfigCompat checked set isCompat, rfl⟩
        rintro (isEmpty' | taken' | notCompat)
        · exact isEmpty isEmpty'
        · exact taken taken'
        · exact notCompat rfl

theorem safe_newLease_iff (checked : RangeChecked config)
    (set : m.previousIPv6Subnet.empty = false → ∃ ip6, m.previousIPv6Subnet.ip = some ip6) :
    Safe (sheltered config leases) () (newLease m config attrs leases) ↔
      ¬ (Renounces m config leases ∧ Exposed config leases) := by
  rw [newLease, chooseSubnets]
  rcases @previousSubnets_eq m config leases checked set with
    ⟨renounces, previous⟩ | ⟨kept, printable, previous⟩
  · rw [previous]
    have allocation := @safe_allocate_iff config leases attrs checked
    exact allocation.trans ⟨fun unexposed exposed => unexposed exposed.2,
      fun notBoth exposed => notBoth ⟨renounces, exposed⟩⟩
  · rw [previous]
    exact iff_of_true (safe_createLease printable) fun both => kept both.1

theorem safe_getSubnets_iff {next : Res .getSubnets → Action (Except Error Lease)}
    (failed : ∀ error, Safe (sheltered config leases) () (next (.error error)))
    (same : ∀ index, next (.ok (leases, index)) = next (.ok (leases, 0))) :
    Safe (sheltered config leases) () (request .getSubnets >>= next) ↔
      Safe (sheltered config leases) () (next (.ok (leases, 0))) := by
  constructor
  · intro safe
    refine (safe_call_iff.mp safe).2 (.ok (leases, 0)) ?_
    rintro listed index ⟨rfl⟩
    rfl
  · intro safe
    refine .call trivial fun answer rely => ?_
    cases answer with
    | error error => exact failed error
    | ok pair =>
      obtain ⟨listed, index⟩ := pair
      have isListed : listed = leases := rely listed index rfl
      rw [isListed]
      change Safe (sheltered config leases) () (next (.ok (leases, index)))
      rw [same]
      exact safe

theorem safe_tryAcquireLease_iff (checked : RangeChecked config)
    (set : m.previousIPv6Subnet.empty = false → ∃ ip6, m.previousIPv6Subnet.ip = some ip6)
    (built : ∀ l ∈ leases, Built l) :
    Safe (sheltered config leases) () (tryAcquireLease m config attrs.publicIP attrs) ↔
      ¬ (Allocates m config attrs.publicIP leases ∧ Exposed config leases) := by
  have news := @safe_newLease_iff m config leases attrs checked set
  unfold tryAcquireLease
  rw [safe_getSubnets_iff (fun _ => .ret trivial) fun _ => rfl]
  dsimp only
  cases found : findLeaseByIP leases attrs.publicIP with
  | none =>
    refine news.trans (not_congr (and_congr_left' ⟨fun renounces => ⟨?_, renounces⟩, fun all => all.previous⟩))
    intro l isFound
    cases found.symm.trans isFound
  | some l =>
    have mem : l ∈ leases := by
      rw [findLeaseByIP] at found
      exact List.mem_of_find?_eq_some found
    have printable := (built l mem).printable
    obtain ⟨compat, isCompat⟩ := isConfigCompat_isSome checked
      (fun notEmpty => (printable notEmpty).imp fun _ shape => shape.1) l.subnet
    dsimp only
    rw [isCompat]
    cases compat with
    | true =>
      refine iff_of_true ?_ fun both => both.1.own l found isCompat
      refine .call (isSome_of_printable printable) fun answer _ => ?_
      cases answer <;> exact .ret trivial
    | false =>
      have own : ∀ other, findLeaseByIP leases attrs.publicIP = some other →
          isConfigCompat config other.subnet other.ipv6Subnet ≠ some true := by
        intro other isFound
        cases found.symm.trans isFound
        rw [isCompat]
        simp
      refine Iff.trans ⟨fun safe => ?_, fun safe => ?_⟩ (news.trans (not_congr (and_congr_left'
        ⟨fun renounces => ⟨own, renounces⟩, fun all => all.previous⟩)))
      · exact (safe_call_iff.mp safe).2 (.ok ()) trivial
      · refine .call (isSome_of_printable printable) fun answer _ => ?_
        cases answer with
        | error error => exact .ret trivial
        | ok _ => exact safe

end Acquisition

/-! ## Both together -/

theorem isSome_of_newSubnetManager {read : EnvReader} {subnetFile : Option String} {m : LocalManager}
    (started : newSubnetManager read subnetFile = some m) : ∃ ip6, m.previousIPv6Subnet.ip = some ip6 := by
  obtain ⟨prevSubnet, _, rfl⟩ := Option.map_eq_some_iff.mp started
  change ∃ ip6, (readIP6CIDRFromSubnetFile read subnetFile "FLANNEL_IPV6_SUBNET").ip = some ip6
  rw [readIP6CIDRFromSubnetFile, readIP6CIDRsFromSubnetFile]
  cases readNetworks read subnetFile "FLANNEL_IPV6_SUBNET" with
  | nil => exact ⟨0, rfl⟩
  | cons n networks =>
    cases networks with
    | nil => exact ⟨_, rfl⟩
    | cons other networks => exact ⟨0, rfl⟩

theorem Built.formed {l : Lease} (built : Built l) : Formed l :=
  ⟨built.enableIPv4, built.isSome⟩

/-- For every accepted configuration, own lease and list of leases from keys: neither the acquisition nor any
sequence of calls of the watcher dereferences a nil address of IPv6, exactly if the acquisition does not
search or is not exposed, and the leases are not mixed. -/
theorem nilSafe_iff {raw config : Config} (accepted : checkNetworkConfig raw = .ok config)
    {read : EnvReader} {subnetFile : Option String} {m : LocalManager}
    (started : newSubnetManager read subnetFile = some m) {leases : List Lease}
    (built : ∀ l ∈ leases, Built l) (attrs : LeaseAttrs) (ownLease : Lease) :
    (Safe (sheltered config leases) () (tryAcquireLease m config attrs.publicIP attrs) ∧
      ∀ calls : List Call, (∀ call ∈ calls, call.leases ⊆ leases) →
        (run View.step (View.initial ownLease) calls).isSome = true) ↔
    ¬ (Allocates m config attrs.publicIP leases ∧ Exposed config leases) ∧ Unmixed ownLease leases := by
  have checked : RangeChecked config := (checkNetworkConfig_eq_ok accepted).2
  have set : m.previousIPv6Subnet.empty = false → ∃ ip6, m.previousIPv6Subnet.ip = some ip6 := fun _ =>
    isSome_of_newSubnetManager started
  exact and_congr (safe_tryAcquireLease_iff checked set built)
    (run_isSome_iff_unmixed fun l mem => (built l mem).formed)


def singleLease (ip : IP4) : Lease :=
  ⟨true, false, ⟨ip, 24⟩, IP6Net.zero, { LeaseAttrs.zero with publicIP := 2 }, 1, 0⟩

def dualLease (ip : IP4) : Lease :=
  ⟨true, true, ⟨ip, 24⟩, ⟨some (0xfc00 * 2 ^ 112 + 5 * 2 ^ 64), 64⟩, { LeaseAttrs.zero with publicIP := 2 }, 1, 0⟩

theorem built_singleLease : Built (singleLease 0x0a030500#32) :=
  ⟨⟨"/coreos.com/network/subnets/10.3.5.0-24", by decide⟩, rfl, rfl⟩

theorem nilSafe_of_other_subnets :
    Safe (sheltered singleStack [singleLease 0x0a030500#32, dualLease 0x0a030600#32]) ()
        (tryAcquireLease ⟨⟨0, 0⟩, ⟨some 0, 0⟩⟩ singleStack 1 { LeaseAttrs.zero with publicIP := 1 }) ∧
      ∀ calls : List Call,
        (∀ call ∈ calls, call.leases ⊆ [singleLease 0x0a030500#32, dualLease 0x0a030600#32]) →
          (run View.step (View.initial (singleLease 0x0a030700#32)) calls).isSome := by
  have accepted : checkNetworkConfig singleStack = .ok singleStack := by decide
  have started : newSubnetManager (fun _ => .error "no file") none = some ⟨⟨0, 0⟩, ⟨some 0, 0⟩⟩ := rfl
  have builtDual : Built (dualLease 0x0a030600#32) :=
    ⟨⟨"/coreos.com/network/subnets/10.3.6.0-24&fc00:0:0:5::-64", by decide⟩, rfl, rfl⟩
  have built : ∀ l ∈ [singleLease 0x0a030500#32, dualLease 0x0a030600#32], Built l := by
    simp [built_singleLease, builtDual]
  exact (nilSafe_iff accepted started built { LeaseAttrs.zero with publicIP := 1 }
    (singleLease 0x0a030700#32)).mpr
      ⟨fun both => Bool.false_ne_true both.2.dual, ⟨by decide, by decide⟩⟩

/-- A node with a dual stack next to two leases of one subnet of IPv4, one of each kind. -/
theorem not_nilSafe_of_migration :
    checkNetworkConfig dualStack = .ok dualStack ∧
      newSubnetManager (fun _ => .error "no file") none = some ⟨⟨0, 0⟩, ⟨some 0, 0⟩⟩ ∧
      (∀ l ∈ [singleLease 0x0a030500#32, dualLease 0x0a030500#32], Built l) ∧
      ¬ Safe (sheltered dualStack [singleLease 0x0a030500#32, dualLease 0x0a030500#32]) ()
        (tryAcquireLease ⟨⟨0, 0⟩, ⟨some 0, 0⟩⟩ dualStack 1 { LeaseAttrs.zero with publicIP := 1 }) ∧
      ¬ ∀ calls : List Call,
        (∀ call ∈ calls, call.leases ⊆ [singleLease 0x0a030500#32, dualLease 0x0a030500#32]) →
          (run View.step (View.initial (dualLease 0x0a030700#32)) calls).isSome := by
  have accepted : checkNetworkConfig dualStack = .ok dualStack := by decide
  have builtDual : Built (dualLease 0x0a030500#32) :=
    ⟨⟨"/coreos.com/network/subnets/10.3.5.0-24&fc00:0:0:5::-64", by decide⟩, rfl, rfl⟩
  have built : ∀ l ∈ [singleLease 0x0a030500#32, dualLease 0x0a030500#32], Built l := by
    simp [built_singleLease, builtDual]
  have allocates : Allocates ⟨⟨0, 0⟩, ⟨some 0, 0⟩⟩ dualStack 1
      [singleLease 0x0a030500#32, dualLease 0x0a030500#32] :=
    ⟨nofun, .inl rfl⟩
  have exposed : Exposed dualStack [singleLease 0x0a030500#32, dualLease 0x0a030500#32] :=
    ⟨rfl, ⟨0, .inr (by decide)⟩, _, _, rfl, rfl, [], _, _, rfl, by simp, rfl, 0, by decide, by simp⟩
  refine ⟨accepted, rfl, built, ?_, ?_⟩
  · intro safe
    exact (@safe_tryAcquireLease_iff ⟨⟨0, 0⟩, ⟨some 0, 0⟩⟩ dualStack _
      { LeaseAttrs.zero with publicIP := 1 } (checkNetworkConfig_eq_ok accepted).2
      (fun _ => ⟨0, rfl⟩) built).mp safe ⟨allocates, exposed⟩
  · intro returns
    have unmixed := (run_isSome_iff_unmixed fun l mem => (built l mem).formed).mp returns
    exact absurd (unmixed.others (dualLease 0x0a030500#32) (by simp) (singleLease 0x0a030500#32) (by simp) rfl
      rfl rfl) (by decide)

end Flannel.Etcd
