import Flannel.Vxlan.Tables

/-!
# The vxlan device going away

Leases come and go in batches, a third party deletes a device at any time, and every deletion of
the IPv4 device that is noticed leads to a call of `reCreateVxlan`, which creates the missing
devices. It does not look at the leases, so a device created anew stays empty until leases are
announced again.
-/

namespace Flannel.Vxlan

open Backend Leases Net Table Transition

structure Setup where
  ipv4 : Bool
  ipv6 : Bool
  directRouting : Bool
  further : Nat
  direct : Net.IP → Option Bool

def Setup.enabled (setup : Setup) : Family → Bool
  | .ipv4 => setup.ipv4
  | .ipv6 => setup.ipv6

/-- The node: the watcher of the leases, the network, the link that has the name of
the device of each family, the entries of the links, whether `vxlanMissingChan`
holds a signal, and the calls of `reCreateVxlan` that are running. -/
structure Host where
  watcher : LeaseWatcher
  nw : Network
  links : Family → Option Nat
  kernel : Kernel
  nextIndex : Nat
  missing : Bool
  recreating : Nat

def Network.setDevice (nw : Network) (f : Family) (dev : Option VxlanDevice) : Network :=
  match f with
  | .ipv4 => { nw with dev := dev }
  | .ipv6 => { nw with v6Dev := dev }

/-- `newVXLANDevice` for one family, and its result stored: `ensureLink` returns the
link that exists and creates it otherwise. -/
def newVXLANDevice (setup : Setup) (f : Family) (host : Host) : Host :=
  if setup.enabled f then
    match host.links f with
    | some index =>
      { host with nw := host.nw.setDevice f (some ⟨index, setup.directRouting⟩) }
    | none =>
      { host with
        nw := host.nw.setDevice f (some ⟨host.nextIndex, setup.directRouting⟩)
        links := Function.update host.links f (some host.nextIndex)
        kernel := Function.update host.kernel host.nextIndex (some Tables.empty)
        nextIndex := host.nextIndex + 1 }
  else { host with nw := host.nw.setDevice f none }

def createVXLANDevice (setup : Setup) (host : Host) : Host :=
  newVXLANDevice setup .ipv6 (newVXLANDevice setup .ipv4 host)

def Host.registered (setup : Setup) (ownLease : Lease) (nextIndex : Nat) : Host :=
  createVXLANDevice setup
    ⟨⟨ownLease, []⟩, ⟨none, none⟩, fun _ => none, fun _ => none, nextIndex, false, 0⟩

inductive Label
  | batch (events : List Event)
  | deleted (f : Family)
  | signalled
  | recreated

/-- A batch is handled, a device is deleted (which is signalled for IPv4), the `Run` loop takes
the signal and starts `reCreateVxlan`, or a call of it completes. -/
def Host.step (setup : Setup) : Step Host Label
  | host, .batch events =>
    (Follower.step (handle setup.direct setup.further host.nw) ⟨host.watcher, host.kernel⟩
      events).map fun after => { host with watcher := after.watcher, kernel := after.state }
  | host, .deleted f =>
    (host.links f).map fun index =>
      { host with
        links := Function.update host.links f none
        kernel := Function.update host.kernel index none
        missing := host.missing || f == .ipv4 }
  | host, .signalled =>
    if host.missing then some { host with missing := false, recreating := host.recreating + 1 }
    else none
  | host, .recreated =>
    if 0 < host.recreating then
      some (createVXLANDevice setup { host with recreating := host.recreating - 1 })
    else none

def Host.Quiescent (host : Host) : Prop :=
  host.missing = false ∧ host.recreating = 0

instance (host : Host) : Decidable host.Quiescent :=
  inferInstanceAs (Decidable (_ ∧ _))

structure Tables.Has (tables : Tables) (entry : Entry) : Prop where
  neigh : tables.neigh entry.address = some entry.mac
  fdb : tables.fdb entry.mac = some entry.publicIP
  route : tables.route entry.network = some entry.address

def IsVxlan (lease : Lease) : Prop :=
  lease.attrs.backendType = "vxlan"

instance (lease : Lease) : Decidable (IsVxlan lease) :=
  inferInstanceAs (Decidable (_ = _))

/-- Every vxlan lease has its entries on each device that exists. -/
def Installed (links : Family → Option Nat) (leases : List Lease) (kernel : Kernel) : Prop :=
  ∀ f index, links f = some index → ∀ l ∈ leases, IsVxlan l → f.enabled l = true →
    ∃ tables entry, kernel index = some tables ∧ entryOf f l = some entry ∧ tables.Has entry

/-! ## The conditions -/

def Setup.Valid (setup : Setup) (lease : Lease) : Prop :=
  IsVxlan lease ∧ ∀ f : Family, f.enabled lease = true →
    (entryOf f lease).any (fun entry =>
      !setup.directRouting || setup.direct entry.publicIP != some true) = true

instance (setup : Setup) (lease : Lease) : Decidable (setup.Valid lease) :=
  inferInstanceAs (Decidable (_ ∧ _))

def clear (f : Family) (first second : Lease) : Bool :=
  match entryOf f first, entryOf f second with
  | some one, some two =>
    one.address != two.address && one.mac != two.mac && one.network != two.network
  | _, _ => true

variable {κ : Type} [DecidableEq κ]

/-- The lease uses no key of the tables together with a vxlan lease of another subnet. -/
def Apart (key : Lease → κ) (leases : List Lease) (lease : Lease) : Prop :=
  ∀ old ∈ leases, IsVxlan old → key old ≠ key lease → ∀ f, clear f old lease = true

instance (key : Lease → κ) (leases : List Lease) (lease : Lease) :
    Decidable (Apart key leases lease) :=
  inferInstanceAs (Decidable (∀ old ∈ leases, _))

/-- An announced vxlan lease can be installed beside the leases present; so can a withdrawn one,
unless it is of another backend or its stored lease is withdrawn. -/
def Fit (setup : Setup) (key : Lease → κ) (leases : List Lease) : Event → Prop
  | ⟨.added, lease⟩ => ¬ IsVxlan lease ∨ (setup.Valid lease ∧ Apart key leases lease)
  | ⟨.removed, lease⟩ =>
    key lease ∈ leases.map key ∨ ¬ IsVxlan lease ∨ (setup.Valid lease ∧ Apart key leases lease)

instance (setup : Setup) (key : Lease → κ) (leases : List Lease) :
    ∀ e, Decidable (Fit setup key leases e)
  | ⟨.added, _⟩ => inferInstanceAs (Decidable (_ ∨ _))
  | ⟨.removed, _⟩ => inferInstanceAs (Decidable (_ ∨ _ ∨ _))

theorem Tables.has_install (tables : Tables) (entry : Entry) : (tables.install entry).Has entry :=
  ⟨Function.update_self _ _ _, Function.update_self _ _ _, Function.update_self _ _ _⟩

theorem Tables.Has.change {tables : Tables} {f : Family} {first second : Lease} {one two : Entry}
    (has : tables.Has one) (isOne : entryOf f first = some one) (isTwo : entryOf f second = some two)
    (apart : clear f first second) (type : EventType) :
    (Vxlan.change type two tables).Has one := by
  simp only [clear, isOne, isTwo, Bool.and_eq_true, bne_iff_ne] at apart
  obtain ⟨⟨address, mac⟩, network⟩ := apart
  cases type
  all_goals
    exact ⟨(Function.update_of_ne address _ _).trans has.neigh,
      (Function.update_of_ne mac _ _).trans has.fdb,
      (Function.update_of_ne network _ _).trans has.route⟩

theorem clear_symm (f : Family) (first second : Lease) : clear f first second = clear f second first := by
  unfold clear
  cases entryOf f first <;> cases entryOf f second <;> simp [bne_comm]

/-! ## One event -/

structure Wiring (setup : Setup) (nw : Network) (links : Family → Option Nat) (nextIndex : Nat) :
    Prop where
  stored : ∀ f index, links f = some index → (nw.device f).map VxlanDevice.linkIndex = some index
  below : ∀ f dev, nw.device f = some dev → dev.linkIndex < nextIndex
  linked : ∀ f index, links f = some index → setup.enabled f = true
  separate : ∀ f g dev other, f ≠ g → nw.device f = some dev → nw.device g = some other →
    dev.linkIndex ≠ other.linkIndex

structure Wired (setup : Setup) (nw : Network) (links : Family → Option Nat) (nextIndex : Nat) : Prop
    extends Wiring setup nw links nextIndex where
  device : ∀ f, setup.enabled f = true → ∃ index, nw.device f = some ⟨index, setup.directRouting⟩

structure Covered (setup : Setup) (key : Lease → κ) (links : Family → Option Nat)
    (leases : List Lease) (kernel : Kernel) : Prop where
  alive : ∀ f index, links f = some index → ∃ tables, kernel index = some tables
  valid : ∀ l ∈ leases, IsVxlan l → setup.Valid l
  apart : ∀ l ∈ leases, IsVxlan l → Apart key leases l
  installed : Installed links leases kernel

section Event

variable {setup : Setup} {nw : Network} {links : Family → Option Nat} {nextIndex : Nat}
  {key : Lease → κ} {leases : List Lease} {kernel : Kernel} {lease : Lease}

theorem enabled_of_families (families : OfFamilies setup.ipv4 setup.ipv6 lease) (f : Family) :
    f.enabled lease = setup.enabled f := by
  cases f with
  | ipv4 => exact families.enableIPv4
  | ipv6 => exact families.enableIPv6

variable {f : Family}

theorem entry_of_valid (valid : setup.Valid lease) (enabled : f.enabled lease) :
    ∃ entry, entryOf f lease = some entry ∧
      (setup.directRouting → setup.direct entry.publicIP ≠ some true) := by
  have holds := valid.2 f enabled
  cases isEntry : entryOf f lease with
  | none => simp [isEntry] at holds
  | some entry =>
    rw [isEntry, Option.any_some, Bool.or_eq_true, Bool.not_eq_true', bne_iff_ne] at holds
    exact ⟨entry, rfl, fun routes => holds.resolve_left (by simp [routes])⟩

theorem routable_of_valid (wired : Wired setup nw links nextIndex) (valid : setup.Valid lease)
    (families : OfFamilies setup.ipv4 setup.ipv6 lease) : Routable setup.direct nw lease := by
  refine ⟨valid.1, fun f enabled => ?_⟩
  obtain ⟨index, isDev⟩ := wired.device f ((enabled_of_families families f).symm.trans enabled)
  obtain ⟨entry, isEntry, indirect⟩ := entry_of_valid valid enabled
  exact ⟨_, entry, isDev, isEntry, indirect⟩

theorem applied_of_ne {event : Event} {index : Nat}
    (other : ∀ dev, nw.device f = some dev → dev.linkIndex ≠ index) :
    applied nw f event kernel index = kernel index := by
  cases isDev : nw.device f with
  | none => simp [applied, isDev]
  | some dev =>
    cases enabled : f.enabled event.lease <;> cases isEntry : entryOf f event.lease
    all_goals simp [applied, enabled, isDev, isEntry, Kernel.onLink,
      Function.update_of_ne (other dev isDev).symm]

theorem carriedOut_apply (kernel : Kernel) (wired : Wired setup nw links nextIndex)
    (valid : setup.Valid lease)
    (families : OfFamilies setup.ipv4 setup.ipv6 lease) (type : EventType) {index : Nat}
    (linked : links f = some index) :
    ∃ entry, entryOf f lease = some entry ∧
      carriedOut nw ⟨type, lease⟩ kernel index = (kernel index).map (change type entry) := by
  have enabled : f.enabled lease :=
    (enabled_of_families families f).trans (wired.linked f index linked)
  obtain ⟨dev, isDev, rfl⟩ := Option.map_eq_some_iff.mp (wired.stored f index linked)
  obtain ⟨entry, isEntry, _⟩ := entry_of_valid valid enabled
  have here : ∀ kernel : Kernel, applied nw f ⟨type, lease⟩ kernel dev.linkIndex =
      (kernel dev.linkIndex).map (change type entry) := by
    intro kernel
    simp [applied, enabled, isDev, isEntry, Kernel.onLink]
  refine ⟨entry, isEntry, ?_⟩
  cases f with
  | ipv4 =>
    rw [carriedOut, applied_of_ne, here]
    intro other isOther
    exact wired.separate .ipv6 .ipv4 other dev (by decide) isOther isDev
  | ipv6 =>
    rw [carriedOut, here, applied_of_ne]
    intro other isOther
    exact wired.separate .ipv4 .ipv6 other dev (by decide) isOther isDev

omit [DecidableEq κ] in
theorem Covered.other (covered : Covered setup key links leases kernel)
    (wired : Wired setup nw links nextIndex) (valid : setup.Valid lease)
    (families : OfFamilies setup.ipv4 setup.ipv6 lease) (apart : Apart key leases lease)
    (type : EventType) {l : Lease} (mem : l ∈ leases) (isVxlan : IsVxlan l)
    (differ : key l ≠ key lease) {index : Nat} (linked : links f = some index)
    (enabled : f.enabled l) :
    ∃ tables entry, carriedOut nw ⟨type, lease⟩ kernel index = some tables ∧
      entryOf f l = some entry ∧ tables.Has entry := by
  obtain ⟨tables, entry, isTables, isEntry, has⟩ :=
    covered.installed f index linked l mem isVxlan enabled
  obtain ⟨two, isTwo, after⟩ := carriedOut_apply kernel wired valid families type linked
  exact ⟨_, entry, by rw [after, isTables]; rfl, isEntry,
    has.change isEntry isTwo (apart l mem isVxlan differ f) type⟩

omit [DecidableEq κ] in
theorem Covered.alive_carriedOut (covered : Covered setup key links leases kernel)
    (wired : Wired setup nw links nextIndex) (valid : setup.Valid lease)
    (families : OfFamilies setup.ipv4 setup.ipv6 lease) (type : EventType)
    {index : Nat} (linked : links f = some index) :
    ∃ tables, carriedOut nw ⟨type, lease⟩ kernel index = some tables := by
  obtain ⟨tables, isTables⟩ := covered.alive f index linked
  obtain ⟨_, _, after⟩ := carriedOut_apply kernel wired valid families type linked
  exact ⟨_, by rw [after, isTables]; rfl⟩

theorem apart_upsert (distinct : (leases.map key).Nodup)
    (all : ∀ l ∈ leases, IsVxlan l → Apart key leases l)
    (apart : IsVxlan lease → Apart key leases lease) :
    ∀ l ∈ upsert key lease leases, IsVxlan l → Apart key (upsert key lease leases) l := by
  intro l mem isVxlan other mem' isVxlan' differ f
  rcases (mem_upsert_iff distinct).mp mem with rfl | ⟨old, _⟩
  · rcases (mem_upsert_iff distinct).mp mem' with rfl | ⟨old', _⟩
    · exact absurd rfl differ
    · exact apart isVxlan other old' isVxlan' differ f
  · rcases (mem_upsert_iff distinct).mp mem' with rfl | ⟨old', _⟩
    · rw [clear_symm]
      exact apart isVxlan' l old isVxlan differ.symm f
    · exact all l old isVxlan other old' isVxlan' differ f

theorem Covered.added (covered : Covered setup key links leases kernel)
    (distinct : (leases.map key).Nodup) (wired : Wired setup nw links nextIndex)
    (valid : setup.Valid lease) (families : OfFamilies setup.ipv4 setup.ipv6 lease)
    (apart : Apart key leases lease) :
    Covered setup key links (upsert key lease leases) (carriedOut nw ⟨.added, lease⟩ kernel) where
  alive := fun _ _ linked => covered.alive_carriedOut wired valid families .added linked
  valid := by
    intro l mem isVxlan
    rcases mem_upsert mem with rfl | old
    · exact valid
    · exact covered.valid l old isVxlan
  apart := apart_upsert distinct covered.apart fun _ => apart
  installed := by
    intro f index linked l mem isVxlan enabled
    rcases (mem_upsert_iff distinct).mp mem with rfl | ⟨old, differ⟩
    · obtain ⟨tables, isTables⟩ := covered.alive f index linked
      obtain ⟨entry, isEntry, after⟩ :=
        carriedOut_apply kernel wired valid families .added linked
      exact ⟨_, entry, by rw [after, isTables]; rfl, isEntry, tables.has_install entry⟩
    · exact covered.other wired valid families apart .added old isVxlan differ linked enabled

theorem Covered.foreign (covered : Covered setup key links leases kernel)
    (distinct : (leases.map key).Nodup) (notVxlan : ¬ IsVxlan lease) :
    Covered setup key links (upsert key lease leases) kernel where
  alive := covered.alive
  valid := by
    intro l mem isVxlan
    rcases mem_upsert mem with rfl | old
    · exact absurd isVxlan notVxlan
    · exact covered.valid l old isVxlan
  apart := apart_upsert distinct covered.apart fun isVxlan => absurd isVxlan notVxlan
  installed := by
    intro f index linked l mem isVxlan enabled
    rcases mem_upsert mem with rfl | old
    · exact absurd isVxlan notVxlan
    · exact covered.installed f index linked l old isVxlan enabled

theorem Covered.dropped (covered : Covered setup key links leases kernel) (k : κ) :
    Covered setup key links (erase key k leases) kernel where
  alive := covered.alive
  valid := fun l mem => covered.valid l ((erase_sublist k leases).subset mem)
  apart := fun l mem isVxlan other mem' =>
    covered.apart l ((erase_sublist k leases).subset mem) isVxlan other
      ((erase_sublist k leases).subset mem')
  installed := fun f index linked l mem =>
    covered.installed f index linked l ((erase_sublist k leases).subset mem)

theorem Covered.removed (covered : Covered setup key links leases kernel)
    (distinct : (leases.map key).Nodup) (wired : Wired setup nw links nextIndex)
    (valid : setup.Valid lease) (families : OfFamilies setup.ipv4 setup.ipv6 lease)
    (apart : Apart key leases lease) :
    Covered setup key links (erase key (key lease) leases)
      (carriedOut nw ⟨.removed, lease⟩ kernel) where
  alive := fun _ _ linked => covered.alive_carriedOut wired valid families .removed linked
  valid := (covered.dropped (key lease)).valid
  apart := (covered.dropped (key lease)).apart
  installed := by
    intro f index linked l mem isVxlan enabled
    obtain ⟨old, differ⟩ := (mem_erase_iff distinct).mp mem
    exact covered.other wired valid families apart .removed old isVxlan differ linked enabled

theorem Covered.event {ownLease : Lease} (covered : Covered setup key links leases kernel)
    (wired : Wired setup nw links nextIndex)
    (kept : Kept (OfFamilies setup.ipv4 setup.ipv6) key ownLease leases) {e : Event}
    (families : OfFamilies setup.ipv4 setup.ipv6 e.lease) (fit : Fit setup key leases e) :
    ∃ target, handle setup.direct setup.further nw kernel [relayed key leases e] = some target ∧
      Covered setup key links (tracked key leases e) target := by
  have carries : ∀ type {l : Lease}, setup.Valid l → OfFamilies setup.ipv4 setup.ipv6 l →
      handle setup.direct setup.further nw kernel [⟨type, l⟩] =
        some (carriedOut nw ⟨type, l⟩ kernel) := by
    intro type l valid ofL
    exact @handle_of_routable setup.direct kernel setup.further nw ⟨type, l⟩
      (routable_of_valid wired valid ofL)
  have drops : ∀ type {l : Lease}, ¬ IsVxlan l →
      handle setup.direct setup.further nw kernel [⟨type, l⟩] = some kernel := by
    intro type l notVxlan
    exact @handle_of_ignored setup.direct kernel setup.further nw ⟨type, l⟩ (.inl notVxlan)
  rcases e with ⟨_ | _, lease⟩
  · rcases fit with notVxlan | ⟨valid, apart⟩
    · exact ⟨kernel, drops .added notVxlan, covered.foreign kept.distinct notVxlan⟩
    · exact ⟨_, carries .added valid families,
        covered.added kept.distinct wired valid families apart⟩
  · cases found : lookup key leases (key lease) with
    | some stored =>
      have mem := mem_of_lookup found
      have same := key_of_lookup found
      simp only [relayed, tracked, found, Option.getD_some]
      rw [← same]
      by_cases isVxlan : IsVxlan stored
      · exact ⟨_, carries .removed (covered.valid stored mem isVxlan) (kept.kinds stored mem),
          covered.removed kept.distinct wired (covered.valid stored mem isVxlan)
            (kept.kinds stored mem) (covered.apart stored mem isVxlan)⟩
      · exact ⟨kernel, drops .removed isVxlan, covered.dropped _⟩
    | none =>
      simp only [relayed, tracked, found, Option.getD_none]
      rcases fit.resolve_left ((lookup_eq_none_iff _ _).mp found) with notVxlan | ⟨valid, apart⟩
      · exact ⟨kernel, drops .removed notVxlan, covered.dropped _⟩
      · exact ⟨_, carries .removed valid families,
          covered.removed kept.distinct wired valid families apart⟩

end Event

/-! ## Deletions and re-creations -/

section Devices

variable {setup : Setup} {key : Lease → κ} {leases : List Lease} {host : Host}

@[simp]
theorem device_setDevice (nw : Network) (f g : Family) (dev : Option VxlanDevice) :
    (nw.setDevice f dev).device g = if g = f then dev else nw.device g := by
  cases f <;> cases g <;> rfl

theorem Wiring.setDevice {nw : Network} {links links' : Family → Option Nat} {nextIndex next : Nat}
    (wiring : Wiring setup nw links nextIndex) {f : Family} {dev : Option VxlanDevice}
    (more : nextIndex ≤ next) (others : ∀ g, g ≠ f → links' g = links g)
    (stored : ∀ index, links' f = some index → setup.enabled f ∧
      dev.map VxlanDevice.linkIndex = some index)
    (fresh : ∀ d, dev = some d → d.linkIndex < next ∧
      ∀ g other, g ≠ f → nw.device g = some other → d.linkIndex ≠ other.linkIndex) :
    Wiring setup (nw.setDevice f dev) links' next where
  stored := by
    intro g index link
    by_cases here : g = f
    · subst here
      simpa using (stored index link).2
    · rw [others g here] at link
      simpa [here] using wiring.stored g index link
  below := by
    intro g d isDev
    by_cases here : g = f
    · exact (fresh d (by simpa [here] using isDev)).1
    · rw [device_setDevice, if_neg here] at isDev
      exact (wiring.below g d isDev).trans_le more
  linked := by
    intro g index link
    by_cases here : g = f
    · subst here
      exact (stored index link).1
    · rw [others g here] at link
      exact wiring.linked g index link
  separate := by
    intro g h d other differ isDev isOther
    rw [device_setDevice] at isDev isOther
    by_cases here : g = f
    · subst here
      rw [if_pos rfl] at isDev
      rw [if_neg differ.symm] at isOther
      exact (fresh d isDev).2 h other differ.symm isOther
    · rw [if_neg here] at isDev
      by_cases there : h = f
      · subst there
        rw [if_pos rfl] at isOther
        exact ((fresh other isOther).2 g d here isDev).symm
      · rw [if_neg there] at isOther
        exact wiring.separate g h d other differ isDev isOther

theorem Wiring.newVXLANDevice
    (wiring : Wiring setup host.nw host.links host.nextIndex) (f : Family) :
    Wiring setup (newVXLANDevice setup f host).nw (newVXLANDevice setup f host).links
      (newVXLANDevice setup f host).nextIndex := by
  cases enabled : setup.enabled f with
  | false =>
    simp only [Vxlan.newVXLANDevice, enabled, Bool.false_eq_true, if_false]
    refine wiring.setDevice le_rfl (fun _ _ => rfl) (fun index link => ?_) nofun
    exact absurd (wiring.linked f index link) (by simp [enabled])
  | true =>
    cases link : host.links f with
    | some index =>
      simp only [Vxlan.newVXLANDevice, enabled, if_true, link]
      obtain ⟨dev, isDev, rfl⟩ := Option.map_eq_some_iff.mp (wiring.stored f index link)
      refine wiring.setDevice le_rfl (fun _ _ => rfl) (fun other isOther => ?_) ?_
      · exact ⟨enabled, link.symm.trans isOther⟩
      · intro d isNew
        obtain rfl := Option.some.inj isNew
        exact ⟨wiring.below f dev isDev, fun g other differ isOther =>
          wiring.separate f g dev other differ.symm isDev isOther⟩
    | none =>
      simp only [Vxlan.newVXLANDevice, enabled, if_true, link]
      refine wiring.setDevice (Nat.le_succ _) (fun g differ => ?_) (fun index isIndex => ?_) ?_
      · exact Function.update_of_ne differ _ _
      · rw [Function.update_self] at isIndex
        exact ⟨enabled, isIndex⟩
      · intro d isNew
        obtain rfl := Option.some.inj isNew
        exact ⟨Nat.lt_succ_self _, fun g other _ isOther =>
          (wiring.below g other isOther).ne'⟩

theorem device_newVXLANDevice (setup : Setup) (f g : Family) (host : Host) :
    ((newVXLANDevice setup f host).nw.device g).map VxlanDevice.directRouting =
      if g = f then (if setup.enabled f then some setup.directRouting else none)
      else (host.nw.device g).map VxlanDevice.directRouting := by
  unfold newVXLANDevice
  by_cases here : g = f
  · subst here
    cases enabled : setup.enabled g <;> cases link : host.links g <;> simp
  · cases enabled : setup.enabled f <;> cases link : host.links f <;> simp [here]

theorem Wired.createVXLANDevice (wiring : Wiring setup host.nw host.links host.nextIndex) :
    Wired setup (createVXLANDevice setup host).nw (createVXLANDevice setup host).links
      (createVXLANDevice setup host).nextIndex where
  toWiring := Wiring.newVXLANDevice (wiring.newVXLANDevice .ipv4) .ipv6
  device := by
    intro f enabled
    have made : ((Vxlan.createVXLANDevice setup host).nw.device f).map VxlanDevice.directRouting =
        some setup.directRouting := by
      rw [Vxlan.createVXLANDevice, device_newVXLANDevice, device_newVXLANDevice]
      cases f <;> simp [enabled]
    obtain ⟨⟨index, flag⟩, isDev, rfl⟩ := Option.map_eq_some_iff.mp made
    exact ⟨index, isDev⟩

def Idle (setup : Setup) (leases : List Lease) (links : Family → Option Nat) : Prop :=
  (∀ l ∈ leases, ¬ IsVxlan l) ∨ ∀ f, setup.enabled f = true → (links f).isSome = true

instance (setup : Setup) (leases : List Lease) (links : Family → Option Nat) :
    Decidable (Idle setup leases links) :=
  inferInstanceAs (Decidable (_ ∨ _))

theorem Idle.newVXLANDevice (idle : Idle setup leases host.links) (f : Family) :
    Idle setup leases (newVXLANDevice setup f host).links := by
  refine idle.imp_right fun linked g enabled => ?_
  have before := linked g enabled
  unfold Vxlan.newVXLANDevice
  split
  · cases link : host.links f with
    | some index => exact before
    | none =>
      by_cases here : g = f
      · simp [here]
      · simpa [Function.update_of_ne here] using before
  · exact before

omit [DecidableEq κ] in
theorem Covered.newVXLANDevice (covered : Covered setup key host.links leases host.kernel)
    (wiring : Wiring setup host.nw host.links host.nextIndex)
    (idle : Idle setup leases host.links) (f : Family) :
    Covered setup key (newVXLANDevice setup f host).links leases
      (newVXLANDevice setup f host).kernel := by
  unfold Vxlan.newVXLANDevice
  split
  · rename_i enabled
    cases link : host.links f with
    | some index => exact covered
    | none =>
      have unused : ∀ l ∈ leases, ¬ IsVxlan l := by
        refine idle.resolve_right fun linked => ?_
        have before := linked f enabled
        simp [link] at before
      refine ⟨?_, covered.valid, covered.apart, ?_⟩
      · intro g index isIndex
        by_cases here : g = f
        · subst here
          simp only [Function.update_self, Option.some.injEq] at isIndex
          exact ⟨Tables.empty, by simp [isIndex]⟩
        · simp only [Function.update_of_ne here] at isIndex
          obtain ⟨dev, isDev, rfl⟩ := Option.map_eq_some_iff.mp (wiring.stored g index isIndex)
          obtain ⟨tables, isTables⟩ := covered.alive g _ isIndex
          refine ⟨tables, ?_⟩
          simpa [Function.update_of_ne (wiring.below g dev isDev).ne] using isTables
      · intro g index _ l mem isVxlan
        exact absurd isVxlan (unused l mem)
  · exact covered

end Devices

/-! ## Runs -/

def Label.events : Label → List Event
  | .batch events => events
  | _ => []

/-- The events of a batch fit, and a call of `reCreateVxlan` creates no device while
there are vxlan leases. -/
def Undisturbed (setup : Setup) (host : Host) : Label → Prop
  | .batch events =>
    Along watch (fun lw e =>
      host.watcher.ownLease.subnets setup.ipv4 setup.ipv6 ≠ e.lease.subnets setup.ipv4 setup.ipv6 →
        Fit setup (Lease.subnets setup.ipv4 setup.ipv6) lw.leases e) host.watcher events
  | .recreated => Idle setup host.watcher.leases host.links
  | _ => True

instance (setup : Setup) (host : Host) : ∀ label, Decidable (Undisturbed setup host label)
  | .batch _ => inferInstanceAs (Decidable (Along _ _ _ _))
  | .recreated => inferInstanceAs (Decidable (Idle _ _ _))
  | .deleted _ => .isTrue trivial
  | .signalled => .isTrue trivial

structure Host.Inv (setup : Setup) (ownLease : Lease) (host : Host) : Prop where
  own : host.watcher.ownLease = ownLease
  kept : Kept (OfFamilies setup.ipv4 setup.ipv6) (Lease.subnets setup.ipv4 setup.ipv6) ownLease
    host.watcher.leases
  wired : Wired setup host.nw host.links host.nextIndex
  covered : Covered setup (Lease.subnets setup.ipv4 setup.ipv6) host.links host.watcher.leases
    host.kernel

section Runs

variable {setup : Setup} {ownLease : Lease} {host : Host}

@[simp]
theorem watcher_newVXLANDevice (setup : Setup) (f : Family) (host : Host) :
    (newVXLANDevice setup f host).watcher = host.watcher := by
  unfold newVXLANDevice
  split
  · split <;> rfl
  · rfl

theorem inv_created (own : host.watcher.ownLease = ownLease)
    (kept : Kept (OfFamilies setup.ipv4 setup.ipv6) (Lease.subnets setup.ipv4 setup.ipv6) ownLease
      host.watcher.leases)
    (wiring : Wiring setup host.nw host.links host.nextIndex)
    (covered : Covered setup (Lease.subnets setup.ipv4 setup.ipv6) host.links host.watcher.leases
      host.kernel)
    (idle : Idle setup host.watcher.leases host.links) :
    Host.Inv setup ownLease (createVXLANDevice setup host) where
  own := by simpa [createVXLANDevice] using own
  kept := by simpa [createVXLANDevice] using kept
  wired := Wired.createVXLANDevice wiring
  covered := by
    have first := covered.newVXLANDevice wiring idle .ipv4
    have second := first.newVXLANDevice (wiring.newVXLANDevice .ipv4) (idle.newVXLANDevice .ipv4) .ipv6
    simpa [createVXLANDevice] using second

theorem device_none (f : Family) : Network.device ⟨none, none⟩ f = none := by
  cases f <;> rfl

theorem inv_registered (setup : Setup) (ownLease : Lease) (nextIndex : Nat) :
    Host.Inv setup ownLease (Host.registered setup ownLease nextIndex) := by
  apply inv_created
  · rfl
  · exact kept_nil
  · constructor <;> simp [device_none]
  · constructor <;> simp [Installed]
  · exact .inl (by simp)

theorem Host.Inv.batch (enabled : setup.ipv4 ∨ setup.ipv6)
    (ownSet : setup.ipv6 → ownLease.ipv6Subnet.ip.isSome)
    (inv : Host.Inv setup ownLease host) {events : List Event}
    (families : ∀ e ∈ events, OfFamilies setup.ipv4 setup.ipv6 e.lease)
    (undisturbed : Undisturbed setup host (.batch events)) :
    ∃ target, Host.step setup host (.batch events) = some target ∧
      Host.Inv setup ownLease target := by
  have keying := keying_ofFamilies enabled ownSet
  obtain ⟨⟨own, leases⟩, nw, links, kernel, nextIndex, missing, recreating⟩ := host
  obtain rfl : own = ownLease := inv.own
  obtain ⟨leases', kernel', handled, kept', covered'⟩ :=
    @exists_step_of_along Kernel _ _ _ _ own (handle setup.direct setup.further nw)
      (fun leases kernel => Kept (OfFamilies setup.ipv4 setup.ipv6) _ own leases ∧
        Covered setup (Lease.subnets setup.ipv4 setup.ipv6) links leases kernel)
      (Fit setup (Lease.subnets setup.ipv4 setup.ipv6))
      (sequential_handle setup.direct setup.further nw) keying
      (fun leases kernel e kept kindOf differ both fit => by
        obtain ⟨target, handled, covered⟩ := both.2.event inv.wired kept kindOf fit
        exact ⟨target, handled, kept.tracked kindOf differ, covered⟩)
      leases kernel inv.kept ⟨inv.kept, inv.covered⟩ events families undisturbed
  refine ⟨_, by rw [Host.step, handled]; rfl, ?_⟩
  exact ⟨rfl, kept', inv.wired, covered'⟩

theorem Host.Inv.deleted (inv : Host.Inv setup ownLease host) {f : Family} {index : Nat}
    (link : host.links f = some index) (missing : Bool) :
    Host.Inv setup ownLease
      { host with
        links := Function.update host.links f none
        kernel := Function.update host.kernel index none
        missing := missing } := by
  have remains : ∀ g other, Function.update host.links f none g = some other →
      host.links g = some other ∧ Function.update host.kernel index none other = host.kernel other := by
    intro g other isOther
    by_cases here : g = f
    · simp [here] at isOther
    · rw [Function.update_of_ne here] at isOther
      obtain ⟨dev, isDev, rfl⟩ := Option.map_eq_some_iff.mp (inv.wired.stored g other isOther)
      obtain ⟨gone, isGone, rfl⟩ := Option.map_eq_some_iff.mp (inv.wired.stored f index link)
      exact ⟨isOther, Function.update_of_ne (inv.wired.separate g f dev gone here isDev isGone) _ _⟩
  refine ⟨inv.own, inv.kept, ⟨⟨?_, inv.wired.below, ?_, inv.wired.separate⟩, inv.wired.device⟩,
    ⟨?_, inv.covered.valid, inv.covered.apart, ?_⟩⟩
  · exact fun g other isOther => inv.wired.stored g other (remains g other isOther).1
  · exact fun g other isOther => inv.wired.linked g other (remains g other isOther).1
  · intro g other isOther
    obtain ⟨before, same⟩ := remains g other isOther
    obtain ⟨tables, isTables⟩ := inv.covered.alive g other before
    exact ⟨tables, same.trans isTables⟩
  · intro g other isOther l mem isVxlan enabled
    obtain ⟨before, same⟩ := remains g other isOther
    obtain ⟨tables, entry, isTables, has⟩ :=
      inv.covered.installed g other before l mem isVxlan enabled
    exact ⟨tables, entry, same.trans isTables, has⟩

theorem Host.Inv.step (enabled : setup.ipv4 ∨ setup.ipv6)
    (ownSet : setup.ipv6 → ownLease.ipv6Subnet.ip.isSome)
    (inv : Host.Inv setup ownLease host) {label : Label}
    (families : ∀ e ∈ label.events, OfFamilies setup.ipv4 setup.ipv6 e.lease)
    (undisturbed : Undisturbed setup host label) {target : Host}
    (step : Host.step setup host label = some target) : Host.Inv setup ownLease target := by
  cases label with
  | batch events =>
    obtain ⟨target', step', after⟩ := inv.batch enabled ownSet families undisturbed
    exact Option.some.inj (step'.symm.trans step) ▸ after
  | deleted f =>
    obtain ⟨index, link, rfl⟩ := Option.map_eq_some_iff.mp step
    exact inv.deleted link _
  | signalled =>
    obtain ⟨_, isTarget⟩ := Option.ite_none_right_eq_some.mp step
    obtain rfl := Option.some.inj isTarget
    exact ⟨inv.own, inv.kept, inv.wired, inv.covered⟩
  | recreated =>
    obtain ⟨_, isTarget⟩ := Option.ite_none_right_eq_some.mp step
    obtain rfl := Option.some.inj isTarget
    exact @inv_created setup ownLease { host with recreating := host.recreating - 1 } inv.own
      inv.kept inv.wired.toWiring inv.covered undisturbed

/-- In every run in which the events fit and no device is created while there are
vxlan leases, no batch crashes the backend, and whenever no re-creation is pending
every vxlan lease has its entries on each device that exists. -/
theorem peers_stay_installed (setup : Setup) (enabled : setup.ipv4 = true ∨ setup.ipv6 = true)
    {ownLease : Lease} (ownSet : setup.ipv6 = true → ownLease.ipv6Subnet.ip.isSome = true)
    (nextIndex : Nat) {labels : List Label}
    (families : ∀ label ∈ labels, ∀ e ∈ label.events, OfFamilies setup.ipv4 setup.ipv6 e.lease)
    (undisturbed : Along (Host.step setup) (Undisturbed setup)
      (Host.registered setup ownLease nextIndex) labels) :
    Along (Host.step setup) (fun host label => ∀ events, label = .batch events →
        (Host.step setup host label).isSome = true)
      (Host.registered setup ownLease nextIndex) labels ∧
    Throughout (Host.step setup)
      (fun host => host.Quiescent → Installed host.links host.watcher.leases host.kernel)
      (Host.registered setup ownLease nextIndex) labels := by
  have along := undisturbed.and (along_of_forall_mem families)
  have preserved : ∀ host label target, Host.Inv setup ownLease host →
      (Undisturbed setup host label ∧ ∀ e ∈ label.events, OfFamilies setup.ipv4 setup.ipv6 e.lease) →
      Host.step setup host label = some target → Host.Inv setup ownLease target :=
    fun _ _ _ inv both step => inv.step enabled ownSet both.2 both.1 step
  have start := inv_registered setup ownLease nextIndex
  constructor
  · refine along.imp_of_invariant (fun host label inv both events isBatch => ?_) preserved start
    subst isBatch
    obtain ⟨target, step, _⟩ := @Host.Inv.batch setup ownLease host enabled ownSet inv events both.2 both.1
    rw [step]
    rfl
  · intro initial isInitial target reached _
    exact (throughout_of_invariant preserved start along initial isInitial target reached).covered.installed

def ipv4Setup : Setup :=
  ⟨true, false, false, 9, fun _ => none⟩

theorem peers_stay_installed_early :
    Along (Host.step ipv4Setup) (fun host label => ∀ events, label = .batch events →
        (Host.step ipv4Setup host label).isSome = true)
      (Host.registered ipv4Setup (plainLease 0x0a010000 0) 7)
      [.deleted .ipv4, .signalled, .recreated,
        .batch [⟨.added, vxlanLease 0x0a010100 0xc0a80001 "02:00:00:00:00:01"⟩]] ∧
    Throughout (Host.step ipv4Setup)
      (fun host => host.Quiescent → Installed host.links host.watcher.leases host.kernel)
      (Host.registered ipv4Setup (plainLease 0x0a010000 0) 7)
      [.deleted .ipv4, .signalled, .recreated,
        .batch [⟨.added, vxlanLease 0x0a010100 0xc0a80001 "02:00:00:00:00:01"⟩]] :=
  peers_stay_installed ipv4Setup (.inl rfl) nofun 7
    (by
      intro label isLabel e isEvent
      simp only [List.mem_cons, List.not_mem_nil, or_false] at isLabel
      rcases isLabel with rfl | rfl | rfl | rfl
      · cases isEvent
      · cases isEvent
      · cases isEvent
      · obtain rfl := List.mem_singleton.mp isEvent
        exact ⟨rfl, rfl, nofun⟩)
    (by decide +kernel)

def recreation : List Label :=
  [.batch [⟨.added, vxlanLease 0x0a010100 0xc0a80001 "02:00:00:00:00:01"⟩], .deleted .ipv4,
    .signalled, .recreated]

/-- The new device stays empty: the lease is present, nothing is pending, and its
neighbour entry is missing. -/
theorem recreation_forgets_leases :
    ¬ Throughout (Host.step ipv4Setup)
      (fun host => host.Quiescent → Installed host.links host.watcher.leases host.kernel)
      (Host.registered ipv4Setup (plainLease 0x0a010000 0) 7) recreation := by
  intro installed
  have seen : (run (Host.step ipv4Setup) (Host.registered ipv4Setup (plainLease 0x0a010000 0) 7)
      recreation).map (fun host => (decide host.Quiescent, host.links .ipv4, host.watcher.leases,
        (host.kernel 8).bind fun tables => tables.neigh (.v4 0x0a010100))) =
      some (true, some 8, [vxlanLease 0x0a010100 0xc0a80001 "02:00:00:00:00:01"], none) := by
    decide +kernel
  obtain ⟨target, reached, isSeen⟩ := Option.map_eq_some_iff.mp seen
  simp only [Prod.mk.injEq] at isSeen
  obtain ⟨quiescent, link, leases, noEntry⟩ := isSeen
  obtain ⟨tables, entry, isTables, isEntry, has⟩ :=
    installed recreation List.prefix_rfl target reached (of_decide_eq_true quiescent) .ipv4 8
      link
      (vxlanLease 0x0a010100 0xc0a80001 "02:00:00:00:00:01") (by simp [leases]) rfl rfl
  have address : (entryOf .ipv4 (vxlanLease 0x0a010100 0xc0a80001 "02:00:00:00:00:01")).map
      Entry.address = some (.v4 0x0a010100) := by
    decide +kernel
  rw [isEntry, Option.map_some, Option.some.injEq] at address
  have present := has.neigh
  rw [address] at present
  simp only [isTables, Option.bind_some, present, reduceCtorEq] at noEntry

end Runs

end Flannel.Vxlan
