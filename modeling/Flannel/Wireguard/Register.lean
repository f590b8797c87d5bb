import Flannel.Wireguard.Network

/-!
# Registration with the wireguard backend

`RegisterNetwork` creates the devices that the mode and the enabled families ask for, publishes
the key and the two ports in the lease, and configures the devices.
-/

namespace Flannel.Wireguard

open Backend Leases Net Program Subnet Text

structure BackendConfig where
  listenPort : Nat := 51820
  listenPortV6 : Nat := 51821
  mode : Mode := .separate
  deriving DecidableEq

structure ExternalInterface where
  extAddr : Option Net.IP
  extV6Addr : Option Net.IP
  deriving DecidableEq

inductive RegisterOp
  | createWGDev (name : String) (listenPort : Nat)
  | acquireLease (attrs : LeaseAttrs)
  | configure (dev : WgDevice) (f : Family) (lease : Lease)

abbrev RegisterRes : RegisterOp → Type
  | .createWGDev _ _ => Option (Nat × String)
  | .acquireLease _ => Option Lease
  | .configure _ _ _ => Bool

def marshalAttrs (attrs : WireguardLeaseAttrs) : String :=
  String.ofList (writeObject [("PublicKey".toList, writeString attrs.publicKey.toList),
    ("Port".toList, Nat.toDigits 10 attrs.port.toNat)])

theorem unmarshalAttrs_marshalAttrs (attrs : WireguardLeaseAttrs) :
    unmarshalAttrs {} (marshalAttrs attrs) = some attrs := by
  have nonempty : (marshalAttrs attrs).isEmpty = false := by
    apply Bool.eq_false_of_not_eq_true
    intro isEmpty
    have nothing := congrArg String.toList (String.isEmpty_iff.mp isEmpty)
    simp [marshalAttrs, writeObject] at nothing
  have decoded := @unmarshal_writeObject _ attrFields {}
    [("PublicKey".toList, writeString attrs.publicKey.toList,
        .string (quote attrs.publicKey.toList)),
      ("Port".toList, Nat.toDigits 10 attrs.port.toNat, .number (Nat.toDigits 10 attrs.port.toNat))]
    (by simp) (by simp [reads_string, reads_toDigits])
  simp only [List.map_cons, List.map_nil] at decoded
  rw [unmarshalAttrs, nonempty, if_neg Bool.false_ne_true, marshalAttrs, decoded]
  have keyField : fieldOf attrFields "PublicKey".toList = some ⟨"PublicKey",
      storeString fun publicKey attrs => { attrs with publicKey := publicKey }⟩ := rfl
  have portField : fieldOf attrFields "Port".toList = some ⟨"Port",
      storeUint 16 fun port attrs => { attrs with port := .ofNat port }⟩ := rfl
  simp only [List.foldlM_cons, List.foldlM_nil, storeMember,
    unquote_quote, keyField, portField, storeString_quote, storeUint_toDigits _ attrs.port.toNat_lt,
    Option.bind_eq_bind, Option.bind_some, UInt16.ofNat_toNat]
  rfl

/-! ## The program -/

def createWGDev (name : String) (listenPort : Nat) :
    Proc RegisterOp RegisterRes (Option (WgDevice × String)) := do
  let answer ← (ask (RegisterOp.createWGDev name listenPort) :
    Proc RegisterOp RegisterRes (Option (Nat × String)))
  pure (answer.map fun created => (⟨name, created.1, listenPort⟩, created.2))

structure Created where
  dev : Option WgDevice
  v6Dev : Option WgDevice
  publicKey : String

def createIf (enabled : Bool) (name : String) (listenPort : Nat) (publicKey : String) :
    Proc RegisterOp RegisterRes (Option (Option WgDevice × String)) :=
  if enabled then do
    let created ← createWGDev name listenPort
    pure (created.map fun created => (some created.1, created.2))
  else pure (some (none, publicKey))

def createShared (listenPort : Nat) : Proc RegisterOp RegisterRes (Option Created) := do
  let created ← createWGDev "flannel-wg" listenPort
  pure (created.map fun created => ⟨some created.1, none, created.2⟩)

def createDevices (cfg : BackendConfig) (config : Config) :
    Proc RegisterOp RegisterRes (Option Created) :=
  match cfg.mode with
  | .separate => do
    match ← createIf config.enableIPv4 "flannel-wg" cfg.listenPort "" with
    | none => pure none
    | some (dev, publicKey) =>
      let second ← createIf config.enableIPv6 "flannel-wg-v6" cfg.listenPortV6 publicKey
      pure (second.map fun second => ⟨dev, second.1, second.2⟩)
  | .auto => createShared cfg.listenPort
  | .ipv4 => createShared cfg.listenPort
  | .ipv6 => createShared cfg.listenPort

/-- `ip.FromIP` of the public address, if there is one; it panics at an address that
is not one of IPv4. -/
def publicIPv4 (publicIP : Option Net.IP) : Proc RegisterOp RegisterRes Ip.IP4 :=
  match publicIP with
  | none => pure 0
  | some publicIP =>
    match Ip.fromIP publicIP with
    | none => crash .raised
    | some ip => pure ip

def newSubnetAttrs (publicIP publicIPv6 : Option Net.IP) (enableIPv4 enableIPv6 : Bool)
    (publicKey : String) (v4Port v6Port : UInt16) : Proc RegisterOp RegisterRes LeaseAttrs := do
  let publicIP ← publicIPv4 publicIP
  pure {
    publicIP := publicIP
    publicIPv6 := publicIPv6.map Ip.fromIP6
    backendType := "wireguard"
    backendData := if enableIPv4 then some (marshalAttrs ⟨publicKey, v4Port⟩) else none
    backendV6Data := if enableIPv6 then some (marshalAttrs ⟨publicKey, v6Port⟩) else none }

def configureIf (enabled empty : Bool) (dev : Option WgDevice) (f : Family) (lease : Lease) :
    Proc RegisterOp RegisterRes Bool :=
  if enabled then
    if empty then pure false
    else do
      let dev ← deref dev
      (ask (RegisterOp.configure dev f lease) : Proc RegisterOp RegisterRes Bool)
  else pure true

def registerNetwork (cfg : BackendConfig) (config : Config) (extIface : ExternalInterface) :
    Proc RegisterOp RegisterRes (Option (Network × Lease)) := do
  match ← createDevices cfg config with
  | none => pure none
  | some created =>
    let attrs ← newSubnetAttrs extIface.extAddr extIface.extV6Addr config.enableIPv4
      config.enableIPv6 created.publicKey (.ofNat cfg.listenPort) (.ofNat cfg.listenPortV6)
    match ← (ask (RegisterOp.acquireLease attrs) :
      Proc RegisterOp RegisterRes (Option Lease)) with
    | none => pure none
    | some lease =>
      let v6Dev := if cfg.mode = .separate then created.v6Dev else created.dev
      if ← configureIf config.enableIPv4 lease.subnet.empty created.dev .ipv4 lease then
        if ← configureIf config.enableIPv6 lease.ipv6Subnet.empty v6Dev .ipv6 lease then
          pure (some (⟨created.dev, created.v6Dev, cfg.mode, extIface.extAddr,
            extIface.extV6Addr⟩, lease))
        else pure none
      else pure none

/-! ## What a registered node has -/

/-- Answers to `RegisterNetwork`: a printed key is read back as a key, and the lease has
the attributes it was acquired with. -/
def Genuine (parseKey : String → Option Key) : (op : RegisterOp) → RegisterRes op → Prop
  | .createWGDev _ _, answer => ∀ created ∈ answer, (parseKey created.2).isSome = true
  | .acquireLease attrs, answer => ∀ lease ∈ answer, lease.attrs = attrs
  | .configure _ _ _, _ => True

def registered (cfg : BackendConfig) (config : Config) (extIface : ExternalInterface)
    (index indexV6 : Nat) : Network where
  dev :=
    if cfg.mode = .separate ∧ config.enableIPv4 = false then none
    else some ⟨"flannel-wg", index, cfg.listenPort⟩
  v6Dev :=
    if cfg.mode = .separate ∧ config.enableIPv6 = true then
      some ⟨"flannel-wg-v6", indexV6, cfg.listenPortV6⟩
    else none
  mode := cfg.mode
  extAddr := extIface.extAddr
  extV6Addr := extIface.extV6Addr

structure Publishes (parseKey : String → Option Key) (cfg : BackendConfig) (config : Config)
    (publicKey : String) (attrs : LeaseAttrs) : Prop where
  parses : config.enableIPv4 = true ∨ config.enableIPv6 = true → (parseKey publicKey).isSome = true
  backendType : attrs.backendType = "wireguard"
  backendData : attrs.backendData =
    if config.enableIPv4 then some (marshalAttrs ⟨publicKey, .ofNat cfg.listenPort⟩) else none
  backendV6Data : attrs.backendV6Data =
    if config.enableIPv6 then some (marshalAttrs ⟨publicKey, .ofNat cfg.listenPortV6⟩) else none

section Spec

variable {parseKey : String → Option Key} {cfg : BackendConfig} {config : Config}
  {extIface : ExternalInterface}

variable {publicKey : String}

theorem returns_createWGDev {name : String} {listenPort : Nat} {dev : WgDevice}
    (returns : Returns (Genuine parseKey) (createWGDev name listenPort) (some (dev, publicKey))) :
    (∃ index, dev = ⟨name, index, listenPort⟩) ∧ (parseKey publicKey).isSome := by
  obtain ⟨answer, genuine, isResult⟩ := (returns_bind _ _ _).mp returns
  rw [returns_ask] at genuine
  obtain ⟨created, rfl, same⟩ := Option.map_eq_some_iff.mp (returns_ret.mp isResult).symm
  obtain ⟨rfl, rfl⟩ := Prod.mk.inj same
  exact ⟨⟨created.1, rfl⟩, genuine created rfl⟩

theorem returns_createIf {enabled : Bool} {name before : String} {listenPort : Nat}
    {dev : Option WgDevice}
    (returns : Returns (Genuine parseKey) (createIf enabled name listenPort before)
      (some (dev, publicKey))) :
    (enabled ∧ (∃ index, dev = some ⟨name, index, listenPort⟩) ∧
        (parseKey publicKey).isSome) ∨
      (enabled = false ∧ dev = none ∧ publicKey = before) := by
  cases enabled with
  | false =>
    obtain ⟨rfl, rfl⟩ : dev = none ∧ publicKey = before := by
      simpa [createIf] using returns
    exact .inr ⟨rfl, rfl, rfl⟩
  | true =>
    obtain ⟨answer, created, isResult⟩ := (returns_bind _ _ _).mp returns
    obtain ⟨⟨made, key⟩, rfl, same⟩ := Option.map_eq_some_iff.mp (returns_ret.mp isResult).symm
    obtain ⟨rfl, rfl⟩ := Prod.mk.inj same
    obtain ⟨⟨index, rfl⟩, parses⟩ := returns_createWGDev created
    exact .inl ⟨rfl, ⟨index, rfl⟩, parses⟩

theorem returns_createDevices_shared {created : Created} (shared : cfg.mode ≠ .separate)
    (returns : Returns (Genuine parseKey) (createDevices cfg config) (some created)) :
    (∃ index, created.dev = some ⟨"flannel-wg", index, cfg.listenPort⟩) ∧ created.v6Dev = none ∧
      (parseKey created.publicKey).isSome := by
  have program : createDevices cfg config = createShared cfg.listenPort := by
    cases isMode : cfg.mode with
    | separate => exact absurd isMode shared
    | auto => simp only [createDevices, isMode]
    | ipv4 => simp only [createDevices, isMode]
    | ipv6 => simp only [createDevices, isMode]
  rw [program] at returns
  obtain ⟨answer, makes, isResult⟩ := (returns_bind _ _ _).mp returns
  obtain ⟨⟨dev, publicKey⟩, rfl, rfl⟩ := Option.map_eq_some_iff.mp (returns_ret.mp isResult).symm
  obtain ⟨⟨index, rfl⟩, parses⟩ := returns_createWGDev makes
  exact ⟨⟨index, rfl⟩, rfl, parses⟩

theorem returns_createDevices_separate {created : Created} (separate : cfg.mode = .separate)
    (returns : Returns (Genuine parseKey) (createDevices cfg config) (some created)) :
    (∃ index, created.dev = if config.enableIPv4 = false then none
        else some ⟨"flannel-wg", index, cfg.listenPort⟩) ∧
      (∃ index, created.v6Dev = if config.enableIPv6 then
        some ⟨"flannel-wg-v6", index, cfg.listenPortV6⟩ else none) ∧
      (config.enableIPv4 ∨ config.enableIPv6 →
        (parseKey created.publicKey).isSome) := by
  simp only [createDevices, separate] at returns
  obtain ⟨first, makesFirst, returns⟩ := (returns_bind _ _ _).mp returns
  rcases first with _ | ⟨dev, before⟩
  · simp at returns
  obtain ⟨second, makesSecond, isResult⟩ := (returns_bind _ _ _).mp returns
  obtain ⟨⟨v6Dev, publicKey⟩, rfl, rfl⟩ := Option.map_eq_some_iff.mp (returns_ret.mp isResult).symm
  rcases returns_createIf makesFirst with ⟨on, ⟨index, rfl⟩, parses⟩ | ⟨off, rfl, rfl⟩
  · rcases returns_createIf makesSecond with ⟨on6, ⟨index6, rfl⟩, parses6⟩ | ⟨off6, rfl, rfl⟩
    · exact ⟨⟨index, by simp [on]⟩, ⟨index6, by simp [on6]⟩, fun _ => parses6⟩
    · exact ⟨⟨index, by simp [on]⟩, ⟨0, by simp [off6]⟩, fun _ => parses⟩
  · rcases returns_createIf makesSecond with ⟨on6, ⟨index6, rfl⟩, parses6⟩ | ⟨off6, rfl, rfl⟩
    · exact ⟨⟨0, by simp [off]⟩, ⟨index6, by simp [on6]⟩, fun _ => parses6⟩
    · exact ⟨⟨0, by simp [off]⟩, ⟨0, by simp [off6]⟩, by simp [off, off6]⟩

theorem returns_createDevices {created : Created}
    (returns : Returns (Genuine parseKey) (createDevices cfg config) (some created)) :
    (∃ index indexV6, ⟨created.dev, created.v6Dev, cfg.mode, extIface.extAddr, extIface.extV6Addr⟩ =
        registered cfg config extIface index indexV6) ∧
      (config.enableIPv4 ∨ config.enableIPv6 →
        (parseKey created.publicKey).isSome) := by
  by_cases separate : cfg.mode = .separate
  · obtain ⟨⟨index, isDev⟩, ⟨indexV6, isV6Dev⟩, parses⟩ :=
      returns_createDevices_separate separate returns
    exact ⟨⟨index, indexV6, by simp [registered, separate, isDev, isV6Dev]⟩, parses⟩
  · obtain ⟨⟨index, isDev⟩, isV6Dev, parses⟩ := returns_createDevices_shared separate returns
    exact ⟨⟨index, 0, by simp [registered, separate, isDev, isV6Dev]⟩, fun _ => parses⟩

theorem returns_registerNetwork {n : Network} {lease : Lease}
    (returns : Returns (Genuine parseKey) (registerNetwork cfg config extIface) (some (n, lease))) :
    (∃ index indexV6, n = registered cfg config extIface index indexV6) ∧
      ∃ publicKey, Publishes parseKey cfg config publicKey lease.attrs := by
  obtain ⟨devices, creates, returns⟩ := (returns_bind _ _ _).mp returns
  rcases devices with _ | created
  · simp at returns
  obtain ⟨⟨index, indexV6, isNetwork⟩, parses⟩ :=
    @returns_createDevices parseKey cfg config extIface created creates
  obtain ⟨attrs, makesAttrs, returns⟩ := (returns_bind _ _ _).mp returns
  obtain ⟨publicIP, _, isAttrs⟩ := (returns_bind _ _ _).mp makesAttrs
  obtain ⟨acquired, genuine, returns⟩ := (returns_bind _ _ _).mp returns
  rcases acquired with _ | given
  · simp at returns
  have sameAttrs : given.attrs = attrs := (returns_ask.mp genuine) given rfl
  obtain ⟨first, _, returns⟩ := (returns_bind _ _ _).mp returns
  cases first with
  | false => simp at returns
  | true =>
    obtain ⟨second, _, returns⟩ := (returns_bind _ _ _).mp returns
    cases second with
    | false => simp at returns
    | true =>
      obtain ⟨rfl, rfl⟩ := Prod.mk.inj (Option.some.inj returns)
      rw [returns_ret.mp isAttrs] at sameAttrs
      refine ⟨⟨index, indexV6, isNetwork⟩, created.publicKey, parses, ?_, ?_, ?_⟩
      all_goals rw [sameAttrs]

/-! ### Registration succeeds -/

theorem createWGDev_returns {name : String} (parses : (parseKey publicKey).isSome)
    (listenPort index : Nat) :
    Returns (Genuine parseKey) (createWGDev name listenPort)
      (some (⟨name, index, listenPort⟩, publicKey)) := by
  refine (returns_bind _ _ _).mpr ⟨some (index, publicKey), ?_, rfl⟩
  rw [returns_ask]
  intro created isCreated
  obtain rfl := Option.some.inj isCreated
  exact parses

theorem createIf_returns {enabled : Bool} {name before : String}
    (parses : (parseKey publicKey).isSome) (listenPort index : Nat) :
    Returns (Genuine parseKey) (createIf enabled name listenPort before)
      (some (if enabled then some ⟨name, index, listenPort⟩ else none,
        if enabled then publicKey else before)) := by
  cases enabled with
  | false => rfl
  | true => exact (returns_bind _ _ _).mpr ⟨_, createWGDev_returns parses listenPort index, rfl⟩

theorem createDevices_returns (enabled : config.enableIPv4 ∨ config.enableIPv6)
    (parses : (parseKey publicKey).isSome) (extIface : ExternalInterface) (index indexV6 : Nat) :
    Returns (Genuine parseKey) (createDevices cfg config)
      (some ⟨(registered cfg config extIface index indexV6).dev,
        (registered cfg config extIface index indexV6).v6Dev, publicKey⟩) := by
  have shared : Returns (Genuine parseKey) (createShared cfg.listenPort)
      (some ⟨some ⟨"flannel-wg", index, cfg.listenPort⟩, none, publicKey⟩) :=
    (returns_bind _ _ _).mpr ⟨_, createWGDev_returns parses cfg.listenPort index, rfl⟩
  cases isMode : cfg.mode with
  | separate =>
    simp only [createDevices, registered, isMode, true_and]
    refine (returns_bind _ _ _).mpr ⟨_, createIf_returns parses cfg.listenPort index, ?_⟩
    refine (returns_bind _ _ _).mpr ⟨_, createIf_returns parses cfg.listenPortV6 indexV6, ?_⟩
    rcases enabled with on | on
    · cases on6 : config.enableIPv6 <;> simp [on]
    · cases on4 : config.enableIPv4 <;> simp [on]
  | auto => simpa [createDevices, registered, isMode] using shared
  | ipv4 => simpa [createDevices, registered, isMode] using shared
  | ipv6 => simpa [createDevices, registered, isMode] using shared

def publishedAttrs (cfg : BackendConfig) (config : Config) (extIface : ExternalInterface)
    (publicIP : Ip.IP4) (publicKey : String) : LeaseAttrs where
  publicIP := publicIP
  publicIPv6 := extIface.extV6Addr.map Ip.fromIP6
  backendType := "wireguard"
  backendData :=
    if config.enableIPv4 then some (marshalAttrs ⟨publicKey, .ofNat cfg.listenPort⟩) else none
  backendV6Data :=
    if config.enableIPv6 then some (marshalAttrs ⟨publicKey, .ofNat cfg.listenPortV6⟩) else none

theorem registerNetwork_returns {publicIP : Ip.IP4} {lease : Lease}
    (enabled : config.enableIPv4 ∨ config.enableIPv6)
    (parses : (parseKey publicKey).isSome) (isIPv4 : publicIPv4 extIface.extAddr = .ret publicIP)
    (isAttrs : lease.attrs = publishedAttrs cfg config extIface publicIP publicKey)
    (set4 : config.enableIPv4 → lease.subnet.empty = false)
    (set6 : config.enableIPv6 → lease.ipv6Subnet.empty = false) (index indexV6 : Nat) :
    Returns (Genuine parseKey) (registerNetwork cfg config extIface)
      (some (registered cfg config extIface index indexV6, lease)) := by
  refine (returns_bind _ _ _).mpr ⟨_, createDevices_returns enabled parses extIface index indexV6, ?_⟩
  refine (returns_bind _ _ _).mpr ⟨lease.attrs, ?_, ?_⟩
  · rw [newSubnetAttrs, isIPv4, isAttrs]
    rfl
  refine (returns_bind _ _ _).mpr ⟨some lease, ?_, ?_⟩
  · rw [returns_ask]
    rintro given isGiven
    rw [Option.some.inj isGiven]
  refine (returns_bind _ _ _).mpr ⟨true, ?_, (returns_bind _ _ _).mpr ⟨true, ?_, rfl⟩⟩
  · cases on : config.enableIPv4 with
    | false => rfl
    | true => simp [configureIf, set4 on, registered, on, Genuine]
  · cases on : config.enableIPv6 with
    | false => rfl
    | true =>
      by_cases separate : cfg.mode = .separate
      · simp [configureIf, set6 on, registered, on, separate, Genuine]
      · simp [configureIf, set6 on, registered, separate, Genuine]

end Spec

end Flannel.Wireguard
