import Flannel.Ip.Codec
import Flannel.Ip.Iface
import Flannel.Program.Crash
import Flannel.Program.Fallible

/-!
# The addresses of a link

`EnsureV4AddressOnLink` and `EnsureV6AddressOnLink`. The loop for IPv4 looks at every address;
that for IPv6 ends at the address it wants, and leaves what the kernel lists after it.
-/

namespace Flannel.Ip

open Net Program

/-! ## Requests -/

inductive LinkOp
  | addrList (f : AddrFamily)
  | addrAdd (addr : Addr)
  | addrDel (addr : Addr)

abbrev LinkRes : LinkOp → Type
  | .addrList _ => Except String (List Addr)
  | .addrAdd _ => Except String Unit
  | .addrDel _ => Except String Unit

def addrList (f : AddrFamily) : Proc LinkOp LinkRes (Except String (List Addr)) :=
  ask (LinkOp.addrList f)

def addrAdd (addr : Addr) : Proc LinkOp LinkRes (Except String Unit) :=
  ask (LinkOp.addrAdd addr)

def addrDel (addr : Addr) : Proc LinkOp LinkRes (Except String Unit) :=
  ask (LinkOp.addrDel addr)

def plainAddr (ipNet : IPNet) : Addr :=
  ⟨ipNet, 0, ""⟩

@[simp]
theorem ipNet_plainAddr (ipNet : IPNet) : (plainAddr ipNet).ipNet = ipNet :=
  rfl

def Addr.equal (addr other : Addr) : Bool :=
  addr.ip.equal other.ip && addr.ipNet.ones == other.ipNet.ones

def Addr.string (addr : Addr) : String :=
  if addr.label = "" then addr.ipNet.string else addr.ipNet.string ++ " " ++ addr.label

/-- The loop of `EnsureV4AddressOnLink`, from the addresses that are left and `hasAddr`. -/
def removeWithin (ipn : IP4Net) (addr : Addr) (link : String) :
    List Addr → Bool → Proc LinkOp LinkRes (Except String Bool)
  | [], hasAddr => pure (.ok hasAddr)
  | existingAddr :: ranged, hasAddr =>
    if existingAddr.equal addr then removeWithin ipn addr link ranged true
    else do
      let ip ← deref (fromIP existingAddr.ip)
      if ipn.contains ip then
        attempt
          (wrap (fun err => "failed to remove IP address " ++ existingAddr.string ++ " from " ++ link ++
            ": " ++ err) (addrDel existingAddr))
          fun _ => removeWithin ipn addr link ranged hasAddr
      else removeWithin ipn addr link ranged hasAddr

def ensureV4AddressOnLink (ipa ipn : IP4Net) (link : String) :
    Proc LinkOp LinkRes (Except String Unit) :=
  let addr := plainAddr ipa.toIPNet
  attempt (addrList .inet) fun existingAddrs =>
    attempt (removeWithin ipn addr link existingAddrs false) fun hasAddr =>
      if hasAddr then pure (.ok ())
      else
        wrap (fun err => "failed to add IP address " ++ addr.string ++ " to " ++ link ++ ": " ++ err)
          (addrAdd addr)

/-- The loop of `EnsureV6AddressOnLink` from the addresses left, `existingAddrs` and
`onlyLinkLocal`; `none` for the return inside it. -/
def removeOthers (addr : Addr) (ipn : IP6Net) (link : String) :
    List Addr → List Addr → Bool → Proc LinkOp LinkRes (Except String (Option (List Addr × Bool)))
  | [], existingAddrs, onlyLinkLocal => pure (.ok (some (existingAddrs, onlyLinkLocal)))
  | existingAddr :: ranged, existingAddrs, onlyLinkLocal =>
    if !existingAddr.ip.isLinkLocalUnicast then
      if !existingAddr.equal addr then do
        match ← addrDel existingAddr with
        | .error err =>
          let text ← deref ipn.string
          pure (.error ("failed to remove v6 IP address " ++ text ++ " from " ++ link ++ ": " ++ err))
        | .ok _ => removeOthers addr ipn link ranged [] false
      else pure (.ok none)
    else removeOthers addr ipn link ranged existingAddrs onlyLinkLocal

def ensureV6AddressOnLink (ipa ipn : IP6Net) (link : String) :
    Proc LinkOp LinkRes (Except String Unit) := do
  let ipNet ← deref ipa.toIPNet
  let addr := plainAddr ipNet
  attempt (addrList .inet6) fun existingAddrs =>
    attempt (removeOthers addr ipn link existingAddrs existingAddrs true) fun
      | none => pure (.ok ())
      | some (existingAddrs, onlyLinkLocal) =>
        if (if onlyLinkLocal then [] else existingAddrs).isEmpty then do
          match ← addrAdd addr with
          | .error err =>
            let text ← deref ipn.string
            pure (.error ("failed to add v6 IP address " ++ text ++ " to " ++ link ++ ": " ++ err))
          | .ok _ => pure (.ok ())
        else pure (.ok ())

/-! ## A kernel that does not fail -/

def AddrFamily.lists (f : AddrFamily) (addr : Addr) : Bool :=
  match f, addr.ip with
  | .inet, .v4 _ => true
  | .inet6, .v16 _ => true
  | _, _ => false

def faithful (addrs : List Addr) : (op : LinkOp) → LinkRes op × List Addr
  | .addrList f => (.ok (addrs.filter f.lists), addrs)
  | .addrAdd addr =>
    (.ok (), if addrs.any (·.ipNet == addr.ipNet) then addrs else addrs ++ [addr])
  | .addrDel addr => (.ok (), addrs.filter (·.ipNet != addr.ipNet))

def without (addrs gone : List Addr) : List Addr :=
  addrs.filter fun addr => !(gone.map Addr.ipNet).contains addr.ipNet

@[simp]
theorem without_nil (addrs : List Addr) : without addrs [] = addrs := by
  simp [without]

theorem without_filter (addrs gone : List Addr) (addr : Addr) :
    without (addrs.filter (·.ipNet != addr.ipNet)) gone = without addrs (addr :: gone) := by
  rw [without, without, List.filter_filter]
  congr 1
  funext other
  cases same : other.ipNet == addr.ipNet <;> simp_all

def IP4Net.holds (ipn : IP4Net) (addr : Addr) : Bool :=
  match addr.ip with
  | .v4 bits => ipn.contains bits
  | .v16 _ => false

section Loops

variable {addr : Addr} {link : String} {addrs ranged : List Addr}

theorem exec_attempt_addrDel {α : Type} (f : String → String) (existing : Addr)
    (next : Unit → Proc LinkOp LinkRes (Except String α)) :
    exec faithful addrs (attempt (wrap f (addrDel existing)) next) =
      exec faithful (addrs.filter (·.ipNet != existing.ipNet)) (next ()) :=
  rfl

theorem exec_removeWithin {ipn : IP4Net} (listed : ∀ a ∈ ranged, AddrFamily.inet.lists a)
    (hasAddr : Bool) :
    exec faithful addrs (removeWithin ipn addr link ranged hasAddr) =
      some (.ok (hasAddr || ranged.any (·.equal addr)),
        without addrs (ranged.filter fun a => !a.equal addr && ipn.holds a)) := by
  induction ranged generalizing addrs hasAddr with
  | nil => simp [removeWithin]
  | cons existing ranged ih =>
    have later := fun a mem => listed a (.tail existing mem)
    rw [removeWithin]
    cases isAddr : existing.equal addr with
    | true =>
      rw [if_pos rfl, ih later]
      simp [isAddr]
    | false =>
      have isIPv4 := listed existing (.head _)
      cases isIP : existing.ip with
      | v16 bits => simp [AddrFamily.lists, isIP] at isIPv4
      | v4 bits =>
        have holds : ipn.holds existing = ipn.contains bits := by rw [IP4Net.holds, isIP]
        have fromIP_eq : fromIP (.v4 bits) = some bits := rfl
        rw [if_neg Bool.false_ne_true, fromIP_eq, exec_bind, exec_deref_some, Option.bind_some]
        cases inside : ipn.contains bits with
        | true =>
          rw [if_pos rfl, exec_attempt_addrDel, ih later, without_filter]
          simp [isAddr, holds, inside]
        | false =>
          rw [if_neg Bool.false_ne_true, ih later]
          simp [isAddr, holds, inside]

def isWanted (addr a : Addr) : Bool :=
  !a.ip.isLinkLocalUnicast && a.equal addr

def isUnwanted (addr a : Addr) : Bool :=
  !a.ip.isLinkLocalUnicast && !a.equal addr

def removed (addr : Addr) (ranged : List Addr) : List Addr :=
  (ranged.takeWhile (!isWanted addr ·)).filter (isUnwanted addr)

theorem exec_removeOthers {ipn : IP6Net} (existing : List Addr) (onlyLinkLocal : Bool) :
    exec faithful addrs (removeOthers addr ipn link ranged existing onlyLinkLocal) =
      some (.ok (if ranged.any (isWanted addr) then none
          else some (if ranged.any (isUnwanted addr) then [] else existing,
            onlyLinkLocal && !ranged.any (isUnwanted addr))),
        without addrs (removed addr ranged)) := by
  induction ranged generalizing addrs existing onlyLinkLocal with
  | nil => simp [removeOthers, removed]
  | cons first ranged ih =>
    rw [removeOthers]
    cases isLinkLocal : first.ip.isLinkLocalUnicast with
    | true =>
      rw [if_neg (by simp), ih]
      simp [removed, isWanted, isUnwanted, isLinkLocal]
    | false =>
      rw [if_pos (by simp)]
      cases isAddr : first.equal addr with
      | true =>
        rw [if_neg (by simp)]
        simp [removed, isWanted, isLinkLocal, isAddr]
      | false =>
        rw [if_pos (by simp)]
        change exec faithful (addrs.filter (·.ipNet != first.ipNet))
          (removeOthers addr ipn link ranged [] false) = _
        rw [ih, without_filter]
        simp [removed, isWanted, isUnwanted, isLinkLocal, isAddr]

end Loops

/-! ## The addresses afterwards -/

/-- The addresses after `EnsureV4AddressOnLink`: those of the network are gone, but for the one that is
wanted, and the others are as they were. -/
def EnsuresV4 (ipa ipn : IP4Net) (link : String) (addrs : List Addr) : Prop :=
  ∃ addrs', exec faithful addrs (ensureV4AddressOnLink ipa ipn link) = some (.ok (), addrs') ∧
    (addrs'.filter ipn.holds).map Addr.ipNet = [ipa.toIPNet] ∧
    addrs'.filter (!ipn.holds ·) = addrs.filter (!ipn.holds ·)

def isLinkLocal6 (addr : Addr) : Bool :=
  AddrFamily.inet6.lists addr && addr.ip.isLinkLocalUnicast

def isWide6 (addr : Addr) : Bool :=
  AddrFamily.inet6.lists addr && !addr.ip.isLinkLocalUnicast

def net6 (ip6 : IP6) (length : Nat) : IPNet :=
  ⟨.v16 (BitVec.ofNat 128 ip6), length⟩

/-- The addresses after `EnsureV6AddressOnLink`: only the one that is wanted is not link-local, and the
link-local ones are as they were. -/
def EnsuresV6 (ip6 : IP6) (length : Nat) (ipn : IP6Net) (link : String) (addrs : List Addr) : Prop :=
  ∃ addrs', exec faithful addrs (ensureV6AddressOnLink ⟨some ip6, length⟩ ipn link) =
      some (.ok (), addrs') ∧
    (addrs'.filter isWide6).map Addr.ipNet = [net6 ip6 length] ∧
    addrs'.filter isLinkLocal6 = addrs.filter isLinkLocal6

/-- What is to be ensured can be: the address is not link-local and not a number of four bytes, and only
link-local addresses are listed after it. -/
structure Ensurable (ip6 : IP6) (length : Nat) (addrs : List Addr) : Prop where
  notFourByte : ¬ FourByte ip6
  notLinkLocal : (net6 ip6 length).ip.isLinkLocalUnicast = false
  last : ∀ addr ∈ ((addrs.filter AddrFamily.inet6.lists).dropWhile (·.ipNet != net6 ip6 length)).tail,
    addr.ip.isLinkLocalUnicast = true

section Ensures

variable {link : String} {addrs : List Addr}

theorem filter_without (p : Addr → Bool) (addrs gone : List Addr) :
    (without addrs gone).filter p =
      addrs.filter fun addr => p addr && !(gone.map Addr.ipNet).contains addr.ipNet :=
  List.filter_filter ..

theorem map_filter_ipNet (nodup : (addrs.map Addr.ipNet).Nodup) (net : IPNet) :
    (addrs.filter (·.ipNet == net)).map Addr.ipNet =
      if addrs.any (·.ipNet == net) then [net] else [] := by
  have mapped : (addrs.filter (·.ipNet == net)).map Addr.ipNet =
      (addrs.map Addr.ipNet).filter (· == net) := by
    rw [List.filter_map]
    rfl
  have member : net ∈ addrs.map Addr.ipNet ↔ addrs.any (·.ipNet == net) := by
    simp
  rw [mapped, List.filter_beq]
  by_cases present : addrs.any (·.ipNet == net)
  · rw [if_pos present, List.count_eq_one_of_mem nodup (member.mpr present), List.replicate_one]
  · rw [if_neg present, List.count_eq_zero_of_not_mem (member.not.mpr present), List.replicate_zero]

theorem faithful_addrAdd {addr : Addr} (absent : ∀ a ∈ addrs, a.ipNet ≠ addr.ipNet) :
    (faithful addrs (.addrAdd addr)).2 = addrs ++ [addr] := by
  have notAny : ¬ addrs.any (·.ipNet == addr.ipNet) := by
    simpa using absent
  exact if_neg notAny

theorem equal_iff_of_inet {addr : Addr} (listed : AddrFamily.inet.lists addr) (ipa : IP4Net) :
    addr.equal (plainAddr ipa.toIPNet) ↔ addr.ipNet = ipa.toIPNet := by
  obtain ⟨⟨ip, ones⟩, flags, label⟩ := addr
  cases ip with
  | v16 bits => cases listed
  | v4 bits =>
    have injective : Net.IP.mapped bits = Net.IP.mapped ipa.ip ↔ bits = ipa.ip := by
      constructor
      · intro same
        have read := congrArg (fun bits => (Net.IP.v16 bits).to4) same
        simpa only [to4_mapped, Option.some.injEq] using read
      · exact congrArg _
    simp [Addr.equal, plainAddr, Addr.ip, IP4Net.toIPNet, IP4.toIP, Net.IP.equal_iff, Net.IP.to16, injective]

def removed4 (ipa ipn : IP4Net) (addrs : List Addr) : List Addr :=
  (addrs.filter AddrFamily.inet.lists).filter fun a => !a.equal (plainAddr ipa.toIPNet) && ipn.holds a

theorem lists_of_holds {ipn : IP4Net} {addr : Addr} (holds : ipn.holds addr) :
    AddrFamily.inet.lists addr := by
  unfold IP4Net.holds at holds
  unfold AddrFamily.lists
  cases isIP : addr.ip with
  | v4 bits => rfl
  | v16 bits => simp [isIP] at holds

theorem mem_removed4_iff {ipa ipn : IP4Net} {addr : Addr} (mem : addr ∈ addrs) :
    addr.ipNet ∈ (removed4 ipa ipn addrs).map Addr.ipNet ↔
      ipn.holds addr ∧ addr.ipNet ≠ ipa.toIPNet := by
  have isRemoved : ∀ a, a ∈ removed4 ipa ipn addrs ↔
      a ∈ addrs ∧ ipn.holds a ∧ a.ipNet ≠ ipa.toIPNet := by
    intro a
    simp only [removed4, List.mem_filter, Bool.and_eq_true, Bool.not_eq_true']
    constructor
    · rintro ⟨⟨memA, listed⟩, differs, holds⟩
      exact ⟨memA, holds, fun same => Bool.eq_false_iff.mp differs ((equal_iff_of_inet listed ipa).mpr same)⟩
    · rintro ⟨memA, holds, differs⟩
      have listed := lists_of_holds holds
      exact ⟨⟨memA, listed⟩, Bool.eq_false_iff.mpr ((equal_iff_of_inet listed ipa).not.mpr differs), holds⟩
  constructor
  · intro memNet
    obtain ⟨gone, isGone, same⟩ := List.mem_map.mp memNet
    obtain ⟨_, holds, differs⟩ := (isRemoved gone).mp isGone
    refine ⟨?_, same ▸ differs⟩
    rwa [IP4Net.holds, Addr.ip, ← same]
  · rintro ⟨holds, differs⟩
    exact List.mem_map_of_mem ((isRemoved addr).mpr ⟨mem, holds, differs⟩)

theorem exec_ensureV4AddressOnLink (ipa ipn : IP4Net) :
    exec faithful addrs (ensureV4AddressOnLink ipa ipn link) =
      some (.ok (),
        if addrs.any (·.ipNet == ipa.toIPNet) then without addrs (removed4 ipa ipn addrs)
        else without addrs (removed4 ipa ipn addrs) ++ [plainAddr ipa.toIPNet]) := by
  have listed : ∀ a ∈ addrs.filter AddrFamily.inet.lists, AddrFamily.inet.lists a :=
    fun a mem => (List.mem_filter.mp mem).2
  have found : (addrs.filter AddrFamily.inet.lists).any (·.equal (plainAddr ipa.toIPNet)) =
      addrs.any (·.ipNet == ipa.toIPNet) := by
    rw [Bool.eq_iff_iff, List.any_eq_true, List.any_eq_true]
    constructor
    · rintro ⟨addr, mem, isAddr⟩
      exact ⟨addr, (List.mem_filter.mp mem).1, beq_iff_eq.mpr ((equal_iff_of_inet (listed addr mem) ipa).mp isAddr)⟩
    · rintro ⟨addr, mem, isNet⟩
      have isIP : addr.ip = .v4 ipa.ip := congrArg IPNet.ip (beq_iff_eq.mp isNet)
      have isIPv4 : AddrFamily.inet.lists addr := by simp [AddrFamily.lists, isIP]
      exact ⟨addr, List.mem_filter.mpr ⟨mem, isIPv4⟩,
        (equal_iff_of_inet isIPv4 ipa).mpr (beq_iff_eq.mp isNet)⟩
  change exec faithful addrs (attempt (removeWithin ipn (plainAddr ipa.toIPNet) link
    (addrs.filter AddrFamily.inet.lists) false) _) = _
  rw [attempt, exec_bind, exec_removeWithin listed, Option.bind_some, found, Bool.false_or]
  by_cases present : addrs.any (·.ipNet == ipa.toIPNet)
  · rw [if_pos present]
    dsimp only
    rw [if_pos present]
    rfl
  · have absent : ∀ a ∈ without addrs (removed4 ipa ipn addrs), a.ipNet ≠ ipa.toIPNet := by
      intro a mem isNet
      exact present (List.any_eq_true.mpr ⟨a, (List.mem_filter.mp mem).1, beq_iff_eq.mpr isNet⟩)
    rw [if_neg present, ← @faithful_addrAdd _ (plainAddr ipa.toIPNet) absent]
    dsimp only
    rw [if_neg present]
    rfl

theorem ensuresV4 {ipa ipn : IP4Net} (inside : ipn.contains ipa.ip)
    (nodup : (addrs.map Addr.ipNet).Nodup) : EnsuresV4 ipa ipn link addrs := by
  have holdsNet : ∀ addr : Addr, addr.ipNet = ipa.toIPNet → ipn.holds addr := by
    intro addr isNet
    rw [IP4Net.holds, Addr.ip, isNet]
    exact inside
  have gone : ∀ addr ∈ addrs, (!((removed4 ipa ipn addrs).map Addr.ipNet).contains addr.ipNet) =
      !(ipn.holds addr && addr.ipNet != ipa.toIPNet) := by
    intro addr mem
    refine congrArg (!·) (Bool.eq_iff_iff.mpr ?_)
    rw [List.contains_iff_mem, mem_removed4_iff mem]
    simp
  have within : (without addrs (removed4 ipa ipn addrs)).filter ipn.holds =
      addrs.filter (·.ipNet == ipa.toIPNet) := by
    rw [filter_without]
    refine List.filter_congr fun addr mem => ?_
    rw [gone addr mem]
    cases isNet : addr.ipNet == ipa.toIPNet with
    | true => simp [holdsNet addr (beq_iff_eq.mp isNet), bne, isNet]
    | false => cases ipn.holds addr <;> simp [bne, isNet]
  have outside : (without addrs (removed4 ipa ipn addrs)).filter (!ipn.holds ·) =
      addrs.filter (!ipn.holds ·) := by
    rw [filter_without]
    refine List.filter_congr fun addr mem => ?_
    rw [gone addr mem]
    cases ipn.holds addr <;> rfl
  refine ⟨_, exec_ensureV4AddressOnLink ipa ipn, ?_⟩
  by_cases present : addrs.any (·.ipNet == ipa.toIPNet)
  · rw [if_pos present, within, map_filter_ipNet nodup, if_pos present]
    exact ⟨rfl, outside⟩
  · have holdsAddr : ipn.holds (plainAddr ipa.toIPNet) := holdsNet _ rfl
    rw [if_neg present, List.filter_append, List.filter_append, within, outside, List.map_append,
      map_filter_ipNet nodup, if_neg present, List.filter_cons_of_pos holdsAddr]
    simp [holdsAddr]

def listed6 (addrs : List Addr) : List Addr :=
  addrs.filter AddrFamily.inet6.lists

def after6 (addr : Addr) (addrs : List Addr) : List Addr :=
  let left := without addrs (removed addr (listed6 addrs))
  if (listed6 addrs).any (isWanted addr) then left else (faithful left (.addrAdd addr)).2

theorem exec_ensureV6AddressOnLink {ip6 : IP6} (small : ip6 < 2 ^ 128) (length : Nat) (ipn : IP6Net) :
    exec faithful addrs (ensureV6AddressOnLink ⟨some ip6, length⟩ ipn link) =
      some (.ok (), after6 (plainAddr ⟨IP6.ofBits (BitVec.ofNat 128 ip6), length⟩) addrs) := by
  have isNet : (⟨some ip6, length⟩ : IP6Net).toIPNet =
      some ⟨IP6.ofBits (BitVec.ofNat 128 ip6), length⟩ := by
    rw [IP6Net.toIPNet, Option.bind_some, IP6.toIP, if_pos small]
    rfl
  rw [ensureV6AddressOnLink, isNet, exec_bind, exec_deref_some, Option.bind_some]
  generalize plainAddr ⟨IP6.ofBits (BitVec.ofNat 128 ip6), length⟩ = addr
  change exec faithful addrs (attempt (removeOthers addr ipn link (listed6 addrs) (listed6 addrs) true) _) = _
  rw [attempt, exec_bind, exec_removeOthers, Option.bind_some, after6]
  by_cases present : (listed6 addrs).any (isWanted addr)
  · rw [if_pos present, if_pos present]
    rfl
  · rw [if_neg present, if_neg present]
    cases unwanted : (listed6 addrs).any (isUnwanted addr) <;> rfl

theorem isWanted_iff {addr a : Addr} :
    isWanted addr a ↔ a.ip.isLinkLocalUnicast = false ∧ a.equal addr := by
  simp [isWanted]

theorem isUnwanted_iff {addr a : Addr} :
    isUnwanted addr a ↔ a.ip.isLinkLocalUnicast = false ∧ a.equal addr = false := by
  simp [isUnwanted]

theorem isWide6_iff {a : Addr} :
    isWide6 a ↔ AddrFamily.inet6.lists a ∧ a.ip.isLinkLocalUnicast = false := by
  simp [isWide6]

theorem ip_eq_of_ipNet_eq {a b : Addr} (same : a.ipNet = b.ipNet) : a.ip = b.ip :=
  congrArg IPNet.ip same

theorem filter_isLinkLocal6_without (addr : Addr) :
    (without addrs (removed addr (listed6 addrs))).filter isLinkLocal6 = addrs.filter isLinkLocal6 := by
  rw [filter_without]
  refine List.filter_congr fun a _ => ?_
  cases isLinkLocal : isLinkLocal6 a with
  | false => rfl
  | true =>
    have kept : a.ipNet ∉ (removed addr (listed6 addrs)).map Addr.ipNet := by
      intro mem
      obtain ⟨gone, isGone, same⟩ := List.mem_map.mp mem
      have notLinkLocal := (isUnwanted_iff.mp (List.mem_filter.mp isGone).2).1
      rw [isLinkLocal6, ← ip_eq_of_ipNet_eq same, notLinkLocal, Bool.and_false] at isLinkLocal
      cases isLinkLocal
    simpa using kept

theorem filter_isWide6_without (nodup : (addrs.map Addr.ipNet).Nodup) (addr : Addr) :
    (without addrs (removed addr (listed6 addrs))).filter isWide6 =
      ((listed6 addrs).dropWhile (!isWanted addr ·)).filter isWide6 := by
  have ofListed : (without addrs (removed addr (listed6 addrs))).filter isWide6 =
      (without (listed6 addrs) (removed addr (listed6 addrs))).filter isWide6 := by
    rw [filter_without, filter_without, listed6, List.filter_filter]
    refine List.filter_congr fun a _ => ?_
    cases listed : AddrFamily.inet6.lists a <;> simp [isWide6, listed]
  have split := List.takeWhile_append_dropWhile (p := (!isWanted addr ·)) (l := listed6 addrs)
  have nodupListed : ((listed6 addrs).map Addr.ipNet).Nodup :=
    (List.filter_sublist.map _).nodup nodup
  rw [← split, List.map_append, List.nodup_append] at nodupListed
  obtain ⟨_, _, disjoint⟩ := nodupListed
  -- Before the wanted address everything wide is unwanted, and deleted.
  have before : (((listed6 addrs).takeWhile (!isWanted addr ·)).filter fun a =>
      isWide6 a && !((removed addr (listed6 addrs)).map Addr.ipNet).contains a.ipNet) = [] := by
    refine List.filter_eq_nil_iff.mpr fun a mem kept => ?_
    obtain ⟨wide, kept⟩ := Bool.and_eq_true .. ▸ kept
    have notLinkLocal := (isWide6_iff.mp wide).2
    have notWanted : isWanted addr a = false := by simpa using List.mem_takeWhile_imp mem
    have unwanted : isUnwanted addr a := by
      rw [isUnwanted_iff]
      rw [isWanted, notLinkLocal, Bool.not_false, Bool.true_and] at notWanted
      exact ⟨notLinkLocal, notWanted⟩
    have isRemoved : a.ipNet ∈ (removed addr (listed6 addrs)).map Addr.ipNet :=
      List.mem_map_of_mem (List.mem_filter.mpr ⟨mem, unwanted⟩)
    simp [isRemoved] at kept
  have after : (((listed6 addrs).dropWhile (!isWanted addr ·)).filter fun a =>
      isWide6 a && !((removed addr (listed6 addrs)).map Addr.ipNet).contains a.ipNet) =
      ((listed6 addrs).dropWhile (!isWanted addr ·)).filter isWide6 := by
    refine List.filter_congr fun a mem => ?_
    have kept : a.ipNet ∉ (removed addr (listed6 addrs)).map Addr.ipNet := by
      intro isRemoved
      obtain ⟨gone, isGone, same⟩ := List.mem_map.mp isRemoved
      exact disjoint gone.ipNet (List.mem_map_of_mem (List.mem_filter.mp isGone).1) a.ipNet
        (List.mem_map_of_mem mem) same
    simp [kept]
  rw [ofListed, filter_without]
  calc
    _ = ((listed6 addrs).takeWhile (!isWanted addr ·) ++
          (listed6 addrs).dropWhile (!isWanted addr ·)).filter (fun a =>
        isWide6 a && !((removed addr (listed6 addrs)).map Addr.ipNet).contains a.ipNet) := by rw [split]
    _ = _ := by rw [List.filter_append, before, after, List.nil_append]

theorem equal_iff_of_inet6 {a : Addr} (listed : AddrFamily.inet6.lists a) (ip6 : IP6)
    (length : Nat) : a.equal (plainAddr (net6 ip6 length)) ↔ a.ipNet = net6 ip6 length := by
  obtain ⟨⟨ip, ones⟩, flags, label⟩ := a
  cases ip with
  | v4 bits => cases listed
  | v16 bits => simp [Addr.equal, plainAddr, Addr.ip, net6, Net.IP.equal_iff, Net.IP.to16]

theorem dropWhile_congr {p q : Addr → Bool} {xs : List Addr} (same : ∀ x ∈ xs, p x = q x) :
    xs.dropWhile p = xs.dropWhile q := by
  induction xs with
  | nil => rfl
  | cons x xs ih =>
    rw [List.dropWhile_cons, List.dropWhile_cons, same x (.head _),
      ih fun y mem => same y (.tail x mem)]

theorem ensures_after6_iff (nodup : (addrs.map Addr.ipNet).Nodup) {ip6 : IP6} {length : Nat}
    (notLinkLocal : (net6 ip6 length).ip.isLinkLocalUnicast = false) :
    (((after6 (plainAddr (net6 ip6 length)) addrs).filter isWide6).map Addr.ipNet = [net6 ip6 length] ∧
      (after6 (plainAddr (net6 ip6 length)) addrs).filter isLinkLocal6 = addrs.filter isLinkLocal6) ↔
    ∀ a ∈ ((listed6 addrs).dropWhile (·.ipNet != net6 ip6 length)).tail,
      a.ip.isLinkLocalUnicast := by
  have wanted : ∀ a ∈ listed6 addrs,
      isWanted (plainAddr (net6 ip6 length)) a = (a.ipNet == net6 ip6 length) := by
    intro a mem
    have isAddr := equal_iff_of_inet6 (List.mem_filter.mp mem).2 ip6 length
    rw [Bool.eq_iff_iff, isWanted_iff, isAddr, beq_iff_eq]
    exact and_iff_right_of_imp fun same => (ip_eq_of_ipNet_eq (b := plainAddr _) same) ▸ notLinkLocal
  have isDrop : (listed6 addrs).dropWhile (!isWanted (plainAddr (net6 ip6 length)) ·) =
      (listed6 addrs).dropWhile (·.ipNet != net6 ip6 length) :=
    dropWhile_congr fun a mem => congrArg (!·) (wanted a mem)
  have wide := filter_isWide6_without nodup (plainAddr (net6 ip6 length))
  rw [isDrop] at wide
  have linkLocal := @filter_isLinkLocal6_without addrs (plainAddr (net6 ip6 length))
  cases dropped : (listed6 addrs).dropWhile (·.ipNet != net6 ip6 length) with
  | nil =>
    have absent : ∀ a ∈ listed6 addrs, a.ipNet ≠ net6 ip6 length := by
      simpa using List.dropWhile_eq_nil_iff.mp dropped
    have notAny : ¬ (listed6 addrs).any (isWanted (plainAddr (net6 ip6 length))) := by
      rw [List.any_eq_true]
      rintro ⟨a, mem, isWanted⟩
      exact absent a mem (beq_iff_eq.mp (wanted a mem ▸ isWanted))
    have added : after6 (plainAddr (net6 ip6 length)) addrs =
        without addrs (removed (plainAddr (net6 ip6 length)) (listed6 addrs)) ++
          [plainAddr (net6 ip6 length)] := by
      rw [after6, if_neg notAny, faithful_addrAdd]
      intro a mem isNet
      have isIP : a.ip = .v16 (BitVec.ofNat 128 ip6) := congrArg IPNet.ip isNet
      have listed : AddrFamily.inet6.lists a := by simp [AddrFamily.lists, isIP]
      exact absent a (List.mem_filter.mpr ⟨(List.mem_filter.mp mem).1, listed⟩) isNet
    have isWide : isWide6 (plainAddr (net6 ip6 length)) :=
      isWide6_iff.mpr ⟨rfl, notLinkLocal⟩
    have notLocal : isLinkLocal6 (plainAddr (net6 ip6 length)) = false := by
      rw [isLinkLocal6, Addr.ip, ipNet_plainAddr, notLinkLocal, Bool.and_false]
    refine iff_of_true ⟨?_, ?_⟩ nofun
    · rw [added, List.filter_append, wide, dropped, List.filter_nil, List.nil_append,
        List.filter_cons_of_pos isWide]
      rfl
    · rw [added, List.filter_append, linkLocal, List.filter_cons_of_neg (by simp [notLocal])]
      simp
  | cons first rest =>
    have isNet : first.ipNet = net6 ip6 length := by
      have stops := List.head?_dropWhile_not (·.ipNet != net6 ip6 length) (listed6 addrs)
      simpa [dropped] using stops
    have subset : first :: rest ⊆ listed6 addrs :=
      dropped ▸ (List.dropWhile_sublist _).subset
    have listed : ∀ a ∈ first :: rest, AddrFamily.inet6.lists a :=
      fun a mem => (List.mem_filter.mp (subset mem)).2
    have memFirst := subset (.head _)
    have any : (listed6 addrs).any (isWanted (plainAddr (net6 ip6 length))) :=
      List.any_eq_true.mpr ⟨first, memFirst, (wanted first memFirst).trans (beq_iff_eq.mpr isNet)⟩
    have isWide : isWide6 first := by
      refine isWide6_iff.mpr ⟨listed first (.head _), ?_⟩
      rw [Addr.ip, isNet, notLinkLocal]
    rw [after6, if_pos any, wide, dropped, List.filter_cons_of_pos isWide, List.map_cons, isNet,
      and_iff_left linkLocal, List.cons_eq_cons, and_iff_right rfl, List.map_eq_nil_iff,
      List.filter_eq_nil_iff, List.tail_cons]
    refine forall₂_congr fun a mem => ?_
    rw [isWide6_iff, listed a (.tail first mem)]
    simp

theorem not_ensures_after6_of_v4 (nodup : (addrs.map Addr.ipNet).Nodup) {ip6 : IP6} {length : Nat}
    {low : BitVec 32} (differ : BitVec.ofNat 128 ip6 ≠ Net.IP.mapped low) :
    ((after6 (plainAddr ⟨.v4 low, length⟩) addrs).filter isWide6).map Addr.ipNet ≠
      [net6 ip6 length] := by
  have notWide : ¬ isWide6 (plainAddr ⟨.v4 low, length⟩) := Bool.false_ne_true
  have left : (after6 (plainAddr ⟨.v4 low, length⟩) addrs).filter isWide6 =
      ((listed6 addrs).dropWhile (!isWanted (plainAddr ⟨.v4 low, length⟩) ·)).filter isWide6 := by
    rw [← filter_isWide6_without nodup, after6]
    dsimp only [faithful]
    split
    · rfl
    · split
      · rfl
      · rw [List.filter_append, List.filter_cons_of_neg notWide, List.filter_nil, List.append_nil]
  rw [left]
  cases dropped : (listed6 addrs).dropWhile (!isWanted (plainAddr ⟨.v4 low, length⟩) ·) with
  | nil => exact nofun
  | cons first rest =>
    have wanted : isWanted (plainAddr ⟨.v4 low, length⟩) first := by
      have stops := List.head?_dropWhile_not (!isWanted (plainAddr ⟨.v4 low, length⟩) ·) (listed6 addrs)
      simpa [dropped] using stops
    obtain ⟨notLinkLocal, isAddr⟩ := isWanted_iff.mp wanted
    have mem : first ∈ listed6 addrs :=
      (List.dropWhile_sublist _).subset (dropped ▸ List.mem_cons_self)
    have isWide : isWide6 first := isWide6_iff.mpr ⟨(List.mem_filter.mp mem).2, notLinkLocal⟩
    rw [List.filter_cons_of_pos isWide, List.map_cons]
    intro isOnly
    have isIP : first.ip = .v16 (BitVec.ofNat 128 ip6) :=
      congrArg IPNet.ip (List.cons_eq_cons.mp isOnly).1
    have same := Net.IP.equal_iff.mp (Bool.and_eq_true .. ▸ isAddr).1
    rw [isIP] at same
    exact differ same

theorem ensuresV6_iff (nodup : (addrs.map Addr.ipNet).Nodup) {ip6 : IP6} (small : ip6 < 2 ^ 128)
    (length : Nat) (ipn : IP6Net) :
    EnsuresV6 ip6 length ipn link addrs ↔ Ensurable ip6 length addrs := by
  have isResult : EnsuresV6 ip6 length ipn link addrs ↔
      (((after6 (plainAddr ⟨IP6.ofBits (BitVec.ofNat 128 ip6), length⟩) addrs).filter isWide6).map
          Addr.ipNet = [net6 ip6 length] ∧
        (after6 (plainAddr ⟨IP6.ofBits (BitVec.ofNat 128 ip6), length⟩) addrs).filter isLinkLocal6 =
          addrs.filter isLinkLocal6) := by
    rw [EnsuresV6, exec_ensureV6AddressOnLink small]
    simp
  have toNat : (BitVec.ofNat 128 ip6).toNat = ip6 := by
    rw [BitVec.toNat_ofNat, Nat.mod_eq_of_lt small]
  rw [isResult]
  by_cases fourByte : FourByte ip6
  · refine iff_of_false (fun ensures => ?_) fun ensurable => ensurable.notFourByte fourByte
    have range := fourByte
    rw [FourByte] at range
    rw [IP6.ofBits, toNat, if_pos range] at ensures
    refine not_ensures_after6_of_v4 nodup ?_ ensures.1
    intro same
    have number := congrArg BitVec.toNat same
    rw [toNat_mapped, toNat] at number
    omega
  · have isNet : (⟨IP6.ofBits (BitVec.ofNat 128 ip6), length⟩ : IPNet) = net6 ip6 length := by
      have range := fourByte
      rw [FourByte] at range
      rw [IP6.ofBits, toNat, if_neg range]
      rfl
    rw [isNet]
    cases notLinkLocal : (net6 ip6 length).ip.isLinkLocalUnicast with
    | true =>
      refine iff_of_false (fun ensures => ?_) fun ensurable => ?_
      · obtain ⟨a, mem, isNet⟩ := List.mem_map.mp (ensures.1 ▸ List.mem_singleton_self (net6 ip6 length))
        have wide := (isWide6_iff.mp (List.mem_filter.mp mem).2).2
        rw [Addr.ip, isNet, notLinkLocal] at wide
        cases wide
      · rw [ensurable.notLinkLocal] at notLinkLocal
        cases notLinkLocal
    | false =>
      rw [ensures_after6_iff nodup notLinkLocal]
      exact ⟨fun last => ⟨fourByte, notLinkLocal, last⟩, Ensurable.last⟩

/-- `EnsureV4AddressOnLink` always reaches its postcondition; `EnsureV6AddressOnLink` does if it can. -/
theorem ensures_iff {ipa ipn : IP4Net} (inside : ipn.contains ipa.ip = true) {ip6 : IP6}
    (small : ip6 < 2 ^ 128) (nodup : (addrs.map Addr.ipNet).Nodup) (length : Nat) (ipn6 : IP6Net) :
    EnsuresV4 ipa ipn link addrs ∧ EnsuresV6 ip6 length ipn6 link addrs ↔
      Ensurable ip6 length addrs := by
  rw [ensuresV6_iff nodup small]
  exact and_iff_right (ensuresV4 inside nodup)

end Ensures

def usedLink : List Addr :=
  [plainAddr ⟨.v4 0x0af40100, 24⟩, plainAddr (net6 0xfe800000000000000000000000000001 64),
    plainAddr (net6 0x20010db8000000000000000000000009 64),
    plainAddr (net6 0x20010db8000000000000000000000001 64)]

theorem ensures_of_old_first :
    EnsuresV4 ⟨0x0af40101, 32⟩ ⟨0x0af40000, 16⟩ "flannel.1" usedLink ∧
      EnsuresV6 0x20010db8000000000000000000000001 64 ⟨some 0x20010db8000000000000000000000000, 32⟩
        "flannel.1" usedLink := by
  have ensurable : Ensurable 0x20010db8000000000000000000000001 64 usedLink :=
    ⟨fun fourByte => absurd fourByte.2 (by decide), by decide, by decide⟩
  have inside : (⟨0x0af40000, 16⟩ : IP4Net).contains (⟨0x0af40101, 32⟩ : IP4Net).ip := by decide
  have nodup : (usedLink.map Addr.ipNet).Nodup := by decide
  have small : (0x20010db8000000000000000000000001 : IP6) < 2 ^ 128 := by decide
  have both := @ensures_iff "flannel.1" usedLink _ _ inside _ small nodup 64
    ⟨some 0x20010db8000000000000000000000000, 32⟩
  exact both.mpr ensurable

/-- An address that is listed after the one that is wanted stays. -/
theorem not_ensures_of_old_last :
    ¬ (EnsuresV4 ⟨0x0af40101, 32⟩ ⟨0x0af40000, 16⟩ "flannel.1" usedLink.reverse ∧
      EnsuresV6 0x20010db8000000000000000000000001 64 ⟨some 0x20010db8000000000000000000000000, 32⟩
        "flannel.1" usedLink.reverse) := by
  rintro ⟨_, ensures⟩
  have last := ((ensuresV6_iff (by decide) (by decide) 64 _).mp ensures).last
  revert last
  decide

end Flannel.Ip
