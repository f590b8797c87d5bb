import Flannel.Program.Crash
import Flannel.Traffic.IPTables

/-!
# Setting up and cleaning up the rules of both families

`SetupAndEnsureForwardRules`, `SetupAndEnsureMasqRules` and `CleanUp`. Comparing and printing IPv6
networks may panic. The loops that check the rules again every few seconds are left out.
-/

namespace Flannel.Traffic

open Flannel.Filter Ip Leases Program

/-! ## Requests -/

inductive FamilyCall
  | new (family : Family)
  | newRestore (family : Family)
  /-- `HasRandomFully`; false if there is no iptables. -/
  | hasRandomFully (family : Family)
  | tables (family : Family) (call : Call)
  deriving DecidableEq

abbrev FamilyRes : FamilyCall → Type
  | .new _ => Except String Unit
  | .newRestore _ => Except String Unit
  | .hasRandomFully _ => Bool
  | .tables _ call => Res call

abbrev FamilyAction := Proc FamilyCall FamilyRes

abbrev familyCall (call : FamilyCall) : FamilyAction (FamilyRes call) :=
  ask call

def onFamily {α : Type} (family : Family) : Action α → FamilyAction α
  | .ret result => .ret result
  | .call call rest => .call (.inr (.tables family call)) fun answer => onFamily family (rest answer)

/-! ## The source functions -/

def createChain (family : Family) (table chain : String) : FamilyAction Unit := do
  match ← familyCall (.new family) with
  | .error _ => pure ()
  | .ok _ =>
    let _ ← familyCall (.tables family (.clearChain table chain))
    pure ()

def createIP4Chain : String → String → FamilyAction Unit :=
  createChain .ipv4

def createIP6Chain : String → String → FamilyAction Unit :=
  createChain .ipv6

def setupAndEnsureTables (family : Family) (rules : List IPTablesRule) : FamilyAction Unit := do
  match ← familyCall (.new family) with
  | .error _ => pure ()
  | .ok _ =>
    match ← familyCall (.newRestore family) with
    | .error _ => pure ()
    | .ok _ =>
      let _ ← onFamily family (ipTablesBootstrap rules)
      pure ()

def setupAndEnsureIP4Tables : List IPTablesRule → FamilyAction Unit :=
  setupAndEnsureTables .ipv4

def setupAndEnsureIP6Tables : List IPTablesRule → FamilyAction Unit :=
  setupAndEnsureTables .ipv6

def deleteTables (family : Family) (rules : List IPTablesRule) : FamilyAction (Option String) := do
  match ← familyCall (.new family) with
  | .error err => pure (some err)
  | .ok _ =>
    match ← familyCall (.newRestore family) with
    | .error err => pure (some err)
    | .ok _ =>
      match ← onFamily family (teardownIPTables rules) with
      | .error err => pure (some err)
      | .ok _ => pure none

def forwardIPv4 (flannelIPv4Network : IP4Net) : FamilyAction Unit :=
  if flannelIPv4Network.empty then pure ()
  else do
    createIP4Chain "filter" "FLANNEL-FWD"
    setupAndEnsureIP4Tables (forwardRules flannelIPv4Network.string)

def forwardIPv6 (flannelIPv6Network : IP6Net) : FamilyAction Unit :=
  if flannelIPv6Network.empty then pure ()
  else do
    createIP6Chain "filter" "FLANNEL-FWD"
    let network ← deref flannelIPv6Network.string
    setupAndEnsureIP6Tables (forwardRules network)

def setupAndEnsureForwardRules (flannelIPv4Network : IP4Net) (flannelIPv6Network : IP6Net) :
    FamilyAction Unit := do
  forwardIPv4 flannelIPv4Network
  forwardIPv6 flannelIPv6Network

def leaseOf (subnet : IP4Net) (ipv6Subnet : IP6Net) : Lease :=
  ⟨false, false, subnet, ipv6Subnet, LeaseAttrs.zero, 0, 0⟩

def recycleMasqRules (family : Family) (recycle : Bool)
    (previous : Bool → FamilyAction (List IPTablesRule)) : FamilyAction (Option String) :=
  if recycle then do
    let supports ← familyCall (.hasRandomFully family)
    deleteTables family (← previous supports)
  else pure none

def replaceMasqRules (family : Family) (recycle : Bool)
    (previous current : Bool → FamilyAction (List IPTablesRule)) : FamilyAction (Option String) := do
  match ← recycleMasqRules family recycle previous with
  | some err => pure (some err)
  | none =>
    createChain family "nat" "FLANNEL-POSTRTG"
    let supports ← familyCall (.hasRandomFully family)
    setupAndEnsureTables family (← current supports)
    pure none

structure MasqInput where
  flannelIPv4Net : IP4Net
  prevSubnet : IP4Net
  prevNetwork : IP4Net
  flannelIPv6Net : IP6Net
  prevIPv6Subnet : IP6Net
  prevIPv6Network : IP6Net
  currentlease : Lease
  ipMasqRandomFullyDisable : Bool

namespace MasqInput

variable (input : MasqInput)

def setupIPv4 : FamilyAction (Option String) :=
  if input.flannelIPv4Net.empty then pure none
  else
    replaceMasqRules .ipv4
      (!input.flannelIPv4Net.equal input.prevNetwork ||
        !input.prevSubnet.equal input.currentlease.subnet)
      (fun supports => pure (masqRules input.prevNetwork (leaseOf input.prevSubnet IP6Net.zero) supports
        input.ipMasqRandomFullyDisable))
      (fun supports => pure (masqRules input.flannelIPv4Net input.currentlease supports
        input.ipMasqRandomFullyDisable))

def sameIPv6 : FamilyAction Bool := do
  if ← deref (input.flannelIPv6Net.equal input.prevIPv6Network) then
    deref (input.prevIPv6Subnet.equal input.currentlease.ipv6Subnet)
  else pure false

def setupIPv6 : FamilyAction (Option String) :=
  if input.flannelIPv6Net.empty then pure none
  else do
    let same ← input.sameIPv6
    replaceMasqRules .ipv6 (!same)
      (fun supports => deref (masqIP6Rules input.prevIPv6Network
        (leaseOf ⟨0, 0⟩ input.prevIPv6Subnet) supports input.ipMasqRandomFullyDisable))
      (fun supports => deref (masqIP6Rules input.flannelIPv6Net input.currentlease supports
        input.ipMasqRandomFullyDisable))

def setupAndEnsureMasqRules : FamilyAction (Option String) := do
  match ← input.setupIPv4 with
  | some err => pure (some err)
  | none => input.setupIPv6

end MasqInput

def cleanUp : FamilyAction (Option String) := do
  match ← familyCall (.new .ipv4) with
  | .error err => pure (some ("failed to setup IPTables. iptables binary was not found: " ++ err))
  | .ok _ =>
    let _ ← familyCall (.tables .ipv4 (.clearAndDeleteChain "nat" "FLANNEL-POSTRTG"))
    let _ ← familyCall (.tables .ipv4 (.clearAndDeleteChain "nat" "FLANNEL-FWD"))
    match ← familyCall (.new .ipv6) with
    | .error err => pure (some ("failed to setup IPTables. ip6tables binary was not found: " ++ err))
    | .ok _ =>
      let _ ← familyCall (.tables .ipv6 (.clearAndDeleteChain "nat" "FLANNEL-POSTRTG"))
      let _ ← familyCall (.tables .ipv6 (.clearAndDeleteChain "nat" "FLANNEL-FWD"))
      pure none

def setup (masqFirst : Bool) (input : MasqInput) : FamilyAction (Option String) := do
  if masqFirst then
    match ← input.setupAndEnsureMasqRules with
    | some err => pure (some err)
    | none =>
      setupAndEnsureForwardRules input.flannelIPv4Net input.flannelIPv6Net
      pure none
  else
    setupAndEnsureForwardRules input.flannelIPv4Net input.flannelIPv6Net
    input.setupAndEnsureMasqRules

/-! ## The tables of both families -/

structure FamilyTables where
  ipv4 : Tables
  ipv6 : Tables

namespace FamilyTables

def get (host : FamilyTables) : Family → Tables
  | .ipv4 => host.ipv4
  | .ipv6 => host.ipv6

def set (host : FamilyTables) (t : Tables) : Family → FamilyTables
  | .ipv4 => { host with ipv4 := t }
  | .ipv6 => { host with ipv6 := t }

def answer (supports : Family → Bool) (host : FamilyTables) :
    (call : FamilyCall) → FamilyRes call × FamilyTables
  | .new _ => (.ok (), host)
  | .newRestore _ => (.ok (), host)
  | .hasRandomFully family => (supports family, host)
  | .tables family call =>
    ((Traffic.answer (host.get family) call).1,
      host.set (Traffic.answer (host.get family) call).2 family)

end FamilyTables

def flannelChains : List String :=
  ["FLANNEL-FWD", "FLANNEL-POSTRTG"]

structure Clean (t : Tables) : Prop where
  chains : ∀ table, ∀ name ∈ flannelChains, t.has (table, name) = false
  rules : ∀ chain, ∀ rulespec ∈ t.contents chain, target chain rulespec = none

/-- Nothing of flannel is left, and all other chains are as they were. -/
def Undone (before after : FamilyTables) : Prop :=
  ∀ family, Clean (after.get family) ∧ ∀ chain, chain.2 ∉ flannelChains →
    (after.get family).rules? chain = (before.get family).rules? chain

/-! ## The chain that nobody deletes -/

def FamilyCall.KeepsFilter : FamilyCall → Prop
  | .tables _ (.clearAndDeleteChain table _) => table ≠ "filter"
  | _ => True

/-- Programs whose calls take no chain of the table `filter` away. -/
abbrev KeepsFilter {α : Type} (program : FamilyAction α) : Prop :=
  Within (Sum.elim (fun _ => True) FamilyCall.KeepsFilter) program

section Keeps

theorem keepsFilter_call {call : FamilyCall} (keeps : call.KeepsFilter) :
    KeepsFilter (familyCall call) :=
  .call keeps fun _ => .ret

theorem keepsFilter_deref {α : Type} (pointer : Option α) :
    KeepsFilter (deref pointer : FamilyAction α) := by
  cases pointer with
  | none => exact .call trivial nofun
  | some value => exact .ret

theorem keepsFilter_onFamily {α : Type} {program : Action α} (family : Family)
    (within : Within Call.KeepsChains program) : KeepsFilter (onFamily family program) := by
  induction within with
  | ret => exact .ret
  | @call op _ allowed _ ih =>
    refine .call ?_ ih
    cases op with
    | clearAndDeleteChain table name => exact allowed.elim
    | chainExists table name => trivial
    | ruleExists table name rulespec => trivial
    | clearChain table name => trivial
    | applyWithoutFlush lines => trivial

theorem keepsFilter_createChain (family : Family) (table chain : String) :
    KeepsFilter (createChain family table chain) := by
  refine within_bind (keepsFilter_call trivial) fun created => ?_
  cases created with
  | error err => exact .ret
  | ok _ => exact within_bind (keepsFilter_call trivial) fun _ => .ret

theorem keepsFilter_setupAndEnsureTables (family : Family) (rules : List IPTablesRule) :
    KeepsFilter (setupAndEnsureTables family rules) := by
  refine within_bind (keepsFilter_call trivial) fun created => ?_
  cases created with
  | error err => exact .ret
  | ok _ =>
    refine within_bind (keepsFilter_call trivial) fun created => ?_
    cases created with
    | error err => exact .ret
    | ok _ =>
      exact within_bind (keepsFilter_onFamily family (within_ipTablesBootstrap rules)) fun _ => .ret

theorem keepsFilter_deleteTables (family : Family) (rules : List IPTablesRule) :
    KeepsFilter (deleteTables family rules) := by
  refine within_bind (keepsFilter_call trivial) fun created => ?_
  cases created with
  | error err => exact .ret
  | ok _ =>
    refine within_bind (keepsFilter_call trivial) fun created => ?_
    cases created with
    | error err => exact .ret
    | ok _ =>
      refine within_bind (keepsFilter_onFamily family (within_teardownIPTables rules)) fun torn => ?_
      cases torn <;> exact .ret

theorem keepsFilter_replaceMasqRules (family : Family) (recycle : Bool)
    {previous current : Bool → FamilyAction (List IPTablesRule)}
    (keepsPrevious : ∀ supports, KeepsFilter (previous supports))
    (keepsCurrent : ∀ supports, KeepsFilter (current supports)) :
    KeepsFilter (replaceMasqRules family recycle previous current) := by
  apply within_bind
  · cases recycle with
    | false => exact .ret
    | true =>
      refine within_bind (keepsFilter_call trivial) fun supports => ?_
      exact within_bind (keepsPrevious supports) fun rules => keepsFilter_deleteTables family rules
  · intro failed
    cases failed with
    | some err => exact .ret
    | none =>
      refine within_bind (keepsFilter_createChain family _ _) fun _ => ?_
      refine within_bind (keepsFilter_call trivial) fun supports => ?_
      refine within_bind (keepsCurrent supports) fun rules => ?_
      exact within_bind (keepsFilter_setupAndEnsureTables family rules) fun _ => .ret

theorem keepsFilter_setupAndEnsureMasqRules (input : MasqInput) :
    KeepsFilter input.setupAndEnsureMasqRules := by
  apply within_bind
  · rw [MasqInput.setupIPv4]
    split_ifs
    · exact .ret
    · exact keepsFilter_replaceMasqRules _ _ (fun _ => .ret) (fun _ => .ret)
  · intro failed
    cases failed with
    | some err => exact .ret
    | none =>
      rw [MasqInput.setupIPv6]
      split_ifs
      · exact .ret
      · have sameKeeps : KeepsFilter input.sameIPv6 := by
          refine within_bind (keepsFilter_deref _) fun sameNetwork => ?_
          cases sameNetwork with
          | false => exact .ret
          | true => exact keepsFilter_deref _
        refine within_bind sameKeeps fun same => ?_
        exact keepsFilter_replaceMasqRules _ _ (fun _ => keepsFilter_deref _)
          (fun _ => keepsFilter_deref _)

theorem keepsFilter_cleanUp : KeepsFilter cleanUp := by
  have other : "nat" ≠ "filter" := by decide
  refine within_bind (keepsFilter_call trivial) fun created => ?_
  cases created with
  | error err => exact .ret
  | ok _ =>
    refine within_bind (keepsFilter_call other) fun _ => ?_
    refine within_bind (keepsFilter_call other) fun _ => ?_
    refine within_bind (keepsFilter_call trivial) fun created => ?_
    cases created with
    | error err => exact .ret
    | ok _ =>
      refine within_bind (keepsFilter_call other) fun _ => ?_
      exact within_bind (keepsFilter_call other) fun _ => .ret

theorem keepsFilter_forwardIPv6 (network : IP6Net) : KeepsFilter (forwardIPv6 network) := by
  rw [forwardIPv6]
  split_ifs
  · exact .ret
  · refine within_bind (keepsFilter_createChain _ _ _) fun _ => ?_
    exact within_bind (keepsFilter_deref _) fun _ => keepsFilter_setupAndEnsureTables _ _

end Keeps

section Runs

variable {supports : Family → Bool} {host after : FamilyTables} {family : Family}

@[simp]
theorem get_set (t : Tables) (other : Family) :
    (host.set t family).get other = if other = family then t else host.get other := by
  cases family <;> cases other <;> rfl

theorem has_filter_answer {name : String} (call : FamilyCall) (keeps : call.KeepsFilter)
    (isThere : (host.get family).has ("filter", name)) :
    ((host.answer supports call).2.get family).has ("filter", name) := by
  cases call with
  | new other => exact isThere
  | newRestore other => exact isThere
  | hasRandomFully other => exact isThere
  | tables other call =>
    simp only [FamilyTables.answer, get_set]
    split_ifs with same
    · subst same
      cases call with
      | clearAndDeleteChain table chain =>
        -- another chain is flushed and removed
        have different : ("filter", name) ≠ (table, chain) := fun same =>
          keeps (congrArg Prod.fst same).symm
        simp only [answer]
        split_ifs
        · split
          · next removed =>
            rw [Tables.remove] at removed
            split_ifs at removed
            obtain rfl := Option.some.inj removed
            simpa [different] using isThere
          · exact Tables.has_set_of_has [] isThere
        · exact isThere
      | chainExists table chain => exact isThere
      | ruleExists table chain rulespec => exact isThere
      | clearChain table chain => exact @has_answer _ _ isThere (.clearChain table chain) trivial
      | applyWithoutFlush lines => exact @has_answer _ _ isThere (.applyWithoutFlush lines) trivial
    · exact isThere

theorem has_filter_exec {α : Type} {program : FamilyAction α} (keeps : KeepsFilter program)
    {name : String} (isThere : (host.get family).has ("filter", name)) {result : α}
    (returned : exec (FamilyTables.answer supports) host program = some (result, after)) :
    (after.get family).has ("filter", name) := by
  have preserved : ∀ (host : FamilyTables) call, FamilyCall.KeepsFilter call →
      (host.get family).has ("filter", name) →
      ((host.answer supports call).2.get family).has ("filter", name) :=
    fun _ call keeps isThere => has_filter_answer call keeps isThere
  exact invariant_exec _ _ keeps preserved isThere returned

theorem exec_createChain (table chain : String) :
    exec (FamilyTables.answer supports) host (createChain family table chain) =
      some ((), host.set ((host.get family).set (table, chain) []) family) := by
  simp [createChain, FamilyTables.answer, answer]

theorem has_forward (network : IP4Net) (network6 : IP6Net)
    (returned : exec (FamilyTables.answer supports) host (setupAndEnsureForwardRules network network6) =
      some ((), after)) :
    (network.empty = false → (after.get .ipv4).has ("filter", "FLANNEL-FWD")) ∧
      (network6.empty = false → (after.get .ipv6).has ("filter", "FLANNEL-FWD")) := by
  rw [setupAndEnsureForwardRules, exec_bind] at returned
  obtain ⟨⟨⟨⟩, middle⟩, first, second⟩ := Option.bind_eq_some_iff.mp returned
  constructor
  · intro nonempty
    rw [forwardIPv4, nonempty, if_neg Bool.false_ne_true, exec_bind, createIP4Chain, exec_createChain,
      Option.bind_some] at first
    refine has_filter_exec (keepsFilter_forwardIPv6 network6) ?_ second
    exact has_filter_exec (keepsFilter_setupAndEnsureTables _ _) (by simp) first
  · intro nonempty
    rw [forwardIPv6, nonempty, if_neg Bool.false_ne_true, exec_bind, createIP6Chain, exec_createChain,
      Option.bind_some] at second
    refine has_filter_exec ?_ (by simp) second
    exact within_bind (keepsFilter_deref _) fun _ => keepsFilter_setupAndEnsureTables _ _

theorem has_setup {masqFirst : Bool} {input : MasqInput}
    (returned : exec (FamilyTables.answer supports) host (setup masqFirst input) = some (none, after)) :
    (input.flannelIPv4Net.empty = false → (after.get .ipv4).has ("filter", "FLANNEL-FWD")) ∧
      (input.flannelIPv6Net.empty = false → (after.get .ipv6).has ("filter", "FLANNEL-FWD")) := by
  cases masqFirst with
  | true =>
    rw [setup, if_pos rfl, exec_bind] at returned
    obtain ⟨⟨failed, middle⟩, -, later⟩ := Option.bind_eq_some_iff.mp returned
    cases failed with
    | some err => simp at later
    | none =>
      simp only [exec_bind] at later
      obtain ⟨⟨⟨⟩, last⟩, forward, isLast⟩ := Option.bind_eq_some_iff.mp later
      obtain rfl : last = after := by simpa using isLast
      exact has_forward _ _ forward
  | false =>
    rw [setup, if_neg Bool.false_ne_true, exec_bind] at returned
    obtain ⟨⟨⟨⟩, middle⟩, forward, masq⟩ := Option.bind_eq_some_iff.mp returned
    have created := has_forward _ _ forward
    exact ⟨fun nonempty => has_filter_exec (keepsFilter_setupAndEnsureMasqRules input)
        (created.1 nonempty) masq,
      fun nonempty => has_filter_exec (keepsFilter_setupAndEnsureMasqRules input)
        (created.2 nonempty) masq⟩

theorem exec_setup_of_empty {masqFirst : Bool} {input : MasqInput}
    (empty : input.flannelIPv4Net.empty) (empty6 : input.flannelIPv6Net.empty) :
    exec (FamilyTables.answer supports) host (setup masqFirst input) = some (none, host) := by
  cases masqFirst <;>
    simp [setup, setupAndEnsureForwardRules, forwardIPv4, forwardIPv6,
      MasqInput.setupAndEnsureMasqRules, MasqInput.setupIPv4, MasqInput.setupIPv6, empty, empty6]

theorem exec_cleanUp_of_clean (clean : ∀ family, Clean (host.get family)) :
    exec (FamilyTables.answer supports) host cleanUp = some (none, host) := by
  have absent : ∀ family, ∀ name ∈ flannelChains, (host.get family).has ("nat", name) = false :=
    fun family => (clean family).chains "nat"
  have forward := absent .ipv4 "FLANNEL-FWD" (by decide)
  have postrouting := absent .ipv4 "FLANNEL-POSTRTG" (by decide)
  have forward6 := absent .ipv6 "FLANNEL-FWD" (by decide)
  have postrouting6 := absent .ipv6 "FLANNEL-POSTRTG" (by decide)
  simp only [FamilyTables.get] at forward postrouting forward6 postrouting6
  simp [cleanUp, FamilyTables.answer, FamilyTables.get, FamilyTables.set, answer, forward, postrouting,
    forward6, postrouting6]

end Runs

/-- `CleanUp` undoes a set-up exactly if nothing was set up: the forwarding chain of the
table `filter` is left for every network that is not empty. -/
theorem undone_iff (supports : Family → Bool) (masqFirst : Bool) (input : MasqInput)
    {before middle after : FamilyTables} (clean : ∀ family, Clean (before.get family))
    (completed : exec (FamilyTables.answer supports) before (setup masqFirst input) = some (none, middle))
    (cleaned : exec (FamilyTables.answer supports) middle cleanUp = some (none, after)) :
    Undone before after ↔
      input.flannelIPv4Net.empty = true ∧ input.flannelIPv6Net.empty = true := by
  constructor
  · intro undone
    have created := has_setup completed
    have gone : ∀ family, (after.get family).has ("filter", "FLANNEL-FWD") = false := fun family =>
      (undone family).1.chains "filter" "FLANNEL-FWD" (by decide)
    rw [← Bool.not_eq_false, ← Bool.not_eq_false]
    constructor
    · intro nonempty
      have left := has_filter_exec keepsFilter_cleanUp (created.1 nonempty) cleaned
      rw [gone .ipv4] at left
      exact Bool.noConfusion left
    · intro nonempty
      have left := has_filter_exec keepsFilter_cleanUp (created.2 nonempty) cleaned
      rw [gone .ipv6] at left
      exact Bool.noConfusion left
  · rintro ⟨empty, empty6⟩
    rw [exec_setup_of_empty empty empty6] at completed
    obtain ⟨-, rfl⟩ := Prod.mk.inj (Option.some.inj completed)
    rw [exec_cleanUp_of_clean clean] at cleaned
    obtain ⟨-, rfl⟩ := Prod.mk.inj (Option.some.inj cleaned)
    exact fun family => ⟨clean family, fun _ _ => rfl⟩

theorem Clean.of_chains {t : Tables}
    (chains : ∀ chain ∈ t.chains, chain.1.2 ∉ flannelChains ∧
      ∀ rulespec ∈ chain.2, target chain.1 rulespec = none) : Clean t where
  chains table name isFlannel := by
    by_contra isThere
    rw [Bool.not_eq_false] at isThere
    obtain ⟨rules, isRules⟩ := Tables.has_iff.mp isThere
    obtain ⟨chain, found, -⟩ := Option.map_eq_some_iff.mp isRules
    have isChain := Table.key_of_lookup found
    have mem := Table.mem_of_lookup found
    have isName : chain.1.2 = name := congrArg Prod.snd isChain
    exact (chains chain mem).1 (isName ▸ isFlannel)
  rules chain rulespec mem := (chains _ (Tables.mem_chains_of_mem mem)).2 rulespec mem

def plainTables : Tables where
  chains := [(("nat", "POSTROUTING"), [["-o", "eth0", "-j", "MASQUERADE"]]), (("filter", "FORWARD"), [])]
  distinct := by decide

def plainHost : FamilyTables :=
  ⟨plainTables, plainTables⟩

theorem clean_plainHost (family : Family) : Clean (plainHost.get family) := by
  cases family <;> exact .of_chains (by decide)

def emptyInput : MasqInput :=
  ⟨⟨0, 0⟩, ⟨0, 0⟩, ⟨0, 0⟩, IP6Net.zero, IP6Net.zero, IP6Net.zero, leaseOf ⟨0, 0⟩ IP6Net.zero, false⟩

def ipv4Input : MasqInput :=
  { emptyInput with
    flannelIPv4Net := ⟨0x0af40000, 16⟩
    currentlease := leaseOf ⟨0x0af40000, 24⟩ IP6Net.zero }

theorem undone_of_emptyInput :
    ∃ after, exec (FamilyTables.answer fun _ => true) plainHost cleanUp = some (none, after) ∧
      Undone plainHost after := by
  have completed : exec (FamilyTables.answer fun _ => true) plainHost (setup true emptyInput) =
      some (none, plainHost) := exec_setup_of_empty rfl rfl
  have cleaned : exec (FamilyTables.answer fun _ => true) plainHost cleanUp = some (none, plainHost) :=
    exec_cleanUp_of_clean clean_plainHost
  exact ⟨plainHost, cleaned,
    (undone_iff _ true emptyInput clean_plainHost completed cleaned).mpr ⟨rfl, rfl⟩⟩

/-- The forwarding chain is left, since it is looked for in another table, and the chain
for masquerading is left, since `POSTROUTING` jumps to it. -/
theorem cleanUp_leaves_chains :
    (∀ family, Clean (plainHost.get family)) ∧
      ∃ middle after,
        exec (FamilyTables.answer fun _ => true) plainHost (setup true ipv4Input) = some (none, middle) ∧
        exec (FamilyTables.answer fun _ => true) middle cleanUp = some (none, after) ∧
        (after.get .ipv4).has ("filter", "FLANNEL-FWD") = true ∧
        (after.get .ipv4).has ("nat", "FLANNEL-POSTRTG") = true ∧ ¬Undone plainHost after := by
  refine ⟨clean_plainHost, ?_⟩
  have ran : ((exec (FamilyTables.answer fun _ => true) plainHost (setup true ipv4Input)).bind fun set =>
      (exec (FamilyTables.answer fun _ => true) set.2 cleanUp).map fun cleaned =>
        (set.1, cleaned.1, (cleaned.2.get .ipv4).has ("filter", "FLANNEL-FWD"),
          (cleaned.2.get .ipv4).has ("nat", "FLANNEL-POSTRTG"))) =
      some (none, none, true, true) := by decide
  obtain ⟨⟨_, middle⟩, completed, ran⟩ := Option.bind_eq_some_iff.mp ran
  obtain ⟨⟨_, after⟩, cleaned, left⟩ := Option.map_eq_some_iff.mp ran
  simp only [Prod.mk.injEq] at left
  obtain ⟨rfl, rfl, forward, postrouting⟩ := left
  refine ⟨middle, after, completed, cleaned, forward, postrouting, fun undone => ?_⟩
  rw [(undone .ipv4).1.chains "filter" "FLANNEL-FWD" (by decide)] at forward
  exact Bool.noConfusion forward

end Flannel.Traffic
