import Flannel.Mesh.Printing
import Flannel.Traffic.Exactness

/-!
# The chain that the mesh and the traffic manager share

The mesh puts its SNAT rules at the second place of `FLANNEL-POSTRTG`, behind the rule for marked
packets. Where a rule of the iptables manager is missing, that manager deletes and appends all of
its own, behind the SNAT rules.
-/

namespace Flannel.Mesh

open Flannel.Filter Ip Leases Net Program Traffic Transition

/-! ## The chain as a list -/

def isHostSNAT (rule : List String) : Bool :=
  rule.contains hostSNATComment

def markRule : List String :=
  ["-m", "mark", "--mark", kubeProxyMark] ++ commented ["RETURN"]

/-- The rule for marked packets precedes every SNAT rule, and every SNAT rule precedes the other
rules. -/
def Placed (others chain : List (List String)) : Prop :=
  markRule ∈ chain ∧ chain.Pairwise fun first second =>
    ¬(isHostSNAT first = true ∧ second = markRule) ∧ ¬(first ∈ others ∧ isHostSNAT second = true)

instance (others chain : List (List String)) : Decidable (Placed others chain) :=
  inferInstanceAs (Decidable (_ ∧ _))

structure Masquerading (others : List (List String)) : Prop where
  fresh : markRule ∉ others
  noSNAT : ∀ rule ∈ markRule :: others, isHostSNAT rule = false

/-- What the chain keeps: it has no other rules, none more often than the iptables manager
puts it there, and behind the rule for marked packets, if that is there, first the SNAT
rules. -/
structure Kept (others chain : List (List String)) : Prop where
  known : ∀ rule ∈ chain, isHostSNAT rule = true ∨ rule ∈ markRule :: others
  bounded : ∀ rule ∈ markRule :: others, chain.count rule ≤ (markRule :: others).count rule
  placed : markRule ∈ chain → ∃ snats rest, chain = markRule :: (snats ++ rest) ∧
    (∀ rule ∈ snats, isHostSNAT rule = true) ∧ ∀ rule ∈ rest, rule ∈ others

section Chain

variable {others chain : List (List String)}

variable {snat : List String}

theorem Masquerading.ne (masquerading : Masquerading others) {rule : List String}
    (mem : rule ∈ markRule :: others) (isSNAT : isHostSNAT snat) : snat ≠ rule := by
  rintro rfl
  rw [masquerading.noSNAT snat mem] at isSNAT
  exact Bool.noConfusion isSNAT

theorem Kept.insertAt (masquerading : Masquerading others) (kept : Kept others chain)
    (isSNAT : isHostSNAT snat) : Kept others (insertAt 2 snat chain) where
  known rule mem := by
    rcases List.mem_cons.mp ((perm_insertAt 2 snat chain).mem_iff.mp mem) with rfl | mem
    · exact .inl isSNAT
    · exact kept.known rule mem
  bounded rule mem := by
    rw [(perm_insertAt 2 snat chain).count_eq, List.count_cons_of_ne (masquerading.ne mem isSNAT)]
    exact kept.bounded rule mem
  placed mem := by
    have different := masquerading.ne (.head _) isSNAT
    have present : markRule ∈ chain :=
      (List.mem_cons.mp ((perm_insertAt 2 snat chain).mem_iff.mp mem)).resolve_left different.symm
    obtain ⟨snats, rest, rfl, allSNAT, allOthers⟩ := kept.placed present
    refine ⟨snat :: snats, rest, by simp [Mesh.insertAt], ?_, allOthers⟩
    exact List.forall_mem_cons.mpr ⟨isSNAT, allSNAT⟩

theorem Kept.erase (masquerading : Masquerading others) (kept : Kept others chain)
    (isSNAT : isHostSNAT snat) : Kept others (chain.erase snat) where
  known rule mem := kept.known rule (List.mem_of_mem_erase mem)
  bounded rule mem := Nat.le_trans (List.erase_sublist.count_le rule) (kept.bounded rule mem)
  placed mem := by
    have different := masquerading.ne (.head _) isSNAT
    obtain ⟨snats, rest, rfl, allSNAT, allOthers⟩ := kept.placed (List.mem_of_mem_erase mem)
    rw [List.erase_cons_tail (by simpa using different.symm), List.erase_append]
    split_ifs
    · exact ⟨snats.erase snat, rest, rfl, fun rule mem => allSNAT rule (List.mem_of_mem_erase mem),
        allOthers⟩
    · exact ⟨snats, rest.erase snat, rfl, allSNAT,
        fun rule mem => allOthers rule (List.mem_of_mem_erase mem)⟩

theorem Kept.eraseIdx (masquerading : Masquerading others) (kept : Kept others chain) (pos : Nat) :
    Kept others (chain.eraseIdx pos) where
  known rule mem := kept.known rule (List.mem_of_mem_eraseIdx mem)
  bounded rule mem :=
    Nat.le_trans ((List.eraseIdx_sublist chain pos).count_le rule) (kept.bounded rule mem)
  placed mem := by
    obtain ⟨snats, rest, rfl, allSNAT, allOthers⟩ := kept.placed (List.mem_of_mem_eraseIdx mem)
    cases pos with
    | zero =>
      -- the rule itself was deleted, and it is not among the rest
      rcases List.mem_append.mp mem with inSnats | inRest
      · exact absurd rfl (masquerading.ne (.head _) (allSNAT _ inSnats))
      · exact absurd (allOthers _ inRest) masquerading.fresh
    | succ pos =>
      rw [List.eraseIdx_cons_succ, List.eraseIdx_append]
      split_ifs
      · exact ⟨_, rest, rfl, fun rule mem => allSNAT rule (List.mem_of_mem_eraseIdx mem), allOthers⟩
      · exact ⟨snats, _, rfl, allSNAT, fun rule mem => allOthers rule (List.mem_of_mem_eraseIdx mem)⟩

theorem Kept.foldl_renew (masquerading : Masquerading others) (kept : Kept others chain)
    (noSNAT : ∀ rule ∈ chain, isHostSNAT rule = false) :
    Kept others ((markRule :: others).foldl (renew (· ∈ chain)) chain) ∧
      markRule ∈ (markRule :: others).foldl (renew (· ∈ chain)) chain := by
  obtain ⟨renewed, isRenewed, sublist, sameRules⟩ := foldl_renew_kept (markRule :: others) chain
  have front : (markRule :: others).foldl List.erase chain = [] := by
    rw [List.eq_nil_iff_forall_not_mem]
    intro rule mem
    have counted := count_foldl_erase (markRule :: others) chain rule
    have positive := List.count_pos_iff.mpr mem
    have present : rule ∈ chain := List.count_pos_iff.mp (by omega)
    rcases kept.known rule present with isSNAT | isKnown
    · rw [noSNAT rule present] at isSNAT
      exact Bool.noConfusion isSNAT
    · have bounded := kept.bounded rule isKnown
      omega
  have marked : markRule ∈ renewed := (sameRules markRule).mpr (.head _)
  rw [isRenewed, front, List.nil_append]
  refine ⟨⟨fun rule mem => .inr ((sameRules rule).mp mem), fun rule _ => sublist.count_le rule, ?_⟩, marked⟩
  intro _
  cases sublist with
  | cons _ sublist => exact absurd (sublist.subset marked) masquerading.fresh
  | cons_cons _ sublist => exact ⟨[], _, rfl, by simp, fun rule mem => sublist.subset mem⟩

theorem Kept.isPlaced (masquerading : Masquerading others) (kept : Kept others chain)
    (present : markRule ∈ chain) : Placed others chain := by
  refine ⟨present, ?_⟩
  obtain ⟨snats, rest, rfl, allSNAT, allOthers⟩ := kept.placed present
  have notOther : ∀ rule, isHostSNAT rule → rule ∉ others := fun rule isSNAT mem =>
    masquerading.ne (.tail _ mem) isSNAT rfl
  have notMark : ∀ rule, isHostSNAT rule → rule ≠ markRule := fun rule =>
    masquerading.ne (.head _)
  have restNoSNAT : ∀ rule ∈ rest, isHostSNAT rule = false := fun rule mem =>
    masquerading.noSNAT rule (List.mem_cons_of_mem _ (allOthers rule mem))
  rw [List.pairwise_cons, List.pairwise_append]
  refine ⟨?_, ?_, ?_, ?_⟩
  · intro rule _
    have isNot := masquerading.noSNAT markRule (.head _)
    simp [isNot, masquerading.fresh]
  · refine List.pairwise_of_forall_mem_list fun first memFirst second memSecond => ?_
    simp [notMark second (allSNAT second memSecond), notOther first (allSNAT first memFirst)]
  · refine List.pairwise_of_forall_mem_list fun first memFirst second memSecond => ?_
    simp [restNoSNAT first memFirst, restNoSNAT second memSecond]
  · intro first memFirst second memSecond
    have isOther : second ≠ markRule :=
      ne_of_mem_of_not_mem (allOthers second memSecond) masquerading.fresh
    simp [isOther, restNoSNAT second memSecond]

theorem not_placed_renew (masquerading : Masquerading others)
    (mem : snat ∈ chain) (isSNAT : isHostSNAT snat) :
    ¬Placed others ((markRule :: others).foldl (renew (· ∈ chain)) chain) := by
  rintro ⟨-, ordered⟩
  obtain ⟨renewed, isRenewed, -, sameRules⟩ := foldl_renew_kept (markRule :: others) chain
  have absent : snat ∉ markRule :: others := fun known => masquerading.ne known isSNAT rfl
  have inFront : snat ∈ (markRule :: others).foldl List.erase chain := by
    rw [← List.count_pos_iff, count_foldl_erase, List.count_eq_zero.mpr absent]
    exact List.count_pos_iff.mpr mem
  rw [isRenewed, List.pairwise_append] at ordered
  exact (ordered.2.2 snat inFront markRule ((sameRules markRule).mpr (.head _))).1 ⟨isSNAT, rfl⟩

end Chain

/-! ## The node -/

def postrtg : String × String :=
  ("nat", "FLANNEL-POSTRTG")

structure Host where
  links : String → Option Nat
  routes : List Route
  rules : List Rule
  tables : Tables
  built : tables.has postrtg = true

namespace Host

variable (n : Host)

def kernel : Kernel :=
  ⟨n.links, n.routes, n.rules, n.tables.contents postrtg⟩

def withKernel (k : Kernel) : Host where
  links := k.links
  routes := k.routes
  rules := k.rules
  tables := n.tables.set postrtg k.chain
  built := by simp

end Host

inductive ChainEvent
  | ensure (network : String) (script : List (Outcome KernelError))
  | remove (network : String) (script : List (Outcome KernelError))
  | delete (chain : String × String) (pos : Nat)
  | pass (script : List (Outcome String))

section Events

variable (print : List String → String) (m : RouteManager) (masq : List IPTablesRule)

def Host.passed (n : Host) (script : List (Outcome String)) : Host :=
  { n with
    tables := (Request.ensure.serve masq n.tables script).2
    built := has_play n.built (within_ensureIPTables masq) script }

/-- The calls of the mesh may fail or be cut short; a pass succeeds, and from outside single rules
of the iptables manager are deleted. -/
def chainNext : Step Host ChainEvent
  | n, .ensure network script =>
    some (n.withKernel (play (Kernel.answer print) failure script n.kernel (m.ensure network)).2)
  | n, .remove network script =>
    some (n.withKernel (play (Kernel.answer print) failure script n.kernel (m.remove network)).2)
  | n, .delete chain pos =>
    if (n.tables.contents chain)[pos]?.any ((specs masq chain).contains ·) then
      some { n with
        tables := n.tables.set chain ((n.tables.contents chain).eraseIdx pos)
        built := Tables.has_set_of_has _ n.built }
    else none
  | n, .pass script =>
    if (Request.ensure.serve masq n.tables script).1 = some (.ok ()) then some (n.passed masq script)
    else none

end Events

/-! ## The masquerading rules -/

def otherRules (masq : List IPTablesRule) : List (List String) :=
  (specs masq postrtg).filter (· ≠ markRule)

section Masq

variable (cluster pod multicast : String) (randomFully : Bool)

theorem specs_masqRulesFor :
    specs (masqRulesFor cluster pod multicast randomFully) postrtg =
      markRule :: otherRules (masqRulesFor cluster pod multicast randomFully) := by
  simp [otherRules, specs, masqRulesFor, natRule, IPTablesRule.home, postrtg, markRule, commented]

theorem managed_masqRulesFor :
    ∀ rule ∈ masqRulesFor cluster pod multicast randomFully, rule.Managed := by
  intro rule mem
  simp only [masqRulesFor, natRule, List.mem_cons, List.not_mem_nil, or_false] at mem
  cases randomFully
  all_goals
    rcases mem with rfl | rfl | rfl | rfl | rfl | rfl | rfl
    all_goals
      refine ⟨rfl, by simp [commented], ?_⟩
      simp [commented, target, jump, IPTablesRule.home]

def masqWords : List String :=
  ["!", "-s", "-d", "-m", "mark", "--mark", kubeProxyMark, "comment", "--comment", "flanneld masq", "-j",
    "FLANNEL-POSTRTG", "RETURN", "MASQUERADE", "--random-fully"]

theorem words_masqRulesFor {rule : IPTablesRule}
    (mem : rule ∈ masqRulesFor cluster pod multicast randomFully) :
    ∀ word ∈ rule.rulespec, word ∈ masqWords ∨ word ∈ [cluster, pod, multicast] := by
  simp only [masqRulesFor, natRule, List.mem_cons, List.not_mem_nil, or_false] at mem
  cases randomFully
  all_goals
    rcases mem with rfl | rfl | rfl | rfl | rfl | rfl | rfl
    all_goals simp [commented, masqWords]

theorem masquerading_masqRulesFor (networks : hostSNATComment ∉ [cluster, pod, multicast]) :
    Masquerading (otherRules (masqRulesFor cluster pod multicast randomFully)) := by
  constructor
  · simp [otherRules]
  · rw [← specs_masqRulesFor]
    intro rulespec mem
    obtain ⟨rule, memRule, -, rfl⟩ := mem_specs_iff.mp mem
    rw [isHostSNAT, List.contains_eq_mem, decide_eq_false_iff_not]
    intro isWord
    rcases words_masqRulesFor cluster pod multicast randomFully memRule _ isWord with isWord | isWord
    · exact absurd isWord (by decide)
    · exact networks isWord

theorem ready_masqRulesFor {t : Tables} (built : t.has postrtg) :
    ∀ rule ∈ masqRulesFor cluster pod multicast randomFully, rule.Ready t := by
  intro rule mem _ chain isChain
  have isPostrtg : rule.table = "nat" ∧ rule.flannelChain = some "FLANNEL-POSTRTG" := by
    simp only [masqRulesFor, natRule, List.mem_cons, List.not_mem_nil, or_false] at mem
    rcases mem with rfl | rfl | rfl | rfl | rfl | rfl | rfl
    · simp [IPTablesRule.flannelChain, commented]
    all_goals
      cases randomFully <;> simp [IPTablesRule.flannelChain, commented]
  obtain rfl := Option.some.inj (isPostrtg.2.symm.trans isChain)
  rw [isPostrtg.1]
  exact built

end Masq

theorem string_ne_hostSNATComment (n : IP4Net) : hostSNATComment ≠ n.string := by
  intro same
  have slash : '/' ∈ hostSNATComment.toList := by
    rw [same, IP4Net.string]
    simp
  exact absurd slash (by decide)

theorem masquerading_masqRules (ccidr : IP4Net) (lease : Lease) (supports disable : Bool) :
    Masquerading (otherRules (masqRules ccidr lease supports disable)) := by
  apply masquerading_masqRulesFor
  have multicast : hostSNATComment ≠ "224.0.0.0/4" := by decide
  simp [string_ne_hostSNATComment, multicast]

/-! ## The calls of the mesh -/

namespace RouteManager

variable (m : RouteManager)

def Touches : Op → Prop
  | .chainInsert pos rulespec => pos = 2 ∧ ∃ dst, rulespec = m.hostSNATRule dst
  | .chainDelete rulespec => ∃ dst, rulespec = m.hostSNATRule dst
  | _ => True

theorem within_ensureHostSNAT (dst : IPNet) : Within m.Touches (m.ensureHostSNAT dst) := by
  refine within_bind (within_request trivial) fun answer => ?_
  match answer with
  | .error _ => exact .ret
  | .ok true => exact .ret
  | .ok false =>
    refine within_bind (within_request ⟨rfl, dst, rfl⟩) fun answer => ?_
    cases answer <;> exact .ret

theorem within_removeHostSNAT (dst : IPNet) : Within m.Touches (m.removeHostSNAT dst) := by
  refine within_bind (within_request trivial) fun answer => ?_
  match answer with
  | .error _ => exact .ret
  | .ok false => exact .ret
  | .ok true =>
    refine within_bind (within_request ⟨dst, rfl⟩) fun answer => ?_
    cases answer <;> exact .ret

theorem within_ensure (network : String) : Within m.Touches (m.ensure network) := by
  refine within_bind (within_request trivial) fun link => ?_
  cases link with
  | error err => exact .ret
  | ok linkIndex =>
    cases parseCIDR network with
    | error err => exact .ret
    | ok dst =>
      refine within_bind (within_request trivial) fun replaced => ?_
      cases replaced with
      | error err => exact .ret
      | ok _ =>
        refine within_bind (within_request trivial) fun added => ?_
        match added with
        | .ok _ => exact m.within_ensureHostSNAT dst
        | .error .eexist => exact m.within_ensureHostSNAT dst
        | .error .esrch => exact .ret
        | .error .enoent => exact .ret
        | .error .notExist => exact .ret
        | .error (.other _) => exact .ret

theorem within_deleteRoutes (dst : Option IPNet) (listing message : String) :
    Within m.Touches (m.deleteRoutes dst listing message) := by
  refine within_bind (within_request trivial) fun listed => ?_
  cases listed with
  | error err => exact .ret
  | ok routes =>
    refine within_collect (fun route => ?_) routes
    refine within_bind (within_request trivial) fun deleted => ?_
    match deleted with
    | .ok _ => exact .ret
    | .error .esrch => exact .ret
    | .error .eexist => exact .ret
    | .error .enoent => exact .ret
    | .error .notExist => exact .ret
    | .error (.other _) => exact .ret

theorem within_deleteRules (select : Rule → Bool) (message : String) :
    Within m.Touches (deleteRules select message) := by
  refine within_bind (within_request trivial) fun listed => ?_
  cases listed with
  | error err => exact .ret
  | ok rules =>
    refine within_collect (fun rule => ?_) _
    refine within_bind (within_request trivial) fun deleted => ?_
    match deleted with
    | .ok _ => exact .ret
    | .error .enoent => exact .ret
    | .error .eexist => exact .ret
    | .error .esrch => exact .ret
    | .error .notExist => exact .ret
    | .error (.other _) => exact .ret

theorem within_remove (network : String) : Within m.Touches (m.remove network) := by
  rw [remove]
  cases parseCIDR network with
  | error err => exact .ret
  | ok dst =>
    refine within_bind (m.within_deleteRoutes _ _ _) fun _ => ?_
    refine within_bind (m.within_deleteRules _ _) fun _ => ?_
    exact within_bind (m.within_removeHostSNAT dst) fun _ => .ret

theorem isHostSNAT_hostSNATRule (dst : IPNet) : isHostSNAT (m.hostSNATRule dst) := by
  simp [isHostSNAT, hostSNATRule]

variable {m} {others : List (List String)}

theorem kept_answer (print : List String → String) (masquerading : Masquerading others) (k : Kernel)
    (op : Op) (touches : m.Touches op) (kept : Kept others k.chain) :
    Kept others (Kernel.answer print k op).2.chain := by
  cases op with
  | chainInsert pos rulespec =>
    obtain ⟨rfl, dst, rfl⟩ := touches
    exact kept.insertAt masquerading (m.isHostSNAT_hostSNATRule dst)
  | chainDelete rulespec =>
    obtain ⟨dst, rfl⟩ := touches
    simp only [Kernel.answer]
    split
    · exact kept.erase masquerading (m.isHostSNAT_hostSNATRule dst)
    · exact kept
  | linkByName name =>
    simp only [Kernel.answer]
    split <;> exact kept
  | routeDel route =>
    simp only [Kernel.answer]
    split <;> exact kept
  | ruleAdd rule =>
    simp only [Kernel.answer]
    split <;> exact kept
  | ruleDel rule =>
    simp only [Kernel.answer]
    split <;> exact kept
  | routeReplace route => exact kept
  | routeListFiltered dst table => exact kept
  | ruleList => exact kept
  | chainExists rulespec => exact kept
  | chainList => exact kept

theorem kept_play {α : Type} (print : List String → String) (masquerading : Masquerading others)
    {n : Host} (kept : Kept others (n.tables.contents postrtg)) {program : Action α}
    (within : Within m.Touches program) (script : List (Outcome KernelError)) :
    Kept others ((n.withKernel
      (play (Kernel.answer print) failure script n.kernel program).2).tables.contents postrtg) := by
  have preserved : Kept others (play (Kernel.answer print) failure script n.kernel program).2.chain :=
    @invariant_play _ _ _ _ _ _ failure n.kernel _ (fun k => Kept others k.chain) program within
      (kept_answer print masquerading) kept script
  simpa [Host.withKernel] using preserved

end RouteManager

/-! ## Runs -/

/-- After a pass of the iptables manager the SNAT rules are in their place. -/
def PlacedAfter (print : List String → String) (m : RouteManager) (masq : List IPTablesRule) (n : Host) :
    ChainEvent → Prop
  | .pass script => ∀ target, chainNext print m masq n (.pass script) = some target →
      Placed (otherRules masq) (target.tables.contents postrtg)
  | _ => True

instance (print : List String → String) (m : RouteManager) (masq : List IPTablesRule) (n : Host) :
    (event : ChainEvent) → Decidable (PlacedAfter print m masq n event)
  | .pass script => decidableForallSome (chainNext print m masq n (.pass script)) _
  | .ensure _ _ => .isTrue trivial
  | .remove _ _ => .isTrue trivial
  | .delete _ _ => .isTrue trivial

/-- A pass finds all rules of the iptables manager, or no SNAT rule. -/
def Undisturbed (print : List String → String) (m : RouteManager) (masq : List IPTablesRule) (n : Host) :
    ChainEvent → Prop
  | .pass script => ∀ target, chainNext print m masq n (.pass script) = some target →
      AllPresent masq n.tables ∨ ∀ rule ∈ n.tables.contents postrtg, isHostSNAT rule = false
  | _ => True

instance (print : List String → String) (m : RouteManager) (masq : List IPTablesRule) (n : Host) :
    (event : ChainEvent) → Decidable (Undisturbed print m masq n event)
  | .pass script => decidableForallSome (chainNext print m masq n (.pass script)) _
  | .ensure _ _ => .isTrue trivial
  | .remove _ _ => .isTrue trivial
  | .delete _ _ => .isTrue trivial

/-- The chain was created empty and the iptables manager has bootstrapped its rules. -/
def Fresh (masq : List IPTablesRule) (n : Host) : Prop :=
  ∃ (t : Tables) (script : List (Outcome String)), t.contents postrtg = [] ∧
    Request.bootstrap.serve masq t script = (some (.ok ()), n.tables)

section Runs

variable {print : List String → String} {m : RouteManager} {cluster pod multicast : String}
  {randomFully : Bool} {masq : List IPTablesRule} {n target : Host}

theorem pass_cases (isMasq : masq = masqRulesFor cluster pod multicast randomFully)
    {script : List (Outcome String)} (step : chainNext print m masq n (.pass script) = some target) :
    (AllPresent masq n.tables ∧ target.tables = n.tables) ∨
      (¬AllPresent masq n.tables ∧ Rebuilt masq n.tables target.tables) := by
  rw [chainNext] at step
  split_ifs at step with returned
  obtain rfl := Option.some.inj step
  subst isMasq
  have endures := endures_ensureIPTables (managed_masqRulesFor cluster pod multicast randomFully)
    (ready_masqRulesFor cluster pod multicast randomFully n.built)
  rcases endures.ends script with ⟨_, -, done⟩ | ⟨failed, -⟩
  · exact done
  · exact absurd returned (failed ())

theorem rebuilt_postrtg (isMasq : masq = masqRulesFor cluster pod multicast randomFully) {t t' : Tables}
    (rebuilt : Rebuilt masq t t') :
    t'.contents postrtg =
      (markRule :: otherRules masq).foldl (renew (· ∈ t.contents postrtg)) (t.contents postrtg) := by
  rw [rebuilt postrtg, isMasq, specs_masqRulesFor]

theorem markRule_mem (isMasq : masq = masqRulesFor cluster pod multicast randomFully) {t : Tables}
    (all : AllPresent masq t) : markRule ∈ t.contents postrtg := by
  have isSpec : markRule ∈ specs masq postrtg := by
    rw [isMasq, specs_masqRulesFor]
    exact (.head _)
  obtain ⟨rule, mem, isHome, isRule⟩ := mem_specs_iff.mp isSpec
  rw [← isHome, ← isRule]
  exact all rule mem

theorem kept_of_fresh (isMasq : masq = masqRulesFor cluster pod multicast randomFully)
    (masquerading : Masquerading (otherRules masq)) (fresh : Fresh masq n) :
    Kept (otherRules masq) (n.tables.contents postrtg) := by
  obtain ⟨t, script, empty, served⟩ := fresh
  have rebuilt : Rebuilt masq t n.tables := by
    subst isMasq
    have endures := endures_ipTablesBootstrap (managed_masqRulesFor cluster pod multicast randomFully) (t := t)
    rcases endures.ends script with ⟨_, -, done⟩ | ⟨failed, -⟩
    · rwa [← Request.program, ← Request.serve, served] at done
    · exact absurd (congrArg Prod.fst served) (failed ())
  have start : Kept (otherRules masq) [] := ⟨by simp, by simp, by simp⟩
  rw [rebuilt_postrtg isMasq rebuilt, empty]
  exact (start.foldl_renew masquerading (by simp)).1

theorem kept_of_next (isMasq : masq = masqRulesFor cluster pod multicast randomFully)
    (masquerading : Masquerading (otherRules masq)) {event : ChainEvent}
    (kept : Kept (otherRules masq) (n.tables.contents postrtg))
    (undisturbed : Undisturbed print m masq n event)
    (step : chainNext print m masq n event = some target) :
    Kept (otherRules masq) (target.tables.contents postrtg) := by
  cases event with
  | ensure network script =>
    obtain rfl := Option.some.inj step
    exact RouteManager.kept_play print masquerading kept (m.within_ensure network) script
  | remove network script =>
    obtain rfl := Option.some.inj step
    exact RouteManager.kept_play print masquerading kept (m.within_remove network) script
  | delete chain pos =>
    rw [chainNext] at step
    split_ifs at step
    obtain rfl := Option.some.inj step
    rw [Tables.contents_set]
    split_ifs with same
    · rw [← same]
      exact kept.eraseIdx masquerading pos
    · exact kept
  | pass script =>
    rcases pass_cases isMasq step with ⟨-, unchanged⟩ | ⟨missing, rebuilt⟩
    · rw [unchanged]
      exact kept
    · have noSNAT := (undisturbed target step).resolve_left missing
      rw [rebuilt_postrtg isMasq rebuilt]
      exact (kept.foldl_renew masquerading noSNAT).1

theorem placedAfter_iff (isMasq : masq = masqRulesFor cluster pod multicast randomFully)
    (masquerading : Masquerading (otherRules masq)) (event : ChainEvent)
    (kept : Kept (otherRules masq) (n.tables.contents postrtg)) :
    PlacedAfter print m masq n event ↔ Undisturbed print m masq n event := by
  cases event with
  | pass script =>
    refine forall_congr' fun target => forall_congr' fun step => ?_
    rcases pass_cases isMasq step with ⟨all, unchanged⟩ | ⟨missing, rebuilt⟩
    · rw [unchanged]
      exact iff_of_true (kept.isPlaced masquerading (markRule_mem isMasq all)) (.inl all)
    · rw [rebuilt_postrtg isMasq rebuilt]
      constructor
      · intro placed
        refine .inr fun rule mem => Bool.eq_false_iff.mpr fun isSNAT => ?_
        exact not_placed_renew masquerading mem isSNAT placed
      · intro undisturbed
        obtain ⟨kept, marked⟩ := kept.foldl_renew masquerading (undisturbed.resolve_left missing)
        exact kept.isPlaced masquerading marked
  | ensure network script => exact Iff.rfl
  | remove network script => exact Iff.rfl
  | delete chain pos => exact Iff.rfl

end Runs

/-- After every pass of `ensureIPTables` the rule for marked packets precedes the SNAT rules
and these precede the other masquerading rules, exactly if every pass finds all rules of
the iptables manager or no SNAT rule. -/
theorem placed_iff (print : List String → String) (m : RouteManager) (ccidr : IP4Net) (lease : Lease)
    (supports_random_fully ipMasqRandomFullyDisable : Bool) {n : Host}
    (fresh : Fresh (masqRules ccidr lease supports_random_fully ipMasqRandomFullyDisable) n)
    (events : List ChainEvent) :
    Along (chainNext print m (masqRules ccidr lease supports_random_fully ipMasqRandomFullyDisable))
        (PlacedAfter print m (masqRules ccidr lease supports_random_fully ipMasqRandomFullyDisable))
        n events ↔
      Along (chainNext print m (masqRules ccidr lease supports_random_fully ipMasqRandomFullyDisable))
        (Undisturbed print m (masqRules ccidr lease supports_random_fully ipMasqRandomFullyDisable))
        n events := by
  have masquerading := masquerading_masqRules ccidr lease supports_random_fully ipMasqRandomFullyDisable
  have preserved := fun (n : Host) event target => @kept_of_next print m _ _ _ _ _ n target
    (rfl : masqRules ccidr lease supports_random_fully ipMasqRandomFullyDisable = _) masquerading event
  exact along_iff_along (fun n event => placedAfter_iff rfl masquerading event) preserved
    (kept_of_fresh rfl masquerading fresh)

def nodeMasq : List IPTablesRule :=
  masqRules ⟨0x0af40000, 16⟩
    ⟨true, false, ⟨0x0af40000, 24⟩, IP6Net.zero, LeaseAttrs.zero, 1, 0⟩ true false

def createdTables : Tables where
  chains := [(("nat", "POSTROUTING"), []), (postrtg, [])]
  distinct := by decide

def freshHost : Host where
  links := fun _ => some 7
  routes := []
  rules := []
  tables := (Request.bootstrap.serve nodeMasq createdTables (List.replicate 15 .performed)).2
  built := has_play (by decide) (within_ipTablesBootstrap nodeMasq) _

theorem fresh_freshHost : Fresh nodeMasq freshHost := by
  refine ⟨createdTables, List.replicate 15 .performed, by decide, ?_⟩
  have returned : (Request.bootstrap.serve nodeMasq createdTables (List.replicate 15 .performed)).1 =
      some (.ok ()) := by decide
  exact Prod.ext returned rfl

theorem placed_before_snat :
    Fresh nodeMasq freshHost ∧ Along (chainNext save nodeManager nodeMasq)
      (PlacedAfter save nodeManager nodeMasq) freshHost
      [.delete postrtg 1, .pass (List.replicate 30 .performed),
        .ensure otherCidr.text (List.replicate 5 .performed), .pass (List.replicate 14 .performed)] := by
  have undisturbed : Along (chainNext save nodeManager nodeMasq)
      (Undisturbed save nodeManager nodeMasq) freshHost
      [.delete postrtg 1, .pass (List.replicate 30 .performed),
        .ensure otherCidr.text (List.replicate 5 .performed), .pass (List.replicate 14 .performed)] := by
    decide
  exact ⟨fresh_freshHost, (placed_iff save nodeManager _ _ true false fresh_freshHost _).mpr undisturbed⟩

/-- A network is reached, one of the masquerading rules is deleted, and the next pass puts
the rule for marked packets behind the SNAT rule. -/
theorem pass_moves_behind_snat :
    Fresh nodeMasq freshHost ∧ ¬Along (chainNext save nodeManager nodeMasq)
      (PlacedAfter save nodeManager nodeMasq) freshHost
      [.ensure otherCidr.text (List.replicate 5 .performed), .delete postrtg 2,
        .pass (List.replicate 30 .performed)] := by
  refine ⟨fresh_freshHost, ?_⟩
  decide

end Flannel.Mesh
