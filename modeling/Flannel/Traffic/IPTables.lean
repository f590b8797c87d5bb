import Flannel.Filter.Tables
import Flannel.Program.Fallible
import Flannel.Text.Fields
import Flannel.Traffic.Rules

/-!
# The rules of flannel in iptables

The functions of the iptables manager as programs over `IPTables` and `IPTablesRestore`, and the
tables of one family that answer them. A transaction is one list of lines, each with its table:
the order of two lines of different tables has no effect.
-/

namespace Flannel.Traffic

open Flannel.Filter Ip Program

/-! ## Requests -/

inductive Call
  | chainExists (table chain : String)
  | ruleExists (table chain : String) (rulespec : List String)
  | clearChain (table chain : String)
  | clearAndDeleteChain (table chain : String)
  | applyWithoutFlush (lines : List (String × List String))
  deriving DecidableEq

abbrev Value : Call → Type
  | .chainExists _ _ => Bool
  | .ruleExists _ _ _ => Bool
  | _ => Unit

abbrev Res (call : Call) : Type :=
  Except String (Value call)

abbrev Action := Prog Call Res

def checked (text : String) (call : Call) : Action (Except String (Value call)) :=
  wrap (text ++ ·) (Prog.request call)

/-! ## The source functions -/

def forwardRules (flannelNetwork : String) : List IPTablesRule :=
  [⟨"filter", "-A", "FORWARD", ["-m", "comment", "--comment", "flanneld forward", "-j", "FLANNEL-FWD"]⟩,
    ⟨"filter", "-A", "FLANNEL-FWD",
      ["-s", flannelNetwork, "-m", "comment", "--comment", "flanneld forward", "-j", "ACCEPT"]⟩,
    ⟨"filter", "-A", "FLANNEL-FWD",
      ["-d", flannelNetwork, "-m", "comment", "--comment", "flanneld forward", "-j", "ACCEPT"]⟩]

namespace IPTablesRule

variable (rule : IPTablesRule)

def flannelChain : Option String :=
  if rule.chain = "FLANNEL-FWD" ∨ rule.rulespec.getLast? = some "FLANNEL-FWD" then some "FLANNEL-FWD"
  else if rule.chain = "FLANNEL-POSTRTG" ∨ rule.rulespec.getLast? = some "FLANNEL-POSTRTG" then
    some "FLANNEL-POSTRTG"
  else none

def lookUp : Action (Except String Bool) :=
  checked "failed to check rule existence: " (.ruleExists rule.table rule.chain rule.rulespec)

def present : Action (Except String Bool) :=
  match rule.flannelChain with
  | none => rule.lookUp
  | some chain =>
    attempt (checked "failed to check rule existence: " (.chainExists rule.table chain)) fun
      | false => pure (.ok false)
      | true => rule.lookUp

def chainReady : Action (Except String Unit) :=
  match rule.flannelChain with
  | none => pure (.ok ())
  | some chain =>
    attempt (checked "failed to check rule existence: " (.chainExists rule.table chain)) fun
      | true => pure (.ok ())
      | false => checked "failed to create rule chain: " (.clearChain rule.table chain)

def deletion : String × List String :=
  (rule.table, "-D" :: rule.chain :: rule.rulespec)

def addition : String × List String :=
  (rule.table, rule.action :: rule.chain :: rule.rulespec)

end IPTablesRule

def ipTablesRulesExist : List IPTablesRule → Action (Except String Bool)
  | [] => pure (.ok true)
  | rule :: rules =>
    attempt rule.present fun
      | false => pure (.ok false)
      | true => ipTablesRulesExist rules

def ipTablesCleanAndBuild :
    List IPTablesRule → Action (Except String (List (String × List String)))
  | [] => pure (.ok [])
  | rule :: rules =>
    attempt rule.chainReady fun _ =>
      attempt rule.lookUp fun found =>
        attempt (ipTablesCleanAndBuild rules) fun lines =>
          pure (.ok ((if found then [rule.deletion] else []) ++ rule.addition :: lines))

def ipTablesBootstrap (rules : List IPTablesRule) : Action (Except String Unit) :=
  attempt (wrap ("failed to setup iptables-restore payload: " ++ ·) (ipTablesCleanAndBuild rules))
    fun lines => checked "failed to apply partial iptables-restore " (.applyWithoutFlush lines)

def ensureIPTables (rules : List IPTablesRule) : Action (Except String Unit) :=
  attempt (wrap ("error checking rule existence: " ++ ·) (ipTablesRulesExist rules)) fun
    | true => pure (.ok ())
    | false => wrap ("error setting up rules: " ++ ·) (ipTablesBootstrap rules)

def teardownLines : List IPTablesRule → Action (Except String (List (String × List String)))
  | [] => pure (.ok [])
  | rule :: rules =>
    attempt rule.present fun found =>
      attempt (teardownLines rules) fun lines =>
        pure (.ok (if found then rule.deletion :: lines else lines))

def teardownIPTables (rules : List IPTablesRule) : Action (Except String Unit) :=
  attempt (teardownLines rules) fun lines =>
    checked "unable to teardown iptables: " (.applyWithoutFlush lines)

/-! ## The tables that answer -/

/-- The chains of one family, each under its table and its name, with the rules given by their
words. -/
abbrev Tables := Filter.Tables (String × String) (List String)

def jump : List String → Option String
  | flag :: name :: words => if flag = "-j" then some name else jump (name :: words)
  | _ => none

def target (chain : String × String) (rulespec : List String) : Option (String × String) :=
  match jump rulespec with
  | some "FLANNEL-FWD" => some (chain.1, "FLANNEL-FWD")
  | some "FLANNEL-POSTRTG" => some (chain.1, "FLANNEL-POSTRTG")
  | _ => none

def edit : String × List String → Option (Edit (String × String) (List String))
  | (table, "-D" :: chain :: rulespec) => some (.delete (table, chain) rulespec)
  | (table, "-A" :: chain :: rulespec) => some (.append (table, chain) rulespec)
  | _ => none

def restore (t : Tables) (lines : List (String × List String)) : Option Tables :=
  (lines.mapM edit).bind (t.commit target)

def answer (t : Tables) : (call : Call) → Res call × Tables
  | .chainExists table chain => (.ok (t.has (table, chain)), t)
  | .ruleExists table chain rulespec => (.ok (decide (rulespec ∈ t.contents (table, chain))), t)
  | .clearChain table chain => (.ok (), t.set (table, chain) [])
  | .clearAndDeleteChain table chain =>
    if t.has (table, chain) then
      match (t.set (table, chain) []).remove target (table, chain) with
      | some removed => (.ok (), removed)
      | none => (.error "CHAIN_DEL failed (Device or resource busy)", t.set (table, chain) [])
    else (.ok (), t)
  | .applyWithoutFlush lines =>
    match restore t lines with
    | some restored => (.ok (), restored)
    | none => (.error "unable to run iptables-restore", t)

def failure (text : String) (call : Call) : Res call :=
  .error text

theorem closed_answer {t : Tables} (closed : t.Closed target) (call : Call) :
    (answer t call).2.Closed target := by
  cases call with
  | chainExists table chain => exact closed
  | ruleExists table chain rulespec => exact closed
  | clearChain table chain => exact closed.set_sublist (List.nil_sublist _)
  | clearAndDeleteChain table chain =>
    have cleared := closed.set_sublist (List.nil_sublist (t.contents (table, chain)))
    simp only [answer]
    split
    · split
      · next removed => exact cleared.remove removed
      · exact cleared
    · exact closed
  | applyWithoutFlush lines =>
    simp only [answer]
    split
    · next restored =>
      obtain ⟨edits, -, committed⟩ := Option.bind_eq_some_iff.mp restored
      exact closed_commit closed committed
    · exact closed

theorem closed_play {α : Type} {t : Tables} (closed : t.Closed target) (script : List (Outcome String))
    (program : Action α) : (play answer failure script t program).2.Closed target := by
  have kept : ∀ (t : Tables) call, True → t.Closed target → (answer t call).2.Closed target :=
    fun _ call _ closed => closed_answer closed call
  exact invariant_play (within_true program) kept closed script

/-! ## Chains stay -/

def Call.KeepsChains : Call → Prop
  | .clearAndDeleteChain _ _ => False
  | _ => True

theorem has_answer {t : Tables} {chain : String × String} (isThere : t.has chain) {call : Call}
    (keeps : call.KeepsChains) : (answer t call).2.has chain := by
  cases call with
  | chainExists table name => exact isThere
  | ruleExists table name rulespec => exact isThere
  | clearChain table name => exact Filter.Tables.has_set_of_has [] isThere
  | clearAndDeleteChain table name => exact keeps.elim
  | applyWithoutFlush lines =>
    simp only [answer]
    split
    · next restored =>
      obtain ⟨edits, -, committed⟩ := Option.bind_eq_some_iff.mp restored
      rw [has_commit committed]
      exact isThere
    · exact isThere

theorem within_checked (text : String) {call : Call} (keeps : call.KeepsChains) :
    Within Call.KeepsChains (checked text call) :=
  within_wrap (within_request keeps)

theorem within_lookUp (rule : IPTablesRule) : Within Call.KeepsChains rule.lookUp :=
  within_checked _ trivial

theorem within_present (rule : IPTablesRule) : Within Call.KeepsChains rule.present := by
  rw [IPTablesRule.present]
  split
  · exact within_lookUp rule
  · refine within_attempt (within_checked _ trivial) fun found => ?_
    cases found with
    | false => exact .ret
    | true => exact within_lookUp rule

theorem within_chainReady (rule : IPTablesRule) : Within Call.KeepsChains rule.chainReady := by
  rw [IPTablesRule.chainReady]
  split
  · exact .ret
  · refine within_attempt (within_checked _ trivial) fun found => ?_
    cases found with
    | false => exact within_checked _ trivial
    | true => exact .ret

theorem within_ipTablesRulesExist (rules : List IPTablesRule) :
    Within Call.KeepsChains (ipTablesRulesExist rules) := by
  induction rules with
  | nil => exact .ret
  | cons rule rules ih =>
    refine within_attempt (within_present rule) fun found => ?_
    cases found with
    | false => exact .ret
    | true => exact ih

theorem within_ipTablesBootstrap (rules : List IPTablesRule) :
    Within Call.KeepsChains (ipTablesBootstrap rules) := by
  have built : Within Call.KeepsChains (ipTablesCleanAndBuild rules) := by
    induction rules with
    | nil => exact .ret
    | cons rule rules ih =>
      refine within_attempt (within_chainReady rule) fun _ => ?_
      refine within_attempt (within_lookUp rule) fun _ => ?_
      exact within_attempt ih fun _ => .ret
  exact within_attempt (within_wrap built) fun _ => within_checked _ trivial

theorem within_ensureIPTables (rules : List IPTablesRule) :
    Within Call.KeepsChains (ensureIPTables rules) := by
  refine within_attempt (within_wrap (within_ipTablesRulesExist rules)) fun all => ?_
  cases all with
  | false => exact within_wrap (within_ipTablesBootstrap rules)
  | true => exact .ret

theorem within_teardownIPTables (rules : List IPTablesRule) :
    Within Call.KeepsChains (teardownIPTables rules) := by
  have built : Within Call.KeepsChains (teardownLines rules) := by
    induction rules with
    | nil => exact .ret
    | cons rule rules ih =>
      refine within_attempt (within_present rule) fun _ => ?_
      exact within_attempt ih fun _ => .ret
  exact within_attempt built fun _ => within_checked _ trivial

theorem has_play {α : Type} {t : Tables} {chain : String × String} (isThere : t.has chain)
    {program : Action α} (within : Within Call.KeepsChains program) (script : List (Outcome String)) :
    (play answer failure script t program).2.has chain := by
  have kept : ∀ (t : Tables) call, Call.KeepsChains call → t.has chain →
      (answer t call).2.has chain := fun _ _ keeps isThere => has_answer isThere keeps
  exact invariant_play within kept isThere script

end Flannel.Traffic
