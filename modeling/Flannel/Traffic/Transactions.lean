import Flannel.Traffic.IPTables

/-!
# What the functions of the iptables manager do to the tables

A chain is split into its own part, the rules of a list, and the foreign part, which every
function leaves as it is. `ipTablesBootstrap` renews the own part behind it, `teardownIPTables`
deletes it, and `ensureIPTables` renews it where a rule is missing; it does not look at the order.
-/

namespace Flannel.Traffic

open Flannel.Filter Program

/-! ## The two parts of a chain -/

def IPTablesRule.home (rule : IPTablesRule) : String × String :=
  (rule.table, rule.chain)

def specs (rules : List IPTablesRule) (chain : String × String) : List (List String) :=
  (rules.filter fun rule => rule.home = chain).map IPTablesRule.rulespec

def own (rules : List IPTablesRule) (t : Tables) (chain : String × String) : List (List String) :=
  (t.contents chain).filter (· ∈ specs rules chain)

def foreign (rules : List IPTablesRule) (t : Tables) (chain : String × String) : List (List String) :=
  (t.contents chain).filter (· ∉ specs rules chain)

/-- A rule as flannel has them: it is appended, and if it ends with a chain of flannel it
jumps to it. -/
structure IPTablesRule.Managed (rule : IPTablesRule) : Prop where
  appended : rule.action = "-A"
  worded : rule.rulespec ≠ []
  jumps : ∀ name ∈ ["FLANNEL-FWD", "FLANNEL-POSTRTG"], rule.rulespec.getLast? = some name →
    target rule.home rule.rulespec = some (rule.table, name)

def AtMostOnce (rules : List IPTablesRule) (t : Tables) : Prop :=
  ∀ rule ∈ rules, (t.contents rule.home).count rule.rulespec ≤ 1

instance (rules : List IPTablesRule) (t : Tables) : Decidable (AtMostOnce rules t) :=
  List.decidableBAll _ rules

def ExactlyOnce (rules : List IPTablesRule) (t : Tables) : Prop :=
  ∀ rule ∈ rules, (t.contents rule.home).count rule.rulespec = 1

def AllPresent (rules : List IPTablesRule) (t : Tables) : Prop :=
  ∀ rule ∈ rules, rule.rulespec ∈ t.contents rule.home

instance (rules : List IPTablesRule) (t : Tables) : Decidable (AllPresent rules t) :=
  List.decidableBAll _ rules

/-- The rules that a chain has of the list are in the order of the list. -/
def InOrder (rules : List IPTablesRule) (t : Tables) : Prop :=
  ∀ chain, (own rules t chain).Sublist (specs rules chain)

def Gone (rules : List IPTablesRule) (t : Tables) : Prop :=
  ∀ rule ∈ rules, rule.rulespec ∉ t.contents rule.home

section Specs

variable {rules : List IPTablesRule} {chain : String × String} {rulespec : List String}

theorem mem_specs_iff : rulespec ∈ specs rules chain ↔
    ∃ rule ∈ rules, rule.home = chain ∧ rule.rulespec = rulespec := by
  simp [specs, and_assoc]

theorem mem_specs {rule : IPTablesRule} (mem : rule ∈ rules) : rule.rulespec ∈ specs rules rule.home :=
  mem_specs_iff.mpr ⟨rule, mem, rfl, rfl⟩

theorem specs_cons (rule : IPTablesRule) (rules : List IPTablesRule) (chain : String × String) :
    specs (rule :: rules) chain =
      if rule.home = chain then rule.rulespec :: specs rules chain else specs rules chain := by
  by_cases here : rule.home = chain <;> simp [specs, here]

theorem nodup_specs (managed : ∀ rule ∈ rules, rule.Managed) (distinct : rules.Nodup) :
    (specs rules chain).Nodup := by
  refine (distinct.filter _).map_on ?_
  intro first memFirst second memSecond same
  simp only [List.mem_filter, decide_eq_true_eq] at memFirst memSecond
  have homes := memFirst.2.trans memSecond.2.symm
  have actions := (managed first memFirst.1).appended.trans (managed second memSecond.1).appended.symm
  cases first
  cases second
  simp only [IPTablesRule.home, Prod.mk.injEq] at homes
  simp_all

theorem atMostOnce_iff {t : Tables} :
    AtMostOnce rules t ↔ ∀ chain, ∀ rulespec ∈ specs rules chain, (t.contents chain).count rulespec ≤ 1 := by
  constructor
  · intro once chain rulespec mem
    obtain ⟨rule, memRule, rfl, rfl⟩ := mem_specs_iff.mp mem
    exact once rule memRule
  · exact fun once rule mem => once rule.home rule.rulespec (mem_specs mem)

end Specs

/-! ## What a call leaves behind -/

def Same (t t' : Tables) : Prop :=
  ∀ chain, t'.contents chain = t.contents chain

def Rebuilt (rules : List IPTablesRule) (t t' : Tables) : Prop :=
  ∀ chain, t'.contents chain = (specs rules chain).foldl (renew (· ∈ t.contents chain)) (t.contents chain)

def Renewed (rules : List IPTablesRule) (t t' : Tables) : Prop :=
  ∀ chain, t'.contents chain = foreign rules t chain ++ specs rules chain

def TornDown (rules : List IPTablesRule) (t t' : Tables) : Prop :=
  ∀ chain, t'.contents chain = foreign rules t chain

section Effects

variable {rules : List IPTablesRule} {t t' : Tables}

theorem filter_foreign (chain : String × String) :
    (foreign rules t chain).filter (· ∈ specs rules chain) = [] := by
  simp [foreign, List.filter_filter]

theorem Rebuilt.renewed (managed : ∀ rule ∈ rules, rule.Managed) (distinct : rules.Nodup)
    (once : AtMostOnce rules t) (rebuilt : Rebuilt rules t t') : Renewed rules t t' := by
  intro chain
  rw [rebuilt chain, foldl_renew (nodup_specs managed distinct) (atMostOnce_iff.mp once chain)]
  rfl

theorem Renewed.own (renewed : Renewed rules t t') (chain : String × String) :
    own rules t' chain = specs rules chain := by
  rw [Traffic.own, renewed chain, List.filter_append, filter_foreign]
  simp

theorem Renewed.foreign (renewed : Renewed rules t t') (chain : String × String) :
    foreign rules t' chain = Traffic.foreign rules t chain := by
  rw [Traffic.foreign, renewed chain, List.filter_append, Traffic.foreign, List.filter_filter]
  simp

theorem Renewed.inOrder (renewed : Renewed rules t t') : InOrder rules t' := by
  intro chain
  rw [renewed.own]

theorem Renewed.exactlyOnce (managed : ∀ rule ∈ rules, rule.Managed) (distinct : rules.Nodup)
    (renewed : Renewed rules t t') : ExactlyOnce rules t' := by
  intro rule mem
  have absent : rule.rulespec ∉ Traffic.foreign rules t rule.home := by
    simp [Traffic.foreign, mem_specs mem]
  rw [renewed rule.home, List.count_append, List.count_eq_zero.mpr absent,
    List.count_eq_one_of_mem (nodup_specs managed distinct) (mem_specs mem)]

theorem TornDown.own (torn : TornDown rules t t') (chain : String × String) :
    own rules t' chain = [] := by
  rw [Traffic.own, torn chain, filter_foreign]

theorem TornDown.foreign (torn : TornDown rules t t') (chain : String × String) :
    foreign rules t' chain = Traffic.foreign rules t chain := by
  rw [Traffic.foreign, torn chain, Traffic.foreign, List.filter_filter]
  simp

theorem TornDown.gone (torn : TornDown rules t t') : Gone rules t' := by
  intro rule mem present
  have found : rule.rulespec ∈ Traffic.own rules t' rule.home := by
    simp [Traffic.own, present, mem_specs mem]
  rw [torn.own] at found
  exact List.not_mem_nil found

end Effects

/-! ## Transactions -/

def line : Edit (String × String) (List String) → String × List String
  | .delete chain rulespec => (chain.1, "-D" :: chain.2 :: rulespec)
  | .append chain rulespec => (chain.1, "-A" :: chain.2 :: rulespec)

theorem deletion_eq_line (rule : IPTablesRule) :
    rule.deletion = line (.delete rule.home rule.rulespec) :=
  rfl

theorem addition_eq_line {rule : IPTablesRule} (managed : rule.Managed) :
    rule.addition = line (.append rule.home rule.rulespec) := by
  rw [IPTablesRule.addition, managed.appended]
  rfl

theorem restore_map_line (t : Tables) (edits : List (Edit (String × String) (List String))) :
    restore t (edits.map line) = t.commit target edits := by
  have read : (edits.map line).mapM edit = some edits := by
    induction edits with
    | nil => rfl
    | cons first edits ih =>
      have one : edit (line first) = some first := by cases first <;> rfl
      simp [one, ih]
  rw [restore, read]
  rfl

def renewal (rules : List IPTablesRule) (t : Tables) : List (Edit (String × String) (List String)) :=
  rules.flatMap fun rule =>
    (if rule.rulespec ∈ t.contents rule.home then [.delete rule.home rule.rulespec] else []) ++
      [.append rule.home rule.rulespec]

def removal (rules : List IPTablesRule) (t : Tables) : List (Edit (String × String) (List String)) :=
  (rules.filter fun rule => rule.rulespec ∈ t.contents rule.home).map fun rule =>
    .delete rule.home rule.rulespec

section Transactions

variable {rules : List IPTablesRule} {t t' s : Tables}

theorem foldl_renewal (chain : String × String) (start : List (List String)) :
    (renewal rules t).foldl (fun kept edit => edit.on chain kept) start =
      (specs rules chain).foldl (renew (· ∈ t.contents chain)) start := by
  induction rules generalizing start with
  | nil => rfl
  | cons rule rules ih =>
    rw [renewal, List.flatMap_cons, List.foldl_append, ← renewal, ih, specs_cons]
    by_cases here : rule.home = chain
    · subst here
      by_cases present : rule.rulespec ∈ t.contents rule.home <;> simp [Edit.on, renew, present]
    · by_cases present : rule.rulespec ∈ t.contents rule.home <;> simp [Edit.on, here, present]

theorem foldl_removal (chain : String × String) (start : List (List String)) :
    (removal rules t).foldl (fun kept edit => edit.on chain kept) start =
      ((specs rules chain).filter (· ∈ t.contents chain)).foldl List.erase start := by
  induction rules generalizing start with
  | nil => rfl
  | cons rule rules ih =>
    rw [specs_cons]
    by_cases here : rule.home = chain
    · subst here
      by_cases present : rule.rulespec ∈ t.contents rule.home
      · simpa [removal, present, Edit.on] using ih (start.erase rule.rulespec)
      · simpa [removal, present] using ih start
    · by_cases present : rule.rulespec ∈ t.contents rule.home
      · simpa [removal, present, here, Edit.on] using ih start
      · simpa [removal, present, here] using ih start

theorem rebuilt_of_restore (same : Same t s)
    (restored : restore s ((renewal rules t).map line) = some t') : Rebuilt rules t t' := by
  intro chain
  rw [restore_map_line] at restored
  rw [contents_commit restored, same chain, foldl_renewal]

theorem tornDown_of_restore (once : AtMostOnce rules t)
    (restored : restore t ((removal rules t).map line) = some t') : TornDown rules t t' := by
  intro chain
  rw [restore_map_line] at restored
  rw [contents_commit restored, foldl_removal, foldl_erase]
  · apply List.filter_congr
    intro rulespec mem
    simp [mem]
  · exact fun rulespec mem => atMostOnce_iff.mp once chain rulespec (List.mem_filter.mp mem).1

end Transactions

/-! ## What the functions do -/

section Functions

variable {C : Tables → Prop} {rules : List IPTablesRule} {t s : Tables}

theorem endures_checked {call : Call} {value : Value call} {t' : Tables} (text : String)
    (answered : answer t call = (.ok value, t')) (before : C t) (after : C t') :
    Endures answer failure C (Ends (fun _ => C) fun result s => s = t' ∧ result = value)
      (checked text call) t :=
  endures_wrap (endures_answered answered before after)

theorem endures_refused {call : Call} {err : String} {t' : Tables}
    {Post : Value call → Tables → Prop} (text : String)
    (answered : answer t call = (.error err, t')) (before : C t) (after : C t') :
    Endures answer failure C (Ends (fun _ => C) Post) (checked text call) t :=
  endures_wrap (endures_rejected answered before after)

theorem endures_lookUp (rule : IPTablesRule) (holds : C t) :
    Endures answer failure C
      (Ends (fun _ => C) fun found s =>
        s = t ∧ found = decide (rule.rulespec ∈ t.contents rule.home))
      rule.lookUp t := by
  have asked : answer t (.ruleExists rule.table rule.chain rule.rulespec) =
      (.ok (decide (rule.rulespec ∈ t.contents rule.home)), t) := rfl
  exact endures_checked _ asked holds holds

def IPTablesRule.Ready (rule : IPTablesRule) (t : Tables) : Prop :=
  rule.rulespec ∈ t.contents rule.home →
    ∀ chain, rule.flannelChain = some chain → t.has (rule.table, chain) = true

theorem IPTablesRule.Managed.ready {rule : IPTablesRule} (managed : rule.Managed)
    (closed : t.Closed target) : rule.Ready t := by
  intro mem chain isChain
  have there : ∀ name ∈ ["FLANNEL-FWD", "FLANNEL-POSTRTG"],
      rule.chain = name ∨ rule.rulespec.getLast? = some name → t.has (rule.table, name) := by
    intro name isName named
    rcases named with rfl | last
    · exact Tables.has_of_mem mem
    · exact Tables.accepts_iff.mp (closed rule.home _ mem) _ (managed.jumps name isName last)
  rw [IPTablesRule.flannelChain] at isChain
  split_ifs at isChain with forward postrouting
  · obtain rfl := Option.some.inj isChain
    exact there _ (by simp) forward
  · obtain rfl := Option.some.inj isChain
    exact there _ (by simp) postrouting

theorem endures_present {rule : IPTablesRule} (ready : rule.Ready t) (holds : C t) :
    Endures answer failure C
      (Ends (fun _ => C) fun found s =>
        s = t ∧ found = decide (rule.rulespec ∈ t.contents rule.home))
      rule.present t := by
  rw [IPTablesRule.present]
  split
  · exact endures_lookUp rule holds
  · next chain isChain =>
    have asked : answer t (.chainExists rule.table chain) = (.ok (t.has (rule.table, chain)), t) := rfl
    apply endures_attempt
    refine (endures_checked _ asked holds holds).imp ?_
    intro result s ends
    cases result with
    | error err => exact ends
    | ok found =>
      obtain ⟨rfl, rfl⟩ := ends
      cases there : s.has (rule.table, chain) with
      | true => exact endures_lookUp rule holds
      | false =>
        refine .ret ⟨rfl, (decide_eq_false fun mem => ?_).symm⟩
        rw [ready mem chain isChain] at there
        exact Bool.noConfusion there

theorem endures_ipTablesRulesExist (ready : ∀ rule ∈ rules, rule.Ready t) (holds : C t) :
    Endures answer failure C
      (Ends (fun _ => C) fun all s => s = t ∧ (all = true ↔ AllPresent rules t))
      (ipTablesRulesExist rules) t := by
  induction rules with
  | nil => exact .ret ⟨rfl, by simp [AllPresent]⟩
  | cons rule rules ih =>
    rw [List.forall_mem_cons] at ready
    apply endures_attempt
    refine (endures_present ready.1 holds).imp ?_
    intro result s ends
    cases result with
    | error err => exact ends
    | ok found =>
      obtain ⟨rfl, rfl⟩ := ends
      by_cases mem : rule.rulespec ∈ s.contents rule.home
      · simpa [mem, AllPresent] using ih ready.2
      · rw [decide_eq_false mem]
        refine .ret ⟨rfl, ?_⟩
        simp [AllPresent, mem]

theorem endures_chainReady (rule : IPTablesRule) (holds : ∀ s, Same t s → C s) (same : Same t s) :
    Endures answer failure C (Ends (fun _ => C) fun _ s => Same t s) rule.chainReady s := by
  rw [IPTablesRule.chainReady]
  split
  · exact .ret same
  · next chain _ =>
    have asked : answer s (.chainExists rule.table chain) = (.ok (s.has (rule.table, chain)), s) := rfl
    apply endures_attempt
    refine (endures_checked _ asked (holds s same) (holds s same)).imp ?_
    intro result middle ends
    cases result with
    | error err => exact ends
    | ok found =>
      obtain ⟨rfl, rfl⟩ := ends
      cases there : middle.has (rule.table, chain) with
      | true => exact .ret same
      | false =>
        have created : Same t (middle.set (rule.table, chain) []) := by
          intro other
          rw [Tables.contents_set, ← same other]
          split_ifs with here
          · rw [here, Tables.contents_of_has_eq_false there]
          · rfl
        have cleared : answer middle (.clearChain rule.table chain) =
            (.ok (), middle.set (rule.table, chain) []) := rfl
        refine (endures_checked _ cleared (holds middle same) (holds _ created)).imp ?_
        intro result last ends
        cases result with
        | error err => exact ends
        | ok value => exact ends.1 ▸ created

theorem endures_ipTablesCleanAndBuild (managed : ∀ rule ∈ rules, rule.Managed)
    (holds : ∀ s, Same t s → C s) (same : Same t s) :
    Endures answer failure C
      (Ends (fun _ => C) fun lines s => Same t s ∧ lines = (renewal rules t).map line)
      (ipTablesCleanAndBuild rules) s := by
  induction rules generalizing s with
  | nil => exact .ret ⟨same, rfl⟩
  | cons rule rules ih =>
    rw [List.forall_mem_cons] at managed
    apply endures_attempt
    refine (endures_chainReady rule holds same).imp ?_
    intro result middle ends
    cases result with
    | error err => exact ends
    | ok value =>
      apply endures_attempt
      refine (endures_lookUp rule (holds middle ends)).imp ?_
      intro result later found
      cases result with
      | error err => exact found
      | ok present =>
        obtain ⟨rfl, rfl⟩ := found
        apply endures_attempt
        refine (ih managed.2 ends).imp ?_
        intro result last built
        cases result with
        | error err => exact built
        | ok lines =>
          refine .ret ⟨built.1, ?_⟩
          rw [ends_ok] at ends
          rw [built.2, ends rule.home, deletion_eq_line, addition_eq_line managed.1]
          by_cases mem : rule.rulespec ∈ t.contents rule.home <;> simp [renewal, mem]

theorem endures_ipTablesBootstrap (managed : ∀ rule ∈ rules, rule.Managed) :
    Endures answer failure (fun s => Same t s ∨ Rebuilt rules t s)
      (Ends (fun _ s => Same t s ∨ Rebuilt rules t s) fun _ s => Rebuilt rules t s)
      (ipTablesBootstrap rules) t := by
  apply endures_attempt
  apply endures_wrap
  refine (endures_ipTablesCleanAndBuild managed (fun s => Or.inl) (fun _ => rfl)).imp ?_
  intro result s built
  cases result with
  | error err => exact built
  | ok lines =>
    obtain ⟨same, rfl⟩ := built
    simp only [ends_ok]
    cases restored : restore s ((renewal rules t).map line) with
    | none =>
      have refused : answer s (.applyWithoutFlush ((renewal rules t).map line)) =
          (.error "unable to run iptables-restore", s) := by simp [answer, restored]
      exact endures_refused _ refused (.inl same) (.inl same)
    | some rebuilt =>
      have isRebuilt := rebuilt_of_restore same restored
      have applied : answer s (.applyWithoutFlush ((renewal rules t).map line)) =
          (.ok (), rebuilt) := by simp [answer, restored]
      refine (endures_checked _ applied (.inl same) (.inr isRebuilt)).imp ?_
      intro result last ends
      cases result with
      | error err => exact ends
      | ok value => exact ends.1 ▸ isRebuilt

theorem endures_ensureIPTables (managed : ∀ rule ∈ rules, rule.Managed)
    (ready : ∀ rule ∈ rules, rule.Ready t) :
    Endures answer failure (fun s => Same t s ∨ Rebuilt rules t s)
      (Ends (fun _ s => Same t s ∨ Rebuilt rules t s) fun _ s =>
        (AllPresent rules t ∧ s = t) ∨ (¬AllPresent rules t ∧ Rebuilt rules t s))
      (ensureIPTables rules) t := by
  have unchanged : Same t t := fun _ => rfl
  apply endures_attempt
  apply endures_wrap
  refine (endures_ipTablesRulesExist ready (Or.inl unchanged)).imp ?_
  intro result s ends
  cases result with
  | error err => exact ends
  | ok all =>
    obtain ⟨rfl, isAll⟩ := ends
    cases all with
    | true => exact .ret (.inl ⟨isAll.mp rfl, rfl⟩)
    | false =>
      have missing : ¬AllPresent rules s := fun present => Bool.noConfusion (isAll.mpr present)
      apply endures_wrap
      refine (endures_ipTablesBootstrap managed).imp ?_
      intro result last ends
      cases result with
      | error err => exact ends
      | ok value => exact .inr ⟨missing, ends⟩

theorem endures_teardownLines (ready : ∀ rule ∈ rules, rule.Ready t) (holds : C t) :
    Endures answer failure C
      (Ends (fun _ => C) fun lines s => s = t ∧ lines = (removal rules t).map line)
      (teardownLines rules) t := by
  induction rules with
  | nil => exact .ret ⟨rfl, rfl⟩
  | cons rule rules ih =>
    rw [List.forall_mem_cons] at ready
    apply endures_attempt
    refine (endures_present ready.1 holds).imp ?_
    intro result s ends
    cases result with
    | error err => exact ends
    | ok found =>
      obtain ⟨rfl, rfl⟩ := ends
      apply endures_attempt
      refine (ih ready.2).imp ?_
      intro result last built
      cases result with
      | error err => exact built
      | ok lines =>
        refine .ret ⟨built.1, ?_⟩
        rw [built.2, deletion_eq_line]
        by_cases mem : rule.rulespec ∈ s.contents rule.home <;> simp [removal, mem]

theorem endures_teardownIPTables (ready : ∀ rule ∈ rules, rule.Ready t) (once : AtMostOnce rules t) :
    Endures answer failure (fun s => Same t s ∨ TornDown rules t s)
      (Ends (fun _ s => Same t s ∨ TornDown rules t s) fun _ s => TornDown rules t s)
      (teardownIPTables rules) t := by
  have unchanged : Same t t := fun _ => rfl
  apply endures_attempt
  refine (endures_teardownLines ready (Or.inl unchanged)).imp ?_
  intro result s built
  cases result with
  | error err => exact built
  | ok lines =>
    obtain ⟨rfl, rfl⟩ := built
    simp only [ends_ok]
    cases restored : restore s ((removal rules s).map line) with
    | none =>
      have refused : answer s (.applyWithoutFlush ((removal rules s).map line)) =
          (.error "unable to run iptables-restore", s) := by simp [answer, restored]
      exact endures_refused _ refused (.inl unchanged) (.inl unchanged)
    | some torn =>
      have isTorn := tornDown_of_restore once restored
      have applied : answer s (.applyWithoutFlush ((removal rules s).map line)) =
          (.ok (), torn) := by simp [answer, restored]
      refine (endures_checked _ applied (.inl unchanged) (.inr isTorn)).imp ?_
      intro result last ends
      cases result with
      | error err => exact ends
      | ok value => exact ends.1 ▸ isTorn

end Functions

end Flannel.Traffic
