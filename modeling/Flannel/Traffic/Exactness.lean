import Flannel.Traffic.Transactions
import Flannel.Transition.Core
import Mathlib.Data.List.InsertIdx

/-!
# Runs of the iptables manager

The calls of the manager, which may fail or be cut short, between changes from outside. In every
run a rule of the list occurs at most once, and rules that are in order stay so.
-/

namespace Flannel.Traffic

open Flannel.Filter Program Transition

inductive Request
  | bootstrap
  | ensure
  | teardown
  deriving DecidableEq

def Request.program (rules : List IPTablesRule) : Request → Action (Except String Unit)
  | .bootstrap => ipTablesBootstrap rules
  | .ensure => ensureIPTables rules
  | .teardown => teardownIPTables rules

def Request.serve (rules : List IPTablesRule) (t : Tables) (request : Request)
    (script : List (Outcome String)) : Option (Except String Unit) × Tables :=
  play answer failure script t (request.program rules)

inductive Event
  | call (request : Request) (script : List (Outcome String))
  | insert (chain : String × String) (pos : Nat) (rulespec : List String)
  | delete (chain : String × String) (pos : Nat)
  | remove (chain : String × String)
  deriving DecidableEq

/-- What an event does. From outside, no rule of the list is inserted, any rule is deleted, and
any chain that no other jumps to is removed. -/
def next (rules : List IPTablesRule) : Step Tables Event
  | t, .call request script => some (request.serve rules t script).2
  | t, .insert chain pos rulespec =>
    if t.has chain && t.accepts target chain rulespec && !(specs rules chain).contains rulespec then
      some (t.set chain ((t.contents chain).insertIdx pos rulespec))
    else none
  | t, .delete chain pos =>
    if t.has chain then some (t.set chain ((t.contents chain).eraseIdx pos)) else none
  | t, .remove chain => t.remove target chain

def Request.Achieves (rules : List IPTablesRule) (t left : Tables) : Request → Prop
  | .bootstrap => ExactlyOnce rules left ∧ InOrder rules left
  | .ensure =>
    ExactlyOnce rules left ∧ (InOrder rules left ↔ InOrder rules t ∨ ¬AllPresent rules t)
  | .teardown => Gone rules left

/-- In the course of the events `ipTablesBootstrap` has returned nil. -/
def Bootstrapped (rules : List IPTablesRule) (t : Tables) (events : List Event) : Prop :=
  ∃ before script after middle, events = before ++ .call .bootstrap script :: after ∧
    run (next rules) t before = some middle ∧
    (Request.bootstrap.serve rules middle script).1 = some (.ok ())

section Runs

variable {rules : List IPTablesRule} {t t' : Tables}

theorem ExactlyOnce.of_allPresent (once : AtMostOnce rules t) (all : AllPresent rules t) :
    ExactlyOnce rules t := by
  intro rule mem
  have positive := List.count_pos_iff.mpr (all rule mem)
  have bounded := once rule mem
  omega

theorem filter_insertIdx_of_neg {α : Type} {p : α → Bool} {x : α} (rejected : ¬p x)
    (xs : List α) (pos : Nat) : (xs.insertIdx pos x).filter p = xs.filter p := by
  induction xs generalizing pos with
  | nil => cases pos <;> simp [rejected]
  | cons y ys ih =>
    cases pos with
    | zero => simp [rejected]
    | succ pos => simp [List.filter_cons, ih pos]

theorem count_own {rule : IPTablesRule} (mem : rule ∈ rules) :
    (own rules t rule.home).count rule.rulespec = (t.contents rule.home).count rule.rulespec :=
  List.count_filter (by simpa using mem_specs mem)

def Request.Done (rules : List IPTablesRule) (t left : Tables) : Request → Prop
  | .bootstrap => Rebuilt rules t left
  | .ensure => (AllPresent rules t ∧ left = t) ∨ (¬AllPresent rules t ∧ Rebuilt rules t left)
  | .teardown => TornDown rules t left

def Request.Begun (rules : List IPTablesRule) (t left : Tables) : Request → Prop
  | .teardown => Same t left ∨ TornDown rules t left
  | _ => Same t left ∨ Rebuilt rules t left

theorem endures_program (managed : ∀ rule ∈ rules, rule.Managed)
    (closed : t.Closed target) (once : AtMostOnce rules t) (request : Request) :
    Endures answer failure (request.Begun rules t)
      (Ends (fun _ s => request.Begun rules t s) fun _ s => request.Done rules t s)
      (request.program rules) t := by
  cases request with
  | bootstrap => exact endures_ipTablesBootstrap managed
  | ensure => exact endures_ensureIPTables managed fun rule mem => (managed rule mem).ready closed
  | teardown => exact endures_teardownIPTables (fun rule mem => (managed rule mem).ready closed) once

theorem achieves_of_done (managed : ∀ rule ∈ rules, rule.Managed) (distinct : rules.Nodup)
    (once : AtMostOnce rules t) {request : Request} (done : request.Done rules t t') :
    request.Achieves rules t t' := by
  cases request with
  | bootstrap =>
    have renewed := done.renewed managed distinct once
    exact ⟨renewed.exactlyOnce managed distinct, renewed.inOrder⟩
  | ensure =>
    rcases done with ⟨all, rfl⟩ | ⟨missing, rebuilt⟩
    · exact ⟨.of_allPresent once all, by simp [all]⟩
    · have renewed := rebuilt.renewed managed distinct once
      exact ⟨renewed.exactlyOnce managed distinct, by simp [missing, renewed.inOrder]⟩
  | teardown => exact done.gone

theorem serve_cases (managed : ∀ rule ∈ rules, rule.Managed) (distinct : rules.Nodup)
    (closed : t.Closed target) (once : AtMostOnce rules t) (request : Request)
    (script : List (Outcome String)) :
    Same t (request.serve rules t script).2 ∨ Renewed rules t (request.serve rules t script).2 ∨
      TornDown rules t (request.serve rules t script).2 := by
  rcases (endures_program managed closed once request).ends script with
    ⟨_, -, done⟩ | ⟨-, begun⟩
  · cases request with
    | bootstrap => exact .inr (.inl (done.renewed managed distinct once))
    | ensure =>
      rcases done with ⟨-, unchanged⟩ | ⟨-, rebuilt⟩
      · refine .inl fun chain => ?_
        rw [Request.serve, unchanged]
      · exact .inr (.inl (rebuilt.renewed managed distinct once))
    | teardown => exact .inr (.inr done)
  · cases request with
    | bootstrap => exact begun.imp id fun rebuilt => .inl (rebuilt.renewed managed distinct once)
    | ensure => exact begun.imp id fun rebuilt => .inl (rebuilt.renewed managed distinct once)
    | teardown => exact begun.imp id .inr

theorem foreign_serve (managed : ∀ rule ∈ rules, rule.Managed) (distinct : rules.Nodup)
    (closed : t.Closed target) (once : AtMostOnce rules t) (request : Request)
    (script : List (Outcome String)) (chain : String × String) :
    foreign rules (request.serve rules t script).2 chain = foreign rules t chain := by
  rcases serve_cases managed distinct closed once request script with same | renewed | torn
  · rw [foreign, same chain, foreign]
  · exact renewed.foreign chain
  · exact torn.foreign chain

theorem next_cases (managed : ∀ rule ∈ rules, rule.Managed) (distinct : rules.Nodup)
    (closed : t.Closed target) (once : AtMostOnce rules t) {event : Event}
    (step : next rules t event = some t') :
    t'.Closed target ∧ ((∀ chain, (own rules t' chain).Sublist (own rules t chain)) ∨
      Renewed rules t t') := by
  cases event with
  | call request script =>
    obtain rfl := Option.some.inj step
    refine ⟨closed_play closed script _, ?_⟩
    rcases serve_cases managed distinct closed once request script with same | renewed | torn
    · refine .inl fun chain => ?_
      rw [own, same chain, own]
    · exact .inr renewed
    · refine .inl fun chain => ?_
      rw [torn.own]
      exact List.nil_sublist _
  | insert chain pos rulespec =>
    rw [next] at step
    split_ifs at step with accepted
    obtain rfl := Option.some.inj step
    simp only [Bool.and_eq_true, Bool.not_eq_true', List.contains_eq_mem, decide_eq_false_iff_not]
      at accepted
    constructor
    · refine closed.set fun other mem => Tables.accepts_mono (fun _ => Tables.has_set_of_has _) ?_
      rcases List.eq_or_mem_of_mem_insertIdx mem with rfl | mem
      · exact accepted.1.2
      · exact closed chain other mem
    · refine .inl fun other => ?_
      rw [own, Tables.contents_set]
      split_ifs with same
      · subst same
        rw [filter_insertIdx_of_neg (by simpa using accepted.2)]
        exact List.Sublist.refl _
      · exact List.Sublist.refl _
  | delete chain pos =>
    rw [next] at step
    split_ifs at step
    obtain rfl := Option.some.inj step
    have fewer := List.eraseIdx_sublist (t.contents chain) pos
    refine ⟨closed.set_sublist fewer, .inl fun other => ?_⟩
    rw [own, Tables.contents_set]
    split_ifs with same
    · subst same
      exact fewer.filter _
    · exact List.Sublist.refl _
  | remove chain =>
    refine ⟨closed.remove step, .inl fun other => ?_⟩
    rw [next, Tables.remove] at step
    split_ifs at step
    obtain rfl := Option.some.inj step
    rw [own, Tables.contents_drop]
    split_ifs
    · exact List.nil_sublist _
    · exact List.Sublist.refl _

theorem AtMostOnce.of_cases (managed : ∀ rule ∈ rules, rule.Managed) (distinct : rules.Nodup)
    (once : AtMostOnce rules t)
    (left : (∀ chain, (own rules t' chain).Sublist (own rules t chain)) ∨ Renewed rules t t') :
    AtMostOnce rules t' := by
  intro rule mem
  rcases left with fewer | renewed
  · calc
      (t'.contents rule.home).count rule.rulespec = (own rules t' rule.home).count rule.rulespec :=
        (count_own mem).symm
      _ ≤ (own rules t rule.home).count rule.rulespec := (fewer rule.home).count_le _
      _ = (t.contents rule.home).count rule.rulespec := count_own mem
      _ ≤ 1 := once rule mem
  · exact (renewed.exactlyOnce managed distinct rule mem).le

theorem InOrder.of_cases (ordered : InOrder rules t)
    (left : (∀ chain, (own rules t' chain).Sublist (own rules t chain)) ∨ Renewed rules t t') :
    InOrder rules t' := by
  rcases left with fewer | renewed
  · exact fun chain => (fewer chain).trans (ordered chain)
  · exact renewed.inOrder

theorem invariant_of_events (managed : ∀ rule ∈ rules, rule.Managed) (distinct : rules.Nodup)
    (closed : t.Closed target) (once : AtMostOnce rules t) {events : List Event}
    (reached : run (next rules) t events = some t') :
    t'.Closed target ∧ AtMostOnce rules t' ∧ (InOrder rules t → InOrder rules t') := by
  have preserved : ∀ s event s', s.Closed target ∧ AtMostOnce rules s ∧ (InOrder rules t → InOrder rules s) →
      next rules s event = some s' →
      s'.Closed target ∧ AtMostOnce rules s' ∧ (InOrder rules t → InOrder rules s') := by
    rintro s event s' ⟨closed, once, keeps⟩ step
    obtain ⟨closed', left⟩ := next_cases managed distinct closed once step
    exact ⟨closed', once.of_cases managed distinct left, fun ordered => (keeps ordered).of_cases left⟩
  exact invariant_of_run preserved ⟨closed, once, id⟩ reached

theorem serve_done (managed : ∀ rule ∈ rules, rule.Managed)
    (closed : t.Closed target) (once : AtMostOnce rules t) {request : Request}
    {script : List (Outcome String)} (returned : (request.serve rules t script).1 = some (.ok ())) :
    request.Done rules t (request.serve rules t script).2 := by
  rcases (endures_program managed closed once request).ends script with
    ⟨_, -, done⟩ | ⟨failed, -⟩
  · exact done
  · exact absurd returned (failed ())

theorem inOrder_of_bootstrapped (managed : ∀ rule ∈ rules, rule.Managed) (distinct : rules.Nodup)
    (closed : t.Closed target) (once : AtMostOnce rules t) {events : List Event}
    (reached : run (next rules) t events = some t') (bootstrapped : Bootstrapped rules t events) :
    InOrder rules t' := by
  obtain ⟨before, script, after, middle, rfl, toMiddle, returned⟩ := bootstrapped
  rw [run_append, toMiddle, Option.bind_some] at reached
  obtain ⟨later, step, rest⟩ := (run_cons_eq_some_iff _ _ _ _ _).mp reached
  obtain ⟨closedMiddle, onceMiddle, -⟩ := invariant_of_events managed distinct closed once toMiddle
  obtain ⟨closedLater, left⟩ := next_cases managed distinct closedMiddle onceMiddle step
  obtain rfl := Option.some.inj step
  have done := serve_done managed closedMiddle onceMiddle returned
  exact (invariant_of_events managed distinct closedLater
    (onceMiddle.of_cases managed distinct left) rest).2.2 (done.renewed managed distinct onceMiddle).inOrder

end Runs

theorem managed_forwardRules {flannelNetwork : String} :
    ∀ rule ∈ forwardRules flannelNetwork, rule.Managed := by
  intro rule mem
  simp only [forwardRules, List.mem_cons, List.not_mem_nil, or_false] at mem
  rcases mem with rfl | rfl | rfl
  all_goals
    refine ⟨rfl, List.cons_ne_nil _ _, ?_⟩
    simp [target, jump, IPTablesRule.home]

def disordered : Tables where
  chains :=
    [(("filter", "FORWARD"), [["-m", "comment", "--comment", "flanneld forward", "-j", "FLANNEL-FWD"]]),
      (("filter", "FLANNEL-FWD"),
        [["-d", "10.244.0.0/16", "-m", "comment", "--comment", "flanneld forward", "-j", "ACCEPT"],
          ["-s", "10.244.0.0/16", "-m", "comment", "--comment", "flanneld forward", "-j", "ACCEPT"]])]
  distinct := by decide

/-- The calls of the manager in any run of calls, of changes from outside and of calls that
fail or are cut short. No call adds, removes or reorders a rule that is not of the list.
After a bootstrap or an ensure that returns nil each rule occurs once, after a teardown
none is left. A bootstrap puts the rules in order; an ensure does unless it finds them
all, and finds them in order in every run that began so or has bootstrapped. -/
theorem serve_exact {rules : List IPTablesRule} (managed : ∀ rule ∈ rules, rule.Managed)
    (distinct : rules.Nodup) {t₀ t : Tables} (closed : t₀.Closed target) (once : AtMostOnce rules t₀)
    {events : List Event} (reached : run (next rules) t₀ events = some t) (request : Request)
    (script : List (Outcome String)) :
    (∀ chain, foreign rules (request.serve rules t script).2 chain = foreign rules t chain) ∧
      ((request.serve rules t script).1 = some (.ok ()) →
        request.Achieves rules t (request.serve rules t script).2) ∧
      (InOrder rules t₀ ∨ Bootstrapped rules t₀ events → InOrder rules t) := by
  obtain ⟨closedNow, onceNow, keeps⟩ := invariant_of_events managed distinct closed once reached
  refine ⟨foreign_serve managed distinct closedNow onceNow request script, ?_, ?_⟩
  · intro returned
    exact achieves_of_done managed distinct onceNow
      (serve_done managed closedNow onceNow returned)
  · rintro (ordered | bootstrapped)
    · exact keeps ordered
    · exact inOrder_of_bootstrapped managed distinct closed once reached bootstrapped

theorem serve_exact_of_disordered :
    ∃ t, run (next (forwardRules "10.244.0.0/16")) disordered [.delete ("filter", "FLANNEL-FWD") 0] =
        some t ∧
      (Request.bootstrap.serve (forwardRules "10.244.0.0/16") t (List.replicate 7 .performed)).1 =
        some (.ok ()) ∧
      Request.bootstrap.Achieves (forwardRules "10.244.0.0/16") t
        (Request.bootstrap.serve (forwardRules "10.244.0.0/16") t (List.replicate 7 .performed)).2 := by
  have returned : (Request.bootstrap.serve (forwardRules "10.244.0.0/16")
      (disordered.set ("filter", "FLANNEL-FWD")
        ((disordered.contents ("filter", "FLANNEL-FWD")).eraseIdx 0))
      (List.replicate 7 .performed)).1 = some (.ok ()) := by decide
  have closed : disordered.Closed target := by decide
  have once : AtMostOnce (forwardRules "10.244.0.0/16") disordered := by decide
  have reached : run (next (forwardRules "10.244.0.0/16")) disordered
      [.delete ("filter", "FLANNEL-FWD") 0] = some (disordered.set ("filter", "FLANNEL-FWD")
        ((disordered.contents ("filter", "FLANNEL-FWD")).eraseIdx 0)) := rfl
  exact ⟨_, reached, returned, (serve_exact managed_forwardRules (by decide) closed once reached
    .bootstrap (List.replicate 7 .performed)).2.1 returned⟩

/-- An ensure that finds all rules returns nil and leaves them in another order. -/
theorem ensure_leaves_disorder :
    (forwardRules "10.244.0.0/16").Nodup ∧ disordered.Closed target ∧
      AtMostOnce (forwardRules "10.244.0.0/16") disordered ∧
      (Request.ensure.serve (forwardRules "10.244.0.0/16") disordered
        (List.replicate 6 .performed)).1 = some (.ok ()) ∧
      ¬InOrder (forwardRules "10.244.0.0/16")
        (Request.ensure.serve (forwardRules "10.244.0.0/16") disordered
          (List.replicate 6 .performed)).2 := by
  have distinct : (forwardRules "10.244.0.0/16").Nodup := by decide
  have closed : disordered.Closed target := by decide
  have once : AtMostOnce (forwardRules "10.244.0.0/16") disordered := by decide
  have returned : (Request.ensure.serve (forwardRules "10.244.0.0/16") disordered
      (List.replicate 6 .performed)).1 = some (.ok ()) := by decide
  refine ⟨distinct, closed, once, returned, fun ordered => ?_⟩
  have all : AllPresent (forwardRules "10.244.0.0/16") disordered := by decide
  rcases serve_done managed_forwardRules closed once returned with
    ⟨-, unchanged⟩ | ⟨missing, -⟩
  · have inChain := ordered ("filter", "FLANNEL-FWD")
    rw [unchanged] at inChain
    exact absurd inChain (by decide)
  · exact missing all

end Flannel.Traffic
