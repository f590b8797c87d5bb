import Mathlib.Data.List.Basic

/-!
# Leftmost-first regular expressions

`results` lists every way an expression can match an initial part of the text, in order of
preference (greedy repetition first); `findSubmatch` takes the first result at the leftmost
position that has one. A capture that was not taken is the empty text.
-/

namespace Flannel.Text

inductive Regex
  | single (accept : Char → Bool)
  | plus (accept : Char → Bool)
  | seq (first second : Regex)
  | opt (body : Regex)
  | group (body : Regex)
  | eos

namespace Regex

def char (c : Char) : Regex :=
  single (· == c)

def groupCount : Regex → Nat
  | single _ => 0
  | plus _ => 0
  | seq first second => first.groupCount + second.groupCount
  | opt body => body.groupCount
  | group body => body.groupCount + 1
  | eos => 0

def spans (accept : Char → Bool) : List Char → List (List Char × List Char)
  | [] => []
  | c :: rest =>
    if accept c then
      (spans accept rest).map (fun part => (c :: part.1, part.2)) ++ [([c], rest)]
    else []

def results : Regex → List Char → List (List (List Char) × List Char)
  | single _, [] => []
  | single accept, c :: rest => if accept c then [([], rest)] else []
  | plus accept, text => (spans accept text).map fun part => ([], part.2)
  | seq first second, text =>
    (results first text).flatMap fun one =>
      (results second one.2).map fun two => (one.1 ++ two.1, two.2)
  | opt body, text =>
    results body text ++ [(List.replicate body.groupCount [], text)]
  | group body, text =>
    (results body text).map fun one =>
      (text.take (text.length - one.2.length) :: one.1, one.2)
  | eos, [] => [([], [])]
  | eos, _ :: _ => []

theorem results_single_nil (accept : Char → Bool) : (single accept).results [] = [] :=
  rfl

theorem results_single_cons (accept : Char → Bool) (c : Char) (rest : List Char) :
    (single accept).results (c :: rest) = if accept c then [([], rest)] else [] :=
  rfl

theorem results_plus (accept : Char → Bool) (text : List Char) :
    (plus accept).results text = (spans accept text).map fun part => ([], part.2) := by
  cases text <;> rfl

theorem results_seq (first second : Regex) (text : List Char) :
    (seq first second).results text =
      (first.results text).flatMap fun one =>
        (second.results one.2).map fun two => (one.1 ++ two.1, two.2) := by
  cases text <;> rfl

theorem results_opt (body : Regex) (text : List Char) :
    (opt body).results text =
      body.results text ++ [(List.replicate body.groupCount [], text)] := by
  cases text <;> rfl

theorem results_group (body : Regex) (text : List Char) :
    (group body).results text =
      (body.results text).map fun one =>
        (text.take (text.length - one.2.length) :: one.1, one.2) := by
  cases text <;> rfl

def findSubmatch (pattern : Regex) : List Char → Option (List (List Char))
  | [] => (pattern.results []).head?.map Prod.fst
  | c :: rest =>
    match (pattern.results (c :: rest)).head? with
    | some found => some found.1
    | none => findSubmatch pattern rest

theorem mem_spans_iff {accept : Char → Bool} {text part rest : List Char} :
    (part, rest) ∈ spans accept text ↔
      text = part ++ rest ∧ part ≠ [] ∧ ∀ c ∈ part, accept c := by
  induction text generalizing part with
  | nil =>
    constructor
    · simp [spans]
    · rintro ⟨empty, nonempty, _⟩
      exact absurd (List.append_eq_nil_iff.mp empty.symm).1 nonempty
  | cons c text ih =>
    cases accepted : accept c with
    | false =>
      simp only [spans, accepted, Bool.false_eq_true, if_false, List.not_mem_nil, false_iff]
      rintro ⟨split, nonempty, all⟩
      cases part with
      | nil => exact nonempty rfl
      | cons d part =>
        obtain ⟨rfl, _⟩ := List.cons_eq_cons.mp split
        have := all c (.head _)
        rw [accepted] at this
        contradiction
    | true =>
      simp only [spans, accepted, if_true, List.mem_append, List.mem_map, List.mem_singleton,
        Prod.mk.injEq, Prod.exists]
      constructor
      · rintro (⟨longer, after, mem, rfl, rfl⟩ | ⟨rfl, rfl⟩)
        · obtain ⟨split, _, all⟩ := ih.mp mem
          refine ⟨by simp [split], by simp, ?_⟩
          simpa [accepted] using all
        · simp [accepted]
      · rintro ⟨split, nonempty, all⟩
        cases part with
        | nil => exact absurd rfl nonempty
        | cons d longer =>
          rw [List.cons_append, List.cons_eq_cons] at split
          obtain ⟨rfl, split⟩ := split
          cases longer with
          | nil => exact .inr ⟨rfl, split.symm⟩
          | cons e longer =>
            refine .inl ⟨e :: longer, rest, ih.mpr ⟨split, by simp, ?_⟩, rfl, rfl⟩
            exact fun x mem => all x (.tail c mem)

section Membership

variable {text rest : List Char} {captures : List (List Char)}

theorem mem_results_single_iff {accept : Char → Bool} :
    (captures, rest) ∈ (single accept).results text ↔
      captures = [] ∧ ∃ c, accept c ∧ text = c :: rest := by
  cases text with
  | nil => simp [results_single_nil]
  | cons c text =>
    by_cases accepted : accept c
    · simp only [results_single_cons, accepted, if_true, List.mem_singleton, Prod.mk.injEq]
      constructor
      · rintro ⟨rfl, rfl⟩
        exact ⟨rfl, c, accepted, rfl⟩
      · rintro ⟨rfl, d, _, split⟩
        exact ⟨rfl, (List.cons_eq_cons.mp split).2.symm⟩
    · simp only [results_single_cons, accepted, Bool.false_eq_true, if_false, List.not_mem_nil, false_iff]
      rintro ⟨_, d, ok, split⟩
      exact accepted ((List.cons_eq_cons.mp split).1 ▸ ok)

theorem mem_results_char_iff {c : Char} :
    (captures, rest) ∈ (char c).results text ↔ captures = [] ∧ text = c :: rest := by
  rw [char, mem_results_single_iff]
  simp

theorem mem_results_plus_iff {accept : Char → Bool} :
    (captures, rest) ∈ (plus accept).results text ↔
      captures = [] ∧ ∃ part, part ≠ [] ∧ (∀ c ∈ part, accept c) ∧ text = part ++ rest := by
  simp only [results_plus, List.mem_map, Prod.mk.injEq, Prod.exists]
  constructor
  · rintro ⟨part, after, mem, rfl, rfl⟩
    obtain ⟨split, nonempty, all⟩ := mem_spans_iff.mp mem
    exact ⟨rfl, part, nonempty, all, split⟩
  · rintro ⟨rfl, part, nonempty, all, split⟩
    exact ⟨part, rest, mem_spans_iff.mpr ⟨split, nonempty, all⟩, rfl, rfl⟩

theorem mem_results_seq_iff {first second : Regex} :
    (captures, rest) ∈ (seq first second).results text ↔
      ∃ one middle two, (one, middle) ∈ first.results text ∧
        (two, rest) ∈ second.results middle ∧ captures = one ++ two := by
  simp only [results_seq, List.mem_flatMap, List.mem_map, Prod.mk.injEq, Prod.exists]
  constructor
  · rintro ⟨one, middle, memOne, two, after, memTwo, rfl, rfl⟩
    exact ⟨one, middle, two, memOne, memTwo, rfl⟩
  · rintro ⟨one, middle, two, memOne, memTwo, rfl⟩
    exact ⟨one, middle, memOne, two, rest, memTwo, rfl, rfl⟩

theorem mem_results_opt_iff {body : Regex} :
    (captures, rest) ∈ (opt body).results text ↔
      (captures, rest) ∈ body.results text ∨
        captures = List.replicate body.groupCount [] ∧ rest = text := by
  simp [results_opt]

theorem mem_results_group_iff {body : Regex} :
    (captures, rest) ∈ (group body).results text ↔
      ∃ inner, (inner, rest) ∈ body.results text ∧
        captures = text.take (text.length - rest.length) :: inner := by
  simp only [results_group, List.mem_map, Prod.mk.injEq, Prod.exists]
  constructor
  · rintro ⟨inner, after, mem, rfl, rfl⟩
    exact ⟨inner, mem, rfl⟩
  · rintro ⟨inner, mem, rfl⟩
    exact ⟨inner, rest, mem, rfl, rfl⟩

theorem mem_results_group_of {body : Regex} {part rest : List Char} {inner : List (List Char)}
    (found : (inner, rest) ∈ body.results (part ++ rest)) :
    (part :: inner, rest) ∈ (group body).results (part ++ rest) := by
  rw [mem_results_group_iff]
  refine ⟨inner, found, ?_⟩
  rw [List.length_append, Nat.add_sub_cancel, List.take_left]

theorem mem_results_eos_iff :
    (captures, rest) ∈ eos.results text ↔ captures = [] ∧ rest = [] ∧ text = [] := by
  cases text <;> simp [results]

end Membership

theorem findSubmatch_append {pattern : Regex} {before text : List Char}
    (skipped : ∀ ahead, ahead <:+ before → ahead ≠ [] → pattern.results (ahead ++ text) = []) :
    pattern.findSubmatch (before ++ text) = pattern.findSubmatch text := by
  induction before with
  | nil => rfl
  | cons c before ih =>
    have here := skipped (c :: before) List.suffix_rfl (by simp)
    rw [List.cons_append, findSubmatch, ← List.cons_append, here]
    exact ih fun ahead isSuffix => skipped ahead (isSuffix.trans (List.suffix_cons c before))

theorem findSubmatch_eq_some {pattern : Regex} {text : List Char} {captures : List (List Char)}
    {rest : List Char} (found : (captures, rest) ∈ pattern.results text)
    (unique : ∀ other after, (other, after) ∈ pattern.results text → other = captures) :
    pattern.findSubmatch text = some captures := by
  obtain ⟨⟨first, after⟩, head⟩ : ∃ first, (pattern.results text).head? = some first := by
    cases all : pattern.results text with
    | nil =>
      rw [all] at found
      contradiction
    | cons first others => exact ⟨first, rfl⟩
  have first_eq := unique first after (List.mem_of_head? head)
  cases text with
  | nil => simp [findSubmatch, head, first_eq]
  | cons c text => simp [findSubmatch, head, first_eq]

end Regex

section Splitting

variable {accept : Char → Bool} {part part' rest rest' : List Char}

theorem append_cons_inj {c c' : Char} (all : ∀ d ∈ part, accept d)
    (all' : ∀ d ∈ part', accept d) (stop : accept c = false) (stop' : accept c' = false)
    (equal : part ++ c :: rest = part' ++ c' :: rest') : part = part' ∧ c = c' ∧ rest = rest' := by
  induction part generalizing part' with
  | nil =>
    cases part' with
    | nil => simpa using equal
    | cons d part' =>
      have first : c = d := (List.cons_eq_cons.mp equal).1
      rw [first, all' d List.mem_cons_self] at stop
      contradiction
  | cons d part ih =>
    cases part' with
    | nil =>
      have first : d = c' := (List.cons_eq_cons.mp equal).1
      rw [← first, all d List.mem_cons_self] at stop'
      contradiction
    | cons d' part' =>
      obtain ⟨rfl, rest⟩ := List.cons_eq_cons.mp equal
      obtain ⟨rfl, same⟩ := ih (fun e mem => all e (.tail d mem))
        (fun e mem => all' e (.tail d mem)) rest
      exact ⟨rfl, same⟩

theorem append_cons_any {x c : Char} (all : ∀ d ∈ part, accept d)
    (all' : ∀ d ∈ part', accept d) (stop : accept c = false)
    (equal : part ++ x :: rest = part' ++ c :: rest') :
    (part = part' ∧ x = c ∧ rest = rest') ∨
      ∃ later, (∀ d ∈ later, accept d) ∧ rest = later ++ c :: rest' := by
  induction part generalizing part' with
  | nil =>
    cases part' with
    | nil => exact .inl (by simpa using equal)
    | cons d part' =>
      obtain ⟨-, rest⟩ := List.cons_eq_cons.mp equal
      exact .inr ⟨part', fun e mem => all' e (.tail d mem), rest⟩
  | cons d part ih =>
    cases part' with
    | nil =>
      have first : d = c := (List.cons_eq_cons.mp equal).1
      rw [← first, all d List.mem_cons_self] at stop
      contradiction
    | cons d' part' =>
      obtain ⟨rfl, rest⟩ := List.cons_eq_cons.mp equal
      rcases ih (fun e mem => all e (.tail d mem))
        (fun e mem => all' e (.tail d mem)) rest with ⟨rfl, same⟩ | later
      · exact .inl ⟨rfl, same⟩
      · exact .inr later

end Splitting

end Flannel.Text
