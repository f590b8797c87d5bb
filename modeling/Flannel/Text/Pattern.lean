import Mathlib.Computability.RegularExpressions

/-!
# Patterns with repeated groups

Patterns that capture nothing are regular expressions. This file adds character classes, the
operators `+` and `?`, and the search of a match that ends with the text.
-/

namespace Flannel.Text

open RegularExpression

def oneOf : List Char → RegularExpression Char
  | [] => 0
  | c :: cs => char c + oneOf cs

/-- `p+`. -/
def many (p : RegularExpression Char) : RegularExpression Char :=
  p * star p

/-- `p?`. -/
def optional (p : RegularExpression Char) : RegularExpression Char :=
  1 + p

/-- `regexp.MatchString` for the pattern `p$`: a match ends with the text and may start anywhere. -/
def matchString (p : RegularExpression Char) (text : List Char) : Bool :=
  text.tails.any p.rmatch

variable {p q : RegularExpression Char} {text : List Char} {c : Char} {cs : List Char}

theorem matchString_iff : matchString p text ↔
    ∃ before part, part ∈ p.matches' ∧ text = before ++ part := by
  simp only [matchString, List.any_eq_true, List.mem_tails, rmatch_iff_matches']
  constructor
  · rintro ⟨part, ⟨before, rfl⟩, isMatch⟩
    exact ⟨before, part, isMatch, rfl⟩
  · rintro ⟨before, part, isMatch, rfl⟩
    exact ⟨part, List.suffix_append before part, isMatch⟩

theorem mem_seq_iff : text ∈ (p * q).matches' ↔
    ∃ first ∈ p.matches', ∃ second ∈ q.matches', text = first ++ second := by
  simp only [matches'_mul, Language.mem_mul, eq_comm]

theorem mem_char_iff : text ∈ (char c).matches' ↔ text = [c] :=
  Iff.rfl

theorem mem_optional_iff : text ∈ (optional p).matches' ↔ text = [] ∨ text ∈ p.matches' :=
  Iff.rfl

theorem mem_oneOf_iff : text ∈ (oneOf cs).matches' ↔ ∃ c ∈ cs, text = [c] := by
  induction cs with
  | nil => simp [oneOf, matches'_zero, Language.notMem_zero]
  | cons c cs ih =>
    rw [oneOf, matches'_add, Language.mem_add, ih, mem_char_iff]
    simp

theorem mem_many_iff : text ∈ (many p).matches' ↔
    ∃ first ∈ p.matches', ∃ parts : List (List Char), (∀ part ∈ parts, part ∈ p.matches') ∧
      text = first ++ parts.flatten := by
  simp only [many, mem_seq_iff, matches'_star, Language.mem_kstar]
  constructor
  · rintro ⟨first, isMatch, second, ⟨parts, rfl, all⟩, rfl⟩
    exact ⟨first, isMatch, parts, all, rfl⟩
  · rintro ⟨first, isMatch, parts, all, rfl⟩
    exact ⟨first, isMatch, _, ⟨parts, rfl, all⟩, rfl⟩

theorem mem_many_oneOf_iff : text ∈ (many (oneOf cs)).matches' ↔
    text ≠ [] ∧ ∀ c ∈ text, c ∈ cs := by
  rw [mem_many_iff]
  constructor
  · rintro ⟨first, isMatch, parts, all, rfl⟩
    obtain ⟨c, inClass, rfl⟩ := mem_oneOf_iff.mp isMatch
    refine ⟨List.cons_ne_nil c _, ?_⟩
    intro d member
    rcases List.mem_cons.mp member with rfl | member
    · exact inClass
    · obtain ⟨part, isPart, member⟩ := List.mem_flatten.mp member
      obtain ⟨e, inClass, rfl⟩ := mem_oneOf_iff.mp (all part isPart)
      rwa [List.mem_singleton.mp member]
  · rintro ⟨nonempty, all⟩
    cases text with
    | nil => contradiction
    | cons c rest =>
      refine ⟨[c], mem_oneOf_iff.mpr ⟨c, all c (.head _), rfl⟩, rest.map ([·]), ?_, ?_⟩
      · intro part isPart
        obtain ⟨d, member, rfl⟩ := List.mem_map.mp isPart
        exact mem_oneOf_iff.mpr ⟨d, all d (.tail c member), rfl⟩
      · rw [← List.flatMap_def, List.flatMap_singleton' rest]
        rfl

end Flannel.Text
