import Flannel.Text.Fields
import Mathlib.Data.List.DropRight

/-!
# Lines of a text

Reading a text as lines, with both kinds of line ends, and writing lines. A line
written with a carriage return at its end is read without it.
-/

namespace Flannel.Text

def unixEnds : List Char → List Char
  | '\r' :: '\n' :: rest => '\n' :: unixEnds rest
  | c :: rest => c :: unixEnds rest
  | [] => []

def trimNewline (text : List Char) : List Char :=
  if text.getLast? = some '\n' then text.dropLast else text

def linesOf (text : List Char) : List (List Char) :=
  (trimNewline (unixEnds text)).splitOn '\n'

/-- `strings.Join(lines, "\n") + "\n"`, or the empty text if there are no lines. -/
def unlines (lines : List (List Char)) : List Char :=
  if lines = [] then [] else ['\n'].intercalate lines ++ ['\n']

def trimSpace (text : List Char) : List Char :=
  (text.dropWhile isUnicodeSpace).rdropWhile isUnicodeSpace

def chomp (line : List Char) : List Char :=
  if line.getLast? = some '\r' then line.dropLast else line

theorem chomp_of_ne {line : List Char} (other : line.getLast? ≠ some '\r') : chomp line = line :=
  if_neg other

theorem trimSpace_chomp (line : List Char) : trimSpace (chomp line) = trimSpace line := by
  by_cases cr : line.getLast? = some '\r'
  · obtain ⟨init, rfl⟩ := List.getLast?_eq_some_iff.mp cr
    rw [chomp, if_pos cr, List.dropLast_concat, trimSpace, trimSpace, List.dropWhile_append]
    split
    · next blank =>
      rw [List.isEmpty_iff.mp blank]
      rfl
    · rw [List.rdropWhile_concat, if_pos (by decide)]
  · rw [chomp_of_ne cr]

theorem chomp_cons_cons (c d : Char) (line : List Char) :
    chomp (c :: d :: line) = c :: chomp (d :: line) := by
  unfold chomp
  rw [List.getLast?_cons_cons, List.dropLast_cons_cons]
  split <;> rfl

theorem chomp_subset (line : List Char) : chomp line ⊆ line := by
  unfold chomp
  split
  · exact List.dropLast_subset line
  · exact List.Subset.refl line

theorem unixEnds_cons {c : Char} {rest : List Char} (other : c ≠ '\r' ∨ rest.head? ≠ some '\n') :
    unixEnds (c :: rest) = c :: unixEnds rest := by
  rw [unixEnds]
  rintro rest' rfl rfl
  simp at other

theorem unixEnds_append {line : List Char} (plain : '\n' ∉ line) (rest : List Char) :
    unixEnds (line ++ '\n' :: rest) = chomp line ++ '\n' :: unixEnds rest := by
  have newline : unixEnds ('\n' :: rest) = '\n' :: unixEnds rest := unixEnds_cons (.inl (by decide))
  induction line with
  | nil => exact newline
  | cons c line ih =>
    cases line with
    | nil =>
      by_cases cr : c = '\r'
      · subst cr
        rfl
      · rw [chomp_of_ne (by simpa using cr), List.singleton_append, unixEnds_cons (.inl cr), newline]
        rfl
    | cons d line =>
      have next : d ≠ '\n' := fun same => plain (same ▸ by simp)
      rw [chomp_cons_cons, List.cons_append, unixEnds_cons (.inr (by simpa using next)),
        ih fun mem => plain (.tail c mem), List.cons_append]

theorem unlines_cons (line : List Char) (lines : List (List Char)) :
    unlines (line :: lines) = line ++ '\n' :: unlines lines := by
  cases lines with
  | nil => simp [unlines]
  | cons next lines => simp [unlines]

theorem unixEnds_unlines {lines : List (List Char)} (plain : ∀ line ∈ lines, '\n' ∉ line) :
    unixEnds (unlines lines) = unlines (lines.map chomp) := by
  induction lines with
  | nil => rfl
  | cons line lines ih =>
    rw [unlines_cons, unixEnds_append (plain line (.head _)), ih fun l mem => plain l (.tail _ mem),
      List.map_cons, unlines_cons]

theorem linesOf_unlines {lines : List (List Char)} (plain : ∀ line ∈ lines, '\n' ∉ line)
    (nonempty : lines ≠ []) : linesOf (unlines lines) = lines.map chomp := by
  have nonempty' : lines.map chomp ≠ [] := by simpa using nonempty
  rw [linesOf, unixEnds_unlines plain, unlines, if_neg nonempty', trimNewline,
    if_pos List.getLast?_concat, List.dropLast_concat]
  refine List.splitOn_intercalate '\n' ?_ nonempty'
  intro line mem newline
  obtain ⟨whole, listed, rfl⟩ := List.mem_map.mp mem
  exact plain whole listed (chomp_subset whole newline)

theorem newline_notMem_of_mem_linesOf {text line : List Char} (mem : line ∈ linesOf text) :
    '\n' ∉ line := by
  unfold linesOf at mem
  generalize trimNewline (unixEnds text) = text at mem
  rw [List.splitOn] at mem
  induction text generalizing line with
  | nil =>
    obtain rfl : line = [] := by simpa using mem
    exact List.not_mem_nil
  | cons c text ih =>
    rw [List.splitOnP_cons_eq_if_modifyHead] at mem
    split at mem
    · rcases List.mem_cons.mp mem with rfl | mem
      · exact List.not_mem_nil
      · exact ih mem
    · next other =>
      obtain ⟨first, others, split⟩ := List.exists_cons_of_ne_nil (List.splitOnP_ne_nil (· == '\n') text)
      rw [split] at ih mem
      rcases List.mem_cons.mp mem with rfl | mem
      · rw [List.mem_cons, not_or]
        exact ⟨fun same => other (by simp [← same]), ih (.head _)⟩
      · exact ih (.tail _ mem)

theorem unlines_chomp_eq_iff (lines rest : List (List Char)) :
    unlines (lines.map chomp ++ rest) = unlines (lines ++ rest) ↔
      ∀ line ∈ lines, line.getLast? ≠ some '\r' := by
  induction lines with
  | nil => simp
  | cons line lines ih =>
    rw [List.map_cons, List.cons_append, List.cons_append, unlines_cons, unlines_cons,
      List.forall_mem_cons]
    by_cases cr : line.getLast? = some '\r'
    · obtain ⟨init, rfl⟩ := List.getLast?_eq_some_iff.mp cr
      refine iff_of_false (fun same => ?_) fun none => none.1 cr
      rw [chomp, if_pos cr, List.dropLast_concat, List.append_assoc] at same
      exact absurd (List.head_eq_of_cons_eq (List.append_cancel_left same)) (by decide)
    · rw [chomp_of_ne cr, List.append_cancel_left_eq, List.cons.injEq, and_iff_right rfl, ih]
      exact (and_iff_right cr).symm

end Flannel.Text
