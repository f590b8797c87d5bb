import Mathlib.Data.List.Infix

/-!
# Words of a text

`strings.Fields`, `strings.Contains`, `strings.Trim` and `strings.Split` of the Go standard library.
-/

namespace Flannel.Text

instance lawfulBEqWords : LawfulBEq (List String) :=
  inferInstance

def isUnicodeSpace (c : Char) : Bool :=
  c == ' ' || (9 ≤ c.toNat && c.toNat ≤ 13) || c.toNat == 0x85 || c.toNat == 0xa0 ||
    c.toNat == 0x1680 || (0x2000 ≤ c.toNat && c.toNat ≤ 0x200a) || c.toNat == 0x2028 ||
    c.toNat == 0x2029 || c.toNat == 0x202f || c.toNat == 0x205f || c.toNat == 0x3000

def fields (text : List Char) : List (List Char) :=
  (text.splitOnP isUnicodeSpace).filter fun word => !word.isEmpty

def contains (text part : List Char) : Bool :=
  text.tails.any part.isPrefixOf

theorem fields_of_plain {word : List Char} (plain : ∀ c ∈ word, isUnicodeSpace c = false)
    (nonempty : word ≠ []) : fields word = [word] := by
  rw [fields, List.splitOnP_eq_singleton (by simpa using plain)]
  simp [nonempty]

theorem fields_append_cons {before after : List Char} {c : Char} (space : isUnicodeSpace c) :
    fields (before ++ c :: after) = fields before ++ fields after := by
  rw [fields, List.splitOnP_append_cons _ _ space, List.filter_append, fields, fields]

theorem contains_append (before part after : List Char) :
    contains (before ++ (part ++ after)) part := by
  rw [contains, List.any_eq_true]
  refine ⟨part ++ after, ?_, ?_⟩
  · rw [List.mem_tails]
    exact List.suffix_append before _
  · rw [List.isPrefixOf_iff_prefix]
    exact List.prefix_append part after

/-! ## Trimming and splitting -/

def trim (cutset : List Char) (text : List Char) : List Char :=
  ((text.dropWhile (cutset.contains ·)).reverse.dropWhile (cutset.contains ·)).reverse

/-- The loop of `strings.Split`: characters of a separator that are still to be skipped, and the part
that was begun. -/
def splitLoop (separator : List Char) : Nat → List Char → List Char → List (List Char)
  | _, part, [] => [part]
  | skip + 1, part, _ :: rest => splitLoop separator skip part rest
  | 0, part, c :: rest =>
    if separator.isPrefixOf (c :: rest) then
      part :: splitLoop separator (separator.length - 1) [] rest
    else splitLoop separator 0 (part ++ [c]) rest

def split (separator text : List Char) : List (List Char) :=
  splitLoop separator 0 [] text

theorem trim_append {cutset middle after : List Char} {first last : Char} (begins : first ∉ cutset)
    (ends : last ∉ cutset) (cut : ∀ c ∈ after, c ∈ cutset) :
    trim cutset (first :: (middle ++ [last]) ++ after) = first :: (middle ++ [last]) := by
  have start : (first :: (middle ++ [last]) ++ after).dropWhile (cutset.contains ·) =
      first :: (middle ++ [last]) ++ after := by
    rw [List.cons_append, List.dropWhile_cons_of_neg (by simpa using begins)]
  have isCut : ∀ c ∈ after.reverse, cutset.contains c := by
    intro c member
    simpa using cut c (List.mem_reverse.mp member)
  rw [trim, start, List.reverse_append, List.dropWhile_append_of_pos isCut, List.reverse_cons,
    List.reverse_append, List.reverse_singleton, List.singleton_append, List.cons_append,
    List.dropWhile_cons_of_neg (by simpa using ends)]
  simp

section Split

variable {mark next : Char} {part before text : List Char}

attribute [local simp] splitLoop

theorem splitLoop_append (absent : mark ∉ before) :
    splitLoop [mark, next] 0 part (before ++ text) =
      splitLoop [mark, next] 0 (part ++ before) text := by
  induction before generalizing part with
  | nil => rw [List.append_nil, List.nil_append]
  | cons c before ih =>
    obtain ⟨other, absent⟩ := List.ne_and_not_mem_of_not_mem_cons absent
    have notHere : [mark, next].isPrefixOf (c :: (before ++ text)) = false := by
      simp [List.isPrefixOf, other]
    rw [List.cons_append, splitLoop, notHere, if_neg Bool.false_ne_true, ih absent]
    simp

theorem splitLoop_cons_cons {c : Char} (other : c ≠ next) :
    splitLoop [mark, next] 0 part (mark :: c :: text) =
      splitLoop [mark, next] 0 (part ++ [mark]) (c :: text) := by
  have notHere : [mark, next].isPrefixOf (mark :: c :: text) = false := by
    simp [List.isPrefixOf, other.symm]
  rw [splitLoop, notHere, if_neg Bool.false_ne_true]

theorem splitLoop_separator :
    splitLoop [mark, next] 0 part (mark :: next :: text) =
      part :: splitLoop [mark, next] 0 [] text := by
  have here : [mark, next].isPrefixOf (mark :: next :: text) := by
    simp
  rw [splitLoop, here, if_pos rfl]
  rfl

theorem splitLoop_of_notMem (absent : next ∉ text) :
    splitLoop [mark, next] 0 part text = [part ++ text] := by
  induction text generalizing part with
  | nil => rw [List.append_nil]; rfl
  | cons c text ih =>
    have absentRest : next ∉ text := fun member => absent (.tail c member)
    have notHere : [mark, next].isPrefixOf (c :: text) = false := by
      rw [Bool.eq_false_iff, ne_eq, List.isPrefixOf_iff_prefix]
      intro isStart
      exact absent (isStart.subset (by simp))
    rw [splitLoop, notHere, if_neg Bool.false_ne_true, ih absentRest]
    simp

end Split

end Flannel.Text
