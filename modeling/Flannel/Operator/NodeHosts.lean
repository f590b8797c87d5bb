import Flannel.Table.Keyed
import Flannel.Text.Lines
import Mathlib.Data.Char
import Mathlib.Data.List.Lex
import Mathlib.Data.List.Sort

/-!
# The managed block in the CoreDNS NodeHosts

`mergeManagedNodeHosts` accepts exactly the texts with no marker or with one block, and touches
nothing outside. A carriage return left at the end of a line is eaten by the next merge.
-/

namespace Flannel.Operator

open Text

abbrev Line := List Char

def nodeHostsBeginMarker : Line := "# BEGIN cloudflare-mesh-operator".toList

def nodeHostsEndMarker : Line := "# END cloudflare-mesh-operator".toList

def scanLines : List Line → (inManagedBlock seenManagedBlock : Bool) → List Line →
    Except String (List Line)
  | base, inManagedBlock, _, [] =>
    if inManagedBlock then .error "managed block begin marker has no matching end marker"
    else .ok base
  | base, inManagedBlock, seenManagedBlock, line :: lines =>
    if trimSpace line = nodeHostsBeginMarker then
      if inManagedBlock || seenManagedBlock then .error "duplicate managed block begin marker"
      else scanLines base true true lines
    else if trimSpace line = nodeHostsEndMarker then
      if !inManagedBlock then .error "managed block end marker has no matching begin marker"
      else scanLines base false seenManagedBlock lines
    else scanLines (if inManagedBlock then base else base ++ [line]) inManagedBlock seenManagedBlock lines

structure Hosts where
  entries : List (Line × Line)
  distinct : (entries.map Prod.fst).Nodup

def Hosts.address (h : Hosts) (hostname : Line) : Line :=
  ((Table.lookup Prod.fst h.entries hostname).map Prod.snd).getD []

def Hosts.block (h : Hosts) : List Line :=
  let hostnames := (h.entries.map Prod.fst).insertionSort (· ≤ ·)
  if hostnames = [] then []
  else nodeHostsBeginMarker ::
    (hostnames.map (fun hostname => h.address hostname ++ ' ' :: hostname) ++ [nodeHostsEndMarker])

def isBlank (line : Line) : Bool :=
  trimSpace line == []

def mergeManagedNodeHosts (current : List Char) (desiredHosts : Hosts) :
    Except String (List Char) := do
  let base ← scanLines [] false false (linesOf current)
  pure (unlines (base.rdropWhile isBlank ++ desiredHosts.block))

/-- What `ensureCoreDNSNodeHosts` writes to the ConfigMap, if anything. -/
def nodeHostsUpdate (current : List Char) (desiredHosts : Hosts) :
    Except String (Option (List Char)) := do
  let desired ← mergeManagedNodeHosts current desiredHosts
  pure (if current = desired then none else some desired)

/-! ## The scanner -/

def Unmarked (lines : List Line) : Prop :=
  ∀ line ∈ lines, trimSpace line ≠ nodeHostsBeginMarker ∧ trimSpace line ≠ nodeHostsEndMarker

/-- The lines begin inside of a block, which ends before the lines `after`. -/
def Closes (lines after : List Line) : Prop :=
  ∃ inside stop, lines = inside ++ stop :: after ∧ Unmarked inside ∧
    trimSpace stop = nodeHostsEndMarker ∧ Unmarked after

/-- There is no marker, or one begin marker and one end marker behind it, and the lines outside of
the block are the given ones. -/
def Outside (lines outside : List Line) : Prop :=
  (Unmarked lines ∧ outside = lines) ∨
    ∃ before start rest after, lines = before ++ start :: rest ∧ Unmarked before ∧
      trimSpace start = nodeHostsBeginMarker ∧ Closes rest after ∧ outside = before ++ after

variable {base lines out : List Line} {line : Line}

theorem unmarked_cons : Unmarked (line :: lines) ↔
    (trimSpace line ≠ nodeHostsBeginMarker ∧ trimSpace line ≠ nodeHostsEndMarker) ∧ Unmarked lines :=
  List.forall_mem_cons

theorem beginMarker_ne_endMarker : nodeHostsBeginMarker ≠ nodeHostsEndMarker := by decide

theorem scanLines_seen_iff :
    scanLines base false true lines = .ok out ↔ Unmarked lines ∧ out = base ++ lines := by
  induction lines generalizing base with
  | nil => simp [scanLines, Unmarked, eq_comm]
  | cons line lines ih =>
    rw [scanLines, unmarked_cons]
    by_cases start : trimSpace line = nodeHostsBeginMarker
    · simp [start]
    · by_cases stop : trimSpace line = nodeHostsEndMarker
      · simp [stop, Ne.symm beginMarker_ne_endMarker]
      · simp [start, stop, ih]

theorem closes_cons {after : List Line} : Closes (line :: lines) after ↔
    (trimSpace line = nodeHostsEndMarker ∧ Unmarked lines ∧ after = lines) ∨
      ((trimSpace line ≠ nodeHostsBeginMarker ∧ trimSpace line ≠ nodeHostsEndMarker) ∧
        Closes lines after) := by
  constructor
  · rintro ⟨inside, stop, split, unmarked, isStop, rest⟩
    cases inside with
    | nil =>
      obtain ⟨rfl, rfl⟩ := List.cons.inj split
      exact .inl ⟨isStop, rest, rfl⟩
    | cons first inside =>
      obtain ⟨rfl, rfl⟩ := List.cons.inj split
      obtain ⟨plain, unmarked⟩ := unmarked_cons.1 unmarked
      exact .inr ⟨plain, inside, stop, rfl, unmarked, isStop, rest⟩
  · rintro (⟨isStop, rest, rfl⟩ | ⟨plain, inside, stop, rfl, unmarked, isStop, rest⟩)
    · exact ⟨[], line, rfl, nofun, isStop, rest⟩
    · exact ⟨line :: inside, stop, rfl, unmarked_cons.2 ⟨plain, unmarked⟩, isStop, rest⟩

theorem outside_cons {outside : List Line} : Outside (line :: lines) outside ↔
    (trimSpace line = nodeHostsBeginMarker ∧ Closes lines outside) ∨
      ((trimSpace line ≠ nodeHostsBeginMarker ∧ trimSpace line ≠ nodeHostsEndMarker) ∧
        ∃ others, Outside lines others ∧ outside = line :: others) := by
  constructor
  · rintro (⟨unmarked, rfl⟩ | ⟨before, start, rest, after, split, unmarked, isStart, closes, rfl⟩)
    · obtain ⟨plain, unmarked⟩ := unmarked_cons.1 unmarked
      exact .inr ⟨plain, lines, .inl ⟨unmarked, rfl⟩, rfl⟩
    · cases before with
      | nil =>
        obtain ⟨rfl, rfl⟩ := List.cons.inj split
        exact .inl ⟨isStart, closes⟩
      | cons first before =>
        obtain ⟨rfl, rfl⟩ := List.cons.inj split
        obtain ⟨plain, unmarked⟩ := unmarked_cons.1 unmarked
        exact .inr ⟨plain, _, .inr ⟨before, start, rest, after, rfl, unmarked, isStart, closes, rfl⟩,
          rfl⟩
  · rintro (⟨isStart, closes⟩ | ⟨plain, others, split, rfl⟩)
    · exact .inr ⟨[], line, lines, outside, rfl, nofun, isStart, closes, rfl⟩
    · rcases split with ⟨unmarked, rfl⟩ | ⟨before, start, rest, after, rfl, unmarked, marked⟩
      · exact .inl ⟨unmarked_cons.2 ⟨plain, unmarked⟩, rfl⟩
      · obtain ⟨isStart, closes, rfl⟩ := marked
        exact .inr ⟨line :: before, start, rest, after, rfl, unmarked_cons.2 ⟨plain, unmarked⟩,
          isStart, closes, rfl⟩

theorem scanLines_inside_iff :
    scanLines base true true lines = .ok out ↔ ∃ after, Closes lines after ∧ out = base ++ after := by
  induction lines with
  | nil => simp [scanLines, Closes]
  | cons line lines ih =>
    simp only [closes_cons]
    rw [scanLines]
    by_cases start : trimSpace line = nodeHostsBeginMarker
    · simp [start, beginMarker_ne_endMarker]
    · by_cases stop : trimSpace line = nodeHostsEndMarker
      · simp [stop, Ne.symm beginMarker_ne_endMarker, scanLines_seen_iff]
      · simp [start, stop, ih]

theorem scanLines_iff :
    scanLines base false false lines = .ok out ↔
      ∃ outside, Outside lines outside ∧ out = base ++ outside := by
  induction lines generalizing base with
  | nil => simp [scanLines, Outside, Unmarked, eq_comm]
  | cons line lines ih =>
    simp only [outside_cons]
    rw [scanLines]
    by_cases start : trimSpace line = nodeHostsBeginMarker
    · simp [start, scanLines_inside_iff]
    · by_cases stop : trimSpace line = nodeHostsEndMarker
      · simp [stop, Ne.symm beginMarker_ne_endMarker]
      · simp [start, stop, ih]

/-! ## The merge -/

theorem mergeManagedNodeHosts_of_outside {current : List Char} {outside : List Line}
    (split : Outside (linesOf current) outside) (h : Hosts) :
    mergeManagedNodeHosts current h = .ok (unlines (outside.rdropWhile isBlank ++ h.block)) := by
  have scanned : scanLines [] false false (linesOf current) = .ok outside :=
    scanLines_iff.2 ⟨outside, split, rfl⟩
  rw [mergeManagedNodeHosts, scanned]
  rfl

theorem exists_outside_of_merge {current text : List Char} {h : Hosts}
    (merged : mergeManagedNodeHosts current h = .ok text) :
    ∃ outside, Outside (linesOf current) outside := by
  unfold mergeManagedNodeHosts at merged
  cases scanned : scanLines [] false false (linesOf current) with
  | error err =>
    rw [scanned] at merged
    cases merged
  | ok base =>
    obtain ⟨outside, split, -⟩ := scanLines_iff.1 scanned
    exact ⟨outside, split⟩

def blockOf (entries : List (Line × Line)) : List Line :=
  if entries = [] then []
  else nodeHostsBeginMarker :: (entries.map (fun e => e.2 ++ ' ' :: e.1) ++ [nodeHostsEndMarker])

theorem Hosts.exists_block_eq (h : Hosts) :
    ∃ sorted : List (Line × Line), sorted.Perm h.entries ∧
      sorted.Pairwise (fun a b => a.1 ≤ b.1) ∧ h.block = blockOf sorted := by
  have perm := List.perm_insertionSort (· ≤ ·) (h.entries.map Prod.fst)
  have entries : (h.entries.map Prod.fst).map (fun hostname => (hostname, h.address hostname)) =
      h.entries := by
    rw [List.map_map]
    refine (List.map_congr_left fun e mem => ?_).trans (List.map_id _)
    have found := Table.lookup_eq_some_of_mem h.distinct mem
    simp [Hosts.address, found]
  refine ⟨((h.entries.map Prod.fst).insertionSort (· ≤ ·)).map fun hostname =>
    (hostname, h.address hostname), ?_, ?_, ?_⟩
  · have mapped := perm.map fun hostname => (hostname, h.address hostname)
    rwa [entries] at mapped
  · rw [List.pairwise_map]
    exact List.sortedLE_insertionSort.pairwise
  · simp [Hosts.block, blockOf, Function.comp_def]

/-- The merge succeeds exactly on texts without markers or with one block, and then
writes the lines outside without trailing blank ones, followed by the block of the
sorted entries if there are any. -/
theorem mergeManagedNodeHosts_edits_own_block (current : List Char) (h : Hosts) :
    ((∃ text, mergeManagedNodeHosts current h = .ok text) ↔
        ∃ outside, Outside (linesOf current) outside) ∧
      ∀ outside, Outside (linesOf current) outside →
        ∃ sorted : List (Line × Line), sorted.Perm h.entries ∧
          sorted.Pairwise (fun a b => a.1 ≤ b.1) ∧
          mergeManagedNodeHosts current h =
            .ok (unlines (outside.rdropWhile isBlank ++ blockOf sorted)) := by
  constructor
  · constructor
    · rintro ⟨text, merged⟩
      exact exists_outside_of_merge merged
    · rintro ⟨outside, split⟩
      exact ⟨_, mergeManagedNodeHosts_of_outside split h⟩
  · intro outside split
    obtain ⟨sorted, perm, ordered, block⟩ := h.exists_block_eq
    exact ⟨sorted, perm, ordered, block ▸ mergeManagedNodeHosts_of_outside split h⟩

/-! ## Merging again -/

/-- Hostnames and addresses free of blanks and line breaks. -/
def Hosts.Clean (h : Hosts) : Prop :=
  ∀ e ∈ h.entries, ∀ c ∈ e.2 ++ e.1, isUnicodeSpace c = false

theorem trimSpace_sublist (line : Line) : (trimSpace line).Sublist line :=
  (List.rdropWhile_prefix _ _).sublist.trans (List.dropWhile_suffix _).sublist

theorem Hosts.Clean.entry {h : Hosts} (clean : h.Clean) {e : Line × Line} (mem : e ∈ h.entries) :
    ('\n' ∉ e.2 ++ ' ' :: e.1 ∧ chomp (e.2 ++ ' ' :: e.1) = e.2 ++ ' ' :: e.1) ∧
      trimSpace (e.2 ++ ' ' :: e.1) ≠ nodeHostsBeginMarker ∧
      trimSpace (e.2 ++ ' ' :: e.1) ≠ nodeHostsEndMarker := by
  have space (c : Char) (isSpace : isUnicodeSpace c) (other : c ≠ ' ') :
      c ∉ e.2 ++ ' ' :: e.1 := by
    intro here
    have inside : c ∈ e.2 ++ e.1 := by simpa [other] using here
    rw [clean e mem c inside] at isSpace
    cases isSpace
  have blanks : (e.2 ++ ' ' :: e.1).count ' ' = 1 := by
    have none : ' ' ∉ e.2 ++ e.1 := fun here => absurd (clean e mem ' ' here) (by decide)
    rw [List.mem_append, not_or] at none
    simp [List.count_eq_zero.mpr none.1, List.count_eq_zero.mpr none.2]
  have fewer := (trimSpace_sublist (e.2 ++ ' ' :: e.1)).count_le ' '
  refine ⟨⟨space '\n' (by decide) (by decide), chomp_of_ne fun last => ?_⟩, ?_, ?_⟩
  · exact space '\r' (by decide) (by decide) (List.mem_of_getLast? last)
  all_goals
    intro marker
    rw [marker, blanks] at fewer
    exact absurd fewer (by decide)

theorem Hosts.Clean.block {h : Hosts} (clean : h.Clean) :
    (∀ line ∈ h.block, '\n' ∉ line ∧ chomp line = line) ∧
      ∀ {kept : List Line}, Unmarked kept → Outside (kept ++ h.block) kept := by
  obtain ⟨sorted, perm, -, block⟩ := h.exists_block_eq
  rw [block, blockOf]
  split
  · exact ⟨nofun, fun unmarked => .inl ⟨by simpa using unmarked, by simp⟩⟩
  · have entry : ∀ line ∈ sorted.map (fun e => e.2 ++ ' ' :: e.1), ('\n' ∉ line ∧ chomp line = line) ∧
        trimSpace line ≠ nodeHostsBeginMarker ∧ trimSpace line ≠ nodeHostsEndMarker := by
      intro line mem
      obtain ⟨e, listed, rfl⟩ := List.mem_map.mp mem
      exact clean.entry (perm.mem_iff.mp listed)
    constructor
    · intro line mem
      rcases List.mem_cons.mp mem with rfl | mem
      · decide
      · rcases List.mem_append.mp mem with mem | mem
        · exact (entry line mem).1
        · obtain rfl := List.mem_singleton.mp mem
          decide
    · intro kept unmarked
      refine .inr ⟨kept, _, _, [], rfl, unmarked, by decide, ?_, by simp⟩
      exact ⟨_, _, rfl, fun line mem => (entry line mem).2, by decide, nofun⟩

theorem Outside.unmarked {outside : List Line} (split : Outside lines outside) :
    Unmarked outside ∧ outside ⊆ lines := by
  rcases split with ⟨unmarked, rfl⟩ | ⟨before, start, rest, after, rfl, unmarked, -, closes, rfl⟩
  · exact ⟨unmarked, List.Subset.refl _⟩
  · obtain ⟨inside, stop, rfl, -, -, unmarked'⟩ := closes
    refine ⟨List.forall_mem_append.mpr ⟨unmarked, unmarked'⟩, ?_⟩
    intro line mem
    rcases List.mem_append.mp mem with mem | mem <;> simp [mem]

theorem merge_unlines {kept : List Line} (plain : ∀ line ∈ kept, '\n' ∉ line)
    (unmarked : Unmarked kept) (stripped : kept.rdropWhile isBlank = kept) {h : Hosts}
    (clean : h.Clean) (h' : Hosts) :
    mergeManagedNodeHosts (unlines (kept ++ h.block)) h' =
      .ok (unlines (kept.map chomp ++ h'.block)) := by
  obtain ⟨blockLines, outside⟩ := clean.block
  by_cases empty : kept ++ h.block = []
  · obtain ⟨rfl, noBlock⟩ := List.append_eq_nil_iff.mp empty
    have blank : Outside (linesOf (unlines [])) [[]] := by
      refine .inl ⟨fun line mem => ?_, rfl⟩
      obtain rfl : line = [] := List.mem_singleton.mp mem
      decide
    rw [noBlock]
    exact mergeManagedNodeHosts_of_outside blank h'
  · have lines : linesOf (unlines (kept ++ h.block)) = kept.map chomp ++ h.block := by
      rw [linesOf_unlines (List.forall_mem_append.mpr ⟨plain, fun l mem => (blockLines l mem).1⟩) empty,
        List.map_append, (List.map_congr_left fun l mem => (blockLines l mem).2).trans (List.map_id _)]
    have unmarked' : Unmarked (kept.map chomp) := by
      intro line mem
      obtain ⟨whole, listed, rfl⟩ := List.mem_map.mp mem
      rw [trimSpace_chomp]
      exact unmarked whole listed
    have stripped' : (kept.map chomp).rdropWhile isBlank = kept.map chomp := by
      rw [List.rdropWhile_eq_self_iff] at stripped ⊢
      intro nonempty
      rw [List.getLast_map, isBlank, trimSpace_chomp]
      exact stripped (by simpa using nonempty)
    rw [mergeManagedNodeHosts_of_outside (lines ▸ outside unmarked') h', stripped']

/-- Merging other hosts into the result of a merge is merging them into the original
text, and merging the same hosts again updates nothing, exactly if no line that is kept
ends in a carriage return. -/
theorem merges_converge_iff {current : List Char} {outside : List Line}
    (split : Outside (linesOf current) outside) {h : Hosts} (clean : h.Clean) (h' : Hosts) :
    (∃ text, mergeManagedNodeHosts current h = .ok text ∧
        mergeManagedNodeHosts text h' = mergeManagedNodeHosts current h' ∧
        nodeHostsUpdate text h = .ok none) ↔
      ∀ line ∈ outside.rdropWhile isBlank, line.getLast? ≠ some '\r' := by
  obtain ⟨unmarked, subset⟩ := split.unmarked
  have part := (List.rdropWhile_prefix isBlank outside).subset
  have again := fun hosts => merge_unlines
    (fun line mem => newline_notMem_of_mem_linesOf (subset (part mem)))
    (fun line mem => unmarked line (part mem)) (List.rdropWhile_idempotent isBlank outside) clean hosts
  have update : nodeHostsUpdate (unlines (outside.rdropWhile isBlank ++ h.block)) h = .ok none ↔
      ∀ line ∈ outside.rdropWhile isBlank, line.getLast? ≠ some '\r' := by
    rw [nodeHostsUpdate, again h, ← unlines_chomp_eq_iff _ h.block]
    simp [bind, Except.bind, pure, Except.pure, eq_comm]
  simp only [mergeManagedNodeHosts_of_outside split, Except.ok.injEq, exists_eq_left', again,
    unlines_chomp_eq_iff, update, and_self]

theorem merges_converge_of_unix_ends :
    let h : Hosts := ⟨[("node-a-mesh".toList, "100.96.0.8".toList)], by decide⟩
    ∃ text, mergeManagedNodeHosts "192.0.2.10 node\n".toList h = .ok text ∧
      mergeManagedNodeHosts text ⟨[], by decide⟩ =
        mergeManagedNodeHosts "192.0.2.10 node\n".toList ⟨[], by decide⟩ ∧
      nodeHostsUpdate text h = .ok none := by
  have split : Outside (linesOf "192.0.2.10 node\n".toList) ["192.0.2.10 node".toList] := by
    refine .inl ⟨fun line mem => ?_, by decide⟩
    have lines : linesOf "192.0.2.10 node\n".toList = ["192.0.2.10 node".toList] := by decide
    rw [lines] at mem
    obtain rfl := List.mem_singleton.mp mem
    decide
  refine (merges_converge_iff split ?_ _).mpr (by decide)
  intro e mem
  obtain rfl := List.mem_singleton.mp mem
  have plain : ("100.96.0.8".toList ++ "node-a-mesh".toList).all (!isUnicodeSpace ·) := by
    decide
  exact fun c inside => by simpa using List.all_eq_true.mp plain c inside

/-- Each merge of the same text takes one carriage return away. -/
theorem merge_eats_carriage_return :
    let h : Hosts := ⟨[], List.nodup_nil⟩
    mergeManagedNodeHosts "a\r\r\n".toList h = .ok "a\r\n".toList ∧
      mergeManagedNodeHosts "a\r\n".toList h = .ok "a\n".toList ∧
      nodeHostsUpdate "a\r\n".toList h = .ok (some "a\n".toList) := by
  decide

end Flannel.Operator
