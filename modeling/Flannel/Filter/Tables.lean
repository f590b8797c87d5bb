import Flannel.Table.Keyed
import Mathlib.Data.List.Induction

/-!
# Named chains of rules

No rule can be appended that jumps to a chain that does not exist, and no chain can be removed
that a rule of another chain jumps to. What a transaction does to one chain is the fold of its
edits of that chain; a block of rules is renewed by deleting each rule that is present and
appending it again.
-/

namespace Flannel.Filter

open Table

variable {κ ρ : Type} [DecidableEq κ] [BEq ρ] [LawfulBEq ρ]

structure Tables (κ ρ : Type) [DecidableEq κ] where
  chains : List (κ × List ρ)
  distinct : (chains.map Prod.fst).Nodup

namespace Tables

def rules? (t : Tables κ ρ) (name : κ) : Option (List ρ) :=
  (lookup Prod.fst t.chains name).map Prod.snd

def contents (t : Tables κ ρ) (name : κ) : List ρ :=
  (t.rules? name).getD []

def has (t : Tables κ ρ) (name : κ) : Bool :=
  (t.rules? name).isSome

def set (t : Tables κ ρ) (name : κ) (rules : List ρ) : Tables κ ρ :=
  ⟨upsert Prod.fst (name, rules) t.chains, nodup_upsert t.distinct _⟩

def drop (t : Tables κ ρ) (name : κ) : Tables κ ρ :=
  ⟨erase Prod.fst name t.chains, nodup_erase t.distinct _⟩

section Access

variable (t : Tables κ ρ) (name other : κ) (rules : List ρ)

omit [BEq ρ] [LawfulBEq ρ]

theorem rules?_set :
    (t.set name rules).rules? other = if other = name then some rules else t.rules? other := by
  rw [rules?, set, lookup_upsert]
  split <;> rfl

theorem rules?_drop : (t.drop name).rules? other = if other = name then none else t.rules? other := by
  rw [rules?, drop, lookup_erase t.distinct]
  split <;> rfl

@[simp]
theorem contents_set :
    (t.set name rules).contents other = if other = name then rules else t.contents other := by
  rw [contents, rules?_set]
  split <;> rfl

@[simp]
theorem has_set : (t.set name rules).has other = (decide (other = name) || t.has other) := by
  rw [has, rules?_set]
  by_cases same : other = name <;> simp [same, has]

@[simp]
theorem contents_drop : (t.drop name).contents other = if other = name then [] else t.contents other := by
  rw [contents, rules?_drop]
  split <;> rfl

@[simp]
theorem has_drop : (t.drop name).has other = (!decide (other = name) && t.has other) := by
  rw [has, rules?_drop]
  by_cases same : other = name <;> simp [same, has]

variable {t name other}

theorem has_set_of_has (isThere : t.has other) : (t.set name rules).has other := by
  simp [isThere]

theorem has_iff : t.has name ↔ ∃ rules, t.rules? name = some rules :=
  Option.isSome_iff_exists

theorem contents_of_has_eq_false (absent : t.has name = false) : t.contents name = [] := by
  rw [has, Option.isSome_eq_false_iff, Option.isNone_iff_eq_none] at absent
  rw [contents, absent]
  rfl

theorem has_of_mem {rule : ρ} (mem : rule ∈ t.contents name) : t.has name := by
  by_contra absent
  rw [Bool.not_eq_true] at absent
  rw [contents_of_has_eq_false absent] at mem
  exact List.not_mem_nil mem

end Access

/-! ## Jumps -/

section Jumps

variable (target : κ → ρ → Option κ)

def accepts (t : Tables κ ρ) (name : κ) (rule : ρ) : Bool :=
  (target name rule).all t.has

def referenced (t : Tables κ ρ) (name : κ) : Bool :=
  t.chains.any fun chain => chain.1 != name && chain.2.any fun rule => target chain.1 rule == some name

def remove (t : Tables κ ρ) (name : κ) : Option (Tables κ ρ) :=
  if t.referenced target name then none else some (t.drop name)

/-- Every rule that jumps to a chain jumps to one that exists. -/
def Closed (t : Tables κ ρ) : Prop :=
  ∀ name, ∀ rule ∈ t.contents name, t.accepts target name rule = true

variable {target}

omit [BEq ρ] [LawfulBEq ρ]

theorem accepts_iff {t : Tables κ ρ} {name : κ} {rule : ρ} :
    t.accepts target name rule ↔ ∀ other, target name rule = some other → t.has other := by
  rw [accepts, Option.all_eq_true]

theorem accepts_mono {t t' : Tables κ ρ} (kept : ∀ name, t.has name → t'.has name)
    {name : κ} {rule : ρ} (accepted : t.accepts target name rule) :
    t'.accepts target name rule :=
  accepts_iff.mpr fun other jumps => kept other (accepts_iff.mp accepted other jumps)

theorem mem_chains_of_mem {t : Tables κ ρ} {name : κ} {rule : ρ} (mem : rule ∈ t.contents name) :
    (name, t.contents name) ∈ t.chains := by
  obtain ⟨rules, isRules⟩ := has_iff.mp (has_of_mem mem)
  obtain ⟨chain, found, rfl⟩ := Option.map_eq_some_iff.mp isRules
  have isContents : t.contents name = chain.2 := by rw [contents, isRules]; rfl
  have isName := key_of_lookup found
  rw [isContents, ← isName]
  exact mem_of_lookup found

theorem referenced_of_mem {t : Tables κ ρ} {name other : κ} {rule : ρ} (mem : rule ∈ t.contents other)
    (differs : other ≠ name) (jumps : target other rule = some name) :
    t.referenced target name := by
  refine List.any_eq_true.mpr ⟨(other, t.contents other), mem_chains_of_mem mem, ?_⟩
  simpa [differs] using ⟨rule, mem, jumps⟩

theorem closed_iff {t : Tables κ ρ} : t.Closed target ↔
    ∀ chain ∈ t.chains, ∀ rule ∈ chain.2, t.accepts target chain.1 rule := by
  constructor
  · intro closed chain mem rule memRule
    have found := lookup_eq_some_of_mem t.distinct mem
    refine closed chain.1 rule ?_
    rw [contents, rules?, found]
    exact memRule
  · intro closed name rule mem
    exact closed _ (mem_chains_of_mem mem) rule mem

instance (t : Tables κ ρ) : Decidable (t.Closed target) :=
  decidable_of_iff _ closed_iff.symm

theorem Closed.set {t : Tables κ ρ} (closed : t.Closed target) {name : κ} {rules : List ρ}
    (accepted : ∀ rule ∈ rules, (t.set name rules).accepts target name rule) :
    (t.set name rules).Closed target := by
  intro other rule mem
  rw [contents_set] at mem
  split_ifs at mem with same
  · rw [same]
    exact accepted rule mem
  · exact accepts_mono (fun _ => has_set_of_has rules) (closed other rule mem)

theorem Closed.set_sublist {t : Tables κ ρ} (closed : t.Closed target) {name : κ} {rules : List ρ}
    (fewer : rules.Sublist (t.contents name)) : (t.set name rules).Closed target :=
  closed.set fun rule mem => accepts_mono (fun _ => has_set_of_has rules) (closed name rule (fewer.subset mem))

theorem Closed.remove {t t' : Tables κ ρ} (closed : t.Closed target) {name : κ}
    (removed : t.remove target name = some t') : t'.Closed target := by
  rw [Tables.remove] at removed
  split_ifs at removed with referenced
  obtain rfl := Option.some.inj removed
  intro other rule mem
  rw [contents_drop] at mem
  split_ifs at mem with same
  · exact absurd mem List.not_mem_nil
  · refine accepts_iff.mpr fun jumped jumps => ?_
    have isThere := accepts_iff.mp (closed other rule mem) jumped jumps
    have differs : jumped ≠ name := by
      rintro rfl
      exact referenced (referenced_of_mem mem same jumps)
    simp [differs, isThere]

end Jumps

end Tables

/-! ## Transactions -/

inductive Edit (κ ρ : Type)
  | delete (name : κ) (rule : ρ)
  | append (name : κ) (rule : ρ)
  deriving DecidableEq

namespace Edit

variable (target : κ → ρ → Option κ)

def apply (t : Tables κ ρ) : Edit κ ρ → Option (Tables κ ρ)
  | .delete name rule =>
    if rule ∈ t.contents name then some (t.set name ((t.contents name).erase rule)) else none
  | .append name rule =>
    if t.has name && t.accepts target name rule then some (t.set name (t.contents name ++ [rule]))
    else none

def on (name : κ) (rules : List ρ) : Edit κ ρ → List ρ
  | .delete other rule => if other = name then rules.erase rule else rules
  | .append other rule => if other = name then rules ++ [rule] else rules

variable {target} {t t' : Tables κ ρ} {edit : Edit κ ρ}

theorem apply_cases (applied : edit.apply target t = some t') :
    (∃ name rule, edit = .delete name rule ∧ rule ∈ t.contents name ∧
      t' = t.set name ((t.contents name).erase rule)) ∨
    ∃ name rule, edit = .append name rule ∧ t.has name ∧ t.accepts target name rule ∧
      t' = t.set name (t.contents name ++ [rule]) := by
  cases edit with
  | delete name rule =>
    rw [apply] at applied
    split_ifs at applied with mem
    exact .inl ⟨name, rule, rfl, mem, (Option.some.inj applied).symm⟩
  | append name rule =>
    rw [apply] at applied
    split_ifs at applied with accepted
    rw [Bool.and_eq_true] at accepted
    exact .inr ⟨name, rule, rfl, accepted.1, accepted.2, (Option.some.inj applied).symm⟩

theorem contents_apply (applied : edit.apply target t = some t') (name : κ) :
    t'.contents name = edit.on name (t.contents name) := by
  obtain ⟨other, rule, rfl, -, rfl⟩ | ⟨other, rule, rfl, -, -, rfl⟩ := apply_cases applied
  all_goals
    by_cases same : name = other
    · subst same
      simp [on]
    · simp [on, same, Ne.symm same]

theorem has_apply (applied : edit.apply target t = some t') (name : κ) : t'.has name = t.has name := by
  obtain ⟨other, rule, rfl, mem, rfl⟩ | ⟨other, rule, rfl, isThere, -, rfl⟩ := apply_cases applied
  · have isThere := Tables.has_of_mem mem
    by_cases same : name = other <;> simp [same, isThere]
  · by_cases same : name = other <;> simp [same, isThere]

theorem closed_apply (closed : t.Closed target) (applied : edit.apply target t = some t') :
    t'.Closed target := by
  obtain ⟨name, rule, rfl, -, rfl⟩ | ⟨name, rule, rfl, -, accepted, rfl⟩ := apply_cases applied
  · exact closed.set_sublist List.erase_sublist
  · apply closed.set
    intro other mem
    refine Tables.accepts_mono (fun _ => Tables.has_set_of_has _) ?_
    rcases List.mem_append.mp mem with mem | mem
    · exact closed name other mem
    · rw [List.mem_singleton.mp mem]
      exact accepted

end Edit

def Tables.commit (target : κ → ρ → Option κ) (t : Tables κ ρ) (edits : List (Edit κ ρ)) :
    Option (Tables κ ρ) :=
  edits.foldlM (Edit.apply target) t

section Commit

variable {target : κ → ρ → Option κ} {t t' : Tables κ ρ} {edits : List (Edit κ ρ)}

theorem contents_commit (committed : t.commit target edits = some t') (name : κ) :
    t'.contents name = edits.foldl (fun rules edit => edit.on name rules) (t.contents name) := by
  induction edits generalizing t with
  | nil =>
    obtain rfl := Option.some.inj committed
    rfl
  | cons edit edits ih =>
    obtain ⟨middle, applied, committed⟩ := Option.bind_eq_some_iff.mp committed
    rw [List.foldl_cons, ← Edit.contents_apply applied]
    exact ih committed

theorem has_commit (committed : t.commit target edits = some t') (name : κ) :
    t'.has name = t.has name := by
  induction edits generalizing t with
  | nil =>
    obtain rfl := Option.some.inj committed
    rfl
  | cons edit edits ih =>
    obtain ⟨middle, applied, committed⟩ := Option.bind_eq_some_iff.mp committed
    rw [ih committed, Edit.has_apply applied]

theorem closed_commit (closed : t.Closed target) (committed : t.commit target edits = some t') :
    t'.Closed target := by
  induction edits generalizing t with
  | nil =>
    obtain rfl := Option.some.inj committed
    exact closed
  | cons edit edits ih =>
    obtain ⟨middle, applied, committed⟩ := Option.bind_eq_some_iff.mp committed
    exact ih (Edit.closed_apply closed applied) committed

end Commit

/-! ## Renewing a block of rules -/

def renew (present : ρ → Bool) (rules : List ρ) (rule : ρ) : List ρ :=
  (if present rule then rules.erase rule else rules) ++ [rule]

theorem erase_eq_filter_of_count_le_one {rules : List ρ} {rule : ρ} (once : rules.count rule ≤ 1) :
    rules.erase rule = rules.filter (· != rule) := by
  induction rules with
  | nil => rfl
  | cons first rules ih =>
    by_cases same : first = rule
    · subst same
      have absent : first ∉ rules := by
        rw [List.count_cons_self] at once
        exact List.count_eq_zero.mp (by omega)
      have kept : rules.filter (· != first) = rules := by
        rw [List.filter_eq_self]
        intro other mem
        simpa using ne_of_mem_of_not_mem mem absent
      rw [List.erase_cons_head, List.filter_cons_of_neg (by simp), kept]
    · rw [List.count_cons_of_ne same] at once
      rw [List.erase_cons_tail (by simpa using same), List.filter_cons_of_pos (by simpa using same),
        ih once]

theorem foldl_erase {block rules : List ρ} (once : ∀ rule ∈ block, rules.count rule ≤ 1) :
    block.foldl List.erase rules = rules.filter (· ∉ block) := by
  induction block generalizing rules with
  | nil => simp
  | cons rule block ih =>
    have erased := erase_eq_filter_of_count_le_one (once rule (.head _))
    rw [List.foldl_cons, ih, erased, List.filter_filter]
    · apply List.filter_congr
      intro other _
      by_cases same : other = rule <;> simp [same]
    · intro other mem
      exact Nat.le_trans (List.erase_sublist.count_le other) (once other (.tail _ mem))

theorem count_foldl_erase (block rules : List ρ) (rule : ρ) :
    (block.foldl List.erase rules).count rule = rules.count rule - block.count rule := by
  induction block generalizing rules with
  | nil => simp
  | cons first block ih =>
    rw [List.foldl_cons, ih, List.count_erase, List.count_cons]
    omega

/-- The block is renewed one rule at a time. In front stand the rules that have not been
deleted, behind them the rules renewed so far, `kept`; of a rule that the block names twice
an earlier copy may have been deleted again. -/
theorem foldl_renew_kept (block rules : List ρ) :
    ∃ kept : List ρ, block.foldl (renew (· ∈ rules)) rules = block.foldl List.erase rules ++ kept ∧
      kept.Sublist block ∧ ∀ rule, rule ∈ kept ↔ rule ∈ block := by
  -- the induction is on the block from its end: the last rule is renewed last
  induction block using List.reverseRecOn with
  | nil => exact ⟨[], by simp, List.nil_sublist _, by simp⟩
  | append_singleton block rule ih =>
    obtain ⟨kept, isKept, sublist, sameRules⟩ := ih
    have lifted : ∀ kept' : List ρ, kept'.Sublist kept → (∀ other, other ≠ rule →
        (other ∈ kept' ↔ other ∈ kept)) →
        (kept' ++ [rule]).Sublist (block ++ [rule]) ∧
          ∀ other, other ∈ kept' ++ [rule] ↔ other ∈ block ++ [rule] := by
      intro kept' fewer others
      refine ⟨(fewer.trans sublist).append (List.Sublist.refl _), fun other => ?_⟩
      by_cases same : other = rule
      · simp [same]
      · simp [same, others other same, sameRules]
    rw [List.foldl_concat, List.foldl_concat, isKept, renew]
    by_cases front : rule ∈ block.foldl List.erase rules
    · have present : rule ∈ rules := List.count_pos_iff.mp (by
        have positive := List.count_pos_iff.mpr front
        rw [count_foldl_erase] at positive
        omega)
      obtain ⟨sublist', sameRules'⟩ := lifted kept (List.Sublist.refl _) (by simp)
      refine ⟨kept ++ [rule], ?_, sublist', sameRules'⟩
      rw [if_pos (by simpa using present), List.erase_append_left _ front, List.append_assoc]
    · rw [List.erase_of_not_mem front]
      by_cases present : rule ∈ rules
      · obtain ⟨sublist', sameRules'⟩ := lifted (kept.erase rule) List.erase_sublist
          fun other different => List.mem_erase_of_ne different
        refine ⟨kept.erase rule ++ [rule], ?_, sublist', sameRules'⟩
        rw [if_pos (by simpa using present), List.erase_append_right _ front, List.append_assoc]
      · obtain ⟨sublist', sameRules'⟩ := lifted kept (List.Sublist.refl _) (by simp)
        refine ⟨kept ++ [rule], ?_, sublist', sameRules'⟩
        rw [if_neg (by simpa using present), List.append_assoc]

theorem foldl_renew {block rules : List ρ} (distinct : block.Nodup)
    (once : ∀ rule ∈ block, rules.count rule ≤ 1) :
    block.foldl (renew (· ∈ rules)) rules = rules.filter (· ∉ block) ++ block := by
  obtain ⟨kept, isKept, sublist, sameRules⟩ := foldl_renew_kept block rules
  have perm := (List.perm_ext_iff_of_nodup (sublist.nodup distinct) distinct).mpr sameRules
  rw [isKept, foldl_erase once, sublist.eq_of_length perm.length_eq]

end Flannel.Filter
