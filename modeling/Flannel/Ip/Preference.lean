import Flannel.Ip.Iface

/-!
# The order of preference of addresses

`compareAddrs` puts global addresses before link-local ones, and otherwise compares flags. An
address that is neither is compared by its flags with both, and the lists are sorted before such
addresses are filtered out, so it can keep a link-local and a global address apart in the wrong
order.
-/

namespace Flannel.Ip

open Net Flannel.Order

/-! ## The keys of the comparison -/

inductive AddrScope
  | global
  | linkLocal
  | other
  deriving DecidableEq

namespace Addr

def scope (addr : Addr) : AddrScope :=
  if addr.ip.isGlobalUnicast then .global
  else if addr.ip.isLinkLocalUnicast then .linkLocal
  else .other

def rank (addr : Addr) : Nat :=
  (if addr.flags.getLsbD 7 then 0 else 2) + (if addr.flags.getLsbD 0 then 1 else 0)

end Addr

def MayFollow (a b : Addr) : Prop :=
  a.scope = .global ∧ b.scope = .linkLocal ∨
    ¬ (a.scope = .linkLocal ∧ b.scope = .global) ∧ a.rank ≤ b.rank

theorem and_permanent (flags : BitVec 32) :
    flags &&& ifaFPermanent = if flags.getLsbD 7 then ifaFPermanent else 0 :=
  BitVec.and_twoPow flags 7

theorem and_temporary (flags : BitVec 32) :
    flags &&& ifaFTemporary = if flags.getLsbD 0 then ifaFTemporary else 0 :=
  BitVec.and_twoPow flags 0

theorem notAfter_iff {a b : Addr} : NotAfter compareAddrs a b ↔ MayFollow a b := by
  have exclusive : ∀ ip : Net.IP, ip.isLinkLocalUnicast → ip.isGlobalUnicast = false :=
    fun _ => Net.IP.isGlobalUnicast_eq_false
  have exclusiveA := exclusive a.ip
  have exclusiveB := exclusive b.ip
  simp only [NotAfter, compareAddrs, MayFollow, Addr.scope, Addr.rank, and_permanent, and_temporary]
  generalize a.ip.isGlobalUnicast = globalA at *
  generalize a.ip.isLinkLocalUnicast = linkLocalA at *
  generalize b.ip.isGlobalUnicast = globalB at *
  generalize b.ip.isLinkLocalUnicast = linkLocalB at *
  generalize a.flags.getLsbD 7 = permanentA
  generalize a.flags.getLsbD 0 = temporaryA
  generalize b.flags.getLsbD 7 = permanentB
  generalize b.flags.getLsbD 0 = temporaryB
  decide +revert

theorem asymm_compareAddrs (a b : Addr) (before : compareAddrs a b < 0) :
    NotAfter compareAddrs a b := by
  have notFollow : ¬ MayFollow b a := fun follows => notAfter_iff.2 follows before
  rw [notAfter_iff]
  unfold MayFollow at notFollow ⊢
  cases scopeA : a.scope <;> cases scopeB : b.scope <;> simp [scopeA, scopeB] at notFollow ⊢ <;> omega

/-! ## Addresses that keep others apart -/

section Bridges

variable (addrs : List Addr)

def LeadsOn (linkLocal : Addr) : Prop :=
  ∃ middle ∈ addrs, ∃ global ∈ addrs, middle.scope = .other ∧ global.scope = .global ∧
    linkLocal.rank ≤ middle.rank ∧ middle.rank ≤ global.rank

def LeadsTo (global : Addr) : Prop :=
  ∃ linkLocal ∈ addrs, ∃ middle ∈ addrs, linkLocal.scope = .linkLocal ∧ middle.scope = .other ∧
    linkLocal.rank ≤ middle.rank ∧ middle.rank ≤ global.rank

def Bridged : Prop :=
  ∃ global ∈ addrs, global.scope = .global ∧ LeadsTo addrs global

/-- Of two usable addresses the one preferred may come last: the first, if link-local, leads on to
a global address, and to the last, if global, leads a link-local one. -/
def Tangled (f : AddrFamily) : Prop :=
  ∃ first ∈ addrs, ∃ last ∈ addrs, f.usable first = true ∧ f.usable last = true ∧
    compareAddrs last first < 0 ∧ (first.scope = .linkLocal → LeadsOn addrs first) ∧
    (last.scope = .global → LeadsTo addrs last)

variable {addrs} {first last : Addr} {others : List Addr}

theorem rank_le_of_mayFollow {a b : Addr} (follows : MayFollow a b)
    (noJump : a.scope ≠ .global ∨ b.scope ≠ .linkLocal) : a.rank ≤ b.rank := by
  rcases follows with jump | ⟨_, rises⟩
  · exact absurd jump (not_and_or.mpr noJump)
  · exact rises

theorem leadsOn_of_isChain (chain : (first :: others).IsChain MayFollow)
    (subset : first :: others ⊆ addrs) (isLinkLocal : first.scope = .linkLocal) (mem : last ∈ others)
    (before : ¬ MayFollow first last) : LeadsOn addrs first := by
  by_contra notLeads
  have carried : ∀ addr ∈ others, addr.scope ≠ .global ∧ first.rank ≤ addr.rank := by
    refine List.IsChain.cons_induction (r := fun a b => MayFollow a b ∧ a ∈ addrs ∧ b ∈ addrs) _ others
      (chain.imp_of_mem_imp fun a b memA memB follows => ⟨follows, subset memA, subset memB⟩) ?_
      ⟨by simp [isLinkLocal], Nat.le_refl _⟩
    rintro a b ⟨follows, memA, memB⟩ ⟨notGlobal, above⟩
    have rises := rank_le_of_mayFollow follows (.inl notGlobal)
    refine ⟨fun isGlobal => ?_, above.trans rises⟩
    cases scopeA : a.scope with
    | global => exact notGlobal scopeA
    | linkLocal => simp [MayFollow, scopeA, isGlobal] at follows
    | other => exact notLeads ⟨a, memA, b, memB, scopeA, isGlobal, above, rises⟩
  obtain ⟨notGlobal, above⟩ := carried last mem
  exact before (.inr ⟨fun scopes => notGlobal scopes.2, above⟩)

theorem leadsTo_of_isChain (chain : (others ++ [last]).IsChain MayFollow)
    (subset : others ++ [last] ⊆ addrs) (isGlobal : last.scope = .global) (mem : first ∈ others)
    (before : ¬ MayFollow first last) : LeadsTo addrs last := by
  by_contra notLeads
  have carried : ∀ addr ∈ others, addr.scope ≠ .linkLocal ∧ addr.rank ≤ last.rank := by
    refine List.IsChain.backwards_concat_induction (r := fun a b => MayFollow a b ∧ a ∈ addrs ∧ b ∈ addrs)
      _ others
      (chain.imp_of_mem_imp fun a b memA memB follows => ⟨follows, subset memA, subset memB⟩) ?_
      ⟨by simp [isGlobal], Nat.le_refl _⟩
    rintro a b ⟨follows, memA, memB⟩ ⟨notLinkLocal, below⟩
    have rises := rank_le_of_mayFollow follows (.inr notLinkLocal)
    refine ⟨fun isLinkLocal => ?_, rises.trans below⟩
    cases scopeB : b.scope with
    | global => simp [MayFollow, isLinkLocal, scopeB] at follows
    | linkLocal => exact notLinkLocal scopeB
    | other => exact notLeads ⟨a, memA, b, memB, isLinkLocal, scopeB, rises, below⟩
  obtain ⟨notLinkLocal, below⟩ := carried first mem
  exact before (.inr ⟨fun scopes => notLinkLocal scopes.1, below⟩)

theorem scope_of_usable {f : AddrFamily} {addr : Addr} (usable : f.usable addr) :
    addr.scope = .global ∨ addr.scope = .linkLocal := by
  have hasScope : (addr.ip.isGlobalUnicast || addr.ip.isLinkLocalUnicast) := by
    simp only [AddrFamily.usable, Bool.and_eq_true] at usable
    exact usable.1.2
  unfold Addr.scope
  cases isGlobal : addr.ip.isGlobalUnicast with
  | true => exact .inl rfl
  | false =>
    rw [isGlobal, Bool.false_or] at hasScope
    simp [hasScope]

theorem pairwise_of_not_tangled {f : AddrFamily} (notTangled : ¬ Tangled addrs f) {sorted : List Addr}
    (chain : sorted.IsChain MayFollow) (subset : sorted ⊆ addrs) :
    (sorted.filter f.usable).Pairwise (NotAfter compareAddrs) := by
  rw [List.pairwise_filter, List.pairwise_iff_forall_sublist]
  intro first last sublist usableFirst usableLast before
  obtain ⟨start, rest, rfl, memFirst, ends⟩ := List.cons_sublist_iff.mp sublist
  obtain ⟨start, middle, rfl⟩ := List.append_of_mem memFirst
  obtain ⟨middle', rest, rfl⟩ := List.append_of_mem (List.singleton_sublist.mp ends)
  have segment : first :: (middle ++ middle') ++ [last] <:+:
      start ++ first :: middle ++ (middle' ++ last :: rest) := ⟨start, rest, by simp⟩
  have chain := chain.infix segment
  have subset : first :: (middle ++ middle') ++ [last] ⊆ addrs :=
    List.Subset.trans segment.subset subset
  have notFollow : ¬ MayFollow first last := fun follows => notAfter_iff.2 follows before
  refine notTangled ⟨first, subset (by simp), last, subset (by simp), usableFirst, usableLast, before,
    fun isLinkLocal => ?_, fun isGlobal => ?_⟩
  · exact leadsOn_of_isChain chain subset isLinkLocal (by simp) notFollow
  · exact leadsTo_of_isChain chain subset isGlobal (by simp) notFollow

theorem nodup_of_keys {chain : List Addr} (keys : (chain.map fun addr => (addr.scope, addr.rank)).Nodup) :
    chain.Nodup :=
  keys.of_map

theorem exists_chain_of_tangled {f : AddrFamily} (tangled : Tangled addrs f) :
    ∃ chain first last, chain.IsChain MayFollow ∧ chain.Nodup ∧ chain ⊆ addrs ∧
      [first, last].Sublist chain ∧ f.usable first ∧ f.usable last ∧
      compareAddrs last first < 0 := by
  obtain ⟨first, memFirst, last, memLast, usableFirst, usableLast, before, leadsOn, leadsTo⟩ := tangled
  have notFollow : ¬ MayFollow first last := fun follows => notAfter_iff.2 follows before
  suffices found : ∃ middle, (first :: (middle ++ [last])).IsChain MayFollow ∧
      (first :: (middle ++ [last])).Nodup ∧ middle ⊆ addrs by
    obtain ⟨middle, chain, nodup, subset⟩ := found
    refine ⟨_, first, last, chain, nodup, ?_, ?_, usableFirst, usableLast, before⟩
    · simp [subset, memFirst, memLast]
    · exact List.cons_sublist_cons.mpr (List.sublist_append_right middle [last])
  rcases scope_of_usable usableFirst with globalFirst | linkLocalFirst
  · have globalLast : last.scope = .global := (scope_of_usable usableLast).resolve_right fun isLinkLocal =>
      notFollow (.inl ⟨globalFirst, isLinkLocal⟩)
    have falls : last.rank < first.rank := by
      simp only [MayFollow, globalFirst, globalLast] at notFollow
      simpa using notFollow
    obtain ⟨linkLocal, memL, middle, memM, scopeL, scopeM, rises, rises'⟩ := leadsTo globalLast
    refine ⟨[linkLocal, middle], ?_, ?_, by simp [memL, memM]⟩
    · simp [MayFollow, globalFirst, globalLast, scopeL, scopeM, rises, rises']
    · refine nodup_of_keys ?_
      simp [globalFirst, globalLast, scopeL, scopeM, falls.ne']
  · obtain ⟨middle, memM, global, memG, scopeM, scopeG, rises, rises'⟩ := leadsOn linkLocalFirst
    rcases scope_of_usable usableLast with globalLast | linkLocalLast
    · obtain ⟨linkLocal, memL, middle', memM', scopeL, scopeM', rises'', rises'''⟩ := leadsTo globalLast
      -- The shortest way there is by one of the two addresses between.
      by_cases short : first.rank ≤ middle'.rank
      · refine ⟨[middle'], ?_, ?_, by simp [memM']⟩
        · simp [MayFollow, linkLocalFirst, globalLast, scopeM', short, rises''']
        · refine nodup_of_keys ?_
          simp [linkLocalFirst, globalLast, scopeM']
      · by_cases short' : middle.rank ≤ last.rank
        · refine ⟨[middle], ?_, ?_, by simp [memM]⟩
          · simp [MayFollow, linkLocalFirst, globalLast, scopeM, short', rises]
          · refine nodup_of_keys ?_
            simp [linkLocalFirst, globalLast, scopeM]
        · refine ⟨[middle, global, linkLocal, middle'], ?_, ?_, by simp [memM, memG, memL, memM']⟩
          · simp [MayFollow, linkLocalFirst, globalLast, scopeM, scopeG, scopeL, scopeM', rises, rises',
              rises'', rises''']
          · refine nodup_of_keys ?_
            simp [linkLocalFirst, globalLast, scopeM, scopeG, scopeL, scopeM']
            omega
    · have falls : last.rank < first.rank := by
        simp only [MayFollow, linkLocalFirst, linkLocalLast] at notFollow
        simpa using notFollow
      refine ⟨[middle, global], ?_, ?_, by simp [memM, memG]⟩
      · simp [MayFollow, linkLocalFirst, linkLocalLast, scopeM, scopeG, rises, rises']
      · refine nodup_of_keys ?_
        simp [linkLocalFirst, linkLocalLast, scopeM, scopeG, falls.ne']

theorem strictWeak_iff : StrictWeak compareAddrs addrs ↔ ¬ Bridged addrs := by
  constructor
  · rintro weak ⟨global, memG, scopeG, linkLocal, memL, middle, memM, scopeL, scopeM, rises, rises'⟩
    have follows : MayFollow linkLocal global := by
      refine notAfter_iff.1 (weak.trans _ memL _ memM _ memG (notAfter_iff.2 ?_) (notAfter_iff.2 ?_))
      · simp [MayFollow, scopeL, scopeM, rises]
      · simp [MayFollow, scopeM, scopeG, rises']
    simp [MayFollow, scopeL, scopeG] at follows
  · intro notBridged
    refine ⟨fun a _ b _ => asymm_compareAddrs a b, fun a memA b memB c memC first second => ?_⟩
    rw [notAfter_iff] at first second ⊢
    by_contra notFollow
    apply notBridged
    have chain : [a, b, c].IsChain MayFollow := by simp [first, second]
    have subset : [a, b, c] ⊆ addrs := by simp [memA, memB, memC]
    cases scopeA : a.scope with
    | linkLocal =>
      obtain ⟨middle, memM, global, memG, scopeM, scopeG, rises⟩ :=
        leadsOn_of_isChain chain subset scopeA (by simp) notFollow
      exact ⟨global, memG, scopeG, a, memA, middle, memM, scopeA, scopeM, rises⟩
    | global =>
      cases scopeC : c.scope with
      | linkLocal => exact absurd (.inl ⟨scopeA, scopeC⟩) notFollow
      | global =>
        have ends : ([a, b] ++ [c]).IsChain MayFollow := chain
        exact ⟨c, memC, scopeC, leadsTo_of_isChain ends subset scopeC (by simp) notFollow⟩
      | other =>
        have falls : c.rank < a.rank := by simpa [MayFollow, scopeA, scopeC] using notFollow
        have rises := rank_le_of_mayFollow second (.inr (by simp [scopeC]))
        have scopeB : b.scope = .linkLocal := by
          by_contra notLinkLocal
          have rises' := rank_le_of_mayFollow first (.inr notLinkLocal)
          omega
        exact ⟨a, memA, scopeA, b, memB, c, memC, scopeB, scopeC, rises, falls.le⟩
    | other =>
      have rises := rank_le_of_mayFollow first (.inl (by simp [scopeA]))
      have falls : c.rank < a.rank := by simpa [MayFollow, scopeA] using notFollow
      have jumps : b.scope = .global ∧ c.scope = .linkLocal := by
        by_contra noJump
        have rises' := rank_le_of_mayFollow second (not_and_or.mp noJump)
        omega
      exact ⟨b, memB, jumps.1, c, memC, a, memA, jumps.2, scopeA, falls.le, rises⟩

theorem bridged_iff_of_perm {order : List Addr} (perm : order.Perm addrs) :
    Bridged order ↔ Bridged addrs := by
  simp only [Bridged, LeadsTo, perm.mem_iff]

theorem tangled_iff_of_perm {order : List Addr} (perm : order.Perm addrs) (f : AddrFamily) :
    Tangled order f ↔ Tangled addrs f := by
  simp only [Tangled, LeadsOn, LeadsTo, perm.mem_iff]

theorem exists_perm_append {chain : List Addr} (nodup : chain.Nodup) (subset : chain ⊆ addrs) :
    ∃ rest, (chain ++ rest).Perm addrs := by
  obtain ⟨listed, perm, sublist⟩ := List.subperm_of_subset nodup subset
  obtain ⟨rest, whole⟩ := sublist.exists_perm_append
  exact ⟨rest, ((perm.append_right rest).symm).trans whole.symm⟩

end Bridges

/-! ## The lists that are returned -/

def InPreferenceOrder (sorting : AddrSorting) (f : AddrFamily) (addrs : List Addr) : Prop :=
  ∀ ips, interfaceAddrs sorting f (.ok addrs) = .ok ips →
    ips = (keptAddrs sorting f addrs).map Addr.ip ∧
      (keptAddrs sorting f addrs).Pairwise (NotAfter compareAddrs)

/-- A short list is not tangled, and a long one on which the comparison is not a strict weak order
has no preferences. -/
def Orderly (f : AddrFamily) (addrs : List Addr) : Prop :=
  if addrs.length < 12 then ¬ Tangled addrs f
  else Bridged addrs → ∀ first ∈ addrs, ∀ last ∈ addrs, f.usable first = true →
    f.usable last = true → NotAfter compareAddrs first last

theorem not_inPreferenceOrder {sorting : AddrSorting} {f : AddrFamily} {addrs : List Addr}
    {first last : Addr} (sublist : [first, last].Sublist (sorting.sort addrs))
    (usableFirst : f.usable first) (usableLast : f.usable last)
    (before : compareAddrs last first < 0) : ¬ InPreferenceOrder sorting f addrs := by
  intro ordered
  have kept : [first, last].Sublist (keptAddrs sorting f addrs) := by
    have filtered := sublist.filter f.usable
    rwa [List.filter_cons_of_pos usableFirst, List.filter_cons_of_pos usableLast] at filtered
  have nonempty : (keptAddrs sorting f addrs).map Addr.ip ≠ [] :=
    List.ne_nil_of_mem (List.mem_map_of_mem (kept.subset (.head _)))
  obtain ⟨_, pairwise⟩ := ordered _ (interfaceAddrs_eq_ok_iff.mpr ⟨addrs, rfl, rfl, nonempty⟩)
  exact List.pairwise_iff_forall_sublist.mp pairwise kept before

/-- The addresses of an interface come out in the order of preference, however the kernel lists them,
exactly if they are orderly. -/
theorem inPreferenceOrder_iff (f : AddrFamily) (addrs : List Addr) :
    (∀ order, order.Perm addrs → ∀ sorting, InPreferenceOrder sorting f order) ↔ Orderly f addrs := by
  unfold Orderly
  split
  next short =>
    constructor
    · intro ordered tangled
      obtain ⟨chain, first, last, isChain, nodup, subset, sublist, usableFirst, usableLast, before⟩ :=
        exists_chain_of_tangled tangled
      obtain ⟨rest, perm⟩ := exists_perm_append nodup subset
      refine not_inPreferenceOrder ?_ usableFirst usableLast before
        (ordered _ perm (.byInsertion 12 asymm_compareAddrs))
      have kept : chain.Sublist (insertionSort compareAddrs (chain ++ rest)) := by
        have earlier := @insertionSort_sublist_append _ compareAddrs chain rest
        rwa [insertionSort_of_isChain (isChain.imp fun a b => notAfter_iff.2)] at earlier
      exact sublist.trans kept
    · intro notTangled order perm sorting ips returned
      obtain ⟨_, isOrder, isResult, _⟩ := interfaceAddrs_eq_ok_iff.mp returned
      cases isOrder
      refine ⟨isResult, ?_⟩
      by_cases weak : StrictWeak compareAddrs order
      · exact (sorting.sorted order weak).filter _
      · rw [keptAddrs, sorting.inserted order weak (perm.length_eq ▸ short)]
        refine pairwise_of_not_tangled ((tangled_iff_of_perm perm f).not.mpr notTangled) ?_
          (perm_insertionSort order).subset
        exact (isChain_insertionSort asymm_compareAddrs order).imp fun a b => notAfter_iff.1
  next long =>
    constructor
    · intro ordered bridged first memFirst last memLast usableFirst usableLast before
      have differ : first ≠ last := fun same => asymm_compareAddrs _ _ before (same ▸ before)
      obtain ⟨rest, perm⟩ := @exists_perm_append addrs [first, last] (by simpa using differ)
        (by simp [memFirst, memLast])
      have notWeak : ¬ StrictWeak compareAddrs addrs := strictWeak_iff.not.mpr (not_not.mpr bridged)
      refine not_inPreferenceOrder ?_ usableFirst usableLast before (ordered addrs (.refl _)
        ((Sorting.byInsertion 12 asymm_compareAddrs).adverse notWeak (Nat.not_lt.mp long) perm))
      change [first, last].Sublist (if addrs = addrs then _ else _)
      rw [if_pos rfl]
      exact List.sublist_append_left _ _
    · intro unranked order perm sorting ips returned
      obtain ⟨_, isOrder, isResult, _⟩ := interfaceAddrs_eq_ok_iff.mp returned
      cases isOrder
      refine ⟨isResult, ?_⟩
      by_cases weak : StrictWeak compareAddrs order
      · exact (sorting.sorted order weak).filter _
      · have bridged : Bridged addrs :=
          (bridged_iff_of_perm perm).mp (not_not.mp (strictWeak_iff.not.mp weak))
        refine List.pairwise_of_forall_mem_list fun first memFirst last memLast => ?_
        obtain ⟨memFirst, usableFirst⟩ := mem_of_mem_keptAddrs memFirst
        obtain ⟨memLast, usableLast⟩ := mem_of_mem_keptAddrs memLast
        exact unranked bridged first (perm.mem_iff.mp memFirst) last (perm.mem_iff.mp memLast)
          usableFirst usableLast

def permanentAddr (bits : BitVec 32) : Addr :=
  ⟨⟨.v4 bits, 24⟩, ifaFPermanent, "eth0"⟩

def loopbackBetween : List Addr :=
  [permanentAddr 0xa9fe0001, permanentAddr 0x7f000001, permanentAddr 0x0a000001]

/-- The loopback address keeps the link-local address before the global one. -/
theorem not_inPreferenceOrder_of_loopback :
    ¬ ∃ sorting, InPreferenceOrder sorting .inet loopbackBetween := by
  rintro ⟨sorting, ordered⟩
  have bridged : Bridged loopbackBetween :=
    ⟨permanentAddr 0x0a000001, by decide, by decide, permanentAddr 0xa9fe0001, by decide,
      permanentAddr 0x7f000001, by decide, by decide, by decide, by decide, by decide⟩
  have notWeak : ¬ StrictWeak compareAddrs loopbackBetween :=
    strictWeak_iff.not.mpr (not_not.mpr bridged)
  refine @not_inPreferenceOrder sorting .inet loopbackBetween (permanentAddr 0xa9fe0001)
    (permanentAddr 0x0a000001) ?_ (by decide) (by decide) (by decide) ordered
  rw [sorting.inserted _ notWeak (by decide)]
  decide

end Flannel.Ip
