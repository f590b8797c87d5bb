import Flannel.Mesh.Layout

/-!
# Reconciliation of the mesh routes

From every managed kernel, one `Reconcile` in which no request fails makes the resources exactly
those of the desired networks, leaves everything else as it was, and a further one changes
nothing.
-/

namespace Flannel.Mesh

open Net Program Table

/-! ## Everything else -/

namespace RouteManager

/-- Two kernels hold the same besides the routes of the table, the policy rules of the
remote networks and the rules with the comment. -/
structure SameElsewhere (print : List String → String) (m : RouteManager) (k k' : Kernel) : Prop where
  links : k'.links = k.links
  routes : k'.routes.filter (fun route => !route.selected none m.table) =
    k.routes.filter fun route => !route.selected none m.table
  rules : k'.rules.filter (fun rule =>
      !(rule.table == m.table && rule.priority == remoteRulePriority)) =
    k.rules.filter fun rule => !(rule.table == m.table && rule.priority == remoteRulePriority)
  chain : k'.chain.filter (fun rulespec => !hasComment print rulespec) =
    k.chain.filter fun rulespec => !hasComment print rulespec

variable {print : List String → String} {m : RouteManager} {mesh : IPNet} {k k' k'' : Kernel}

theorem SameElsewhere.refl (k : Kernel) : m.SameElsewhere print k k :=
  ⟨rfl, rfl, rfl, rfl⟩

theorem SameElsewhere.trans (first : m.SameElsewhere print k k')
    (second : m.SameElsewhere print k' k'') : m.SameElsewhere print k k'' where
  links := second.links.trans first.links
  routes := second.routes.trans first.routes
  rules := second.rules.trans first.rules
  chain := second.chain.trans first.chain

theorem sameElsewhere_ensured (prints : Prints print m) (linkIndex : Nat) (c : Cidr) :
    m.SameElsewhere print k (m.ensured k linkIndex c) where
  links := rfl
  routes := by
    have byKey : ∀ other : Route, other.key = Route.key ⟨linkIndex, some c.net, m.table⟩ →
        (!Route.selected none m.table other) =
          !Route.selected none m.table ⟨linkIndex, some c.net, m.table⟩ := by
      intro other same
      simp [Route.selected, (Prod.mk.inj same).1]
    rw [ensured, filter_upsert byKey, if_neg (by simp [Route.selected])]
  rules := by
    rw [ensured]
    split
    · rfl
    · simp [remoteRule]
  chain := by
    by_cases present : m.hostSNATRule c.net ∈ k.chain
    · rw [ensured, if_pos present]
    · rw [ensured, if_neg present]
      exact filter_insertAt_of_neg (by simp [prints.hasComment c.net]) 2 k.chain

theorem sameElsewhere_removed (prints : Prints print m) (c : Cidr) :
    m.SameElsewhere print k (m.removed k c) where
  links := rfl
  routes := by
    rw [removed, List.filter_filter]
    apply List.filter_congr
    intro route _
    cases inTable : route.table == m.table <;> simp [Route.selected, inTable]
  rules := by
    rw [removed, List.filter_filter]
    apply List.filter_congr
    intro rule _
    cases isRemote : rule.table == m.table && rule.priority == remoteRulePriority <;>
      simp [isRemoteRule, isRemote]
  chain := filter_erase_of_neg (by simp [prints.hasComment c.net]) k.chain

variable {cs desired : List Cidr} {linkIndex : Nat}

theorem managed_foldl_ensured (prints : Prints print m)
    (apart : ∀ c ∈ cs, Apart mesh c) (linkIndex : Nat) (managed : m.Managed print mesh k) :
    m.Managed print mesh (cs.foldl (fun k c => m.ensured k linkIndex c) k) ∧
      m.SameElsewhere print k (cs.foldl (fun k c => m.ensured k linkIndex c) k) ∧
      m.layout mesh (cs.foldl (fun k c => m.ensured k linkIndex c) k) =
        ⟨(m.layout mesh k).routes ∪ {c | c ∈ cs}, (m.layout mesh k).rules ∪ {c | c ∈ cs},
          (m.layout mesh k).snat ∪ {c | c ∈ cs}⟩ := by
  induction cs generalizing k with
  | nil => exact ⟨managed, .refl k, by simp⟩
  | cons c cs ih =>
    have isApart := apart c (.head _)
    obtain ⟨kept, same, isLayout⟩ := ih (fun d mem => apart d (.tail c mem))
      (managed.ensured prints isApart linkIndex)
    refine ⟨kept, (sameElsewhere_ensured prints linkIndex c).trans same, ?_⟩
    rw [List.foldl_cons, isLayout, layout_ensured isApart]
    ext d
    all_goals
      simp only [Layout.ensure, Set.mem_union, Set.mem_insert_iff, Set.mem_ofPred_eq, List.mem_cons]
      tauto

theorem managed_foldl_removed (prints : Prints print m) (isIPv4 : IsIPv4 mesh)
    (apart : ∀ c ∈ cs, Apart mesh c) (managed : m.Managed print mesh k) :
    m.Managed print mesh (cs.foldl m.removed k) ∧
      m.SameElsewhere print k (cs.foldl m.removed k) ∧
      m.layout mesh (cs.foldl m.removed k) =
        ⟨(m.layout mesh k).routes \ {c | c ∈ cs}, (m.layout mesh k).rules \ {c | c ∈ cs},
          (m.layout mesh k).snat \ {c | c ∈ cs}⟩ := by
  induction cs generalizing k with
  | nil => exact ⟨managed, .refl k, by simp⟩
  | cons c cs ih =>
    obtain ⟨kept, same, isLayout⟩ := ih (fun d mem => apart d (.tail c mem))
      (managed.removed isIPv4 (apart c (.head _)))
    refine ⟨kept, (sameElsewhere_removed prints c).trans same, ?_⟩
    rw [List.foldl_cons, isLayout, layout_removed prints managed]
    ext d
    all_goals
      simp only [Layout.remove, Set.mem_sdiff, Set.mem_singleton_iff, Set.mem_ofPred_eq,
        List.mem_cons]
      tauto

theorem mem_routed (managed : m.Managed print mesh k) {network : String} :
    network ∈ (k.routes.filter (Route.selected none m.table)).filterMap
        (fun route => route.dst.map IPNet.string) ↔
      network = mesh.string ∨ ∃ c ∈ (m.layout mesh k).routes, c.text = network := by
  simp only [List.mem_filterMap, Option.map_eq_some_iff]
  constructor
  · rintro ⟨route, mem, dst, isDst, rfl⟩
    have inTable : (m.table, route.dst) ∈ (m.tableRoutes k).map Route.key :=
      List.mem_map.mpr ⟨route, mem, by rw [Route.key, (mem_tableRoutes.mp mem).2]⟩
    rcases managed.routes route mem with isMesh | ⟨c, apart, isNet⟩
    · exact .inl (congrArg IPNet.string (Option.some.inj (isDst.symm.trans isMesh)))
    · refine .inr ⟨c, ⟨apart, isNet ▸ inTable⟩, ?_⟩
      exact congrArg IPNet.string (Option.some.inj (isNet.symm.trans isDst))
  · have found : ∀ dst, (m.table, some dst) ∈ (m.tableRoutes k).map Route.key →
        ∃ route ∈ k.routes.filter (Route.selected none m.table), ∃ n, route.dst = some n ∧
          n.string = dst.string := by
      intro dst mem
      obtain ⟨route, inTable, isKey⟩ := List.mem_map.mp mem
      exact ⟨route, inTable, dst, (Prod.mk.inj isKey).2, rfl⟩
    rintro (rfl | ⟨c, ⟨_, mem⟩, rfl⟩)
    · exact found mesh managed.meshRoute
    · exact found c.net mem

theorem mem_ruled (managed : m.Managed print mesh k) {network : String} :
    network ∈ (k.rules.filter m.isRemoteRule).filterMap (fun rule => rule.dst.map IPNet.string) ↔
      ∃ c ∈ (m.layout mesh k).rules, c.text = network := by
  simp only [List.mem_filterMap, Option.map_eq_some_iff, List.mem_filter]
  constructor
  · rintro ⟨rule, ⟨mem, isRemote⟩, dst, isDst, rfl⟩
    simp only [isRemoteRule, Bool.and_eq_true, beq_iff_eq] at isRemote
    obtain ⟨c, _, rfl⟩ := managed.rules rule (mem_remoteRules.mpr ⟨mem, isRemote.1⟩)
    exact ⟨c, mem, congrArg IPNet.string (Option.some.inj isDst)⟩
  · rintro ⟨c, mem, rfl⟩
    exact ⟨m.remoteRule c.net, ⟨mem, by simp [isRemoteRule, remoteRule]⟩, c.net, rfl, rfl⟩

theorem mem_snatDestinations (prints : Prints print m) (isIPv4 : IsIPv4 mesh)
    (managed : m.Managed print mesh k) {network : String} :
    network ∈ snatDestinations ("-N FLANNEL-POSTRTG" :: k.chain.map print) ↔
      ∃ c ∈ (m.layout mesh k).snat, Apart mesh c ∧ c.text = network := by
  have destination : ∀ c, Apart mesh c →
      destinationOf (Text.fields (print (m.hostSNATRule c.net)).toList) = some c.text := by
    intro c apart
    rw [prints.destination c, if_neg (apart.ones_ne_zero isIPv4)]
  rw [snatDestinations_print, List.mem_filterMap]
  constructor
  · rintro ⟨rulespec, mem, isDst⟩
    obtain ⟨c, apart, rfl⟩ := managed.snat rulespec mem
    rw [destination c apart] at isDst
    exact ⟨c, (mem_snatRules.mp mem).1, apart, Option.some.inj isDst⟩
  · rintro ⟨c, mem, apart, rfl⟩
    exact ⟨m.hostSNATRule c.net, mem_snatRules.mpr ⟨mem, prints.hasComment c.net⟩, destination c apart⟩

/-! ## One reconciliation without failures -/

theorem exists_map_eq {α β : Type} {f : α → β} {P : α → Prop} {xs : List β}
    (images : ∀ x ∈ xs, ∃ y, P y ∧ f y = x) : ∃ ys : List α, ys.map f = xs ∧ ∀ y ∈ ys, P y := by
  induction xs with
  | nil => exact ⟨[], rfl, by simp⟩
  | cons x xs ih =>
    obtain ⟨y, holds, rfl⟩ := images x (.head _)
    obtain ⟨ys, rfl, all⟩ := ih fun z mem => images z (.tail _ mem)
    refine ⟨y :: ys, rfl, fun z mem => ?_⟩
    rcases List.mem_cons.mp mem with rfl | mem
    · exact holds
    · exact all z mem

theorem Managed.apart_of_rule (managed : m.Managed print mesh k) {c : Cidr}
    (mem : m.remoteRule c.net ∈ k.rules) : Apart mesh c := by
  obtain ⟨d, apart, same⟩ := managed.rules _ (mem_remoteRules.mpr ⟨mem, rfl, rfl⟩)
  exact remoteRule_inj.mp same ▸ apart

theorem Managed.apart_of_snat (managed : m.Managed print mesh k) (prints : Prints print m) {c : Cidr}
    (mem : m.hostSNATRule c.net ∈ k.chain) : Apart mesh c := by
  obtain ⟨d, apart, same⟩ := managed.snat _ (mem_snatRules.mpr ⟨mem, prints.hasComment c.net⟩)
  exact hostSNATRule_inj.mp same ▸ apart

theorem exists_stale (prints : Prints print m) (isIPv4 : IsIPv4 mesh) (isMesh : m.meshCIDR = mesh.string)
    (managed : m.Managed print mesh k) (desired : List Cidr) :
    ∃ old : List Cidr, m.stale (desired.map Cidr.text) (m.found print k) = old.map Cidr.text ∧
      ∀ c, c ∈ old ↔ (Apart mesh c ∧ c ∉ desired) ∧ (c ∈ (m.layout mesh k).routes ∨
        c ∈ (m.layout mesh k).rules ∨ c ∈ (m.layout mesh k).snat) := by
  have members : ∀ network, network ∈ m.stale (desired.map Cidr.text) (m.found print k) ↔
      ∃ c, ((Apart mesh c ∧ c ∉ desired) ∧ (c ∈ (m.layout mesh k).routes ∨
        c ∈ (m.layout mesh k).rules ∨ c ∈ (m.layout mesh k).snat)) ∧ c.text = network := by
    intro network
    rw [mem_stale, found, List.mem_append, List.mem_append, mem_routed managed, mem_ruled managed,
      mem_snatDestinations prints isIPv4 managed, isMesh]
    have notDesired : ∀ c : Cidr, c.text ∉ desired.map Cidr.text ↔ c ∉ desired := by
      intro c
      rw [List.mem_map_of_injective Cidr.text_injective]
    constructor
    · rintro ⟨((rfl | ⟨c, mem, rfl⟩) | ⟨c, mem, rfl⟩) | ⟨c, mem, apart, rfl⟩, notMesh, fresh⟩
      · exact absurd rfl notMesh
      · exact ⟨c, ⟨⟨mem.1, (notDesired c).mp fresh⟩, .inl mem⟩, rfl⟩
      · exact ⟨c, ⟨⟨managed.apart_of_rule mem, (notDesired c).mp fresh⟩, .inr (.inl mem)⟩, rfl⟩
      · exact ⟨c, ⟨⟨apart, (notDesired c).mp fresh⟩, .inr (.inr mem)⟩, rfl⟩
    · rintro ⟨c, ⟨⟨apart, fresh⟩, somewhere⟩, rfl⟩
      refine ⟨?_, apart.text_ne isIPv4, (notDesired c).mpr fresh⟩
      rcases somewhere with mem | mem | mem
      · exact .inl (.inl (.inr ⟨c, mem, rfl⟩))
      · exact .inl (.inr ⟨c, mem, rfl⟩)
      · exact .inr ⟨c, mem, apart, rfl⟩
  obtain ⟨old, isOld, all⟩ := exists_map_eq fun network mem => (members network).mp mem
  refine ⟨old, isOld.symm, fun c => ⟨all c, fun holds => ?_⟩⟩
  have mem := (members c.text).mpr ⟨c, holds, rfl⟩
  rw [← isOld] at mem
  exact (List.mem_map_of_injective Cidr.text_injective).mp mem

theorem perform_reconcile {old : List Cidr}
    (linked : desired = [] ∨ k.links m.linkName = some linkIndex)
    (isOld : m.stale (desired.map Cidr.text)
      (m.found print (desired.foldl (fun k c => m.ensured k linkIndex c) k)) = old.map Cidr.text) :
    perform (Kernel.answer print) k (m.reconcile (desired.map Cidr.text)) =
      ([], old.foldl m.removed (desired.foldl (fun k c => m.ensured k linkIndex c) k)) := by
  have ensures : perform (Kernel.answer print) k
      (collect (fun network => do pure (← m.ensure network).toList) (desired.map Cidr.text)) =
      ([], desired.foldl (fun k c => m.ensured k linkIndex c) k) := by
    rw [collect_map]
    apply perform_collect (I := fun k => desired = [] ∨ k.links m.linkName = some linkIndex)
    · intro c mem k linked
      have isLink := linked.resolve_left (List.ne_nil_of_mem mem)
      simp [perform_ensure print m k isLink c]
    · exact fun _ _ _ linked => linked
    · exact linked
  have removes : ∀ k, perform (Kernel.answer print) k (collect m.remove (old.map Cidr.text)) =
      ([], old.foldl m.removed k) := by
    intro k
    rw [collect_map]
    exact perform_collect (I := fun _ => True) (fun c _ k _ => perform_remove print m k c)
      (fun _ _ _ _ => trivial) trivial
  rw [reconcile, perform_bind, ensures, perform_bind, perform_staleDestinations, isOld, perform_bind,
    removes]
  rfl

/-! ## Exactness -/

/-- The resources of the backend are those of the desired networks, each once, and the route of
the mesh network. -/
structure Exact (print : List String → String) (m : RouteManager) (mesh : IPNet) (desired : List Cidr)
    (k : Kernel) : Prop where
  routes : ((m.tableRoutes k).map Route.dst).Perm (some mesh :: desired.map fun c => some c.net)
  rules : (m.remoteRules k).Perm (desired.map fun c => m.remoteRule c.net)
  snat : (snatRules print k).Perm (desired.map fun c => m.hostSNATRule c.net)

def Layout.all (cs : List Cidr) : Layout :=
  ⟨{c | c ∈ cs}, {c | c ∈ cs}, {c | c ∈ cs}⟩

theorem Managed.nodup_dst (managed : m.Managed print mesh k) :
    ((m.tableRoutes k).map Route.dst).Nodup := by
  have keys : (m.tableRoutes k).map Route.key =
      ((m.tableRoutes k).map Route.dst).map fun dst => (m.table, dst) := by
    rw [List.map_map]
    apply List.map_congr_left
    intro route mem
    simp [Route.key, (mem_tableRoutes.mp mem).2]
  have distinct := managed.distinctRoutes
  rw [keys] at distinct
  exact distinct.of_map

theorem exact_of_layout (prints : Prints print m) (isIPv4 : IsIPv4 mesh)
    (managed : m.Managed print mesh k) (distinct : desired.Nodup)
    (apart : ∀ c ∈ desired, Apart mesh c) (isLayout : m.layout mesh k = .all desired) :
    m.Exact print mesh desired k := by
  have routed : ∀ c, (Apart mesh c ∧ (m.table, some c.net) ∈ (m.tableRoutes k).map Route.key) ↔
      c ∈ desired := fun c => Set.ext_iff.mp (congrArg Layout.routes isLayout) c
  have ruled : ∀ c, m.remoteRule c.net ∈ k.rules ↔ c ∈ desired :=
    fun c => Set.ext_iff.mp (congrArg Layout.rules isLayout) c
  have translated : ∀ c, m.hostSNATRule c.net ∈ k.chain ↔ c ∈ desired :=
    fun c => Set.ext_iff.mp (congrArg Layout.snat isLayout) c
  constructor
  · have distinctNets : (some mesh :: desired.map fun c => some c.net).Nodup := by
      rw [List.nodup_cons]
      constructor
      · simp only [List.mem_map, Option.some.injEq, not_exists, not_and]
        exact fun c mem => (apart c mem).net_ne isIPv4
      · exact distinct.map fun c d same => Cidr.net_injective (Option.some.inj same)
    rw [List.perm_ext_iff_of_nodup managed.nodup_dst distinctNets]
    intro dst
    have inTable : dst ∈ (m.tableRoutes k).map Route.dst ↔
        (m.table, dst) ∈ (m.tableRoutes k).map Route.key := by
      rw [mem_keys_tableRoutes, List.mem_map]
      simp [mem_tableRoutes, and_assoc]
    constructor
    · intro mem
      obtain ⟨route, isRoute, rfl⟩ := List.mem_map.mp mem
      rw [List.mem_cons, List.mem_map]
      rcases managed.routes route isRoute with isMesh | ⟨c, isApart, isNet⟩
      · exact .inl isMesh
      · rw [inTable, isNet] at mem
        exact .inr ⟨c, (routed c).mp ⟨isApart, mem⟩, isNet.symm⟩
    · intro mem
      rw [List.mem_cons, List.mem_map] at mem
      rcases mem with rfl | ⟨c, mem, rfl⟩
      · exact inTable.mpr managed.meshRoute
      · exact inTable.mpr ((routed c).mpr mem).2
  · have distinctRules : (desired.map fun c => m.remoteRule c.net).Nodup :=
      distinct.map fun c d => remoteRule_inj.mp
    rw [List.perm_ext_iff_of_nodup managed.distinctRules distinctRules]
    intro rule
    rw [List.mem_map]
    constructor
    · intro mem
      obtain ⟨c, _, rfl⟩ := managed.rules rule mem
      exact ⟨c, (ruled c).mp (mem_remoteRules.mp mem).1, rfl⟩
    · rintro ⟨c, mem, rfl⟩
      exact mem_remoteRules.mpr ⟨(ruled c).mpr mem, rfl, rfl⟩
  · have distinctRules : (desired.map fun c => m.hostSNATRule c.net).Nodup :=
      distinct.map fun c d => hostSNATRule_inj.mp
    rw [List.perm_ext_iff_of_nodup managed.distinctSnat distinctRules]
    intro rulespec
    rw [List.mem_map]
    constructor
    · intro mem
      obtain ⟨c, _, rfl⟩ := managed.snat rulespec mem
      exact ⟨c, (translated c).mp (mem_snatRules.mp mem).1, rfl⟩
    · rintro ⟨c, mem, rfl⟩
      exact mem_snatRules.mpr ⟨(translated c).mpr mem, prints.hasComment c.net⟩

/-! ## The fixed point -/

def RoutedOver (m : RouteManager) (linkIndex : Nat) (c : Cidr) (k : Kernel) : Prop :=
  lookup Route.key k.routes (m.table, some c.net) = some ⟨linkIndex, some c.net, m.table⟩

theorem routedOver_ensured {c d : Cidr} (goesOver : m.RoutedOver linkIndex d k ∨ d = c) :
    m.RoutedOver linkIndex d (m.ensured k linkIndex c) := by
  rw [RoutedOver, ensured, lookup_upsert]
  by_cases same : d = c
  · subst same
    exact if_pos rfl
  · rw [if_neg (by simp [Route.key, Cidr.net_injective.eq_iff, same])]
    exact goesOver.resolve_right same

theorem routedOver_foldl_ensured {d : Cidr} (goesOver : m.RoutedOver linkIndex d k ∨ d ∈ cs) :
    m.RoutedOver linkIndex d (cs.foldl (fun k c => m.ensured k linkIndex c) k) := by
  induction cs generalizing k with
  | nil => exact goesOver.resolve_right List.not_mem_nil
  | cons c cs ih =>
    apply ih
    rcases goesOver with goesOver | mem
    · exact .inl (routedOver_ensured (.inl goesOver))
    · rcases List.mem_cons.mp mem with same | later
      · exact .inl (routedOver_ensured (.inr same))
      · exact .inr later

theorem routedOver_foldl_removed {d : Cidr}
    (goesOver : m.RoutedOver linkIndex d k) (other : d ∉ cs) :
    m.RoutedOver linkIndex d (cs.foldl m.removed k) := by
  induction cs generalizing k with
  | nil => exact goesOver
  | cons c cs ih =>
    rw [List.mem_cons, not_or] at other
    refine ih ?_ other.2
    rw [RoutedOver, removed, lookup_filter]
    · exact goesOver
    · intro route _ isKey
      simp [Route.selected, (Prod.mk.inj isKey).2, Cidr.net_injective.eq_iff, other.1]

theorem ensured_eq_self {c : Cidr} (goesOver : m.RoutedOver linkIndex c k)
    (ruled : m.remoteRule c.net ∈ k.rules) (translated : m.hostSNATRule c.net ∈ k.chain) :
    m.ensured k linkIndex c = k := by
  have sameRoutes : upsert Route.key ⟨linkIndex, some c.net, m.table⟩ k.routes = k.routes :=
    upsert_eq_self goesOver
  rw [ensured, if_pos ruled, if_pos translated, sameRoutes]

theorem foldl_ensured_eq_self (done : ∀ c ∈ cs, m.ensured k linkIndex c = k) :
    cs.foldl (fun k c => m.ensured k linkIndex c) k = k := by
  induction cs with
  | nil => rfl
  | cons c cs ih =>
    rw [List.foldl_cons, done c List.mem_cons_self]
    exact ih fun d mem => done d (.tail c mem)

theorem reconcile_eq_self (prints : Prints print m) (isIPv4 : IsIPv4 mesh)
    (isMesh : m.meshCIDR = mesh.string) (managed : m.Managed print mesh k)
    (isLayout : m.layout mesh k = .all desired) (routed : ∀ c ∈ desired, m.RoutedOver linkIndex c k)
    (linked : desired = [] ∨ k.links m.linkName = some linkIndex) {again : List Cidr}
    (perm : again.Perm desired) :
    perform (Kernel.answer print) k (m.reconcile (again.map Cidr.text)) = ([], k) := by
  have unchanged : again.foldl (fun k c => m.ensured k linkIndex c) k = k := by
    apply foldl_ensured_eq_self
    intro c mem
    have isDesired := perm.mem_iff.mp mem
    exact ensured_eq_self (routed c isDesired)
      ((Set.ext_iff.mp (congrArg Layout.rules isLayout) c).mpr isDesired)
      ((Set.ext_iff.mp (congrArg Layout.snat isLayout) c).mpr isDesired)
  obtain ⟨old, isOld, members⟩ := exists_stale prints isIPv4 isMesh managed again
  obtain rfl : old = [] := by
    rw [List.eq_nil_iff_forall_not_mem]
    intro c mem
    obtain ⟨⟨_, fresh⟩, somewhere⟩ := (members c).mp mem
    rw [isLayout] at somewhere
    rcases somewhere with isDesired | isDesired | isDesired
    all_goals exact fresh (perm.mem_iff.mpr isDesired)
  have noLink : again = [] ∨ k.links m.linkName = some linkIndex := by
    refine linked.imp (fun nothing => ?_) id
    rwa [nothing, List.perm_nil] at perm
  rw [← unchanged] at isOld
  rw [perform_reconcile noLink isOld, unchanged]
  rfl

theorem reconcile_of_managed (prints : Prints print m) (isIPv4 : IsIPv4 mesh)
    (isMesh : m.meshCIDR = mesh.string) (managed : m.Managed print mesh k)
    (distinct : desired.Nodup) (apart : ∀ c ∈ desired, Apart mesh c)
    (linked : desired = [] ∨ ∃ linkIndex, k.links m.linkName = some linkIndex) :
    ∃ k', perform (Kernel.answer print) k (m.reconcile (desired.map Cidr.text)) = ([], k') ∧
      m.Exact print mesh desired k' ∧ m.SameElsewhere print k k' ∧
      ∀ again : List Cidr, again.Perm desired →
        perform (Kernel.answer print) k' (m.reconcile (again.map Cidr.text)) = ([], k') := by
  obtain ⟨linkIndex, linked⟩ : ∃ linkIndex, desired = [] ∨ k.links m.linkName = some linkIndex := by
    rcases linked with none | ⟨linkIndex, isLink⟩
    · exact ⟨0, .inl none⟩
    · exact ⟨linkIndex, .inr isLink⟩
  obtain ⟨managedMiddle, sameMiddle, layoutMiddle⟩ :=
    managed_foldl_ensured prints apart linkIndex managed
  obtain ⟨old, isOld, members⟩ := exists_stale prints isIPv4 isMesh managedMiddle desired
  obtain ⟨managedLast, sameLast, layoutLast⟩ := managed_foldl_removed prints isIPv4
    (fun c mem => ((members c).mp mem).1.1) managedMiddle
  have kept : ∀ c ∈ desired, c ∉ old := fun c mem isOld => ((members c).mp isOld).1.2 mem
  have isLayout : m.layout mesh
      (old.foldl m.removed (desired.foldl (fun k c => m.ensured k linkIndex c) k)) = .all desired := by
    -- what is left of each set is desired, since all else in it was stale
    have only : ∀ found : Set Cidr, (∀ c ∈ desired, c ∈ found) →
        (∀ c ∈ found, c ∉ desired → c ∈ old) → found \ {c | c ∈ old} = {c | c ∈ desired} := by
      intro found complete stale
      ext c
      rw [Set.mem_sdiff, Set.mem_ofPred_eq, Set.mem_ofPred_eq]
      constructor
      · rintro ⟨mem, fresh⟩
        by_contra other
        exact fresh (stale c mem other)
      · exact fun mem => ⟨complete c mem, kept c mem⟩
    rw [layoutLast, Layout.all]
    congr 1
    · apply only
      · intro c mem
        rw [layoutMiddle]
        exact .inr mem
      · exact fun c mem other => (members c).mpr ⟨⟨mem.1, other⟩, .inl mem⟩
    · apply only
      · intro c mem
        rw [layoutMiddle]
        exact .inr mem
      · exact fun c mem other =>
          (members c).mpr ⟨⟨managedMiddle.apart_of_rule mem, other⟩, .inr (.inl mem)⟩
    · apply only
      · intro c mem
        rw [layoutMiddle]
        exact .inr mem
      · exact fun c mem other =>
          (members c).mpr ⟨⟨managedMiddle.apart_of_snat prints mem, other⟩, .inr (.inr mem)⟩
  have routed : ∀ c ∈ desired, m.RoutedOver linkIndex c
      (old.foldl m.removed (desired.foldl (fun k c => m.ensured k linkIndex c) k)) := fun c mem =>
    routedOver_foldl_removed (routedOver_foldl_ensured (.inr mem)) (kept c mem)
  refine ⟨_, perform_reconcile linked isOld,
    exact_of_layout prints isIPv4 managedLast distinct apart isLayout, sameMiddle.trans sameLast, ?_⟩
  exact fun again => reconcile_eq_self prints isIPv4 isMesh managedLast isLayout routed
    (linked.imp id fun isLink => by rw [(sameMiddle.trans sameLast).links, isLink])

end RouteManager

end Flannel.Mesh
