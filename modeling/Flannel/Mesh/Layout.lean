import Flannel.Mesh.Kernel
import Mathlib.Data.Set.Insert

/-!
# What the mesh backend has on a node

The abstract state of the route manager: the remote networks with a route, with a policy rule and
with a SNAT rule. A kernel is *managed* if it holds nothing else of the backend, each of it once.
`Ensure` and `Remove` keep it so and leave everything else as it is.
-/

namespace Flannel.Mesh

open Net Program Table

/-- How iptables prints the SNAT rules: with the comment, and with the destination after
the first `-d` unless it is every address. -/
structure Prints (print : List String → String) (m : RouteManager) : Prop where
  comment : ∀ dst, RouteManager.carriesComment (print (m.hostSNATRule dst)) = true
  destination : ∀ c : Cidr,
    RouteManager.destinationOf (Text.fields (print (m.hostSNATRule c.net)).toList) =
      if c.ones = 0 then none else some c.text

def hasComment (print : List String → String) (rulespec : List String) : Bool :=
  RouteManager.carriesComment (print rulespec)

theorem Prints.hasComment {print : List String → String} {m : RouteManager} (prints : Prints print m)
    (dst : IPNet) : hasComment print (m.hostSNATRule dst) :=
  prints.comment dst

theorem snatDestinations_print (print : List String → String) (chain : List (List String)) :
    RouteManager.snatDestinations ("-N FLANNEL-POSTRTG" :: chain.map print) =
      (chain.filter (Mesh.hasComment print)).filterMap fun rulespec =>
        RouteManager.destinationOf (Text.fields (print rulespec).toList) := by
  have noComment : RouteManager.carriesComment "-N FLANNEL-POSTRTG" = false := by decide
  rw [RouteManager.snatDestinations, List.filter_cons_of_neg (by simp [noComment]), List.filter_map,
    List.filterMap_map]
  rfl

def Apart (mesh : IPNet) (c : Cidr) : Prop :=
  cidrsOverlap c.net mesh = false

instance (mesh : IPNet) : DecidablePred (Apart mesh) := fun _ => inferInstanceAs (Decidable (_ = _))

def IsIPv4 (n : IPNet) : Prop :=
  ∃ bits, n.ip = .v4 bits

theorem isIPv4_of_parseCIDR {value : String} {n : IPNet} (parsed : parseCIDR value = .ok n) :
    IsIPv4 n := by
  unfold parseCIDR at parsed
  split at parsed
  · contradiction
  · split at parsed
    · contradiction
    · obtain rfl := Except.ok.inj parsed
      exact ⟨_, rfl⟩

section Apart

variable {mesh : IPNet} {c : Cidr}

theorem Apart.text_ne (apart : Apart mesh c) (isIPv4 : IsIPv4 mesh) : c.text ≠ mesh.string := by
  rintro same
  obtain ⟨ip, ones⟩ := mesh
  obtain ⟨bits, rfl⟩ := isIPv4
  obtain ⟨rfl, rfl⟩ := string_v4_inj same
  simp [Apart, cidrsOverlap, IPNet.contains, Cidr.net, IP.to4] at apart

theorem Apart.net_ne (apart : Apart mesh c) (isIPv4 : IsIPv4 mesh) : c.net ≠ mesh :=
  fun same => apart.text_ne isIPv4 (congrArg IPNet.string same)

theorem Apart.ones_ne_zero (apart : Apart mesh c) (isIPv4 : IsIPv4 mesh) : c.ones ≠ 0 := by
  intro everything
  obtain ⟨ip, ones⟩ := mesh
  obtain ⟨bits, rfl⟩ := isIPv4
  have noMask : cidrMask 32 0 = 0 := by decide
  simp [Apart, cidrsOverlap, IPNet.contains, Cidr.net, IP.to4, IPNet.length, everything, noMask]
    at apart

end Apart

namespace RouteManager

variable (print : List String → String) (m : RouteManager) (mesh : IPNet) (k : Kernel)

def tableRoutes : List Route :=
  k.routes.filter (Route.selected none m.table)

def remoteRules : List Rule :=
  k.rules.filter fun rule => rule.table == m.table && rule.priority == remoteRulePriority

def snatRules : List (List String) :=
  k.chain.filter (hasComment print)

/-- What a kernel holds of the backend is known, each of it once. -/
structure Managed (k : Kernel) : Prop where
  distinctRoutes : ((m.tableRoutes k).map Route.key).Nodup
  meshRoute : (m.table, some mesh) ∈ (m.tableRoutes k).map Route.key
  routes : ∀ route ∈ m.tableRoutes k,
    route.dst = some mesh ∨ ∃ c, Apart mesh c ∧ route.dst = some c.net
  distinctRules : (m.remoteRules k).Nodup
  rules : ∀ rule ∈ m.remoteRules k, ∃ c, Apart mesh c ∧ rule = m.remoteRule c.net
  distinctSnat : (snatRules print k).Nodup
  snat : ∀ rulespec ∈ snatRules print k, ∃ c, Apart mesh c ∧ rulespec = m.hostSNATRule c.net

variable {print m mesh k}

theorem mem_tableRoutes {route : Route} :
    route ∈ m.tableRoutes k ↔ route ∈ k.routes ∧ route.table = m.table := by
  simp [tableRoutes, Route.selected]

theorem mem_remoteRules {rule : Rule} :
    rule ∈ m.remoteRules k ↔
      rule ∈ k.rules ∧ rule.table = m.table ∧ rule.priority = remoteRulePriority := by
  simp [remoteRules]

theorem mem_snatRules {rulespec : List String} :
    rulespec ∈ snatRules print k ↔ rulespec ∈ k.chain ∧ hasComment print rulespec := by
  simp [snatRules]

theorem tableRoutes_replaceRoute {linkIndex : Nat} {dst : IPNet} :
    m.tableRoutes { k with routes := upsert Route.key ⟨linkIndex, some dst, m.table⟩ k.routes } =
      upsert Route.key ⟨linkIndex, some dst, m.table⟩ (m.tableRoutes k) := by
  have byKey : ∀ other : Route, other.key = Route.key ⟨linkIndex, some dst, m.table⟩ →
      Route.selected none m.table other = Route.selected none m.table ⟨linkIndex, some dst, m.table⟩ := by
    intro other same
    simp [Route.selected, (Prod.mk.inj same).1]
  rw [tableRoutes, filter_upsert byKey, if_pos (by simp [Route.selected])]
  rfl

/-! ## The calls keep a kernel managed -/

namespace Managed

variable (managed : m.Managed print mesh k)

include managed

theorem replaceRoute {linkIndex : Nat} {dst : IPNet}
    (known : dst = mesh ∨ ∃ c, Apart mesh c ∧ dst = c.net) :
    m.Managed print mesh
      { k with routes := upsert Route.key ⟨linkIndex, some dst, m.table⟩ k.routes } := by
  have table := @tableRoutes_replaceRoute m k linkIndex dst
  refine { managed with distinctRoutes := ?_, meshRoute := ?_, routes := ?_ }
  · rw [table]
    exact nodup_upsert managed.distinctRoutes _
  · rw [table, map_key_upsert]
    split
    · exact managed.meshRoute
    · exact List.mem_append_left _ managed.meshRoute
  · intro route mem
    rw [table] at mem
    rcases mem_upsert mem with rfl | mem
    · rcases known with rfl | ⟨c, apart, rfl⟩
      · exact .inl rfl
      · exact .inr ⟨c, apart, rfl⟩
    · exact managed.routes route mem

theorem ofRoutes {routes : List Route} (fewer : routes.Sublist k.routes)
    (keepsMesh : (m.table, some mesh) ∈ (m.tableRoutes { k with routes := routes }).map Route.key) :
    m.Managed print mesh { k with routes := routes } := by
  have sublist : (m.tableRoutes { k with routes := routes }).Sublist (m.tableRoutes k) :=
    fewer.filter _
  exact { managed with
    distinctRoutes := managed.distinctRoutes.sublist (sublist.map _)
    meshRoute := keepsMesh
    routes := fun route mem => managed.routes route (sublist.subset mem) }

theorem eraseRoute {route : Route} (notMesh : route.dst ≠ some mesh) :
    m.Managed print mesh { k with routes := k.routes.erase route } := by
  refine managed.ofRoutes List.erase_sublist ?_
  obtain ⟨kept, mem, isMesh⟩ := List.mem_map.mp managed.meshRoute
  obtain ⟨mem, inTable⟩ := mem_tableRoutes.mp mem
  have other : kept ≠ route := by
    rintro rfl
    exact notMesh (Prod.mk.inj isMesh).2
  exact List.mem_map.mpr ⟨kept, mem_tableRoutes.mpr
    ⟨(List.mem_erase_of_ne other).mpr mem, inTable⟩, isMesh⟩

theorem ofRules {rules : List Rule} (fewer : rules.Sublist k.rules) :
    m.Managed print mesh { k with rules := rules } := by
  have sublist : (m.remoteRules { k with rules := rules }).Sublist (m.remoteRules k) :=
    fewer.filter _
  exact { managed with
    distinctRules := managed.distinctRules.sublist sublist
    rules := fun rule mem => managed.rules rule (sublist.subset mem) }

theorem addRule {rule : Rule} (absent : rule ∉ k.rules)
    (known : rule.priority ≠ remoteRulePriority ∨ ∃ c, Apart mesh c ∧ rule = m.remoteRule c.net) :
    m.Managed print mesh { k with rules := k.rules ++ [rule] } := by
  rcases known with foreign | ⟨c, apart, rfl⟩
  · have same : m.remoteRules { k with rules := k.rules ++ [rule] } = m.remoteRules k := by
      simp [remoteRules, foreign]
    exact { managed with
      distinctRules := by
        rw [same]
        exact managed.distinctRules
      rules := by
        rw [same]
        exact managed.rules }
  · have more : m.remoteRules { k with rules := k.rules ++ [m.remoteRule c.net] } =
        m.remoteRules k ++ [m.remoteRule c.net] := by
      simp [remoteRules, remoteRule]
    refine { managed with distinctRules := ?_, rules := ?_ }
    · rw [more, List.nodup_append]
      refine ⟨managed.distinctRules, List.nodup_singleton _, ?_⟩
      rintro rule mem _ memSingle rfl
      exact absent (List.mem_singleton.mp memSingle ▸ (mem_remoteRules.mp mem).1)
    · intro rule mem
      rw [more] at mem
      rcases List.mem_append.mp mem with mem | mem
      · exact managed.rules rule mem
      · exact ⟨c, apart, List.mem_singleton.mp mem⟩

theorem ofChain {chain : List (List String)} (fewer : chain.Sublist k.chain) :
    m.Managed print mesh { k with chain := chain } := by
  have sublist : (snatRules print { k with chain := chain }).Sublist (snatRules print k) :=
    fewer.filter _
  exact { managed with
    distinctSnat := managed.distinctSnat.sublist sublist
    snat := fun rulespec mem => managed.snat rulespec (sublist.subset mem) }

theorem insertRule (prints : Prints print m) {c : Cidr} (apart : Apart mesh c)
    (absent : m.hostSNATRule c.net ∉ k.chain) (pos : Nat) :
    m.Managed print mesh { k with chain := insertAt pos (m.hostSNATRule c.net) k.chain } := by
  have perm : (snatRules print { k with chain := insertAt pos (m.hostSNATRule c.net) k.chain }).Perm
      (m.hostSNATRule c.net :: snatRules print k) := by
    have filtered := (perm_insertAt pos (m.hostSNATRule c.net) k.chain).filter (hasComment print)
    rwa [List.filter_cons_of_pos (prints.hasComment c.net)] at filtered
  refine { managed with distinctSnat := ?_, snat := ?_ }
  · rw [perm.nodup_iff, List.nodup_cons]
    exact ⟨fun mem => absent (mem_snatRules.mp mem).1, managed.distinctSnat⟩
  · intro rulespec mem
    rcases List.mem_cons.mp (perm.mem_iff.mp mem) with rfl | mem
    · exact ⟨c, apart, rfl⟩
    · exact managed.snat rulespec mem

theorem ensured (prints : Prints print m) {c : Cidr} (apart : Apart mesh c) (linkIndex : Nat) :
    m.Managed print mesh (m.ensured k linkIndex c) := by
  have routed := @replaceRoute _ _ _ _ managed linkIndex _ (.inr ⟨c, apart, rfl⟩)
  have ruled : m.Managed print mesh
      { k with
        routes := upsert Route.key ⟨linkIndex, some c.net, m.table⟩ k.routes
        rules := if m.remoteRule c.net ∈ k.rules then k.rules
          else k.rules ++ [m.remoteRule c.net] } := by
    split
    · exact routed
    · exact routed.addRule ‹_› (.inr ⟨c, apart, rfl⟩)
  by_cases present : m.hostSNATRule c.net ∈ k.chain
  · rw [RouteManager.ensured, if_pos present]
    exact ruled
  · rw [RouteManager.ensured, if_neg present]
    exact ruled.insertRule prints apart present 2

theorem removed (isIPv4 : IsIPv4 mesh) {c : Cidr} (apart : Apart mesh c) :
    m.Managed print mesh (m.removed k c) := by
  have keepsMesh : (m.table, some mesh) ∈ (m.tableRoutes { k with
      routes := k.routes.filter fun route => !route.selected (some c.net) m.table }).map Route.key := by
    obtain ⟨kept, mem, isMesh⟩ := List.mem_map.mp managed.meshRoute
    obtain ⟨mem, inTable⟩ := mem_tableRoutes.mp mem
    refine List.mem_map.mpr ⟨kept, mem_tableRoutes.mpr ⟨List.mem_filter.mpr ⟨mem, ?_⟩, inTable⟩, isMesh⟩
    simp [Route.selected, (Prod.mk.inj isMesh).2, (apart.net_ne isIPv4).symm]
  have routed := managed.ofRoutes List.filter_sublist keepsMesh
  exact (routed.ofRules List.filter_sublist).ofChain List.erase_sublist

end Managed

/-! ## The three sets of networks -/

@[ext]
structure Layout where
  routes : Set Cidr
  rules : Set Cidr
  snat : Set Cidr

def Layout.ensure (c : Cidr) (layout : Layout) : Layout :=
  ⟨insert c layout.routes, insert c layout.rules, insert c layout.snat⟩

def Layout.remove (c : Cidr) (layout : Layout) : Layout :=
  ⟨layout.routes \ {c}, layout.rules \ {c}, layout.snat \ {c}⟩

def layout (m : RouteManager) (mesh : IPNet) (k : Kernel) : Layout where
  routes := {c | Apart mesh c ∧ (m.table, some c.net) ∈ (m.tableRoutes k).map Route.key}
  rules := {c | m.remoteRule c.net ∈ k.rules}
  snat := {c | m.hostSNATRule c.net ∈ k.chain}

theorem remoteRule_inj {c d : Cidr} : m.remoteRule c.net = m.remoteRule d.net ↔ c = d := by
  simp [remoteRule, Cidr.net_injective.eq_iff]

theorem hostSNATRule_inj {c d : Cidr} : m.hostSNATRule c.net = m.hostSNATRule d.net ↔ c = d := by
  constructor
  · intro same
    simp only [hostSNATRule, List.cons.injEq, true_and] at same
    exact Cidr.text_injective same.1
  · rintro rfl
    rfl

theorem mem_keys_tableRoutes {dst : Option IPNet} :
    (m.table, dst) ∈ (m.tableRoutes k).map Route.key ↔
      ∃ route ∈ k.routes, route.table = m.table ∧ route.dst = dst := by
  simp only [List.mem_map, mem_tableRoutes, Route.key, Prod.mk.injEq]
  constructor
  · rintro ⟨route, ⟨mem, _⟩, inTable, isDst⟩
    exact ⟨route, mem, inTable, isDst⟩
  · rintro ⟨route, mem, inTable, isDst⟩
    exact ⟨route, ⟨mem, inTable⟩, inTable, isDst⟩

theorem layout_ensured {c : Cidr} (apart : Apart mesh c) (linkIndex : Nat) :
    m.layout mesh (m.ensured k linkIndex c) = (m.layout mesh k).ensure c := by
  ext d
  · have keys : (m.table, some d.net) ∈ (m.tableRoutes (m.ensured k linkIndex c)).map Route.key ↔
        d = c ∨ (m.table, some d.net) ∈ (m.tableRoutes k).map Route.key := by
      have byLookup : ∀ k : Kernel, (m.table, some d.net) ∈ (m.tableRoutes k).map Route.key ↔
          lookup Route.key k.routes (m.table, some d.net) ≠ none := by
        intro k
        rw [mem_keys_tableRoutes, ne_eq, lookup_eq_none_iff, not_not, List.mem_map]
        simp [Route.key]
      rw [byLookup, byLookup, RouteManager.ensured, lookup_upsert]
      by_cases same : d = c
      · simp [same, Route.key]
      · simp [same, Route.key, Cidr.net_injective.eq_iff]
    simp only [layout, Layout.ensure, Set.mem_ofPred_eq, Set.mem_insert_iff, keys]
    constructor
    · rintro ⟨isApart, rfl | mem⟩
      · exact .inl rfl
      · exact .inr ⟨isApart, mem⟩
    · rintro (rfl | ⟨isApart, mem⟩)
      · exact ⟨apart, .inl rfl⟩
      · exact ⟨isApart, .inr mem⟩
  · simp only [layout, Layout.ensure, Set.mem_ofPred_eq, Set.mem_insert_iff, RouteManager.ensured]
    split
    · rename_i present
      exact ⟨.inr, fun either => either.elim (fun same => same ▸ present) id⟩
    · rw [List.mem_append, List.mem_singleton, remoteRule_inj, or_comm]
  · simp only [layout, Layout.ensure, Set.mem_ofPred_eq, Set.mem_insert_iff, RouteManager.ensured]
    split
    · rename_i present
      exact ⟨.inr, fun either => either.elim (fun same => same ▸ present) id⟩
    · rw [(perm_insertAt 2 _ _).mem_iff, List.mem_cons, hostSNATRule_inj]

theorem layout_removed (prints : Prints print m) (managed : m.Managed print mesh k) (c : Cidr) :
    m.layout mesh (m.removed k c) = (m.layout mesh k).remove c := by
  ext d
  · simp only [layout, Layout.remove, Set.mem_ofPred_eq, Set.mem_sdiff, Set.mem_singleton_iff,
      mem_keys_tableRoutes, RouteManager.removed, List.mem_filter]
    constructor
    · rintro ⟨isApart, route, ⟨mem, kept⟩, inTable, isDst⟩
      refine ⟨⟨isApart, route, mem, inTable, isDst⟩, ?_⟩
      rintro rfl
      simp [Route.selected, inTable, isDst] at kept
    · rintro ⟨⟨isApart, route, mem, inTable, isDst⟩, other⟩
      refine ⟨isApart, route, ⟨mem, ?_⟩, inTable, isDst⟩
      simp [Route.selected, isDst, Cidr.net_injective.eq_iff, other]
  · simp only [layout, Layout.remove, Set.mem_ofPred_eq, Set.mem_sdiff, Set.mem_singleton_iff,
      RouteManager.removed, List.mem_filter]
    apply and_congr Iff.rfl
    have texts : d.net.string = c.net.string ↔ d = c := Cidr.text_injective.eq_iff
    simp [isRemoteRule, remoteRule, texts]
  · simp only [layout, Layout.remove, Set.mem_ofPred_eq, Set.mem_sdiff, Set.mem_singleton_iff,
      RouteManager.removed]
    by_cases same : d = c
    · subst same
      simp only [not_true_eq_false, and_false, iff_false]
      intro still
      have twice : m.hostSNATRule d.net ∈ (snatRules print k).erase (m.hostSNATRule d.net) := by
        rw [snatRules, ← filter_erase_of_pos (prints.hasComment d.net)]
        exact List.mem_filter.mpr ⟨still, prints.hasComment d.net⟩
      exact managed.distinctSnat.not_mem_erase twice
    · have other : m.hostSNATRule d.net ≠ m.hostSNATRule c.net := fun equal =>
        same (hostSNATRule_inj.mp equal)
      rw [List.mem_erase_of_ne other]
      simp [same]

end RouteManager

end Flannel.Mesh
