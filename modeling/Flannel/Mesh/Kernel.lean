import Flannel.Mesh.Routes
import Flannel.Table.Keyed
import Mathlib.Data.List.Perm.Basic

/-!
# The kernel of a mesh node

The routes, the policy rules and the chain `FLANNEL-POSTRTG`, and what the calls of the route
manager do to them. How iptables prints a rule is a parameter.
-/

namespace Flannel.Mesh

open Net Program Table

structure Kernel where
  links : String → Option Nat
  routes : List Route
  rules : List Rule
  chain : List (List String)

def Route.key (route : Route) : Nat × Option IPNet :=
  (route.table, route.dst)

def insertAt {α : Type} (pos : Nat) (x : α) (xs : List α) : List α :=
  xs.take (pos - 1) ++ x :: xs.drop (pos - 1)

def Route.selected (dst : Option IPNet) (table : Nat) (route : Route) : Bool :=
  route.table == table && (dst.isNone || route.dst == dst)

def Kernel.answer (print : List String → String) (k : Kernel) : (op : Op) → Res op × Kernel
  | .linkByName name =>
    match k.links name with
    | none => (.error (.other "Link not found"), k)
    | some linkIndex => (.ok linkIndex, k)
  | .routeReplace route => (.ok (), { k with routes := upsert Route.key route k.routes })
  | .routeListFiltered dst table => (.ok (k.routes.filter (Route.selected dst table)), k)
  | .routeDel route =>
    if route ∈ k.routes then (.ok (), { k with routes := k.routes.erase route })
    else (.error .esrch, k)
  | .ruleAdd rule =>
    if rule ∈ k.rules then (.error .eexist, k)
    else (.ok (), { k with rules := k.rules ++ [rule] })
  | .ruleList => (.ok k.rules, k)
  | .ruleDel rule =>
    if rule ∈ k.rules then (.ok (), { k with rules := k.rules.erase rule })
    else (.error .enoent, k)
  | .chainExists rulespec => (.ok (decide (rulespec ∈ k.chain)), k)
  | .chainInsert pos rulespec => (.ok (), { k with chain := insertAt pos rulespec k.chain })
  | .chainDelete rulespec =>
    if rulespec ∈ k.chain then (.ok (), { k with chain := k.chain.erase rulespec })
    else (.error (.other "Bad rule (does a matching rule exist in that chain?)."), k)
  | .chainList => (.ok ("-N FLANNEL-POSTRTG" :: k.chain.map print), k)

def failure (err : KernelError) (op : Op) : Res op :=
  .error err

/-! ## Lists -/

theorem perm_insertAt {α : Type} (pos : Nat) (x : α) (xs : List α) :
    (insertAt pos x xs).Perm (x :: xs) := by
  rw [insertAt]
  have middle := @List.perm_middle _ x (xs.take (pos - 1)) (xs.drop (pos - 1))
  rwa [List.take_append_drop] at middle

theorem filter_insertAt_of_neg {α : Type} {p : α → Bool} {x : α} (rejected : p x = false) (pos : Nat)
    (xs : List α) : (insertAt pos x xs).filter p = xs.filter p := by
  rw [insertAt, List.filter_append, List.filter_cons_of_neg (by simp [rejected]),
    ← List.filter_append, List.take_append_drop]

theorem filter_erase_of_pos {α : Type} [BEq α] [LawfulBEq α] {p : α → Bool} {x : α} (selected : p x)
    (xs : List α) : (xs.erase x).filter p = (xs.filter p).erase x := by
  induction xs with
  | nil => rfl
  | cons y ys ih =>
    by_cases here : y = x
    · subst here
      rw [List.erase_cons_head, List.filter_cons_of_pos selected, List.erase_cons_head]
    · rw [List.erase_cons_tail (by simpa using here)]
      cases kept : p y with
      | true => simp [kept, ih, List.erase_cons_tail, here]
      | false => simp [kept, ih]

theorem filter_erase_of_neg {α : Type} [BEq α] [LawfulBEq α] {p : α → Bool} {x : α}
    (rejected : p x = false) (xs : List α) : (xs.erase x).filter p = xs.filter p := by
  induction xs with
  | nil => rfl
  | cons y ys ih =>
    by_cases here : y = x
    · subst here
      rw [List.erase_cons_head, List.filter_cons_of_neg (by simp [rejected])]
    · rw [List.erase_cons_tail (by simpa using here)]
      cases kept : p y <;> simp [kept, ih]

theorem foldl_erase_filter {α : Type} [BEq α] [LawfulBEq α] (p : α → Bool) (xs : List α) :
    (xs.filter p).foldl List.erase xs = xs.filter fun x => !p x := by
  have skip : ∀ {x : α} {ys zs : List α}, (∀ y ∈ ys, y ≠ x) →
      ys.foldl List.erase (x :: zs) = x :: ys.foldl List.erase zs := by
    intro x ys
    induction ys with
    | nil => exact fun _ => rfl
    | cons y ys ih =>
      intro zs others
      have other : x ≠ y := (others y (.head _)).symm
      rw [List.foldl_cons, List.foldl_cons, List.erase_cons_tail (by simpa using other)]
      exact ih fun z mem => others z (.tail y mem)
  induction xs with
  | nil => rfl
  | cons x xs ih =>
    cases selected : p x with
    | true => simpa [selected] using ih
    | false =>
      rw [List.filter_cons_of_neg (by simp [selected]), skip, ih]
      · simp [selected]
      · intro y mem same
        rw [same, List.mem_filter, selected] at mem
        exact absurd mem.2 Bool.false_ne_true

/-! ## What the functions do where no call fails -/

@[simp]
theorem parseCIDR_text (c : Cidr) : parseCIDR c.text = .ok c.net := by
  simp [parseCIDR, IP.to4, Cidr.net, IPNet.length]

namespace RouteManager

variable (print : List String → String) (m : RouteManager) (k : Kernel)

theorem perform_deleteRoute (message : String) (route : Route) :
    perform (Kernel.answer print) k (deleteRoute message route) =
      ([], { k with routes := k.routes.erase route }) := by
  by_cases present : route ∈ k.routes
  · simp [deleteRoute, Kernel.answer, present]
  · simp [deleteRoute, Kernel.answer, present, List.erase_of_not_mem present]

theorem perform_deleteRule (message : String) (rule : Rule) :
    perform (Kernel.answer print) k (deleteRule message rule) =
      ([], { k with rules := k.rules.erase rule }) := by
  by_cases present : rule ∈ k.rules
  · simp [deleteRule, Kernel.answer, present]
  · simp [deleteRule, Kernel.answer, present, List.erase_of_not_mem present]

theorem perform_deleteRoutes (dst : Option IPNet) (listing message : String) :
    perform (Kernel.answer print) k (m.deleteRoutes dst listing message) =
      ([], { k with routes := k.routes.filter fun route => !route.selected dst m.table }) := by
  have folded : ∀ (routes : List Route) (k : Kernel),
      routes.foldl (fun (k : Kernel) route => { k with routes := k.routes.erase route }) k =
        { k with routes := routes.foldl List.erase k.routes } := by
    intro routes
    induction routes with
    | nil => exact fun _ => rfl
    | cons route routes ih => exact fun k => ih _
  have deletes := @perform_collect _ _ _ _ _ (Kernel.answer print) (deleteRoute message)
    (fun k route => { k with routes := k.routes.erase route })
    (k.routes.filter (Route.selected dst m.table)) (fun _ => True)
    (fun route _ k _ => perform_deleteRoute print k message route) (fun _ _ _ _ => trivial) k trivial
  rw [folded, foldl_erase_filter] at deletes
  simp [deleteRoutes, Kernel.answer, deletes]

theorem perform_deleteRules (select : Rule → Bool) (message : String) :
    perform (Kernel.answer print) k (deleteRules select message) =
      ([], { k with rules := k.rules.filter fun rule => !select rule }) := by
  have folded : ∀ (rules : List Rule) (k : Kernel),
      rules.foldl (fun (k : Kernel) rule => { k with rules := k.rules.erase rule }) k =
        { k with rules := rules.foldl List.erase k.rules } := by
    intro rules
    induction rules with
    | nil => exact fun _ => rfl
    | cons rule rules ih => exact fun k => ih _
  have deletes := @perform_collect _ _ _ _ _ (Kernel.answer print) (deleteRule message)
    (fun k rule => { k with rules := k.rules.erase rule })
    (k.rules.filter select) (fun _ => True)
    (fun rule _ k _ => perform_deleteRule print k message rule) (fun _ _ _ _ => trivial) k trivial
  rw [folded, foldl_erase_filter] at deletes
  simp [deleteRules, Kernel.answer, deletes]

theorem perform_removeHostSNAT (dst : IPNet) :
    perform (Kernel.answer print) k (m.removeHostSNAT dst) =
      (none, { k with chain := k.chain.erase (m.hostSNATRule dst) }) := by
  by_cases present : m.hostSNATRule dst ∈ k.chain
  · simp [removeHostSNAT, Kernel.answer, present]
  · simp [removeHostSNAT, Kernel.answer, present, List.erase_of_not_mem present]

def removed (c : Cidr) : Kernel :=
  { k with
    routes := k.routes.filter fun route => !route.selected (some c.net) m.table
    rules := k.rules.filter fun rule =>
      !(m.isRemoteRule rule && rule.dst.map IPNet.string == some c.net.string)
    chain := k.chain.erase (m.hostSNATRule c.net) }

theorem perform_remove (c : Cidr) :
    perform (Kernel.answer print) k (m.remove c.text) = ([], m.removed k c) := by
  simp [remove, perform_deleteRoutes, perform_deleteRules, perform_removeHostSNAT, removed]

def ensured (linkIndex : Nat) (c : Cidr) : Kernel :=
  { k with
    routes := upsert Route.key ⟨linkIndex, some c.net, m.table⟩ k.routes
    rules := if m.remoteRule c.net ∈ k.rules then k.rules else k.rules ++ [m.remoteRule c.net]
    chain := if m.hostSNATRule c.net ∈ k.chain then k.chain
      else insertAt 2 (m.hostSNATRule c.net) k.chain }

theorem perform_ensure {linkIndex : Nat} (isLink : k.links m.linkName = some linkIndex) (c : Cidr) :
    perform (Kernel.answer print) k (m.ensure c.text) = (none, m.ensured k linkIndex c) := by
  by_cases ruled : m.remoteRule c.net ∈ k.rules
  · by_cases present : m.hostSNATRule c.net ∈ k.chain
    · simp [ensure, ensureHostSNAT, Kernel.answer, ensured, isLink, ruled, present]
    · simp [ensure, ensureHostSNAT, Kernel.answer, ensured, isLink, ruled, present]
  · by_cases present : m.hostSNATRule c.net ∈ k.chain
    · simp [ensure, ensureHostSNAT, Kernel.answer, ensured, isLink, ruled, present]
    · simp [ensure, ensureHostSNAT, Kernel.answer, ensured, isLink, ruled, present]

def found : List String :=
  (k.routes.filter (Route.selected none m.table)).filterMap (fun route => route.dst.map IPNet.string) ++
    (k.rules.filter m.isRemoteRule).filterMap (fun rule => rule.dst.map IPNet.string) ++
    snatDestinations ("-N FLANNEL-POSTRTG" :: k.chain.map print)

variable {m} in
theorem mem_stale {desired found : List String} {network : String} :
    network ∈ m.stale desired found ↔
      network ∈ found ∧ network ≠ m.meshCIDR ∧ network ∉ desired := by
  simp [stale, List.mem_mergeSort]

theorem perform_staleDestinations (desired : List String) :
    perform (Kernel.answer print) k (m.staleDestinations desired) =
      (.ok (m.stale desired (m.found print k)), k) := by
  simp [staleDestinations, managedSNATDestinations, Kernel.answer, found]

end RouteManager

end Flannel.Mesh
