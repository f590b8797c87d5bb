import Flannel.Mesh.Printing
import Flannel.Mesh.Reconcile
import Flannel.Transition.Core

/-!
# Reconciliation after outages

Calls of `Ensure`, `Remove` and `Reconcile` that may fail or be cut short anywhere leave a kernel
managed, so one `Reconcile` in which no request fails makes it exact again.
-/

namespace Flannel.Mesh

open Net Program Table Transition

namespace RouteManager

variable {print : List String → String} {m : RouteManager} {mesh : IPNet} {k : Kernel} {α : Type}

/-! ## What outages keep -/

structure Keeps (print : List String → String) (m : RouteManager) (mesh : IPNet) (k : Kernel)
    (program : Action α) (Post : α → Prop) : Prop where
  endures : Endures (Kernel.answer print) failure (m.Managed print mesh)
    (fun result k => m.Managed print mesh k ∧ Post result) program k

variable {Post : α → Prop}

theorem keeps_pure {result : α} (managed : m.Managed print mesh k) (post : Post result) :
    m.Keeps print mesh k (pure result) Post :=
  ⟨.ret ⟨managed, post⟩⟩

theorem keeps_call {op : Op} {next : Res op → Action α}
    (managed : m.Managed print mesh k) (kept : m.Managed print mesh (k.answer print op).2)
    (performed : m.Keeps print mesh (k.answer print op).2 (next (k.answer print op).1) Post)
    (failed : ∀ err k', m.Managed print mesh k' → m.Keeps print mesh k' (next (.error err)) Post) :
    m.Keeps print mesh k (call op >>= next) Post where
  endures := endures_request managed performed.endures fun err =>
    ⟨(failed err k managed).endures, (failed err _ kept).endures⟩

theorem keeps_call_any {op : Op} {next : Res op → Action α}
    (managed : m.Managed print mesh k) (kept : m.Managed print mesh (k.answer print op).2)
    (rest : ∀ answer k', m.Managed print mesh k' → m.Keeps print mesh k' (next answer) Post) :
    m.Keeps print mesh k (call op >>= next) Post :=
  keeps_call managed kept (rest _ _ kept) fun err k' => rest (.error err) k'

theorem keeps_bind {β : Type} {program : Action α} {next : α → Action β}
    {Post' : β → Prop} (first : m.Keeps print mesh k program Post)
    (second : ∀ result k', m.Managed print mesh k' → Post result →
      m.Keeps print mesh k' (next result) Post') :
    m.Keeps print mesh k (program >>= next) Post' := by
  constructor
  apply endures_bind
  exact first.endures.imp fun result k' holds => (second result k' holds.1 holds.2).endures

theorem keeps_collect {ι φ : Type} {body : ι → Action (List φ)} {xs : List ι}
    (round : ∀ x ∈ xs, ∀ k, m.Managed print mesh k → m.Keeps print mesh k (body x) fun _ => True)
    (managed : m.Managed print mesh k) : m.Keeps print mesh k (collect body xs) fun _ => True := by
  have endures : Endures (Kernel.answer print) failure (m.Managed print mesh)
      (fun _ => m.Managed print mesh) (collect body xs) k := by
    refine endures_collect ?_ managed
    exact fun x mem k managed => (round x mem k managed).endures.imp fun _ _ holds => holds.1
  exact ⟨endures.imp fun _ _ kept => ⟨kept, trivial⟩⟩

theorem keeps_ensureHostSNAT (prints : Prints print m) {c : Cidr} (apart : Apart mesh c)
    (managed : m.Managed print mesh k) :
    m.Keeps print mesh k (m.ensureHostSNAT c.net) fun _ => True := by
  refine keeps_call managed managed ?_ fun _ _ kept => keeps_pure kept trivial
  by_cases present : m.hostSNATRule c.net ∈ k.chain
  · simp only [Kernel.answer, present, decide_true]
    exact keeps_pure managed trivial
  · simp only [Kernel.answer, present, decide_false]
    have inserted := managed.insertRule prints apart present 2
    exact keeps_call managed inserted (keeps_pure inserted trivial) fun _ _ kept => keeps_pure kept trivial

theorem managed_ruleAdd {rule : Rule}
    (known : rule.priority ≠ remoteRulePriority ∨ ∃ c, Apart mesh c ∧ rule = m.remoteRule c.net)
    (managed : m.Managed print mesh k) : m.Managed print mesh (k.answer print (.ruleAdd rule)).2 := by
  rw [Kernel.answer]
  split_ifs with present
  · exact managed
  · exact managed.addRule present known

theorem keeps_ensureMeshRoute (linkIndex : Nat) (managed : m.Managed print mesh k) :
    m.Keeps print mesh k (m.ensureMeshRoute linkIndex mesh) fun _ => True := by
  have routed := @Managed.replaceRoute _ _ _ _ managed linkIndex _ (.inl rfl)
  refine keeps_call managed routed ?_ fun _ _ kept => keeps_pure kept trivial
  have foreign : meshRulePriority ≠ remoteRulePriority := by decide
  refine keeps_call_any routed (managed_ruleAdd (.inl foreign) routed) ?_
  intro answer k' kept
  split
  all_goals exact keeps_pure kept trivial

theorem keeps_ensure (prints : Prints print m) {c : Cidr} (apart : Apart mesh c)
    (managed : m.Managed print mesh k) : m.Keeps print mesh k (m.ensure c.text) fun _ => True := by
  refine keeps_call managed ?_ ?_ fun _ _ kept => keeps_pure kept trivial
  · rw [Kernel.answer]
    split <;> exact managed
  · cases isLink : k.links m.linkName with
    | none =>
      simp only [Kernel.answer, isLink]
      exact keeps_pure managed trivial
    | some linkIndex =>
      simp only [Kernel.answer, isLink, parseCIDR_text]
      have routed := @Managed.replaceRoute _ _ _ _ managed linkIndex _ (.inr ⟨c, apart, rfl⟩)
      refine keeps_call managed routed ?_ fun _ _ kept => keeps_pure kept trivial
      have ruled := managed_ruleAdd (.inr ⟨c, apart, rfl⟩) routed
      refine keeps_call_any routed ruled ?_
      intro answer k' kept
      split
      · exact keeps_ensureHostSNAT prints apart kept
      · exact keeps_ensureHostSNAT prints apart kept
      · exact keeps_pure kept trivial

theorem managed_routeDel {route : Route} (notMesh : route.dst ≠ some mesh)
    (managed : m.Managed print mesh k) : m.Managed print mesh (k.answer print (.routeDel route)).2 := by
  rw [Kernel.answer]
  split_ifs
  · exact managed.eraseRoute notMesh
  · exact managed

theorem managed_ruleDel (rule : Rule) (managed : m.Managed print mesh k) :
    m.Managed print mesh (k.answer print (.ruleDel rule)).2 := by
  rw [Kernel.answer]
  split_ifs
  · exact managed.ofRules List.erase_sublist
  · exact managed

theorem managed_chainDelete (rulespec : List String) (managed : m.Managed print mesh k) :
    m.Managed print mesh (k.answer print (.chainDelete rulespec)).2 := by
  rw [Kernel.answer]
  split_ifs
  · exact managed.ofChain List.erase_sublist
  · exact managed

theorem keeps_deleteRoutes {dst : IPNet} (notMesh : dst ≠ mesh) (listing message : String)
    (managed : m.Managed print mesh k) :
    m.Keeps print mesh k (m.deleteRoutes (some dst) listing message) fun _ => True := by
  refine keeps_call managed managed ?_ fun _ _ kept => keeps_pure kept trivial
  refine keeps_collect ?_ managed
  intro route mem k managed
  have isDst : route.dst = some dst := by
    have selected := (List.mem_filter.mp mem).2
    simp only [Route.selected, Option.isNone_some, Bool.false_or, Bool.and_eq_true, beq_iff_eq] at selected
    exact selected.2
  have other : route.dst ≠ some mesh := fun isMesh => notMesh (Option.some.inj (isDst.symm.trans isMesh))
  refine keeps_call_any managed (managed_routeDel other managed) ?_
  intro answer k' kept
  split
  all_goals exact keeps_pure kept trivial

theorem keeps_deleteRules (select : Rule → Bool) (message : String) (managed : m.Managed print mesh k) :
    m.Keeps print mesh k (deleteRules select message) fun _ => True := by
  refine keeps_call managed managed ?_ fun _ _ kept => keeps_pure kept trivial
  refine keeps_collect ?_ managed
  intro rule _ k managed
  refine keeps_call_any managed (managed_ruleDel rule managed) ?_
  intro answer k' kept
  split
  all_goals exact keeps_pure kept trivial

theorem keeps_removeHostSNAT (dst : IPNet) (managed : m.Managed print mesh k) :
    m.Keeps print mesh k (m.removeHostSNAT dst) fun _ => True := by
  refine keeps_call_any managed managed ?_
  intro answer k' kept
  split
  · exact keeps_pure kept trivial
  · exact keeps_pure kept trivial
  · refine keeps_call_any kept (managed_chainDelete _ kept) ?_
    intro answer k' kept
    split
    all_goals exact keeps_pure kept trivial

theorem keeps_remove (isIPv4 : IsIPv4 mesh) {c : Cidr} (apart : Apart mesh c)
    (managed : m.Managed print mesh k) : m.Keeps print mesh k (m.remove c.text) fun _ => True := by
  rw [remove, parseCIDR_text]
  refine keeps_bind (keeps_deleteRoutes (apart.net_ne isIPv4) _ _ managed) fun _ k' kept _ => ?_
  refine keeps_bind (keeps_deleteRules _ _ kept) fun _ k' kept _ => ?_
  refine keeps_bind (keeps_removeHostSNAT _ kept) fun _ k' kept _ => ?_
  exact keeps_pure kept trivial

def AllApart (mesh : IPNet) (result : Except String (List String)) : Prop :=
  ∀ networks, result = .ok networks → ∀ network ∈ networks, ∃ c, Apart mesh c ∧ c.text = network

theorem allApart_error (err : String) : AllApart mesh (.error err) := by
  intro networks isOk
  contradiction

theorem keeps_managedSNATDestinations (prints : Prints print m) (isIPv4 : IsIPv4 mesh)
    (managed : m.Managed print mesh k) :
    m.Keeps print mesh k managedSNATDestinations (AllApart mesh) := by
  refine keeps_call managed managed (keeps_pure managed ?_) ?_
  · intro networks isOk network mem
    obtain rfl := Except.ok.inj isOk
    obtain ⟨c, _, apart, isText⟩ := (mem_snatDestinations prints isIPv4 managed).mp mem
    exact ⟨c, apart, isText⟩
  · intro err k' kept
    split
    · contradiction
    · refine keeps_pure kept fun networks isOk network mem => ?_
      obtain rfl := Except.ok.inj isOk
      exact absurd mem List.not_mem_nil
    · exact keeps_pure kept (allApart_error _)

theorem keeps_staleDestinations (prints : Prints print m) (isIPv4 : IsIPv4 mesh)
    (isMesh : m.meshCIDR = mesh.string) (desired : List String) (managed : m.Managed print mesh k) :
    m.Keeps print mesh k (m.staleDestinations desired) (AllApart mesh) := by
  refine keeps_call managed managed ?_ fun _ _ kept => keeps_pure kept (allApart_error _)
  refine keeps_call managed managed ?_ fun _ _ kept => keeps_pure kept (allApart_error _)
  refine keeps_bind (keeps_managedSNATDestinations prints isIPv4 managed) fun result k' kept known => ?_
  cases result with
  | error err => exact keeps_pure kept (allApart_error err)
  | ok snat =>
    refine keeps_pure kept fun networks isOk network mem => ?_
    obtain rfl := Except.ok.inj isOk
    obtain ⟨isFound, notMesh, _⟩ := mem_stale.mp mem
    rw [List.mem_append, List.mem_append] at isFound
    rcases isFound with (routed | ruled) | translated
    · rcases (mem_routed managed).mp routed with same | ⟨c, inLayout, isText⟩
      · exact absurd (same.trans isMesh.symm) notMesh
      · exact ⟨c, inLayout.1, isText⟩
    · obtain ⟨c, inLayout, isText⟩ := (mem_ruled managed).mp ruled
      exact ⟨c, managed.apart_of_rule inLayout, isText⟩
    · exact known snat rfl network translated

theorem keeps_reconcile (prints : Prints print m) (isIPv4 : IsIPv4 mesh)
    (isMesh : m.meshCIDR = mesh.string) {desired : List Cidr} (apart : ∀ c ∈ desired, Apart mesh c)
    (managed : m.Managed print mesh k) :
    m.Keeps print mesh k (m.reconcile (desired.map Cidr.text)) fun _ => True := by
  have ensures : m.Keeps print mesh k
      (collect (fun network => do pure (← m.ensure network).toList) (desired.map Cidr.text))
      fun _ => True := by
    rw [collect_map]
    refine keeps_collect (fun c mem k managed => ?_) managed
    exact keeps_bind (keeps_ensure prints (apart c mem) managed) fun _ _ kept _ => keeps_pure kept trivial
  rw [reconcile]
  refine keeps_bind ensures fun errs k' kept _ => ?_
  refine keeps_bind (keeps_staleDestinations prints isIPv4 isMesh _ kept) fun result k' kept known => ?_
  cases result with
  | error err => exact keeps_pure kept trivial
  | ok networks =>
    have removes : m.Keeps print mesh k' (collect m.remove networks) fun _ => True := by
      refine keeps_collect (fun network mem k managed => ?_) kept
      obtain ⟨c, isApart, rfl⟩ := known networks rfl network mem
      exact keeps_remove isIPv4 isApart managed
    exact keeps_bind removes fun _ _ kept _ => keeps_pure kept trivial

/-! ## Runs -/

/-- The calls of managers with the same parameters, each with a script of what becomes of its
requests, and changes of the links. -/
inductive Event
  | ensureMeshRoute (linkIndex : Nat) (script : List (Outcome KernelError))
  | ensure (c : Cidr) (script : List (Outcome KernelError))
  | remove (c : Cidr) (script : List (Outcome KernelError))
  | reconcile (desired : List Cidr) (script : List (Outcome KernelError))
  | relink (links : String → Option Nat)

def Event.Disjoint (mesh : IPNet) : Event → Prop
  | .ensure c _ | .remove c _ => Apart mesh c
  | .reconcile desired _ => ∀ c ∈ desired, Apart mesh c
  | .ensureMeshRoute _ _ | .relink _ => True

def next (print : List String → String) (m : RouteManager) (mesh : IPNet) : Step Kernel Event
  | k, .ensureMeshRoute linkIndex script =>
    some (play (Kernel.answer print) failure script k (m.ensureMeshRoute linkIndex mesh)).2
  | k, .ensure c script => some (play (Kernel.answer print) failure script k (m.ensure c.text)).2
  | k, .remove c script => some (play (Kernel.answer print) failure script k (m.remove c.text)).2
  | k, .reconcile desired script =>
    some (play (Kernel.answer print) failure script k (m.reconcile (desired.map Cidr.text))).2
  | k, .relink links => some { k with links := links }

theorem Keeps.managed_play {program : Action α} (keeps : m.Keeps print mesh k program Post)
    (script : List (Outcome KernelError)) :
    m.Managed print mesh (play (Kernel.answer print) failure script k program).2 := by
  obtain ⟨cut, finished⟩ := keeps.endures.sound script
  cases ended : (play (Kernel.answer print) failure script k program).1 with
  | none => exact cut ended
  | some result => exact (finished result ended).1

theorem managed_next (prints : Prints print m) (isIPv4 : IsIPv4 mesh) (isMesh : m.meshCIDR = mesh.string)
    {k' : Kernel} {event : Event} (managed : m.Managed print mesh k) (disjoint : event.Disjoint mesh)
    (step : m.next print mesh k event = some k') : m.Managed print mesh k' := by
  cases event with
  | ensureMeshRoute linkIndex script =>
    exact Option.some.inj step ▸ (keeps_ensureMeshRoute linkIndex managed).managed_play script
  | ensure c script => exact Option.some.inj step ▸ (keeps_ensure prints disjoint managed).managed_play script
  | remove c script => exact Option.some.inj step ▸ (keeps_remove isIPv4 disjoint managed).managed_play script
  | reconcile desired script =>
    exact Option.some.inj step ▸ (keeps_reconcile prints isIPv4 isMesh disjoint managed).managed_play script
  | relink links => exact Option.some.inj step ▸ { managed with }

structure Clean (print : List String → String) (m : RouteManager) (k : Kernel) : Prop where
  routes : m.tableRoutes k = []
  rules : m.remoteRules k = []
  snat : snatRules print k = []

theorem managed_ensureMeshRoute (clean : m.Clean print k) (linkIndex : Nat) :
    m.Managed print mesh (perform (Kernel.answer print) k (m.ensureMeshRoute linkIndex mesh)).2 := by
  have table : m.tableRoutes
      { k with routes := upsert Route.key ⟨linkIndex, some mesh, m.table⟩ k.routes } =
      [⟨linkIndex, some mesh, m.table⟩] := by
    rw [tableRoutes_replaceRoute, clean.routes]
    rfl
  have noRules : ∀ routes, m.remoteRules { k with routes := routes } = [] := fun _ => clean.rules
  have noSnat : ∀ routes, snatRules print { k with routes := routes } = [] := fun _ => clean.snat
  have routed : m.Managed print mesh
      { k with routes := upsert Route.key ⟨linkIndex, some mesh, m.table⟩ k.routes } :=
    { distinctRoutes := by simp [table]
      meshRoute := by simp [table, Route.key]
      routes := by simp [table]
      distinctRules := by simp [noRules]
      rules := by simp [noRules]
      distinctSnat := by simp [noSnat]
      snat := by simp [noSnat] }
  have foreign : meshRulePriority ≠ remoteRulePriority := by decide
  have ruled := @managed_ruleAdd _ _ _ _ (m.meshRule mesh) (.inl foreign) routed
  rw [ensureMeshRoute, perform_bind, perform_request, Kernel.answer]
  simp only [perform_bind, perform_request]
  split
  all_goals exact ruled

end RouteManager

/-- From every kernel that a run with outages leads to, one `Reconcile` without failures
makes the resources of the backend exactly those of the desired networks and leaves
everything else as it is, and a further one changes nothing. -/
theorem reconcile_exact {print : List String → String} {m : RouteManager} (prints : Prints print m)
    {meshText : String} {mesh : IPNet} (parsed : parseCIDR meshText = .ok mesh)
    (isMesh : m.meshCIDR = mesh.string) {blank started k : Kernel} (clean : m.Clean print blank)
    {linkIndex : Nat}
    (start : perform (Kernel.answer print) blank (m.ensureMeshRoute linkIndex mesh) = (none, started))
    {events : List RouteManager.Event} (disjoint : ∀ event ∈ events, event.Disjoint mesh)
    (reached : run (m.next print mesh) started events = some k)
    {desired : List Cidr} (distinct : desired.Nodup) (apart : ∀ c ∈ desired, Apart mesh c)
    (linked : desired = [] ∨ ∃ linkIndex, k.links m.linkName = some linkIndex) :
    ∃ k', perform (Kernel.answer print) k (m.reconcile (desired.map Cidr.text)) = ([], k') ∧
      m.Exact print mesh desired k' ∧ m.SameElsewhere print k k' ∧
      ∀ again : List Cidr, again.Perm desired →
        perform (Kernel.answer print) k' (m.reconcile (again.map Cidr.text)) = ([], k') := by
  have isIPv4 := isIPv4_of_parseCIDR parsed
  have initial : m.Managed print mesh started := by
    have managed := @RouteManager.managed_ensureMeshRoute print m mesh blank clean linkIndex
    rwa [start] at managed
  have preserved : ∀ k (event : RouteManager.Event) k', m.Managed print mesh k → event.Disjoint mesh →
      m.next print mesh k event = some k' → m.Managed print mesh k' :=
    fun _ _ _ => RouteManager.managed_next prints isIPv4 isMesh
  have managed := invariant_of_along preserved initial (along_of_forall_mem disjoint) reached
  exact RouteManager.reconcile_of_managed prints isIPv4 isMesh managed distinct apart linked

def blankNode : Kernel where
  links name := if name = "CloudflareWARP" then some 7 else none
  routes := [⟨2, none, 254⟩]
  rules := [⟨32766, 254, none, []⟩]
  chain := [["-m", "comment", "--comment", "flanneld masq", "-j", "RETURN"]]

def outages : List RouteManager.Event :=
  [.ensure otherCidr [.performed, .performed, .performed, .performed, .refused (.other "timeout")],
    .reconcile [thirdCidr] [.performed, .performed]]

theorem reconcile_exact_after_outages :
    ∃ k k', run (nodeManager.next save ⟨.v4 0x64600000, 12⟩)
        (perform (Kernel.answer save) blankNode (nodeManager.ensureMeshRoute 7 ⟨.v4 0x64600000, 12⟩)).2
        outages = some k ∧
      perform (Kernel.answer save) k (nodeManager.reconcile ([thirdCidr].map Cidr.text)) = ([], k') ∧
      nodeManager.Exact save ⟨.v4 0x64600000, 12⟩ [thirdCidr] k' ∧ nodeManager.SameElsewhere save k k' := by
  have disjoint : ∀ event ∈ outages, event.Disjoint ⟨.v4 0x64600000, 12⟩ := by
    intro event mem
    rcases List.mem_pair.mp mem with rfl | rfl
    · change Apart _ otherCidr
      decide
    · change ∀ c ∈ [thirdCidr], Apart _ c
      decide
  obtain ⟨k', performed, exact, same, _⟩ :=
    @reconcile_exact save nodeManager (prints_save plain_nodeManager) "100.96.0.0/12"
      ⟨.v4 0x64600000, 12⟩ (by decide) (by decide) blankNode _ _
      ⟨by decide +kernel, by decide, by decide +kernel⟩ 7 (Prod.ext (by decide) rfl)
      outages disjoint rfl [thirdCidr] (by simp) (by decide)
      (.inr ⟨7, by decide⟩)
  exact ⟨_, k', rfl, performed, exact, same⟩

end Flannel.Mesh
