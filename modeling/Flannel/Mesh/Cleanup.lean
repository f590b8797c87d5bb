import Flannel.Mesh.Printing

/-!
# Cleanup of the mesh routes

`Cleanup` finds the SNAT rules by their comment and deletes them by the text that the manager
would give them. So it leaves behind the rules of a manager with other parameters.
-/

namespace Flannel.Mesh

open Net Program

theorem mem_of_not_mem_foldl_erase {α : Type} [BEq α] [LawfulBEq α] {x : α} {xs gone : List α}
    (mem : x ∈ xs) (erased : x ∉ gone.foldl List.erase xs) : x ∈ gone := by
  induction gone generalizing xs with
  | nil => exact absurd mem erased
  | cons y gone ih =>
    by_cases same : x = y
    · exact same ▸ (.head _)
    · exact List.mem_cons_of_mem y (ih ((List.mem_erase_of_ne same).mpr mem) erased)

namespace RouteManager

variable {print : List String → String} {m : RouteManager} {k : Kernel}

/-! ## The SNAT rules that are deleted -/

def ruleFor (m : RouteManager) (network : String) : Option (List String) :=
  match parseCIDR network with
  | .error _ => none
  | .ok dst => some (m.hostSNATRule dst)

def cleanedRules (print : List String → String) (m : RouteManager) (k : Kernel) : List (List String) :=
  (snatRules print k).filterMap fun rulespec =>
    (destinationOf (Text.fields (print rulespec).toList)).bind m.ruleFor

theorem perform_cleanupSNAT (network : String) :
    (perform (Kernel.answer print) k (m.cleanupSNAT network)).2 =
      { k with chain := (m.ruleFor network).toList.foldl List.erase k.chain } := by
  cases parsed : parseCIDR network with
  | error err => simp [cleanupSNAT, ruleFor, parsed]
  | ok dst => simp [cleanupSNAT, ruleFor, parsed, perform_removeHostSNAT]

theorem perform_cleanupChain :
    (perform (Kernel.answer print) k m.cleanupChain).2 =
      { k with chain := (m.cleanedRules print k).foldl List.erase k.chain } := by
  have folded : ∀ (networks : List String) (k : Kernel),
      networks.foldl (fun k network => (perform (Kernel.answer print) k (m.cleanupSNAT network)).2) k =
        { k with chain := (networks.filterMap m.ruleFor).foldl List.erase k.chain } := by
    intro networks
    induction networks with
    | nil => exact fun _ => rfl
    | cons network networks ih =>
      intro k
      rw [List.foldl_cons, ih, perform_cleanupSNAT]
      cases found : m.ruleFor network <;> simp [found]
  have isList : (snatDestinations ("-N FLANNEL-POSTRTG" :: k.chain.map print)).filterMap m.ruleFor =
      m.cleanedRules print k := by
    rw [snatDestinations_print, List.filterMap_filterMap]
    rfl
  simp [cleanupChain, managedSNATDestinations, Kernel.answer, perform_collect_snd, folded, isList]

theorem exists_parseCIDR_of_destinationOf {words : List (List Char)} {network : String}
    (read : destinationOf words = some network) :
    ∃ text n, Net.parseCIDR text = some n ∧ n.string = network := by
  fun_induction destinationOf words with
  | case1 value rest =>
    obtain ⟨n, parsed, isText⟩ := Option.map_eq_some_iff.mp read
    exact ⟨_, n, parsed, isText⟩
  | case2 flag value rest other ih => exact ih read
  | case3 words other => contradiction

variable {rulespec : List String}

theorem exists_cidr_of_ruleFor {words : List (List Char)} {network : String}
    (read : destinationOf words = some network) (isRule : m.ruleFor network = some rulespec) :
    ∃ c : Cidr, c.text = network ∧ rulespec = m.hostSNATRule c.net := by
  obtain ⟨text, n, parsed, rfl⟩ := exists_parseCIDR_of_destinationOf read
  cases isIPv4 : n.ip.to4 with
  | some bits =>
    obtain ⟨c, isText⟩ := exists_cidr_of_parseCIDR parsed isIPv4
    rw [ruleFor, isText, parseCIDR_text] at isRule
    exact ⟨c, isText.symm, (Option.some.inj isRule).symm⟩
  | none =>
    obtain ⟨bits, isAddress, notIPv4⟩ := cidrAddress_string_of_to4_eq_none isIPv4
    rw [ruleFor, parseCIDR, isAddress, Option.bind_some, notIPv4] at isRule
    split at isRule
    · contradiction
    · rename_i read
      split at read <;> contradiction

/-! ## The outcome -/

/-- The routes of the table, the policy rules that lead to it and the rules with the
comment are gone; everything else is as it was, in its order. -/
structure CleanedUp (print : List String → String) (m : RouteManager) (k k' : Kernel) : Prop where
  links : k'.links = k.links
  routes : k'.routes = k.routes.filter fun route => !route.selected none m.table
  rules : k'.rules = k.rules.filter fun rule => !m.isOwnRule rule
  chain : k'.chain = k.chain.filter fun rulespec => !hasComment print rulespec

theorem perform_cleanup :
    (perform (Kernel.answer print) k m.cleanup).2 =
      { k with
        routes := k.routes.filter fun route => !route.selected none m.table
        rules := k.rules.filter fun rule => !m.isOwnRule rule
        chain := (m.cleanedRules print k).foldl List.erase k.chain } := by
  simp [cleanup, perform_cleanupChain, perform_deleteRoutes, perform_deleteRules]

/-- The rules with the comment are rules of the manager, each for a network that is printed. -/
def OwnComments (print : List String → String) (m : RouteManager) (k : Kernel) : Prop :=
  ∀ rulespec ∈ k.chain, hasComment print rulespec = true →
    ∃ c : Cidr, c.ones ≠ 0 ∧ rulespec = m.hostSNATRule c.net

theorem destination_of_ne_zero (prints : Prints print m) {c : Cidr} (printed : c.ones ≠ 0) :
    destinationOf (Text.fields (print (m.hostSNATRule c.net)).toList) = some c.text := by
  rw [prints.destination c, if_neg printed]

theorem cleanedRules_eq (prints : Prints print m) (own : m.OwnComments print k) :
    m.cleanedRules print k = snatRules print k := by
  have same : ∀ rulespec ∈ snatRules print k,
      (destinationOf (Text.fields (print rulespec).toList)).bind m.ruleFor = some rulespec := by
    intro rulespec mem
    obtain ⟨c, printed, rfl⟩ := own rulespec (mem_snatRules.mp mem).1 (mem_snatRules.mp mem).2
    rw [destination_of_ne_zero prints printed, Option.bind_some, ruleFor, parseCIDR_text]
  rw [cleanedRules, List.filterMap_congr same, List.filterMap_some]

theorem exists_of_mem_cleanedRules (mem : rulespec ∈ m.cleanedRules print k) :
    ∃ c : Cidr, rulespec = m.hostSNATRule c.net ∧ ∃ found ∈ snatRules print k,
      destinationOf (Text.fields (print found).toList) = some c.text := by
  obtain ⟨found, isFound, isRule⟩ := List.mem_filterMap.mp mem
  obtain ⟨network, read, isRule⟩ := Option.bind_eq_some_iff.mp isRule
  obtain ⟨c, rfl, isOwn⟩ := exists_cidr_of_ruleFor read isRule
  exact ⟨c, isOwn, found, isFound, read⟩

theorem CleanedUp.mem_cleanedRules
    (cleaned : m.CleanedUp print k (perform (Kernel.answer print) k m.cleanup).2)
    (mem : rulespec ∈ k.chain) (has : hasComment print rulespec) :
    rulespec ∈ m.cleanedRules print k := by
  have remaining := cleaned.chain
  rw [perform_cleanup] at remaining
  dsimp only at remaining
  apply mem_of_not_mem_foldl_erase mem
  rw [remaining, List.mem_filter, has]
  simp

end RouteManager

/-- `Cleanup` leaves nothing of the backend behind, and everything else as it was,
exactly where every rule with the comment is one that the manager itself would make. -/
theorem cleanup_iff {print : List String → String} {m : RouteManager} (prints : Prints print m)
    (k : Kernel) :
    m.CleanedUp print k (perform (Kernel.answer print) k m.cleanup).2 ↔ m.OwnComments print k := by
  constructor
  · intro cleaned rulespec mem has
    obtain ⟨c, rfl, found, isFound, read⟩ :=
      RouteManager.exists_of_mem_cleanedRules (cleaned.mem_cleanedRules mem has)
    -- the rule that led to the deletion is itself deleted, so its destination is printed
    obtain ⟨foundMem, foundHas⟩ := RouteManager.mem_snatRules.mp isFound
    obtain ⟨d, rfl, _⟩ :=
      RouteManager.exists_of_mem_cleanedRules (cleaned.mem_cleanedRules foundMem foundHas)
    rw [prints.destination d] at read
    split_ifs at read with everything
    obtain rfl := Cidr.text_injective (Option.some.inj read)
    exact ⟨d, everything, rfl⟩
  · intro own
    rw [RouteManager.perform_cleanup]
    refine ⟨rfl, rfl, rfl, ?_⟩
    rw [RouteManager.cleanedRules_eq prints own]
    exact foldl_erase_filter (hasComment print) k.chain

def servingNode (m : RouteManager) : Kernel where
  links _ := none
  routes := [⟨2, none, 254⟩, ⟨7, some otherCidr.net, m.table⟩]
  rules := [m.remoteRule otherCidr.net, ⟨32766, 254, none, []⟩]
  chain := [["-m", "comment", "--comment", "flanneld masq", "-j", "RETURN"],
    m.hostSNATRule otherCidr.net]

theorem cleanup_of_own : nodeManager.CleanedUp save (servingNode nodeManager)
    (perform (Kernel.answer save) (servingNode nodeManager) nodeManager.cleanup).2 := by
  refine (cleanup_iff (prints_save plain_nodeManager) _).mpr ?_
  intro rulespec mem has
  rcases List.mem_pair.mp mem with rfl | rfl
  · have noComment : hasComment save ["-m", "comment", "--comment", "flanneld masq", "-j", "RETURN"] =
        false := by decide +kernel
    rw [noComment] at has
    contradiction
  · exact ⟨otherCidr, by decide, rfl⟩

def oldManager : RouteManager :=
  { nodeManager with localSNATIP := "10.244.9.1" }

/-- A node that gets another pod network keeps the SNAT rules of its time with the old one. -/
theorem cleanup_leaves_old_snat : ¬ nodeManager.CleanedUp save (servingNode oldManager)
    (perform (Kernel.answer save) (servingNode oldManager) nodeManager.cleanup).2 := by
  intro cleaned
  have plain : oldManager.Plain := ⟨by decide, by decide, by decide⟩
  have mem : oldManager.hostSNATRule otherCidr.net ∈ (servingNode oldManager).chain := by
    simp [servingNode]
  obtain ⟨c, same, _⟩ := RouteManager.exists_of_mem_cleanedRules
    (cleaned.mem_cleanedRules mem ((prints_save plain).hasComment otherCidr.net))
  simp [RouteManager.hostSNATRule, oldManager, nodeManager] at same

end Flannel.Mesh
