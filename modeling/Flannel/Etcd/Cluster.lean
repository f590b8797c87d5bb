import Flannel.Etcd.LocalManager
import Flannel.Transition.Core

/-!
# Nodes sharing one registry

A store and any number of nodes, each with at most one program of the manager; a step answers one
request of one node. Keys expire and nodes stop at any moment.

From the contract of the programs follow the *claims* of a node: the subnets of the lease it
holds, those a listing showed as its own, and those it has just written.
-/

namespace Flannel.Etcd

open Ip Leases Subnet Program Transition
open KeyValue

/-! ## The system -/

inductive Task
  | idle
  | running (program : Action (Except Error Lease)) (trail : Trail)

structure Node where
  attrs : LeaseAttrs
  manager : LocalManager
  held : Option Lease
  task : Task

structure Cluster (ι : Type) where
  etcd : EtcdStore
  nodes : ι → Node

structure Surroundings where
  config : Except Error Config
  get : Except Error Unit
  timeToLive : TimeToLive
  fate : Fate
  grant : Grant
  random : Nat

inductive Label (ι : Type)
  | acquire (i : ι)
  | renew (i : ι)
  | answer (i : ι) (surroundings : Surroundings)
  | stop (i : ι)
  | expire (key : String)

def serve (root : String) (etcd : EtcdStore) (surroundings : Surroundings) :
    (op : Op) → Option (Res op × EtcdStore)
  | .getNetworkConfig => some (surroundings.config, etcd)
  | .getSubnets => some (getSubnets root etcd surroundings.get surroundings.timeToLive, etcd)
  | .createSubnet sn sn6 attrs _ =>
    (subnetPath root sn sn6).map fun key =>
      createSubnet etcd key attrs surroundings.fate surroundings.grant
  | .updateSubnet sn sn6 attrs _ _ =>
    (subnetPath root sn sn6).map fun key =>
      updateSubnet etcd key attrs surroundings.fate surroundings.grant
  | .deleteSubnet sn sn6 =>
    (subnetPath root sn sn6).map fun key => deleteSubnet etcd key surroundings.fate
  | .randInt lo hi =>
    if lo ≤ surroundings.random ∧ surroundings.random < hi then some (surroundings.random, etcd)
    else none
  | .crash => none

def Node.resume (node : Node) (program : Action (Except Error Lease)) (trail : Trail) : Node :=
  match program with
  | .ret (.ok lease) => { node with held := some lease, task := .idle }
  | .ret (.error _) => { node with task := .idle }
  | .call op rest => { node with task := .running (.call op rest) trail }

def Trail.start : Trail :=
  ⟨[], [], none⟩

def Trail.renewing (lease : Lease) : Trail :=
  ⟨[], [(lease.subnet, lease.ipv6Subnet)], none⟩

variable {ι : Type} [DecidableEq ι]

def Cluster.step (root : String)
    (acquisition : LocalManager → LeaseAttrs → Action (Except Error Lease)) :
    Step (Cluster ι) (Label ι) := fun cluster label =>
  match label with
  | .acquire i =>
    match (cluster.nodes i).task with
    | .idle => some { cluster with
        nodes := Function.update cluster.nodes i ((cluster.nodes i).resume
          (acquisition (cluster.nodes i).manager (cluster.nodes i).attrs) Trail.start) }
    | .running .. => none
  | .renew i =>
    match (cluster.nodes i).task, (cluster.nodes i).held with
    | .idle, some lease => some { cluster with
        nodes := Function.update cluster.nodes i
          ((cluster.nodes i).resume (renewLease lease) (Trail.renewing lease)) }
    | _, _ => none
  | .answer i surroundings =>
    match (cluster.nodes i).task with
    | .running (.call op rest) trail =>
      (serve root cluster.etcd surroundings op).map fun served =>
        ⟨served.2, Function.update cluster.nodes i ((cluster.nodes i).resume (rest served.1)
          (trail.note (cluster.nodes i).attrs.publicIP op served.1))⟩
    | _ => none
  | .stop i => some { cluster with
      nodes := Function.update cluster.nodes i
        { cluster.nodes i with held := none, task := .idle } }
  | .expire key => some { cluster with etcd := cluster.etcd.delete key }

/-! ## What a step can do -/

def Quiet : (op : Op) → Res op → Prop
  | .getSubnets, answer => ∃ error, answer = .error error
  | .createSubnet .., answer => ∃ error, answer = .error error
  | .updateSubnet .., answer => ∃ error, answer = .error error
  | _, _ => True

inductive Served (root : String) (etcd : EtcdStore) (surroundings : Surroundings) :
    (op : Op) → Res op → EtcdStore → Prop
  | quiet {op : Op} {answer : Res op} :
      Quiet op answer → Served root etcd surroundings op answer etcd
  | listed {leases : List Lease} {index : Nat} :
      leases = [] ∨ leases = listLeases root etcd surroundings.timeToLive →
      Served root etcd surroundings .getSubnets (.ok (leases, index)) etcd
  | created {sn : IP4Net} {sn6 : IP6Net} {attrs : LeaseAttrs} {ttl : Time} {key : String}
      (answer : Except Error Time) :
      subnetPath root sn sn6 = some key → etcd.get? key = none → surroundings.fate ≠ .refused →
      Served root etcd surroundings (.createSubnet sn sn6 attrs ttl) answer
        (etcd.put key ⟨some attrs, surroundings.grant.id⟩)
  | updated {sn : IP4Net} {sn6 : IP6Net} {attrs : LeaseAttrs} {ttl : Time} {asof : Int}
      {key : String} (answer : Except Error Time) :
      subnetPath root sn sn6 = some key →
      Served root etcd surroundings (.updateSubnet sn sn6 attrs ttl asof) answer
        (etcd.put key ⟨some attrs, surroundings.grant.id⟩)
  | deleted {sn : IP4Net} {sn6 : IP6Net} {key : String} (answer : Except Error Unit) :
      subnetPath root sn sn6 = some key →
      Served root etcd surroundings (.deleteSubnet sn sn6) answer (etcd.delete key)

theorem served_createSubnet {root key : String} {etcd : EtcdStore} {surroundings : Surroundings}
    {sn : IP4Net} {sn6 : IP6Net} {attrs : LeaseAttrs} {ttl : Time}
    (path : subnetPath root sn sn6 = some key) :
    Served root etcd surroundings (.createSubnet sn sn6 attrs ttl)
      (createSubnet etcd key attrs surroundings.fate surroundings.grant).1
      (createSubnet etcd key attrs surroundings.fate surroundings.grant).2 := by
  unfold createSubnet
  split
  · exact .quiet ⟨_, rfl⟩
  · exact .quiet ⟨_, rfl⟩
  · rename_i created fate done
    obtain ⟨absent, rfl⟩ := Store.create_eq_some_iff.mp done
    exact .created _ path absent (by rw [fate]; decide)
  · exact .quiet ⟨_, rfl⟩
  · rename_i created fate done
    obtain ⟨absent, rfl⟩ := Store.create_eq_some_iff.mp done
    exact .created _ path absent (by rw [fate]; decide)

theorem served_updateSubnet {root key : String} {etcd : EtcdStore} {surroundings : Surroundings}
    {sn : IP4Net} {sn6 : IP6Net} {attrs : LeaseAttrs} {ttl : Time} {asof : Int}
    (path : subnetPath root sn sn6 = some key) :
    Served root etcd surroundings (.updateSubnet sn sn6 attrs ttl asof)
      (updateSubnet etcd key attrs surroundings.fate surroundings.grant).1
      (updateSubnet etcd key attrs surroundings.fate surroundings.grant).2 := by
  unfold updateSubnet
  split
  · exact .quiet ⟨_, rfl⟩
  · exact .updated _ path
  · exact .updated _ path

theorem served_deleteSubnet {root key : String} {etcd : EtcdStore} {surroundings : Surroundings}
    {sn : IP4Net} {sn6 : IP6Net} (path : subnetPath root sn sn6 = some key) :
    Served root etcd surroundings (.deleteSubnet sn sn6)
      (deleteSubnet etcd key surroundings.fate).1 (deleteSubnet etcd key surroundings.fate).2 := by
  unfold deleteSubnet
  split
  · exact .quiet trivial
  · exact .deleted _ path
  · exact .deleted _ path

theorem served_of_serve {root : String} {etcd etcd' : EtcdStore} {surroundings : Surroundings}
    {op : Op} {answer : Res op} (served : serve root etcd surroundings op = some (answer, etcd')) :
    Served root etcd surroundings op answer etcd' := by
  cases op with
  | getNetworkConfig =>
    cases served
    exact .quiet trivial
  | getSubnets =>
    cases served
    cases listed : getSubnets root etcd surroundings.get surroundings.timeToLive with
    | error error => exact .quiet ⟨error, rfl⟩
    | ok answer => exact .listed (getSubnets_eq_ok listed)
  | createSubnet sn sn6 attrs ttl =>
    obtain ⟨key, path, outcome⟩ := Option.map_eq_some_iff.mp served
    have := @served_createSubnet root key etcd surroundings sn sn6 attrs ttl path
    rwa [outcome] at this
  | updateSubnet sn sn6 attrs ttl asof =>
    obtain ⟨key, path, outcome⟩ := Option.map_eq_some_iff.mp served
    have := @served_updateSubnet root key etcd surroundings sn sn6 attrs ttl asof path
    rwa [outcome] at this
  | deleteSubnet sn sn6 =>
    obtain ⟨key, path, outcome⟩ := Option.map_eq_some_iff.mp served
    have := @served_deleteSubnet root key etcd surroundings sn sn6 path
    rwa [outcome] at this
  | randInt lo hi =>
    rw [serve] at served
    split_ifs at served
    cases served
    exact .quiet trivial
  | crash => contradiction

theorem rely_of_serve {root : String} {etcd etcd' : EtcdStore} {surroundings : Surroundings}
    {attrs : LeaseAttrs} {pick : List Lease → IP4Net → IP6Net → Prop} {trail : Trail}
    {op : Op} {answer : Res op} (served : serve root etcd surroundings op = some (answer, etcd')) :
    (leasing attrs pick).rely trail op answer := by
  cases op
  case randInt lo hi =>
      rw [serve] at served
      split_ifs at served with inRange
      cases served
      exact inRange
  all_goals trivial

/-- The steps of node `i`: the label, the node after it and the store after it. -/
inductive Acts (root : String)
    (acquisition : LocalManager → LeaseAttrs → Action (Except Error Lease))
    (cluster : Cluster ι) (i : ι) : Label ι → Node → EtcdStore → Prop
  | acquire :
      (cluster.nodes i).task = .idle →
      Acts root acquisition cluster i (.acquire i)
        ((cluster.nodes i).resume
          (acquisition (cluster.nodes i).manager (cluster.nodes i).attrs) Trail.start)
        cluster.etcd
  | renew {lease : Lease} :
      (cluster.nodes i).task = .idle → (cluster.nodes i).held = some lease →
      Acts root acquisition cluster i (.renew i)
        ((cluster.nodes i).resume (renewLease lease) (Trail.renewing lease)) cluster.etcd
  | answer {surroundings : Surroundings} {op : Op} {rest : Res op → Action (Except Error Lease)}
      {trail : Trail} {answer : Res op} {etcd : EtcdStore} :
      (cluster.nodes i).task = .running (.call op rest) trail →
      serve root cluster.etcd surroundings op = some (answer, etcd) →
      Acts root acquisition cluster i (.answer i surroundings)
        ((cluster.nodes i).resume (rest answer)
          (trail.note (cluster.nodes i).attrs.publicIP op answer))
        etcd
  | stop :
      Acts root acquisition cluster i (.stop i) { cluster.nodes i with held := none, task := .idle }
        cluster.etcd

section Steps

variable {root : String}
variable {acquisition : LocalManager → LeaseAttrs → Action (Except Error Lease)}
variable {cluster target : Cluster ι} {label : Label ι}

theorem step_cases (taken : Cluster.step root acquisition cluster label = some target) :
    (∃ i node, Acts root acquisition cluster i label node target.etcd ∧
      target.nodes = Function.update cluster.nodes i node) ∨
    ∃ key, label = .expire key ∧ target = ⟨cluster.etcd.delete key, cluster.nodes⟩ := by
  cases label with
  | acquire i =>
    simp only [Cluster.step] at taken
    split at taken
    · cases taken
      exact .inl ⟨i, _, .acquire ‹_›, rfl⟩
    · contradiction
  | renew i =>
    simp only [Cluster.step] at taken
    split at taken
    · cases taken
      exact .inl ⟨i, _, .renew ‹_› ‹_›, rfl⟩
    · contradiction
  | answer i surroundings =>
    simp only [Cluster.step] at taken
    split at taken
    · obtain ⟨⟨answer, etcd⟩, served, rfl⟩ := Option.map_eq_some_iff.mp taken
      exact .inl ⟨i, _, .answer ‹_› served, rfl⟩
    · contradiction
  | stop i =>
    cases taken
    exact .inl ⟨i, _, .stop, rfl⟩
  | expire key =>
    cases taken
    exact .inr ⟨key, rfl, rfl⟩

theorem node_cases (taken : Cluster.step root acquisition cluster label = some target) (i : ι) :
    target.nodes i = cluster.nodes i ∨
      Acts root acquisition cluster i label (target.nodes i) target.etcd := by
  rcases step_cases taken with ⟨j, node, acts, nodes⟩ | ⟨key, rfl, rfl⟩
  · by_cases here : i = j
    · subst here
      rw [nodes, Function.update_self]
      exact .inr acts
    · rw [nodes, Function.update_of_ne here]
      exact .inl rfl
  · exact .inl rfl

end Steps

/-! ## Nodes keep the contract -/

structure Node.Lawful (pick : LocalManager → List Lease → IP4Net → IP6Net → Prop) (node : Node) :
    Prop where
  held : ∀ lease, node.held = some lease → lease.attrs = node.attrs
  safe : ∀ program trail, node.task = .running program trail →
    Safe (leasing node.attrs (pick node.manager)) trail program

@[simp]
theorem Node.resume_attrs (node : Node) (program : Action (Except Error Lease)) (trail : Trail) :
    (node.resume program trail).attrs = node.attrs := by
  unfold resume
  split <;> rfl

@[simp]
theorem Node.resume_manager (node : Node) (program : Action (Except Error Lease))
    (trail : Trail) : (node.resume program trail).manager = node.manager := by
  unfold resume
  split <;> rfl

section Lawful

variable {pick : LocalManager → List Lease → IP4Net → IP6Net → Prop} {node : Node}

theorem Node.Lawful.resume {program : Action (Except Error Lease)} {trail : Trail}
    (lawful : node.Lawful pick)
    (safe : Safe (leasing node.attrs (pick node.manager)) trail program) :
    (node.resume program trail).Lawful pick := by
  match program with
  | .ret (.ok lease) =>
    refine ⟨fun other isHeld => ?_, nofun⟩
    obtain rfl := Option.some.inj isHeld
    exact (safe_ret_iff.mp safe lease rfl).1
  | .ret (.error _) => exact ⟨lawful.held, nofun⟩
  | .call op rest =>
    refine ⟨lawful.held, fun other trail' runs => ?_⟩
    cases runs
    exact safe

theorem Node.Lawful.guarantee {op : Op} {rest : Res op → Action (Except Error Lease)}
    {trail : Trail} (lawful : node.Lawful pick)
    (runs : node.task = .running (.call op rest) trail) :
    (leasing node.attrs (pick node.manager)).guarantee trail op :=
  (safe_call_iff.mp (lawful.safe _ _ runs)).1

theorem Node.Lawful.continue {root : String} {etcd etcd' : EtcdStore}
    {surroundings : Surroundings} {op : Op} {rest : Res op → Action (Except Error Lease)}
    {trail : Trail} {answer : Res op} (lawful : node.Lawful pick)
    (runs : node.task = .running (.call op rest) trail)
    (served : serve root etcd surroundings op = some (answer, etcd')) :
    Safe (leasing node.attrs (pick node.manager)) (trail.note node.attrs.publicIP op answer)
      (rest answer) :=
  (safe_call_iff.mp (lawful.safe _ _ runs)).2 answer (rely_of_serve served)

end Lawful

theorem lawful_step {root : String}
    {acquisition : LocalManager → LeaseAttrs → Action (Except Error Lease)}
    {pick : LocalManager → List Lease → IP4Net → IP6Net → Prop}
    (keeps : ∀ m attrs trail, Safe (leasing attrs (pick m)) trail (acquisition m attrs))
    {cluster target : Cluster ι} {label : Label ι} (lawful : ∀ i, (cluster.nodes i).Lawful pick)
    (taken : Cluster.step root acquisition cluster label = some target) (i : ι) :
    (target.nodes i).Lawful pick := by
  rcases node_cases taken i with same | acts
  · rw [same]
    exact lawful i
  · generalize target.nodes i = node, target.etcd = etcd at acts
    cases acts with
    | acquire => exact (lawful i).resume (keeps _ _ _)
    | renew idle isHeld =>
      exact (lawful i).resume
        (renewLease_safe ((lawful i).held _ isHeld) (List.mem_singleton.mpr rfl))
    | answer runs served => exact (lawful i).resume ((lawful i).continue runs served)
    | stop => exact ⟨nofun, nofun⟩

/-! ## Claims -/

def Node.holding (node : Node) : List (IP4Net × IP6Net) :=
  node.held.toList.map fun lease => (lease.subnet, lease.ipv6Subnet)

def Node.pending (node : Node) : List (IP4Net × IP6Net) :=
  match node.task with
  | .idle => []
  | .running _ trail => trail.claimed

def Node.written (node : Node) : Option (IP4Net × IP6Net) :=
  match node.task with
  | .idle => none
  | .running _ trail => trail.written

def Node.seen (node : Node) : List Lease :=
  match node.task with
  | .idle => []
  | .running _ trail => trail.seen

def Node.Claims (node : Node) (subnets : IP4Net × IP6Net) : Prop :=
  subnets ∈ node.holding ∨ subnets ∈ node.pending ∨ node.written = some subnets

theorem Node.pending_resume {node : Node} {program : Action (Except Error Lease)} {trail : Trail} :
    (node.resume program trail).pending ⊆ trail.claimed := by
  match program with
  | .ret (.ok _) => exact List.nil_subset _
  | .ret (.error _) => exact List.nil_subset _
  | .call _ _ => exact List.Subset.refl _

theorem Node.claims_resume {pick : LocalManager → List Lease → IP4Net → IP6Net → Prop}
    {node : Node} {program : Action (Except Error Lease)} {trail : Trail}
    {subnets : IP4Net × IP6Net}
    (safe : Safe (leasing node.attrs (pick node.manager)) trail program)
    (claims : (node.resume program trail).Claims subnets) :
    subnets ∈ node.holding ∨ subnets ∈ trail.claimed ∨ trail.written = some subnets := by
  match program with
  | .ret (.ok lease) =>
    rcases claims with isHeld | isPending | isWritten
    · have here : subnets = (lease.subnet, lease.ipv6Subnet) := List.mem_singleton.mp isHeld
      rw [here]
      exact .inr (.inr (safe_ret_iff.mp safe lease rfl).2)
    · contradiction
    · contradiction
  | .ret (.error _) =>
    rcases claims with isHeld | isPending | isWritten
    · exact .inl isHeld
    · contradiction
    · contradiction
  | .call op rest => exact claims

structure Node.Fresh (node : Node) : Prop where
  idle : node.task = .idle
  free : node.held = none

theorem Node.Fresh.lawful {pick : LocalManager → List Lease → IP4Net → IP6Net → Prop} {node : Node}
    (fresh : node.Fresh) : node.Lawful pick where
  held lease isHeld := by
    rw [fresh.free] at isHeld
    contradiction
  safe program trail runs := by
    rw [fresh.idle] at runs
    contradiction

theorem Node.Fresh.pending_eq_nil {node : Node} (fresh : node.Fresh) : node.pending = [] := by
  rw [pending, fresh.idle]

theorem Node.Fresh.not_claims {node : Node} (fresh : node.Fresh) (subnets : IP4Net × IP6Net) :
    ¬ node.Claims subnets := by
  rw [Claims, holding, fresh.free, fresh.pending_eq_nil, written, fresh.idle]
  simp

theorem Trail.note_quiet {pubIP : IP4} {trail : Trail} {op : Op} {answer : Res op}
    (quiet : Quiet op answer) :
    (trail.note pubIP op answer).claimed ⊆ trail.claimed ∧
      (trail.note pubIP op answer).written = trail.written := by
  cases op
  case getSubnets | createSubnet | updateSubnet =>
    obtain ⟨error, rfl⟩ := quiet
    simp [Trail.note]
  all_goals simp [Trail.note]

def Cluster.Lists (root : String) (cluster : Cluster ι) (i : ι) (subnets : IP4Net × IP6Net) : Prop :=
  ∃ row, cluster.etcd.get? row.key = some row ∧ isBelow (subnetsDir root) row.key = true ∧
    keySubnets row.key = some subnets ∧
    ∃ attrs, row.value.value = some attrs ∧ attrs.publicIP = (cluster.nodes i).attrs.publicIP

def Node.asks (node : Node) : Option Op :=
  match node.task with
  | .running (.call op _) _ => some op
  | _ => none

theorem Node.running_of_asks {node : Node} {op : Op} (asks : node.asks = some op) :
    ∃ rest trail, node.task = .running (.call op rest) trail := by
  unfold Node.asks at asks
  split at asks
  · rename_i rest trail runs
    cases asks
    exact ⟨rest, trail, runs⟩
  · contradiction

theorem Node.asks_of_running {node : Node} {op : Op} {rest : Res op → Action (Except Error Lease)}
    {trail : Trail} (runs : node.task = .running (.call op rest) trail) : node.asks = some op := by
  rw [Node.asks, runs]

structure Cluster.Creates (root : String) (cluster : Cluster ι) (label : Label ι) (i : ι)
    (subnets : IP4Net × IP6Net) (key : String) : Prop where
  asks : ∃ attrs ttl, (cluster.nodes i).asks = some (.createSubnet subnets.1 subnets.2 attrs ttl)
  executed : ∃ surroundings, label = .answer i surroundings ∧ surroundings.fate ≠ .refused
  path : subnetPath root subnets.1 subnets.2 = some key
  absent : cluster.etcd.get? key = none

inductive Wrote (root : String) (cluster : Cluster ι) (label : Label ι) (target : Cluster ι) :
    EtcdStore → Prop
  | nothing : Wrote root cluster label target cluster.etcd
  | expired {key : String} :
      label = .expire key → Wrote root cluster label target (cluster.etcd.delete key)
  | created {i : ι} (subnets : IP4Net × IP6Net) {key : String} {id : Nat} :
      cluster.Creates root label i subnets key → (target.nodes i).pending = [] →
      Wrote root cluster label target (cluster.etcd.put key ⟨some (cluster.nodes i).attrs, id⟩)
  | updated {i : ι} (subnets : IP4Net × IP6Net) {key : String} {id : Nat} :
      subnets ∈ (cluster.nodes i).pending → subnetPath root subnets.1 subnets.2 = some key →
      (target.nodes i).pending = [] →
      Wrote root cluster label target (cluster.etcd.put key ⟨some (cluster.nodes i).attrs, id⟩)
  | deleted {i : ι} (subnets : IP4Net × IP6Net) {key : String} :
      subnets ∈ (cluster.nodes i).pending → subnetPath root subnets.1 subnets.2 = some key →
      (target.nodes i).pending = [] →
      Wrote root cluster label target (cluster.etcd.delete key)

section Steps

variable {root : String}
variable {acquisition : LocalManager → LeaseAttrs → Action (Except Error Lease)}
variable {pick : LocalManager → List Lease → IP4Net → IP6Net → Prop}
variable {cluster target : Cluster ι} {label : Label ι}

theorem node_step (taken : Cluster.step root acquisition cluster label = some target) (i : ι) :
    (target.nodes i).attrs = (cluster.nodes i).attrs ∧
      (target.nodes i).manager = (cluster.nodes i).manager := by
  rcases node_cases taken i with same | acts
  · rw [same]
    exact ⟨rfl, rfl⟩
  · generalize target.nodes i = node, target.etcd = etcd at acts
    cases acts with
    | stop => exact ⟨rfl, rfl⟩
    | _ => exact ⟨Node.resume_attrs .., Node.resume_manager ..⟩

theorem wrote_step (lawful : ∀ i, (cluster.nodes i).Lawful pick)
    (taken : Cluster.step root acquisition cluster label = some target) :
    Wrote root cluster label target target.etcd := by
  rcases step_cases taken with ⟨i, node, acts, nodes⟩ | ⟨key, rfl, rfl⟩
  · have settled : ∀ {program : Action (Except Error Lease)} {trail : Trail},
        node = (cluster.nodes i).resume program trail → trail.claimed = [] →
        (target.nodes i).pending = [] := by
      intro program trail resumed nothing
      rw [nodes, Function.update_self, resumed]
      exact List.subset_nil.mp (nothing ▸ Node.pending_resume)
    generalize target.etcd = etcd at acts
    cases acts with
    | acquire => exact .nothing
    | renew => exact .nothing
    | stop => exact .nothing
    | @answer surroundings op rest trail answer _ runs served =>
      have allowed := (lawful i).guarantee runs
      have pendingIs : (cluster.nodes i).pending = trail.claimed := by rw [Node.pending, runs]
      cases served_of_serve served with
      | quiet => exact .nothing
      | listed => exact .nothing
      | @created sn sn6 _ _ _ answer path absent executed =>
        obtain ⟨rfl, _⟩ := allowed
        refine .created (sn, sn6) ⟨⟨_, _, Node.asks_of_running runs⟩,
          ⟨surroundings, rfl, executed⟩, path, absent⟩ (settled rfl ?_)
        cases answer <;> rfl
      | @updated sn sn6 _ _ _ _ answer path =>
        obtain ⟨rfl, claimed⟩ := allowed
        refine .updated (sn, sn6) (pendingIs ▸ claimed) path (settled rfl ?_)
        cases answer <;> rfl
      | @deleted sn sn6 _ answer path =>
        exact .deleted (sn, sn6) (pendingIs ▸ allowed) path (settled rfl rfl)
  · exact .expired rfl

omit [DecidableEq ι] in
theorem lists_of_mem_ownSubnets {surroundings : Surroundings} {leases : List Lease} {i : ι}
    {subnets : IP4Net × IP6Net}
    (listed : leases = [] ∨ leases = listLeases root cluster.etcd surroundings.timeToLive)
    (mem : subnets ∈ ownSubnets leases (cluster.nodes i).attrs.publicIP) :
    cluster.Lists root i subnets := by
  obtain ⟨lease, inOwn, rfl⟩ := List.mem_map.mp mem
  obtain ⟨inList, isOwn⟩ := List.mem_filter.mp inOwn
  rcases listed with rfl | rfl
  · contradiction
  · obtain ⟨row, stored, below, value, decoded, -, -⟩ := exists_row_of_mem_listLeases inList
    exact ⟨row, stored, below, decoded, lease.attrs, value, (beq_iff_eq.mp isOwn).symm⟩

omit [DecidableEq ι] in
theorem claimed_note {i : ι} {surroundings : Surroundings} {trail : Trail} {op : Op}
    {answer : Res op} {etcd : EtcdStore} {subnets : IP4Net × IP6Net}
    (served : Served root cluster.etcd surroundings op answer etcd)
    (claimed : subnets ∈ (trail.note (cluster.nodes i).attrs.publicIP op answer).claimed) :
    subnets ∈ trail.claimed ∨ (cluster.Lists root i subnets ∧ etcd = cluster.etcd) := by
  cases served with
  | quiet quiet => exact .inl ((Trail.note_quiet quiet).1 claimed)
  | listed listed => exact .inr ⟨lists_of_mem_ownSubnets listed claimed, rfl⟩
  | created answer => cases answer <;> contradiction
  | updated answer => cases answer <;> contradiction
  | deleted answer => contradiction

theorem pending_step (taken : Cluster.step root acquisition cluster label = some target) {i : ι}
    {subnets : IP4Net × IP6Net} (isPending : subnets ∈ (target.nodes i).pending) :
    subnets ∈ (cluster.nodes i).pending ∨
      (cluster.Lists root i subnets ∧ target.etcd = cluster.etcd) ∨
      label = .renew i ∧ subnets ∈ (cluster.nodes i).holding := by
  rcases node_cases taken i with same | acts
  · exact .inl (same ▸ isPending)
  · generalize target.nodes i = node, target.etcd = etcd at acts isPending
    cases acts with
    | acquire => exact absurd (Node.pending_resume isPending) List.not_mem_nil
    | renew idle isHeld =>
      refine .inr (.inr ⟨rfl, ?_⟩)
      rw [Node.holding, isHeld]
      exact Node.pending_resume isPending
    | answer runs served =>
      rcases claimed_note (served_of_serve served) (Node.pending_resume isPending) with
        before | listed
      · left
        rw [Node.pending, runs]
        exact before
      · exact .inr (.inl listed)
    | stop => contradiction

omit [DecidableEq ι] in
theorem written_note {surroundings : Surroundings} {pubIP : IP4} {trail : Trail} {op : Op}
    {answer : Res op} {etcd : EtcdStore} {subnets : IP4Net × IP6Net}
    (served : Served root cluster.etcd surroundings op answer etcd)
    (written : (trail.note pubIP op answer).written = some subnets) :
    trail.written = some subnets ∨
      (∃ attrs ttl asof, op = .updateSubnet subnets.1 subnets.2 attrs ttl asof) ∨
      ∃ attrs ttl key, op = .createSubnet subnets.1 subnets.2 attrs ttl ∧
        subnetPath root subnets.1 subnets.2 = some key ∧ cluster.etcd.get? key = none ∧
        surroundings.fate ≠ .refused := by
  cases served with
  | quiet quiet =>
    rw [(Trail.note_quiet quiet).2] at written
    exact .inl written
  | listed => contradiction
  | created answer path absent executed =>
    cases answer with
    | error error => exact .inl written
    | ok exp =>
      cases written
      exact .inr (.inr ⟨_, _, _, rfl, path, absent, executed⟩)
  | updated answer path =>
    cases answer with
    | error error => exact .inl written
    | ok exp =>
      cases written
      exact .inr (.inl ⟨_, _, _, rfl⟩)
  | deleted answer => exact .inl written

theorem claims_step
    (keeps : ∀ m attrs trail, Safe (leasing attrs (pick m)) trail (acquisition m attrs))
    (lawful : ∀ i, (cluster.nodes i).Lawful pick)
    (taken : Cluster.step root acquisition cluster label = some target) {i : ι}
    {subnets : IP4Net × IP6Net} (claims : (target.nodes i).Claims subnets) :
    (cluster.nodes i).Claims subnets ∨
      (cluster.Lists root i subnets ∧ target.etcd = cluster.etcd) ∨
      ∃ key, cluster.Creates root label i subnets key := by
  rcases node_cases taken i with same | acts
  · exact .inl (same ▸ claims)
  · generalize target.nodes i = node, target.etcd = etcd at acts claims
    cases acts with
    | acquire =>
      rcases Node.claims_resume (keeps _ _ _) claims with isHeld | claimed | written
      · exact .inl (.inl isHeld)
      · contradiction
      · contradiction
    | @renew lease idle isHeld =>
      have safe : Safe (leasing (cluster.nodes i).attrs (pick (cluster.nodes i).manager))
          (Trail.renewing lease) (renewLease lease) :=
        renewLease_safe ((lawful i).held _ isHeld) (List.mem_singleton.mpr rfl)
      rcases Node.claims_resume safe claims with stillHeld | claimed | written
      · exact .inl (.inl stillHeld)
      · refine .inl (.inl ?_)
        rw [Node.holding, isHeld]
        exact claimed
      · contradiction
    | @answer surroundings op rest trail answer _ runs served =>
      have pendingIs : (cluster.nodes i).pending = trail.claimed := by rw [Node.pending, runs]
      have writtenIs : (cluster.nodes i).written = trail.written := by rw [Node.written, runs]
      rcases Node.claims_resume ((lawful i).continue runs served) claims with
        isHeld | claimed | written
      · exact .inl (.inl isHeld)
      · rcases claimed_note (served_of_serve served) claimed with before | listed
        · exact .inl (.inr (.inl (pendingIs ▸ before)))
        · exact .inr (.inl listed)
      · rcases written_note (served_of_serve served) written with
          before | ⟨attrs, ttl, asof, rfl⟩ | ⟨attrs, ttl, key, rfl, path, absent, executed⟩
        · exact .inl (.inr (.inr (writtenIs.trans before)))
        · exact .inl (.inr (.inl (pendingIs ▸ ((lawful i).guarantee runs).2)))
        · exact .inr (.inr ⟨key, ⟨attrs, ttl, Node.asks_of_running runs⟩,
            ⟨surroundings, rfl, executed⟩, path, absent⟩)
    | stop => rcases claims with isHeld | isPending | isWritten <;> contradiction

omit [DecidableEq ι] in
theorem pick_of_creates (lawful : ∀ i, (cluster.nodes i).Lawful pick) {i : ι}
    {subnets : IP4Net × IP6Net} {key : String} (creates : cluster.Creates root label i subnets key) :
    pick (cluster.nodes i).manager (cluster.nodes i).seen subnets.1 subnets.2 := by
  obtain ⟨attrs, ttl, asks⟩ := creates.asks
  obtain ⟨rest, trail, runs⟩ := Node.running_of_asks asks
  rw [Node.seen, runs]
  exact ((lawful i).guarantee runs).2

theorem etcd_of_creates (lawful : ∀ i, (cluster.nodes i).Lawful pick)
    (taken : Cluster.step root acquisition cluster label = some target) {i : ι}
    {subnets : IP4Net × IP6Net} {key : String} (creates : cluster.Creates root label i subnets key) :
    ∃ id, target.etcd = cluster.etcd.put key ⟨some (cluster.nodes i).attrs, id⟩ := by
  obtain ⟨attrs, ttl, asks⟩ := creates.asks
  obtain ⟨rest, trail, runs⟩ := Node.running_of_asks asks
  obtain ⟨surroundings, rfl, executed⟩ := creates.executed
  obtain ⟨rfl, _⟩ := (lawful i).guarantee runs
  simp only [Cluster.step, runs, serve, creates.path, Option.map_some, Option.some.injEq] at taken
  rw [← taken]
  exact ⟨_, createSubnet_of_absent executed creates.absent⟩

end Steps

def Surroundings.calm (random : Nat) : Surroundings :=
  ⟨.error .request, .ok (), fun _ => some (86400, 1), .done, ⟨1, 86400, 1⟩, random⟩

def twoNodes (previousSubnet : IP4Net) : Cluster Bool :=
  ⟨Store.empty, fun i =>
    ⟨{ LeaseAttrs.zero with publicIP := if i then 2 else 1 }, ⟨previousSubnet, IP6Net.zero⟩, none,
      .idle⟩⟩

end Flannel.Etcd
