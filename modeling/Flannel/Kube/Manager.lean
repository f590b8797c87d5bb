import Flannel.Leases.Core
import Flannel.Subnet.Config

/-!
# The Kubernetes subnet manager

`kubeSubnetManager` reads leases off the annotations and pod CIDRs of node objects, and turns the
calls of an informer into lease events. An update is ignored if nothing changed in one of the
enabled families: with both, a change is lost when the annotations of the other family are
untouched.
-/

namespace Flannel.Kube

open Ip Leases Net Subnet

structure Annotations where
  subnetKubeManaged : String
  backendData : String
  backendV6Data : String
  backendType : String
  backendPublicIP : String
  backendPublicIPv6 : String
  deriving DecidableEq

structure Node where
  name : String
  annotations : List (String × String)
  podCIDR : String
  podCIDRs : List String
  deriving DecidableEq

structure KubeSubnetManager where
  enableIPv4 : Bool
  enableIPv6 : Bool
  annotations : Annotations
  nodeName : String
  deriving DecidableEq

def Node.annotation (n : Node) (key : String) : String :=
  (n.annotations.lookup key).getD ""

/-- The first pod CIDR that `choose` accepts; the ones before it must parse. -/
def findCidr {α : Type} (choose : IPNet → Option α) : List String → Except String (Option α)
  | [] => .ok none
  | podCidr :: rest =>
    match parseCIDR podCidr with
    | none => .error ("invalid CIDR address: " ++ podCidr)
    | some parseCidr =>
      match choose parseCidr with
      | some cidr => .ok (some cidr)
      | none => findCidr choose rest

namespace KubeSubnetManager

def cidr {α : Type} (ksm : KubeSubnetManager) (n : Node) (choose : IPNet → Option α)
    (missing : String) : Except String α := do
  let found ←
    if n.podCIDRs.length = 0 then findCidr choose [n.podCIDR]
    else if n.podCIDRs.length < 3 then findCidr choose n.podCIDRs
    else
      .error ("node \"" ++ ksm.nodeName ++
        "\" pod cidrs should be IPv4/IPv6 only or dualstack")
  match found with
  | none => .error missing
  | some cidr => .ok cidr

def fillIPv4 (ksm : KubeSubnetManager) (n : Node) (l : Lease) : Except String Lease :=
  if ksm.enableIPv4 then do
    let publicIP ← parseIP4 (n.annotation ksm.annotations.backendPublicIP)
    let subnet ← ksm.cidr n IP4Net.fromIPNet "missing IPv4 address on n.Spec.PodCIDRs"
    .ok
      { l with
        enableIPv4 := ksm.enableIPv4
        subnet := subnet
        attrs :=
          { l.attrs with
            publicIP := publicIP
            backendData := some (n.annotation ksm.annotations.backendData) } }
  else .ok l

def fillIPv6 (ksm : KubeSubnetManager) (n : Node) (l : Lease) : Except String Lease :=
  if ksm.enableIPv6 then do
    let publicIPv6 ← parseIP6 (n.annotation ksm.annotations.backendPublicIPv6)
    let ipv6Subnet ← ksm.cidr n
      (fun cidr => if cidr.ip.to4 = none then some (IP6Net.fromIP6Net cidr) else none)
      "missing IPv6 address on n.Spec.PodCIDRs"
    .ok
      { l with
        enableIPv6 := ksm.enableIPv6
        ipv6Subnet := ipv6Subnet
        attrs :=
          { l.attrs with
            publicIPv6 := some publicIPv6
            backendV6Data := some (n.annotation ksm.annotations.backendV6Data) } }
  else .ok l

def nodeToLease (ksm : KubeSubnetManager) (n : Node) : Except String Lease := do
  let l ← ksm.fillIPv4 n ⟨false, false, ⟨0, 0⟩, IP6Net.zero, LeaseAttrs.zero, 0, 0⟩
  let l ← ksm.fillIPv6 n l
  .ok { l with
    attrs := { l.attrs with backendType := n.annotation ksm.annotations.backendType } }

def isManaged (ksm : KubeSubnetManager) (n : Node) : Bool :=
  n.annotations.lookup ksm.annotations.subnetKubeManaged == some "true"

def eventOf (ksm : KubeSubnetManager) (et : EventType) (n : Node) : Option Event :=
  match ksm.nodeToLease n with
  | .ok l => some ⟨et, l⟩
  | .error _ => none

def handleAddLeaseEvent (ksm : KubeSubnetManager) (et : EventType) (n : Node) : Option Event :=
  if ksm.isManaged n then ksm.eventOf et n else none

def sameIPv4 (ksm : KubeSubnetManager) (o n : Node) : Bool :=
  o.annotation ksm.annotations.backendData == n.annotation ksm.annotations.backendData &&
    o.annotation ksm.annotations.backendType == n.annotation ksm.annotations.backendType &&
    o.annotation ksm.annotations.backendPublicIP == n.annotation ksm.annotations.backendPublicIP

def sameIPv6 (ksm : KubeSubnetManager) (o n : Node) : Bool :=
  o.annotation ksm.annotations.backendV6Data == n.annotation ksm.annotations.backendV6Data &&
    o.annotation ksm.annotations.backendType == n.annotation ksm.annotations.backendType &&
    o.annotation ksm.annotations.backendPublicIPv6 ==
      n.annotation ksm.annotations.backendPublicIPv6

/-- The flag of `handleUpdateLeaseEvent`: either family can clear it. -/
def changed (ksm : KubeSubnetManager) (o n : Node) : Bool :=
  !(ksm.enableIPv4 && ksm.sameIPv4 o n) && !(ksm.enableIPv6 && ksm.sameIPv6 o n)

def handleUpdateLeaseEvent (ksm : KubeSubnetManager) (o n : Node) : Option Event :=
  if ksm.isManaged n then
    if ksm.changed o n then ksm.eventOf .added n else none
  else none

/-! ## What a lease says about its node -/

variable {ksm : KubeSubnetManager} {o n : Node} {l l' : Lease}

structure ReadFrom (ksm : KubeSubnetManager) (n : Node) (l : Lease) : Prop where
  backendType : l.attrs.backendType = n.annotation ksm.annotations.backendType
  backendData : ksm.enableIPv4 = true →
    l.attrs.backendData = some (n.annotation ksm.annotations.backendData)
  publicIP : ksm.enableIPv4 = true →
    parseIP4 (n.annotation ksm.annotations.backendPublicIP) = .ok l.attrs.publicIP
  backendV6Data : ksm.enableIPv6 = true →
    l.attrs.backendV6Data = some (n.annotation ksm.annotations.backendV6Data)
  publicIPv6 : ksm.enableIPv6 = true →
    (parseIP6 (n.annotation ksm.annotations.backendPublicIPv6)).map some = .ok l.attrs.publicIPv6

theorem fillIPv4_eq_ok {filled : Lease} (enabled : ksm.enableIPv4)
    (converted : ksm.fillIPv4 n l = .ok filled) :
    filled.attrs.backendData = some (n.annotation ksm.annotations.backendData) ∧
      parseIP4 (n.annotation ksm.annotations.backendPublicIP) = .ok filled.attrs.publicIP := by
  simp only [fillIPv4, enabled, if_true, bind_eq_ok_iff] at converted
  obtain ⟨publicIP, parsed, subnet, _, result⟩ := converted
  cases result
  exact ⟨rfl, parsed⟩

theorem fillIPv6_eq_ok {filled : Lease} (enabled : ksm.enableIPv6)
    (converted : ksm.fillIPv6 n l = .ok filled) :
    filled.attrs.backendV6Data = some (n.annotation ksm.annotations.backendV6Data) ∧
      (parseIP6 (n.annotation ksm.annotations.backendPublicIPv6)).map some =
        .ok filled.attrs.publicIPv6 := by
  simp only [fillIPv6, enabled, if_true, bind_eq_ok_iff] at converted
  obtain ⟨publicIPv6, parsed, subnet, _, result⟩ := converted
  cases result
  constructor
  · rfl
  · rw [parsed]
    rfl

theorem attrs_fillIPv6 {filled : Lease} (converted : ksm.fillIPv6 n l = .ok filled) :
    filled.attrs.backendData = l.attrs.backendData ∧ filled.attrs.publicIP = l.attrs.publicIP := by
  unfold fillIPv6 at converted
  split_ifs at converted
  · simp only [bind_eq_ok_iff] at converted
    obtain ⟨publicIPv6, _, subnet, _, result⟩ := converted
    cases result
    exact ⟨rfl, rfl⟩
  · cases converted
    exact ⟨rfl, rfl⟩

theorem readFrom_of_nodeToLease (converted : ksm.nodeToLease n = .ok l) : ksm.ReadFrom n l := by
  simp only [nodeToLease, bind_eq_ok_iff] at converted
  obtain ⟨first, ipv4, second, ipv6, result⟩ := converted
  cases result
  obtain ⟨backendData, publicIP⟩ := attrs_fillIPv6 ipv6
  constructor
  · rfl
  · intro enabled
    exact backendData.trans (fillIPv4_eq_ok enabled ipv4).1
  · intro enabled
    exact (fillIPv4_eq_ok enabled ipv4).2.trans (congrArg Except.ok publicIP.symm)
  · intro enabled
    exact (fillIPv6_eq_ok enabled ipv6).1
  · intro enabled
    exact (fillIPv6_eq_ok enabled ipv6).2

/-! ## Relevant changes -/

def DiffersIPv4 (l l' : Lease) : Prop :=
  l.attrs.backendData ≠ l'.attrs.backendData ∨ l.attrs.publicIP ≠ l'.attrs.publicIP

def DiffersIPv6 (l l' : Lease) : Prop :=
  l.attrs.backendV6Data ≠ l'.attrs.backendV6Data ∨ l.attrs.publicIPv6 ≠ l'.attrs.publicIPv6

/-- The leases differ for a backend of the enabled families. -/
def Differs (ksm : KubeSubnetManager) (l l' : Lease) : Prop :=
  l.attrs.backendType ≠ l'.attrs.backendType ∨
    (ksm.enableIPv4 = true ∧ DiffersIPv4 l l') ∨ (ksm.enableIPv6 = true ∧ DiffersIPv6 l l')

/-- Both families are enabled, and one of them changed while the annotations of the other are the
same. -/
def Masked (ksm : KubeSubnetManager) (o n : Node) (l l' : Lease) : Prop :=
  ksm.enableIPv4 = true ∧ ksm.enableIPv6 = true ∧
    ((ksm.sameIPv4 o n = true ∧ DiffersIPv6 l l') ∨ (ksm.sameIPv6 o n = true ∧ DiffersIPv4 l l'))

theorem sameIPv4_iff : ksm.sameIPv4 o n ↔
    o.annotation ksm.annotations.backendData = n.annotation ksm.annotations.backendData ∧
      o.annotation ksm.annotations.backendType = n.annotation ksm.annotations.backendType ∧
      o.annotation ksm.annotations.backendPublicIP =
        n.annotation ksm.annotations.backendPublicIP := by
  simp [sameIPv4, and_assoc]

theorem sameIPv6_iff : ksm.sameIPv6 o n ↔
    o.annotation ksm.annotations.backendV6Data = n.annotation ksm.annotations.backendV6Data ∧
      o.annotation ksm.annotations.backendType = n.annotation ksm.annotations.backendType ∧
      o.annotation ksm.annotations.backendPublicIPv6 =
        n.annotation ksm.annotations.backendPublicIPv6 := by
  simp [sameIPv6, and_assoc]

theorem not_differsIPv4_of_same (old : ksm.ReadFrom o l) (new : ksm.ReadFrom n l')
    (enabled : ksm.enableIPv4) (same : ksm.sameIPv4 o n) :
    l.attrs.backendType = l'.attrs.backendType ∧ ¬ DiffersIPv4 l l' := by
  obtain ⟨data, type, publicIP⟩ := sameIPv4_iff.mp same
  constructor
  · rw [old.backendType, type, new.backendType]
  · rintro (differ | differ)
    · exact differ (by rw [old.backendData enabled, data, new.backendData enabled])
    · apply differ
      apply Except.ok.inj
      rw [← old.publicIP enabled, publicIP, new.publicIP enabled]

theorem not_differsIPv6_of_same (old : ksm.ReadFrom o l) (new : ksm.ReadFrom n l')
    (enabled : ksm.enableIPv6) (same : ksm.sameIPv6 o n) :
    l.attrs.backendType = l'.attrs.backendType ∧ ¬ DiffersIPv6 l l' := by
  obtain ⟨data, type, publicIPv6⟩ := sameIPv6_iff.mp same
  constructor
  · rw [old.backendType, type, new.backendType]
  · rintro (differ | differ)
    · exact differ (by rw [old.backendV6Data enabled, data, new.backendV6Data enabled])
    · apply differ
      apply Except.ok.inj
      rw [← old.publicIPv6 enabled, publicIPv6, new.publicIPv6 enabled]

theorem changed_eq_false_iff : ksm.changed o n = false ↔
    (ksm.enableIPv4 ∧ ksm.sameIPv4 o n) ∨
      (ksm.enableIPv6 ∧ ksm.sameIPv6 o n) := by
  simp only [changed, Bool.and_eq_false_iff, Bool.not_eq_false', Bool.and_eq_true]

theorem masked_of_differs (old : ksm.ReadFrom o l) (new : ksm.ReadFrom n l')
    (differs : ksm.Differs l l') (cleared : ksm.changed o n = false) : ksm.Masked o n l l' := by
  rcases changed_eq_false_iff.mp cleared with ⟨enabled, same⟩ | ⟨enabled, same⟩
  · obtain ⟨type, unchanged⟩ := not_differsIPv4_of_same old new enabled same
    rcases differs with differ | ⟨_, differ⟩ | ⟨enabled6, differ⟩
    · exact absurd type differ
    · exact absurd differ unchanged
    · exact ⟨enabled, enabled6, .inl ⟨same, differ⟩⟩
  · obtain ⟨type, unchanged⟩ := not_differsIPv6_of_same old new enabled same
    rcases differs with differ | ⟨enabled4, differ⟩ | ⟨_, differ⟩
    · exact absurd type differ
    · exact ⟨enabled4, enabled, .inr ⟨same, differ⟩⟩
    · exact absurd differ unchanged

/-- An update enqueues the new lease after every relevant change exactly if the
change is not masked by the other family. -/
theorem handleUpdateLeaseEvent_relays_iff (managed : ksm.isManaged n = true)
    (oldLease : ksm.nodeToLease o = .ok l) (newLease : ksm.nodeToLease n = .ok l') :
    (ksm.Differs l l' → ksm.handleUpdateLeaseEvent o n = some ⟨.added, l'⟩) ↔
      ¬ ksm.Masked o n l l' := by
  have old := readFrom_of_nodeToLease oldLease
  have new := readFrom_of_nodeToLease newLease
  have relayed : ksm.handleUpdateLeaseEvent o n =
      if ksm.changed o n then some ⟨.added, l'⟩ else none := by
    rw [handleUpdateLeaseEvent, if_pos managed, eventOf, newLease]
  constructor
  · rintro relays ⟨enabled4, enabled6, masked⟩
    have differs : ksm.Differs l l' := by
      rcases masked with ⟨_, differ⟩ | ⟨_, differ⟩
      · exact .inr (.inr ⟨enabled6, differ⟩)
      · exact .inr (.inl ⟨enabled4, differ⟩)
    have cleared : ksm.changed o n = false := by
      rw [changed_eq_false_iff]
      rcases masked with ⟨same, _⟩ | ⟨same, _⟩
      · exact .inl ⟨enabled4, same⟩
      · exact .inr ⟨enabled6, same⟩
    have enqueued := relays differs
    rw [relayed, cleared] at enqueued
    contradiction
  · intro notMasked differs
    cases cleared : ksm.changed o n with
    | true => rw [relayed, cleared, if_pos rfl]
    | false => exact absurd (masked_of_differs old new differs cleared) notMasked

end KubeSubnetManager

def defaultManager (enableIPv4 enableIPv6 : Bool) : KubeSubnetManager where
  enableIPv4 := enableIPv4
  enableIPv6 := enableIPv6
  annotations :=
    { subnetKubeManaged := "flannel.alpha.coreos.com/kube-subnet-manager"
      backendData := "flannel.alpha.coreos.com/backend-data"
      backendV6Data := "flannel.alpha.coreos.com/backend-v6-data"
      backendType := "flannel.alpha.coreos.com/backend-type"
      backendPublicIP := "flannel.alpha.coreos.com/public-ip"
      backendPublicIPv6 := "flannel.alpha.coreos.com/public-ipv6" }
  nodeName := "worker-1"

def dualNode (backendData backendV6Data : String) : Node where
  name := "worker-2"
  annotations :=
    [("flannel.alpha.coreos.com/kube-subnet-manager", "true"),
      ("flannel.alpha.coreos.com/backend-type", "vxlan"),
      ("flannel.alpha.coreos.com/backend-data", backendData),
      ("flannel.alpha.coreos.com/public-ip", "192.168.0.2"),
      ("flannel.alpha.coreos.com/backend-v6-data", backendV6Data),
      ("flannel.alpha.coreos.com/public-ipv6", "fd00::2")]
  podCIDR := "10.244.2.0/24"
  podCIDRs := ["10.244.2.0/24", "fd00:10:244:2::/64"]

def dualLease (backendData backendV6Data : String) : Lease :=
  ⟨true, true, ⟨0x0af40200, 24⟩, ⟨some 0xfd000010024400020000000000000000, 64⟩,
    ⟨0xc0a80002, some 0xfd000000000000000000000000000002, "vxlan", some backendData,
      some backendV6Data⟩, 0, 0⟩

theorem relays_change_of_both :
    (defaultManager true true).handleUpdateLeaseEvent (dualNode "1" "2") (dualNode "3" "4") =
      some ⟨.added, dualLease "3" "4"⟩ := by
  have relays := KubeSubnetManager.handleUpdateLeaseEvent_relays_iff
    (show (defaultManager true true).isManaged (dualNode "3" "4") = true by decide)
    (show (defaultManager true true).nodeToLease (dualNode "1" "2") = .ok (dualLease "1" "2") by
      decide)
    (show (defaultManager true true).nodeToLease (dualNode "3" "4") = .ok (dualLease "3" "4") by
      decide)
  refine relays.mpr ?_ (.inr (.inl ⟨rfl, .inl (by decide)⟩))
  rintro ⟨_, _, ⟨same, _⟩ | ⟨same, _⟩⟩
  · revert same
    decide
  · revert same
    decide

/-- A new VTEP of the IPv6 family alone is not relayed: the unchanged IPv4
annotations clear the flag. -/
theorem ipv6_change_not_relayed :
    (defaultManager true true).isManaged (dualNode "1" "2") = true ∧
      (defaultManager true true).isManaged (dualNode "1" "4") = true ∧
      (defaultManager true true).nodeToLease (dualNode "1" "2") = .ok (dualLease "1" "2") ∧
      (defaultManager true true).nodeToLease (dualNode "1" "4") = .ok (dualLease "1" "4") ∧
      (defaultManager true true).Differs (dualLease "1" "2") (dualLease "1" "4") ∧
      (defaultManager true true).handleUpdateLeaseEvent (dualNode "1" "2") (dualNode "1" "4") =
        none := by
  refine ⟨?_, ?_, ?_, ?_, .inr (.inr ⟨rfl, .inl (by decide)⟩), ?_⟩ <;> decide

end Flannel.Kube
