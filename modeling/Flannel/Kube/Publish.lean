import Flannel.Ip.Prefix
import Flannel.Kube.Annotations

/-!
# Publishing a lease in the annotations

`AcquireLease` writes the attributes of the own lease into the annotations of the node, and the
peers read them back by `nodeToLease`. The writer patches only if a test finds a difference, each
family under conditions of its own, and the reader selects the pod CIDRs by loops of its own. What
one publishes the others nevertheless read.
-/

namespace Flannel.Kube

open Ip Leases Net Subnet

/-! ## Containment -/

def containsCIDR (ipnet1 ipnet2 : IPNet) : Bool :=
  decide (ipnet1.ones ≤ ipnet2.ones) && ipnet1.contains ipnet2.ip

theorem containsCIDR_toIPNet {n other : IP4Net} (valid : n.prefixLen ≤ 32)
    (validOther : other.prefixLen ≤ 32) :
    containsCIDR n.toIPNet other.toIPNet = n.containsCIDR other := by
  have masks : decide (n.mask ≤ other.mask) = decide (n.prefixLen ≤ other.prefixLen) := by
    rw [IP4Net.mask, IP4Net.mask, if_pos valid, if_pos validOther, decide_eq_decide,
      cidrMask_le_iff valid validOther]
  rw [IP4Net.containsCIDR, masks, IP4Net.contains, IP4Net.mask, if_pos valid]
  rfl

/-- The operations of IPv4 networks have the meaning of prefixes, and the manager's containment is
the same. -/
structure IP4PrefixSemantics (n m : IP4Net) (a : IP4) : Prop where
  contains : n.contains a = true ↔ a ∈ sharing n.prefixLen n.ip
  symmetric : n.overlaps m = m.overlaps n
  overlaps : n.overlaps m = true ↔
    (sharing n.prefixLen n.ip ∩ sharing m.prefixLen m.ip).Nonempty
  containsCIDR : n.containsCIDR m = true ↔
    sharing m.prefixLen m.ip ⊆ sharing n.prefixLen n.ip
  agrees : n.containsCIDR m = Kube.containsCIDR n.toIPNet m.toIPNet
  comparable : n.overlaps m = true → n.containsCIDR m = true ∨ m.containsCIDR n = true
  idempotent : n.network.network = n.network
  preserved : sharing n.network.prefixLen n.network.ip = sharing n.prefixLen n.ip

theorem ip4PrefixSemantics {n m : IP4Net} (valid : n.prefixLen ≤ 32) (validOther : m.prefixLen ≤ 32)
    (a : IP4) : IP4PrefixSemantics n m a where
  contains := IP4Net.contains_iff valid a
  symmetric := by
    rw [Bool.eq_iff_iff, IP4Net.overlaps_iff_sharing valid validOther,
      IP4Net.overlaps_iff_sharing validOther valid, Set.inter_comm]
  overlaps := IP4Net.overlaps_iff_sharing valid validOther
  containsCIDR := IP4Net.containsCIDR_iff_subset valid validOther
  agrees := (containsCIDR_toIPNet valid validOther).symm
  comparable := IP4Net.comparable_of_overlaps valid validOther
  idempotent := IP4Net.network_network n
  preserved := IP4Net.sharing_network valid

theorem ip4PrefixSemantics_of_all :
    IP4PrefixSemantics ⟨0x0a010203, 0⟩ ⟨0x0a010203, 32⟩ 0xffffffff :=
  ip4PrefixSemantics (by decide) (by decide) 0xffffffff

/-! ## The manager that publishes -/

structure Publisher where
  enableIPv4 : Bool
  enableIPv6 : Bool
  annotations : AllAnnotations
  annotationPrefix : String
  nodeName : String
  subnetConf : Config
  deriving DecidableEq

def newKubeSubnetManager (sc : Config) (nodeName annotationPrefix : String) :
    Except String Publisher := do
  let annotations ← newAnnotations annotationPrefix
  .ok
    { enableIPv4 := sc.enableIPv4
      enableIPv6 := sc.enableIPv6
      annotations := annotations
      annotationPrefix := annotationPrefix
      nodeName := nodeName
      subnetConf := sc }

def Node.annotate (n : Node) (key value : String) : Node :=
  { n with annotations := (key, value) :: n.annotations }

def rawText (data : Option String) : String :=
  data.getD "null"

def Node.cidrTexts (n : Node) : List String :=
  if n.podCIDRs.length = 0 then [n.podCIDR] else n.podCIDRs

def assignCidrs : List String → Option IPNet × Option IPNet →
    Except String (Option IPNet × Option IPNet)
  | [], found => .ok found
  | podCidr :: rest, (cidr, ipv6Cidr) =>
    match parseCIDR podCidr with
    | none => .error ("invalid CIDR address: " ++ podCidr)
    | some parseCidr =>
      match parseCidr.ip with
      | .v4 _ => assignCidrs rest (some parseCidr, ipv6Cidr)
      | .v16 _ => assignCidrs rest (cidr, some parseCidr)

namespace Publisher

def manager (p : Publisher) (nodeName : String) : KubeSubnetManager :=
  ⟨p.enableIPv4, p.enableIPv6, p.annotations.toAnnotations, nodeName⟩

def podCidrs (p : Publisher) (n : Node) : Except String (Option IPNet × Option IPNet) :=
  if n.podCIDRs.length < 3 then assignCidrs n.cidrTexts (none, none)
  else
    .error ("node \"" ++ p.nodeName ++ "\" pod cidrs should be IPv4/IPv6 only or dualstack")

def changedIPv4 (p : Publisher) (n : Node) (attrs : LeaseAttrs) : Bool :=
  n.annotation p.annotations.backendData != rawText attrs.backendData ||
    n.annotation p.annotations.backendType != attrs.backendType ||
    n.annotation p.annotations.backendPublicIP != IP4.string attrs.publicIP ||
    n.annotation p.annotations.subnetKubeManaged != "true" ||
    (n.annotation p.annotations.backendPublicIPOverwrite != "" &&
      n.annotation p.annotations.backendPublicIPOverwrite != IP4.string attrs.publicIP)

def changedIPv6 (p : Publisher) (n : Node) (attrs : LeaseAttrs) (publicIPv6 : IP6) : Option Bool :=
  if n.annotation p.annotations.backendV6Data != rawText attrs.backendV6Data ||
      n.annotation p.annotations.backendType != attrs.backendType then some true
  else do
    let text ← IP6.string publicIPv6
    some (n.annotation p.annotations.backendPublicIPv6 != text ||
      n.annotation p.annotations.subnetKubeManaged != "true" ||
      (n.annotation p.annotations.backendPublicIPv6Overwrite != "" &&
        n.annotation p.annotations.backendPublicIPv6Overwrite != text))

def changed (p : Publisher) (n : Node) (attrs : LeaseAttrs) : Option Bool :=
  if p.changedIPv4 n attrs then some true
  else
    match attrs.publicIPv6 with
    | none => some false
    | some publicIPv6 => p.changedIPv6 n attrs publicIPv6

def writesIPv4 (attrs : LeaseAttrs) : Bool :=
  (attrs.backendType == "vxlan" && rawText attrs.backendData != "null") ||
    (attrs.backendType == "wireguard" && rawText attrs.backendData != "null") ||
    attrs.backendType != "vxlan"

def writesIPv6 (attrs : LeaseAttrs) : Bool :=
  (attrs.backendType == "vxlan" && rawText attrs.backendV6Data != "null") ||
    (attrs.backendType == "wireguard" && rawText attrs.backendV6Data != "null" &&
      attrs.publicIPv6.isSome) ||
    (attrs.backendType == "host-gw" && attrs.publicIPv6.isSome) ||
    (attrs.backendType == "extension" && attrs.publicIPv6.isSome)

/-- The data and the public address of one family; the overwrite annotation comes before the
address of the attributes. -/
def write (n : Node) (dataKey publicKey overwriteKey data : String) (address : Option String) :
    Option Node :=
  let n := n.annotate dataKey data
  if n.annotation overwriteKey != "" then
    if n.annotation publicKey != n.annotation overwriteKey then
      some (n.annotate publicKey (n.annotation overwriteKey))
    else some n
  else address.map (n.annotate publicKey)

def writeIPv4 (p : Publisher) (n : Node) (attrs : LeaseAttrs) : Option Node :=
  if writesIPv4 attrs then
    write n p.annotations.backendData p.annotations.backendPublicIP
      p.annotations.backendPublicIPOverwrite (rawText attrs.backendData)
      (some (IP4.string attrs.publicIP))
  else some n

def writeIPv6 (p : Publisher) (n : Node) (attrs : LeaseAttrs) : Option Node :=
  if writesIPv6 attrs then
    write n p.annotations.backendV6Data p.annotations.backendPublicIPv6
      p.annotations.backendPublicIPv6Overwrite (rawText attrs.backendV6Data)
      (attrs.publicIPv6.bind IP6.string)
  else some n

def annotated (p : Publisher) (n : Node) (attrs : LeaseAttrs) : Option Node := do
  let n := n.annotate p.annotations.backendType attrs.backendType
  let n ← p.writeIPv4 n attrs
  let n ← p.writeIPv6 n attrs
  some (n.annotate p.annotations.subnetKubeManaged "true")

def leaseSubnet (p : Publisher) : Option IPNet → Option (Except String IP4Net)
  | none => some (.ok ⟨0, 0⟩)
  | some cidr =>
    if p.enableIPv4 then
      if p.subnetConf.network.empty || !containsCIDR p.subnetConf.network.toIPNet cidr then
        some (.error ("subnet \"" ++ p.subnetConf.network.string ++
          "\" specified in the flannel net config doesn't contain \"" ++ cidr.string ++
          "\" PodCIDR of the \"" ++ p.nodeName ++ "\" node"))
      else (IP4Net.fromIPNet cidr).map .ok
    else some (.ok ⟨0, 0⟩)

/-- The error for a pod CIDR outside of the IPv6 network; a nil address makes `fmt` report the
panic. -/
def outsideIPv6 (p : Publisher) (cidr : IPNet) : String :=
  "subnet " ++ (p.subnetConf.ipv6Network.string.map fun text => "\"" ++ text ++ "\"").getD
      ("%!q(PANIC=String method: runtime error: " ++
        "invalid memory address or nil pointer dereference)") ++
    " specified in the flannel net config doesn't contain \"" ++ cidr.string ++
    "\" IPv6 PodCIDR of the \"" ++ p.nodeName ++ "\" node"

def leaseIPv6Subnet (p : Publisher) : Option IPNet → Option (Except String IP6Net)
  | none => some (.ok IP6Net.zero)
  | some cidr =>
    if p.enableIPv6 then
      if p.subnetConf.ipv6Network.empty then some (.error (p.outsideIPv6 cidr))
      else do
        let network ← p.subnetConf.ipv6Network.toIPNet
        if containsCIDR network cidr then some (.ok (IP6Net.fromIP6Net cidr))
        else some (.error (p.outsideIPv6 cidr))
    else some (.ok IP6Net.zero)

def leaseOf (p : Publisher) (now : Time) (attrs : LeaseAttrs) (cidr ipv6Cidr : Option IPNet) :
    Option (Except String Lease) := do
  match ← p.leaseSubnet cidr with
  | .error message => some (.error message)
  | .ok subnet =>
    match ← p.leaseIPv6Subnet ipv6Cidr with
    | .error message => some (.error message)
    | .ok ipv6Subnet =>
      -- The other backends have no dual stack.
      let single := attrs.backendType != "vxlan" && attrs.backendType != "host-gw" &&
        attrs.backendType != "wireguard"
      some (.ok
        { enableIPv4 := single
          enableIPv6 := false
          subnet := subnet
          ipv6Subnet := ipv6Subnet
          attrs := attrs
          expiration := now + 24 * 3600 * 1000000000
          asof := 0 })

def timeout (p : Publisher) (waitErr : String) : String :=
  "timeout contacting kube-api, failed to patch node \"" ++ p.nodeName ++ "\". Error: " ++ waitErr

/-- `AcquireLease`, with the errors of the two polls. The node is returned as it is afterwards; a nil
address that is printed is a panic. -/
def acquireLease (p : Publisher) (getErr patchErr : Option String) (now : Time) (cachedNode : Node)
    (attrs : LeaseAttrs) : Option (Node × Except String Lease) :=
  match getErr with
  | some waitErr => some (cachedNode, .error (p.timeout waitErr))
  | none =>
    if cachedNode.podCIDR = "" then
      some (cachedNode, .error ("node \"" ++ p.nodeName ++ "\" pod cidr not assigned"))
    else
      match p.podCidrs cachedNode with
      | .error message => some (cachedNode, .error message)
      | .ok (cidr, ipv6Cidr) => do
        if ← p.changed cachedNode attrs then
          let n ← p.annotated cachedNode attrs
          match patchErr with
          | some waitErr => some (cachedNode, .error (p.timeout waitErr))
          | none => (p.leaseOf now attrs cidr ipv6Cidr).map (n, ·)
        else (p.leaseOf now attrs cidr ipv6Cidr).map (cachedNode, ·)

end Publisher

/-! ## The annotations that are written -/

section Annotate

variable {n n' : Node} {key key' value : String}

@[simp]
theorem annotation_annotate_self (n : Node) (key value : String) :
    Node.annotation (n.annotate key value) key = value := by
  simp [Node.annotation, Node.annotate]

theorem annotation_annotate_of_ne (other : key' ≠ key) :
    Node.annotation (n.annotate key value) key' = n.annotation key' := by
  have different : (key' == key) = false := by simpa using other
  simp [Node.annotation, Node.annotate, List.lookup_cons, different]

def chosen (overwrite : String) (address : Option String) : Option String :=
  if overwrite = "" then address else some overwrite

structure Part (writes : Bool) (dataKey publicKey overwriteKey data : String)
    (address : Option String) (n n' : Node) : Prop where
  data : writes = true → n'.annotation dataKey = data
  publicAddress : writes = true →
    chosen (n.annotation overwriteKey) address = some (n'.annotation publicKey)
  others : ∀ key, key ≠ dataKey → key ≠ publicKey → n'.annotation key = n.annotation key
  podCIDR : n'.podCIDR = n.podCIDR
  podCIDRs : n'.podCIDRs = n.podCIDRs

theorem part_of_write {dataKey publicKey overwriteKey data : String} {address : Option String}
    (dataPublic : dataKey ≠ publicKey) (overwriteData : overwriteKey ≠ dataKey)
    (result : Publisher.write n dataKey publicKey overwriteKey data address = some n') :
    Part true dataKey publicKey overwriteKey data address n n' := by
  have kept : Node.annotation (n.annotate dataKey data) overwriteKey = n.annotation overwriteKey :=
    annotation_annotate_of_ne overwriteData
  -- Every branch leaves the node with the data, or writes the public address over it.
  have assigned : ∀ text, chosen (n.annotation overwriteKey) address = some text →
      Part true dataKey publicKey overwriteKey data address n
        ((n.annotate dataKey data).annotate publicKey text) := by
    intro text isText
    constructor
    · intro _
      rw [annotation_annotate_of_ne dataPublic, annotation_annotate_self]
    · intro _
      rw [annotation_annotate_self, isText]
    · intro key notData notPublic
      rw [annotation_annotate_of_ne notPublic, annotation_annotate_of_ne notData]
    · rfl
    · rfl
  simp only [Publisher.write, kept] at result
  by_cases overwritten : n.annotation overwriteKey = ""
  · simp only [overwritten, bne_self_eq_false, Bool.false_eq_true, if_false,
      Option.map_eq_some_iff] at result
    obtain ⟨text, isText, rfl⟩ := result
    exact assigned text (by rw [chosen, if_pos overwritten, isText])
  · have isChosen : chosen (n.annotation overwriteKey) address = some (n.annotation overwriteKey) := by
      rw [chosen, if_neg overwritten]
    simp only [bne_iff_ne, ne_eq, overwritten, not_false_eq_true, if_true] at result
    split_ifs at result with same
    · obtain rfl := Option.some.inj result
      constructor
      · intro _
        exact annotation_annotate_self n dataKey data
      · intro _
        rw [same, isChosen]
      · intro key notData _
        exact annotation_annotate_of_ne notData
      · rfl
      · rfl
    · obtain rfl := Option.some.inj result
      exact assigned _ isChosen

end Annotate

structure Carries (p : Publisher) (attrs : LeaseAttrs) : Prop where
  backend : attrs.backendType = "vxlan" ∨ attrs.backendType = "host-gw" ∨
    attrs.backendType = "wireguard"
  backendData : p.enableIPv4 = true → attrs.backendType ≠ "host-gw" →
    rawText attrs.backendData ≠ "null"
  backendV6Data : p.enableIPv6 = true → attrs.backendType ≠ "host-gw" →
    rawText attrs.backendV6Data ≠ "null"
  publicIPv6 : p.enableIPv6 = true →
    ∃ publicIPv6, attrs.publicIPv6 = some publicIPv6 ∧ publicIPv6 < 2 ^ 128 ∧ ¬ FourByte publicIPv6

structure Published (p : Publisher) (attrs : LeaseAttrs) (cachedNode n : Node) : Prop where
  backendType : n.annotation p.annotations.backendType = attrs.backendType
  backendData : p.enableIPv4 = true →
    n.annotation p.annotations.backendData = rawText attrs.backendData
  publicIP : p.enableIPv4 = true →
    chosen (cachedNode.annotation p.annotations.backendPublicIPOverwrite)
      (some (IP4.string attrs.publicIP)) = some (n.annotation p.annotations.backendPublicIP)
  backendV6Data : p.enableIPv6 = true →
    n.annotation p.annotations.backendV6Data = rawText attrs.backendV6Data
  publicIPv6 : p.enableIPv6 = true →
    chosen (cachedNode.annotation p.annotations.backendPublicIPv6Overwrite)
      (attrs.publicIPv6.bind IP6.string) = some (n.annotation p.annotations.backendPublicIPv6)
  podCIDR : n.podCIDR = cachedNode.podCIDR
  podCIDRs : n.podCIDRs = cachedNode.podCIDRs

section Publishing

variable {p : Publisher} {attrs : LeaseAttrs} {cachedNode n n' : Node}

theorem writesIPv4_of_carries (carries : Carries p attrs) (enabled : p.enableIPv4) :
    Publisher.writesIPv4 attrs := by
  unfold Publisher.writesIPv4
  rcases carries.backend with backend | backend | backend
  · have carried := carries.backendData enabled (by rw [backend]; decide)
    simp [backend, carried]
  · simp [backend]
  · simp [backend]

theorem writesIPv6_of_carries (carries : Carries p attrs) (enabled : p.enableIPv6) :
    Publisher.writesIPv6 attrs := by
  obtain ⟨publicIPv6, isPublic, _⟩ := carries.publicIPv6 enabled
  unfold Publisher.writesIPv6
  rcases carries.backend with backend | backend | backend
  · have carried := carries.backendV6Data enabled (by rw [backend]; decide)
    simp [backend, carried]
  · simp [backend, isPublic]
  · have carried := carries.backendV6Data enabled (by rw [backend]; decide)
    simp [backend, carried, isPublic]

theorem part_of_ite {writes : Bool} {dataKey publicKey overwriteKey data : String}
    {address : Option String} (dataPublic : dataKey ≠ publicKey)
    (overwriteData : overwriteKey ≠ dataKey)
    (result : (if writes then Publisher.write n dataKey publicKey overwriteKey data address
      else some n) = some n') :
    Part writes dataKey publicKey overwriteKey data address n n' := by
  cases writes with
  | true => exact part_of_write dataPublic overwriteData result
  | false =>
    obtain rfl := Option.some.inj result
    exact ⟨fun writes => absurd writes Bool.false_ne_true,
      fun writes => absurd writes Bool.false_ne_true, fun _ _ _ => rfl, rfl, rfl⟩

theorem key_ne {start first second : String} (different : first ≠ second) :
    start ++ first ≠ start ++ second := by
  intro same
  apply different
  apply String.toList_inj.mp
  simpa using congrArg String.toList same

theorem published_of_annotated {start : String} (keys : p.annotations = annotationsOf start)
    (carries : Carries p attrs) (result : p.annotated cachedNode attrs = some n) :
    Published p attrs cachedNode n := by
  simp only [Publisher.annotated, Option.bind_eq_bind, Option.bind_eq_some_iff,
    Option.some.injEq] at result
  obtain ⟨first, ipv4, second, ipv6, rfl⟩ := result
  have part4 := part_of_ite (by rw [keys]; exact key_ne (by decide))
    (by rw [keys]; exact key_ne (by decide)) ipv4
  have part6 := part_of_ite (by rw [keys]; exact key_ne (by decide))
    (by rw [keys]; exact key_ne (by decide)) ipv6
  rw [keys] at part4 part6
  -- The parts, the type and the mark stand under different keys.
  have keeps4 := fun word data address => part4.others (start ++ word) (key_ne data) (key_ne address)
  have keeps6 := fun word data address => part6.others (start ++ word) (key_ne data) (key_ne address)
  have marked : ∀ word, word ≠ "kube-subnet-manager" →
      Node.annotation (second.annotate (start ++ "kube-subnet-manager") "true") (start ++ word) =
        second.annotation (start ++ word) :=
    fun word other => annotation_annotate_of_ne (key_ne other)
  have typed : ∀ word, word ≠ "backend-type" →
      Node.annotation (cachedNode.annotate (start ++ "backend-type") attrs.backendType)
          (start ++ word) =
        cachedNode.annotation (start ++ word) :=
    fun word other => annotation_annotate_of_ne (key_ne other)
  constructor
  · rw [keys]
    calc
      _ = second.annotation (start ++ "backend-type") := marked _ (by decide)
      _ = first.annotation (start ++ "backend-type") := keeps6 _ (by decide) (by decide)
      _ = _ := keeps4 _ (by decide) (by decide)
      _ = attrs.backendType := annotation_annotate_self _ _ _
  · intro enabled
    rw [keys]
    calc
      _ = second.annotation (start ++ "backend-data") := marked _ (by decide)
      _ = first.annotation (start ++ "backend-data") := keeps6 _ (by decide) (by decide)
      _ = rawText attrs.backendData := part4.data (writesIPv4_of_carries carries enabled)
  · intro enabled
    rw [keys]
    calc
      _ = chosen _ (some (IP4.string attrs.publicIP)) :=
          congrArg (fun overwrite => chosen overwrite (some (IP4.string attrs.publicIP)))
            (typed "public-ip-overwrite" (by decide)).symm
      _ = some (first.annotation (start ++ "public-ip")) :=
          part4.publicAddress (writesIPv4_of_carries carries enabled)
      _ = some (second.annotation (start ++ "public-ip")) :=
          congrArg some (keeps6 _ (by decide) (by decide)).symm
      _ = _ := congrArg some (marked _ (by decide)).symm
  · intro enabled
    rw [keys]
    calc
      _ = second.annotation (start ++ "backend-v6-data") := marked _ (by decide)
      _ = rawText attrs.backendV6Data := part6.data (writesIPv6_of_carries carries enabled)
  · intro enabled
    have overwrite := (keeps4 "public-ipv6-overwrite" (by decide) (by decide)).trans
      (typed _ (by decide))
    rw [keys]
    calc
      _ = chosen _ (attrs.publicIPv6.bind IP6.string) :=
          congrArg (fun overwrite => chosen overwrite (attrs.publicIPv6.bind IP6.string))
            overwrite.symm
      _ = some (second.annotation (start ++ "public-ipv6")) :=
          part6.publicAddress (writesIPv6_of_carries carries enabled)
      _ = _ := congrArg some (marked _ (by decide)).symm
  · exact part6.podCIDR.trans part4.podCIDR
  · exact part6.podCIDRs.trans part4.podCIDRs

theorem published_of_not_changed (carries : Carries p attrs)
    (same : p.changed cachedNode attrs = some false) : Published p attrs cachedNode cachedNode := by
  have changed4 : p.changedIPv4 cachedNode attrs = false := by
    cases changed4 : p.changedIPv4 cachedNode attrs with
    | true =>
      rw [Publisher.changed, if_pos changed4] at same
      cases same
    | false => rfl
  simp only [Publisher.changed, changed4, Bool.false_eq_true, if_false] at same
  simp only [Publisher.changedIPv4, Bool.or_eq_false_iff, bne_eq_false_iff_eq,
    Bool.and_eq_false_imp, bne_iff_ne, ne_eq] at changed4
  obtain ⟨⟨⟨⟨data, type⟩, publicIP⟩, _⟩, overwrite⟩ := changed4
  have ipv6 : p.enableIPv6 →
      cachedNode.annotation p.annotations.backendV6Data = rawText attrs.backendV6Data ∧
        chosen (cachedNode.annotation p.annotations.backendPublicIPv6Overwrite)
          (attrs.publicIPv6.bind IP6.string) =
          some (cachedNode.annotation p.annotations.backendPublicIPv6) := by
    intro enabled
    obtain ⟨publicIPv6, isPublic, _⟩ := carries.publicIPv6 enabled
    simp only [isPublic, Publisher.changedIPv6, type, bne_self_eq_false, Bool.or_false] at same
    by_cases data6 : cachedNode.annotation p.annotations.backendV6Data = rawText attrs.backendV6Data
    swap
    · rw [if_pos (bne_iff_ne.mpr data6)] at same
      cases same
    simp only [data6, bne_self_eq_false, Bool.false_eq_true, if_false, Option.bind_eq_bind, Option.bind_eq_some_iff, Option.some.injEq, Bool.or_eq_false_iff,
      bne_eq_false_iff_eq, Bool.and_eq_false_imp, bne_iff_ne, ne_eq] at same
    obtain ⟨text, isText, ⟨publicText, _⟩, overwrite6⟩ := same
    refine ⟨data6, ?_⟩
    rw [isPublic, chosen, Option.bind_some, isText, publicText]
    split_ifs with empty
    · rfl
    · rw [overwrite6 empty]
  constructor
  · exact type
  · exact fun _ => data
  · intro _
    rw [chosen, publicIP]
    split_ifs with empty
    · rfl
    · rw [overwrite empty]
  · exact fun enabled => (ipv6 enabled).1
  · exact fun enabled => (ipv6 enabled).2
  · rfl
  · rfl

end Publishing

/-! ## The pod CIDRs that are selected -/

def isIPv4 (net : IPNet) : Bool :=
  match net.ip with
  | .v4 _ => true
  | .v16 _ => false

section Cidrs

variable {texts : List String} {nets : List IPNet} {net : IPNet}

theorem getLast_cons_or (first : IPNet) (rest : List IPNet) (found : Option IPNet) :
    (first :: rest).getLast?.or found = rest.getLast?.or (some first) := by
  rw [List.getLast?_cons, Option.or_some]
  rfl

theorem assignCidrs_eq_ok {found result : Option IPNet × Option IPNet}
    (assigned : assignCidrs texts found = .ok result) :
    texts.map parseCIDR = (texts.filterMap parseCIDR).map some ∧
      result.1 = ((texts.filterMap parseCIDR).filter isIPv4).getLast?.or found.1 ∧
      result.2 = ((texts.filterMap parseCIDR).filter (!isIPv4 ·)).getLast?.or found.2 := by
  induction texts generalizing found with
  | nil =>
    cases assigned
    exact ⟨rfl, rfl, rfl⟩
  | cons podCidr rest ih =>
    obtain ⟨cidr, ipv6Cidr⟩ := found
    unfold assignCidrs at assigned
    cases parsed : parseCIDR podCidr with
    | none =>
      rw [parsed] at assigned
      cases assigned
    | some parseCidr =>
      rw [parsed] at assigned
      obtain ⟨ip, ones⟩ := parseCidr
      cases ip with
      | v4 bits =>
        obtain ⟨all, ipv4, ipv6⟩ := ih assigned
        rw [List.filterMap_cons_some parsed, List.filter_cons_of_pos rfl,
          List.filter_cons_of_neg (by simp [isIPv4]), getLast_cons_or]
        exact ⟨by rw [List.map_cons, List.map_cons, parsed, all], ipv4, ipv6⟩
      | v16 bits =>
        obtain ⟨all, ipv4, ipv6⟩ := ih assigned
        rw [List.filterMap_cons_some parsed, List.filter_cons_of_neg (by simp [isIPv4]),
          List.filter_cons_of_pos rfl, getLast_cons_or]
        exact ⟨by rw [List.map_cons, List.map_cons, parsed, all], ipv4, ipv6⟩

theorem findCidr_of_map {α : Type} {choose : IPNet → Option α}
    (parsed : texts.map parseCIDR = nets.map some) :
    findCidr choose texts = .ok (nets.findSome? choose) := by
  induction texts generalizing nets with
  | nil =>
    cases nets with
    | nil => rfl
    | cons net nets => cases parsed
  | cons podCidr rest ih =>
    cases nets with
    | nil => cases parsed
    | cons net nets =>
      obtain ⟨first, others⟩ := List.cons.inj parsed
      cases isChosen : choose net with
      | none =>
        simp only [findCidr, first, isChosen, List.findSome?_cons]
        exact ih others
      | some cidr => simp only [findCidr, first, isChosen, List.findSome?_cons]

theorem findSome_of_single {α : Type} {choose : IPNet → Option α} {keep : IPNet → Bool}
    (single : nets.filter keep = [net])
    (others : ∀ other ∈ nets, keep other = false → choose other = none) {a : α}
    (chosen : choose net = some a) : nets.findSome? choose = some a := by
  induction nets with
  | nil => cases single
  | cons first rest ih =>
    rw [List.findSome?_cons]
    cases kept : keep first with
    | true =>
      rw [List.filter_cons_of_pos kept] at single
      obtain ⟨rfl, _⟩ := List.cons.inj single
      rw [chosen]
    | false =>
      rw [others first (.head _) kept]
      rw [List.filter_cons_of_neg (by simp [kept])] at single
      exact ih single fun other member => others other (.tail first member)

end Cidrs

/-- The node has at most one CIDR of each family, none of them IPv4-mapped, and one of every
enabled family. -/
structure OnePerFamily (p : Publisher) (n : Node) : Prop where
  notMapped : ∀ net ∈ n.cidrTexts.filterMap parseCIDR, isIPv4 net = false → net.ip.to4 = none
  ipv4 : ((n.cidrTexts.filterMap parseCIDR).filter isIPv4).length ≤ 1
  ipv6 : ((n.cidrTexts.filterMap parseCIDR).filter (!isIPv4 ·)).length ≤ 1
  ipv4Present : p.enableIPv4 = true → ∃ net ∈ n.cidrTexts.filterMap parseCIDR, isIPv4 net = true
  ipv6Present : p.enableIPv6 = true → ∃ net ∈ n.cidrTexts.filterMap parseCIDR, isIPv4 net = false

structure ValidOverwrites (p : Publisher) (n : Node) : Prop where
  ipv4 : p.enableIPv4 = true → n.annotation p.annotations.backendPublicIPOverwrite ≠ "" →
    ∃ ip, parseIP4 (n.annotation p.annotations.backendPublicIPOverwrite) = .ok ip
  ipv6 : p.enableIPv6 = true → n.annotation p.annotations.backendPublicIPv6Overwrite ≠ "" →
    ∃ ip6, parseIP6 (n.annotation p.annotations.backendPublicIPv6Overwrite) = .ok ip6

/-- The lease that a peer reads says for the enabled families what was published. -/
structure ReadsBack (p : Publisher) (attrs : LeaseAttrs) (cachedNode : Node) (lease l : Lease) :
    Prop where
  backendType : l.attrs.backendType = attrs.backendType
  subnet : p.enableIPv4 = true → l.subnet = lease.subnet
  backendData : p.enableIPv4 = true → l.attrs.backendData = some (rawText attrs.backendData)
  publicIP : p.enableIPv4 = true →
    if cachedNode.annotation p.annotations.backendPublicIPOverwrite = "" then
      l.attrs.publicIP = attrs.publicIP
    else
      parseIP4 (cachedNode.annotation p.annotations.backendPublicIPOverwrite) =
        .ok l.attrs.publicIP
  ipv6Subnet : p.enableIPv6 = true → l.ipv6Subnet = lease.ipv6Subnet
  backendV6Data : p.enableIPv6 = true → l.attrs.backendV6Data = some (rawText attrs.backendV6Data)
  publicIPv6 : p.enableIPv6 = true →
    if cachedNode.annotation p.annotations.backendPublicIPv6Overwrite = "" then
      l.attrs.publicIPv6 = attrs.publicIPv6
    else
      (parseIP6 (cachedNode.annotation p.annotations.backendPublicIPv6Overwrite)).map some =
        .ok l.attrs.publicIPv6

section Reading

variable {p : Publisher} {attrs : LeaseAttrs} {cachedNode n : Node} {lease : Lease}
  {ksm : KubeSubnetManager}

theorem parseIP6_of_string {ip6 : IP6} {text : String} (small : ip6 < 2 ^ 128)
    (notFourByte : ¬ FourByte ip6) (isText : IP6.string ip6 = some text) :
    parseIP6 text = .ok ip6 := by
  have value : (BitVec.ofNat 128 ip6).toNat = ip6 := Nat.mod_eq_of_lt small
  rw [IP6.string, IP6.toIP, if_pos small] at isText
  obtain rfl := Option.some.inj isText
  rw [parseIP6, parseIP_string]
  apply congrArg Except.ok
  rw [← value] at notFourByte
  exact (toNat_shown_eq_iff.mpr notFourByte).trans value

theorem cidr_of_findCidr {α : Type} {choose : IPNet → Option α} {cidr : α} {missing : String}
    (few : n.podCIDRs.length < 3) (found : findCidr choose n.cidrTexts = .ok (some cidr)) :
    ksm.cidr n choose missing = .ok cidr := by
  unfold Node.cidrTexts at found
  unfold KubeSubnetManager.cidr
  split_ifs at found ⊢ with empty
  · rw [found]
    rfl
  · rw [found]
    rfl

theorem nodeToLease_of_parts {subnet : IP4Net} {ipv6Subnet : IP6Net}
    (ipv4 : ksm.enableIPv4 →
      (∃ ip, parseIP4 (n.annotation ksm.annotations.backendPublicIP) = .ok ip) ∧
        ksm.cidr n IP4Net.fromIPNet "missing IPv4 address on n.Spec.PodCIDRs" = .ok subnet)
    (ipv6 : ksm.enableIPv6 →
      (∃ ip6, parseIP6 (n.annotation ksm.annotations.backendPublicIPv6) = .ok ip6) ∧
        ksm.cidr n (fun cidr => if cidr.ip.to4 = none then some (IP6Net.fromIP6Net cidr) else none)
          "missing IPv6 address on n.Spec.PodCIDRs" = .ok ipv6Subnet) :
    ∃ l, ksm.nodeToLease n = .ok l ∧ (ksm.enableIPv4 → l.subnet = subnet) ∧
      (ksm.enableIPv6 → l.ipv6Subnet = ipv6Subnet) := by
  have first : ∀ start : Lease, ∃ l, ksm.fillIPv4 n start = .ok l ∧
      (ksm.enableIPv4 → l.subnet = subnet) := by
    intro start
    unfold KubeSubnetManager.fillIPv4
    split_ifs with enabled
    · obtain ⟨⟨ip, parsed⟩, found⟩ := ipv4 enabled
      rw [parsed, found]
      exact ⟨_, rfl, fun _ => rfl⟩
    · exact ⟨start, rfl, fun enabled' => absurd enabled' enabled⟩
  have second : ∀ start : Lease, ∃ l, ksm.fillIPv6 n start = .ok l ∧ l.subnet = start.subnet ∧
      (ksm.enableIPv6 → l.ipv6Subnet = ipv6Subnet) := by
    intro start
    unfold KubeSubnetManager.fillIPv6
    split_ifs with enabled
    · obtain ⟨⟨ip6, parsed⟩, found⟩ := ipv6 enabled
      rw [parsed, found]
      exact ⟨_, rfl, rfl, fun _ => rfl⟩
    · exact ⟨start, rfl, rfl, fun enabled' => absurd enabled' enabled⟩
  obtain ⟨l, filled, isSubnet⟩ := first ⟨false, false, ⟨0, 0⟩, IP6Net.zero, LeaseAttrs.zero, 0, 0⟩
  obtain ⟨l', filled', kept, isIPv6Subnet⟩ := second l
  refine ⟨{ l' with attrs := { l'.attrs with
    backendType := n.annotation ksm.annotations.backendType } }, ?_, ?_, isIPv6Subnet⟩
  · rw [KubeSubnetManager.nodeToLease, filled]
    simp only [bind, Except.bind, filled']
  · exact fun enabled => kept.trans (isSubnet enabled)

theorem filter_eq_singleton {nets : List IPNet} {keep : IPNet → Bool}
    (atMost : (nets.filter keep).length ≤ 1) (present : ∃ net ∈ nets, keep net) :
    ∃ net ∈ nets, keep net ∧ nets.filter keep = [net] := by
  obtain ⟨net, member, kept⟩ := present
  have inFilter : net ∈ nets.filter keep := List.mem_filter.mpr ⟨member, kept⟩
  have positive := List.length_pos_of_mem inFilter
  have single : (nets.filter keep).length = 1 := by omega
  obtain ⟨only, isOnly⟩ := List.length_eq_one_iff.mp single
  rw [isOnly, List.mem_singleton] at inFilter
  exact ⟨net, member, kept, inFilter ▸ isOnly⟩

theorem leaseSubnet_eq_ok {cidr : IPNet} {subnet : IP4Net} (enabled : p.enableIPv4)
    (result : p.leaseSubnet (some cidr) = some (.ok subnet)) :
    IP4Net.fromIPNet cidr = some subnet := by
  rw [Publisher.leaseSubnet, if_pos enabled] at result
  split_ifs at result
  · cases result
  · obtain ⟨_, isSubnet, same⟩ := Option.map_eq_some_iff.mp result
    cases same
    exact isSubnet

theorem leaseIPv6Subnet_eq_ok {cidr : IPNet} {ipv6Subnet : IP6Net} (enabled : p.enableIPv6)
    (result : p.leaseIPv6Subnet (some cidr) = some (.ok ipv6Subnet)) :
    IP6Net.fromIP6Net cidr = ipv6Subnet := by
  rw [Publisher.leaseIPv6Subnet, if_pos enabled] at result
  split_ifs at result
  · cases result
  · obtain ⟨network, _, result⟩ := Option.bind_eq_some_iff.mp result
    split_ifs at result
    · cases result
      rfl
    · cases result

theorem leaseOf_eq_ok {now : Time} {cidr ipv6Cidr : Option IPNet}
    (result : p.leaseOf now attrs cidr ipv6Cidr = some (.ok lease)) :
    p.leaseSubnet cidr = some (.ok lease.subnet) ∧
      p.leaseIPv6Subnet ipv6Cidr = some (.ok lease.ipv6Subnet) := by
  simp only [Publisher.leaseOf, Option.bind_eq_bind, Option.bind_eq_some_iff] at result
  obtain ⟨first, isFirst, result⟩ := result
  cases first with
  | error message => cases result
  | ok subnet =>
    simp only [Option.bind_eq_some_iff] at result
    obtain ⟨second, isSecond, result⟩ := result
    cases second with
    | error message => cases result
    | ok ipv6Subnet =>
      cases result
      exact ⟨isFirst, isSecond⟩

theorem acquireLease_eq_ok {start : String} (keys : p.annotations = annotationsOf start)
    {getErr patchErr : Option String} {now : Time} (carries : Carries p attrs)
    (acquired : p.acquireLease getErr patchErr now cachedNode attrs = some (n, .ok lease)) :
    Published p attrs cachedNode n ∧ ∃ cidr ipv6Cidr,
      p.podCidrs cachedNode = .ok (cidr, ipv6Cidr) ∧
        p.leaseSubnet cidr = some (.ok lease.subnet) ∧
        p.leaseIPv6Subnet ipv6Cidr = some (.ok lease.ipv6Subnet) := by
  unfold Publisher.acquireLease at acquired
  cases getErr with
  | some waitErr => cases acquired
  | none =>
    simp only at acquired
    split_ifs at acquired
    · cases acquired
    · cases found : p.podCidrs cachedNode with
      | error message =>
        rw [found] at acquired
        cases acquired
      | ok cidrs =>
        obtain ⟨cidr, ipv6Cidr⟩ := cidrs
        simp only [found, Option.bind_eq_bind, Option.bind_eq_some_iff] at acquired
        obtain ⟨changed, isChanged, acquired⟩ := acquired
        cases changed with
        | false =>
          obtain ⟨_, isLease, same⟩ := Option.map_eq_some_iff.mp acquired
          cases same
          exact ⟨published_of_not_changed carries isChanged, cidr, ipv6Cidr, rfl,
            leaseOf_eq_ok isLease⟩
        | true =>
          obtain ⟨annotated, isAnnotated, acquired⟩ := Option.bind_eq_some_iff.mp acquired
          cases patchErr with
          | some waitErr => cases acquired
          | none =>
            obtain ⟨_, isLease, same⟩ := Option.map_eq_some_iff.mp acquired
            cases same
            exact ⟨published_of_annotated keys carries isAnnotated, cidr, ipv6Cidr, rfl,
              leaseOf_eq_ok isLease⟩

theorem keys_of_newKubeSubnetManager {sc : Config} {nodeName annotationPrefix : String}
    (made : newKubeSubnetManager sc nodeName annotationPrefix = .ok p) :
    p.annotations = annotationsOf (String.ofList (completed annotationPrefix)) := by
  simp only [newKubeSubnetManager, bind_eq_ok_iff] at made
  obtain ⟨annotations, accepted, result⟩ := made
  cases result
  exact (keys_of_newAnnotations accepted).1

theorem parse_chosen {α : Type} {parse : String → Except String α} {overwrite text : String}
    {address : Option String} {value : α} (isChosen : chosen overwrite address = some text)
    (printed : ∀ text, address = some text → parse text = .ok value)
    (valid : overwrite ≠ "" → ∃ value, parse overwrite = .ok value) :
    ∃ result, parse text = .ok result ∧
      if overwrite = "" then result = value else parse overwrite = .ok result := by
  unfold chosen at isChosen
  split_ifs at isChosen ⊢ with empty
  · exact ⟨value, printed text isChosen, rfl⟩
  · obtain rfl := Option.some.inj isChosen
    obtain ⟨result, parsed⟩ := valid empty
    exact ⟨result, parsed, parsed⟩

theorem findCidr_of_podCidrs {cidr ipv6Cidr : Option IPNet}
    (onePerFamily : OnePerFamily p cachedNode)
    (found : p.podCidrs cachedNode = .ok (cidr, ipv6Cidr))
    (isSubnet : p.leaseSubnet cidr = some (.ok lease.subnet))
    (isIPv6Subnet : p.leaseIPv6Subnet ipv6Cidr = some (.ok lease.ipv6Subnet)) :
    cachedNode.podCIDRs.length < 3 ∧
      (p.enableIPv4 →
        findCidr IP4Net.fromIPNet cachedNode.cidrTexts = .ok (some lease.subnet)) ∧
      (p.enableIPv6 →
        findCidr (fun cidr => if cidr.ip.to4 = none then some (IP6Net.fromIP6Net cidr) else none)
          cachedNode.cidrTexts = .ok (some lease.ipv6Subnet)) := by
  unfold Publisher.podCidrs at found
  split_ifs at found with few
  obtain ⟨all, isCidr, isIPv6Cidr⟩ := assignCidrs_eq_ok found
  refine ⟨few, ?_, ?_⟩
  · intro enabled
    obtain ⟨net, _, _, single⟩ :=
      filter_eq_singleton onePerFamily.ipv4 (onePerFamily.ipv4Present enabled)
    rw [single] at isCidr
    obtain rfl : cidr = some net := isCidr
    rw [findCidr_of_map all]
    refine congrArg Except.ok (findSome_of_single single ?_ (leaseSubnet_eq_ok enabled isSubnet))
    intro other isOther notIPv4
    rw [IP4Net.fromIPNet, fromIP, onePerFamily.notMapped other isOther notIPv4]
    rfl
  · intro enabled
    have present := onePerFamily.ipv6Present enabled
    simp only [← Bool.not_eq_true'] at present
    obtain ⟨net, isNet, kept, single⟩ := filter_eq_singleton onePerFamily.ipv6 present
    rw [single] at isIPv6Cidr
    obtain rfl : ipv6Cidr = some net := isIPv6Cidr
    rw [findCidr_of_map all]
    refine congrArg Except.ok (findSome_of_single single ?_ ?_)
    · intro other _ isIPv4
      obtain ⟨ip, ones⟩ := other
      cases ip with
      | v4 bits => rfl
      | v16 bits => cases isIPv4
    · rw [if_pos (onePerFamily.notMapped net isNet (Bool.not_eq_true' _ ▸ kept)),
        leaseIPv6Subnet_eq_ok enabled isIPv6Subnet]

/-- What a node publishes is what its peers read. -/
theorem nodeToLease_of_acquireLease {sc : Config} {nodeName annotationPrefix : String}
    (made : newKubeSubnetManager sc nodeName annotationPrefix = .ok p)
    (onePerFamily : OnePerFamily p cachedNode) (overwrites : ValidOverwrites p cachedNode)
    (carries : Carries p attrs) {getErr patchErr : Option String} {now : Time}
    (acquired : p.acquireLease getErr patchErr now cachedNode attrs = some (n, .ok lease))
    (peerName : String) :
    ∃ l, (p.manager peerName).nodeToLease n = .ok l ∧ ReadsBack p attrs cachedNode lease l := by
  obtain ⟨published, cidr, ipv6Cidr, found, isSubnet, isIPv6Subnet⟩ :=
    acquireLease_eq_ok (keys_of_newKubeSubnetManager made) carries acquired
  obtain ⟨few, find4, find6⟩ := findCidr_of_podCidrs onePerFamily found isSubnet isIPv6Subnet
  have texts : n.cidrTexts = cachedNode.cidrTexts := by
    rw [Node.cidrTexts, Node.cidrTexts, published.podCIDR, published.podCIDRs]
  rw [← published.podCIDRs] at few
  rw [← texts] at find4 find6
  have parse4 := fun enabled => parse_chosen (published.publicIP enabled)
    (fun text isText => (Option.some.inj isText) ▸ parseIP4_string attrs.publicIP)
    (overwrites.ipv4 enabled)
  have parse6 : p.enableIPv6 → ∃ result,
      parseIP6 (n.annotation p.annotations.backendPublicIPv6) = .ok result ∧
        if cachedNode.annotation p.annotations.backendPublicIPv6Overwrite = "" then
          attrs.publicIPv6 = some result
        else parseIP6 (cachedNode.annotation p.annotations.backendPublicIPv6Overwrite) =
          .ok result := by
    intro enabled
    obtain ⟨publicIPv6, isPublic, small, notFourByte⟩ := carries.publicIPv6 enabled
    have isChosen := published.publicIPv6 enabled
    rw [isPublic, Option.bind_some] at isChosen
    obtain ⟨result, parsed, isResult⟩ := parse_chosen isChosen
      (fun text isText => parseIP6_of_string small notFourByte isText) (overwrites.ipv6 enabled)
    refine ⟨result, parsed, ?_⟩
    split_ifs at isResult ⊢
    · rw [isPublic, isResult]
    · exact isResult
  obtain ⟨l, converted, sameSubnet, sameIPv6Subnet⟩ :=
    @nodeToLease_of_parts n (p.manager peerName) lease.subnet lease.ipv6Subnet
      (fun enabled => ⟨(parse4 enabled).imp fun _ parsed => parsed.1,
        cidr_of_findCidr few (find4 enabled)⟩)
      (fun enabled => ⟨(parse6 enabled).imp fun _ parsed => parsed.1,
        cidr_of_findCidr few (find6 enabled)⟩)
  have readFrom := KubeSubnetManager.readFrom_of_nodeToLease converted
  refine ⟨l, converted, ?_⟩
  constructor
  · exact readFrom.backendType.trans published.backendType
  · exact sameSubnet
  · intro enabled
    exact (readFrom.backendData enabled).trans (congrArg some (published.backendData enabled))
  · intro enabled
    obtain ⟨ip, parsed, isIP⟩ := parse4 enabled
    obtain rfl := Except.ok.inj (parsed.symm.trans (readFrom.publicIP enabled))
    exact isIP
  · exact sameIPv6Subnet
  · intro enabled
    exact (readFrom.backendV6Data enabled).trans (congrArg some (published.backendV6Data enabled))
  · intro enabled
    obtain ⟨ip6, parsed, isIP6⟩ := parse6 enabled
    have read := readFrom.publicIPv6 enabled
    change (parseIP6 (n.annotation p.annotations.backendPublicIPv6)).map some = _ at read
    rw [parsed] at read
    have isPublic : some ip6 = l.attrs.publicIPv6 := Except.ok.inj read
    rw [← isPublic]
    split_ifs at isIP6 ⊢
    · exact isIP6.symm
    · rw [isIP6]
      rfl

end Reading

def dualConfig : Config where
  enableIPv4 := true
  enableIPv6 := true
  network := ⟨0x0af40000, 16⟩
  ipv6Network := ⟨some 0xfd000010024400000000000000000000, 48⟩
  subnetMin := 0x0af40100
  subnetMax := 0x0af4ff00
  ipv6SubnetMin := some 0xfd000010024400010000000000000000
  ipv6SubnetMax := some 0xfd0000100244ffff0000000000000000
  subnetLen := 24
  ipv6SubnetLen := 64

def dualPublisher : Publisher where
  enableIPv4 := true
  enableIPv6 := true
  annotations := annotationsOf "flannel.alpha.coreos.com/"
  annotationPrefix := "flannel.alpha.coreos.com"
  nodeName := "worker-2"
  subnetConf := dualConfig

theorem newKubeSubnetManager_dual :
    newKubeSubnetManager dualConfig "worker-2" "flannel.alpha.coreos.com" = .ok dualPublisher := by
  have accepted : ∃ a, newAnnotations "flannel.alpha.coreos.com" = .ok a := by
    refine newAnnotations_eq_ok_iff.mpr ⟨by decide, ?_, ?_, by decide⟩
    · refine ⟨"flannel.alpha.coreo".toList, 's', "com".toList, by decide, ?_, by decide⟩
      decide
    · decide
  obtain ⟨a, accepted⟩ := accepted
  rw [newKubeSubnetManager, accepted, (keys_of_newAnnotations accepted).1]
  decide

def staleNode : Node :=
  (dualNode "1" "2").annotate "flannel.alpha.coreos.com/public-ip-overwrite" "203.0.113.7"

def renewedAttrs : LeaseAttrs :=
  ⟨0xc0a80002, some 0xfd000000000000000000000000000002, "vxlan", some "3", some "4"⟩

def renewedNode : Node :=
  (((((staleNode.annotate "flannel.alpha.coreos.com/backend-type" "vxlan").annotate
    "flannel.alpha.coreos.com/backend-data" "3").annotate
    "flannel.alpha.coreos.com/public-ip" "203.0.113.7").annotate
    "flannel.alpha.coreos.com/backend-v6-data" "4").annotate
    "flannel.alpha.coreos.com/public-ipv6" "fd00::2").annotate
    "flannel.alpha.coreos.com/kube-subnet-manager" "true"

def renewedLease : Lease :=
  ⟨false, false, ⟨0x0af40200, 24⟩, ⟨some 0xfd000010024400020000000000000000, 64⟩, renewedAttrs,
    86400000000000, 0⟩

theorem readsBack_of_stale :
    ∃ l, (dualPublisher.manager "worker-1").nodeToLease renewedNode = .ok l ∧
      ReadsBack dualPublisher renewedAttrs staleNode renewedLease l := by
  have acquired : dualPublisher.acquireLease none none 0 staleNode renewedAttrs =
      some (renewedNode, .ok renewedLease) := by
    decide
  refine nodeToLease_of_acquireLease newKubeSubnetManager_dual ?_ ?_ ?_ acquired "worker-1"
  · constructor <;> decide
  · constructor
    · exact fun _ _ => ⟨0xcb007107, by decide⟩
    · exact fun _ overwritten => absurd (by decide) overwritten
  · constructor
    · exact .inl rfl
    · decide
    · decide
    · refine fun _ => ⟨_, rfl, by decide, ?_⟩
      unfold FourByte
      decide

end Flannel.Kube
