import Flannel.Leases.Core

/-!
# The masquerading rules of the two traffic managers

`masqRules` and `masqIP6Rules` of the iptables manager, and `addMasqRules` of the
nftables manager. Rules are the texts handed to the tools.
-/

namespace Flannel.Traffic

open Ip Leases

structure IPTablesRule where
  table : String
  action : String
  chain : String
  rulespec : List String
  deriving DecidableEq

def kubeProxyMark : String :=
  "0x4000/0x4000"

def natRule (chain : String) (rulespec : List String) : IPTablesRule :=
  ⟨"nat", "-A", chain, rulespec⟩

def commented (target : List String) : List String :=
  ["-m", "comment", "--comment", "flanneld masq", "-j"] ++ target

def masqRulesFor (cluster_cidr pod_cidr multicast : String) (randomFully : Bool) :
    List IPTablesRule :=
  let masquerade := if randomFully then ["MASQUERADE", "--random-fully"] else ["MASQUERADE"]
  [natRule "POSTROUTING" (commented ["FLANNEL-POSTRTG"]),
    natRule "FLANNEL-POSTRTG" (["-m", "mark", "--mark", kubeProxyMark] ++ commented ["RETURN"]),
    natRule "FLANNEL-POSTRTG" (["-s", pod_cidr, "-d", cluster_cidr] ++ commented ["RETURN"]),
    natRule "FLANNEL-POSTRTG" (["-s", cluster_cidr, "-d", pod_cidr] ++ commented ["RETURN"]),
    natRule "FLANNEL-POSTRTG" (["!", "-s", cluster_cidr, "-d", pod_cidr] ++ commented ["RETURN"]),
    natRule "FLANNEL-POSTRTG" (["-s", cluster_cidr, "!", "-d", multicast] ++ commented masquerade),
    natRule "FLANNEL-POSTRTG"
      (["!", "-s", cluster_cidr, "-d", cluster_cidr] ++ commented masquerade)]

def masqRules (ccidr : IP4Net) (lease : Lease)
    (supports_random_fully ipMasqRandomFullyDisable : Bool) : List IPTablesRule :=
  masqRulesFor ccidr.string lease.subnet.string "224.0.0.0/4"
    (supports_random_fully && !ipMasqRandomFullyDisable)

def masqIP6Rules (ccidr : IP6Net) (lease : Lease)
    (supports_random_fully ipMasqRandomFullyDisable : Bool) : Option (List IPTablesRule) := do
  let cluster_cidr ← ccidr.string
  let pod_cidr ← lease.ipv6Subnet.string
  some (masqRulesFor cluster_cidr pod_cidr "ff00::/8"
    (supports_random_fully && !ipMasqRandomFullyDisable))

inductive Family
  | ipv4
  | ipv6
  deriving DecidableEq

def Family.keyword : Family → String
  | .ipv4 => "ip"
  | .ipv6 => "ip6"

/-- `addMasqRules`: the rules added to the chain `postrtg`, each as the list of
texts that `knftables.Concat` joins with blanks. -/
def addMasqRules (clusterCidr podCidr : String) (family : Family)
    (randomfully ipMasqRandomFullyDisable : Bool) : List (List String) :=
  let masquerade :=
    if !randomfully || ipMasqRandomFullyDisable then "masquerade" else "masquerade fully-random"
  let multicastCidr := if family = .ipv6 then "ff00::/8" else "224.0.0.0/4"
  let fam := family.keyword
  [["meta mark", "0x4000", "return"],
    [fam, "saddr", podCidr, fam, "daddr", clusterCidr, "return"],
    [fam, "saddr", clusterCidr, fam, "daddr", podCidr, "return"],
    [fam, "saddr", "!=", podCidr, fam, "daddr", clusterCidr, "return"],
    [fam, "saddr", clusterCidr, fam, "daddr", "!=", multicastCidr, masquerade],
    [fam, "saddr", "!=", clusterCidr, fam, "daddr", clusterCidr, masquerade]]

end Flannel.Traffic
