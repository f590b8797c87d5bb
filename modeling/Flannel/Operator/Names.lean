import Mathlib.Data.List.Infix

/-!
# Names of the resources of a cluster

The names of connectors, the comments of routes, and the beginnings by which the operator knows
its own. Names are sequences of bytes; one that is too long is cut and ends with a digest of the
whole.
-/

namespace Flannel.Operator

abbrev Text := List UInt8

def bytes (literal : String) : Text :=
  literal.toUTF8.data.toList

def hasStart (text start : Text) : Bool :=
  start.isPrefixOf text

theorem hasStart_iff {text start : Text} : hasStart text start ↔ start <+: text :=
  List.isPrefixOf_iff_prefix

-- `digest` stands for the first twelve hexadecimal digits of the SHA-256 sum.
variable (digest : Text → Text)

def boundedName (value : Text) (limit : Nat) : Text :=
  if value.length ≤ limit then value
  else value.take (limit - (digest value).length - 1) ++ bytes "-" ++ digest value

theorem hasStart_boundedName {value start : Text} {limit : Nat}
    (fits : start.length ≤ limit - (digest value).length - 1) :
    hasStart (boundedName digest value limit) start = hasStart value start := by
  rw [boundedName]
  split
  · rfl
  next long =>
    have inTake : start.length ≤ (value.take (limit - (digest value).length - 1)).length := by
      rw [List.length_take]
      omega
    rw [Bool.eq_iff_iff, hasStart_iff, hasStart_iff, List.append_assoc,
      List.isPrefix_append_of_length inTake, List.prefix_take_iff]
    exact and_iff_left fits

def connectorNamePrefix (connectorPrefix clusterName : Text) : Text :=
  connectorPrefix ++ clusterName ++ bytes "-"

def connectorName (connectorPrefix clusterName nodeName : Text) : Text :=
  boundedName digest (connectorNamePrefix connectorPrefix clusterName ++ nodeName) 64

def routeCommentPrefix (clusterName : Text) : Text :=
  bytes "flannel:" ++ clusterName ++ bytes ":"

def routeComment (clusterName nodeName network : Text) : Text :=
  boundedName digest
    (bytes "flannel:" ++ clusterName ++ bytes ":" ++ nodeName ++ bytes ":" ++ network) 100

end Flannel.Operator
