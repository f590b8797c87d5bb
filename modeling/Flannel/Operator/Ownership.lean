import Flannel.Operator.Reconcile

/-!
# The beginnings of cut names

A name that is too long is cut and ends with a hyphen and twelve digits of its digest. The cut may
fall into the beginning by which the garbage collection knows its cluster; such a name has it no
more, except where the hyphen of the beginning is the first byte cut off.
-/

namespace Flannel.Operator

/-! ## Digests -/

def hexDigits : Text :=
  bytes "0123456789abcdef"

def hexDigit (n : Nat) : UInt8 :=
  hexDigits.getD n 48

def hex (sum : List UInt8) : Text :=
  sum.flatMap fun byte => [hexDigit (byte.toNat / 16), hexDigit (byte.toNat % 16)]

/-- The first twelve digits of a sum of 32 bytes; `sum256` stands for `sha256.Sum256`. -/
def sumDigest (sum256 : Text → Vector UInt8 32) (value : Text) : Text :=
  (hex (sum256 value).toList).take 12

theorem hexDigit_mem (n : Nat) : hexDigit n ∈ hexDigits := by
  rw [hexDigit, List.getD_eq_getElem?_getD]
  cases found : hexDigits[n]? with
  | none => decide
  | some digit => exact List.mem_of_getElem? found

theorem length_hex (sum : List UInt8) : (hex sum).length = 2 * sum.length := by
  induction sum with
  | nil => rfl
  | cons byte sum ih =>
    simp only [hex, List.flatMap_cons, List.length_append, List.length_cons, List.length_nil] at ih ⊢
    omega

theorem mem_hexDigits_of_mem_hex {sum : List UInt8} {digit : UInt8} (mem : digit ∈ hex sum) :
    digit ∈ hexDigits := by
  obtain ⟨byte, _, isDigit⟩ := List.mem_flatMap.mp mem
  rcases List.mem_pair.mp isDigit with rfl | rfl <;> exact hexDigit_mem _

section Names

variable (sum256 : Text → Vector UInt8 32)

@[simp]
theorem length_sumDigest (value : Text) : (sumDigest sum256 value).length = 12 := by
  simp [sumDigest, length_hex]

theorem notMem_sumDigest {byte : UInt8} (other : byte ∉ hexDigits) (value : Text) :
    byte ∉ sumDigest sum256 value :=
  fun mem => other (mem_hexDigits_of_mem_hex (List.mem_of_mem_take mem))

/-! ## Cut names -/

theorem length_boundedName {limit : Nat} (room : 13 ≤ limit) (value : Text) :
    (boundedName (sumDigest sum256) value limit).length ≤ limit := by
  rw [boundedName]
  split
  next short => exact short
  next long =>
    have hyphen : (bytes "-").length = 1 := by decide
    simp only [List.length_append, List.length_take, hyphen, length_sumDigest]
    omega

theorem hasStart_boundedName_iff {value start : Text} (isStart : start <+: value) (limit : Nat) :
    hasStart (boundedName (sumDigest sum256) value limit) start ↔
      value.length ≤ limit ∨
        start.drop (limit - 13) <+: bytes "-" ++ sumDigest sum256 value := by
  rw [boundedName, length_sumDigest]
  split
  next short => exact iff_of_true (hasStart_iff.mpr isStart) (.inl short)
  next long =>
    have cut : value.take (limit - 12 - 1) = value.take (limit - 13) := rfl
    rw [or_iff_right long, hasStart_iff, cut, List.append_assoc]
    have length : (value.take (limit - 13)).length = limit - 13 := by
      rw [List.length_take]
      omega
    rcases Nat.le_total start.length (limit - 13) with inside | across
    · have kept : start <+: value.take (limit - 13) := List.prefix_take_iff.mpr ⟨isStart, inside⟩
      rw [List.drop_eq_nil_of_le inside]
      exact iff_of_true (kept.trans (List.prefix_append ..)) List.nil_prefix
    · have taken : value.take (limit - 13) = start.take (limit - 13) := by
        obtain ⟨rest, rfl⟩ := isStart
        rw [List.take_append_of_le_length across]
      rw [taken]
      nth_rewrite 1 [← List.take_append_drop (limit - 13) start]
      exact List.prefix_append_right_inj _

theorem hasStart_boundedName_iff_of_other {stem rest : Text} {byte : UInt8}
    (notHyphen : byte ∉ bytes "-") (notDigit : byte ∉ hexDigits) (limit : Nat) :
    hasStart (boundedName (sumDigest sum256) (stem ++ [byte] ++ rest) limit) (stem ++ [byte]) ↔
      (stem ++ [byte] ++ rest).length ≤ limit ∨ stem.length + 1 ≤ limit - 13 := by
  rw [hasStart_boundedName_iff sum256 (List.prefix_append ..)]
  refine or_congr_right ?_
  constructor
  · intro begins
    by_contra across
    have inside : limit - 13 ≤ stem.length := by omega
    rw [List.drop_append_of_le_length inside] at begins
    have mem := begins.subset (List.mem_append_right _ (List.mem_singleton_self byte))
    rcases List.mem_append.mp mem with isHyphen | isDigit
    · exact notHyphen isHyphen
    · exact notMem_sumDigest sum256 notDigit _ isDigit
  · intro fits
    rw [List.drop_eq_nil_of_le (by simpa using fits)]
    exact List.nil_prefix

theorem hasStart_boundedName_iff_of_hyphen {stem rest : Text} (limit : Nat) :
    hasStart (boundedName (sumDigest sum256) (stem ++ bytes "-" ++ rest) limit) (stem ++ bytes "-") =
        true ↔
      (stem ++ bytes "-" ++ rest).length ≤ limit ∨ stem.length ≤ limit - 13 := by
  rw [hasStart_boundedName_iff sum256 (List.prefix_append ..)]
  refine or_congr_right ?_
  constructor
  · intro begins
    by_contra across
    have inside : limit - 13 ≤ stem.length := by omega
    rw [List.drop_append_of_le_length inside] at begins
    -- The first byte that is cut off is not the last one, so that the last one is in the digest.
    obtain ⟨first, others, isDrop⟩ : ∃ first others, stem.drop (limit - 13) = first :: others := by
      refine List.exists_cons_of_ne_nil fun isNil => ?_
      rw [List.drop_eq_nil_iff] at isNil
      omega
    have hyphen : bytes "-" = [45] := by decide
    rw [isDrop, hyphen, List.cons_append, List.cons_append, List.cons_prefix_cons] at begins
    have mem := begins.2.subset (List.mem_append_right _ (List.mem_singleton_self 45))
    exact notMem_sumDigest sum256 (by decide) _ mem
  · intro fits
    rcases Nat.lt_or_ge stem.length (limit - 13) with inside | atEnd
    · have whole : (stem ++ bytes "-").length ≤ limit - 13 := by
        rw [List.length_append]
        exact inside
      rw [List.drop_eq_nil_of_le whole]
      exact List.nil_prefix
    · have isLength : limit - 13 = stem.length := Nat.le_antisymm atEnd fits
      rw [isLength, List.drop_left]
      exact List.prefix_append ..

/-! ## The names of a node -/

/-- The names of a node and of its route have the beginnings of the cluster and fit into their limits,
and the garbage collection deletes connectors and routes with these names that are not desired. -/
structure Config.OwnsNames (cfg : Config) (nodeName network : Text) : Prop where
  connector : hasStart (connectorName (sumDigest sum256) cfg.connectorPrefix cfg.clusterName nodeName)
    (connectorNamePrefix cfg.connectorPrefix cfg.clusterName) = true
  connectorLength :
    (connectorName (sumDigest sum256) cfg.connectorPrefix cfg.clusterName nodeName).length ≤ 64
  route : hasStart (routeComment (sumDigest sum256) cfg.clusterName nodeName network)
    (routeCommentPrefix cfg.clusterName) = true
  routeLength : (routeComment (sumDigest sum256) cfg.clusterName nodeName network).length ≤ 100
  collectsConnector : ∀ desired (connector : ConnectorCredentials),
    connector.name = connectorName (sumDigest sum256) cfg.connectorPrefix cfg.clusterName nodeName →
      (cfg.keepsConnector desired connector = true ↔ connector.id ∈ desired)
  collectsRoute : ∀ desired (route : Route),
    route.comment = routeComment (sumDigest sum256) cfg.clusterName nodeName network →
      (cfg.keepsRoute desired route = true ↔ routeKey route.tunnelID route.network ∈ desired)

theorem hasStart_connectorName_iff (connectorPrefix clusterName nodeName : Text) :
    hasStart (connectorName (sumDigest sum256) connectorPrefix clusterName nodeName)
        (connectorNamePrefix connectorPrefix clusterName) ↔
      connectorPrefix.length + clusterName.length + 1 + nodeName.length ≤ 64 ∨
        connectorPrefix.length + clusterName.length ≤ 51 := by
  have hyphen : (bytes "-").length = 1 := by decide
  rw [connectorName, connectorNamePrefix, hasStart_boundedName_iff_of_hyphen]
  simp only [List.length_append, hyphen, Nat.reduceSub]

theorem hasStart_routeComment_iff (clusterName nodeName network : Text) :
    hasStart (routeComment (sumDigest sum256) clusterName nodeName network)
        (routeCommentPrefix clusterName) ↔
      clusterName.length + nodeName.length + network.length ≤ 90 ∨ clusterName.length ≤ 78 := by
  have colon : bytes ":" = [58] := by decide
  have word : (bytes "flannel:").length = 8 := by decide
  have parts : bytes "flannel:" ++ clusterName ++ [58] ++ nodeName ++ [58] ++ network =
      bytes "flannel:" ++ clusterName ++ [58] ++ (nodeName ++ [58] ++ network) := by
    simp only [List.append_assoc]
  rw [routeComment, routeCommentPrefix, colon, parts,
    hasStart_boundedName_iff_of_other sum256 (by decide) (by decide)]
  simp only [List.length_append, List.length_singleton, word]
  omega

/-- The names of a node keep the beginnings of the cluster exactly if they are not cut, or are cut behind
them. -/
theorem ownsNames_iff (cfg : Config) (nodeName network : Text) :
    cfg.OwnsNames sum256 nodeName network ↔
      (cfg.connectorPrefix.length + cfg.clusterName.length + 1 + nodeName.length ≤ 64 ∨
          cfg.connectorPrefix.length + cfg.clusterName.length ≤ 51) ∧
        (cfg.clusterName.length + nodeName.length + network.length ≤ 90 ∨
          cfg.clusterName.length ≤ 78) := by
  rw [← hasStart_connectorName_iff sum256, ← hasStart_routeComment_iff sum256]
  constructor
  · exact fun owns => ⟨owns.connector, owns.route⟩
  · rintro ⟨connector, route⟩
    constructor
    · exact connector
    · exact length_boundedName sum256 (by decide) _
    · exact route
    · exact length_boundedName sum256 (by decide) _
    · rintro desired ⟨id, name, token⟩ rfl
      simp [Config.keepsConnector, connector]
    · rintro desired listed isComment
      simp [Config.keepsRoute, isComment, route]

end Names

def longConfig : Config where
  clusterName := bytes "customer-platform-production-europe-west1-blue"
  connectorPrefix := bytes "flannel-"
  annotationPrefix := "flannel.alpha.coreos.com"
  connectorHA := false
  registrationGC := .off
  registrationGCPeriod := 0

/-- The cluster name is cut: whatever the sums are, the connector is never collected. -/
theorem not_ownsNames_of_long_cluster :
    ¬ ∃ sum256, longConfig.OwnsNames sum256 (bytes "gke-pool-1-7f3a") (bytes "10.244.7.0/24") := by
  rintro ⟨sum256, owns⟩
  have fits := (hasStart_connectorName_iff sum256 _ _ _).mp owns.connector
  revert fits
  decide

end Flannel.Operator
