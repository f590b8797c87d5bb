import Flannel.Net.Mask
import Flannel.Net.RoundTrip

/-!
# Networks and their texts

`IPNet.String` and `IPNet.Contains` of the Go standard library, and the networks of
IPv4 whose text is canonical: those without host bits.
-/

namespace Flannel.Net

open Text

def IPNet.length (n : IPNet) : Nat :=
  match n.ip with
  | .v4 _ => n.ones
  | .v16 _ => if n.ip.to4.isSome then n.ones - 96 else n.ones

def IPNet.string (n : IPNet) : String :=
  n.ip.string ++ "/" ++ toString n.length

def IPNet.contains (n : IPNet) (ip : IP) : Bool :=
  match n.ip.to4, ip.to4 with
  | some network, some address =>
    network &&& cidrMask 32 n.length == address &&& cidrMask 32 n.length
  | none, none => n.ip.to16 &&& cidrMask 128 n.ones == ip.to16 &&& cidrMask 128 n.ones
  | _, _ => false

def cidrAddress (text : String) : Option IP :=
  parseAddr (text.toList.span (· != '/')).1

@[ext]
structure Cidr where
  bits : BitVec 32
  ones : Nat
  bound : ones ≤ 32
  aligned : Aligned ones bits
  deriving DecidableEq

namespace Cidr

def net (c : Cidr) : IPNet :=
  ⟨.v4 c.bits, c.ones⟩

def text (c : Cidr) : String :=
  c.net.string

end Cidr

theorem toList_string_v4 (bits : BitVec 32) (ones : Nat) :
    (⟨.v4 bits, ones⟩ : IPNet).string.toList = dotted bits ++ '/' :: Nat.toDigits 10 ones := by
  simp [IPNet.string, IP.string, IP.to4, IPNet.length, Nat.repr]

theorem string_v4 (bits : BitVec 32) (ones : Nat) :
    (⟨.v4 bits, ones⟩ : IPNet).string =
      String.ofList (dotted bits ++ '/' :: Nat.toDigits 10 ones) := by
  rw [← toList_string_v4, String.ofList_toList]

theorem string_v4_inj {bits bits' : BitVec 32} {ones ones' : Nat}
    (same : (⟨.v4 bits, ones⟩ : IPNet).string = (⟨.v4 bits', ones'⟩ : IPNet).string) :
    bits = bits' ∧ ones = ones' := by
  have lists := congrArg String.toList same
  rw [toList_string_v4, toList_string_v4] at lists
  have cut := congrArg (fun text : List Char => text.span (· != '/')) lists
  simp only [span_slash (slash_notMem_dotted _)] at cut
  obtain ⟨address, length⟩ := Prod.mk.inj cut
  constructor
  · have read := congrArg parseIPv4 address
    rw [parseIPv4_dotted, parseIPv4_dotted] at read
    exact Option.some.inj read
  · have read := congrArg (numeral 10) (List.cons.inj length).2
    rwa [numeral_toDigits (by decide) (by decide), numeral_toDigits (by decide) (by decide)] at read

theorem parseCIDR_string_v4 (bits : BitVec 32) {ones : Nat} (bound : ones ≤ 32) :
    parseCIDR (⟨.v4 bits, ones⟩ : IPNet).string = some ⟨.v4 (bits &&& cidrMask 32 ones), ones⟩ := by
  rw [string_v4]
  exact parseCIDR_v4 (slash_notMem_dotted bits) (parseAddr_dotted bits) bound

theorem cidrAddress_string_v4 (bits : BitVec 32) (ones : Nat) :
    cidrAddress (⟨.v4 bits, ones⟩ : IPNet).string = some (.v4 bits) := by
  rw [cidrAddress, toList_string_v4, span_slash (slash_notMem_dotted bits), parseAddr_dotted]

theorem cidrAddress_string_of_to4_eq_none {n : IPNet} (notIPv4 : n.ip.to4 = none) :
    ∃ bits, cidrAddress n.string = some (.v16 bits) ∧ (IP.v16 bits).to4 = none := by
  obtain ⟨ip, ones⟩ := n
  cases ip with
  | v4 bits => contradiction
  | v16 bits =>
    have isText : (⟨.v16 bits, ones⟩ : IPNet).string.toList =
        groupsText (groups bits) ++ '/' :: Nat.toDigits 10 ones := by
      simp [IPNet.string, IP.string, IPNet.length, notIPv4, IP.to16, Nat.repr]
    refine ⟨bits, ?_, notIPv4⟩
    rw [cidrAddress, isText, span_slash (slash_notMem_groupsText _), parseAddr_groupsText]

namespace Cidr

@[simp]
theorem parseCIDR_text (c : Cidr) : parseCIDR c.text = some c.net := by
  rw [text, net, parseCIDR_string_v4 c.bits c.bound, c.aligned]

@[simp]
theorem cidrAddress_text (c : Cidr) : cidrAddress c.text = some (.v4 c.bits) :=
  cidrAddress_string_v4 c.bits c.ones

theorem text_injective : Function.Injective text := by
  intro c d same
  obtain ⟨bits, ones⟩ := string_v4_inj same
  exact Cidr.ext bits ones

theorem net_injective : Function.Injective net := by
  intro c d same
  exact text_injective (congrArg IPNet.string same)

end Cidr

theorem aligned_of_mapped {ones : Nat} {bits : BitVec 128} {low : BitVec 32} (aligned : Aligned ones bits)
    (mapped : (IP.v16 bits).to4 = some low) : Aligned (ones - 96) low := by
  rw [IP.to4] at mapped
  split_ifs at mapped with high
  obtain rfl := Option.some.inj mapped
  have kept : ∀ position, bits.getLsbD position → 128 - ones ≤ position := by
    intro position set
    rw [← aligned, BitVec.getLsbD_and, getLsbD_cidrMask, Bool.and_eq_true_iff,
      Bool.and_eq_true_iff] at set
    exact of_decide_eq_true set.2.2
  have long : 128 - ones ≤ 32 := by
    apply kept
    have lowest := congrArg (fun part : BitVec 96 => part.getLsbD 0) high
    simpa using lowest
  apply BitVec.eq_of_getLsbD_eq
  intro position inside
  rw [BitVec.getLsbD_and, getLsbD_cidrMask]
  cases set : (bits.extractLsb' 0 32).getLsbD position with
  | false => rfl
  | true =>
    rw [BitVec.getLsbD_extractLsb', Nat.zero_add, Bool.and_eq_true_iff] at set
    have far := kept position set.2
    simp [inside]
    omega

theorem exists_cidr_of_parseCIDR {text : String} {n : IPNet} {bits : BitVec 32}
    (parsed : parseCIDR text = some n) (isIPv4 : n.ip.to4 = some bits) :
    ∃ c : Cidr, n.string = c.text := by
  unfold parseCIDR at parsed
  split at parsed
  · split at parsed
    · contradiction
    · split at parsed
      · contradiction
      · split_ifs at parsed with bound
        obtain rfl := Option.some.inj parsed
        exact ⟨⟨_, _, bound, aligned_and_cidrMask _ _⟩, rfl⟩
      · split_ifs at parsed with bound
        obtain rfl := Option.some.inj parsed
        refine ⟨⟨bits, _, Nat.sub_le_iff_le_add.mpr bound,
          aligned_of_mapped (aligned_and_cidrMask _ _) isIPv4⟩, ?_⟩
        simp only [Cidr.text, Cidr.net, IPNet.string, IPNet.length, IP.string, isIPv4,
          Option.isSome_some, if_true]
        rfl
  · contradiction

/-! ## What is accepted -/

theorem mem_of_mem_intercalate {separator c : Char} {fields : List (List Char)}
    (mem : c ∈ [separator].intercalate fields) : c = separator ∨ ∃ field ∈ fields, c ∈ field := by
  induction fields with
  | nil => simp at mem
  | cons field fields ih =>
    cases fields with
    | nil => exact .inr ⟨field, (.head _), by simpa using mem⟩
    | cons next fields =>
      rw [List.intercalate_cons_cons, List.mem_append, List.mem_append, List.mem_singleton] at mem
      rcases mem with (mem | rfl) | mem
      · exact .inr ⟨field, (.head _), mem⟩
      · exact .inl rfl
      · rcases ih mem with same | ⟨other, isField, mem⟩
        · exact .inl same
        · exact .inr ⟨other, List.mem_cons_of_mem field isField, mem⟩

theorem exists_of_mapM_eq_some {α β : Type} {f : α → Option β} {xs : List α} {ys : List β}
    (mapped : xs.mapM f = some ys) {x : α} (mem : x ∈ xs) : ∃ y, f x = some y := by
  induction xs generalizing ys with
  | nil => contradiction
  | cons first xs ih =>
    simp only [List.mapM_cons, Option.bind_eq_bind, Option.bind_eq_some_iff] at mapped
    obtain ⟨y, isFirst, rest, isRest, _⟩ := mapped
    rcases List.mem_cons.mp mem with rfl | mem
    · exact ⟨y, isFirst⟩
    · exact ih isRest mem

theorem isDecimal_of_parseOctet {field : List Char} {value : Nat}
    (parsed : parseOctet field = some value) : ∀ c ∈ field, isDecimal c := by
  cases field with
  | nil => contradiction
  | cons first rest =>
    rw [parseOctet] at parsed
    split_ifs at parsed with notDecimal
    simpa only [Bool.not_eq_true', Bool.not_eq_false, List.all_eq_true] using notDecimal

theorem colon_notMem_of_parseAddr {text : List Char} {bits : BitVec 32}
    (parsed : parseAddr text = some (.v4 bits)) : ':' ∉ text := by
  intro mem
  rw [parseAddr] at parsed
  split at parsed
  · obtain ⟨_, isIPv4, _⟩ := Option.map_eq_some_iff.mp parsed
    simp only [parseIPv4, Option.bind_eq_bind, Option.bind_eq_some_iff] at isIPv4
    obtain ⟨values, isValues, _⟩ := isIPv4
    rw [← @List.intercalate_splitOn _ text _ _ '.'] at mem
    rcases mem_of_mem_intercalate mem with same | ⟨field, isField, mem⟩
    · exact absurd same (by decide)
    · obtain ⟨value, isValue⟩ := exists_of_mapM_eq_some isValues isField
      exact absurd (isDecimal_of_parseOctet isValue ':' mem) (by decide)
  · obtain ⟨_, _, isIPv4⟩ := Option.map_eq_some_iff.mp parsed
    contradiction
  · contradiction

theorem colon_mem_of_parseAddr {text : List Char} {bits : BitVec 128}
    (parsed : parseAddr text = some (.v16 bits)) : ':' ∈ text := by
  rw [parseAddr] at parsed
  split at parsed
  · obtain ⟨_, _, isIPv6⟩ := Option.map_eq_some_iff.mp parsed
    contradiction
  next isColon => exact List.mem_of_find?_eq_some isColon
  · contradiction

theorem parseCIDR_cases {text : String} {n : IPNet} (parsed : parseCIDR text = some n) :
    (∃ bits, cidrAddress text = some (.v4 bits) ∧ ':' ∉ text.toList ∧ n.ones ≤ 32 ∧
      n.ip = .v4 (bits &&& cidrMask 32 n.ones)) ∨
    ∃ bits, cidrAddress text = some (.v16 bits) ∧ ':' ∈ text.toList ∧ n.ones ≤ 128 ∧
      n.ip = .v16 (bits &&& cidrMask 128 n.ones) := by
  unfold parseCIDR at parsed
  split at parsed
  next address length isSpan =>
    have isText : text.toList = address ++ '/' :: length := by
      rw [List.span_eq_takeWhile_dropWhile] at isSpan
      rw [← List.takeWhile_append_dropWhile (p := (· != '/')) (l := text.toList),
        (Prod.mk.inj isSpan).1, (Prod.mk.inj isSpan).2]
    split at parsed
    · contradiction
    next isLength =>
      have decimal : ':' ∉ length := by
        simp only [Bool.or_eq_true, Bool.not_eq_true', not_or, Bool.not_eq_false, List.all_eq_true]
          at isLength
        intro mem
        exact absurd (isLength.2 ':' mem) (by decide)
      have isColon : ':' ∈ text.toList ↔ ':' ∈ address := by
        simp [isText, decimal]
      have isAddress : cidrAddress text = parseAddr address := by
        rw [cidrAddress, isSpan]
      split at parsed
      · contradiction
      next bits read =>
        split_ifs at parsed with bound
        obtain rfl := Option.some.inj parsed
        exact .inl ⟨bits, isAddress.trans read, by simpa [isColon] using colon_notMem_of_parseAddr read,
          bound, rfl⟩
      next bits read =>
        split_ifs at parsed with bound
        obtain rfl := Option.some.inj parsed
        exact .inr ⟨bits, isAddress.trans read, isColon.mpr (colon_mem_of_parseAddr read), bound, rfl⟩
  · contradiction

theorem mapped_of_to4 {bits : BitVec 128} {low : BitVec 32} (isMapped : (IP.v16 bits).to4 = some low) :
    IP.mapped low = bits := by
  rw [IP.to4] at isMapped
  split_ifs at isMapped with high
  obtain rfl := Option.some.inj isMapped
  rw [IP.mapped, ← high]
  apply BitVec.eq_of_toNat_eq
  rw [BitVec.toNat_append, BitVec.extractLsb'_toNat, BitVec.extractLsb'_toNat]
  have bound := bits.isLt
  simp only [Nat.shiftRight_eq_div_pow]
  rw [← Nat.shiftLeft_add_eq_or_of_lt (by omega), Nat.shiftLeft_eq]
  omega

theorem toNat_mapped (bits : BitVec 32) : (IP.mapped bits).toNat = 0xffff * 2 ^ 32 + bits.toNat := by
  rw [IP.mapped, BitVec.toNat_append, ← Nat.shiftLeft_add_eq_or_of_lt bits.isLt, Nat.shiftLeft_eq]
  rfl

theorem parseIP_string (ip : IP) : parseIP ip.string = some (.v16 ip.to16) := by
  rw [parseIP, IP.string]
  cases isMapped : ip.to4 with
  | none =>
    rw [String.toList_ofList, parseAddr_groupsText]
    rfl
  | some low =>
    rw [String.toList_ofList, parseAddr_dotted]
    cases ip with
    | v4 bits =>
      cases isMapped
      rfl
    | v16 bits => exact congrArg (fun bits => some (IP.v16 bits)) (mapped_of_to4 isMapped)

end Flannel.Net
