import Flannel.Ip.IP4
import Flannel.Ip.IP6
import Flannel.Net.Cidr
import Mathlib.Data.List.DropRight

/-!
# The JSON texts of addresses and networks

`MarshalJSON` and `UnmarshalJSON` of the address types do not look at the family of a text. An
IPv6 address of four bytes is printed as one of IPv4 and read back as its mapped form; a network
at such an address, or at a mapped one, gets a prefix length that its text does not allow. An IPv4
field accepts a mapped network with its 128-bit length, and an IPv6 field a network of IPv4.
-/

namespace Flannel.Ip

open Net Text

/-! ## The methods -/

def isQuote (c : Char) : Bool :=
  c == '"'

def trimQuotes (j : String) : String :=
  String.ofList ((j.toList.dropWhile isQuote).rdropWhile isQuote)

def quoted (text : String) : String :=
  "\"" ++ text ++ "\""

def IP4.marshalJSON (ip : IP4) : String :=
  quoted (IP4.string ip)

def IP4.unmarshalJSON (j : String) : Except String IP4 :=
  parseIP4 (trimQuotes j)

def IP6.marshalJSON (ip6 : IP6) : Option String :=
  (IP6.string ip6).map quoted

def IP6.unmarshalJSON (j : String) : Except String IP6 :=
  parseIP6 (trimQuotes j)

def IP4Net.marshalJSON (n : IP4Net) : String :=
  quoted n.string

def IP4Net.unmarshalJSON (j : String) : Except String IP4Net :=
  match parseCIDR (trimQuotes j) with
  | none => .error ("invalid CIDR address: " ++ trimQuotes j)
  | some val =>
    match IP4Net.fromIPNet val with
    | none => .error "invalid IPv4 CIDR format"
    | some n => .ok n

def IP6Net.marshalJSON (n : IP6Net) : Option String :=
  n.string.map quoted

def IP6Net.unmarshalJSON (j : String) : Except String IP6Net :=
  match parseCIDR (trimQuotes j) with
  | none => .error ("invalid CIDR address: " ++ trimQuotes j)
  | some val => .ok (IP6Net.fromIP6Net val)

/-! ## Quotes -/

theorem trimQuotes_quoted {text : String} (plain : '"' ∉ text.toList) :
    trimQuotes (quoted text) = text := by
  have isList : (quoted text).toList = '"' :: (text.toList ++ ['"']) := by
    simp [quoted]
  rw [trimQuotes, isList, List.dropWhile_cons_of_pos (by decide)]
  cases shape : text.toList with
  | nil =>
    rw [← String.ofList_toList (s := text), shape]
    rfl
  | cons c rest =>
    rw [shape] at plain
    have other : ∀ d ∈ c :: rest, ¬ isQuote d := by
      intro d mem same
      exact plain (beq_iff_eq.mp same ▸ mem)
    rw [List.cons_append, List.dropWhile_cons_of_neg (other c (.head _)),
      ← List.cons_append, List.rdropWhile_concat_pos _ _ _ (by decide),
      List.rdropWhile_eq_self_iff.mpr fun _ => other _ (List.getLast_mem _), ← shape,
      String.ofList_toList]

variable {j : String} {bits : BitVec 128}

theorem mem_trimQuotes_iff {c : Char} (other : c ≠ '"') :
    c ∈ (trimQuotes j).toList ↔ c ∈ j.toList := by
  have dropped : ∀ text : List Char, c ∈ text.dropWhile isQuote ↔ c ∈ text := by
    intro text
    conv_rhs => rw [← List.takeWhile_append_dropWhile (p := isQuote) (l := text), List.mem_append]
    refine (or_iff_right fun mem => ?_).symm
    have isQuoted : isQuote c := List.mem_takeWhile_imp mem
    exact other (beq_iff_eq.mp isQuoted)
  rw [trimQuotes, String.toList_ofList, List.rdropWhile, List.mem_reverse, dropped, List.mem_reverse,
    dropped]

theorem quote_notMem_dotted (bits : BitVec 32) : '"' ∉ dotted bits := by
  intro mem
  exact forall_mem_dotted (P := (· ≠ '"')) (by decide) (by decide) bits '"' mem rfl

theorem quote_notMem_groupsText (parts : List Nat) : '"' ∉ groupsText parts := by
  intro mem
  exact forall_mem_groupsText (P := (· ≠ '"')) (by decide) (by decide) parts '"' mem rfl

theorem quote_notMem_ip (ip : Net.IP) : '"' ∉ ip.string.toList := by
  rw [Net.IP.string]
  split
  · rw [String.toList_ofList]
    exact quote_notMem_dotted _
  · rw [String.toList_ofList]
    exact quote_notMem_groupsText _

theorem quote_notMem_length {address : String} (plain : '"' ∉ address.toList) (length : Nat) :
    '"' ∉ (address ++ "/" ++ toString length).toList := by
  have digits : '"' ∉ Nat.toDigits 10 length := fun mem =>
    absurd (isDecimal_of_mem_toDigits mem) (by decide)
  simpa [Nat.repr, plain] using digits

/-! ## What is printed alike -/

/-- The number of an address whose bytes without leading zeros are four. -/
def FourByte (ip6 : Nat) : Prop :=
  2 ^ 24 ≤ ip6 ∧ ip6 < 2 ^ 32

/-- The number of an address that is printed as one of IPv4: of four bytes, or mapped. -/
def PrintsDotted (ip6 : Nat) : Prop :=
  FourByte ip6 ∨ 0xffff * 2 ^ 32 ≤ ip6 ∧ ip6 < 2 ^ 48

def IP6.shown (bits : BitVec 128) : BitVec 128 :=
  (IP6.ofBits bits).to16

theorem string_inj_iff {ip ip' : Net.IP} : ip.string = ip'.string ↔ ip.to16 = ip'.to16 := by
  have long : ∀ ip : Net.IP, ip.string = (Net.IP.v16 ip.to16).string := by
    intro ip
    cases ip with
    | v4 bits => rw [Net.IP.string, Net.IP.string, Net.IP.to16, to4_mapped, Net.IP.to4]
    | v16 bits => rfl
  constructor
  · intro same
    have read := congrArg parseIP same
    rw [parseIP_string, parseIP_string] at read
    exact Net.IP.v16.inj (Option.some.inj read)
  · intro same
    rw [long ip, long ip', same]

theorem maskedText_eq_iff {ip6 ip6' : IP6} {mask : BitVec 128} :
    IP6Net.maskedText ip6 mask = IP6Net.maskedText ip6' mask ↔
      IP6.shown (BitVec.ofNat 128 ip6 &&& mask) = IP6.shown (BitVec.ofNat 128 ip6' &&& mask) :=
  string_inj_iff

theorem shown_of_not_fourByte (notFourByte : ¬ FourByte bits.toNat) :
    IP6.shown bits = bits := by
  rw [FourByte] at notFourByte
  rw [IP6.shown, IP6.ofBits, if_neg notFourByte, Net.IP.to16]

theorem toNat_shown_of_fourByte (fourByte : FourByte bits.toNat) :
    (IP6.shown bits).toNat = 0xffff * 2 ^ 32 + bits.toNat := by
  rw [FourByte] at fourByte
  rw [IP6.shown, IP6.ofBits, if_pos fourByte, Net.IP.to16, toNat_mapped, BitVec.toNat_setWidth,
    Nat.mod_eq_of_lt fourByte.2]

theorem shown_eq_cases {x y : BitVec 128} (alike : IP6.shown x = IP6.shown y) :
    x = y ∨ FourByte x.toNat ∧ y.toNat = 0xffff * 2 ^ 32 + x.toNat ∨
      FourByte y.toNat ∧ x.toNat = 0xffff * 2 ^ 32 + y.toNat := by
  have numbers := congrArg BitVec.toNat alike
  by_cases fourX : FourByte x.toNat
  · by_cases fourY : FourByte y.toNat
    · rw [toNat_shown_of_fourByte fourX, toNat_shown_of_fourByte fourY] at numbers
      exact .inl (BitVec.eq_of_toNat_eq (Nat.add_left_cancel numbers))
    · rw [toNat_shown_of_fourByte fourX, shown_of_not_fourByte fourY] at numbers
      exact .inr (.inl ⟨fourX, numbers.symm⟩)
  · by_cases fourY : FourByte y.toNat
    · rw [shown_of_not_fourByte fourX, toNat_shown_of_fourByte fourY] at numbers
      exact .inr (.inr ⟨fourY, numbers⟩)
    · rw [shown_of_not_fourByte fourX, shown_of_not_fourByte fourY] at alike
      exact .inl alike

/-! ## What is read back -/

def IP6.Restores (ip6 : IP6) : Prop :=
  ∃ text, IP6.marshalJSON ip6 = some text ∧ IP6.unmarshalJSON text = .ok ip6

def IP6Net.Restores (n : IP6Net) : Prop :=
  ∃ text, n.marshalJSON = some text ∧ IP6Net.unmarshalJSON text = .ok n

theorem IP4.unmarshalJSON_marshalJSON (ip : IP4) :
    IP4.unmarshalJSON (IP4.marshalJSON ip) = .ok ip := by
  have plain : '"' ∉ (IP4.string ip).toList := quote_notMem_ip (.v4 ip)
  rw [IP4.unmarshalJSON, IP4.marshalJSON, trimQuotes_quoted plain, parseIP4_string]

theorem IP6.unmarshalJSON_marshalJSON {ip6 : IP6} (small : ip6 < 2 ^ 128) :
    ∃ text, IP6.marshalJSON ip6 = some text ∧
      IP6.unmarshalJSON text = .ok (IP6.shown (BitVec.ofNat 128 ip6)).toNat := by
  refine ⟨quoted (IP6.ofBits (BitVec.ofNat 128 ip6)).string, ?_, ?_⟩
  · rw [IP6.marshalJSON, IP6.string, IP6.toIP, if_pos small]
    rfl
  · rw [IP6.unmarshalJSON, trimQuotes_quoted (quote_notMem_ip _), parseIP6, parseIP_string]
    rfl

theorem toNat_shown_eq_iff :
    (IP6.shown bits).toNat = bits.toNat ↔ ¬ FourByte bits.toNat := by
  by_cases fourByte : FourByte bits.toNat
  · rw [toNat_shown_of_fourByte fourByte]
    exact iff_of_false (by omega) (not_not_intro fourByte)
  · rw [shown_of_not_fourByte fourByte]
    exact iff_of_true rfl fourByte

theorem IP6.restores_iff {ip6 : IP6} (small : ip6 < 2 ^ 128) :
    IP6.Restores ip6 ↔ ¬ FourByte ip6 := by
  have value : (BitVec.ofNat 128 ip6).toNat = ip6 := Nat.mod_eq_of_lt small
  obtain ⟨text, isText, read⟩ := IP6.unmarshalJSON_marshalJSON small
  rw [← value, ← toNat_shown_eq_iff, value]
  constructor
  · rintro ⟨text', isText', restored⟩
    rw [isText] at isText'
    cases isText'
    exact Except.ok.inj (read.symm.trans restored)
  · intro same
    exact ⟨text, isText, by rw [read, same]⟩

theorem IP4Net.unmarshalJSON_marshalJSON {n : IP4Net} (valid : n.prefixLen ≤ 32)
    (form : n.InNetworkForm) : IP4Net.unmarshalJSON n.marshalJSON = .ok n := by
  have plain : '"' ∉ n.string.toList := quote_notMem_length (quote_notMem_ip (.v4 n.ip)) n.prefixLen
  rw [inNetworkForm_iff valid] at form
  rw [IP4Net.unmarshalJSON, IP4Net.marshalJSON, trimQuotes_quoted plain,
    IP4Net.parseCIDR_string valid, form]
  rfl

theorem to4_ofBits_eq_none_iff {bits : BitVec 128} :
    (IP6.ofBits bits).to4 = none ↔ ¬ PrintsDotted bits.toNat := by
  have bound := bits.isLt
  rw [IP6.ofBits, PrintsDotted]
  split_ifs with fourByte
  · exact iff_of_false (by simp [Net.IP.to4]) (not_not_intro (.inl fourByte))
  · have high : bits.extractLsb' 32 96 = 0xffff#96 ↔ bits.toNat / 2 ^ 32 = 0xffff := by
      rw [← BitVec.toNat_inj, BitVec.extractLsb'_toNat, Nat.shiftRight_eq_div_pow,
        Nat.mod_eq_of_lt (by omega)]
      rfl
    rw [Net.IP.to4, ite_eq_right_iff, high]
    simp only [reduceCtorEq, imp_false, FourByte]
    omega

theorem lt_ones_of_aligned {ones : Nat} (aligned : Aligned ones bits)
    (dotted : PrintsDotted bits.toNat) : 32 < ones := by
  have small : 0 < bits.toNat ∧ bits.toNat < 2 ^ 48 := by
    rcases dotted with ⟨low, high⟩ | ⟨low, high⟩ <;> omega
  have block := Nat.le_of_dvd small.1 ((aligned_iff_dvd ones bits).mp aligned)
  have exponent : 128 - ones < 48 :=
    (Nat.pow_lt_pow_iff_right (by decide)).mp (lt_of_le_of_lt block small.2)
  omega

theorem IP6Net.restores_iff {ip6 : IP6} {length : Nat} (small : ip6 < 2 ^ 128) (valid : length ≤ 128)
    (aligned : Aligned length (BitVec.ofNat 128 ip6)) :
    IP6Net.Restores ⟨some ip6, length⟩ ↔ ¬ PrintsDotted ip6 := by
  have value : (BitVec.ofNat 128 ip6).toNat = ip6 := Nat.mod_eq_of_lt small
  have isDotted := @to4_ofBits_eq_none_iff (BitVec.ofNat 128 ip6)
  rw [value] at isDotted
  have isString : IP6Net.string ⟨some ip6, length⟩ =
      some ((IP6.ofBits (BitVec.ofNat 128 ip6)).string ++ "/" ++ toString length) := by
    rw [IP6Net.string, IP6.string, IP6.toIP, Option.getD_some, if_pos small]
    rfl
  have trims := trimQuotes_quoted
    (quote_notMem_length (quote_notMem_ip (IP6.ofBits (BitVec.ofNat 128 ip6))) length)
  rw [← isDotted]
  constructor
  · rintro ⟨text, isText, restored⟩
    by_contra isMapped
    obtain ⟨low, isLow⟩ := Option.ne_none_iff_exists'.mp isMapped
    have long : 32 < length := by
      apply lt_ones_of_aligned aligned
      rw [value]
      exact not_not.mp fun notDotted => isMapped (isDotted.mpr notDotted)
    have isList : (IP6.ofBits (BitVec.ofNat 128 ip6)).string ++ "/" ++ toString length =
        String.ofList (dotted low ++ '/' :: Nat.toDigits 10 length) := by
      apply String.toList_injective
      simp [Net.IP.string, isLow, Nat.repr]
    rw [IP6Net.marshalJSON, isString] at isText
    obtain rfl := Option.some.inj isText
    rw [IP6Net.unmarshalJSON, trims, isList,
      parseCIDR_v4_eq_none (slash_notMem_dotted low) (parseAddr_dotted low) long] at restored
    cases restored
  · intro groupForm
    obtain ⟨text, isText, parsed⟩ := IP6Net.parseCIDR_string ⟨small, groupForm⟩ valid
    rw [isString] at isText
    obtain rfl := Option.some.inj isText
    rw [aligned] at parsed
    refine ⟨_, by rw [IP6Net.marshalJSON, isString, Option.map_some], ?_⟩
    rw [IP6Net.unmarshalJSON, trims, parsed]
    simp [IP6Net.fromIP6Net, fromIP6, Net.IP.to16, value]

/-! ## What is accepted -/

def WrittenIPv6 (j : String) : Prop :=
  ∃ bits, cidrAddress (trimQuotes j) = some (.v16 bits)

/-- The network is a prefix of at most 128 bits, without host bits. -/
def IP6Net.IsPrefix (n : IP6Net) : Prop :=
  n.prefixLen ≤ 128 ∧ ∃ ip6, n.ip = some ip6 ∧ ip6 < 2 ^ 128 ∧
    Aligned n.prefixLen (BitVec.ofNat 128 ip6)

theorem IP4Net.unmarshalJSON_cases {n : IP4Net} (accepted : IP4Net.unmarshalJSON j = .ok n) :
    ':' ∉ j.toList ∧ n.prefixLen ≤ 32 ∧ n.InNetworkForm ∨ ':' ∈ j.toList ∧ 32 < n.prefixLen := by
  rw [← mem_trimQuotes_iff (by decide)]
  rw [IP4Net.unmarshalJSON] at accepted
  split at accepted
  · cases accepted
  next val parsed =>
    split at accepted
    · cases accepted
    next isIPv4 =>
      obtain rfl := Except.ok.inj accepted
      obtain ⟨low, isLow, rfl⟩ := Option.map_eq_some_iff.mp isIPv4
      rcases parseCIDR_cases parsed with ⟨bits, -, noColon, bound, isIP⟩ | ⟨bits, -, colon, bound, isIP⟩
      · rw [isIP] at isLow
        obtain rfl := Option.some.inj isLow
        refine .inl ⟨noColon, bound, ?_⟩
        rw [inNetworkForm_iff bound]
        exact aligned_and_cidrMask _ _
      · rw [isIP] at isLow
        have number := congrArg BitVec.toNat (mapped_of_to4 isLow)
        rw [toNat_mapped] at number
        have := low.isLt
        refine .inr ⟨colon, lt_ones_of_aligned (aligned_and_cidrMask val.ones bits) (.inr ?_)⟩
        omega

theorem IP6Net.unmarshalJSON_cases {n : IP6Net} (accepted : IP6Net.unmarshalJSON j = .ok n) :
    ':' ∈ j.toList ∧ WrittenIPv6 j ∧ n.IsPrefix ∨
      ':' ∉ j.toList ∧ ¬ WrittenIPv6 j ∧ n.prefixLen ≤ 32 ∧
        ∃ bits, n.ip = some (Net.IP.mapped bits).toNat := by
  rw [← mem_trimQuotes_iff (by decide), WrittenIPv6]
  rw [IP6Net.unmarshalJSON] at accepted
  split at accepted
  · cases accepted
  next val parsed =>
    obtain rfl := Except.ok.inj accepted
    rcases parseCIDR_cases parsed with
      ⟨bits, written, noColon, bound, isIP⟩ | ⟨bits, written, colon, bound, isIP⟩
    · refine .inr ⟨noColon, ?_, bound, bits &&& cidrMask 32 val.ones, ?_⟩
      · rintro ⟨bits', written'⟩
        cases written.symm.trans written'
      · rw [IP6Net.fromIP6Net, fromIP6, isIP, Net.IP.to16]
    · have aligned : Aligned val.ones (BitVec.ofNat 128 (fromIP6 val.ip)) := by
        rw [fromIP6, isIP, Net.IP.to16, BitVec.ofNat_toNat, BitVec.setWidth_eq]
        exact aligned_and_cidrMask _ _
      have bounded : fromIP6 val.ip < 2 ^ 128 := val.ip.to16.isLt
      exact .inl ⟨colon, ⟨bits, written⟩, bound, fromIP6 val.ip, rfl, bounded, aligned⟩

theorem IP4Net.wellFormed_iff {n : IP4Net} (accepted : IP4Net.unmarshalJSON j = .ok n) :
    n.prefixLen ≤ 32 ∧ n.InNetworkForm ↔ ':' ∉ j.toList := by
  rcases IP4Net.unmarshalJSON_cases accepted with ⟨noColon, wellFormed⟩ | ⟨colon, long⟩
  · exact iff_of_true wellFormed noColon
  · exact iff_of_false (fun wellFormed => Nat.not_le.mpr long wellFormed.1) (not_not_intro colon)

theorem IP6Net.wellFormed_iff {n : IP6Net} (accepted : IP6Net.unmarshalJSON j = .ok n) :
    WrittenIPv6 j ∧ n.IsPrefix ↔ ':' ∈ j.toList := by
  rcases IP6Net.unmarshalJSON_cases accepted with ⟨colon, wellFormed⟩ | ⟨noColon, notWritten, _⟩
  · exact iff_of_true wellFormed colon
  · exact iff_of_false (fun wellFormed => notWritten wellFormed.1) noColon

/-- Exactly where the codecs of the address types are lossless, and where what they accept
is well formed. -/
theorem codecs_lossless_and_validating_iff (ip : IP4) (ip6 address : IP6) (length : Nat) (n : IP4Net)
    (j : String) (read : IP4Net) (read6 : IP6Net) :
    IP4.unmarshalJSON (IP4.marshalJSON ip) = .ok ip ∧
      (ip6 < 2 ^ 128 → (IP6.Restores ip6 ↔ ¬ FourByte ip6)) ∧
      (n.prefixLen ≤ 32 → n.InNetworkForm → IP4Net.unmarshalJSON n.marshalJSON = .ok n) ∧
      (address < 2 ^ 128 → length ≤ 128 → Aligned length (BitVec.ofNat 128 address) →
        (IP6Net.Restores ⟨some address, length⟩ ↔ ¬ PrintsDotted address)) ∧
      (IP4Net.unmarshalJSON j = .ok read →
        (read.prefixLen ≤ 32 ∧ read.InNetworkForm ↔ ':' ∉ j.toList)) ∧
      (IP6Net.unmarshalJSON j = .ok read6 → (WrittenIPv6 j ∧ read6.IsPrefix ↔ ':' ∈ j.toList)) := by
  refine ⟨IP4.unmarshalJSON_marshalJSON ip, ?_, ?_, ?_, ?_, ?_⟩
  · intro small
    exact IP6.restores_iff small
  · intro valid form
    exact IP4Net.unmarshalJSON_marshalJSON valid form
  · intro small valid aligned
    exact IP6Net.restores_iff small valid aligned
  · intro accepted
    exact IP4Net.wellFormed_iff accepted
  · intro accepted
    exact IP6Net.wellFormed_iff accepted

theorem codecs_of_ordinary_networks :
    IP6.Restores 0x20010db8000000000000000000000001 ∧
      IP4Net.unmarshalJSON (IP4Net.marshalJSON ⟨0x0a000000, 8⟩) = .ok ⟨0x0a000000, 8⟩ ∧
      IP6Net.Restores ⟨some 0x20010db8000000000000000000000000, 32⟩ ∧
      (⟨0x0a000000, 8⟩ : IP4Net).InNetworkForm ∧
      WrittenIPv6 "\"2001:db8::/32\"" := by
  obtain ⟨-, address, network, network6, accepted, -⟩ := codecs_lossless_and_validating_iff 0
    0x20010db8000000000000000000000001 0x20010db8000000000000000000000000 32 ⟨0x0a000000, 8⟩
    "\"10.0.0.0/8\"" ⟨0x0a000000, 8⟩ .zero
  obtain ⟨-, -, -, -, -, accepted6⟩ := codecs_lossless_and_validating_iff 0 0 0 0 ⟨0, 0⟩
    "\"2001:db8::/32\"" ⟨0, 0⟩ ⟨some 0x20010db8000000000000000000000000, 32⟩
  refine ⟨?_, ?_, ?_, ?_, ?_⟩
  · exact (address (by decide)).mpr (by unfold FourByte; decide)
  · exact network (by decide) (by decide)
  · exact (network6 (by decide) (by decide) (by decide)).mpr (by unfold PrintsDotted FourByte; decide)
  · exact ((accepted (by decide)).mpr (by decide)).2
  · exact ((accepted6 (by decide)).mpr (by decide)).1

/-- The address `::100:0` and the network `::ffff:a00:0/104` do not come back. An IPv4 field
takes the latter for a network with a prefix length of 104, and an IPv6 field takes
`10.0.0.0/8` for one of 8. -/
theorem codecs_lose_and_accept :
    ¬ IP6.Restores 0x1000000 ∧ ¬ IP6Net.Restores ⟨some 0xffff0a000000, 104⟩ ∧
      (IP4Net.unmarshalJSON "\"::ffff:10.0.0.0/104\"" = .ok ⟨0x0a000000, 104⟩ ∧ ¬ 104 ≤ 32) ∧
      IP6Net.unmarshalJSON "\"10.0.0.0/8\"" = .ok ⟨some 0xffff0a000000, 8⟩ ∧
        ¬ (WrittenIPv6 "\"10.0.0.0/8\"" ∧ IP6Net.IsPrefix ⟨some 0xffff0a000000, 8⟩) := by
  have accepted : IP6Net.unmarshalJSON "\"10.0.0.0/8\"" = .ok ⟨some 0xffff0a000000, 8⟩ := by
    decide
  refine ⟨?_, ?_, ⟨by decide, by decide⟩, accepted, ?_⟩
  · rw [IP6.restores_iff (by decide), not_not]
    exact ⟨by decide, by decide⟩
  · rw [IP6Net.restores_iff (by decide) (by decide) (by decide), not_not]
    exact .inr ⟨by decide, by decide⟩
  · rw [IP6Net.wellFormed_iff accepted]
    decide

end Flannel.Ip
