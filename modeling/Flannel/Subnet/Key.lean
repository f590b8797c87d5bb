import Flannel.Ip.IP4
import Flannel.Ip.IP6
import Flannel.Text.Regex

/-!
# Subnet keys

The pattern of `subnet.ParseSubnetKey` is anchored at the end only, and two of its dots match any
character. Keys nevertheless read back exactly: the directory name in front has two adjacent
letters that no two adjacent items of the pattern accept, and inside the key the digits leave no
choice.
-/

namespace Flannel.Subnet

open Text Net Ip

/-! ## The source functions -/

def isGroupChar (c : Char) : Bool :=
  isDecimal c || ('a' ≤ c && c ≤ 'f') || c == ':'

def octetsRegex : Regex :=
  .seq (.plus isDecimal) (.seq (.char '.') (.seq (.plus isDecimal)
    (.seq (.single (· != '\n')) (.seq (.plus isDecimal)
      (.seq (.single (· != '\n')) (.plus isDecimal))))))

def ipv6Regex : Regex :=
  .opt (.seq (.char '&') (.seq (.group (.plus isGroupChar))
    (.seq (.char '-') (.group (.plus isDecimal)))))

def subnetRegex : Regex :=
  .seq (.group octetsRegex) (.seq (.char '-') (.seq (.group (.plus isDecimal))
    (.seq ipv6Regex .eos)))

def parseUint (digits : List Char) (bitSize : Nat) : Option Nat :=
  if digits.isEmpty || !digits.all isDecimal then none
  else if numeral 10 digits < 2 ^ bitSize then some (numeral 10 digits)
  else none

def parseSubnetKey (s : String) : Option (IP4Net × Option IP6Net) :=
  match subnetRegex.findSubmatch s.toList with
  | some [ipText, lenText, ip6Text, len6Text] => do
    let snIp ← (parseIP (String.ofList ipText)).bind Net.IP.to4
    let prefixLen ← parseUint lenText 5
    if ip6Text.isEmpty then
      some (⟨snIp, prefixLen⟩, none)
    else
      let snIp6 ← parseIP (String.ofList ip6Text)
      let prefixLen6 ← parseUint len6Text 7
      some (⟨snIp, prefixLen⟩, some ⟨some (fromIP6 snIp6), prefixLen6⟩)
  | _ => none

def makeSubnetKey (sn : IP4Net) (sn6 : IP6Net) : Option String :=
  if sn6.empty then some sn.stringSep
  else sn6.stringSep.map fun text => sn.stringSep ++ "&" ++ text

/-! ## What the pattern matches -/

def Digits (part : List Char) : Prop :=
  part ≠ [] ∧ ∀ c ∈ part, isDecimal c = true

def Octets (part : List Char) : Prop :=
  ∃ a b c d x y, Digits a ∧ Digits b ∧ Digits c ∧ Digits d ∧
    part = a ++ '.' :: (b ++ x :: (c ++ y :: d))

def Tail (captures : List (List Char)) (tail : List Char) : Prop :=
  captures = [[], []] ∧ tail = [] ∨
    ∃ h q, h ≠ [] ∧ (∀ c ∈ h, isGroupChar c = true) ∧ Digits q ∧ captures = [h, q] ∧
      tail = '&' :: (h ++ '-' :: q)

variable {text rest : List Char} {captures : List (List Char)} {tail : List Char}
  {more : List (List Char)}

theorem mem_results_digits_iff :
    (captures, rest) ∈ (Regex.plus isDecimal).results text ↔
      captures = [] ∧ ∃ part, Digits part ∧ text = part ++ rest := by
  rw [Regex.mem_results_plus_iff]
  simp only [Digits, and_assoc]

theorem mem_results_octetsRegex (found : (captures, rest) ∈ octetsRegex.results text) :
    captures = [] ∧ ∃ part, Octets part ∧ text = part ++ rest := by
  simp only [octetsRegex, Regex.mem_results_seq_iff, mem_results_digits_iff,
    Regex.mem_results_char_iff, Regex.mem_results_single_iff] at found
  obtain ⟨_, _, _, ⟨rfl, a, da, rfl⟩, ⟨_, _, _, ⟨rfl, rfl⟩, ⟨_, _, _, ⟨rfl, b, db, rfl⟩,
    ⟨_, _, _, ⟨rfl, x, _, rfl⟩, ⟨_, _, _, ⟨rfl, c, dc, rfl⟩, ⟨_, _, _, ⟨rfl, y, _, rfl⟩,
      ⟨rfl, d, dd, rfl⟩, rfl⟩, rfl⟩, rfl⟩, rfl⟩, rfl⟩, rfl⟩ := found
  refine ⟨rfl, a ++ '.' :: (b ++ x :: (c ++ y :: d)), ⟨a, b, c, d, x, y, da, db, dc, dd, rfl⟩, ?_⟩
  simp

theorem mem_results_octetsRegex_of {a b c d : List Char} (da : Digits a) (db : Digits b)
    (dc : Digits c) (dd : Digits d) (rest : List Char) :
    ([], rest) ∈ octetsRegex.results ((a ++ '.' :: (b ++ '.' :: (c ++ '.' :: d))) ++ rest) := by
  simp only [octetsRegex, Regex.mem_results_seq_iff, mem_results_digits_iff,
    Regex.mem_results_char_iff, Regex.mem_results_single_iff]
  refine ⟨[], _, [], ⟨rfl, a, da, by simp⟩, ⟨[], _, [], ⟨rfl, rfl⟩, ⟨[], _, [],
    ⟨rfl, b, db, rfl⟩, ⟨[], _, [], ⟨rfl, '.', by decide, rfl⟩, ⟨[], _, [], ⟨rfl, c, dc, rfl⟩,
      ⟨[], _, [], ⟨rfl, '.', by decide, rfl⟩, ⟨rfl, d, dd, rfl⟩, rfl⟩, rfl⟩, rfl⟩, rfl⟩, rfl⟩, rfl⟩

theorem mem_results_ipv6Regex_iff :
    (captures, rest) ∈ ipv6Regex.results text ↔
      ∃ tail, Tail captures tail ∧ text = tail ++ rest := by
  simp only [ipv6Regex, Regex.mem_results_opt_iff, Regex.mem_results_seq_iff,
    Regex.mem_results_char_iff, Regex.mem_results_group_iff, Regex.mem_results_plus_iff]
  constructor
  · rintro (⟨_, _, _, ⟨rfl, rfl⟩, ⟨_, _, _, ⟨_, ⟨rfl, h, hne, hall, rfl⟩, rfl⟩, ⟨_, _, _,
      ⟨rfl, rfl⟩, ⟨_, ⟨rfl, q, qne, qall, rfl⟩, rfl⟩, rfl⟩, rfl⟩, rfl⟩ | ⟨rfl, rfl⟩)
    · refine ⟨'&' :: (h ++ '-' :: q), .inr ⟨h, q, hne, hall, ⟨qne, qall⟩, ?_, rfl⟩, ?_⟩ <;> simp
    · exact ⟨[], .inl ⟨rfl, rfl⟩, rfl⟩
  · rintro ⟨tail, ⟨rfl, rfl⟩ | ⟨h, q, hne, hall, ⟨qne, qall⟩, rfl, rfl⟩, rfl⟩
    · exact .inr ⟨rfl, rfl⟩
    · refine .inl ⟨[], (h ++ '-' :: q) ++ rest, [h, q], ⟨rfl, rfl⟩, ⟨[h], '-' :: q ++ rest, [q],
        ⟨[], ⟨rfl, h, hne, hall, ?_⟩, ?_⟩, ⟨[], q ++ rest, [q], ⟨rfl, rfl⟩,
          ⟨[], ⟨rfl, q, qne, qall, rfl⟩, ?_⟩, rfl⟩, rfl⟩, rfl⟩ <;> simp

theorem mem_results_subnetRegex (found : (captures, rest) ∈ subnetRegex.results text) :
    ∃ part len tail more, Octets part ∧ Digits len ∧ Tail more tail ∧
      captures = part :: len :: more ∧ text = part ++ '-' :: (len ++ tail) := by
  simp only [subnetRegex, Regex.mem_results_seq_iff, Regex.mem_results_group_iff,
    Regex.mem_results_char_iff, mem_results_digits_iff, mem_results_ipv6Regex_iff,
    Regex.mem_results_eos_iff] at found
  obtain ⟨_, _, _, ⟨_, octets, rfl⟩, ⟨_, _, _, ⟨rfl, rfl⟩, ⟨_, _, _, ⟨_, ⟨rfl, len, digits, rfl⟩,
    rfl⟩, ⟨_, _, _, ⟨tail, isTail, rfl⟩, ⟨rfl, rfl, rfl⟩, rfl⟩, rfl⟩, rfl⟩, rfl⟩ := found
  obtain ⟨rfl, part, isOctets, rfl⟩ := mem_results_octetsRegex octets
  refine ⟨part, len, tail, _, isOctets, digits, isTail, ?_, ?_⟩ <;> simp

theorem mem_results_subnetRegex_of {a b c d len : List Char}
    (da : Digits a) (db : Digits b) (dc : Digits c) (dd : Digits d) (digits : Digits len)
    (isTail : Tail more tail) :
    ((a ++ '.' :: (b ++ '.' :: (c ++ '.' :: d))) :: len :: more, []) ∈
      subnetRegex.results ((a ++ '.' :: (b ++ '.' :: (c ++ '.' :: d))) ++ '-' :: (len ++ tail)) := by
  have first := Regex.mem_results_group_of
    (mem_results_octetsRegex_of da db dc dd ('-' :: (len ++ tail)))
  have second : ([len], tail) ∈ (Regex.group (.plus isDecimal)).results (len ++ tail) :=
    Regex.mem_results_group_of (mem_results_digits_iff.mpr ⟨rfl, len, digits, rfl⟩)
  have third : (more, []) ∈ ipv6Regex.results tail :=
    mem_results_ipv6Regex_iff.mpr ⟨tail, isTail, (List.append_nil tail).symm⟩
  have ending : (more, []) ∈ (Regex.seq ipv6Regex .eos).results tail :=
    Regex.mem_results_seq_iff.mpr ⟨more, [], [], third,
      Regex.mem_results_eos_iff.mpr ⟨rfl, rfl, rfl⟩, (List.append_nil more).symm⟩
  have numbers := Regex.mem_results_seq_iff.mpr ⟨_, _, _, second, ending, rfl⟩
  have dash : ([], len ++ tail) ∈ (Regex.char '-').results ('-' :: (len ++ tail)) :=
    Regex.mem_results_char_iff.mpr ⟨rfl, rfl⟩
  exact Regex.mem_results_seq_iff.mpr ⟨_, _, _, first,
    Regex.mem_results_seq_iff.mpr ⟨_, _, _, dash, numbers, rfl⟩, rfl⟩

theorem octets_unique {a b c d part rest' : List Char} (da : Digits a) (db : Digits b)
    (dc : Digits c) (dd : Digits d) (octets : Octets part) (equal : part ++ '-' :: rest =
      (a ++ '.' :: (b ++ '.' :: (c ++ '.' :: d))) ++ '-' :: rest') :
    part = a ++ '.' :: (b ++ '.' :: (c ++ '.' :: d)) ∧ rest = rest' := by
  obtain ⟨a', b', c', d', x, y, da', db', dc', dd', rfl⟩ := octets
  simp only [List.append_assoc, List.cons_append] at equal
  obtain ⟨rfl, -, afterA⟩ := append_cons_inj da'.2 da.2 (by decide) (by decide) equal
  -- If one of the wildcards takes a digit, a dot has to stand where the dash is.
  rcases append_cons_any db'.2 db.2 (by decide) afterA with ⟨rfl, rfl, afterB⟩ | ⟨b'', db'', afterB⟩
  · rcases append_cons_any dc'.2 dc.2 (by decide) afterB with
      ⟨rfl, rfl, afterC⟩ | ⟨c'', dc'', afterC⟩
    · obtain ⟨rfl, -, rfl⟩ := append_cons_inj dd'.2 dd.2 (by decide) (by decide) afterC
      exact ⟨rfl, rfl⟩
    · have dash := (append_cons_inj dd'.2 dc'' (by decide) (by decide) afterC).2.1
      contradiction
  · rcases append_cons_any dc'.2 db'' (by decide) afterB with ⟨_, _, afterC⟩ | ⟨c'', dc'', afterC⟩
    · have dash := (append_cons_inj dd'.2 dc.2 (by decide) (by decide) afterC).2.1
      contradiction
    · have dash := (append_cons_inj dd'.2 dc'' (by decide) (by decide) afterC).2.1
      contradiction

theorem tail_unique {len len' tail' : List Char} {more' : List (List Char)}
    (digits : Digits len) (digits' : Digits len') (isTail : Tail more tail)
    (isTail' : Tail more' tail') (equal : len ++ tail = len' ++ tail') :
    len = len' ∧ more = more' := by
  rcases isTail with ⟨rfl, rfl⟩ | ⟨h, q, _, hall, dq, rfl, rfl⟩ <;>
    rcases isTail' with ⟨rfl, rfl⟩ | ⟨h', q', _, hall', dq', rfl, rfl⟩
  · exact ⟨by simpa using equal, rfl⟩
  · have mem : '&' ∈ len := by
      rw [List.append_nil] at equal
      simp [equal]
    exact absurd (digits.2 _ mem) (by decide)
  · have mem : '&' ∈ len' := by
      rw [List.append_nil] at equal
      simp [← equal]
    exact absurd (digits'.2 _ mem) (by decide)
  · obtain ⟨rfl, -, rest⟩ := append_cons_inj digits.2 digits'.2 (by decide) (by decide) equal
    obtain ⟨rfl, -, rfl⟩ := append_cons_inj hall hall' (by decide) (by decide) rest
    exact ⟨rfl, rfl⟩

/-! ## No match starts before a key -/

theorem results_eq_nil_of_head {c : Char} (other : isDecimal c = false) (text : List Char) :
    subnetRegex.results (c :: text) = [] := by
  rw [List.eq_nil_iff_forall_not_mem]
  rintro ⟨captures, rest⟩ found
  obtain ⟨_, _, _, _, ⟨a, b, c', d, x, y, da, _, _, _, rfl⟩, _, _, _, equal⟩ :=
    mem_results_subnetRegex found
  cases a with
  | nil => exact da.1 rfl
  | cons first a =>
    have same : c = first := (List.cons_eq_cons.mp equal).1
    rw [same, da.2 first List.mem_cons_self] at other
    contradiction

theorem exists_append_mark {before ahead : List Char} {mark : Char}
    (plain : ∀ c ∈ before, c ≠ mark) (equal : before ++ text = ahead ++ mark :: rest) :
    ∃ ahead', text = ahead' ++ mark :: rest := by
  rcases List.append_eq_append_iff.mp equal with ⟨later, rfl, same⟩ | ⟨later, rfl, same⟩
  · exact ⟨later, same⟩
  · cases later with
    | nil => exact ⟨[], by simpa using same.symm⟩
    | cons c later =>
      have here : mark = c := (List.cons_eq_cons.mp same).1
      exact absurd here.symm (plain c (by simp))

theorem exists_append_marks {x : Char} {part ahead : List Char} (digits : Digits part)
    (equal : x :: (part ++ text) = ahead ++ 's' :: 'u' :: rest) :
    ∃ ahead', part ++ text = ahead' ++ 's' :: 'u' :: rest := by
  cases ahead with
  | nil =>
    cases part with
    | nil => exact absurd rfl digits.1
    | cons c part =>
      have follows : c = 'u' := (List.cons_eq_cons.mp (List.cons_eq_cons.mp equal).2).1
      exact absurd (digits.2 c (.head _)) (by rw [follows]; decide)
  | cons c ahead => exact ⟨ahead, (List.cons_eq_cons.mp equal).2⟩

theorem Digits.ne_mark {part : List Char} (digits : Digits part) :
    ∀ c ∈ part, c ≠ 's' := by
  rintro c mem rfl
  exact absurd (digits.2 _ mem) (by decide)

theorem Tail.ne_mark (isTail : Tail more tail) :
    ∀ c ∈ tail, c ≠ 's' := by
  rcases isTail with ⟨_, rfl⟩ | ⟨h, q, _, hall, dq, _, rfl⟩
  · simp
  · have plain : ∀ c ∈ h, c ≠ 's' := by
      rintro c mem rfl
      exact absurd (hall _ mem) (by decide)
    simpa [or_imp, forall_and] using ⟨plain, dq.ne_mark⟩

theorem results_eq_nil_of_marks (ahead rest : List Char) :
    subnetRegex.results (ahead ++ 's' :: 'u' :: rest) = [] := by
  rw [List.eq_nil_iff_forall_not_mem]
  rintro ⟨captures, after⟩ found
  obtain ⟨_, len, tail, _, ⟨a, b, c, d, x, y, da, db, dc, dd, rfl⟩, dl, isTail, _, equal⟩ :=
    mem_results_subnetRegex found
  simp only [List.append_assoc, List.cons_append] at equal
  obtain ⟨ahead, equal⟩ := exists_append_mark da.ne_mark equal.symm
  obtain ⟨ahead, equal⟩ := exists_append_mark (show ∀ c ∈ ['.'], c ≠ 's' by simp) equal
  obtain ⟨ahead, equal⟩ := exists_append_mark db.ne_mark equal
  obtain ⟨ahead, equal⟩ := exists_append_marks dc equal
  obtain ⟨ahead, equal⟩ := exists_append_mark dc.ne_mark equal
  obtain ⟨ahead, equal⟩ := exists_append_marks dd equal
  obtain ⟨ahead, equal⟩ := exists_append_mark dd.ne_mark equal
  obtain ⟨ahead, equal⟩ := exists_append_mark (show ∀ c ∈ ['-'], c ≠ 's' by simp) equal
  obtain ⟨ahead, equal⟩ := exists_append_mark dl.ne_mark equal
  exact absurd rfl (isTail.ne_mark 's' (by rw [equal]; simp))

theorem findSubmatch_key (directory : List Char) {a b c d len : List Char}
    (da : Digits a) (db : Digits b) (dc : Digits c) (dd : Digits d)
    (digits : Digits len) (isTail : Tail more tail) :
    subnetRegex.findSubmatch ((directory ++ "subnets/".toList) ++
        ((a ++ '.' :: (b ++ '.' :: (c ++ '.' :: d))) ++ '-' :: (len ++ tail))) =
      some ((a ++ '.' :: (b ++ '.' :: (c ++ '.' :: d))) :: len :: more) := by
  have marks : "subnets/".toList = 's' :: 'u' :: ['b', 'n', 'e', 't', 's', '/'] := rfl
  rw [Regex.findSubmatch_append]
  · apply Regex.findSubmatch_eq_some (mem_results_subnetRegex_of da db dc dd digits isTail)
    intro other after found
    obtain ⟨part, len', tail', more', octets, digits', isTail', rfl, equal⟩ :=
      mem_results_subnetRegex found
    obtain ⟨rfl, rest⟩ := octets_unique da db dc dd octets equal.symm
    obtain ⟨rfl, rfl⟩ := tail_unique digits' digits isTail' isTail rest
    rfl
  · rintro ahead ⟨before, split⟩ nonempty
    rcases List.append_eq_append_iff.mp split with ⟨later, _, rfl⟩ | ⟨later, _, short⟩
    · rw [marks, List.append_assoc]
      exact results_eq_nil_of_marks later _
    · -- A start inside the directory name would have to be at a digit.
      cases ahead with
      | nil => contradiction
      | cons first ahead =>
        have mem : first ∈ "subnets/".toList := by
          rw [short]
          simp
        have letters : "subnets/".toList.all (fun e => isDecimal e == false) := by decide
        have isLetter := List.all_eq_true.mp letters first mem
        exact results_eq_nil_of_head (beq_iff_eq.mp isLetter) _

theorem digits_toDigits (n : Nat) : Digits (Nat.toDigits 10 n) :=
  ⟨Nat.toDigits_ne_nil, fun _ mem => isDecimal_of_mem_toDigits mem⟩

theorem parseUint_toDigits {n bitSize : Nat} (small : n < 2 ^ bitSize) :
    parseUint (Nat.toDigits 10 n) bitSize = some n := by
  have value : numeral 10 (Nat.toDigits 10 n) = n := numeral_toDigits (by decide) (by decide) n
  simp only [parseUint, isNumber_toDigits, value, small, Bool.false_eq_true, if_false, if_true]

theorem toList_stringSep (sn : IP4Net) :
    sn.stringSep.toList = dotted sn.ip ++ '-' :: Nat.toDigits 10 sn.prefixLen := by
  simp [IP4Net.stringSep, IP4.string_eq]

/-! ## Keys read back -/

theorem dotted_shape (bits : BitVec 32) :
    ∃ a b c d, Digits a ∧ Digits b ∧ Digits c ∧ Digits d ∧
      dotted bits = a ++ '.' :: (b ++ '.' :: (c ++ '.' :: d)) := by
  refine ⟨_, _, _, _, digits_toDigits (bits.toNat / 256 / 256 / 256 % 256),
    digits_toDigits (bits.toNat / 256 / 256 % 256), digits_toDigits (bits.toNat / 256 % 256),
    digits_toDigits (bits.toNat % 256), ?_⟩
  simp [dotted, bigEndian]

theorem to4_parseIP_dotted (bits : BitVec 32) :
    (parseIP (String.ofList (dotted bits))).bind Net.IP.to4 = some bits := by
  rw [parseIP, String.toList_ofList, parseAddr_dotted]
  exact to4_mapped bits

/-- Subnets that their key determines: prefix lengths that fit the pattern's
numbers, and an IPv6 address, if any, that prints as groups. -/
structure Readable (sn : IP4Net) (sn6 : IP6Net) : Prop where
  short : sn.prefixLen < 2 ^ 5
  ipv6 : sn6.empty = false → sn6.prefixLen < 2 ^ 7 ∧ ∃ ip6, sn6.ip = some ip6 ∧ GroupForm ip6

theorem isGroupChar_of_mem_groupsText {parts : List Nat} {c : Char} (mem : c ∈ groupsText parts) :
    isGroupChar c :=
  forall_mem_groupsText (P := fun c => isGroupChar c) (by decide) (by decide) parts c mem

theorem parseSubnetKey_makeSubnetKey {directory key : String} {sn : IP4Net} {sn6 : IP6Net}
    (readable : Readable sn sn6) (made : makeSubnetKey sn sn6 = some key) :
    parseSubnetKey (directory ++ "subnets/" ++ key) =
      some (sn, if sn6.empty then none else some sn6) := by
  obtain ⟨a, b, c, d, da, db, dc, dd, shape⟩ := dotted_shape sn.ip
  have address := to4_parseIP_dotted sn.ip
  have len := digits_toDigits sn.prefixLen
  have lenBack := parseUint_toDigits readable.short
  cases isEmpty : sn6.empty with
  | true =>
    rw [makeSubnetKey, isEmpty, if_pos rfl] at made
    obtain rfl := Option.some.inj made
    have found := findSubmatch_key directory.toList da db dc dd len (.inl ⟨rfl, rfl⟩)
    rw [parseSubnetKey, String.toList_append, String.toList_append, toList_stringSep]
    rw [← shape, List.append_nil] at found
    rw [found]
    simp [address, lenBack]
  | false =>
    obtain ⟨short6, ip6, set, groupForm⟩ := readable.ipv6 isEmpty
    have text : sn6.stringSep = some (String.ofList
        (groupsText (groups (BitVec.ofNat 128 ip6))) ++ "-" ++ toString sn6.prefixLen) := by
      rw [IP6Net.stringSep, set, Option.bind_some, string_of_groupForm groupForm]
      rfl
    rw [makeSubnetKey, isEmpty, if_neg (by simp), text] at made
    rw [Option.map_some, Option.some.injEq] at made
    have nonempty : groupsText (groups (BitVec.ofNat 128 ip6)) ≠ [] :=
      List.ne_nil_of_mem (colon_mem_groupsText _)
    have isTail : Tail [groupsText (groups (BitVec.ofNat 128 ip6)), Nat.toDigits 10 sn6.prefixLen]
        ('&' :: (groupsText (groups (BitVec.ofNat 128 ip6)) ++
          '-' :: Nat.toDigits 10 sn6.prefixLen)) :=
      .inr ⟨_, _, nonempty, fun _ mem => isGroupChar_of_mem_groupsText mem,
        digits_toDigits sn6.prefixLen, rfl, rfl⟩
    have found := findSubmatch_key directory.toList da db dc dd len isTail
    have address6 : parseIP (String.ofList (groupsText (groups (BitVec.ofNat 128 ip6)))) =
        some (.v16 (BitVec.ofNat 128 ip6)) := by
      rw [parseIP, String.toList_ofList, parseAddr_groupsText]
      rfl
    have value : fromIP6 (.v16 (BitVec.ofNat 128 ip6)) = ip6 := by
      rw [fromIP6, Net.IP.to16, BitVec.toNat_ofNat, Nat.mod_eq_of_lt groupForm.1]
    have characters : ∀ text : List Char,
        (sn.stringSep ++ "&" ++ (String.ofList text ++ "-" ++ toString sn6.prefixLen)).toList =
          dotted sn.ip ++ '-' :: (Nat.toDigits 10 sn.prefixLen ++
            '&' :: (text ++ '-' :: Nat.toDigits 10 sn6.prefixLen)) := by
      intro text
      simp [toList_stringSep]
    rw [← shape] at found
    rw [parseSubnetKey, String.toList_append, String.toList_append, ← made, characters, found]
    simp only [address, lenBack, address6, value, parseUint_toDigits short6,
      List.isEmpty_eq_false_iff.mpr nonempty, Option.bind_eq_bind, Option.bind_some]
    simp [IP6Net.ext_iff, set]

theorem exists_makeSubnetKey {sn : IP4Net} {sn6 : IP6Net} (readable : Readable sn sn6) :
    ∃ key, makeSubnetKey sn sn6 = some key := by
  cases isEmpty : sn6.empty with
  | true => exact ⟨sn.stringSep, by rw [makeSubnetKey, isEmpty, if_pos rfl]⟩
  | false =>
    obtain ⟨_, ip6, set, groupForm⟩ := readable.ipv6 isEmpty
    rw [makeSubnetKey, isEmpty, if_neg Bool.false_ne_true, IP6Net.stringSep, set, Option.bind_some,
      string_of_groupForm groupForm]
    exact ⟨_, rfl⟩

/-- Keys determine the subnets they were made of, below every prefix of etcd. -/
theorem subnetKeys_faithful :
    (∀ (etcdPrefix : String) (sn : IP4Net) (sn6 : IP6Net), Readable sn sn6 →
      ∃ key, makeSubnetKey sn sn6 = some key ∧
        parseSubnetKey (etcdPrefix ++ "/subnets/" ++ key) =
          some (sn, if sn6.empty then none else some sn6)) ∧
      ∀ (sn sn' : IP4Net) (sn6 sn6' : IP6Net), Readable sn sn6 → Readable sn' sn6' →
        makeSubnetKey sn sn6 = makeSubnetKey sn' sn6' →
        sn = sn' ∧ (sn6 = sn6' ∨ sn6.empty = true ∧ sn6'.empty = true) := by
  constructor
  · intro etcdPrefix sn sn6 readable
    obtain ⟨key, made⟩ := exists_makeSubnetKey readable
    have read := @parseSubnetKey_makeSubnetKey (etcdPrefix ++ "/") key sn sn6 readable made
    have path : etcdPrefix ++ "/" ++ "subnets/" = etcdPrefix ++ "/subnets/" :=
      String.append_assoc
    rw [path] at read
    exact ⟨key, made, read⟩
  · intro sn sn' sn6 sn6' readable readable' same
    obtain ⟨key, made⟩ := exists_makeSubnetKey readable
    have read := @parseSubnetKey_makeSubnetKey "" key sn sn6 readable made
    rw [parseSubnetKey_makeSubnetKey readable' (same.symm.trans made)] at read
    obtain ⟨rfl, ipv6⟩ := Prod.mk.inj (Option.some.inj read)
    refine ⟨rfl, ?_⟩
    cases isEmpty : sn6.empty with
    | true =>
      cases isEmpty' : sn6'.empty with
      | true => exact .inr ⟨rfl, rfl⟩
      | false => simp [isEmpty, isEmpty'] at ipv6
    | false =>
      cases isEmpty' : sn6'.empty with
      | true => simp [isEmpty, isEmpty'] at ipv6
      | false => exact .inl (by simpa [isEmpty, isEmpty'] using ipv6.symm)

theorem subnetKeys_faithful_dual :
    parseSubnetKey ("/10.9.8.7-6" ++ "/subnets/" ++ "10.5.1.0-24&fc00::-64") =
      some (⟨0x0a050100, 24⟩, some ⟨some 0xfc000000000000000000000000000000, 64⟩) := by
  have readable : Readable ⟨0x0a050100, 24⟩ ⟨some 0xfc000000000000000000000000000000, 64⟩ :=
    ⟨by decide, fun _ => ⟨by decide, _, rfl, by decide, by decide⟩⟩
  obtain ⟨key, made, read⟩ := subnetKeys_faithful.1 "/10.9.8.7-6" _ _ readable
  have isKey : makeSubnetKey ⟨0x0a050100, 24⟩ ⟨some 0xfc000000000000000000000000000000, 64⟩ =
      some "10.5.1.0-24&fc00::-64" := by
    decide
  rw [isKey] at made
  cases made
  exact read

end Flannel.Subnet
