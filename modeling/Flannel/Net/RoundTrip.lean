import Flannel.Net.Address
import Mathlib.Data.List.TakeWhile
import Mathlib.Data.List.Basic

/-!
# Printed addresses parse back

The dotted form by splitting at the dots, the group form by following the group loop of the parser
up to the `::`, across it, and to the end.
-/

namespace Flannel.Net

open Text

/-! ## Dotted texts -/

theorem parseOctet_toDigits {n : Nat} (small : n < 256) :
    parseOctet (Nat.toDigits 10 n) = some n := by
  have value : numeral 10 (Nat.toDigits 10 n) = n := numeral_toDigits (by decide) (by decide) n
  have decimals : (Nat.toDigits 10 n).all isDecimal := by
    rw [List.all_eq_true]
    exact fun c mem => isDecimal_of_mem_toDigits mem
  cases shape : Nat.toDigits 10 n with
  | nil => exact absurd shape Nat.toDigits_ne_nil
  | cons first rest =>
    have noLeadingZero : (first == '0' && !rest.isEmpty) = false := by
      cases rest with
      | nil => simp
      | cons second rest => simp [head_toDigits_ne_zero (by decide) shape]
    rw [shape] at value decimals
    rw [parseOctet, decimals, noLeadingZero, value]
    simp [Nat.le_of_lt_succ small]

theorem mapM_map_eq_some {α β : Type} {read : β → Option α} {write : α → β} {values : List α}
    (back : ∀ value ∈ values, read (write value) = some value) :
    (values.map write).mapM read = some values := by
  induction values with
  | nil => rfl
  | cons value values ih =>
    have first := back value (.head _)
    have rest := ih fun other mem => back other (.tail value mem)
    simp [first, rest]

theorem splitOn_dotted (bits : BitVec 32) :
    (dotted bits).splitOn '.' = (bigEndian 256 4 bits.toNat).map (Nat.toDigits 10) := by
  apply List.splitOn_intercalate
  · intro field mem dot
    rcases List.mem_map.mp mem with ⟨octet, _, rfl⟩
    exact absurd (isDecimal_of_mem_toDigits dot) (by decide)
  · simp [bigEndian]

theorem parseIPv4_dotted (bits : BitVec 32) : parseIPv4 (dotted bits) = some bits := by
  have fields : ((dotted bits).splitOn '.').mapM parseOctet = some (bigEndian 256 4 bits.toNat) := by
    rw [splitOn_dotted]
    apply mapM_map_eq_some
    intro octet mem
    exact parseOctet_toDigits (lt_of_mem_bigEndian (by decide) mem)
  have value : ofBigEndian 256 (bigEndian 256 4 bits.toNat) = bits.toNat := by
    rw [ofBigEndian_bigEndian]
    exact Nat.mod_eq_of_lt bits.isLt
  simp [parseIPv4, fields, value]

theorem find_append_cons {p : Char → Bool} {before after : List Char} {c : Char}
    (none : ∀ d ∈ before, p d = false) (found : p c) :
    (before ++ c :: after).find? p = some c := by
  induction before with
  | nil => simp [found]
  | cons d before ih =>
    rw [List.cons_append, List.find?_cons_of_neg]
    · exact ih fun e mem => none e (.tail d mem)
    · rw [none d List.mem_cons_self]
      exact Bool.false_ne_true

theorem dotted_eq (bits : BitVec 32) :
    ∃ first rest, dotted bits = Nat.toDigits 10 first ++ '.' :: rest := by
  refine ⟨bits.toNat / 256 / 256 / 256 % 256, ['.'].intercalate ([bits.toNat / 256 / 256 % 256,
    bits.toNat / 256 % 256, bits.toNat % 256].map (Nat.toDigits 10)), ?_⟩
  simp [dotted, bigEndian]

theorem isSeparator_of_isDecimal {c : Char} (decimal : isDecimal c) :
    (c == '.' || c == ':' || c == '%') = false := by
  have dot : c ≠ '.' := fun equal => absurd (equal ▸ decimal) (by decide)
  have colon : c ≠ ':' := fun equal => absurd (equal ▸ decimal) (by decide)
  have percent : c ≠ '%' := fun equal => absurd (equal ▸ decimal) (by decide)
  simp [dot, colon, percent]

theorem parseAddr_dotted (bits : BitVec 32) : parseAddr (dotted bits) = some (.v4 bits) := by
  have found : (dotted bits).find? (fun c => c == '.' || c == ':' || c == '%') = some '.' := by
    rcases dotted_eq bits with ⟨first, rest, shape⟩
    rw [shape]
    apply find_append_cons
    · exact fun d mem => isSeparator_of_isDecimal (isDecimal_of_mem_toDigits mem)
    · decide
  simp [parseAddr, found, parseIPv4_dotted]

/-! ## Group texts -/

theorem isHex_ne_colon {c : Char} (hex : isHex c) : c ≠ ':' :=
  fun equal => absurd (equal ▸ hex) (by decide)

variable {value : Nat} {parts : List Nat}

theorem parseGroup_toDigits_append (small : value < 65536) {after : List Char}
    (stop : ∀ c, after.head? = some c → isHex c = false) :
    parseGroup (Nat.toDigits 16 value ++ after) = some (value, after) := by
  have hexes : ∀ c ∈ Nat.toDigits 16 value, isHex c := fun c mem => isHex_of_mem_toDigits mem
  have stopTake : after.takeWhile isHex = [] := by
    cases after with
    | nil => rfl
    | cons c after => simp [stop c rfl]
  have stopDrop : after.dropWhile isHex = after := by
    cases after with
    | nil => rfl
    | cons c after => simp [stop c rfl]
  have taken : (Nat.toDigits 16 value ++ after).takeWhile isHex = Nat.toDigits 16 value := by
    rw [List.takeWhile_append_of_pos hexes, stopTake, List.append_nil]
  have dropped : (Nat.toDigits 16 value ++ after).dropWhile isHex = after := by
    rw [List.dropWhile_append_of_pos hexes, stopDrop]
  have short : (Nat.toDigits 16 value).length ≤ 4 :=
    (Nat.length_toDigits_le_iff (by decide) (by decide)).mpr small
  have positive : 0 < (Nat.toDigits 16 value).length := Nat.length_toDigits_pos
  rw [parseGroup, taken, dropped, numeral_toDigits (by decide) (by decide)]
  rw [if_neg (by omega)]

theorem joinGroups_singleton (value : Nat) : joinGroups [value] = Nat.toDigits 16 value := by
  simp [joinGroups]

theorem joinGroups_cons_cons (value next : Nat) (parts : List Nat) :
    joinGroups (value :: next :: parts) =
      Nat.toDigits 16 value ++ ':' :: joinGroups (next :: parts) := by
  simp [joinGroups, List.intercalate_cons_cons]

theorem joinGroups_cons_eq (value : Nat) (parts : List Nat) :
    ∃ c text, joinGroups (value :: parts) = c :: text ∧ isHex c := by
  cases shape : Nat.toDigits 16 value with
  | nil => exact absurd shape Nat.toDigits_ne_nil
  | cons c digits =>
    have hex : isHex c := isHex_of_mem_toDigits (shape ▸ List.mem_cons_self)
    cases parts with
    | nil => exact ⟨c, digits, by rw [joinGroups_singleton, shape], hex⟩
    | cons next parts =>
      exact ⟨c, digits ++ ':' :: joinGroups (next :: parts),
        by rw [joinGroups_cons_cons, shape, List.cons_append], hex⟩

theorem parseGroups_colon {fuel : Nat} {ellipsis : Option Nat}
    (small : value < 65536) {c : Char} {text : List Char} (hex : isHex c) :
    parseGroups (fuel + 1) parts ellipsis (Nat.toDigits 16 value ++ ':' :: c :: text) =
      parseGroups fuel (parts ++ [value]) ellipsis (c :: text) := by
  have group : parseGroup (Nat.toDigits 16 value ++ ':' :: c :: text) =
      some (value, ':' :: c :: text) := by
    apply parseGroup_toDigits_append small
    intro d head
    cases head
    decide
  have notColon := isHex_ne_colon hex
  rw [parseGroups, group]
  simp only
  split
  · contradiction
  · rename_i _ equal
    simp at equal
  · rename_i equal
    simp at equal
  · rename_i _ equal
    exact absurd (List.cons_eq_cons.mp (List.cons_eq_cons.mp equal).2).1 notColon
  · rename_i _ equal
    rw [(List.cons_eq_cons.mp equal).2]
  · rename_i notSeparator equal
    exact absurd (List.cons_eq_cons.mp equal).1.symm notSeparator

theorem parseGroups_joinGroups {fuel : Nat} {before : List Nat} {ellipsis : Option Nat}
    (small : ∀ group ∈ value :: parts, group < 65536) (room : parts.length + 1 ≤ fuel) :
    parseGroups fuel before ellipsis (joinGroups (value :: parts)) =
      some (before ++ value :: parts, ellipsis, []) := by
  induction parts generalizing fuel value before with
  | nil =>
    obtain ⟨fuel, rfl⟩ := Nat.exists_eq_add_of_le' room
    have group : parseGroup (joinGroups [value]) = some (value, []) := by
      have read : parseGroup (Nat.toDigits 16 value ++ []) = some (value, []) :=
        parseGroup_toDigits_append (small value (.head _)) (by simp)
      rwa [List.append_nil, ← joinGroups_singleton] at read
    simp [parseGroups, group]
  | cons next parts ih =>
    obtain ⟨fuel, rfl⟩ := Nat.exists_eq_add_of_le' (Nat.le_trans (Nat.le_add_left 1 _) room)
    obtain ⟨c, text, shape, hex⟩ := joinGroups_cons_eq next parts
    rw [joinGroups_cons_cons, shape, parseGroups_colon (small value (.head _)) hex,
      ← shape, ih (fun group mem => small group (.tail value mem))]
    · simp
    · simp only [List.length_cons] at room
      omega

theorem parseGroups_ellipsis {fuel : Nat} (small : value < 65536) (text : List Char) :
    parseGroups (fuel + 1) parts none (Nat.toDigits 16 value ++ ':' :: ':' :: text) =
      if text = [] then some (parts ++ [value], some (parts.length + 1), [])
      else parseGroups fuel (parts ++ [value]) (some (parts.length + 1)) text := by
  have group : parseGroup (Nat.toDigits 16 value ++ ':' :: ':' :: text) =
      some (value, ':' :: ':' :: text) := by
    apply parseGroup_toDigits_append small
    intro d head
    cases head
    decide
  rw [parseGroups, group]
  simp

theorem parseGroups_joinGroups_ellipsis {fuel : Nat} {before : List Nat}
    (small : ∀ group ∈ value :: parts, group < 65536) (text : List Char) :
    parseGroups (fuel + (parts.length + 1)) before none
        (joinGroups (value :: parts) ++ ':' :: ':' :: text) =
      if text = [] then
        some (before ++ value :: parts, some (before.length + (parts.length + 1)), [])
      else
        parseGroups fuel (before ++ value :: parts)
          (some (before.length + (parts.length + 1))) text := by
  induction parts generalizing value before with
  | nil =>
    rw [joinGroups_singleton]
    exact parseGroups_ellipsis (small value (.head _)) text
  | cons next parts ih =>
    obtain ⟨c, rest, shape, hex⟩ := joinGroups_cons_eq next parts
    have later := @ih next (before ++ [value])
      (fun group mem => small group (.tail value mem))
    rw [shape] at later
    rw [joinGroups_cons_cons, shape, List.append_assoc, List.cons_append, List.cons_append,
      List.length_cons, ← Nat.add_assoc fuel,
      parseGroups_colon (small value (.head _)) hex, ← List.cons_append, later]
    simp [Nat.add_assoc, Nat.add_comm 1]

theorem drop_eq_zeros_append (parts : List Nat) (start : Nat) :
    parts.drop start =
      List.replicate (zerosFrom parts start) 0 ++ parts.drop (start + zerosFrom parts start) := by
  have zeros : (parts.drop start).takeWhile (· == 0) =
      List.replicate (zerosFrom parts start) 0 := by
    apply List.eq_replicate_iff.mpr
    refine ⟨rfl, fun value mem => ?_⟩
    simpa using List.mem_takeWhile_imp mem
  have split := List.takeWhile_append_dropWhile (p := (· == 0)) (l := parts.drop start)
  have dropped : (parts.drop start).dropWhile (· == 0) =
      parts.drop (start + zerosFrom parts start) := by
    rw [← List.drop_drop]
    have cut := congrArg (List.drop (zerosFrom parts start)) split
    rwa [zeros, List.drop_left' (by simp)] at cut
  rw [← zeros, ← dropped, split]

theorem zeroRun_spec {first last : Nat} (chosen : zeroRun parts = some (first, last)) :
    first + 2 ≤ last ∧
      parts = parts.take first ++ (List.replicate (last - first) 0 ++ parts.drop last) := by
  have invariant : ∀ best, zeroRun parts = best → ∀ first last, best = some (first, last) →
      first + 2 ≤ last ∧
        parts = parts.take first ++ (List.replicate (last - first) 0 ++ parts.drop last) := by
    intro best run
    subst run
    apply List.foldlRecOn (motive := fun best : Option (Nat × Nat) => ∀ first last,
      best = some (first, last) → first + 2 ≤ last ∧
        parts = parts.take first ++ (List.replicate (last - first) 0 ++ parts.drop last))
    · intro first last impossible
      contradiction
    · intro best ih start _ first last step
      simp only at step
      split_ifs at step with longer
      · rw [Option.some.injEq, Prod.mk.injEq] at step
        rcases step with ⟨rfl, rfl⟩
        refine ⟨Nat.add_le_add_left longer.1 start, ?_⟩
        rw [Nat.add_sub_cancel_left, ← drop_eq_zeros_append, List.take_append_drop]
      · exact ih first last step
  exact invariant _ rfl first last chosen

theorem ofBigEndian_groups (bits : BitVec 128) :
    BitVec.ofNat 128 (ofBigEndian 65536 (groups bits)) = bits := by
  have small : bits.toNat < 65536 ^ 8 := bits.isLt
  rw [groups, ofBigEndian_bigEndian, Nat.mod_eq_of_lt small, BitVec.ofNat_toNat, BitVec.setWidth_eq]

theorem lt_of_mem_groups {bits : BitVec 128} {group : Nat} (mem : group ∈ groups bits) :
    group < 65536 :=
  lt_of_mem_bigEndian (by decide) mem

theorem finishGroups_ellipsis {bits : BitVec 128} {first last : Nat}
    (long : first + 2 ≤ last) (bound : first ≤ 8)
    (split : groups bits = (groups bits).take first ++
      (List.replicate (last - first) 0 ++ (groups bits).drop last)) :
    finishGroups (some ((groups bits).take first ++ (groups bits).drop last, some first, [])) =
      some bits := by
  have total : (groups bits).length = 8 := length_bigEndian _ _ _
  have lengths := congrArg List.length split
  simp only [List.length_append, List.length_replicate, List.length_take, List.length_drop,
    total] at lengths
  have takeLength : ((groups bits).take first).length = first := by
    rw [List.length_take, total]
    omega
  have missing : 8 - ((groups bits).take first ++ (groups bits).drop last).length =
      last - first := by
    simp only [List.length_append, List.length_take, List.length_drop, total]
    omega
  have short : ((groups bits).take first ++ (groups bits).drop last).length < 8 := by
    omega
  rw [finishGroups, if_pos short, Option.map_some, missing, List.take_left' takeLength,
    List.drop_left' takeLength, List.append_assoc, ← split, ofBigEndian_groups]

theorem parseIPv6_groupsText (bits : BitVec 128) :
    parseIPv6 (groupsText (groups bits)) = some bits := by
  have total : (groups bits).length = 8 := length_bigEndian _ _ _
  have small : ∀ group ∈ groups bits, group < 65536 := fun group mem => lt_of_mem_groups mem
  rw [groupsText]
  cases run : zeroRun (groups bits) with
  | none =>
    cases shape : groups bits with
    | nil => rw [shape] at total; contradiction
    | cons value parts =>
      have room : parts.length + 1 = 8 := by rw [← total, shape, List.length_cons]
      obtain ⟨c, text, first, hex⟩ := joinGroups_cons_eq value parts
      have plain : parseIPv6 (joinGroups (value :: parts)) =
          finishGroups (parseGroups 8 [] none (joinGroups (value :: parts))) := by
        rw [first, parseIPv6]
        · intro equal
          exact isHex_ne_colon hex (List.cons_eq_cons.mp equal).1
        · intro rest equal
          exact isHex_ne_colon hex (List.cons_eq_cons.mp equal).1
      simp only
      rw [plain, parseGroups_joinGroups (fun group mem => small group (shape ▸ mem)) (by omega),
        List.nil_append, finishGroups, List.length_cons, if_neg (by omega), ← shape,
        ofBigEndian_groups]
      rfl
  | some interval =>
    rcases interval with ⟨first, last⟩
    obtain ⟨long, split⟩ := zeroRun_spec run
    have lengths := congrArg List.length split
    simp only [List.length_append, List.length_replicate, List.length_take, List.length_drop,
      total] at lengths
    have finished := finishGroups_ellipsis long (by omega) split
    have takeLength : ((groups bits).take first).length = first := by
      rw [List.length_take, total]
      omega
    have dropLength : ((groups bits).drop last).length = 8 - last := by
      rw [List.length_drop, total]
    have smallDrop : ∀ group ∈ (groups bits).drop last, group < 65536 :=
      fun group mem => small group (List.mem_of_mem_drop mem)
    simp only
    cases front : (groups bits).take first with
    | nil =>
      rw [front, List.length_nil] at takeLength
      subst takeLength
      cases back : (groups bits).drop last with
      | nil =>
        rw [front, back] at finished
        rw [← finished]
        rfl
      | cons value parts =>
        rw [back] at smallDrop dropLength
        rw [List.length_cons] at dropLength
        obtain ⟨c, text, shape, hex⟩ := joinGroups_cons_eq value parts
        have start : parseIPv6 (':' :: ':' :: joinGroups (value :: parts)) =
            finishGroups (parseGroups 8 [] (some 0) (joinGroups (value :: parts))) := by
          rw [shape]
          rfl
        have empty : joinGroups [] = [] := rfl
        rw [empty, List.nil_append, start, parseGroups_joinGroups smallDrop (by omega),
          List.nil_append]
        rw [front, back, List.nil_append] at finished
        exact finished
    | cons value parts =>
      rw [front, List.length_cons] at takeLength
      have smallTake : ∀ group ∈ value :: parts, group < 65536 :=
        fun group mem => small group (List.mem_of_mem_take (front ▸ mem))
      obtain ⟨c, text, shape, hex⟩ := joinGroups_cons_eq value parts
      have start : parseIPv6 (joinGroups (value :: parts) ++
          ':' :: ':' :: joinGroups ((groups bits).drop last)) =
          finishGroups (parseGroups (8 - first + (parts.length + 1)) [] none
            (joinGroups (value :: parts) ++
              ':' :: ':' :: joinGroups ((groups bits).drop last))) := by
        rw [show 8 - first + (parts.length + 1) = 8 by omega, shape, List.cons_append,
          parseIPv6]
        · intro equal
          exact isHex_ne_colon hex (List.cons_eq_cons.mp equal).1
        · intro rest equal
          exact isHex_ne_colon hex (List.cons_eq_cons.mp equal).1
      rw [start, parseGroups_joinGroups_ellipsis smallTake, List.length_nil, Nat.zero_add,
        takeLength, List.nil_append, ← front]
      cases back : (groups bits).drop last with
      | nil =>
        rw [back, List.append_nil] at finished
        have empty : joinGroups [] = [] := rfl
        rw [if_pos empty]
        exact finished
      | cons next rest =>
        rw [back] at smallDrop dropLength finished
        rw [List.length_cons] at dropLength
        obtain ⟨d, text, shape, _⟩ := joinGroups_cons_eq next rest
        rw [if_neg (by rw [shape]; simp), parseGroups_joinGroups smallDrop (by omega)]
        exact finished

theorem forall_mem_groupsText {P : Char → Prop} (digit : ∀ k, k < 16 → P k.digitChar)
    (colon : P ':') (parts : List Nat) : ∀ c ∈ groupsText parts, P c := by
  have joined : ∀ parts, ∀ c ∈ joinGroups parts, P c := by
    intro parts
    induction parts with
    | nil => simp [joinGroups]
    | cons value parts ih =>
      cases parts with
      | nil =>
        rw [joinGroups_singleton]
        exact forall_mem_toDigits (by decide) digit value
      | cons next parts =>
        intro c mem
        rw [joinGroups_cons_cons] at mem
        rcases List.mem_append.mp mem with mem | mem
        · exact forall_mem_toDigits (by decide) digit value c mem
        · rcases List.mem_cons.mp mem with rfl | mem
          · exact colon
          · exact ih c mem
  intro c mem
  rw [groupsText] at mem
  split at mem
  · exact joined _ c mem
  · rename_i first last _
    rcases List.mem_append.mp mem with mem | mem
    · exact joined _ c mem
    · rcases List.mem_cons.mp mem with rfl | mem
      · exact colon
      · rcases List.mem_cons.mp mem with rfl | mem
        · exact colon
        · exact joined _ c mem

theorem colon_mem_groupsText (bits : BitVec 128) : ':' ∈ groupsText (groups bits) := by
  rw [groupsText]
  split
  · have total : (groups bits).length = 8 := length_bigEndian _ _ _
    cases shape : groups bits with
    | nil => rw [shape] at total; contradiction
    | cons value parts =>
      cases parts with
      | nil => simp [shape] at total
      | cons next parts => simp [joinGroups_cons_cons]
  · simp

theorem parseAddr_groupsText (bits : BitVec 128) :
    parseAddr (groupsText (groups bits)) = some (.v16 bits) := by
  have found : (groupsText (groups bits)).find? (fun c => c == '.' || c == ':' || c == '%') =
      some ':' := by
    obtain ⟨c, first⟩ : ∃ c, (groupsText (groups bits)).find?
        (fun c => c == '.' || c == ':' || c == '%') = some c := by
      apply Option.isSome_iff_exists.mp
      rw [List.find?_isSome]
      exact ⟨':', colon_mem_groupsText bits, by decide⟩
    have separates := List.find?_some first
    -- Among the characters of a group text only the colon separates.
    have onlyColon : (c == '.' || c == ':' || c == '%') → c = ':' :=
      forall_mem_groupsText
        (P := fun c => (c == '.' || c == ':' || c == '%') → c = ':')
        (by decide) (fun _ => rfl) _ c (List.mem_of_find?_eq_some first)
    rw [first, onlyColon separates]
  simp [parseAddr, found, parseIPv6_groupsText]

/-! ## Networks -/

theorem forall_mem_dotted {P : Char → Prop} (digit : ∀ k, k < 10 → P k.digitChar) (dot : P '.')
    (bits : BitVec 32) : ∀ c ∈ dotted bits, P c := by
  have digits := forall_mem_toDigits (by decide) digit
  intro c mem
  rw [dotted, bigEndian, bigEndian, bigEndian, bigEndian, bigEndian] at mem
  simp only [List.nil_append, List.cons_append, List.map_cons, List.map_nil] at mem
  simp only [List.intercalate, List.intersperse, List.flatten_cons, List.flatten_nil,
    List.append_nil, List.mem_append, List.mem_singleton] at mem
  rcases mem with mem | rfl | mem | rfl | mem | rfl | mem
  all_goals first | exact dot | exact digits _ c mem

theorem slash_notMem_dotted (bits : BitVec 32) : '/' ∉ dotted bits := by
  intro mem
  exact forall_mem_dotted (P := (· ≠ '/')) (by decide) (by decide) bits '/' mem rfl

theorem slash_notMem_groupsText (parts : List Nat) : '/' ∉ groupsText parts := by
  intro mem
  exact forall_mem_groupsText (P := (· ≠ '/')) (by decide) (by decide) parts '/' mem rfl

theorem span_separator {separator : Char} {before : List Char} (absent : separator ∉ before)
    (after : List Char) :
    (before ++ separator :: after).span (· != separator) = (before, separator :: after) := by
  have others : ∀ c ∈ before, (c != separator) := by
    intro c mem
    rw [bne_iff_ne]
    rintro rfl
    exact absent mem
  rw [List.span_eq_takeWhile_dropWhile, List.takeWhile_append_of_pos others,
    List.dropWhile_append_of_pos others]
  simp

theorem span_slash {address : List Char} (noSlash : '/' ∉ address) (length : List Char) :
    (address ++ '/' :: length).span (· != '/') = (address, '/' :: length) :=
  span_separator noSlash length

theorem isNumber_toDigits (n : Nat) :
    ((Nat.toDigits 10 n).isEmpty || !(Nat.toDigits 10 n).all isDecimal) = false := by
  have decimals : (Nat.toDigits 10 n).all isDecimal := by
    rw [List.all_eq_true]
    exact fun c mem => isDecimal_of_mem_toDigits mem
  have nonempty : (Nat.toDigits 10 n).isEmpty = false := by
    rw [List.isEmpty_eq_false_iff]
    exact Nat.toDigits_ne_nil
  rw [decimals, nonempty]
  rfl

variable {address : List Char} {length : Nat}

theorem parseCIDR_v4 {bits : BitVec 32} (noSlash : '/' ∉ address)
    (parsed : parseAddr address = some (.v4 bits)) (valid : length ≤ 32) :
    parseCIDR (String.ofList (address ++ '/' :: Nat.toDigits 10 length)) =
      some ⟨.v4 (bits &&& cidrMask 32 length), length⟩ := by
  have value : numeral 10 (Nat.toDigits 10 length) = length :=
    numeral_toDigits (by decide) (by decide) length
  simp only [parseCIDR, String.toList_ofList, span_slash noSlash, isNumber_toDigits, value, parsed,
    valid, Bool.false_eq_true, if_false, if_true]

theorem parseCIDR_v4_eq_none {bits : BitVec 32} (noSlash : '/' ∉ address)
    (parsed : parseAddr address = some (.v4 bits)) (long : 32 < length) :
    parseCIDR (String.ofList (address ++ '/' :: Nat.toDigits 10 length)) = none := by
  have value : numeral 10 (Nat.toDigits 10 length) = length :=
    numeral_toDigits (by decide) (by decide) length
  simp only [parseCIDR, String.toList_ofList, span_slash noSlash, isNumber_toDigits, value, parsed,
    Nat.not_le.mpr long, Bool.false_eq_true, if_false]

theorem parseCIDR_v16 {bits : BitVec 128} (noSlash : '/' ∉ address)
    (parsed : parseAddr address = some (.v16 bits)) (valid : length ≤ 128) :
    parseCIDR (String.ofList (address ++ '/' :: Nat.toDigits 10 length)) =
      some ⟨.v16 (bits &&& cidrMask 128 length), length⟩ := by
  have value : numeral 10 (Nat.toDigits 10 length) = length :=
    numeral_toDigits (by decide) (by decide) length
  simp only [parseCIDR, String.toList_ofList, span_slash noSlash, isNumber_toDigits, value, parsed,
    valid, Bool.false_eq_true, if_false, if_true]

end Flannel.Net
