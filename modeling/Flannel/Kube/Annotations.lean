import Flannel.Kube.Manager
import Flannel.Net.Cidr
import Flannel.Text.Pattern
import Mathlib.Data.List.Count

/-!
# The annotation keys

`newAnnotations` completes the prefix with a slash or a hyphen and compares it with a regular
expression whose start is not anchored. So any text may stand before a domain of two labels,
against the comment; and the name `-` alone is refused, since the expression wants a character
before the final hyphen.
-/

namespace Flannel.Kube

open Text RegularExpression

structure AllAnnotations extends Annotations where
  backendNodePublicIP : String
  backendNodePublicIPv6 : String
  backendPublicIPOverwrite : String
  backendPublicIPv6Overwrite : String
  deriving DecidableEq

def nameChars : List Char :=
  "abcdefghijklmnopqrstuvwxyz0123456789_-".toList

/-- The pattern `(?:[a-z0-9_-]+\.)+[a-z0-9_-]+/(?:[a-z0-9_-]+-)?`. -/
def annotationPattern : RegularExpression Char :=
  many (many (oneOf nameChars) * char '.') *
    (many (oneOf nameChars) * (char '/' * optional (many (oneOf nameChars) * char '-')))

def withSlash (start : List Char) : List Char :=
  if start.count '/' = 0 then start ++ ['/'] else start

def withHyphen (start : List Char) : List Char :=
  if start.getLast? = some '/' ∨ start.getLast? = some '-' then start else start ++ ['-']

def keyWords : List String :=
  ["kube-subnet-manager", "backend-data", "backend-v6-data", "backend-type", "public-ip",
    "node-public-ip", "public-ip-overwrite", "public-ipv6", "node-public-ipv6",
    "public-ipv6-overwrite"]

def annotationsOf (start : String) : AllAnnotations where
  subnetKubeManaged := start ++ "kube-subnet-manager"
  backendData := start ++ "backend-data"
  backendV6Data := start ++ "backend-v6-data"
  backendType := start ++ "backend-type"
  backendPublicIP := start ++ "public-ip"
  backendNodePublicIP := start ++ "node-public-ip"
  backendPublicIPOverwrite := start ++ "public-ip-overwrite"
  backendPublicIPv6 := start ++ "public-ipv6"
  backendNodePublicIPv6 := start ++ "node-public-ipv6"
  backendPublicIPv6Overwrite := start ++ "public-ipv6-overwrite"

def completed (annotationPrefix : String) : List Char :=
  withHyphen (withSlash annotationPrefix.toList)

def newAnnotations (annotationPrefix : String) : Except String AllAnnotations :=
  if 1 < annotationPrefix.toList.count '/' then
    .error "subnet/kube: prefix can contain at most single slash"
  else if !matchString annotationPattern (completed annotationPrefix) then
    .error "subnet/kube: prefix must be in a format: fqdn/[0-9a-z-_]*"
  else .ok (annotationsOf (String.ofList (completed annotationPrefix)))

def AllAnnotations.keys (a : AllAnnotations) : List String :=
  [a.subnetKubeManaged, a.backendData, a.backendV6Data, a.backendType, a.backendPublicIP,
    a.backendNodePublicIP, a.backendPublicIPOverwrite, a.backendPublicIPv6,
    a.backendNodePublicIPv6, a.backendPublicIPv6Overwrite]

theorem keys_annotationsOf (start : String) :
    (annotationsOf start).keys = keyWords.map (start ++ ·) :=
  rfl

/-! ## The documented grammar -/

def IsLabel (label : List Char) : Prop :=
  label ≠ [] ∧ ∀ c ∈ label, c ∈ nameChars

def IsDomain (text : List Char) : Prop :=
  ∃ labels : List (List Char), 2 ≤ labels.length ∧ (∀ label ∈ labels, IsLabel label) ∧
    text = ['.'].intercalate labels

def IsName (text : List Char) : Prop :=
  ∀ c ∈ text, c ∈ nameChars

instance (text : List Char) : Decidable (IsName text) :=
  decidable_of_iff (text.all (nameChars.contains ·) = true) (by simp [IsName])

instance (label : List Char) : Decidable (IsLabel label) :=
  inferInstanceAs (Decidable (label ≠ [] ∧ IsName label))

/-- The prefixes that the comment in `newAnnotations` describes: a domain, or a domain, a slash and a
name. -/
def Documented (text : List Char) : Prop :=
  IsDomain text ∨ ∃ domain name, IsDomain domain ∧ IsName name ∧ text = domain ++ '/' :: name

def domainPart (text : List Char) : List Char :=
  text.takeWhile (· != '/')

def namePart (text : List Char) : List Char :=
  (text.dropWhile (· != '/')).drop 1

def EndsInDomain (text : List Char) : Prop :=
  ∃ before c label, c ∈ nameChars ∧ IsLabel label ∧ text = before ++ c :: '.' :: label

def IsEnding (text : List Char) : Prop :=
  text = [] ∨ ∃ word, IsLabel word ∧ text = word ++ ['-']

theorem slash_notMem_nameChars : '/' ∉ nameChars := by
  decide

theorem hyphen_mem_nameChars : '-' ∈ nameChars := by
  decide

theorem slash_notMem_of_isName {text : List Char} (isName : IsName text) : '/' ∉ text :=
  fun member => slash_notMem_nameChars (isName _ member)

/-! ## What the pattern matches -/

theorem mem_label_iff {text : List Char} :
    text ∈ (many (oneOf nameChars)).matches' ↔ IsLabel text :=
  mem_many_oneOf_iff

theorem mem_ending_iff {text : List Char} :
    text ∈ (optional (many (oneOf nameChars) * char '-')).matches' ↔ IsEnding text := by
  rw [mem_optional_iff, mem_seq_iff]
  constructor
  · rintro (rfl | ⟨word, isLabel, _, rfl, rfl⟩)
    · exact .inl rfl
    · exact .inr ⟨word, mem_label_iff.mp isLabel, rfl⟩
  · rintro (rfl | ⟨word, isLabel, rfl⟩)
    · exact .inl rfl
    · exact .inr ⟨word, mem_label_iff.mpr isLabel, ['-'], rfl, rfl⟩

theorem endsInDot_of_mem {text : List Char}
    (isMatch : text ∈ (many (many (oneOf nameChars) * char '.')).matches') :
    ∃ before c, c ∈ nameChars ∧ text = before ++ [c, '.'] := by
  obtain ⟨first, isFirst, parts, all, rfl⟩ := mem_many_iff.mp isMatch
  have dotted : ∀ part, part ∈ (many (oneOf nameChars) * char '.').matches' →
      ∃ before c, c ∈ nameChars ∧ part = before ++ [c, '.'] := by
    intro part isPart
    obtain ⟨label, isLabel, _, rfl, rfl⟩ := mem_seq_iff.mp isPart
    obtain ⟨nonempty, isName⟩ := mem_label_iff.mp isLabel
    obtain ⟨before, c, rfl⟩ := List.eq_nil_or_concat label |>.resolve_left nonempty
    exact ⟨before, c, isName c (by simp), by simp⟩
  -- The last part is the one that counts, so the parts are taken from the end.
  rcases List.eq_nil_or_concat parts with rfl | ⟨init, last, rfl⟩
  · simpa using dotted first isFirst
  · obtain ⟨before, c, inClass, rfl⟩ := dotted last (all last (by simp))
    exact ⟨first ++ init.flatten ++ before, c, inClass, by simp⟩

theorem matchString_annotationPattern_iff {text : List Char} :
    matchString annotationPattern text ↔
      ∃ domain ending, EndsInDomain domain ∧ IsEnding ending ∧ text = domain ++ '/' :: ending := by
  rw [matchString_iff]
  constructor
  · rintro ⟨before, part, isMatch, rfl⟩
    obtain ⟨labels, isLabels, _, afterLabels, rfl⟩ := mem_seq_iff.mp isMatch
    obtain ⟨label, isLabel, _, afterLabel, rfl⟩ := mem_seq_iff.mp afterLabels
    obtain ⟨_, rfl, ending, isEnding, rfl⟩ := mem_seq_iff.mp afterLabel
    obtain ⟨start, c, inClass, rfl⟩ := endsInDot_of_mem isLabels
    refine ⟨before ++ start ++ c :: '.' :: label, ending, ?_, mem_ending_iff.mp isEnding, by simp⟩
    exact ⟨before ++ start, c, label, inClass, mem_label_iff.mp isLabel, rfl⟩
  · rintro ⟨_, ending, ⟨before, c, label, inClass, isLabel, rfl⟩, isEnding, rfl⟩
    refine ⟨before, [c, '.'] ++ (label ++ ('/' :: ending)), ?_, by simp⟩
    have single : IsLabel [c] := ⟨List.cons_ne_nil c [], by simpa using inClass⟩
    apply mem_seq_iff.mpr
    refine ⟨[c, '.'], mem_many_iff.mpr ⟨[c, '.'], ?_, [], by simp, by simp⟩, _, ?_, rfl⟩
    · exact mem_seq_iff.mpr ⟨[c], mem_label_iff.mpr single, ['.'], rfl, rfl⟩
    · refine mem_seq_iff.mpr ⟨label, mem_label_iff.mpr isLabel, _, ?_, rfl⟩
      exact mem_seq_iff.mpr ⟨['/'], rfl, ending, mem_ending_iff.mpr isEnding, rfl⟩

/-! ## The parts of a prefix -/

section Parts

variable {text : List Char}

theorem slash_notMem_domainPart (text : List Char) : '/' ∉ domainPart text := by
  intro member
  simpa using List.mem_takeWhile_imp member

theorem parts_cases (single : text.count '/' ≤ 1) :
    (text = domainPart text ∧ namePart text = [] ∧ text.count '/' = 0) ∨
      (text = domainPart text ++ '/' :: namePart text ∧ '/' ∉ namePart text ∧
        text.count '/' = 1) := by
  have split : domainPart text ++ text.dropWhile (· != '/') = text := List.takeWhile_append_dropWhile
  have noSlash : (domainPart text).count '/' = 0 :=
    List.count_eq_zero.mpr (slash_notMem_domainPart text)
  cases rest : text.dropWhile (· != '/') with
  | nil =>
    rw [rest, List.append_nil] at split
    refine .inl ⟨split.symm, by rw [namePart, rest, List.drop_nil], ?_⟩
    rw [← split, noSlash]
  | cons c after =>
    have isSlash : c = '/' := by
      have first := List.head?_dropWhile_not (· != '/') text
      rw [rest] at first
      simpa using first
    subst isSlash
    have isName : namePart text = after := by rw [namePart, rest, List.drop_one, List.tail_cons]
    rw [rest] at split
    have count : text.count '/' = after.count '/' + 1 := by
      rw [← split, List.count_append, noSlash, List.count_cons_self, Nat.zero_add]
    rw [isName]
    refine .inr ⟨split.symm, List.count_eq_zero.mp (by omega), by omega⟩

theorem parts_append {domain name : List Char} (noSlash : '/' ∉ domain) :
    domainPart (domain ++ '/' :: name) = domain ∧ namePart (domain ++ '/' :: name) = name := by
  have isDomain : ∀ c ∈ domain, (c != '/') := by
    intro c member
    simpa using fun isSlash : c = '/' => noSlash (isSlash ▸ member)
  constructor
  · rw [domainPart, List.takeWhile_append_of_pos isDomain]
    simp
  · rw [namePart, List.dropWhile_append_of_pos isDomain]
    simp

theorem parts_of_notMem (noSlash : '/' ∉ text) : domainPart text = text ∧ namePart text = [] := by
  have all : ∀ c ∈ text, (c != '/') := by
    intro c member
    simpa using fun isSlash : c = '/' => noSlash (isSlash ▸ member)
  constructor
  · rw [domainPart, List.takeWhile_eq_self_iff]
    exact all
  · rw [namePart, List.dropWhile_eq_nil_iff.mpr all]
    rfl

def closed (name : List Char) : List Char :=
  if name = [] ∨ name.getLast? = some '-' then name else name ++ ['-']

theorem withHyphen_append {domain name : List Char} (noSlash : '/' ∉ name) :
    withHyphen (domain ++ '/' :: name) = domain ++ '/' :: closed name := by
  rcases List.eq_nil_or_concat name with rfl | ⟨init, last, rfl⟩
  · simp [withHyphen, closed]
  · have isLast : last ≠ '/' := by
      rintro rfl
      simp at noSlash
    have lastOf : (domain ++ '/' :: (init ++ [last])).getLast? = some last := by
      rw [← List.cons_append, ← List.append_assoc, List.getLast?_concat]
    rw [List.concat_eq_append, withHyphen, closed, lastOf]
    by_cases hyphen : last = '-'
    · simp [hyphen]
    · simp [hyphen, isLast]

theorem completed_eq {annotationPrefix : String}
    (single : annotationPrefix.toList.count '/' ≤ 1) :
    completed annotationPrefix =
      domainPart annotationPrefix.toList ++ '/' :: closed (namePart annotationPrefix.toList) := by
  rcases parts_cases single with ⟨whole, noName, count⟩ | ⟨whole, noSlash, count⟩
  · rw [completed, withSlash, if_pos count, noName]
    conv_lhs => rw [whole]
    exact withHyphen_append List.not_mem_nil
  · rw [completed, withSlash, if_neg (by omega)]
    conv_lhs => rw [whole]
    exact withHyphen_append noSlash

theorem isEnding_closed_iff {name : List Char} :
    IsEnding (closed name) ↔ IsName name ∧ name ≠ ['-'] := by
  rcases List.eq_nil_or_concat name with rfl | ⟨init, last, rfl⟩
  · simp [closed, IsEnding, IsName]
  · by_cases hyphen : last = '-'
    · subst hyphen
      have isClosed : closed (init ++ ['-']) = init ++ ['-'] := by simp [closed]
      rw [List.concat_eq_append, isClosed]
      constructor
      · rintro (empty | ⟨word, ⟨nonempty, isName⟩, same⟩)
        · simp at empty
        · obtain rfl := List.append_cancel_right same
          refine ⟨?_, by simpa using nonempty⟩
          intro c member
          rcases List.mem_append.mp member with member | member
          · exact isName c member
          · exact List.mem_singleton.mp member ▸ hyphen_mem_nameChars
      · rintro ⟨isName, notAlone⟩
        refine .inr ⟨init, ⟨by simpa using notAlone, ?_⟩, rfl⟩
        exact fun c member => isName c (List.mem_append_left _ member)
    · have isClosed : closed (init ++ [last]) = init ++ [last] ++ ['-'] := by simp [closed, hyphen]
      rw [List.concat_eq_append, isClosed]
      constructor
      · rintro (empty | ⟨word, ⟨_, isName⟩, same⟩)
        · simp at empty
        · obtain rfl := List.append_cancel_right same
          refine ⟨isName, ?_⟩
          intro alone
          exact hyphen (by simpa using congrArg List.getLast? alone)
      · rintro ⟨isName, _⟩
        exact .inr ⟨init ++ [last], ⟨by simp, isName⟩, rfl⟩

theorem slash_notMem_closed {name : List Char} (noSlash : '/' ∉ name) : '/' ∉ closed name := by
  unfold closed
  split_ifs
  · exact noSlash
  · simp [noSlash]

theorem slash_notMem_namePart (single : text.count '/' ≤ 1) : '/' ∉ namePart text := by
  rcases parts_cases single with ⟨_, noName, _⟩ | ⟨_, noSlash, _⟩
  · rw [noName]
    exact List.not_mem_nil
  · exact noSlash

end Parts

theorem newAnnotations_eq_ok_iff {annotationPrefix : String} :
    (∃ a, newAnnotations annotationPrefix = .ok a) ↔
      annotationPrefix.toList.count '/' ≤ 1 ∧ EndsInDomain (domainPart annotationPrefix.toList) ∧
        IsName (namePart annotationPrefix.toList) ∧ namePart annotationPrefix.toList ≠ ['-'] := by
  by_cases several : 1 < annotationPrefix.toList.count '/'
  · simp [newAnnotations, several]
  · have single : annotationPrefix.toList.count '/' ≤ 1 := by omega
    have accepted : (∃ a, newAnnotations annotationPrefix = .ok a) ↔
        matchString annotationPattern (completed annotationPrefix) := by
      rw [newAnnotations, if_neg several]
      cases matchString annotationPattern (completed annotationPrefix) <;> simp
    rw [accepted, matchString_annotationPattern_iff, completed_eq single, ← isEnding_closed_iff,
      and_iff_right single]
    have noSlash := slash_notMem_closed (slash_notMem_namePart single)
    constructor
    · rintro ⟨domain, ending, endsInDomain, isEnding, same⟩
      -- The slash of the match is the only one.
      obtain ⟨rfl, _, rfl⟩ :=
        (List.append_cons_inj_of_notMem (slash_notMem_domainPart _) noSlash).mp same
      exact ⟨endsInDomain, isEnding⟩
    · rintro ⟨endsInDomain, isEnding⟩
      exact ⟨_, _, endsInDomain, isEnding, rfl⟩

/-! ## The documented grammar and the accepted one -/

section Grammar

variable {text : List Char}

theorem mem_domain_cases {c : Char} (isDomain : IsDomain text) (member : c ∈ text) :
    c = '.' ∨ c ∈ nameChars := by
  obtain ⟨labels, _, all, rfl⟩ := isDomain
  rcases Net.mem_of_mem_intercalate member with isDot | ⟨label, isLabel, member⟩
  · exact .inl isDot
  · exact .inr ((all label isLabel).2 c member)

theorem slash_notMem_of_isDomain (isDomain : IsDomain text) : '/' ∉ text := by
  intro member
  rcases mem_domain_cases isDomain member with isDot | inClass
  · cases isDot
  · exact slash_notMem_nameChars inClass

theorem endsInDomain_of_isDomain (isDomain : IsDomain text) : EndsInDomain text := by
  obtain ⟨labels, atLeastTwo, all, rfl⟩ := isDomain
  induction labels with
  | nil => simp at atLeastTwo
  | cons label labels ih =>
    cases labels with
    | nil => simp at atLeastTwo
    | cons second rest =>
      rw [List.intercalate_cons_cons]
      cases rest with
      | nil =>
        rw [List.intercalate_singleton]
        obtain ⟨nonempty, isName⟩ := all label (.head _)
        obtain ⟨before, c, rfl⟩ := (List.eq_nil_or_concat label).resolve_left nonempty
        exact ⟨before, c, second, isName c (by simp), all second (by simp), by simp⟩
      | cons third rest =>
        have atLeast : 2 ≤ (second :: third :: rest).length := by simp
        have others : ∀ label ∈ second :: third :: rest, IsLabel label :=
          fun label isLabel => all label (.tail _ isLabel)
        obtain ⟨before, c, last, inClass, isLabel, same⟩ := ih atLeast others
        rw [same]
        exact ⟨label ++ '.' :: before, c, last, inClass, isLabel, by simp⟩

theorem documented_iff : Documented text ↔
    text.count '/' ≤ 1 ∧ IsDomain (domainPart text) ∧ IsName (namePart text) := by
  constructor
  · rintro (isDomain | ⟨domain, name, isDomain, isName, rfl⟩)
    · have noSlash := slash_notMem_of_isDomain isDomain
      obtain ⟨whole, noName⟩ := parts_of_notMem noSlash
      rw [whole, noName, List.count_eq_zero.mpr noSlash]
      exact ⟨by omega, isDomain, fun c member => absurd member List.not_mem_nil⟩
    · have noSlash := slash_notMem_of_isDomain isDomain
      obtain ⟨whole, noName⟩ := @parts_append domain name noSlash
      rw [whole, noName, List.count_append, List.count_cons_self, List.count_eq_zero.mpr noSlash,
        List.count_eq_zero.mpr (slash_notMem_of_isName isName)]
      exact ⟨by omega, isDomain, isName⟩
  · rintro ⟨single, isDomain, isName⟩
    rcases parts_cases single with ⟨whole, _, _⟩ | ⟨whole, _, _⟩
    · left
      rwa [whole]
    · exact .inr ⟨_, _, isDomain, isName, whole⟩

end Grammar

theorem keys_of_newAnnotations {annotationPrefix : String} {a : AllAnnotations}
    (accepted : newAnnotations annotationPrefix = .ok a) :
    a = annotationsOf (String.ofList (completed annotationPrefix)) ∧
      (completed annotationPrefix).count '/' = 1 := by
  unfold newAnnotations at accepted
  split_ifs at accepted with several
  cases accepted
  refine ⟨rfl, ?_⟩
  have single : annotationPrefix.toList.count '/' ≤ 1 := by omega
  rw [completed_eq single, List.count_append, List.count_cons_self,
    List.count_eq_zero.mpr (slash_notMem_domainPart _),
    List.count_eq_zero.mpr (slash_notMem_closed (slash_notMem_namePart single))]

theorem slash_notMem_keyWords : ∀ word ∈ keyWords, '/' ∉ word.toList := by
  decide

theorem nodup_keys (start : String) : (annotationsOf start).keys.Nodup := by
  rw [keys_annotationsOf]
  refine List.Nodup.map ?_ (by decide)
  intro first second same
  apply String.toList_inj.mp
  simpa using congrArg String.toList same

theorem count_slash_of_mem_keys {start key : String} (member : key ∈ (annotationsOf start).keys) :
    key.toList.count '/' = start.toList.count '/' := by
  rw [keys_annotationsOf] at member
  obtain ⟨word, isWord, rfl⟩ := List.mem_map.mp member
  rw [String.toList_append, List.count_append,
    List.count_eq_zero.mpr (slash_notMem_keyWords word isWord), Nat.add_zero]

/-- `newAnnotations` does with a prefix what its comment says. -/
structure AsDocumented (annotationPrefix : String) : Prop where
  accepts : (∃ a, newAnnotations annotationPrefix = .ok a) ↔ Documented annotationPrefix.toList
  oneSlash : ∀ a, newAnnotations annotationPrefix = .ok a →
    ∀ key ∈ a.keys, key.toList.count '/' = 1
  distinct : ∀ a, newAnnotations annotationPrefix = .ok a → a.keys.Nodup

/-- The domain is not one, but ends in one: the pattern is not anchored. -/
structure Unanchored (text : List Char) : Prop where
  single : text.count '/' ≤ 1
  endsInDomain : EndsInDomain (domainPart text)
  notDomain : ¬ IsDomain (domainPart text)
  isName : IsName (namePart text)
  notHyphen : namePart text ≠ ['-']

structure LoneHyphen (text : List Char) : Prop where
  single : text.count '/' ≤ 1
  isDomain : IsDomain (domainPart text)
  hyphen : namePart text = ['-']

/-- The keys are always fit; the accepted prefixes are the documented ones except for those with other
text before the domain, and for the name that is a lone hyphen. -/
theorem asDocumented_iff (annotationPrefix : String) :
    AsDocumented annotationPrefix ↔
      ¬ Unanchored annotationPrefix.toList ∧ ¬ LoneHyphen annotationPrefix.toList := by
  constructor
  · intro asDocumented
    have accepts := asDocumented.accepts
    rw [newAnnotations_eq_ok_iff, documented_iff] at accepts
    constructor
    · intro unanchored
      have accepted := accepts.mp
        ⟨unanchored.single, unanchored.endsInDomain, unanchored.isName, unanchored.notHyphen⟩
      exact unanchored.notDomain accepted.2.1
    · rintro ⟨single, isDomain, hyphen⟩
      have isName : IsName (namePart annotationPrefix.toList) := by
        rw [hyphen]
        exact fun c member => List.mem_singleton.mp member ▸ hyphen_mem_nameChars
      exact (accepts.mpr ⟨single, isDomain, isName⟩).2.2.2 hyphen
  · rintro ⟨anchored, noHyphen⟩
    constructor
    · rw [newAnnotations_eq_ok_iff, documented_iff]
      constructor
      · rintro ⟨single, endsInDomain, isName, notHyphen⟩
        refine ⟨single, ?_, isName⟩
        by_contra notDomain
        exact anchored ⟨single, endsInDomain, notDomain, isName, notHyphen⟩
      · rintro ⟨single, isDomain, isName⟩
        refine ⟨single, endsInDomain_of_isDomain isDomain, isName, ?_⟩
        exact fun hyphen => noHyphen ⟨single, isDomain, hyphen⟩
    · intro a accepted key member
      obtain ⟨rfl, count⟩ := keys_of_newAnnotations accepted
      rw [count_slash_of_mem_keys member, String.toList_ofList, count]
    · intro a accepted
      obtain ⟨rfl, _⟩ := keys_of_newAnnotations accepted
      exact nodup_keys _

theorem asDocumented_of_default : AsDocumented "flannel.alpha.coreos.com" := by
  refine (asDocumented_iff _).mpr ⟨fun unanchored => unanchored.notDomain ?_, fun lone => ?_⟩
  · refine ⟨["flannel".toList, "alpha".toList, "coreos".toList, "com".toList], ?_, ?_, ?_⟩
    · decide
    · decide
    · decide
  · revert lone
    rintro ⟨_, _, hyphen⟩
    revert hyphen
    decide

/-- A mail address is accepted, and a domain with the name `-` is not. -/
theorem accepts_mail_address :
    (∃ a, newAnnotations "user@example.com" = .ok a) ∧ ¬ Documented "user@example.com".toList ∧
      (¬ ∃ a, newAnnotations "example.com/-" = .ok a) ∧ Documented "example.com/-".toList ∧
      ¬ AsDocumented "user@example.com" ∧ ¬ AsDocumented "example.com/-" := by
  have accepted : ∃ a, newAnnotations "user@example.com" = .ok a := by
    refine newAnnotations_eq_ok_iff.mpr ⟨by decide, ?_, ?_, by decide⟩
    · refine ⟨"user@exampl".toList, 'e', "com".toList, by decide, ?_, by decide⟩
      decide
    · decide
  have notDocumented : ¬ Documented "user@example.com".toList := by
    rw [documented_iff]
    rintro ⟨_, isDomain, _⟩
    rcases mem_domain_cases (c := '@') isDomain (by decide) with isDot | inClass
    · cases isDot
    · revert inClass
      decide
  have refused : ¬ ∃ a, newAnnotations "example.com/-" = .ok a := by
    rw [newAnnotations_eq_ok_iff]
    rintro ⟨_, _, _, notHyphen⟩
    exact notHyphen (by decide)
  have documented : Documented "example.com/-".toList := by
    refine documented_iff.mpr ⟨by decide, ⟨["example".toList, "com".toList], ?_, ?_, ?_⟩, ?_⟩
    · decide
    · decide
    · decide
    · decide
  refine ⟨accepted, notDocumented, refused, documented, ?_, ?_⟩
  · intro asDocumented
    exact notDocumented (asDocumented.accepts.mp accepted)
  · intro asDocumented
    exact refused (asDocumented.accepts.mpr documented)

end Flannel.Kube
