import Flannel.Mesh.Layout

/-!
# Printed rules

A printer of rules in the form of `iptables -S`: words with blanks are quoted, and the destination
of every address is not printed.
-/

namespace Flannel.Mesh

open Net Text

def printWord (word : String) : List Char :=
  if word.toList.any isUnicodeSpace then '"' :: word.toList ++ ['"'] else word.toList

def printedWords : List String → List String
  | flag :: value :: rest =>
    if flag = "-d" ∧ value = "0.0.0.0/0" then rest else flag :: printedWords (value :: rest)
  | words => words

def appendChain : List Char :=
  "-A FLANNEL-POSTRTG".toList

def save (rulespec : List String) : String :=
  String.ofList (appendChain ++ (printedWords rulespec).flatMap fun word => ' ' :: printWord word)

theorem fields_append_words (before : List Char) (words : List String) :
    fields (before ++ words.flatMap fun word => ' ' :: printWord word) =
      fields before ++ words.flatMap fun word => fields (printWord word) := by
  induction words generalizing before with
  | nil => simp
  | cons word words ih =>
    rw [List.flatMap_cons, List.cons_append, fields_append_cons (by decide), ih, List.flatMap_cons]

structure IsWord (word : String) : Prop where
  plain : ∀ c ∈ word.toList, isUnicodeSpace c = false
  nonempty : word.toList ≠ []
  noFlag : word ≠ "-d"

theorem fields_printWord {word : String} (plain : ∀ c ∈ word.toList, isUnicodeSpace c = false)
    (nonempty : word.toList ≠ []) : fields (printWord word) = [word.toList] := by
  have unquoted : word.toList.any isUnicodeSpace = false := by
    rw [List.any_eq_false]
    intro c mem
    simp [plain c mem]
  rw [printWord, unquoted]
  exact fields_of_plain plain nonempty

instance (word : String) : Decidable (IsWord word) :=
  decidable_of_iff (word.toList.all (fun c => !isUnicodeSpace c) = true ∧ word.toList ≠ [] ∧ word ≠ "-d")
    ⟨fun ⟨plain, nonempty, noFlag⟩ => ⟨by simpa using plain, nonempty, noFlag⟩,
      fun isWord => ⟨by simpa using isWord.plain, isWord.nonempty, isWord.noFlag⟩⟩

theorem IsWord.fields {word : String} (isWord : IsWord word) :
    Text.fields (printWord word) = [word.toList] :=
  fields_printWord isWord.plain isWord.nonempty

theorem fields_printWord_text (c : Cidr) : Text.fields (printWord c.text) = [c.text.toList] := by
  have isText : c.text.toList = dotted c.bits ++ '/' :: Nat.toDigits 10 c.ones :=
    toList_string_v4 c.bits c.ones
  apply fields_printWord
  · intro char mem
    rw [isText, List.mem_append, List.mem_cons] at mem
    rcases mem with mem | rfl | mem
    · exact forall_mem_dotted (P := (isUnicodeSpace · = false)) (by decide) (by decide) c.bits char mem
    · decide
    · exact forall_mem_toDigits (P := (isUnicodeSpace · = false)) (by decide) (by decide) c.ones char mem
  · simp [isText]

theorem mem_printedWords {word : String} (noFlag : word ≠ "-d") (noValue : word ≠ "0.0.0.0/0")
    {words : List String} (mem : word ∈ words) : word ∈ printedWords words := by
  fun_induction printedWords words with
  | case1 flag value rest isDefault =>
    obtain ⟨rfl, rfl⟩ := isDefault
    simpa [noFlag, noValue] using mem
  | case2 flag value rest other ih =>
    rcases List.mem_cons.mp mem with rfl | mem
    · exact (.head _)
    · exact List.mem_cons_of_mem flag (ih mem)
  | case3 words other => exact mem

theorem contains_save {word : String} {rulespec : List String} (mem : word ∈ printedWords rulespec) :
    contains (save rulespec).toList word.toList := by
  obtain ⟨before, after, split⟩ := List.append_of_mem mem
  obtain ⟨left, right, isPrinted⟩ : ∃ left right, printWord word = left ++ (word.toList ++ right) := by
    rw [printWord]
    split_ifs
    · exact ⟨['"'], ['"'], List.singleton_append.symm⟩
    · exact ⟨[], [], by rw [List.append_nil, List.nil_append]⟩
  have isText : (save rulespec).toList =
      (appendChain ++ (before.flatMap fun word => ' ' :: printWord word) ++ ' ' :: left) ++
        (word.toList ++ (right ++ after.flatMap fun word => ' ' :: printWord word)) := by
    simp [save, split, isPrinted]
  rw [isText]
  exact contains_append _ _ _

/-! ## The destination -/

theorem destinationOf_eq_none {words : List (List Char)} (absent : ['-', 'd'] ∉ words) :
    RouteManager.destinationOf words = none := by
  fun_induction RouteManager.destinationOf words with
  | case1 value rest => exact absurd (.head _) absent
  | case2 flag value rest other ih => exact ih fun mem => absent (.tail flag mem)
  | case3 words other => rfl

structure RouteManager.Plain (m : RouteManager) : Prop where
  cluster : IsWord m.clusterCIDR
  link : IsWord m.linkName
  snat : IsWord m.localSNATIP

theorem Cidr.text_eq_zero_iff (c : Cidr) : c.text = "0.0.0.0/0" ↔ c.ones = 0 := by
  have isZero : (⟨0, 0, by decide, by decide⟩ : Cidr).text = "0.0.0.0/0" := by decide
  rw [← isZero, Cidr.text_injective.eq_iff]
  constructor
  · rintro rfl
    rfl
  · intro none
    obtain ⟨bits, ones, bound, aligned⟩ := c
    obtain rfl : ones = 0 := none
    obtain rfl : bits = 0 := by
      have noMask : cidrMask 32 0 = 0 := by decide
      simpa [Aligned, noMask] using aligned.symm
    rfl

theorem fields_save (rulespec : List String) :
    Text.fields (save rulespec).toList = ['-', 'A'] :: "FLANNEL-POSTRTG".toList ::
      (printedWords rulespec).flatMap fun word => Text.fields (printWord word) := by
  have command : Text.fields appendChain = [['-', 'A'], "FLANNEL-POSTRTG".toList] := by decide
  rw [save, String.toList_ofList, fields_append_words, command]
  rfl

theorem prints_save {m : RouteManager} (plain : m.Plain) : Prints save m where
  comment dst := by
    apply contains_save
    apply mem_printedWords (by decide) (by decide)
    simp [RouteManager.hostSNATRule]
  destination c := by
    have isSource : m.clusterCIDR ≠ "-d" := plain.cluster.noFlag
    have flag : ∀ {word : String}, IsWord word → ¬ ['-', 'd'] = word.toList := by
      intro word isWord same
      exact isWord.noFlag (String.toList_inj.mp same.symm)
    rw [fields_save]
    by_cases everything : c.ones = 0
    · have isText : c.net.string = "0.0.0.0/0" := (Cidr.text_eq_zero_iff c).mpr everything
      have isPrinted : printedWords (m.hostSNATRule c.net) =
          ["!", "-s", m.clusterCIDR, "-m", "addrtype", "--src-type", "LOCAL", "-o", m.linkName,
            "-m", "comment", "--comment", hostSNATComment, "-j", "SNAT", "--to-source",
            m.localSNATIP] := by
        simp [RouteManager.hostSNATRule, printedWords, isText, isSource]
      rw [if_pos everything, isPrinted]
      apply destinationOf_eq_none
      simp only [List.flatMap_cons, List.flatMap_nil, List.mem_cons, List.mem_append,
        plain.cluster.fields, plain.link.fields, plain.snat.fields, flag plain.cluster, flag plain.link, flag plain.snat, false_or, List.not_mem_nil, or_false]
      decide
    · have isText : c.net.string ≠ "0.0.0.0/0" := mt (Cidr.text_eq_zero_iff c).mp everything
      obtain ⟨rest, isPrinted⟩ : ∃ rest, printedWords (m.hostSNATRule c.net) =
          "!" :: "-s" :: m.clusterCIDR :: "-d" :: c.text :: rest := by
        refine ⟨printedWords ((m.hostSNATRule c.net).drop 5), ?_⟩
        simp [RouteManager.hostSNATRule, printedWords, isText, isSource, Cidr.text]
      have source : ¬ m.clusterCIDR.toList = ['-', 'd'] := fun same => flag plain.cluster same.symm
      have words : ["!", "-s", "-d"].map (fun word => Text.fields (printWord word)) =
          [[['!']], [['-', 's']], [['-', 'd']]] := by decide
      simp only [List.map_cons, List.map_nil, List.cons.injEq, and_true] at words
      rw [if_neg everything, isPrinted]
      simp only [List.flatMap_cons, plain.cluster.fields, fields_printWord_text, words, List.cons_append,
        List.nil_append]
      have isString : c.net.string = c.text := rfl
      simp [RouteManager.destinationOf, source, isString]

/-! ## A manager -/

def nodeManager : RouteManager where
  linkName := "CloudflareWARP"
  table := 120
  meshCIDR := "100.96.0.0/12"
  clusterCIDR := "10.244.0.0/16"
  localSNATIP := "10.244.0.1"

theorem plain_nodeManager : nodeManager.Plain where
  cluster := by decide
  link := by decide
  snat := by decide

def otherCidr : Cidr :=
  ⟨0x0af40100, 24, by decide, by decide⟩

def thirdCidr : Cidr :=
  ⟨0x0af40200, 24, by decide, by decide⟩

end Flannel.Mesh
