import Flannel.Kube.Publish
import Flannel.Text.Fields
import Flannel.Vxlan.Network

/-!
# The stored VTEP address

After a restart the VXLAN backend asks for the hardware addresses that it had before.
`GetStoredMacAddresses` cuts them out of the annotations, under keys made of the prefix as it
stands, a slash and the name of the annotation: those of `newAnnotations` only if the prefix has
no slash.
-/

namespace Flannel.Kube

open Net Subnet Text Vxlan

def marshalAttrs (attrs : VxlanLeaseAttrs) : String :=
  String.ofList (writeObject
    [("VNI".toList, Nat.toDigits 10 attrs.vni),
      ("VtepMAC".toList, '"' :: (HardwareAddr.string attrs.vtepMAC ++ ['"']))])

def macOf : Option String → String
  | none => ""
  | some backendData =>
    match split [':', '"'] (trim ['"', '\x7d'] backendData.toList) with
    | [_, mac] => String.ofList mac
    | _ => ""

def Publisher.getStoredMacAddresses (p : Publisher) : Option Node → String × String
  | none => ("", "")
  | some node =>
    (macOf (node.annotations.lookup (p.annotationPrefix ++ "/backend-data")),
      macOf (node.annotations.lookup (p.annotationPrefix ++ "/backend-v6-data")))

theorem fst_getStoredMacAddresses (p : Publisher) (node : Node) :
    (p.getStoredMacAddresses (some node)).1 =
      macOf (node.annotations.lookup (p.annotationPrefix ++ "/backend-data")) :=
  rfl

theorem snd_getStoredMacAddresses (p : Publisher) (node : Node) :
    (p.getStoredMacAddresses (some node)).2 =
      macOf (node.annotations.lookup (p.annotationPrefix ++ "/backend-v6-data")) :=
  rfl

/-! ## Cutting out the address -/

section Cut

variable {mac : HardwareAddr}

theorem mem_string_cases {c : Char} (member : c ∈ HardwareAddr.string mac) :
    c = ':' ∨ isHex c := by
  rcases mem_of_mem_intercalate member with isColon | ⟨digits, isDigits, member⟩
  · exact .inl isColon
  · obtain ⟨byte, _, rfl⟩ := List.mem_map.mp isDigits
    have small := byte.isLt
    right
    rcases List.mem_cons.mp member with rfl | member
    · exact isHex_digitChar (by omega)
    · rw [List.mem_singleton.mp member]
      exact isHex_digitChar (by omega)

theorem quote_notMem_string : '"' ∉ HardwareAddr.string mac := by
  intro member
  rcases mem_string_cases member with isColon | hex
  · cases isColon
  · revert hex
    decide

theorem string_eq_concat (nonempty : mac ≠ []) :
    ∃ init last, HardwareAddr.string mac = init ++ [last] ∧ isHex last := by
  induction mac with
  | nil => contradiction
  | cons byte rest ih =>
    cases rest with
    | nil =>
      refine ⟨[(byte.toNat / 16).digitChar], (byte.toNat % 16).digitChar, ?_, ?_⟩
      · rw [HardwareAddr.string, List.map_singleton, List.intercalate_singleton]
        rfl
      · exact isHex_digitChar (Nat.mod_lt _ (by decide))
    | cons next rest =>
      obtain ⟨init, last, isText, hex⟩ := ih (List.cons_ne_nil next rest)
      refine ⟨[(byte.toNat / 16).digitChar, (byte.toNat % 16).digitChar] ++ [':'] ++ init, last,
        ?_, hex⟩
      rw [HardwareAddr.string] at isText ⊢
      rw [List.map_cons] at isText
      rw [List.map_cons, List.map_cons, List.intercalate_cons_cons, isText]
      simp

theorem toList_marshalAttrs (attrs : VxlanLeaseAttrs) :
    (marshalAttrs attrs).toList =
      "\x7b\"VNI\"".toList ++ ':' :: (Nat.toDigits 10 attrs.vni ++ ",\"VtepMAC\"".toList) ++
        ':' :: '"' :: HardwareAddr.string attrs.vtepMAC ++ ['"', '\x7d'] := by
  have vni : writeString "VNI".toList = "\"VNI\"".toList := by decide
  have vtepMAC : writeString "VtepMAC".toList = "\"VtepMAC\"".toList := by decide
  rw [marshalAttrs, String.toList_ofList, writeObject]
  simp only [List.map_cons, List.map_nil, writeMember, vni, vtepMAC]
  simp [List.intercalate]

theorem split_data (vni : Nat) :
    split [':', '"'] ("\x7b\"VNI\"".toList ++
        ':' :: (Nat.toDigits 10 vni ++ ",\"VtepMAC\"".toList) ++
        ':' :: '"' :: HardwareAddr.string mac) =
      ["\x7b\"VNI\"".toList ++ ':' :: (Nat.toDigits 10 vni ++ ",\"VtepMAC\"".toList),
        HardwareAddr.string mac] := by
  have name : ':' ∉ "\x7b\"VNI\"".toList := by decide
  have digits : ∀ c ∈ Nat.toDigits 10 vni, c ≠ ':' ∧ c ≠ '"' := by
    intro c member
    have decimal := isDecimal_of_mem_toDigits member
    constructor <;> rintro rfl <;> revert decimal <;> decide
  have middle : ':' ∉ Nat.toDigits 10 vni ++ ",\"VtepMAC\"".toList := by
    rw [List.mem_append, not_or]
    exact ⟨fun member => (digits ':' member).1 rfl, by decide⟩
  have nonempty : Nat.toDigits 10 vni ≠ [] := Nat.toDigits_ne_nil
  obtain ⟨digit, rest, isNumber⟩ := List.exists_cons_of_ne_nil nonempty
  rw [split, List.append_assoc, splitLoop_append name, List.cons_append, List.nil_append]
  rw [isNumber, List.cons_append] at middle ⊢
  rw [List.cons_append, splitLoop_cons_cons (digits digit (by simp [isNumber])).2,
    ← List.cons_append, splitLoop_append middle, splitLoop_separator,
    splitLoop_of_notMem quote_notMem_string]
  simp

theorem macOf_marshalAttrs {attrs : VxlanLeaseAttrs} (nonempty : attrs.vtepMAC ≠ []) :
    macOf (some (marshalAttrs attrs)) = String.ofList (HardwareAddr.string attrs.vtepMAC) := by
  obtain ⟨init, last, isText, hex⟩ := string_eq_concat nonempty
  have trimmed : trim ['"', '\x7d'] (marshalAttrs attrs).toList =
      "\x7b\"VNI\"".toList ++ ':' :: (Nat.toDigits 10 attrs.vni ++ ",\"VtepMAC\"".toList) ++
        ':' :: '"' :: HardwareAddr.string attrs.vtepMAC := by
    have ends : last ∉ ['"', '\x7d'] := by
      intro member
      rcases List.mem_cons.mp member with rfl | member
      · revert hex
        decide
      · rw [List.mem_singleton.mp member] at hex
        revert hex
        decide
    have cut := @trim_append ['"', '\x7d']
      ("\"VNI\"".toList ++ ':' :: (Nat.toDigits 10 attrs.vni ++ ",\"VtepMAC\"".toList) ++
        ':' :: '"' :: init) ['"', '\x7d'] '\x7b' last (by decide) ends (by simp)
    rw [toList_marshalAttrs, isText]
    simpa using cut
  simp only [macOf, trimmed, split_data]

end Cut

/-! ## The keys -/

structure FindsStored (p : Publisher) (node : Node) (mac macv6 : Option HardwareAddr) : Prop where
  ipv4 : ∀ address ∈ mac,
    (p.getStoredMacAddresses (some node)).1 = String.ofList (HardwareAddr.string address)
  ipv6 : ∀ address ∈ macv6,
    (p.getStoredMacAddresses (some node)).2 = String.ofList (HardwareAddr.string address)

structure Stored (p : Publisher) (node : Node) (vni : Nat) (mac macv6 : Option HardwareAddr) :
    Prop where
  ipv4 : ∀ address ∈ mac, address.length = 6 ∧
    node.annotations.lookup p.annotations.backendData = some (marshalAttrs ⟨vni, address⟩)
  ipv6 : ∀ address ∈ macv6, address.length = 6 ∧
    node.annotations.lookup p.annotations.backendV6Data = some (marshalAttrs ⟨vni, address⟩)

section Keys

variable {p : Publisher} {node : Node} {vni : Nat} {mac macv6 : Option HardwareAddr}

theorem completed_of_notMem {annotationPrefix : String} (noSlash : '/' ∉ annotationPrefix.toList) :
    String.ofList (completed annotationPrefix) = annotationPrefix ++ "/" := by
  apply String.toList_inj.mp
  obtain ⟨whole, noName⟩ := parts_of_notMem noSlash
  have none : annotationPrefix.toList.count '/' ≤ 1 := by
    rw [List.count_eq_zero.mpr noSlash]
    decide
  rw [String.toList_ofList, completed_eq none, whole, noName]
  simp [closed]

theorem lookup_eq_none {key : String} (keys : ∀ entry ∈ node.annotations, entry.1.toList.count '/' ≤ 1)
    (slashes : 1 < key.toList.count '/') : node.annotations.lookup key = none := by
  rw [List.lookup_eq_none_iff]
  intro entry member
  rw [bne_iff_ne]
  rintro rfl
  have := keys entry member
  omega

theorem annotationPrefix_of_newKubeSubnetManager {sc : Config} {nodeName annotationPrefix : String}
    (made : newKubeSubnetManager sc nodeName annotationPrefix = .ok p) :
    p.annotationPrefix = annotationPrefix := by
  simp only [newKubeSubnetManager, bind_eq_ok_iff] at made
  obtain ⟨annotations, _, result⟩ := made
  cases result
  rfl

theorem count_slash_key {annotationPrefix word : String} (plain : '/' ∉ word.toList)
    (slash : '/' ∈ annotationPrefix.toList) :
    1 < (annotationPrefix ++ ("/" ++ word)).toList.count '/' := by
  have positive := List.count_pos_iff.mpr slash
  simp only [String.toList_append, List.count_append, List.count_eq_zero.mpr plain]
  have one : "/".toList.count '/' = 1 := by decide
  omega

theorem string_ne_nil {address : HardwareAddr} (six : address.length = 6) :
    String.ofList (HardwareAddr.string address) ≠ "" := by
  have nonempty : address ≠ [] := by
    rintro rfl
    cases six
  obtain ⟨init, last, isText, _⟩ := string_eq_concat nonempty
  rw [isText]
  intro empty
  simpa using congrArg String.toList empty

/-- The stored addresses are found exactly if the prefix has no slash. Kubernetes has no annotations
whose keys have two of them. -/
theorem findsStored_iff {sc : Config} {nodeName annotationPrefix : String}
    (made : newKubeSubnetManager sc nodeName annotationPrefix = .ok p)
    (keys : ∀ entry ∈ node.annotations, entry.1.toList.count '/' ≤ 1)
    (stored : Stored p node vni mac macv6) (family : mac.isSome = true ∨ macv6.isSome = true) :
    FindsStored p node mac macv6 ↔ '/' ∉ annotationPrefix.toList := by
  have isPrefix := annotationPrefix_of_newKubeSubnetManager made
  constructor
  · intro finds slash
    have noData : node.annotations.lookup (p.annotationPrefix ++ "/backend-data") = none := by
      rw [isPrefix]
      exact lookup_eq_none keys (@count_slash_key _ "backend-data" (by decide) slash)
    have noV6Data : node.annotations.lookup (p.annotationPrefix ++ "/backend-v6-data") = none := by
      rw [isPrefix]
      exact lookup_eq_none keys (@count_slash_key _ "backend-v6-data" (by decide) slash)
    rcases family with isSome | isSome
    · obtain ⟨address, isAddress⟩ := Option.isSome_iff_exists.mp isSome
      have found := finds.ipv4 address isAddress
      rw [fst_getStoredMacAddresses, noData] at found
      exact string_ne_nil (stored.ipv4 address isAddress).1 found.symm
    · obtain ⟨address, isAddress⟩ := Option.isSome_iff_exists.mp isSome
      have found := finds.ipv6 address isAddress
      rw [snd_getStoredMacAddresses, noV6Data] at found
      exact string_ne_nil (stored.ipv6 address isAddress).1 found.symm
  · intro noSlash
    have annotations := keys_of_newKubeSubnetManager made
    rw [completed_of_notMem noSlash, ← isPrefix] at annotations
    have nonempty : ∀ address : HardwareAddr, address.length = 6 → address ≠ [] := by
      rintro _ six rfl
      cases six
    constructor
    · intro address isAddress
      obtain ⟨six, isData⟩ := stored.ipv4 address isAddress
      rw [annotations] at isData
      have key : (annotationsOf (p.annotationPrefix ++ "/")).backendData =
          p.annotationPrefix ++ "/backend-data" :=
        String.append_assoc
      rw [fst_getStoredMacAddresses, ← key, isData]
      exact macOf_marshalAttrs (nonempty address six)
    · intro address isAddress
      obtain ⟨six, isData⟩ := stored.ipv6 address isAddress
      rw [annotations] at isData
      have key : (annotationsOf (p.annotationPrefix ++ "/")).backendV6Data =
          p.annotationPrefix ++ "/backend-v6-data" :=
        String.append_assoc
      rw [snd_getStoredMacAddresses, ← key, isData]
      exact macOf_marshalAttrs (nonempty address six)

end Keys

def vtepAddress : HardwareAddr :=
  [0x12, 0xc6, 0x65, 0x89, 0xb4, 0xe3]

def vtepV6Address : HardwareAddr :=
  [0x66, 0x0f, 0x00, 0xa0, 0x0b, 0xff]

def storingNode (start : String) : Node :=
  ((dualNode "1" "2").annotate (start ++ "backend-data") (marshalAttrs ⟨1, vtepAddress⟩)).annotate
    (start ++ "backend-v6-data") (marshalAttrs ⟨1, vtepV6Address⟩)

theorem findsStored_of_default :
    FindsStored dualPublisher (storingNode "flannel.alpha.coreos.com/") (some vtepAddress)
      (some vtepV6Address) := by
  have stored : Stored dualPublisher (storingNode "flannel.alpha.coreos.com/") 1 (some vtepAddress)
      (some vtepV6Address) := by
    constructor
    · rintro _ ⟨⟩
      exact ⟨rfl, by decide⟩
    · rintro _ ⟨⟩
      exact ⟨rfl, by decide +kernel⟩
  exact (findsStored_iff newKubeSubnetManager_dual (by decide +kernel) stored (.inl rfl)).mpr
    (by decide)

def namedPublisher : Publisher where
  enableIPv4 := true
  enableIPv6 := true
  annotations := annotationsOf "example.com/blue-"
  annotationPrefix := "example.com/blue"
  nodeName := "worker-2"
  subnetConf := dualConfig

theorem newKubeSubnetManager_named :
    newKubeSubnetManager dualConfig "worker-2" "example.com/blue" = .ok namedPublisher := by
  have accepted : ∃ a, newAnnotations "example.com/blue" = .ok a := by
    refine newAnnotations_eq_ok_iff.mpr ⟨by decide, ?_, ?_, by decide⟩
    · refine ⟨"exampl".toList, 'e', "com".toList, by decide, ?_, by decide⟩
      decide
    · decide
  obtain ⟨a, accepted⟩ := accepted
  rw [newKubeSubnetManager, accepted, (keys_of_newAnnotations accepted).1]
  decide

/-- With the prefix `example.com/blue` the data is stored under `example.com/blue-backend-data` and
sought under `example.com/blue/backend-data`. -/
theorem not_findsStored_of_named :
    newKubeSubnetManager dualConfig "worker-2" "example.com/blue" = .ok namedPublisher ∧
      Stored namedPublisher (storingNode "example.com/blue-") 1 (some vtepAddress)
        (some vtepV6Address) ∧
      namedPublisher.getStoredMacAddresses (some (storingNode "example.com/blue-")) = ("", "") ∧
      ¬ FindsStored namedPublisher (storingNode "example.com/blue-") (some vtepAddress)
        (some vtepV6Address) := by
  have nothing : namedPublisher.getStoredMacAddresses (some (storingNode "example.com/blue-")) =
      ("", "") := by
    decide +kernel
  refine ⟨newKubeSubnetManager_named, ?_, nothing, ?_⟩
  · constructor
    · rintro _ ⟨⟩
      exact ⟨rfl, by decide⟩
    · rintro _ ⟨⟩
      exact ⟨rfl, by decide +kernel⟩
  · intro finds
    have found := finds.ipv4 vtepAddress rfl
    rw [nothing] at found
    exact @string_ne_nil vtepAddress rfl found.symm

end Flannel.Kube
